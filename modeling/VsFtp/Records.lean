import VsFtp.Outcomes

/-!
# What kinds of records the outcomes add

Every outcome adds records to the log and changes nothing that is in it.  Which kinds
of records a piece of code can add says where something can have happened: files are
only touched by `RETR`, directories only by `NLST`, and so on.

## Main definitions

* `Kind`, `Event.kind` — the kinds of records.
* `Adds` — only records of the given kinds are added.

## Main results

* `Outcome.adds`, `Step.adds`, `Killing.adds` — the kinds that the outcomes add.
* `Step.suffix`, `Killing.suffix` — **a call of the handler only adds to the log.**
-/

namespace VsFtp

open CString Prog

variable {os : Os} {s s' s1 s2 : St} {ks ks' : List Kind} {r : Int}

/-! ### Kinds -/

/-- The kinds of records. -/
inductive Kind
  /-- A socket is created and set up. -/
  | setup
  | accept
  | read
  /-- A socket is shut down or closed. -/
  | close
  | write
  | lookup
  | file
  | dir
  /-- A mark for reading a line and calling its handler. -/
  | line
  /-- The mark for the end of a handler. -/
  | result
  /-- A mark for the end of a session. -/
  | session
  deriving DecidableEq, Repr

/-- The kind of a record. -/
def Event.kind : Event → Kind
  | .socket _ => .setup
  | .fcntl _ _ => .setup
  | .setsockopt _ _ => .setup
  | .bind _ _ _ => .setup
  | .listen _ _ => .setup
  | .accept _ _ _ => .accept
  | .shutdown _ _ _ => .close
  | .close _ _ => .close
  | .read _ _ _ => .read
  | .write _ _ _ _ => .write
  | .realpath _ _ => .lookup
  | .stat _ _ => .lookup
  | .access _ _ => .file
  | .openFile _ _ => .file
  | .fstat _ _ => .file
  | .readFile _ _ _ => .file
  | .closeFile _ _ => .file
  | .opendir _ _ => .dir
  | .readdir _ _ => .dir
  | .closedir _ => .dir
  | .index _ => .line
  | .request _ _ => .line
  | .dispatch _ _ => .line
  | .result _ => .result
  | .disconnect => .session
  | .stopped => .session

/-- The records are of the given kinds. -/
def OfKind (ks : List Kind) (N : List Event) : Prop := ∀ e ∈ N, e.kind ∈ ks

theorem OfKind.mono {N : List Event} (h : OfKind ks N) (hk : ks ⊆ ks') : OfKind ks' N :=
  fun e he => hk (h e he)

/-- Records of the given kinds are added to the log. -/
def Adds (ks : List Kind) (log log' : Log) : Prop := ∃ N, log' = N ++ log ∧ OfKind ks N

namespace Adds

variable {log log1 log2 : Log}

theorem mk {N : List Event} (h : OfKind ks N) : Adds ks log (N ++ log) := ⟨N, rfl, h⟩

theorem refl : Adds ks log log := ⟨[], rfl, by simp [OfKind]⟩

theorem trans (h : Adds ks log log1) (h' : Adds ks log1 log2) : Adds ks log log2 := by
  obtain ⟨N, rfl, hN⟩ := h
  obtain ⟨N', rfl, hN'⟩ := h'
  refine ⟨N' ++ N, by rw [List.append_assoc], fun e he => ?_⟩
  rcases List.mem_append.mp he with he | he
  · exact hN' e he
  · exact hN e he

theorem mono (h : Adds ks log log1) (hk : ks ⊆ ks') : Adds ks' log log1 := by
  obtain ⟨N, hlog, hN⟩ := h
  exact ⟨N, hlog, hN.mono hk⟩

/-- A record of one of the kinds continues a log that adds only these. -/
theorem cons {e : Event} (h : Adds ks log log1) (he : e.kind ∈ ks) : Adds ks log (e :: log1) := by
  obtain ⟨N, rfl, hN⟩ := h
  exact ⟨e :: N, rfl, List.forall_mem_cons.mpr ⟨he, hN⟩⟩

/-- Records of these kinds continue a log that adds only these. -/
theorem append {N : List Event} (h : Adds ks log log1) (hN : OfKind ks N) :
    Adds ks log (N ++ log1) := h.trans (.mk hN)

/-- **The log only grows.** -/
theorem suffix (h : Adds ks log log1) : log <:+ log1 := by
  obtain ⟨N, hlog, -⟩ := h
  exact ⟨N, hlog.symm⟩

/-- **A record of another kind was there before.** -/
theorem mem_of_kind {e : Event} (h : Adds ks log log1) (he : e ∈ log1) (hk : e.kind ∉ ks) :
    e ∈ log := by
  obtain ⟨N, rfl, hN⟩ := h
  rcases List.mem_append.mp he with he | he
  · exact absurd (hN e he) hk
  · exact he

end Adds

/-! ### The pieces -/

theorem Lookups.ofKind {L : List Event} (hL : Lookups L) : OfKind [.lookup] L := by
  intro e he
  have hl := hL e he
  cases e <;> first | exact List.mem_singleton.mpr rfl | exact absurd hl Bool.false_ne_true

theorem Closes.ofKind {fd : Int} {X : List Event} (h : Closes fd X) : OfKind [.close] X := by
  cases h <;> simp [OfKind, Event.kind]

theorem Shuts.ofKind {fd : Int} {X : List Event} (h : Shuts fd X) : OfKind [.close] X := by
  cases h <;> simp [OfKind, Event.kind]

theorem Creates.ofKind {port : UInt16} {fd : Int} {C : List Event} (h : Creates port r fd C) :
    OfKind [.setup, .close] C := by
  cases h with
  | failed _ hN =>
    intro e he
    simp only [List.mem_cons, List.mem_append, List.not_mem_nil, or_false] at he
    rcases he with rfl | rfl | he | rfl
    · simp [Event.kind]
    · simp [Event.kind]
    · have hs := hN e he
      cases e <;> first | exact List.mem_cons_self | exact absurd hs Bool.false_ne_true
    · simp [Event.kind]
  | created => simp [OfKind, Event.kind]

theorem examined_ofKind (sock : Int) (answer : Option (List Byte)) :
    OfKind [.read, .line] (examined sock answer) := by
  intro e he
  rcases mem_examined he with rfl | ⟨i, rfl, -⟩ <;> simp [Event.kind]

theorem Announces.ofKind {c : Int} {P : List Event} (h : Announces c r P) : OfKind [.write] P := by
  cases h <;> simp [OfKind, Event.kind]

theorem Accepts.ofKind {t a x x' : Int} {A : List Event} (h : Accepts t a x r x' A) :
    OfKind [.accept] A := by
  cases h <;> simp [OfKind, Event.kind]

theorem listing_ofKind {path : List Byte} {x : Int} {log : Log} {D : List Event}
    (h : listing path x log r D) : OfKind [.dir, .write] D := by
  intro e he
  have hl := h e he
  cases e <;> first | exact hl.elim | simp [Event.kind]

theorem Sends.ofKind {log : Log} {x : Int} {path : List Byte} {D : List Event}
    (h : Sends log x path r D) : OfKind [.file, .write] D := by
  intro e he
  have hl := h.mem e he
  cases e <;> first | exact hl.elim | simp [Event.kind]

theorem Disconnects.adds (h : Disconnects s s') : Adds [.session, .close] s.log s'.log := by
  cases h with
  | mk hX hY hZ =>
    have hmark : Adds [.session, .close] s.log (.disconnect :: s.log) :=
      .cons .refl (by simp [Event.kind])
    exact ((hmark.append (hX.ofKind.mono (by simp))).append (hY.ofKind.mono (by simp))).append
      (hZ.ofKind.mono (by simp))

theorem Stops.adds (h : Stops s s') : Adds [.session, .close] s.log s'.log := by
  cases h with
  | mk hX hY hZ hW =>
    have hmark : Adds [.session, .close] s.log (.stopped :: s.log) :=
      .cons .refl (by simp [Event.kind])
    exact (((hmark.append (hX.ofKind.mono (by simp))).append (hY.ofKind.mono (by simp))).append
      (hZ.ofKind.mono (by simp))).append (hW.ofKind.mono (by simp))

/-! ### The handlers -/

theorem Answered.adds (h : Answered s r s') : Adds [.lookup, .write] s.log s'.log := by
  cases h with
  | mk hL => exact (Adds.mk (hL.ofKind.mono (by simp))).cons (by simp [Event.kind])

theorem Transferred.adds {B : Int → Log → Int → List Event → Prop} {r0 : Int}
    (hB : ∀ {x log r D}, B x log r D → OfKind ks D) (hk : [.accept, .close, .write] ⊆ ks)
    (h : Transferred os B r0 s r s') : Adds ks s.log s'.log := by
  have haccept : ([.accept] : List Kind) ⊆ ks := fun k hm => hk (by simp_all)
  have hclose : ([.close] : List Kind) ⊆ ks := fun k hm => hk (by simp_all)
  have hwrite : ([.write] : List Kind) ⊆ ks := fun k hm => hk (by simp_all)
  cases h with
  | @mk retval x w T X Y text hT hX hY =>
    have htransfer : Adds ks s.log (T ++ s.log) := by
      cases hT with
      | skipped => exact .refl
      | unconnected hA => exact .mk (hA.ofKind.mono haccept)
      | unannounced _ _ hP =>
        rw [List.append_assoc]
        exact (Adds.cons .refl (haccept List.mem_cons_self)).append (hP.ofKind.mono hwrite)
      | transferred _ _ hP hD =>
        rw [List.append_assoc, List.append_assoc]
        exact ((Adds.cons .refl (haccept List.mem_cons_self)).append
          (hP.ofKind.mono hwrite)).append (hB hD)
    exact ((htransfer.append (hX.ofKind.mono hclose)).append (hY.ofKind.mono hclose)).cons
      (hwrite List.mem_cons_self)

/-- The kinds of records a handler adds besides lookups and replies. -/
def Command.kinds : Command → List Kind
  | .user => [.session, .close]
  | .pasv => [.setup, .close]
  | .nlst => [.dir, .accept, .close]
  | .retr => [.file, .accept, .close]
  | _ => []

/-- **The kinds of records a handler adds.** -/
theorem Outcome.adds {args : List Byte} {len : ℕ} {c : Command}
    (h : Outcome os s args len c r s') :
    Adds (.lookup :: .write :: c.kinds) s.log s'.log := by
  have hlookups : ∀ {ks L}, Lookups L → OfKind (.lookup :: ks) L := fun hL =>
    hL.ofKind.mono (by simp)
  cases h with
  | answered _ h => exact h.adds.mono (by simp)
  | rejected _ h hd => exact (h.adds.mono (by simp)).trans (hd.adds.mono (by simp [Command.kinds]))
  | moved h =>
    cases h with
    | stayed hL => exact (Adds.mk (hlookups hL)).cons (by simp [Event.kind])
    | moved _ _ hd =>
      exact ((Adds.cons .refl (by simp [Event.kind])).append (hlookups hd.lookups)).cons
        (by simp [Event.kind])
  | sized h => exact h.answered.adds.mono (by simp)
  | passive h =>
    cases h with
    | mk hX hY hC =>
      exact (((Adds.mk (hX.ofKind.mono (by decide))).append (hY.ofKind.mono (by decide))).append
        (hC.ofKind.mono (by decide))).cons (by simp [Event.kind])
  | listed hL h =>
    exact (Adds.mk (hlookups hL.lookups)).trans
      (h.adds (fun h => (listing_ofKind h).mono (by decide)) (by decide))
  | sent hL h =>
    exact (Adds.mk (hlookups hL.lookups)).trans
      (h.adds (fun h => (Sends.ofKind h).mono (by decide)) (by decide))

theorem Handled.adds (h : Handled s r s') : Adds [.result, .close] s.log s'.log := by
  cases h with
  | kept => exact Adds.cons .refl (by simp [Event.kind])
  | retired _ hX hY =>
    exact ((Adds.cons .refl (by simp [Event.kind])).append (hX.ofKind.mono (by simp))).append
      (hY.ofKind.mono (by simp))

/-! ### A turn -/

theorem lineState_adds (bytes : List Byte) :
    Adds [.line, .read] s.log (lineState s bytes).log :=
  (Adds.mk ((examined_ofKind _ (some bytes)).mono (by decide))).cons (by simp [Event.kind])

theorem storedLog_adds (sock : Int) (answer : Option (List Byte)) (log : Log) :
    Adds [.line, .read] log (storedLog sock answer log) :=
  (Adds.cons .refl (by simp [Event.kind])).cons (by simp [Event.kind])

theorem calledState_adds (buffer : List Byte) (len : ℕ) (name : List Byte) (c : Command) :
    Adds [.line] s.log (calledState s buffer len name c).log :=
  (Adds.cons .refl (by simp [Event.kind])).cons (by simp [Event.kind])

/-- The records of a command that is not in the table. -/
theorem unknown_adds {fd w : Int} {text : List Byte} (buffer : List Byte) (len : ℕ) (log : Log) :
    Adds [.write, .line] log (.write .client fd text w :: .request buffer len :: log) :=
  (Adds.cons .refl (by simp [Event.kind])).cons (by simp [Event.kind])

theorem acceptedLog_adds : Adds [.accept] s.log (acceptedLog os s) :=
  Adds.cons .refl (by simp [Event.kind])

theorem Starting.adds (h : Starting os s r s') :
    Adds [.lookup, .setup, .close] s.log s'.log := by
  have hentered : ∀ {L}, Lookups L → Adds [.lookup, .setup, .close] s.log (L ++ s.log) :=
    fun hL => .mk (hL.ofKind.mono (by simp))
  cases h with
  | failed hd => exact hentered hd.lookups
  | uncreated hd hC => exact (hentered hd.lookups).append (hC.ofKind.mono (by simp))
  | started hd hC => exact (hentered hd.lookups).append (hC.ofKind.mono (by simp))

theorem Waiting.adds (h : Waiting os s r s') :
    Adds [.lookup, .write, .accept, .session, .close] s.log s'.log := by
  have haccepted : Adds [.lookup, .write, .accept, .session, .close] s.log (acceptedLog os s) :=
    acceptedLog_adds.mono (by simp)
  have hentered : ∀ {L}, Lookups L →
      Adds [.lookup, .write, .accept, .session, .close] s.log (L ++ acceptedLog os s) :=
    fun hL => haccepted.append (hL.ofKind.mono (by simp))
  cases h with
  | idle => exact haccepted
  | stopped _ _ hst => exact haccepted.trans (hst.adds.mono (by simp))
  | homeless _ hd => exact hentered hd.lookups
  | ungreeted _ hd => exact (hentered hd.lookups).cons (by simp [Event.kind])
  | connected _ hd => exact (hentered hd.lookups).cons (by simp [Event.kind])

theorem Parsing.suffix {buffer : List Byte} {len : ℕ} (h : Parsing os s buffer len r s') :
    s.log <:+ s'.log := by
  cases h with
  | known _ ho => exact (calledState_adds _ _ _ _).suffix.trans ho.adds.suffix
  | @unknown text w => exact ⟨[.write .client s.data.clientSock text w, .request buffer len], rfl⟩

theorem Conversing.suffix (h : Conversing os s r s') : s.log <:+ s'.log := by
  cases h with
  | line _ _ hp hh => exact (lineState_adds _).suffix.trans (hp.suffix.trans hh.adds.suffix)
  | closed _ hd =>
    exact (storedLog_adds s.data.clientSock (some []) s.log).suffix.trans hd.adds.suffix
  | ignored => exact List.suffix_append _ _
  | stopped _ _ _ _ hst => exact (List.suffix_append _ s.log).trans hst.adds.suffix

/-- **A step only adds to the log.** -/
theorem Step.suffix (h : Step os s r s') : s.log <:+ s'.log := by
  cases h with
  | starting _ hs => exact hs.adds.suffix
  | waiting _ _ hs => exact hs.adds.suffix
  | conversing _ _ hs => exact hs.suffix

theorem ConversingKilled.adds (h : ConversingKilled os s s') :
    Adds [.lookup, .line, .read] s.log s'.log := by
  cases h with
  | overlong => exact (storedLog_adds _ _ _).mono (by simp)
  | line _ _ hk =>
    obtain ⟨name, c, -, -, -, L, hL, rfl⟩ := hk
    exact (((lineState_adds _).mono (by simp)).trans
      ((calledState_adds _ _ _ _).mono (by simp))).append (hL.ofKind.mono (by simp))

/-- A call in which the process is killed adds only lookups and the marks of a
line. -/
theorem Killing.adds (h : Killing os s s') :
    Adds [.lookup, .line, .accept, .read] s.log s'.log := by
  cases h with
  | starting _ hk =>
    obtain ⟨-, L, hL, rfl⟩ := hk
    exact .mk (hL.ofKind.mono (by simp))
  | waiting _ _ _ hk =>
    obtain ⟨-, L, hL, rfl⟩ := hk
    exact (acceptedLog_adds.mono (by simp)).append (hL.ofKind.mono (by simp))
  | conversing _ _ hk => exact hk.adds.mono (by decide)

end VsFtp
