import VsFtp.Host
import VsFtp.Invariants

/-!
# The state of the connection

The record keeps two flags and four descriptors, and they are set at different places.
After every call of `VSFTPServerHandler` that returns zero they agree, so that no client is
accepted while there is one, and nothing is written to a descriptor that is not there.

## Main definitions

* `Consistent` — the flags and the descriptors agree.
* `Directed` — everything was written to some descriptor.
* `Event.admits`, `AdmitsAlone` — a client is accepted, and when.

## Main results

* `Consistent.step` — after a step that returns zero flags and descriptors agree.
* `Directed.step` — a step writes nothing to an absent descriptor.
* `connection_state` — **both, and that no second client is accepted, in every run.**
-/

namespace VsFtp

open CString Prog

attribute [local irreducible] serverSendReply helpText

variable {os : Os} {s s' : St} {argv : Argv} {log : Log} {N : List Event} {r : Int}

/-! ### Flags and descriptors -/

/-- The flags and the descriptors of the record agree. -/
structure Consistent (d : ServerData) : Prop where
  created : d.isServerSocketCreated = true ↔ d.serverSock ≠ -1
  connected : d.isConnected = true ↔ d.clientSock ≠ -1
  listens : d.isConnected = true → d.isServerSocketCreated = true
  transfer : d.transferSock ≠ -1 → d.isConnected = true

/-- While the server listens, the flags and the descriptors of the record agree. -/
theorem Sound.consistent (h : Sound os s) (hc : s.data.isServerSocketCreated = true) :
    Consistent s.data := by
  have hserver := ne_neg_of_mem_held (h.server hc).held
  refine ⟨iff_of_true hc hserver, ?_, fun _ => hc, fun ht => ?_⟩
  · constructor
    · exact fun hcon => ne_neg_of_mem_held (h.client hcon).1.held
    · intro hne
      by_contra hn
      exact hne (h.waiting hc (by simpa using hn)).1
  · by_contra hn
    exact ht (h.waiting hc (by simpa using hn)).2

theorem ServerData.consistent_stopped (d : ServerData) : Consistent d.stopped :=
  ⟨by simp [ServerData.stopped], by simp [ServerData.stopped, ServerData.disconnected],
    fun h => absurd h Bool.false_ne_true, fun h => absurd rfl h⟩

theorem Handled.created (h : Handled s r s') :
    s'.data.isServerSocketCreated = s.data.isServerSocketCreated := by
  cases h <;> rfl

theorem Stops.consistent (h : Stops s s') : Consistent s'.data := by
  cases h
  exact ServerData.consistent_stopped _

/-- **After a step that returns zero they agree**: the server listens, or it was
stopped in the step. -/
theorem Consistent.step (h : Sound os s) (hs : Step os s 0 s') : Consistent s'.data := by
  have hsound := h.step hs
  cases hs with
  | starting hn hs =>
    generalize h0 : (0 : Int) = r at hs
    cases hs with
    | failed _ hr => exact absurd h0.symm hr
    | uncreated _ _ hr => exact absurd h0.symm hr
    | started => exact hsound.consistent rfl
  | waiting hc _ hs =>
    generalize h0 : (0 : Int) = r at hs
    cases hs with
    | idle => exact hsound.consistent hc
    | stopped _ _ hst => exact hst.consistent
    | homeless _ _ hr => exact absurd h0.symm hr
    | ungreeted => exact absurd h0 (by decide)
    | connected _ hd =>
      obtain ⟨cwd, cwdLen, rfl⟩ := hd.exists_eq
      exact hsound.consistent hc
  | conversing hc _ hs =>
    generalize (0 : Int) = r at hs
    cases hs with
    | line _ _ hp hh =>
      refine hsound.consistent (hh.created.trans ?_)
      cases hp with
      | known _ ho => exact ho.session.1.trans hc
      | unknown => exact hc
    | closed _ hd =>
      cases hd
      exact hsound.consistent hc
    | ignored => exact hsound.consistent hc
    | stopped _ _ _ _ hst => exact hst.consistent

/-! ### Writes -/

/-- Everything was written to some descriptor. -/
def Directed (log : Log) : Prop := ∀ who fd bytes w, Event.write who fd bytes w ∈ log → fd ≠ -1

namespace Directed

theorem append (h : Directed log) (hN : Directed N) : Directed (N ++ log) := by
  intro who fd bytes w he
  rcases List.mem_append.mp he with he | he
  · exact hN who fd bytes w he
  · exact h who fd bytes w he

theorem of_kind {ks : List Kind} (h : OfKind ks N) (hk : .write ∉ ks) : Directed N :=
  fun _ _ _ _ he => absurd (h _ he) hk

theorem adds {ks : List Kind} {log' : Log} (h : Directed log) (ha : Adds ks log log')
    (hk : .write ∉ ks) : Directed log' := by
  obtain ⟨N, rfl, hN⟩ := ha
  exact h.append (of_kind hN hk)

theorem write {who : Slot} {fd w : Int} {bytes : List Byte} (h : Directed log) (hfd : fd ≠ -1) :
    Directed (.write who fd bytes w :: log) := by
  refine h.append (N := [_]) fun who' fd' bytes' w' he => ?_
  obtain ⟨-, rfl, -⟩ := Event.write.inj (List.mem_singleton.mp he)
  exact hfd

theorem listing {path : List Byte} {x : Int} (hx : x ≠ -1) (h : VsFtp.listing path x log r N) :
    Directed N := by
  intro who fd bytes w he
  obtain ⟨-, rfl⟩ : who = .transferClient ∧ fd = x := h _ he
  exact hx

theorem sends {path : List Byte} {x : Int} (hx : x ≠ -1) (h : Sends log x path r N) :
    Directed N := by
  intro who fd bytes w he
  obtain ⟨-, rfl⟩ : who = .transferClient ∧ fd = x := h.mem _ he
  exact hx

theorem announces {c : Int} {P : List Event} (hc : c ≠ -1) (hlog : Directed log)
    (h : Announces c r P) : Directed (P ++ log) := by
  cases h with
  | refused => exact hlog
  | sent => exact hlog.write hc

/-- A transfer writes to the client, and to the transfer client it has accepted. -/
theorem transferring {B : Int → Log → Int → List Event → Prop} {d : ServerData} {r0 a x : Int}
    {T : List Event} (hB : ∀ {x log r D}, x ≠ -1 → B x log r D → Directed D)
    (hc : d.clientSock ≠ -1) (hlog : Directed log) (h : Transferring B d a log r0 r x T) :
    Directed (T ++ log) := by
  have haccept : Directed (.accept .transferClient d.transferSock a :: log) :=
    hlog.append (N := [_]) (@of_kind _ [.accept] (by simp [OfKind, Event.kind]) (by decide))
  cases h with
  | skipped => exact hlog
  | unconnected hA => exact hlog.append (of_kind hA.ofKind (by decide))
  | unannounced _ _ hP =>
    rw [List.append_assoc]
    exact haccept.announces hc hP
  | transferred _ ha hP hD =>
    rw [List.append_assoc, List.append_assoc]
    exact (haccept.announces hc hP).append (hB (by omega) hD)

theorem transferred {B : Int → Log → Int → List Event → Prop} {r0 : Int}
    (hB : ∀ {x log r D}, x ≠ -1 → B x log r D → Directed D) (hc : s.data.clientSock ≠ -1)
    (hlog : Directed s.log) (h : Transferred os B r0 s r s') : Directed s'.log := by
  cases h with
  | mk hT hX hY =>
    exact (((transferring hB hc hlog hT).append (of_kind hX.ofKind (by decide))).append
      (of_kind hY.ofKind (by decide))).write hc

theorem outcome {args : List Byte} {len : ℕ} {c : Command} (hc : s.data.clientSock ≠ -1)
    (hlog : Directed s.log) (h : Outcome os s args len c r s') : Directed s'.log := by
  have hlookups : ∀ {L}, Lookups L → Directed (L ++ s.log) := fun hL =>
    hlog.append (of_kind hL.ofKind (by decide))
  have hanswered : ∀ {r s'}, Answered s r s' → Directed s'.log := by
    intro r s' h
    cases h with
    | mk hL => exact (hlookups hL).write hc
  cases h with
  | answered _ h => exact hanswered h
  | rejected _ h hd => exact (hanswered h).adds hd.adds (by decide)
  | moved h =>
    cases h with
    | stayed hL => exact (hlookups hL).write hc
    | @moved p r d' L text w _ _ hd =>
      have hL : Lookups (L ++ [.realpath p (some r)]) := hd.lookups.append (.cons rfl .nil)
      rw [List.append_cons]
      exact (hlookups hL).write hc
  | sized h => exact hanswered h.answered
  | passive h =>
    cases h with
    | mk hX hY hC =>
      exact (((hlog.append (of_kind hX.ofKind (by decide))).append
        (of_kind hY.ofKind (by decide))).append (of_kind hC.ofKind (by decide))).write hc
  | listed hL h =>
    exact transferred (s := ⟨s.data, _ ++ s.log⟩) Directed.listing hc (hlookups hL.lookups) h
  | sent hL h =>
    exact transferred (s := ⟨s.data, _ ++ s.log⟩) Directed.sends hc (hlookups hL.lookups) h

theorem parsing {buffer : List Byte} {len : ℕ} (hc : s.data.clientSock ≠ -1)
    (hlog : Directed s.log) (h : Parsing os s buffer len r s') : Directed s'.log := by
  cases h with
  | known _ ho =>
    exact outcome (s := calledState s _ _ _ _) hc (hlog.adds
      (calledState_adds _ _ _ _) (by decide)) ho
  | unknown =>
    have hrequest : Directed (.request buffer len :: s.log) :=
      hlog.append (N := [_]) (@of_kind _ [.line] (by simp [OfKind, Event.kind]) (by decide))
    exact hrequest.write hc

/-- **A step writes nothing to an absent descriptor**, whatever it returns. -/
theorem step (h : Sound os s) (hlog : Directed s.log) (hs : Step os s r s') : Directed s'.log := by
  cases hs with
  | starting _ hs => exact hlog.adds hs.adds (by decide)
  | waiting _ _ hs =>
    have haccepted := hlog.adds (@acceptedLog_adds os s) (by decide)
    -- the client that is greeted is the one that was accepted
    have hclient : ∀ {d : ServerData} {r : Int} {L : List Event},
        0 ≤ os.accept s.log s.data.serverSock →
        Entering os (acceptedLog os s) s.data.rootPath (acceptedData os s) r d L →
          d.clientSock ≠ -1 := by
      intro d r L ha hd
      have hd : d.clientSock = os.accept s.log s.data.serverSock := hd.clientSock
      omega
    cases hs with
    | idle => exact haccepted
    | stopped _ _ hst => exact haccepted.adds hst.adds (by decide)
    | homeless _ hd => exact haccepted.append (of_kind hd.lookups.ofKind (by decide))
    | ungreeted ha hd =>
      exact (haccepted.append (of_kind hd.lookups.ofKind (by decide))).write (hclient ha hd)
    | connected ha hd =>
      exact (haccepted.append (of_kind hd.lookups.ofKind (by decide))).write (hclient ha hd)
  | conversing _ hc hs =>
    have hclient := ne_neg_of_mem_held (h.client hc).1.held
    have hexamined := fun answer => hlog.adds
      (.mk (examined_ofKind s.data.clientSock answer)) (by decide)
    cases hs with
    | line _ _ hp hh =>
      exact (parsing (s := lineState s _) hclient
        (hlog.adds (lineState_adds _) (by decide)) hp).adds
        hh.adds (by decide)
    | closed _ hd => exact (hlog.adds (storedLog_adds _ _ _) (by decide)).adds hd.adds (by decide)
    | ignored => exact hexamined _
    | stopped _ _ _ _ hst => exact (hexamined _).adds hst.adds (by decide)

end Directed

theorem Reachable.directed (h : Reachable os argv s) : Directed s.log := by
  refine h.invariant (I := fun s => Directed s.log) (fun s h0 => ?_)
    fun _ _ hr hi ht => hi.step (Reachable.sound hr) (Reachable.step hr ht)
  exact Directed.of_kind (started_spec h0).2.ofKind (by decide)

/-! ### Accepting a client -/

/-- A client is accepted on the control connection. -/
def Event.admits : Event → Bool
  | .accept .server _ _ => true
  | _ => false

/-- Among the records that a turn from `s` adds, a client is accepted at most as the first
thing, and only if none is recorded. -/
def AdmitsAlone (s : St) (N : List Event) : Prop := (∀ e ∈ N, e.admits = false) ∨
  (s.data.isConnected = false ∧ s.data.clientSock = -1) ∧
    ∃ M t a, N = M ++ [.accept .server t a] ∧ ∀ e ∈ M, e.admits = false

/-- Records are added, and no client is accepted. -/
def Denies (log log' : Log) : Prop := ∃ N, log' = N ++ log ∧ ∀ e ∈ N, e.admits = false

namespace Denies

variable {log1 log2 : Log}

theorem trans (h : Denies log log1) (h' : Denies log1 log2) : Denies log log2 := by
  obtain ⟨N, rfl, hN⟩ := h
  obtain ⟨N', rfl, hN'⟩ := h'
  refine ⟨N' ++ N, by rw [List.append_assoc], fun e he => ?_⟩
  rcases List.mem_append.mp he with he | he
  · exact hN' e he
  · exact hN e he

theorem of_adds {ks : List Kind} (h : Adds ks log log1) (hk : .accept ∉ ks) : Denies log log1 := by
  obtain ⟨N, rfl, hN⟩ := h
  refine ⟨N, rfl, fun e he => ?_⟩
  have hkind := hN e he
  cases e <;> first | rfl | exact absurd hkind hk

/-- A transfer accepts its own client only. -/
theorem transferred {B : Int → Log → Int → List Event → Prop} {r0 : Int} {ks : List Kind}
    (hB : ∀ {x log r D}, B x log r D → OfKind ks D) (hk : .accept ∉ ks)
    (h : Transferred os B r0 s r s') : Denies s.log s'.log := by
  have haccept : ∀ {t a : Int}, Denies s.log (.accept .transferClient t a :: s.log) :=
    ⟨[_], rfl, by simp [Event.admits]⟩
  cases h with
  | @mk retval x w T X Y text hT hX hY =>
    have htransfer : Denies s.log (T ++ s.log) := by
      cases hT with
      | skipped => exact ⟨[], rfl, by simp⟩
      | unconnected hA => cases hA <;> first | exact haccept | exact ⟨[], rfl, by simp⟩
      | unannounced _ _ hP =>
        rw [List.append_assoc]
        exact haccept.trans (of_adds (.mk hP.ofKind) (by decide))
      | transferred _ _ hP hD =>
        rw [List.append_assoc, List.append_assoc]
        exact (haccept.trans (of_adds (.mk hP.ofKind) (by decide))).trans (of_adds (.mk (hB hD)) hk)
    refine ((htransfer.trans (of_adds (.mk hX.ofKind) (by decide))).trans
      (of_adds (.mk hY.ofKind) (by decide))).trans ⟨[_], rfl, ?_⟩
    simp [Event.admits]

theorem outcome {args : List Byte} {len : ℕ} {c : Command} (h : Outcome os s args len c r s') :
    Denies s.log s'.log := by
  have hadds := h.adds
  cases c with
  | nlst =>
    cases h with
    | answered hc => exact absurd hc Bool.false_ne_true
    | listed hL h =>
      exact (of_adds (.mk hL.lookups.ofKind) (by decide)).trans
        (transferred listing_ofKind (by decide) h)
  | retr =>
    cases h with
    | answered hc => exact absurd hc Bool.false_ne_true
    | sent hL h =>
      exact (of_adds (.mk hL.lookups.ofKind) (by decide)).trans
        (transferred Sends.ofKind (by decide) h)
  | _ => exact of_adds hadds (by decide)

theorem conversing (h : Conversing os s r s') : Denies s.log s'.log := by
  have hexamined : ∀ answer, Denies s.log (examined s.data.clientSock answer ++ s.log) :=
    fun answer => of_adds (.mk (examined_ofKind s.data.clientSock answer)) (by decide)
  cases h with
  | @line bytes _ _ _ _ _ hp hh =>
    refine ((of_adds (lineState_adds bytes) (by decide)).trans ?_).trans
      (of_adds hh.adds (by decide))
    cases hp with
    | known _ ho => exact (of_adds (calledState_adds _ _ _ _) (by decide)).trans (outcome ho)
    | unknown => exact of_adds (unknown_adds _ _ _) (by decide)
  | closed _ hd =>
    exact (of_adds (storedLog_adds _ _ _) (by decide)).trans (of_adds hd.adds (by decide))
  | ignored => exact hexamined _
  | stopped _ _ _ _ hst => exact (hexamined _).trans (of_adds hst.adds (by decide))

end Denies

/-- Behind the records that a turn starts with, no other client is accepted. -/
theorem Denies.admitsAlone {log' : Log} (h : Denies (acceptedLog os s) log')
    (hc : s.data.isConnected = false) (hclient : s.data.clientSock = -1) :
    ∃ N, log' = N ++ s.log ∧ AdmitsAlone s N := by
  obtain ⟨M, rfl, hM⟩ := h
  exact ⟨M ++ [_], by rw [acceptedLog, List.append_cons], Or.inr ⟨⟨hc, hclient⟩, M, _, _, rfl, hM⟩⟩

/-- **A step accepts at most one client**, as the first thing and if there is none. -/
theorem Step.admitsAlone (h : Sound os s) (hs : Step os s r s') :
    ∃ N, s'.log = N ++ s.log ∧ AdmitsAlone s N := by
  have hdenies : Denies s.log s'.log → ∃ N, s'.log = N ++ s.log ∧ AdmitsAlone s N :=
    fun ⟨N, hlog, hN⟩ => ⟨N, hlog, Or.inl hN⟩
  cases hs with
  | starting _ hs => exact hdenies (.of_adds hs.adds (by decide))
  | waiting hcreated hc hs =>
    suffices haccepted : Denies (acceptedLog os s) s'.log from
      haccepted.admitsAlone hc (h.waiting hcreated hc).1
    have hentered : ∀ {L : List Event}, Lookups L →
        Denies (acceptedLog os s) (L ++ acceptedLog os s) :=
      fun hL => .of_adds (.mk hL.ofKind) (by decide)
    have hwrite : ∀ {log : Log} {fd w : Int}, Denies log (.write .client fd greeting w :: log) :=
      ⟨[_], rfl, by simp [Event.admits]⟩
    cases hs with
    | idle => exact ⟨[], rfl, by simp⟩
    | stopped _ _ hst => exact .of_adds hst.adds (by decide)
    | homeless _ hd => exact hentered hd.lookups
    | ungreeted _ hd => exact (hentered hd.lookups).trans hwrite
    | connected _ hd => exact (hentered hd.lookups).trans hwrite
  | conversing _ _ hs => exact hdenies (.conversing hs)

theorem Killing.admitsAlone (h : Sound os s) (hs : Killing os s s') :
    ∃ N, s'.log = N ++ s.log ∧ AdmitsAlone s N := by
  cases hs with
  | starting _ hk =>
    obtain ⟨-, L, hL, rfl⟩ := hk
    have hdenies : Denies s.log (L ++ s.log) := .of_adds (.mk hL.ofKind) (by decide)
    exact hdenies.imp fun N hN => ⟨hN.1, Or.inl hN.2⟩
  | waiting hcreated hc _ hk =>
    obtain ⟨-, L, hL, rfl⟩ := hk
    have haccepted : Denies (acceptedLog os s) (L ++ acceptedLog os s) :=
      .of_adds (.mk hL.ofKind) (by decide)
    exact haccepted.admitsAlone hc (h.waiting hcreated hc).1
  | conversing hcreated hc hk =>
    have hadds : Adds [.lookup, .line, .read] s.log s'.log := hk.adds
    have hdenies : Denies s.log s'.log := .of_adds hadds (by decide)
    exact hdenies.imp fun N hN => ⟨hN.1, Or.inl hN.2⟩

/-- **The state of the connection**, in every run.  After each call of
`VSFTPServerHandler` that returns zero the flags and the descriptors agree; in each call,
however it ends, a client is accepted at most as the first thing and only while none is
recorded; and in the whole log nothing was written to an absent descriptor. -/
theorem connection_state (h : Reachable os argv s) :
    (∀ s', Turn os s s' → Consistent s'.data) ∧
      (∃ N, (serverHandler os s).2.log = N ++ s.log ∧ AdmitsAlone s N) ∧
      Directed (serverHandler os s).2.log := by
  have hi := h.sound
  refine ⟨fun s' ht => Consistent.step hi (h.step ht), ?_⟩
  rcases hrun : serverHandler os s with ⟨_ | r, s'⟩
  · have hk := Killing.of_run hi.configured hrun
    exact ⟨hk.admitsAlone hi, h.directed.adds hk.adds (by decide)⟩
  · have hs := Step.of_run hi.configured hrun
    exact ⟨hs.admitsAlone hi, h.directed.step hi hs⟩

/-- A machine on which a client opens a data connection, is not allowed in and hangs up, and another
one asks for a listing. -/
def leavingHost : Host :=
  { nodes := [Host.srv],
    reads := [some (ascii "PASV" ++ crlf), some (ascii "USER root" ++ crlf),
      some (ascii "PASV" ++ crlf), some (ascii "NLST" ++ crlf)] }

/-- The states of the run. -/
def leavingState (k : ℕ) : St := Host.run leavingHost.os k (Host.start leavingHost.os Host.argv)

/-- The second client is given its listing: it was accepted once the first one was gone. -/
theorem connection_state_leaving : (leavingState 4).data.isConnected = false ∧
    (leavingState 6).data.isConnected = true ∧
    (∀ s', Turn leavingHost.os (leavingState 6) s' → Consistent s'.data) ∧
    (∃ N, (serverHandler leavingHost.os (leavingState 6)).2.log = N ++ (leavingState 6).log ∧
      AdmitsAlone (leavingState 6) N) ∧
    Directed (serverHandler leavingHost.os (leavingState 6)).2.log :=
  ⟨by decide +kernel, by decide +kernel, connection_state (Host.reachable_run (by decide +kernel))⟩

end VsFtp
