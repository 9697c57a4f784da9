import VsFtp.Host
import VsFtp.Invariants

/-!
# Which files are served

`RETR` and `SIZE` serve the regular file their argument resolves to.  Neither looks at
the root path once the argument is resolved, so what is served lies below the root
exactly as far as the arguments do.

## Main definitions

* `DisclosesOnly` — the records disclose nothing but of one file.
* `Serves`, `Refuses` — a handler serves a file below the root, or sends an error reply
  and touches no file.
* `NamesInside` — no argument of the turn names a file outside the root's tree.

## Main results

* `Outcome.serves_or_refuses` — what the two handlers do with an argument that names no
  file outside.
* `files_confined` — **in a run in which no argument names a file outside the tree, no
  file outside is opened or reported.**
* `size_discloses_outside` — `SIZE /../secret` reports the size of a file outside.
-/

namespace VsFtp

open CString Prog

variable {os : Os} {s s' : St} {argv : Argv} {N : List Event} {root p : List Byte}

/-! ### Disclosing a file -/

/-- The records open no file but `p`, send on the data connection only what was read
from it, and report only a size that `stat` found for it. -/
structure DisclosesOnly (p : List Byte) (N : List Event) : Prop where
  opened : ∀ path fd, .openFile path fd ∈ N → path = p
  read : ∀ fd n bytes, .readFile fd n bytes ∈ N → .openFile p fd ∈ N
  sent : ∀ fd bytes w, .write .transferClient fd bytes w ∈ N →
    ∃ file n, .readFile file n (some bytes) ∈ N
  sized : ∀ fd text w, .write .client fd text w ∈ N → ascii "213" <+: text →
    ∃ st, .stat p (some st) ∈ N ∧ text = ascii "213 " ++ decimal st.size ++ crlf

/-- The records that neither touch a file nor send anything. -/
abbrev Quiet (N : List Event) : Prop := OfKind [.lookup, .accept, .close, .result] N

namespace DisclosesOnly

theorem of_quiet (h : Quiet N) : DisclosesOnly p N := by
  constructor
  · exact fun _ _ he => absurd (h _ he) (by simp [Event.kind])
  · exact fun _ _ _ he => absurd (h _ he) (by simp [Event.kind])
  · exact fun _ _ _ he => absurd (h _ he) (by simp [Event.kind])
  · exact fun _ _ _ he => absurd (h _ he) (by simp [Event.kind])

theorem append {N' : List Event} (h : DisclosesOnly p N) (h' : DisclosesOnly p N') :
    DisclosesOnly p (N ++ N') := by
  constructor
  · intro path fd he
    rcases List.mem_append.mp he with he | he
    · exact h.opened path fd he
    · exact h'.opened path fd he
  · intro fd n bytes he
    rcases List.mem_append.mp he with he | he
    · exact List.mem_append_left _ (h.read fd n bytes he)
    · exact List.mem_append_right _ (h'.read fd n bytes he)
  · intro fd bytes w he
    rcases List.mem_append.mp he with he | he
    · exact (h.sent fd bytes w he).imp fun _ ⟨n, hn⟩ => ⟨n, List.mem_append_left _ hn⟩
    · exact (h'.sent fd bytes w he).imp fun _ ⟨n, hn⟩ => ⟨n, List.mem_append_right _ hn⟩
  · intro fd text w he ht
    rcases List.mem_append.mp he with he | he
    · exact (h.sized fd text w he ht).imp fun _ hst => ⟨List.mem_append_left _ hst.1, hst.2⟩
    · exact (h'.sized fd text w he ht).imp fun _ hst => ⟨List.mem_append_right _ hst.1, hst.2⟩

/-- A reply that reports no size discloses nothing. -/
theorem reply {fd w : Int} {text : List Byte} (ht : ¬ ascii "213" <+: text) :
    DisclosesOnly p [.write .client fd text w] := by
  constructor
  · simp
  · simp
  · simp
  · intro fd' text' w' he h213
    obtain ⟨-, -, rfl, -⟩ := Event.write.inj (List.mem_singleton.mp he)
    exact absurd h213 ht

/-- The loop sends what it has read. -/
theorem copies_sent {x x' fd : Int} {count : ℕ} {r : Int} {D : List Event}
    (h : Copies x fd count r D) {bytes : List Byte} {w : Int}
    (he : .write .transferClient x' bytes w ∈ D) : ∃ n, .readFile fd n (some bytes) ∈ D := by
  induction h with
  | done => simp at he
  | unread => simp at he
  | ended => simp at he
  | @refused count n bytes' w' =>
    simp only [List.mem_cons, List.not_mem_nil, or_false, reduceCtorEq] at he
    obtain ⟨-, -, rfl, -⟩ := Event.write.inj he
    exact ⟨n, by simp⟩
  | @accepted count n k bytes' _ _ _ _ _ _ ih =>
    rcases List.mem_append.mp he with he | he
    · exact (ih he).imp fun _ hn => List.mem_append_left _ hn
    · simp only [List.mem_cons, List.not_mem_nil, or_false, reduceCtorEq] at he
      obtain ⟨-, -, rfl, -⟩ := Event.write.inj he
      exact ⟨n, by simp⟩

theorem sends {log : Log} {x r : Int} {D : List Event} (h : Sends log x p r D) :
    DisclosesOnly p D := by
  have hmem := h.mem
  constructor
  · intro path fd he
    exact hmem _ he
  · intro fd n bytes he
    cases h with
    | inaccessible => simp at he
    | unopened => simp at he
    | unknown => simp at he
    | sent _ hD =>
      simp only [List.mem_cons, List.mem_append, List.not_mem_nil, or_false, reduceCtorEq,
        false_or] at he
      rcases hD.mem _ he with ⟨n', r', h'⟩ | ⟨_, _, h'⟩
      · obtain ⟨rfl, -⟩ := Event.readFile.inj h'
        simp
      · simp at h'
  · intro fd bytes w he
    cases h with
    | inaccessible => simp at he
    | unopened => simp at he
    | unknown => simp at he
    | @sent file q _ st D _ hD =>
      simp only [List.mem_cons, List.mem_append, List.not_mem_nil, or_false, reduceCtorEq,
        false_or] at he
      obtain ⟨n, hn⟩ := copies_sent hD he
      exact ⟨file, n, by simp [hn]⟩
  · intro fd text w he
    exact absurd (hmem _ he).1 (by decide)

end DisclosesOnly

/-! ### The two handlers -/

/-- From `s` to `s'` the handler serves a file that its argument names and that lies
below the root, and discloses nothing else. -/
def Serves (root : List Byte) (os : Os) (s : St) (args : List Byte) (len : ℕ) (s' : St) : Prop :=
  ∃ p N, NamesFile os s args len p ∧ Path.Below (47 : Byte) root p ∧ s'.log = N ++ s.log ∧
    DisclosesOnly p N ∧ ∃ target, .realpath target (some p) ∈ N

/-- From `s` to `s'` one error reply is sent, and no file is touched. -/
def Refuses (s s' : St) : Prop :=
  ∃ N N' text w, s'.log = N' ++ .write .client s.data.clientSock text w :: (N ++ s.log) ∧
    ErrorReply text = true ∧ Quiet (N' ++ N)

theorem Serves.quiet {args : List Byte} {len : ℕ} {s1 : St} (h : Serves root os s args len s1)
    (hN : Adds [.result, .close] s1.log s'.log) : Serves root os s args len s' := by
  obtain ⟨p, N, hname, hbelow, hlog, hd, target, ht⟩ := h
  obtain ⟨N', hlog', hN'⟩ := hN
  have hquiet : Quiet N' := hN'.mono (by decide)
  refine ⟨p, N' ++ N, hname, hbelow, by rw [hlog', hlog, List.append_assoc],
    (DisclosesOnly.of_quiet hquiet).append hd, target, List.mem_append_right _ ht⟩

theorem Refuses.quiet {s1 : St} (h : Refuses s s1) (hN : Adds [.result, .close] s1.log s'.log) :
    Refuses s s' := by
  obtain ⟨N, N', text, w, hlog, ht, hq⟩ := h
  obtain ⟨N'', hlog', hN''⟩ := hN
  refine ⟨N, N'' ++ N', text, w, by rw [hlog', hlog, List.append_assoc], ht, fun e he => ?_⟩
  rw [List.append_assoc] at he
  rcases List.mem_append.mp he with he | he
  · exact hN''.mono (by decide) e he
  · exact hq e he

/-- A reply with another code is not a size. -/
theorem not_size_of_code {code text : List Byte} (h : code <+: text) (hlen : code.length = 3)
    (hne : code ≠ ascii "213") : ¬ ascii "213" <+: text := by
  intro h'
  have hpre := List.prefix_of_prefix_length_le h h' hlen.le
  exact hne (hpre.eq_of_length hlen)

theorem not_size_of_errorReply {text : List Byte} (h : ErrorReply text = true) :
    ¬ ascii "213" <+: text := by
  rintro ⟨t, rfl⟩
  exact absurd h (by simp [ErrorReply, ascii])

/-- A transfer of the file discloses only the file. -/
theorem Transferring.disclosesOnly {d : ServerData} {a r0 r x : Int} {log : Log} {T : List Event}
    (h : Transferring (sending p) d a log r0 r x T) : DisclosesOnly p T := by
  have haccept : DisclosesOnly p [.accept .transferClient d.transferSock a] :=
    .of_quiet (by simp [OfKind, Event.kind])
  have hannounce : ∀ {r P}, Announces d.clientSock r P → DisclosesOnly p P := by
    intro r P hP
    cases hP with
    | refused => exact .of_quiet (by simp [OfKind])
    | sent ht => exact .reply (not_size_of_code ht (by decide) (by decide))
  cases h with
  | skipped => exact .of_quiet (by simp [OfKind])
  | unconnected hA => exact .of_quiet (hA.ofKind.mono (by simp))
  | unannounced _ _ hP => exact (hannounce hP).append haccept
  | transferred _ _ hP hD => exact (DisclosesOnly.sends hD).append ((hannounce hP).append haccept)

theorem Sizing.serves_or_refuses {args : List Byte} {len : ℕ} {r : Int}
    (hin : ∀ p, NamesFile os s args len p → Path.Below (47 : Byte) root p)
    (h : Sizing os s args len r s') : Serves root os s args len s' ∨ Refuses s s' := by
  cases h with
  | @refused L text w hL ht =>
    exact Or.inr ⟨L, [], text, w, rfl, ht, hL.ofKind.mono (by simp)⟩
  | @reported target p st st' w hname =>
    refine Or.inl ⟨p, _, hname, hin p hname, rfl, ?_, target, by simp⟩
    constructor
    · simp
    · simp
    · simp
    · intro fd text w' he _
      refine ⟨st', by simp, ?_⟩
      simp only [List.mem_cons, List.not_mem_nil, or_false, reduceCtorEq] at he
      exact (Event.write.inj he).2.2.1

/-- **What `RETR` and `SIZE` do** with an argument that names no file outside. -/
theorem Outcome.serves_or_refuses {args : List Byte} {len : ℕ} {c : Command} {r : Int}
    (hc : c = .retr ∨ c = .size)
    (hin : ∀ p, NamesFile os s args len p → Path.Below (47 : Byte) root p)
    (h : Outcome os s args len c r s') : Serves root os s args len s' ∨ Refuses s s' := by
  cases h with
  | sized h => exact h.serves_or_refuses hin
  | @sent r s' out L hL h =>
    cases h with
    | @mk retval x w T X Y text hT hX hY ht =>
      have hclosed : Quiet (Y ++ X) := fun e he => (List.mem_append.mp he).elim
        (hY.ofKind.mono (by simp) e) (hX.ofKind.mono (by simp) e)
      cases hL with
      | unfound hne hL =>
        generalize out.1.retval = r0 at hT hne
        -- nothing is accepted, announced or transferred
        cases hT with
        | skipped =>
          have herror : ErrorReply text = true := (ht.resolve_left fun h => hne h.1).2
          refine Or.inr ⟨Y ++ (X ++ L), [], text, w, by simp, herror, fun e he => ?_⟩
          rw [List.nil_append, ← List.append_assoc] at he
          exact (List.mem_append.mp he).elim (hclosed e) (hL.ofKind.mono (by simp) e)
        | unconnected => exact absurd rfl hne
        | unannounced => exact absurd rfl hne
        | transferred => exact absurd rfl hne
      | @found target p st hname =>
        have hreply : ¬ ascii "213" <+: text := by
          rcases ht with ⟨-, h226⟩ | ⟨-, herr⟩
          · exact not_size_of_code h226 (by decide) (by decide)
          · exact not_size_of_errorReply herr
        have hlookups : Quiet [.stat p st, .realpath target (some p)] := by
          simp [OfKind, Event.kind]
        refine Or.inl ⟨p, [.write .client s.data.clientSock text w] ++ ((Y ++ X) ++ (T ++
          [.stat p st, .realpath target (some p)])), hname, hin p hname, by simp, ?_,
          target, by simp⟩
        exact (DisclosesOnly.reply hreply).append ((DisclosesOnly.of_quiet hclosed).append
          (hT.disclosesOnly.append (.of_quiet hlookups)))
  | answered hn => rcases hc with rfl | rfl <;> exact absurd hn Bool.false_ne_true
  | _ => simp at hc

/-! ### Runs -/

/-- No argument of a `RETR` or `SIZE` in the turn resolves to a regular file outside
the root's tree. -/
def NamesInside (os : Os) (s : St) : Prop := ∀ c args len s1, Called os s c args len s1 →
  c = .retr ∨ c = .size → ∀ p, NamesFile os s1 args len p →
    Path.Below (47 : Byte) s.data.rootPath p

/-- Every file that was opened lies below the root, by the path that `realpath` has
answered. -/
def OpensBelow (root : List Byte) (log : Log) : Prop := ∀ path fd, .openFile path fd ∈ log →
  Path.Below (47 : Byte) root path ∧ ∃ target, .realpath target (some path) ∈ log

namespace OpensBelow

variable {log log' : Log} {ks : List Kind}

theorem adds (h : OpensBelow root log) (ha : Adds ks log log') (hk : .file ∉ ks) :
    OpensBelow root log' := by
  intro path fd he
  obtain ⟨hbelow, target, ht⟩ := h path fd (ha.mem_of_kind he hk)
  exact ⟨hbelow, target, ha.suffix.subset ht⟩

theorem serves {args : List Byte} {len : ℕ} (h : OpensBelow root s.log)
    (hs : Serves root os s args len s') : OpensBelow root s'.log := by
  obtain ⟨p, N, -, hbelow, hlog, hd, target, ht⟩ := hs
  intro path fd he
  rw [hlog] at he ⊢
  rcases List.mem_append.mp he with he | he
  · obtain rfl := hd.opened path fd he
    exact ⟨hbelow, target, List.mem_append_left _ ht⟩
  · obtain ⟨hbelow', target', ht'⟩ := h path fd he
    exact ⟨hbelow', target', List.mem_append_right _ ht'⟩

theorem refuses (h : OpensBelow root s.log) (hs : Refuses s s') : OpensBelow root s'.log := by
  obtain ⟨N, N', text, w, hlog, -, hq⟩ := hs
  have hadds : Adds [.write, .lookup, .accept, .close, .result] s.log s'.log := by
    rw [hlog]
    have hN : Quiet N := fun e he => hq e (List.mem_append_right _ he)
    have hN' : Quiet N' := fun e he => hq e (List.mem_append_left _ he)
    exact ((Adds.mk (hN.mono (by simp))).cons (by simp [Event.kind])).append (hN'.mono (by simp))
  exact h.adds hadds (by decide)

theorem outcome {args : List Byte} {len : ℕ} {c : Command} {r : Int} (h : OpensBelow root s.log)
    (hin : c = .retr ∨ c = .size → ∀ p, NamesFile os s args len p → Path.Below (47 : Byte) root p)
    (ho : Outcome os s args len c r s') : OpensBelow root s'.log := by
  by_cases hc : c = .retr
  · rcases ho.serves_or_refuses (Or.inl hc) (hin (Or.inl hc)) with hs | hs
    · exact h.serves hs
    · exact h.refuses hs
  · refine h.adds ho.adds ?_
    cases c <;> first | exact absurd rfl hc | decide

/-- A turn whose arguments name no file outside opens none. -/
theorem step {r : Int} (h : OpensBelow s.data.rootPath s.log) (hin : NamesInside os s)
    (hs : Step os s r s') : OpensBelow s.data.rootPath s'.log := by
  cases hs with
  | starting _ hs => exact h.adds hs.adds (by decide)
  | waiting _ _ hs => exact h.adds hs.adds (by decide)
  | conversing hcreated hc hs =>
    cases hs with
    | @line bytes r s2 s' hread hline hp hh =>
      have hl := h.adds (lineState_adds bytes) (by decide)
      refine adds ?_ hh.adds (by decide)
      cases hp with
      | @known name c _ _ hfind ho =>
        exact (hl.adds (calledState_adds _ _ name c) (by decide)).outcome
          (hin c _ _ _ (.mk hcreated hc hread hline hfind)) ho
      | unknown =>
        exact hl.adds (unknown_adds _ _ _) (by decide)
    | closed _ hd =>
      exact (h.adds (storedLog_adds _ _ _) (by decide)).adds hd.adds (by decide)
    | ignored => exact h.adds (.mk (examined_ofKind _ _)) (by decide)
    | stopped _ _ _ _ hst =>
      exact (h.adds (.mk (examined_ofKind _ _)) (by decide)).adds hst.adds (by decide)

end OpensBelow

/-- **In a run in which no argument names a file outside the root's tree, nothing
outside is disclosed**: no file outside is ever opened, and each `RETR` and `SIZE`
serves the file its argument names, or is refused with one error reply. -/
theorem files_confined (h : ReachableBy os argv (NamesInside os) s) (hin : NamesInside os s) :
    OpensBelow s.data.rootPath (serverHandler os s).2.log ∧
      ∀ c args len s1 s', Called os s c args len s1 → c = .retr ∨ c = .size → Turn os s s' →
        Serves s.data.rootPath os s1 args len s' ∨ Refuses s1 s' := by
  have hsound := h.reachable.sound
  have hinv : OpensBelow s.data.rootPath s.log := by
    refine h.invariant (I := fun s => OpensBelow s.data.rootPath s.log) ?_ ?_
    · intro s h0 path fd he
      have hkind := (started_spec h0).2.ofKind _ he
      simp [Event.kind] at hkind
    · rintro a b hr hi ⟨hin, ht⟩
      have hs := Step.of_run (ReachableBy.reachable hr).sound.configured ht
      have hroot : b.data.rootPath = a.data.rootPath := congrArg (·.2.1) hs.config
      rw [hroot]
      exact hi.step hin hs
  constructor
  · rcases hrun : serverHandler os s with ⟨_ | r, s'⟩
    · exact hinv.adds (Killing.of_run hsound.configured hrun).adds (by decide)
    · exact hinv.step hin (Step.of_run hsound.configured hrun)
  · intro c args len s1 s' hcall hc ht
    obtain ⟨-, r1, s2, ho, hh⟩ := (Step.of_run hsound.configured ht).of_called hcall
    rcases ho.serves_or_refuses hc (hin c args len s1 hcall hc) with hs | hs
    · exact Or.inl (hs.quiet hh.adds)
    · exact Or.inr (hs.quiet hh.adds)

/-- A machine with the file `/srv/a`, which the client asks for by a path through the root, of which
it asks for the size and which it then fetches. -/
def insideHost : Host :=
  { nodes := [Host.srv, { Host.node ["srv", "a"] .regular (ascii "abc") Host.valid_a with
      names := [ascii "/srv/../srv/a"] }],
    reads := ["SIZE /../srv/a", "SIZE a", "PASV", "RETR a"].map fun l => some (ascii l ++ crlf),
    fileReads := [ascii "abc"] }

/-- The states of the run. -/
def insideState (k : ℕ) : St := Host.run insideHost.os k (Host.start insideHost.os Host.argv)

/-- The only file there is lies below the root. -/
theorem insideState_namesInside {k : ℕ} (hk : k < 6) :
    NamesInside insideHost.os (insideState k) := by
  have hroot : ∀ k < 6, (insideState k).data.rootPath = ascii "/srv" := by decide +kernel
  rintro c args len s1 - - p ⟨target, -, hresolved, -, hregular⟩
  rw [hroot k hk]
  obtain ⟨n, hn, rfl⟩ := Option.map_eq_some_iff.mp hresolved
  rcases List.mem_pair.mp (List.mem_of_find?_eq_some hn) with rfl | rfl
  · have hdir : reportedKind insideHost.os [] Host.srv.path ≠ .regular := by decide +kernel
    exact absurd hregular hdir
  · decide

/-- The state in which the file has been sent. -/
def insideSent : St := (serverHandler insideHost.os (insideState 5)).2

theorem insideState_sends : Turn insideHost.os (insideState 5) insideSent :=
  Prod.ext (by decide +kernel) (by rw [insideSent])

/-- The file is reported and served, and nothing outside is opened. -/
theorem files_confined_retr : OpensBelow (ascii "/srv") insideSent.log ∧
    (∃ args len s1, Called insideHost.os (insideState 5) .retr args len s1 ∧
      (Serves (ascii "/srv") insideHost.os s1 args len insideSent ∨ Refuses s1 insideSent)) ∧
    .write .transferClient 6 (ascii "abc") 3 ∈ insideSent.log := by
  have hrun : ReachableBy insideHost.os Host.argv (NamesInside insideHost.os) (insideState 5) :=
    Host.reachableBy_run (by decide +kernel) fun k hk => insideState_namesInside (by omega)
  obtain ⟨hopens, hserves⟩ := files_confined hrun (insideState_namesInside (by decide))
  have hroot : (insideState 5).data.rootPath = ascii "/srv" := by decide +kernel
  rw [hroot] at hopens hserves
  rw [← insideSent] at hopens
  have hread : received insideHost.os (insideState 5) = some (ascii "RETR a" ++ crlf) := by
    decide +kernel
  have hcall := Called.mk (by decide +kernel) (by decide +kernel) hread (by decide)
    (show commandFind (lineBuffer (ascii "RETR a" ++ crlf)) = some (ascii "RETR", .retr) by decide)
  exact ⟨hopens, ⟨_, _, _, hcall, hserves _ _ _ _ _ hcall (Or.inl rfl) insideState_sends⟩,
    by decide +kernel⟩

/-- A machine with the file `/secret`, next to the root path and reached from it by
`..`. -/
def secretHost : Host :=
  { nodes := [Host.srv, { Host.node ["secret"] .regular (ascii "key") (by decide) with
      names := [ascii "/srv/../secret"] }],
    reads := [some (ascii "SIZE /../secret" ++ crlf)] }

/-- **`SIZE /../secret` reports the size of a file outside** of the root's tree. -/
theorem size_discloses_outside :
    let s := Host.run secretHost.os 2 (Host.start secretHost.os Host.argv)
    Reachable secretHost.os Host.argv s ∧ s.data.rootPath = ascii "/srv" ∧
      received secretHost.os s = some (ascii "SIZE /../secret" ++ crlf) ∧
      (serverHandler secretHost.os s).1 = some 0 ∧
      (serverHandler secretHost.os s).2.log.take 3 =
        [.result 0, .write .client s.data.clientSock (ascii "213 3" ++ crlf) 7,
          .stat (ascii "/secret") (some ⟨.regular, 3, by decide⟩)] ∧
      ¬ Path.Below (47 : Byte) (ascii "/srv") (ascii "/secret") := by
  refine ⟨Host.reachable_run (by decide +kernel), ?_, ?_, ?_, ?_, ?_⟩ <;> decide +kernel

end VsFtp
