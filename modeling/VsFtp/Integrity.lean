import VsFtp.Host
import VsFtp.Records
import VsFtp.Lib.Chronicle
import VsFtp.Lib.Copying

/-!
# What `RETR` sends of a file

The loop of `VSFTPServerSendfileTransfer` reads a chunk and writes it once.  What the
write does not accept is lost: the next chunk is read from behind it.  If the file ends
early, the loop ends without an error.

## Main definitions

* `copied` — the chunks that were read and sent, in order.
* `Intact` — at every moment the positions sent are the first ones of the file, and a
  transfer that is reported as complete has sent as many bytes as the file had at the
  start.
* `NoEof` — no read found the end of the file.

## Main results

* `Copies.accounts` — the loop, by induction on its rounds.
* `retr_intact_iff` — **a transfer is intact exactly if nothing is accepted behind a
  write that fell short and no read finds the end of the file.**
* `partial_write_skips` — a transfer that skips bytes and is reported as complete.
-/

namespace VsFtp

open CString Prog Copying

attribute [local irreducible] serverSendReply

variable {os : Os} {s s' : St} {N M : List Event} {retval : Int}

/-! ### What a log says about a transfer -/

/-- The step of the copying that a record stands for. -/
def Event.item : Event → List (Item Byte)
  | .readFile _ _ (some bytes) => [.read bytes]
  | .write .transferClient _ bytes w => [.sent bytes w.toNat]
  | _ => []

/-- The chunks that were read and sent, in order. -/
def copied (N : List Event) : List (Item Byte) := chronicle Event.item N

/-- A transfer was reported as complete. -/
def Completed (N : List Event) : Prop :=
  ∃ fd text w, .write .client fd text w ∈ N ∧ ascii "226" <+: text

/-- At every moment the positions that were sent are the first ones of the file, in
order, and if the transfer is reported as complete, as many bytes were sent as the file
had when it was opened. -/
structure Intact (N : List Event) : Prop where
  inOrder : ∀ sofar, sofar <+: copied N → InOrder sofar
  complete : Completed N →
    ∃ fd st, .fstat fd (some st) ∈ N ∧ (positions 0 (copied N)).length = st.size

/-- No read found the end of the file. -/
def NoEof (N : List Event) : Prop := ∀ fd n, .readFile fd n (some []) ∉ N

/-- Records of something else than copying a file. -/
def Event.isAside : Event → Bool
  | .readFile _ _ _ => false
  | .fstat _ _ => false
  | .write .transferClient _ _ _ => false
  | _ => true

/-- What the records say about a transfer with the given status: what is sent was just
read, a transfer that succeeds has one size, which is reached exactly if no read finds
the end of the file, and one that does find it succeeds. -/
structure Accounts (retval : Int) (N : List Event) : Prop where
  alternates : Alternates (copied N)
  size : retval = 0 → ∃ fd st, .fstat fd (some st) ∈ N ∧
    (∀ fd' st', .fstat fd' (some st') ∈ N → st' = st) ∧
    ((positions 0 (copied N)).length = st.size ↔ NoEof N)
  eof : ¬ NoEof N → retval = 0

theorem copied_append_of_aside (h : ∀ e ∈ M, e.isAside = true) :
    copied (M ++ N) = copied N ∧ copied (N ++ M) = copied N := by
  have hsilent : ∀ e ∈ M, e.item = [] := by
    intro e he
    have ha := h e he
    cases e with
    | readFile => exact absurd ha Bool.false_ne_true
    | write who => cases who <;> first | rfl | exact absurd ha Bool.false_ne_true
    | _ => rfl
  have hnil : chronicle Event.item M = [] := chronicle_of_silent hsilent
  exact ⟨by simp [copied, chronicle_append, hnil], by simp [copied, chronicle_append, hnil]⟩

namespace Accounts

/-- Records beside the transfer change nothing. -/
theorem of_mem_iff {N' : List Event} (h : Accounts retval N) (hc : copied N' = copied N)
    (hmem : ∀ e, e.isAside = false → (e ∈ N' ↔ e ∈ N)) : Accounts retval N' := by
  have heof : NoEof N' ↔ NoEof N := forall_congr' fun fd => forall_congr' fun n =>
    not_congr (hmem (.readFile fd n (some [])) rfl)
  constructor
  · rw [hc]
    exact h.alternates
  · intro h0
    obtain ⟨fd, st, hst, huniq, hsize⟩ := h.size h0
    refine ⟨fd, st, (hmem (.fstat fd _) rfl).mpr hst, fun fd' st' h' => ?_, ?_⟩
    · exact huniq fd' st' ((hmem (.fstat fd' _) rfl).mp h')
    · rw [hc, heof]
      exact hsize
  · rw [heof]
    exact h.eof

theorem append_aside (h : Accounts retval N) (hM : ∀ e ∈ M, e.isAside = true) :
    Accounts retval (M ++ N) :=
  h.of_mem_iff (copied_append_of_aside hM).1 fun e he => by
    rw [List.mem_append]
    exact or_iff_right fun hm => absurd ((hM e hm).symm.trans he) Bool.false_ne_true.symm

theorem aside_append (h : Accounts retval N) (hM : ∀ e ∈ M, e.isAside = true) :
    Accounts retval (N ++ M) :=
  h.of_mem_iff (copied_append_of_aside hM).2 fun e he => by
    rw [List.mem_append]
    exact or_iff_left fun hm => absurd ((hM e hm).symm.trans he) Bool.false_ne_true.symm

/-- Where nothing is copied the transfer has failed. -/
theorem of_aside (hM : ∀ e ∈ M, e.isAside = true) (h : retval ≠ 0) : Accounts retval M := by
  have hnil : Accounts retval [] := ⟨.nil, fun h0 => absurd h0 h,
    fun hn => absurd (by simp [NoEof]) hn⟩
  have happend := hnil.append_aside hM
  rwa [List.append_nil] at happend

/-- **What makes a transfer intact.** -/
theorem intact_iff (h : Accounts retval N) (hc : Completed N ↔ retval = 0) :
    Intact N ↔ StopsShort (copied N) ∧ NoEof N := by
  constructor
  · intro hi
    refine ⟨(inOrder_iff h.alternates).mp (hi.inOrder _ List.prefix_rfl), ?_⟩
    by_contra hn
    have h0 := h.eof hn
    obtain ⟨fd, st, hst, hlen⟩ := hi.complete (hc.mpr h0)
    obtain ⟨_, st', -, huniq, hsize⟩ := h.size h0
    rw [← huniq fd st hst] at hsize
    exact hn (hsize.mp hlen)
  · rintro ⟨hstop, heof⟩
    refine ⟨fun sofar hp => positions_prefix ((inOrder_iff h.alternates).mpr hstop) hp,
      fun hcomp => ?_⟩
    obtain ⟨fd, st, hst, -, hsize⟩ := h.size (hc.mp hcomp)
    exact ⟨fd, st, hst, hsize.mpr heof⟩

end Accounts

/-! ### The loop -/

theorem copied_append : copied (M ++ N) = copied N ++ copied M := chronicle_append

/-- **The rounds of the loop**: what is sent was just read, and a loop that succeeds has
sent all it was to send, unless a read found the end of the file. -/
theorem Copies.accounts {x fd : Int} {count : ℕ} {D : List Event}
    (h : Copies x fd count retval D) : Alternates (copied D) ∧
      (∀ off, retval = 0 → ((positions off (copied D)).length = count ↔ NoEof D)) ∧
      (¬ NoEof D → retval = 0) := by
  induction h with
  | done => exact ⟨.nil, fun _ _ => iff_of_true rfl (by simp [NoEof]),
      fun hn => absurd (by simp [NoEof]) hn⟩
  | unread => exact ⟨.nil, fun _ h => absurd h (by decide), fun hn => absurd (by simp [NoEof]) hn⟩
  | ended hc =>
    -- the read found the end of the file, with `count` bytes missing
    refine ⟨.last, fun _ _ => iff_of_false hc.ne fun hn => ?_, fun _ => rfl⟩
    exact hn _ _ (List.mem_singleton.mpr rfl)
  | @refused count n bytes w hc hb hw =>
    have hitems : copied [.write .transferClient x bytes w, .readFile fd n (some bytes)] =
        [.read bytes, .sent bytes 0] := by
      rcases hw with rfl | rfl <;> rfl
    refine ⟨hitems ▸ .round (Nat.zero_le _) .nil, fun _ h => absurd h (by decide), fun hn => ?_⟩
    exact absurd (by simp [NoEof, hb]) hn
  | @accepted count n k bytes retval D hk hkb hb h ih =>
    -- the file moves on by what was read, and the counter by what was accepted
    obtain ⟨halt, hsize, heof⟩ := ih
    have hitems : copied (D ++ [.write .transferClient x bytes k, .readFile fd n (some bytes)]) =
        .read bytes :: .sent bytes k :: copied D := by
      rw [copied_append]
      simp [copied, Event.item]
    have hne : bytes ≠ [] := fun h0 => by
      rw [h0, List.length_nil] at hkb
      omega
    have hno : NoEof (D ++ [.write .transferClient x bytes k, .readFile fd n (some bytes)]) ↔
        NoEof D := by
      simp [NoEof, hne]
    rw [hitems, hno]
    refine ⟨.round hkb halt, fun off h0 => ?_, heof⟩
    rw [positions_round, List.length_append, List.length_range', ← hsize (off + bytes.length) h0]
    omega

/-- Sending a file. -/
theorem Sends.accounts {log : Log} {x : Int} {path : List Byte} {D : List Event}
    (h : Sends log x path retval D) : Accounts retval D := by
  have hfailed : ∀ {M : List Event}, (∀ e ∈ M, e.isAside = true ∨ ∃ fd, e = .fstat fd none) →
      retval ≠ 0 → Accounts retval M := by
    intro M hM hne
    refine ⟨?_, fun h0 => absurd h0 hne, fun hn => absurd (fun fd n hmem => ?_) hn⟩
    · have hnil : copied M = [] := chronicle_of_silent fun e he => by
        rcases hM e he with ha | ⟨fd, rfl⟩
        · cases e with
          | readFile => exact absurd ha Bool.false_ne_true
          | write who => cases who <;> first | rfl | exact absurd ha Bool.false_ne_true
          | _ => rfl
        · rfl
      rw [hnil]
      exact .nil
    · rcases hM _ hmem with ha | ⟨fd, h⟩
      · exact Bool.false_ne_true ha
      · simp at h
  cases h with
  | inaccessible ha => exact hfailed (by simp [Event.isAside]) ha
    -- nothing was copied, and the status says so
  | unopened => exact hfailed (by simp [Event.isAside]) (by decide)
  | unknown => exact hfailed (by simp [Event.isAside]) (by decide)
  | @sent fd q _ st D hfd hD =>
    obtain ⟨halt, hsize, heof⟩ := hD.accounts
    have hitems : copied (.closeFile fd q :: (D ++ [.fstat fd (some st), .openFile path fd,
        .access path 0])) = copied D := by
      rw [← List.singleton_append, (copied_append_of_aside (by simp [Event.isAside])).1,
        copied_append]
      simp [copied, Event.item]
    have hno : NoEof (.closeFile fd q :: (D ++ [.fstat fd (some st), .openFile path fd,
        .access path 0])) ↔ NoEof D := by
      simp [NoEof]
    have hnostat : ∀ fd' r, .fstat fd' r ∉ D := by
      intro fd' r hmem
      rcases hD.mem _ hmem with ⟨_, _, h⟩ | ⟨_, _, h⟩ <;> simp at h
    constructor
    · rw [hitems]
      exact halt
    · intro h0
      refine ⟨fd, st, by simp, fun fd' st' hmem => ?_, ?_⟩
      · exact (show fd' = fd ∧ st' = st by simpa [hnostat] using hmem).2
      · rw [hitems, hno]
        exact hsize 0 h0
    · rw [hno]
      exact heof

/-! ### The handler -/

theorem OfKind.isAside {ks : List Kind} (h : OfKind ks M) (hf : .file ∉ ks) (hw : .write ∉ ks) :
    ∀ e ∈ M, e.isAside = true := by
  intro e he
  have hk := h e he
  cases e with
  | readFile => exact absurd hk hf
  | fstat => exact absurd hk hf
  | write => exact absurd hk hw
  | _ => rfl

theorem Announces.isAside {c r : Int} {P : List Event} (h : Announces c r P) :
    ∀ e ∈ P, e.isAside = true := by
  cases h <;> simp [Event.isAside]

theorem Transferring.accounts {d : ServerData} {a r0 x : Int} {log : Log} {path : List Byte}
    {T : List Event} (h : Transferring (sending path) d a log r0 retval x T) :
    Accounts retval T := by
  have haccept : ∀ {P : List Event} {r : Int}, Announces d.clientSock r P →
      ∀ e ∈ P ++ [.accept .transferClient d.transferSock a], e.isAside = true := by
    intro P r hP e he
    rcases List.mem_append.mp he with he | he
    · exact hP.isAside e he
    · rw [List.mem_singleton.mp he]
      rfl
  cases h with
  | skipped h0 => exact .of_aside (by simp) h0
  | unconnected hA => exact .of_aside (hA.ofKind.isAside (by decide) (by decide)) (by decide)
  | unannounced _ _ hP hr => exact .of_aside (haccept hP) hr
  | transferred _ _ hP hD => exact hD.accounts.aside_append (haccept hP)

/-- Until its completion reply, a transfer is not reported as complete. -/
theorem Transferring.not_completed {d : ServerData} {a r0 x : Int} {log : Log} {path : List Byte}
    {T : List Event} (h : Transferring (sending path) d a log r0 retval x T) : ¬ Completed T := by
  rintro ⟨fd, text, w, he, ht⟩
  have hannounce : ∀ {P : List Event} {r : Int}, Announces d.clientSock r P →
      .write .client fd text w ∉ P := by
    intro P r hP hmem
    cases hP with
    | refused => simp at hmem
    | sent h150 =>
      obtain ⟨-, -, rfl, -⟩ := Event.write.inj (List.mem_singleton.mp hmem)
      have hcode := List.prefix_of_prefix_length_le h150 ht (by decide)
      exact absurd (hcode.eq_of_length (by decide)) (by decide)
  cases h with
  | skipped => simp at he
  | unconnected hA => exact absurd (hA.ofKind _ he) (by simp [Event.kind])
  | unannounced _ _ hP =>
    simp only [List.mem_append, List.mem_singleton, reduceCtorEq, or_false] at he
    exact hannounce hP he
  | transferred _ _ hP hD =>
    simp only [List.mem_append, List.mem_singleton, reduceCtorEq, or_false] at he
    rcases he with he | he
    · exact absurd (hD.mem _ he).1 (by decide)
    · exact hannounce hP he

theorem not_completed_of_kind {ks : List Kind} (h : OfKind ks M) (hw : .write ∉ ks) :
    ¬ Completed M := fun ⟨_, _, _, he, _⟩ => absurd (h _ he) hw

theorem completed_append : Completed (M ++ N) ↔ Completed M ∨ Completed N := by
  constructor
  · rintro ⟨fd, text, w, he, ht⟩
    exact (List.mem_append.mp he).imp (⟨fd, text, w, ·, ht⟩) (⟨fd, text, w, ·, ht⟩)
  · rintro (⟨fd, text, w, he, ht⟩ | ⟨fd, text, w, he, ht⟩)
    · exact ⟨fd, text, w, List.mem_append_left _ he, ht⟩
    · exact ⟨fd, text, w, List.mem_append_right _ he, ht⟩

/-- **What `RETR` records**, and when it reports the transfer as complete. -/
theorem accounts_of_retr {args : List Byte} {len : ℕ} {r : Int} {out : PathOut × Bool}
    {L : List Event} (hL : FilePath os s args len out L)
    (h : Transferred os (sending out.1.buf) out.1.retval ⟨s.data, L ++ s.log⟩ r s') :
    ∃ N retval, s'.log = N ++ s.log ∧ Accounts retval N ∧ (Completed N ↔ retval = 0) := by
  cases h with
  | @mk retval x w T X Y text hT hX hY ht =>
    have hXa := hX.ofKind.isAside (by decide) (by decide)
    have hYa := hY.ofKind.isAside (by decide) (by decide)
    have hLa := hL.lookups.ofKind.isAside (by decide) (by decide)
    have hacc := ((hT.accounts.aside_append hLa).append_aside hXa).append_aside hYa
    have hreply : ∀ e ∈ [Event.write .client s.data.clientSock text w], e.isAside = true := by
      simp [Event.isAside]
    refine ⟨_, retval, ?_, hacc.append_aside hreply, ?_⟩
    · simp
    · have hT' := hT.not_completed
      have hX' := not_completed_of_kind hX.ofKind (by decide)
      have hY' := not_completed_of_kind hY.ofKind (by decide)
      have hL' := not_completed_of_kind hL.lookups.ofKind (by decide)
      have hend : Completed [Event.write .client s.data.clientSock text w] ↔
          ascii "226" <+: text := by
        constructor
        · rintro ⟨fd, text', w', he, h226⟩
          obtain ⟨-, -, rfl, -⟩ := Event.write.inj (List.mem_singleton.mp he)
          exact h226
        · exact fun h => ⟨_, _, _, List.mem_singleton.mpr rfl, h⟩
      simp only [completed_append, hend, hT', hX', hY', hL', or_false]
      constructor
      · rintro ⟨t, rfl⟩
        exact (ht.resolve_right fun h => absurd h.2 (by simp [ErrorReply, ascii])).1
      · exact fun h0 => (ht.resolve_right fun h => h.1 h0).2

/-- **A transfer is intact exactly if nothing is accepted behind a write that fell short
and no read finds the end of the file.**  If it is intact, what is sent of any content
that the reads deliver is at every moment a prefix of it. -/
theorem retr_intact_iff (os : Os) (s : St) (args : List Byte) (len : ℕ) :
    ∃ N, (commandHandlerRetr args len os s).2.log = N ++ s.log ∧
      (Intact N ↔ StopsShort (copied N) ∧ NoEof N) ∧
      (Intact N → ∀ content, Delivers content 0 (copied N) →
        ∀ sofar, sofar <+: copied N → sentBytes sofar <+: content) := by
  have hwp := @wp_commandHandlerRetr os s args len
  rcases hrun : commandHandlerRetr args len os s with ⟨_ | r, s'⟩
  · unfold wp at hwp
    rw [hrun] at hwp
    obtain ⟨-, -, L, hL, rfl⟩ := hwp
    have hacc : Accounts (-1) L :=
      .of_aside (hL.ofKind.isAside (by decide) (by decide)) (by decide)
    have hc : Completed L ↔ (-1 : Int) = 0 :=
      iff_of_false (not_completed_of_kind hL.ofKind (by decide)) (by decide)
    exact ⟨L, rfl, hacc.intact_iff hc, fun hi content hd sofar hp =>
      sentBytes_prefix_of_prefix hacc.alternates hd (hi.inOrder _ List.prefix_rfl) hp⟩
  · obtain ⟨out, L, hL, h⟩ := of_wp_run hwp hrun
    obtain ⟨N, retval, hlog, hacc, hc⟩ := accounts_of_retr hL h
    exact ⟨N, hlog, hacc.intact_iff hc, fun hi content hd sofar hp =>
      sentBytes_prefix_of_prefix hacc.alternates hd (hi.inOrder _ List.prefix_rfl) hp⟩

/-- A machine with a file of ten bytes, on which reads deliver six bytes and then four,
and of the first six only four are accepted at once. -/
def slowHost : Host :=
  { nodes := [Host.srv, Host.node ["srv", "a"] .regular (ascii "abcdefghij") Host.valid_a],
    reads := [some (ascii "PASV" ++ crlf), some (ascii "RETR a" ++ crlf)],
    fileReads := [ascii "abcdef", ascii "ghij"],
    accepts := fun bytes => if bytes = ascii "abcdef" then 4 else bytes.length }

/-- **A partial write skips bytes**: two bytes of the file are never sent, and the
transfer is reported as complete. -/
theorem partial_write_skips :
    let s := Host.run slowHost.os 3 (Host.start slowHost.os Host.argv)
    let log := (serverHandler slowHost.os s).2.log
    Reachable slowHost.os Host.argv s ∧
      received slowHost.os s = some (ascii "RETR a" ++ crlf) ∧
      copied log = [.read (ascii "abcdef"), .sent (ascii "abcdef") 4, .read (ascii "ghij"),
        .sent (ascii "ghij") 4, .read []] ∧
      sentBytes (copied log) = ascii "abcdghij" ∧ ¬ InOrder (copied log) ∧
      .write .client s.data.clientSock (ascii "226 Transfer Complete." ++ crlf) 24 ∈ log ∧
      .fstat 7 (some ⟨.regular, 10, by decide⟩) ∈ log := by
  refine ⟨Host.reachable_run (by decide +kernel), ?_, ?_, ?_, ?_, ?_, ?_⟩ <;> decide +kernel

end VsFtp
