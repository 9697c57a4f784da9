import VsFtp.Listings

/-!
# Directory streams

`VSFTPFilesystemListDirPerLine` opens a directory stream, hands it to its caller as the cookie, and
closes it at the end of the directory and when an entry does not fit.  Between two calls only the
cookie refers to the stream.  When a line cannot be sent, the loop of `CommandHandlerNlst` is left
with the cookie, and nobody closes the stream.

## Main definitions

* `Released`, `ReleasesStreams` — a stream is closed exactly once and not used afterwards.
* `LineFails` — a line is not sent while the stream is open.
* `Source`, `Takes` — where the stream of an iteration comes from, and what becomes of it.

## Main results

* `wp_nlstBody_takes` — one iteration on a stream.
* `wp_nlstWhile_walked`, `wp_nlstLoop_streams` — all iterations.
* `nlst_releases_iff` — **`NLST` releases its stream if and only if no line fails while it is
  open.**
* `stream_leaked` — a client that does not take the first line.
-/

namespace VsFtp

open CString Prog

attribute [local irreducible] serverSendReply

variable {os : Os} {s : St} {E : St → Prop} {argv : Argv} {lpath name : List Byte} {len id : ℕ}
  {A B D M N : List Event}

/-! ### Releasing a stream -/

/-- A record of using the stream `id`. -/
def Event.usesStream (id : ℕ) : Event → Prop
  | .readdir d _ => d = id
  | .closedir d => d = id
  | _ => False

/-- In these records, newest first, the stream is closed exactly once, and it is not used after
that. -/
def Released (id : ℕ) (N : List Event) : Prop :=
  ∃ after before, N = after ++ .closedir id :: before ∧ (∀ e ∈ after, ¬ e.usesStream id) ∧
    .closedir id ∉ before

/-- Each stream that is opened is released. -/
def ReleasesStreams (M : List Event) : Prop :=
  ∀ newer p d older, M = newer ++ .opendir p (some d) :: older → Released d.id newer

/-- A line is not sent while the stream is open: `write` fails before `readdir` has come to the end
of the directory, or there is no argument and an entry has no name. -/
def LineFails (len : ℕ) (M : List Event) : Prop :=
  (∃ newer fd bytes older, M = newer ++ .write .transferClient fd bytes (-1) :: older ∧
    ∀ id, .readdir id none ∉ older) ∨
  len = 0 ∧ ∃ id, .readdir id (some []) ∈ M

/-! ### The records of the loop -/

/-- All lines of these records were sent. -/
def SendsLines (len : ℕ) (N : List Event) : Prop :=
  (∀ fd bytes, .write .transferClient fd bytes (-1) ∉ N) ∧
    (len = 0 → ∀ id, .readdir id (some []) ∉ N)

/-- The stream `id` was closed, when all lines so far were sent.  At the end of the directory one
more line may follow. -/
def ClosesStream (len id : ℕ) (N : List Event) : Prop :=
  ∃ W before, N = W ++ .closedir id :: before ∧
    (W = [] ∨ .readdir id none ∈ before ∧ ∃ fd bytes w, W = [.write .transferClient fd bytes w]) ∧
    .closedir id ∉ before ∧ SendsLines len before

/-- The stream `id` was left open, when a line was not sent. -/
def LeavesStream (len id : ℕ) (N : List Event) : Prop :=
  .closedir id ∉ N ∧ (∀ d, .readdir d none ∉ N) ∧ ¬ SendsLines len N

/-- The records of the loop on a stream that is open. -/
structure Walked (len id : ℕ) (N : List Event) : Prop where
  unopened : ∀ p d, .opendir p d ∉ N
  outcome : ClosesStream len id N ∨ LeavesStream len id N

/-- The records of an iteration that sent its line. -/
def lineSent (id : ℕ) (name : List Byte) (fd : Int) (bytes : List Byte) (w : Int) : List Event :=
  [.write .transferClient fd bytes w, .readdir id (some name)]

theorem sendsLines_lineSent {fd w : Int} {bytes : List Byte} (hw : w ≠ -1)
    (hname : len = 0 → name ≠ []) : SendsLines len (lineSent id name fd bytes w) := by
  constructor
  · intro fd' bytes' h
    rcases List.mem_pair.mp h with h | h
    · exact hw (Event.write.inj h).2.2.2.symm
    · simp at h
  · intro h0 d h
    rcases List.mem_pair.mp h with h | h
    · simp at h
    · exact hname h0 (Option.some.inj (Event.readdir.inj h).2).symm

theorem SendsLines.append (h : SendsLines len N) (h' : SendsLines len M) :
    SendsLines len (N ++ M) := by
  constructor
  · intro fd bytes hmem
    exact (List.mem_append.mp hmem).elim (h.1 fd bytes) (h'.1 fd bytes)
  · intro h0 d hmem
    exact (List.mem_append.mp hmem).elim (h.2 h0 d) (h'.2 h0 d)

theorem SendsLines.mono (h : SendsLines len M) (hsub : N ⊆ M) : SendsLines len N :=
  ⟨fun fd bytes hmem => h.1 fd bytes (hsub hmem), fun h0 d hmem => h.2 h0 d (hsub hmem)⟩

/-- **An iteration that sent its line, and the others.** -/
theorem Walked.lineSent {fd w : Int} {bytes : List Byte} (h : Walked len id N) (hw : w ≠ -1)
    (hname : len = 0 → name ≠ []) : Walked len id (N ++ lineSent id name fd bytes w) := by
  refine ⟨fun p d hmem => ?_, ?_⟩
  · rcases List.mem_append.mp hmem with hmem | hmem
    · exact h.unopened p d hmem
    · simp [VsFtp.lineSent] at hmem
  · rcases h.outcome with ⟨W, before, rfl, hW, hclose, hsent⟩ | ⟨hclose, hend, hfail⟩
    · refine Or.inl ⟨W, before ++ VsFtp.lineSent id name fd bytes w, by simp, ?_, ?_,
        hsent.append (sendsLines_lineSent hw hname)⟩
      · exact hW.imp_right fun hW => ⟨List.mem_append_left _ hW.1, hW.2⟩
      · simpa [VsFtp.lineSent] using hclose
    · refine Or.inr ⟨?_, fun d => ?_, fun h => hfail (h.mono (List.subset_append_left _ _))⟩
      · simpa [VsFtp.lineSent] using hclose
      · simpa [VsFtp.lineSent] using hend d

/-! ### Sending a line -/

/-- A sender called on a text of length zero fails, and otherwise it writes one line. -/
theorem wp_sendTransfer_status {buf : List Byte} {n : ℕ} :
    wp os (serverSendReplyOwnBufTransfer buf pathLenMax n) (fun out s' =>
      n = 0 ∧ out.1 = -1 ∧ s' = s ∨ 0 < n ∧ ∃ bytes w, out.1 = status w ∧
        s' = ⟨s.data, .write .transferClient s.data.transferClientSock bytes w :: s.log⟩) E s := by
  by_cases hn : 0 < n
  · refine wp_mono (wp_sendReplyOwnBuf ⟨by decide, hn⟩) ?_ fun _ h => h
    rintro _ _ ⟨bytes, w, hw, -, rfl⟩
    exact Or.inr ⟨hn, bytes, w, hw, rfl⟩
  · unfold serverSendReplyOwnBufTransfer sendReplyOwnBuf
    rw [if_neg fun h => hn h.2]
    exact Or.inl ⟨by omega, rfl, rfl⟩

/-- Whatever the buffer holds, at most one line is written, and the stream is left alone. -/
theorem wp_nlstSend_any {l : Listing} :
    wp os (nlstSend len l) (fun out s' => out.2.d = l.d ∧ ∃ W, (W = [] ∨ ∃ bytes w,
      W = [.write .transferClient s.data.transferClientSock bytes w]) ∧
      s' = ⟨s.data, W ++ s.log⟩) E s := by
  have hsend : ∀ {buf : List Byte} {n : ℕ}, wp os (serverSendReplyOwnBufTransfer buf pathLenMax n)
      (fun _ s' => ∃ W, (W = [] ∨ ∃ bytes w,
        W = [.write .transferClient s.data.transferClientSock bytes w]) ∧
        s' = ⟨s.data, W ++ s.log⟩) E s := by
    intro buf n
    refine wp_mono wp_sendTransfer_status ?_ fun _ h => h
    rintro _ _ (⟨-, -, rfl⟩ | ⟨-, bytes, w, -, rfl⟩)
    · exact ⟨[], Or.inl rfl, rfl⟩
    · exact ⟨_, Or.inr ⟨bytes, w, rfl⟩, rfl⟩
  unfold nlstSend
  refine wp_ite (fun _ => ?_) (fun _ => wp_seq hsend fun _ _ h => ⟨rfl, h⟩)
  refine wp_seq wp_serverRealPathToServerPath_unchanged ?_
  rintro path _ rfl
  refine wp_ite (fun _ => wp_seq hsend fun _ _ h => ⟨rfl, h⟩) (fun _ => ?_)
  exact ⟨rfl, [], Or.inl rfl, rfl⟩

/-- With an argument there always is a server path to send. -/
theorem wp_nlstSend_argument {l : Listing} {t : List Byte} (hlen : len ≠ 0)
    (hpath : Requested s.data.rootPath lpath len) (hroot : s.data.rootPath.length < pathLenMax)
    (hbuf : l.buf = (lpath ++ 47 :: name) ++ 0 :: t)
    (hshort : (lpath ++ 47 :: name).length < pathLenMax) :
    wp os (nlstSend len l) (fun out s' => out.2.d = l.d ∧ ∃ bytes w, out.1 = status w ∧
      s' = ⟨s.data, .write .transferClient s.data.transferClientSock bytes w :: s.log⟩) E s := by
  -- the text ends at the first NUL of the name
  obtain ⟨t', hname⟩ := exists_eq_cstr_append name t
  have hbuf' : l.buf = (lpath ++ 47 :: cstr name) ++ 0 :: t' := by
    rw [hbuf, List.append_assoc, List.cons_append, hname]
    simp
  have hn : NoNul (lpath ++ 47 :: cstr name) :=
    (hpath hlen).2.1.append (.cons (by decide) (noNul_cstr name))
  have hle : (lpath ++ 47 :: cstr name).length < pathLenMax := by
    have := cstr_length_le name
    simp only [List.length_append, List.length_cons] at hshort ⊢
    omega
  obtain ⟨hpre, hne⟩ := @Requested.path _ _ (cstr name) _ hpath hlen
  have hpos : 0 < (serverPathOf s.data.rootPath (lpath ++ 47 :: cstr name)).length := by
    obtain ⟨rest, hrest⟩ := hpre
    rw [serverPathOf_of_ne hne, ← hrest, List.drop_left' rfl]
    refine List.length_pos_iff.mpr fun h => hne ?_
    rw [← hrest, h, List.append_nil]
  unfold nlstSend
  rw [if_pos hlen, hbuf']
  refine wp_seq (wp_serverRealPathToServerPath_past hn hle hpre hne hroot) ?_
  rintro _ _ ⟨rfl, rfl⟩
  refine wp_ite (fun _ => wp_seq wp_sendTransfer_status ?_) (fun h => absurd rfl h)
  rintro out s' (⟨h0, -, -⟩ | ⟨-, hsent⟩)
  · exact absurd h0 (Nat.ne_of_gt hpos)
  · exact ⟨rfl, hsent⟩

/-- **Sending the line of an entry** fails without a `write` if there is no argument and the entry
has no name. -/
theorem wp_nlstSend_entry {l : Listing} (hpath : Requested s.data.rootPath lpath len)
    (hroot : s.data.rootPath.length < pathLenMax) (hheld : HoldsLine lpath len l (some name)) :
    wp os (nlstSend len l) (fun out s' => out.2.d = l.d ∧
      ((len = 0 ∧ name = []) ∧ out.1 ≠ 0 ∧ s' = s ∨
      (len = 0 → name ≠ []) ∧ ∃ bytes w, out.1 = status w ∧
        s' = ⟨s.data, .write .transferClient s.data.transferClientSock bytes w :: s.log⟩)) E s := by
  have hname := hheld name rfl
  by_cases hlen : len = 0
  · rw [if_pos hlen] at hname
    obtain ⟨-, hbufLen, -⟩ := hname
    unfold nlstSend
    rw [if_neg fun h => h hlen, hbufLen]
    refine wp_seq wp_sendTransfer_status ?_
    rintro out s' (⟨h0, hout, rfl⟩ | ⟨hpos, hsent⟩)
    · have hout' : out.1 ≠ 0 := by
        rw [hout]
        decide
      exact ⟨rfl, Or.inl ⟨⟨hlen, List.length_eq_zero_iff.mp h0⟩, hout', rfl⟩⟩
    · exact ⟨rfl, Or.inr ⟨fun _ => List.length_pos_iff.mp hpos, hsent⟩⟩
  · rw [if_neg hlen] at hname
    obtain ⟨hshort, t, hbuf⟩ := hname
    refine wp_mono (wp_nlstSend_argument hlen hpath hroot hbuf hshort) ?_ fun _ h => h
    rintro out s' ⟨hd, hsent⟩
    exact ⟨hd, Or.inr ⟨fun h => absurd h hlen, hsent⟩⟩

/-! ### One iteration -/

/-- Where the stream of an iteration comes from: it is the cookie, or it is opened. -/
inductive Source (lpath : List Byte) : Option Dir → Dir → List Event → Prop
  | parked {dir : Dir} : Source lpath (some dir) dir []
  | opened {dir : Dir} : Source lpath none dir [.opendir lpath (some dir)]

/-- What the iterator does with a stream: the status, the cookie and the line it returns, and the
records. -/
inductive Got (lpath : List Byte) (len : ℕ) (dir : Dir) (out : ListOut) : List Event → Prop
  | ended (hent : dir.entries = []) (h0 : out.retval = 0) (hd : out.cookie = none) :
      Got lpath len dir out [.closedir dir.id, .readdir dir.id none]
  | oversized {name : List Byte} (hname : len = 0 → name ≠ []) (hne : out.retval ≠ 0) :
      Got lpath len dir out [.closedir dir.id, .readdir dir.id (some name)]
  | printed {name : List Byte} {rest : List (List Byte)} (hent : dir.entries = name :: rest)
      (h0 : out.retval = 0) (hd : out.cookie = some ⟨dir.id, rest⟩)
      (hheld : ∀ l : Listing, HoldsLine lpath len
        { l with buf := out.buf, bufLen := out.bufLen, d := out.cookie } (some name)) :
      Got lpath len dir out [.readdir dir.id (some name)]

/-- **The iterator** opens a directory if it has no cookie; it closes the stream, or returns it with
the line of an entry. -/
theorem wp_filesystemListDirPerLine_got {buf : List Byte} {llen n : ℕ} {cookie : Option Dir}
    (hllen : 0 < llen) :
    wp os (filesystemListDirPerLine lpath llen buf pathLenMax n (len ≠ 0) cookie : ServerM _)
      (fun out s' =>
        (out.retval ≠ 0 ∧ cookie = none ∧ s' = ⟨s.data, .opendir lpath none :: s.log⟩) ∨
        ∃ dir O N, Source lpath cookie dir O ∧ Got lpath len dir out N ∧
          s' = ⟨s.data, N ++ (O ++ s.log)⟩) E s := by
  unfold filesystemListDirPerLine
  rw [if_pos ⟨hllen, by decide⟩]
  refine wp_seq (R := fun d s' => (d = none ∧ cookie = none ∧
    s' = ⟨s.data, .opendir lpath none :: s.log⟩) ∨
    ∃ dir O, d = some dir ∧ Source lpath cookie dir O ∧ s' = ⟨s.data, O ++ s.log⟩) ?_ ?_
  · -- a stream in the cookie is used, and none is opened
    cases cookie with
    | some dir => exact Or.inr ⟨dir, [], rfl, .parked, rfl⟩
    | none =>
      refine (wp_call _ _).mpr ?_
      cases os.opendir s.log lpath with
      | none => exact Or.inl ⟨rfl, rfl, rfl⟩
      | some dir => exact Or.inr ⟨dir, _, rfl, .opened, rfl⟩
  rintro _ _ (⟨rfl, rfl, rfl⟩ | ⟨dir, O, rfl, hO, rfl⟩)
  · exact Or.inl ⟨by simp, rfl, rfl⟩
  · refine (wp_bind _ _).mpr ((wp_bind _ _).mpr ((wp_emit _).mpr ((wp_pure _).mpr ?_)))
    cases hent : dir.entries with
    | nil =>
      exact Or.inr ⟨dir, O, _, hO, .ended hent rfl rfl, rfl⟩
    | cons name rest =>
      refine wp_ite (fun hfit => ?_) (fun hfit => ?_)
      · exact Or.inr ⟨dir, O, _, hO,
        .printed hent rfl rfl fun l => holdsLine_snprintf rfl hfit, rfl⟩
      · refine Or.inr ⟨dir, O, _, hO, .oversized ?_ (by simp), rfl⟩
        rintro rfl rfl
        exact hfit (by simp)

/-- What becomes of a stream in an iteration, from its status and the cookie behind it: either the
loop is over, or a line was sent and the stream is parked again. -/
inductive Takes (len : ℕ) (dir : Dir) : Int → Option Dir → List Event → Prop
  | done {r : Int} {d : Option Dir} {N : List Event} (h : r ≠ 0 ∨ d = none)
      (hN : Walked len dir.id N) : Takes len dir r d N
  | sent {name bytes : List Byte} {rest : List (List Byte)} {fd w : Int}
      (hent : dir.entries = name :: rest) (hw : w ≠ -1) (hname : len = 0 → name ≠ []) :
      Takes len dir 0 (some ⟨dir.id, rest⟩) (lineSent dir.id name fd bytes w)

/-- The end of the directory, and the line that follows. -/
theorem Walked.ended {W : List Event} (hW : W = [] ∨ ∃ fd bytes w,
    W = [.write .transferClient fd bytes w]) :
    Walked len id (W ++ [.closedir id, .readdir id none]) := by
  constructor
  · rcases hW with rfl | ⟨fd, bytes, w, rfl⟩ <;> simp
  · exact Or.inl ⟨W, [.readdir id none], rfl, hW.imp_right fun h => ⟨by simp, h⟩, by simp,
      by simp [SendsLines]⟩

/-- An entry that does not fit. -/
theorem Walked.oversized (hname : len = 0 → name ≠ []) :
    Walked len id [.closedir id, .readdir id (some name)] :=
  ⟨by simp, Or.inl ⟨[], [.readdir id (some name)], rfl, Or.inl rfl, by simp, by simp,
    fun h0 => by simpa using hname h0⟩⟩

/-- An entry without a name, of which no line is made. -/
theorem Walked.unnamed (hlen : len = 0) : Walked len id [.readdir id (some [])] :=
  ⟨by simp, Or.inr ⟨by simp, by simp, fun h => h.2 hlen id (by simp)⟩⟩

/-- A line that `write` does not accept. -/
theorem Walked.unsent {fd : Int} {bytes : List Byte} :
    Walked len id (VsFtp.lineSent id name fd bytes (-1)) :=
  ⟨by simp [VsFtp.lineSent], Or.inr ⟨by simp [VsFtp.lineSent], by simp [VsFtp.lineSent],
    fun h => h.1 fd bytes (by simp [VsFtp.lineSent])⟩⟩

/-- **One iteration**, on the stream it has or opens. -/
theorem wp_nlstBody_takes {l : Listing} {llen : ℕ} (hllen : 0 < llen)
    (hpath : Requested s.data.rootPath lpath len) (hroot : s.data.rootPath.length < pathLenMax) :
    wp os (nlstBody lpath llen len l) (fun out s' =>
      (out.1 ≠ 0 ∧ l.d = none ∧ s' = ⟨s.data, .opendir lpath none :: s.log⟩) ∨
      ∃ dir O N, Source lpath l.d dir O ∧ Takes len dir out.1 out.2.d N ∧
        s' = ⟨s.data, N ++ (O ++ s.log)⟩) E s := by
  rw [nlstBody_eq]
  refine wp_seq (wp_filesystemListDirPerLine_got hllen) ?_
  rintro out _ (⟨hne, hd, rfl⟩ | ⟨dir, O, N, hO, hgot, rfl⟩)
  · rw [if_pos hne]
    exact Or.inl ⟨hne, hd, rfl⟩
  · cases hgot with
    | ended hent h0 hd =>
      -- the iterator has closed the stream, and what the buffer holds is sent once more
      rw [if_neg (not_not.mpr h0)]
      refine wp_mono wp_nlstSend_any ?_ fun _ h => h
      rintro out' _ ⟨hd', W, hW, rfl⟩
      refine Or.inr ⟨dir, O, _, hO, .done (Or.inr (hd'.trans hd)) (.ended (W := W) ?_), by simp⟩
      exact hW.imp_right fun ⟨bytes, w, hW⟩ => ⟨_, bytes, w, hW⟩
    | oversized hname hne =>
      rw [if_pos hne]
      exact Or.inr ⟨dir, O, _, hO, .done (Or.inl hne) (.oversized hname), rfl⟩
    | @printed name rest hent h0 hd hheld =>
      rw [if_neg (not_not.mpr h0)]
      refine wp_mono (wp_nlstSend_entry hpath hroot (hheld l)) ?_ fun _ h => h
      rintro out' _ ⟨hd', ⟨⟨hlen, rfl⟩, hne, rfl⟩ | ⟨hname, bytes, w, hw, rfl⟩⟩
      · -- nothing is written, and the stream stays open
        exact Or.inr ⟨dir, O, _, hO, .done (Or.inl hne) (.unnamed hlen), rfl⟩
      · by_cases hw1 : w = -1
        · -- the line is not accepted, and the stream stays open
          have hne : out'.1 ≠ 0 := by
            rw [hw, hw1]
            decide
          subst hw1
          exact Or.inr ⟨dir, O, _, hO, .done (Or.inl hne) .unsent, rfl⟩
        · have hout : out'.1 = 0 := hw.trans (if_neg hw1)
          rw [hout, hd'.trans hd]
          exact Or.inr ⟨dir, O, _, hO, .sent hent hw1 hname, rfl⟩

/-! ### The loop -/

/-- Without a stream the loop is over. -/
theorem nlstWhile_of_none {llen fuel : ℕ} {l : Listing} (h : l.d = none) :
    nlstWhile lpath llen len fuel l = pure 0 := by
  unfold nlstWhile
  exact if_pos h

/-- **The iterations on an open stream**, by induction on the names that are left in it. -/
theorem wp_nlstWhile_walked {llen : ℕ} (hllen : 0 < llen) : ∀ {fuel : ℕ} {l : Listing} {dir : Dir}
    {s : St}, l.d = some dir → dir.entries.length < fuel → Requested s.data.rootPath lpath len →
    s.data.rootPath.length < pathLenMax →
    wp os (nlstWhile lpath llen len fuel l) (fun _ s' => ∃ N, Walked len dir.id N ∧
      s' = ⟨s.data, N ++ s.log⟩) E s := by
  intro fuel
  induction fuel with
  | zero =>
    intro l dir s _ hfuel
    exact absurd hfuel (Nat.not_lt_zero _)
  | succ fuel ih =>
    intro l dir s hd hfuel hpath hroot
    unfold nlstWhile
    rw [if_neg (by simp [hd])]
    refine wp_seq (wp_nlstBody_takes hllen hpath hroot) ?_
    rintro ⟨r, l'⟩ _ (⟨-, hd', -⟩ | ⟨dir', O, N, hO, htakes, rfl⟩)
    · exact absurd (hd.symm.trans hd') (by simp)
    · rw [hd] at hO
      cases hO
      generalize hnext : l'.d = next at htakes
      cases htakes with
      | done h hN =>
        refine wp_ite (fun _ => ⟨N, hN, rfl⟩) (fun h0 => ?_)
        rw [nlstWhile_of_none (hnext.trans (h.resolve_left h0))]
        exact ⟨N, hN, rfl⟩
      | @sent name bytes rest fd w hent hw hname =>
        refine wp_ite (fun h => absurd rfl h) (fun _ => ?_)
        -- the stream has one name less
        have hlen : rest.length < fuel := by
          rw [hent, List.length_cons] at hfuel
          omega
        refine wp_mono (ih hnext hlen hpath hroot) ?_ fun _ h => h
        rintro _ _ ⟨M, hM, rfl⟩
        exact ⟨M ++ lineSent dir.id name fd bytes w, hM.lineSent hw hname, by simp⟩

/-- The records of the loop of `CommandHandlerNlst`. -/
inductive Streamed (lpath : List Byte) (len : ℕ) : List Event → Prop
  | unopened {D : List Event} (hD : D = [] ∨ D = [.opendir lpath none]) : Streamed lpath len D
  | opened {dir : Dir} {N : List Event} (hN : Walked len dir.id N) :
      Streamed lpath len (N ++ [.opendir lpath (some dir)])

/-- **The loop** opens at most one stream and walks over it. -/
theorem wp_nlstLoop_streams {llen : ℕ} (hpath : Requested s.data.rootPath lpath len)
    (hroot : s.data.rootPath.length < pathLenMax) :
    wp os (nlstLoop lpath llen len) (fun _ s' => ∃ D, Streamed lpath len D ∧
      s' = ⟨s.data, D ++ s.log⟩) E s := by
  unfold nlstLoop
  by_cases hllen : 0 < llen
  · refine wp_seq (wp_nlstBody_takes hllen hpath hroot) ?_
    rintro ⟨r, l⟩ _ (⟨hne, -, rfl⟩ | ⟨dir, O, N, hO, htakes, rfl⟩)
    · refine wp_ite (fun _ => ?_) (fun h0 => absurd hne h0)
      exact ⟨_, .unopened (Or.inr rfl), rfl⟩
    · cases hO
      generalize hnext : l.d = next at htakes
      cases htakes with
      | done h hN =>
        refine wp_ite (fun _ => ⟨_, .opened hN, by simp⟩) (fun h0 => ?_)
        rw [nlstWhile_of_none (hnext.trans (h.resolve_left h0))]
        exact ⟨_, .opened hN, by simp⟩
      | @sent name bytes rest fd w hent hw hname =>
        refine wp_ite (fun h => absurd rfl h) (fun _ => ?_)
        refine wp_mono (wp_nlstWhile_walked hllen hnext (by simp [hnext]) hpath hroot)
          ?_ fun _ h => h
        rintro _ _ ⟨M, hM, rfl⟩
        exact ⟨M ++ lineSent dir.id name fd bytes w ++ [.opendir lpath (some dir)],
          @Streamed.opened lpath len dir _ (hM.lineSent hw hname), by simp⟩
  · -- the path is empty, and the iterator refuses it
    unfold nlstBody filesystemListDirPerLine
    rw [if_neg fun h => hllen h.1]
    exact ⟨[], .unopened (Or.inl rfl), rfl⟩

/-! ### The handler -/

/-- A record of the loop of `CommandHandlerNlst`. -/
def Event.listing : Event → Bool
  | .write .transferClient _ _ _ => true
  | .opendir _ _ => true
  | .readdir _ _ => true
  | .closedir _ => true
  | _ => false

/-- None of the records is of the loop. -/
def Idle (N : List Event) : Prop := ∀ e ∈ N, e.listing = false

theorem Idle.append (h : Idle N) (h' : Idle M) : Idle (N ++ M) :=
  fun e he => (List.mem_append.mp he).elim (h e) (h' e)

theorem Idle.of_kind {ks : List Kind} (h : OfKind ks N) (hw : .write ∉ ks) (hd : .dir ∉ ks) :
    Idle N := by
  intro e he
  have hkind := h e he
  cases e <;> first | rfl | exact absurd hkind hw | exact absurd hkind hd

theorem Announces.idle {c r : Int} {P : List Event} (h : Announces c r P) : Idle P := by
  cases h <;> simp [Idle, Event.listing]

theorem Idle.notMem {e : Event} (h : Idle N) (he : e.listing = true) : e ∉ N :=
  fun hmem => absurd ((h e hmem).symm.trans he) (by decide)

theorem Idle.sendsLines (h : Idle N) : SendsLines len N :=
  ⟨fun _ _ => h.notMem rfl, fun _ _ => h.notMem rfl⟩

/-- When all lines were sent, none has failed. -/
theorem SendsLines.not_lineFails (h : SendsLines len M) : ¬ LineFails len M := by
  rintro (⟨newer, fd, bytes, older, rfl, -⟩ | ⟨h0, d, hmem⟩)
  · exact h.1 fd bytes (by simp)
  · exact h.2 h0 d hmem

/-- When the end of the directory was not reached and not all lines were sent, one has failed. -/
theorem lineFails_of_not_sendsLines (h : ¬ SendsLines len M) (hend : ∀ d, .readdir d none ∉ M) :
    LineFails len M := by
  by_contra hno
  refine h ⟨fun fd bytes hmem => hno (Or.inl ?_), fun h0 d hmem => hno (Or.inr ⟨h0, d, hmem⟩)⟩
  obtain ⟨newer, older, rfl⟩ := List.append_of_mem hmem
  exact ⟨newer, fd, bytes, older, rfl, fun d hd => hend d (by simp [hd])⟩

/-- The line that follows the end of the directory does not count. -/
theorem not_lineFails_of_ended {fd w : Int} {bytes : List Byte} {d : ℕ} (hA : Idle A)
    (hN : SendsLines len N) (hend : .readdir d none ∈ N) :
    ¬ LineFails len (A ++ [.write .transferClient fd bytes w] ++ .closedir id :: N) := by
  rintro (⟨newer, fd', bytes', older, heq, hopen⟩ | ⟨h0, d', hmem⟩)
  · rw [List.append_assoc, List.singleton_append] at heq
    have hnot : .write .transferClient fd' bytes' (-1) ∉ .closedir id :: N := by
      simpa using hN.1 fd' bytes'
    obtain ⟨-, -, rfl⟩ := (List.append_cons_inj_of_notMem (hA.notMem rfl) hnot).mp heq
    exact hopen d (by simp [hend])
  · have hmem' : .readdir d' (some []) ∈ A ∨ .readdir d' (some []) ∈ N := by simpa using hmem
    exact hmem'.elim (hA.notMem rfl) (hN.2 h0 d')

/-- The stream is the only one that is opened, so all depends on what follows. -/
theorem releasesStreams_iff {p : List Byte} {dir : Dir} (hN : ∀ p d, .opendir p d ∉ N)
    (hB : Idle B) : ReleasesStreams (N ++ .opendir p (some dir) :: B) ↔ Released dir.id N := by
  constructor
  · exact fun h => h N p dir B rfl
  · intro h newer p' d older heq
    obtain ⟨rfl, hd, -⟩ :=
      (List.append_cons_inj_of_notMem (hN p' (some d)) (hB.notMem rfl)).mp heq
    obtain ⟨-, hd⟩ := Event.opendir.inj hd
    obtain rfl := Option.some.inj hd
    exact h

/-- **The loop releases its stream if and only if no line fails while it is open.** -/
theorem Streamed.releases_iff (hD : Streamed lpath len D) (hA : Idle A) (hB : Idle B) :
    ReleasesStreams (A ++ (D ++ B)) ↔ ¬ LineFails len (A ++ (D ++ B)) := by
  cases hD with
  | unopened hD =>
    -- nothing is opened, and nothing was sent
    have hsent : SendsLines len (A ++ (D ++ B)) := by
      refine hA.sendsLines.append (.append ?_ hB.sendsLines)
      rcases hD with rfl | rfl <;> simp [SendsLines]
    refine iff_of_true (fun newer p d older heq => ?_) hsent.not_lineFails
    have hmem : .opendir p (some d) ∈ A ++ (D ++ B) := heq ▸ by simp
    rw [List.mem_append, or_iff_right (hA.notMem rfl), List.mem_append,
      or_iff_left (hB.notMem rfl)] at hmem
    rcases hD with rfl | rfl <;> simp at hmem
  | @opened dir N hN =>
    have hsplit : A ++ (N ++ [.opendir lpath (some dir)] ++ B)
        = (A ++ N) ++ .opendir lpath (some dir) :: B := by simp
    have hopen : ∀ p d, .opendir p d ∉ A ++ N := fun p d hmem =>
      (List.mem_append.mp hmem).elim (hA.notMem rfl) (hN.unopened p d)
    rw [hsplit, releasesStreams_iff hopen hB]
    rcases hN.outcome with ⟨W, before, rfl, hW, hclose, hsent⟩ | ⟨hclose, hend, hfail⟩
    · -- the stream was closed, and only the line `W` was sent behind that
      refine iff_of_true ⟨A ++ W, before, by simp, fun e he huse => ?_, hclose⟩ ?_
      · rcases List.mem_append.mp he with he | he
        · have hidle := hA e he
          cases e <;> first | exact huse | exact absurd hidle (by simp [Event.listing])
        · rcases hW with rfl | ⟨-, fd, bytes, w, rfl⟩
          · simp at he
          · obtain rfl := List.mem_singleton.mp he
            exact huse
      · have hsent' : SendsLines len (before ++ .opendir lpath (some dir) :: B) :=
          hsent.append (.append (N := [_]) (by simp [SendsLines]) hB.sendsLines)
        rcases hW with rfl | ⟨hend, fd, bytes, w, rfl⟩
        · have hall := hA.sendsLines.append
            (SendsLines.append (N := [.closedir dir.id]) (by simp [SendsLines]) hsent')
          exact SendsLines.not_lineFails (by simpa using hall)
        · simpa using not_lineFails_of_ended hA hsent' (List.mem_append_left _ hend)
    · -- a line failed, and nothing behind it closes the stream
      have hend' : ∀ d, .readdir d none ∉ A ++ N ++ .opendir lpath (some dir) :: B := by
        intro d hmem
        have hor : .readdir d none ∈ A ∨ .readdir d none ∈ N ∨ .readdir d none ∈ B := by
          simpa using hmem
        exact hor.elim (hA.notMem rfl) fun h => h.elim (hend d) (hB.notMem rfl)
      refine iff_of_false ?_ (not_not.mpr (lineFails_of_not_sendsLines (fun h => hfail ?_) hend'))
      · rintro ⟨after, before, heq, -, -⟩
        have hmem : .closedir dir.id ∈ A ++ N := heq ▸ by simp
        exact (List.mem_append.mp hmem).elim (hA.notMem rfl) hclose
      · exact h.mono fun e he => by simp [he]

/-- The transfer of `NLST` in terms of its stream. -/
def streaming (len : ℕ) (lpath : List Byte) : Int → Log → Int → List Event → Prop :=
  fun _ _ _ D => Streamed lpath len D

theorem Transferring.streamed {d : ServerData} {a r0 r x : Int} {log : Log} {T : List Event}
    (h : Transferring (streaming len lpath) d a log r0 r x T) :
    ∃ D I, T = D ++ I ∧ Streamed lpath len D ∧ Idle I := by
  have haccept : ∀ fd, Idle [.accept .transferClient d.transferSock fd] := fun fd => by
    simp [Idle, Event.listing]
  cases h with
  | skipped => exact ⟨[], [], rfl, .unopened (Or.inl rfl), by simp [Idle]⟩
  | unconnected hA =>
    exact ⟨[], _, rfl, .unopened (Or.inl rfl), .of_kind hA.ofKind (by decide) (by decide)⟩
  | unannounced _ _ hP =>
    exact ⟨[], _, rfl, .unopened (Or.inl rfl), hP.idle.append (haccept _)⟩
  | transferred _ _ hP hD => exact ⟨_, _, rfl, hD, hP.idle.append (haccept _)⟩

/-- `NLST` in terms of its stream. -/
theorem wp_commandHandlerNlst_streams {args : List Byte} (hd : Configured s.data) :
    wp os (commandHandlerNlst args len) (fun retval s' => ∃ r0 lpath L,
      Listable os s args len r0 lpath L ∧
      Transferred os (streaming len lpath) r0 ⟨s.data, L ++ s.log⟩ retval s') (Killed os s) s :=
  wp_commandHandlerNlst_loop (streaming len) fun _ hL _ _ =>
    wp_nlstLoop_streams (hL.isRequested hd) hd.length_lt

/-- **`NLST` releases its stream if and only if no line fails while it is open**: for all outcomes
of `opendir`, `readdir` and the writes, between the call of the handler and its completion reply
each stream that is opened is closed exactly once and not used afterwards, unless a `write` on the
data connection has failed before the end of the directory, or an entry without a name was to be
sent. -/
theorem nlst_releases_iff (h : Reachable os argv s) {args : List Byte} {s1 : St}
    (hcall : Called os s .nlst args len s1) :
    wp os (commandHandle .nlst args len) (fun _ s2 => ∃ text w M,
      s2.log = .write .client s1.data.clientSock text w :: (M ++ s1.log) ∧
      (ReleasesStreams M ↔ ¬ LineFails len M)) (Killed os s1) s1 := by
  have hd : Configured s1.data := hcall.data ▸ h.sound.configured
  refine wp_mono (wp_commandHandlerNlst_streams hd) ?_ fun _ h => h
  rintro r s2 ⟨r0, lpath, L, hL, htrans⟩
  obtain @⟨retval, x, w, T, X, Y, text, hT, hX, hY, -⟩ := htrans
  obtain ⟨D, I, rfl, hD, hI⟩ := hT.streamed
  have hYX : Idle (Y ++ X) := Idle.append (.of_kind hY.ofKind (by decide) (by decide))
    (.of_kind hX.ofKind (by decide) (by decide))
  have hIL : Idle (I ++ L) := hI.append (.of_kind hL.lookups.ofKind (by decide) (by decide))
  exact ⟨text, w, (Y ++ X) ++ (D ++ (I ++ L)), by simp, hD.releases_iff hYX hIL⟩

/-- A name of no bytes that was read from a directory. -/
def Event.isNameless : Event → Bool
  | .readdir _ (some []) => true
  | _ => false

theorem not_lineFails_of_all {len : ℕ} {M : List Event} (hsent : M.all Event.isComplete = true)
    (hnamed : M.all (!·.isNameless) = true) : ¬ LineFails len M := by
  rintro (⟨newer, fd, bytes, older, rfl, -⟩ | ⟨-, id, hmem⟩)
  · have hlen := complete_of_all hsent (List.mem_append_right newer List.mem_cons_self)
    omega
  · exact absurd (List.all_eq_true.mp hnamed _ hmem) Bool.false_ne_true

/-- A directory with three entries is listed, and its stream is released. -/
theorem nlst_releases_iff_entries : ∃ text w M,
    entriesEnd.log = .write .client entriesCalled.data.clientSock text w ::
      (M ++ entriesCalled.log) ∧
    .opendir (ascii "/srv") (some entriesDir) ∈ M ∧ ReleasesStreams M := by
  obtain ⟨text, w, M, hlog, hiff⟩ := of_wp_run (nlst_releases_iff (Host.reachable_run (n := 3)
    (by decide +kernel)) entries_called) entries_run
  have hrecords : entriesEnd.log.drop 1 = entriesRecords ++ entriesCalled.log := by decide +kernel
  obtain rfl : M = entriesRecords := by
    rw [hlog, List.drop_one, List.tail_cons] at hrecords
    exact List.append_cancel_right hrecords
  exact ⟨text, w, _, hlog, by decide +kernel,
    hiff.mpr (not_lineFails_of_all (by decide +kernel) (by decide +kernel))⟩

/-! ### A client that does not take the lines -/

/-- The machine with a directory of one entry, and a client that resets the data connection before
the line of that. -/
def brokenHost : Host := { listingHost with refuses := fun bytes => bytes = ascii "a" ++ crlf }

/-- The state in which the client asks for the listing of `/srv`. -/
def brokenAsked : St := Host.run brokenHost.os 3 (Host.start brokenHost.os Host.argv)

/-- The state in which `CommandHandlerNlst` is called there. -/
def brokenCalled : St :=
  calledState (lineState brokenAsked (ascii "NLST" ++ crlf)) (lineBuffer (ascii "NLST" ++ crlf)) 4
    (ascii "NLST") .nlst

theorem broken_called : Called brokenHost.os brokenAsked .nlst [] 0 brokenCalled :=
  called_nlst (by decide +kernel) (by decide +kernel) (by decide +kernel)

/-- The state in which the handler has returned. -/
def brokenEnd : St := (commandHandle .nlst [] 0 brokenHost.os brokenCalled).2

/-- What it did before its reply. -/
def brokenRecords : List Event :=
  (brokenEnd.log.drop 1).take 9

/-- **The directory `/srv` is opened and never closed**, because the first line is not accepted. -/
theorem stream_leaked : ∃ s args len s1 r s2 text w M p d, Reachable brokenHost.os Host.argv s ∧
    Called brokenHost.os s .nlst args len s1 ∧
    commandHandle .nlst args len brokenHost.os s1 = (some r, s2) ∧
    s2.log = .write .client s1.data.clientSock text w :: (M ++ s1.log) ∧
    .opendir p (some d) ∈ M ∧ .closedir d.id ∉ M ∧ ¬ ReleasesStreams M := by
  have hopen : .opendir (ascii "/srv") (some ⟨0, [[97]]⟩) ∈ brokenRecords := by decide +kernel
  have hclose : .closedir 0 ∉ brokenRecords := by decide +kernel
  refine ⟨_, _, _, _, 0, brokenEnd, ascii "550 Permission Denied." ++ crlf, 24, brokenRecords, _, _,
    Host.reachable_run (by decide +kernel), broken_called, Prod.ext (by decide +kernel) rfl,
    by decide +kernel, hopen, hclose, fun h => hclose ?_⟩
  obtain ⟨newer, older, hsplit⟩ := List.append_of_mem hopen
  obtain ⟨after, before, rfl, -, -⟩ := h newer _ _ older hsplit
  rw [hsplit]
  simp

end VsFtp
