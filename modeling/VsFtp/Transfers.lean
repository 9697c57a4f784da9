import VsFtp.Handlers

/-!
# The handlers with a data connection

`NLST` and `RETR` share their frame: accept the transfer client, announce the
transfer, transfer, close both transfer sockets, and send the completion reply.
They differ in how they find what to transfer and in the loop that transfers it.

## Main definitions

* `Copies`, `Sends` — the outcomes of the loop of `VSFTPServerSendfileTransfer` and
  of the function.
* `Event.lists`, `Listable` — the records of the loop of `CommandHandlerNlst`, and what
  it lists.
* `Transferring`, `Transferred` — the outcomes of the shared frame.

## Main results

* `wp_sendfileLoop`, `wp_nlstLoop` — the loops end, and what they did.
* `wp_commandHandlerNlst`, `wp_commandHandlerRetr` — the specifications.
-/

namespace VsFtp

open CString Prog

attribute [local irreducible] serverSendReply

variable {os : Os} {s : St} {E : St → Prop}

/-! ### Sending a file -/

theorem wp_sendOwnSock {who : Slot} {sock : Int} {buf : List Byte} {send : ℕ} :
    wp os (sendOwnSock who sock buf send) (fun out s' => ∃ w : Int,
      (w = -1 ∧ out = (-1, send) ∨ ∃ k : ℕ, w = k ∧ k ≤ buf.length ∧ out = (0, k)) ∧
        s' = ⟨s.data, .write who sock buf w :: s.log⟩) E s := by
  unfold sendOwnSock
  refine (wp_bind _ _).mpr ((wp_call _ _).mpr (wp_ite (fun hne => ?_) (fun heq => ?_)))
  · obtain ⟨hlow, hhigh⟩ := os.write_le s.log sock buf
    refine ⟨_, Or.inr ⟨(os.write s.log sock buf).toNat, ?_, ?_, rfl⟩, rfl⟩ <;> omega
  · exact ⟨_, Or.inl ⟨not_not.mp heq, rfl⟩, rfl⟩

/-- What the loop of `VSFTPServerSendfileTransfer` does on the file `fd` and the data
connection `x`: from the bytes still to be sent to the status and the records,
newest first. -/
inductive Copies (x fd : Int) : ℕ → Int → List Event → Prop
  | done : Copies x fd 0 0 []
  | unread {count n : ℕ} (hc : 0 < count) : Copies x fd count (-1) [.readFile fd n none]
  | ended {count n : ℕ} (hc : 0 < count) : Copies x fd count 0 [.readFile fd n (some [])]
  | refused {count n : ℕ} {bytes : List Byte} {w : Int} (hc : 0 < count) (hb : bytes ≠ [])
      (hw : w = -1 ∨ w = 0) :
      Copies x fd count (-1) [.write .transferClient x bytes w, .readFile fd n (some bytes)]
  | accepted {count n k : ℕ} {bytes : List Byte} {retval : Int} {D : List Event} (hk : 0 < k)
      (hkb : k ≤ bytes.length) (hb : bytes.length ≤ count)
      (h : Copies x fd (count - k) retval D) :
      Copies x fd count retval
        (D ++ [.write .transferClient x bytes k, .readFile fd n (some bytes)])

/-- **The loop ends**, since every round that goes on has sent something. -/
theorem wp_sendfileLoop {fd : Int} : ∀ {fuel count numSent : ℕ} {s : St}, count ≤ fuel →
    count < 2 ^ 64 →
    wp os (sendfileLoop fd fuel count numSent 0) (fun retval s' => ∃ D,
      Copies s.data.transferClientSock fd count retval D ∧ s' = ⟨s.data, D ++ s.log⟩) E s := by
  intro fuel
  induction fuel with
  | zero =>
    intro count numSent s hfuel _
    obtain rfl : count = 0 := by omega
    exact ⟨[], .done, rfl⟩
  | succ fuel ih =>
    intro count numSent s hfuel hcount
    unfold sendfileLoop
    refine wp_ite (fun hc => ?_) (fun hc => ?_)
    · simp only []
      generalize hto : (if count < fileReadBufSize then count else fileReadBufSize) = toRead
      have htoc : toRead ≤ count := by
        subst hto
        split <;> omega
      refine (wp_bind _ _).mpr ((wp_call _ _).mpr ?_)
      cases hread : os.readFile s.log fd toRead with
      | none => exact ⟨_, .unread hc, rfl⟩
      | some bytes =>
        cases bytes with
        | nil => exact ⟨_, .ended hc, rfl⟩
        | cons b fileBuf =>
          have hlen := os.readFile_length_le hread
          refine (wp_bind _ _).mpr (wp_getData.mpr (wp_seq wp_sendOwnSock ?_))
          rintro _ _ ⟨w, ⟨rfl, rfl⟩ | ⟨k, rfl, hkb, rfl⟩, rfl⟩
          · exact ⟨_, .refused hc (by simp) (Or.inl rfl), rfl⟩
          · refine wp_ite (fun h => absurd h (by simp)) (fun _ => ?_)
            refine wp_ite (fun h0 => ?_) (fun h0 => ?_)
            · exact ⟨_, .refused hc (by simp) (Or.inr (congrArg Nat.cast h0)), rfl⟩
            · -- the next round starts on what is left
              have hk : 0 < k := Nat.pos_of_ne_zero h0
              have hsub : sizeSub count k = count - k := sizeSub_of_le (by omega) hcount
              simp only [hsub]
              refine wp_mono (ih (by omega) (by omega)) ?_ fun _ h => h
              rintro retval _ ⟨D, hD, rfl⟩
              refine ⟨D ++ [_, .readFile fd toRead (some (b :: fileBuf))],
                .accepted hk hkb (hlen.trans htoc) hD, ?_⟩
              rw [List.append_assoc]
              rfl
    · obtain rfl : count = 0 := by omega
      exact ⟨[], .done, rfl⟩

theorem Copies.mem {x fd : Int} {count : ℕ} {retval : Int} {D : List Event}
    (h : Copies x fd count retval D) : ∀ e ∈ D,
      (∃ n r, e = .readFile fd n r) ∨ ∃ bytes w, e = .write .transferClient x bytes w := by
  induction h with
  | done => simp
  | unread => simp
  | ended => simp
  | refused => simp
  | accepted _ _ _ _ ih =>
    intro e he
    rcases List.mem_append.mp he with he | he
    · exact ih e he
    · rcases List.mem_pair.mp he with rfl | rfl
      · exact Or.inr ⟨_, _, rfl⟩
      · exact Or.inl ⟨_, _, rfl⟩

/-- What `VSFTPServerSendfileTransfer` does from the given log on: the file is
opened, sent on the data connection `x`, and closed. -/
inductive Sends (log : Log) (x : Int) (path : List Byte) : Int → List Event → Prop
  | inaccessible {a q : Int} (ha : a ≠ 0) : Sends log x path a [.closeFile (-1) q, .access path a]
  | unopened {q : Int} :
      Sends log x path (-1) [.closeFile (-1) q, .openFile path (-1), .access path 0]
  | unknown {fd q : Int} (hfd : fd ∉ held log) :
      Sends log x path (-1) [.closeFile fd q, .fstat fd none, .openFile path fd, .access path 0]
  | sent {fd q retval : Int} {st : Stat} {D : List Event} (hfd : fd ∉ held log)
      (hD : Copies x fd st.size retval D) :
      Sends log x path retval
        (.closeFile fd q :: (D ++ [.fstat fd (some st), .openFile path fd, .access path 0]))

theorem wp_serverSendfileTransfer {path : List Byte} {len : ℕ} (hlen : 0 < len) :
    wp os (serverSendfileTransfer path len) (fun retval s' => ∃ D,
      Sends s.log s.data.transferClientSock path retval D ∧ s' = ⟨s.data, D ++ s.log⟩) E s := by
  unfold serverSendfileTransfer filesystemOpenFile filesystemCloseFile
  rw [if_pos hlen]
  refine (wp_bind _ _).mpr ((wp_bind _ _).mpr ((wp_call _ _).mpr ?_))
  generalize ha : os.access _ _ = a
  refine wp_ite (fun h0 => ?_) (fun hne => ?_)
  · subst h0
    refine (wp_bind _ _).mpr ((wp_call _ _).mpr ?_)
    have hfresh := os.openFile_fresh (.access path 0 :: s.log) path
    generalize hfd : os.openFile _ _ = fd
    simp only [hfd] at hfresh
    refine wp_ite (fun hfd1 => ?_) (fun hfd1 => ?_)
    · subst hfd1
      exact ⟨_, .unopened, rfl⟩
    · -- a file is never opened under the number of a socket that is held
      have hfree : fd ∉ held s.log := by
        intro hheld
        rcases hfresh with h | ⟨-, h⟩
        · exact hfd1 h
        · exact h (held_subset_openFds
          (mem_held_cons.mpr (Or.inr ⟨hheld, by simp [Event.released]⟩)))
      refine (wp_bind _ _).mpr ((wp_call _ _).mpr ?_)
      cases hst : os.fstat _ _ with
      | none => exact ⟨_, .unknown hfree, rfl⟩
      | some st =>
        refine (wp_pure _).mpr ((wp_bind _ _).mpr ?_)
        refine wp_mono (wp_sendfileLoop le_rfl st.size_lt) ?_ fun _ h => h
        rintro retval _ ⟨D, hD, rfl⟩
        exact ⟨_, .sent hfree hD, congrArg (fun l => (⟨_, _ :: l⟩ : St)) (by simp)⟩
  · refine (wp_pure _).mpr ?_
    rw [onOk_of_ne hne]
    exact ⟨_, .inaccessible hne, rfl⟩

/-- The records of sending a file. -/
def Event.sends (path : List Byte) (x : Int) : Event → Prop
  | .access p _ => p = path
  | .openFile p _ => p = path
  | .fstat _ _ => True
  | .readFile _ _ _ => True
  | .closeFile _ _ => True
  | .write who fd _ _ => who = .transferClient ∧ fd = x
  | _ => False

theorem Sends.mem {log : Log} {x : Int} {path : List Byte} {retval : Int} {D : List Event}
    (h : Sends log x path retval D) : ∀ e ∈ D, e.sends path x := by
  cases h with
  | inaccessible => simp [Event.sends]
  | unopened => simp [Event.sends]
  | unknown => simp [Event.sends]
  | sent _ hD =>
    intro e he
    simp only [List.mem_cons, List.mem_append, List.not_mem_nil, or_false] at he
    rcases he with rfl | he | rfl | rfl | rfl
    · trivial
    · rcases hD.mem e he with ⟨_, _, rfl⟩ | ⟨_, _, rfl⟩
      · trivial
      · exact ⟨rfl, rfl⟩
    · trivial
    · rfl
    · rfl

theorem Sends.sparing {log : Log} {x : Int} {path : List Byte} {retval : Int} {D : List Event}
    (h : Sends log x path retval D) : Sparing log D := by
  have hneg : (-1 : Int) ∉ held log := fun h => absurd (nonneg_of_mem_held h) (by decide)
  cases h with
  | inaccessible => simpa [Sparing, Event.obtained, Event.released] using hneg
  | unopened => simpa [Sparing, Event.obtained, Event.released] using hneg
  | unknown hfd => simpa [Sparing, Event.obtained, Event.released] using hfd
  | sent hfd hD =>
    intro e he
    simp only [List.mem_cons, List.mem_append, List.not_mem_nil, or_false] at he
    rcases he with rfl | he | rfl | rfl | rfl
    · exact ⟨rfl, by simpa [Event.released] using hfd⟩
    · rcases hD.mem e he with ⟨_, _, rfl⟩ | ⟨_, _, rfl⟩ <;> exact ⟨rfl, by simp [Event.released]⟩
    all_goals exact ⟨rfl, by simp [Event.released]⟩

/-! ### Listing a directory -/

/-- The records of listing a directory on the data connection `x`. -/
def Event.lists (path : List Byte) (x : Int) : Event → Prop
  | .opendir p _ => p = path
  | .readdir _ _ => True
  | .closedir _ => True
  | .write who fd _ _ => who = .transferClient ∧ fd = x
  | _ => False

/-- How far a stream has to get behind the given one: a stream that goes on has
yielded a name. -/
def Behind (cookie : Option Dir) (d' : Dir) : Prop :=
  ∀ d, cookie = some d → d'.entries.length < d.entries.length

theorem wp_filesystemListDirPerLine {path buf : List Byte} {pathLen bufLen : ℕ}
    {prependDir : Bool} {cookie : Option Dir} (x : Int) :
    wp os
      (filesystemListDirPerLine path pathLen buf pathLenMax bufLen prependDir cookie : ServerM _)
      (fun out s' => (out.retval = 0 → ∀ d', out.cookie = some d' → Behind cookie d') ∧
        ∃ D, (∀ e ∈ D, e.lists path x) ∧ s' = ⟨s.data, D ++ s.log⟩) E s := by
  unfold filesystemListDirPerLine
  refine wp_ite (fun _ => ?_) (fun _ => ⟨fun h => absurd h (by simp), [], by simp, rfl⟩)
  refine wp_seq (R := fun d s' => (∀ d0, cookie = some d0 → d = some d0) ∧
    ∃ D, (∀ e ∈ D, e.lists path x) ∧ s' = ⟨s.data, D ++ s.log⟩) ?_ ?_
  · cases cookie with
    | none => exact ⟨by simp, [_], by simp [Event.lists], rfl⟩
    | some d => exact ⟨fun _ h => h, [], by simp, rfl⟩
  rintro (_ | d) _ ⟨hd, D, hD, rfl⟩
  · exact ⟨fun h => absurd h (by simp), D, hD, rfl⟩
  · refine (wp_bind _ _).mpr ((wp_bind _ _).mpr ((wp_emit _).mpr ((wp_pure _).mpr ?_)))
    have hread : ∀ e ∈ Event.readdir d.id d.entries.head? :: D, e.lists path x :=
      List.forall_mem_cons.mpr ⟨trivial, hD⟩
    have hclose : ∀ i, ∀ e ∈ Event.closedir i :: .readdir d.id d.entries.head? :: D,
        e.lists path x := fun _ => List.forall_mem_cons.mpr ⟨trivial, hread⟩
    cases hent : d.entries with
    | nil => exact ⟨by simp, _, hent ▸ hclose _, rfl⟩
    | cons name rest =>
      refine wp_ite (fun _ => ?_) (fun _ => ?_)
      · refine ⟨?_, _, hent ▸ hread, rfl⟩
        intro _ d' hd' d0 h0
        obtain rfl := Option.some.inj hd'
        obtain rfl := Option.some.inj (hd d0 h0)
        simp [hent]
      · exact ⟨fun h => absurd h (by simp), _, hent ▸ hclose _, rfl⟩

/-- The listing behaves the same with any line buffer, so only the stream of the
variables matters. -/
theorem wp_nlstBody {lpath : List Byte} {llen len : ℕ} {l : Listing} :
    wp os (nlstBody lpath llen len l) (fun out s' =>
      (out.1 = 0 → ∀ d', out.2.d = some d' → Behind l.d d') ∧
        ∃ D, (∀ e ∈ D, e.lists lpath s.data.transferClientSock) ∧ s' = ⟨s.data, D ++ s.log⟩)
      E s := by
  -- sending a line, behind the records of getting it
  have hsend : ∀ {D : List Event} {buf : List Byte} {n : ℕ},
      (∀ e ∈ D, e.lists lpath s.data.transferClientSock) →
      wp os (serverSendReplyOwnBufTransfer buf pathLenMax n)
        (fun _ s' => ∃ D, (∀ e ∈ D, e.lists lpath s.data.transferClientSock) ∧
          s' = ⟨s.data, D ++ s.log⟩) E ⟨s.data, D ++ s.log⟩ := by
    intro D buf n hD
    by_cases hn : 0 < n
    · refine wp_mono (wp_sendReplyOwnBuf ⟨by decide, hn⟩) ?_ fun _ h => h
      rintro _ _ ⟨bytes, r, -, -, rfl⟩
      refine ⟨.write .transferClient s.data.transferClientSock bytes r :: D, ?_, rfl⟩
      simpa [Event.lists] using hD
    · unfold serverSendReplyOwnBufTransfer sendReplyOwnBuf
      rw [if_neg (fun h => hn h.2)]
      exact ⟨D, hD, rfl⟩
  unfold nlstBody
  refine wp_seq (wp_filesystemListDirPerLine s.data.transferClientSock) ?_
  rintro out _ ⟨hbehind, D, hD, rfl⟩
  refine wp_ite (fun hne => ⟨fun h => absurd h hne, D, hD, rfl⟩) (fun h0 => ?_)
  have hgo := hbehind (not_not.mp h0)
  refine wp_ite (fun _ => ?_) (fun _ => ?_)
  · refine wp_seq wp_serverRealPathToServerPath_unchanged ?_
    rintro path _ rfl
    refine wp_ite (fun _ => ?_) (fun hne => ⟨fun h => absurd h hne, D, hD, rfl⟩)
    refine wp_seq (hsend hD) ?_
    rintro ⟨retval, serverPath⟩ _ hD'
    exact ⟨fun _ => hgo, hD'⟩
  · refine wp_seq (hsend hD) ?_
    rintro ⟨retval, buf⟩ _ hD'
    exact ⟨fun _ => hgo, hD'⟩

/-- **The listing ends**, since every round that goes on has taken a name from the
stream. -/
theorem wp_nlstWhile {lpath : List Byte} {llen len : ℕ} : ∀ {fuel : ℕ} {l : Listing} {s : St},
    (∀ d, l.d = some d → d.entries.length < fuel) →
    wp os (nlstWhile lpath llen len fuel l) (fun _ s' => ∃ D,
      (∀ e ∈ D, e.lists lpath s.data.transferClientSock) ∧ s' = ⟨s.data, D ++ s.log⟩) E s := by
  intro fuel
  induction fuel with
  | zero =>
    intro l s hfuel
    unfold nlstWhile
    refine wp_ite (fun _ => ⟨[], by simp, rfl⟩) (fun hd => ?_)
    obtain ⟨d, hd⟩ := Option.ne_none_iff_exists'.mp hd
    exact absurd (hfuel d hd) (Nat.not_lt_zero _)
  | succ fuel ih =>
    intro l s hfuel
    unfold nlstWhile
    refine wp_ite (fun _ => ⟨[], by simp, rfl⟩) (fun hd => ?_)
    obtain ⟨d, hd⟩ := Option.ne_none_iff_exists'.mp hd
    refine wp_seq wp_nlstBody ?_
    rintro ⟨retval, l'⟩ _ ⟨hbehind, D, hD, rfl⟩
    refine wp_ite (fun _ => ⟨D, hD, rfl⟩) (fun h0 => ?_)
    refine wp_mono (ih fun d' hd' => ?_) ?_ fun _ h => h
    · have hlt := hbehind (not_not.mp h0) d' hd' d hd
      have := hfuel d hd
      omega
    · rintro _ _ ⟨D', hD', rfl⟩
      refine ⟨D' ++ D, fun e he => ?_, by simp⟩
      rcases List.mem_append.mp he with he | he
      · exact hD' e he
      · exact hD e he

theorem wp_nlstLoop {lpath : List Byte} {llen len : ℕ} :
    wp os (nlstLoop lpath llen len) (fun _ s' => ∃ D,
      (∀ e ∈ D, e.lists lpath s.data.transferClientSock) ∧ s' = ⟨s.data, D ++ s.log⟩) E s := by
  unfold nlstLoop
  refine wp_seq wp_nlstBody ?_
  rintro ⟨retval, l⟩ _ ⟨-, D, hD, rfl⟩
  refine wp_ite (fun _ => ⟨D, hD, rfl⟩) (fun _ => ?_)
  refine wp_mono (wp_nlstWhile fun d hd => ?_) ?_ fun _ h => h
  · simp [hd]
  · rintro _ _ ⟨D', hD', rfl⟩
    refine ⟨D' ++ D, fun e he => ?_, by simp⟩
    rcases List.mem_append.mp he with he | he
    · exact hD' e he
    · exact hD e he

/-- What `NLST` lists: nothing, the working directory as it is printed, or the
directory the argument resolves to, which has passed the root test. -/
inductive Listable (os : Os) (s : St) (args : List Byte) (len : ℕ) :
    Int → List Byte → List Event → Prop
  | failed {retval : Int} {lpath : List Byte} {L : List Event} (h : retval ≠ 0) (hL : Lookups L) :
      Listable os s args len retval lpath L
  | current (hlen : len = 0) : Listable os s args len 0 (cstr (cwdText os s)) []
  | requested {p r : List Byte} {st : Option Stat} (hp : argTarget os s args len = some p)
      (ha : os.realpath s.log p = some r) (hlen : r.length < pathLenMax)
      (hkind : reportedKind os (.realpath p (some r) :: s.log) r = .dir)
      (htest : absPathIsNotAboveRootPath s.data (strncpy [] 0 r pathLenMax) r.length = 0)
      (hfits : CwdFits os s) : Listable os s args len 0 r [.stat r st, .realpath p (some r)]

theorem Listable.lookups {args : List Byte} {len : ℕ} {retval : Int} {lpath : List Byte}
    {L : List Event} (h : Listable os s args len retval lpath L) : Lookups L := by
  cases h with
  | failed _ hL => exact hL
  | current => exact .nil
  | requested => exact .cons rfl (.cons rfl .nil)

theorem wp_nlstPath {args : List Byte} {len : ℕ} :
    wp os (do
      let out ← nlstPath args len
      let lpath ← readString out.buf
      pure (out, lpath))
      (fun out s' => ∃ L, Listable os s args len out.1.retval out.2 L ∧ s' = ⟨s.data, L ++ s.log⟩)
      (Killed os s) s := by
  unfold nlstPath
  refine (wp_bind _ _).mpr (wp_seq (wp_serverGetCwd PrintKills.killed) ?_)
  rintro out s1 ⟨hcwd, rfl⟩
  cases hcwd with
  | failed => exact ⟨[], .failed (by simp) .nil, rfl⟩
  | got hfits =>
    refine wp_ite (fun _ => wp_ite (fun _ => ?_) (fun hlen0 => ?_)) (fun h => absurd rfl h)
    · refine wp_seq wp_readString ?_
      rintro _ s1 ⟨rfl, rfl⟩
      refine wp_seq (wp_serverServerPathToRealPath fun _ => PrintKills.killed) ?_
      rintro out _ ⟨L, hres, rfl⟩
      cases hres with
      | failed hL => exact ⟨L, .failed (by simp) hL, rfl⟩
        -- the argument does not resolve
      | @found p r hp ha hlen =>
        obtain ⟨hr, hn⟩ := os.realpath_canonical ha
        have hdir : wp os (do
              let realPath ← readString (strncpy [] 0 r pathLenMax)
              filesystemIsDir realPath r.length)
            (fun retval s' => ∃ st, (retval = 0 →
                reportedKind os (.realpath p (some r) :: s1.log) r = .dir) ∧
              s' = ⟨s1.data, [.stat r st, .realpath p (some r)] ++ s1.log⟩)
            (Killed os s1) ⟨s1.data, [.realpath p (some r)] ++ s1.log⟩ := by
          refine wp_seq (wp_readString_found hn hlen) ?_
          rintro _ _ ⟨rfl, rfl⟩
          refine wp_mono (wp_filesystemHasKind hr.length_pos) ?_ fun _ h => h
          rintro retval _ ⟨⟨rfl, hkind⟩ | ⟨rfl, -⟩, rfl⟩
          · exact ⟨_, fun _ => hkind, rfl⟩
          · exact ⟨_, fun h => absurd h (by decide), rfl⟩
        rw [onOk_zero]
        refine wp_seq hdir ?_
        rintro retval _ ⟨st, hkind, rfl⟩
        by_cases h0 : retval = 0
        · -- it is a directory, so the root test decides
          subst h0
          refine (wp_bind _ _).mpr ((wp_bind _ _).mpr (wp_getData.mpr ((wp_pure _).mpr ?_)))
          refine ⟨[.stat r st, .realpath p (some r)], ?_, rfl⟩
          have hstr : ∀ t, cstr (strncpy [] 0 r pathLenMax ++ t) = r := cstr_strncpy hn hlen []
          by_cases htest :
            absPathIsNotAboveRootPath s1.data (strncpy [] 0 r pathLenMax) r.length = 0
          · simp only [htest, hstr]
            exact .requested hp ha hlen (hkind rfl) htest hfits
          · exact .failed htest (.cons rfl (.cons rfl .nil))
        · simp only [onOk_of_ne h0]
          exact ⟨_, .failed h0 (.cons rfl (.cons rfl .nil)), rfl⟩
    · -- without an argument the working directory is listed, as it was printed
      refine ⟨[], ?_, rfl⟩
      have hbuf : cstr (cwdText os s1 ++ [0] ++ os.behind s1.log) = cstr (cwdText os s1) := by
        rw [List.append_assoc, List.singleton_append, cstr_append_zero]
      simp only [hbuf]
      exact .current (not_not.mp hlen0)

/-! ### The shared frame -/

/-- The reply that announces a transfer, unless it does not fit. -/
inductive Announces (c : Int) : Int → List Event → Prop
  | refused : Announces c (-1) []
  | sent {text : List Byte} {r : Int} (ht : ascii "150" <+: text) :
      Announces c (status r) [.write .client c text r]

/-- What `NLST` and `RETR` do with the transfer client, where `accept` answers `a`
and `B` describes the transfer: from the status of finding the path to the status,
the transfer client and the records. -/
inductive Transferring (B : Int → Log → Int → List Event → Prop) (d : ServerData) (a : Int)
    (log : Log) : Int → Int → Int → List Event → Prop
  | skipped {r0 : Int} (h : r0 ≠ 0) : Transferring B d a log r0 r0 d.transferClientSock []
  | unconnected {x : Int} {A : List Event}
      (hA : Accepts d.transferSock a d.transferClientSock (-1) x A) :
      Transferring B d a log 0 (-1) x A
  | unannounced {r : Int} {P : List Event} (ht : d.transferSock ≠ -1) (ha : 0 ≤ a)
      (hP : Announces d.clientSock r P) (hr : r ≠ 0) :
      Transferring B d a log 0 r a (P ++ [.accept .transferClient d.transferSock a])
  | transferred {retval : Int} {P D : List Event} (ht : d.transferSock ≠ -1) (ha : 0 ≤ a)
      (hP : Announces d.clientSock 0 P)
      (hD : B a (P ++ .accept .transferClient d.transferSock a :: log) retval D) :
      Transferring B d a log 0 retval a
        (D ++ (P ++ [.accept .transferClient d.transferSock a]))

/-- The outcome of `NLST` and `RETR` from the state in which it is settled, with
status `r0`, what to transfer. -/
inductive Transferred (os : Os) (B : Int → Log → Int → List Event → Prop) (r0 : Int) (s : St) :
    Int → St → Prop
  | mk {retval x w : Int} {T X Y : List Event} {text : List Byte}
      (hT : Transferring B s.data (os.accept s.log s.data.transferSock) s.log r0 retval x T)
      (hX : Closes x X) (hY : Closes s.data.transferSock Y)
      (ht : retval = 0 ∧ ascii "226" <+: text ∨ retval ≠ 0 ∧ ErrorReply text = true) :
      Transferred os B r0 s (status w) ⟨s.data.retired,
        .write .client s.data.clientSock text w :: (Y ++ (X ++ (T ++ s.log)))⟩

/-- What `NLST` and `RETR` share. -/
def transferCommand (r0 : Int) (announce transfer : ServerM Int) (reply : Int → ServerM Int) :
    ServerM Int := do
  let retval ← onOk r0 serverAcceptTransferClientConnection
  let retval ← onOk retval announce
  let retval ← onOk retval transfer
  let _ ← serverCloseTransferClientSocket
  let _ ← serverCloseTransferSocket
  reply retval

theorem wp_transferCommand {r0 : Int} {announce transfer : ServerM Int} {reply : Int → ServerM Int}
    (B : Int → Log → Int → List Event → Prop)
    (hannounce : ∀ s1 : St, wp os announce (fun r s' => ∃ P, Announces s1.data.clientSock r P ∧
      s' = ⟨s1.data, P ++ s1.log⟩) E s1)
    (htransfer : r0 = 0 → ∀ x log, wp os transfer (fun r s' => ∃ D, B x log r D ∧
      s' = ⟨{ s.data with transferClientSock := x }, D ++ log⟩) E
      ⟨{ s.data with transferClientSock := x }, log⟩)
    (hreply : ∀ (retval : Int) (s1 : St), wp os (reply retval) (fun r s' => ∃ text w,
      r = status w ∧ (retval = 0 ∧ ascii "226" <+: text ∨ retval ≠ 0 ∧ ErrorReply text = true) ∧
        s' = ⟨s1.data, .write .client s1.data.clientSock text w :: s1.log⟩) E s1) :
    wp os (transferCommand r0 announce transfer reply) (Transferred os B r0 s) E s := by
  -- the common end: both transfer sockets are closed and the reply is sent
  have hend : ∀ {retval x : Int} {T : List Event},
      Transferring B s.data (os.accept s.log s.data.transferSock) s.log r0 retval x T →
      wp os (do
        let _ ← serverCloseTransferClientSocket
        let _ ← serverCloseTransferSocket
        reply retval) (Transferred os B r0 s) E
        ⟨{ s.data with transferClientSock := x }, T ++ s.log⟩ := by
    intro retval x T hT
    refine wp_closeTransfers fun X Y hX hY => wp_mono (hreply _ _) ?_ fun _ h => h
    rintro _ _ ⟨text, w, rfl, ht, rfl⟩
    exact .mk hT hX hY ht
  unfold transferCommand
  by_cases h0 : r0 = 0
  · subst h0
    rw [onOk_zero]
    refine wp_seq wp_serverAcceptTransferClientConnection ?_
    rintro _ _ ⟨x, A, hA, rfl⟩
    cases hA with
    | absent ht =>
      exact hend (.unconnected (.absent ht))
    | refused ht ha => exact hend (.unconnected (.refused ht ha))
    | accepted ht ha =>
      rw [onOk_zero]
      refine wp_seq (hannounce _) ?_
      rintro r _ ⟨P, hP, rfl⟩
      by_cases hr : r = 0
      · subst hr
        rw [onOk_zero]
        refine wp_seq (htransfer rfl _ _) ?_
        rintro retval _ ⟨D, hD, rfl⟩
        have h := hend (.transferred ht ha hP hD)
        simpa using h
      · simp only [onOk_of_ne hr, pure_bind]
        have h := hend (.unannounced ht ha hP hr)
        simpa using h
  · simp only [onOk_of_ne h0, pure_bind]
    exact hend (.skipped h0)

/-! ### The handlers -/

/-- The completion replies of `NLST` and `RETR`. -/
theorem wp_transferReply {retval : Int} {ok failed : List Byte}
    (hok : ok.length + 2 < responseLenMax) (hok' : ascii "226" <+: ok ++ crlf)
    (hfailed : failed.length + 2 < responseLenMax) (hfailed' : ErrorReply (failed ++ crlf) = true) :
    wp os (if retval = 0 then serverSendReply ok else serverSendReply failed) (fun r s' =>
      ∃ text w, r = status w ∧
        (retval = 0 ∧ ascii "226" <+: text ∨ retval ≠ 0 ∧ ErrorReply text = true) ∧
        s' = ⟨s.data, .write .client s.data.clientSock text w :: s.log⟩) E s := by
  refine wp_ite (fun h0 => wp_mono (wp_serverSendReply hok) ?_ fun _ h => h)
    (fun hne => wp_mono (wp_serverSendReply hfailed) ?_ fun _ h => h)
  · rintro _ _ ⟨w, rfl, rfl⟩
    exact ⟨_, w, rfl, Or.inl ⟨h0, hok'⟩, rfl⟩
  · rintro _ _ ⟨w, rfl, rfl⟩
    exact ⟨_, w, rfl, Or.inr ⟨hne, hfailed'⟩, rfl⟩

/-- A reply that announces a transfer is sent if it fits. -/
theorem wp_announce {text : List Byte} (ht : ascii "150" <+: text) :
    wp os (serverSendReply text) (fun r s' => ∃ P, Announces s.data.clientSock r P ∧
      s' = ⟨s.data, P ++ s.log⟩) E s := by
  by_cases hlen : text.length + 2 < responseLenMax
  · refine wp_mono (wp_serverSendReply hlen) ?_ fun _ h => h
    rintro _ _ ⟨r, rfl, rfl⟩
    exact ⟨_, .sent (ht.trans (List.prefix_append _ _)), rfl⟩
  · refine wp_mono (wp_serverSendReply_long (by omega)) ?_ fun _ h => h
    rintro _ _ ⟨rfl, rfl⟩
    exact ⟨[], .refused, rfl⟩

/-- The transfer of `NLST`. -/
abbrev listing (path : List Byte) : Int → Log → Int → List Event → Prop :=
  fun x _ _ D => ∀ e ∈ D, e.lists path x

/-- The transfer of `RETR`. -/
abbrev sending (path : List Byte) : Int → Log → Int → List Event → Prop :=
  fun x log retval D => Sends log x path retval D

/-- `NLST`, with a specification of its loop on what it lists. -/
theorem wp_commandHandlerNlst_loop {args : List Byte} {len : ℕ}
    (B : List Byte → Int → Log → Int → List Event → Prop)
    (hloop : ∀ {lpath : List Byte} {L : List Event} (llen : ℕ), Listable os s args len 0 lpath L →
      ∀ x log, wp os (nlstLoop lpath llen len) (fun r s' => ∃ D, B lpath x log r D ∧
        s' = ⟨{ s.data with transferClientSock := x }, D ++ log⟩) (Killed os s)
        ⟨{ s.data with transferClientSock := x }, log⟩) :
    wp os (commandHandlerNlst args len) (fun retval s' => ∃ r0 lpath L,
      Listable os s args len r0 lpath L ∧
      Transferred os (B lpath) r0 ⟨s.data, L ++ s.log⟩ retval s')
      (Killed os s) s := by
  have hsplit : commandHandlerNlst args len = (do
      let out ← nlstPath args len
      let lpath ← readString out.buf
      pure (out, lpath)) >>= fun out => transferCommand out.1.retval
        (serverSendReply (ascii "150 Here comes the directory listing."))
        (nlstLoop out.2 out.1.len len) fun retval =>
          if retval = 0 then serverSendReply (ascii "226 Directory send OK.")
          else serverSendReply (ascii "550 Permission Denied.") := by
    simp only [bind_assoc, pure_bind]
    rfl
  rw [hsplit]
  refine wp_seq wp_nlstPath ?_
  rintro ⟨out, lpath⟩ _ ⟨L, hpath, rfl⟩
  refine wp_mono (wp_transferCommand (B lpath) (fun s1 => wp_announce (by decide))
    (fun h0 => hloop out.len (h0 ▸ hpath)) fun _ _ => wp_transferReply (by decide) (by decide)
      (by decide) (by decide)) ?_ fun _ h => h
  exact fun _ _ h => ⟨_, _, L, hpath, h⟩

theorem wp_commandHandlerNlst {args : List Byte} {len : ℕ} :
    wp os (commandHandlerNlst args len) (fun retval s' => ∃ r0 lpath L,
      Listable os s args len r0 lpath L ∧
      Transferred os (listing lpath) r0 ⟨s.data, L ++ s.log⟩ retval s')
      (Killed os s) s :=
  wp_commandHandlerNlst_loop listing fun _ _ _ _ => wp_nlstLoop

theorem ascii_isPrefix_retrReply (isBinary : Bool) (args : List Byte) :
    ascii "150" <+: retrReply isBinary args := by
  have htext : ∀ b : Bool, ascii "150" <+: (if b then ascii "150 BINARY mode data connection for "
      else ascii "150 ASCII mode data connection for ") := by
    decide
  unfold retrReply
  rw [List.append_assoc]
  exact (htext isBinary).trans (List.prefix_append _ _)

/-- The calls of `RETR` behind finding the file. -/
theorem commandHandlerRetr_eq (args : List Byte) (len : ℕ) : commandHandlerRetr args len =
    filePath args len >>= fun out => transferCommand out.1.retval
      (do
        let (_, isBinary) ← serverGetTransferMode
        let path ← readString args
        serverSendReply (retrReply isBinary path))
      (serverSendfileTransfer out.1.buf out.1.len) fun retval =>
        if retval = 0 then serverSendReply (ascii "226 Transfer Complete.")
        else serverSendReply (if out.2 then ascii "551 File not found." else localError) := rfl

/-- `RETR`, with a specification of how it sends its file. -/
theorem wp_commandHandlerRetr_send {args : List Byte} {len : ℕ}
    (B : List Byte → Int → Log → Int → List Event → Prop)
    (hsend : ∀ {path : List Byte} {len' : ℕ} {E : St → Prop}, 0 < len' → ∀ x log,
      wp os (serverSendfileTransfer path len') (fun r s' => ∃ D, B path x log r D ∧
        s' = ⟨{ s.data with transferClientSock := x }, D ++ log⟩) E
        ⟨{ s.data with transferClientSock := x }, log⟩) :
    wp os (commandHandlerRetr args len) (fun retval s' => ∃ out L, FilePath os s args len out L ∧
      Transferred os (B out.1.buf) out.1.retval ⟨s.data, L ++ s.log⟩ retval s')
      (fun s' => (0 < len ∧ IsRelative os s args) ∧ Killed os s s') s := by
  rw [commandHandlerRetr_eq]
  refine wp_seq (wp_filePath fun h hk => ⟨h, hk.killed⟩) ?_
  rintro ⟨out, isFileError⟩ _ ⟨L, hpath, rfl⟩
  have herror : ∀ b : Bool,
      (if b then ascii "551 File not found." else localError).length + 2 < responseLenMax ∧
        ErrorReply ((if b then ascii "551 File not found." else localError) ++ crlf) = true := by
    decide
  refine wp_mono (wp_transferCommand (B out.buf) (fun s1 => ?_) (fun h0 x log => ?_)
    fun _ _ => wp_transferReply (by decide) (by decide) ?_ ?_) ?_ fun _ h => h
  · refine (wp_bind _ _).mpr ((wp_bind _ _).mpr (wp_getData.mpr ((wp_pure _).mpr ?_)))
    exact (wp_bind _ _).mpr (wp_announce (ascii_isPrefix_retrReply _ _))
  · refine hsend ?_ x log
    cases hpath with
    | unfound h => exact absurd h0 h
    | found h => exact h.canonical.length_pos
  · exact (herror isFileError).1
  · exact (herror isFileError).2
  · exact fun _ _ h => ⟨_, L, hpath, h⟩

theorem wp_commandHandlerRetr {args : List Byte} {len : ℕ} :
    wp os (commandHandlerRetr args len) (fun retval s' => ∃ out L, FilePath os s args len out L ∧
      Transferred os (sending out.1.buf) out.1.retval ⟨s.data, L ++ s.log⟩ retval s')
      (fun s' => (0 < len ∧ IsRelative os s args) ∧ Killed os s s') s :=
  wp_commandHandlerRetr_send sending fun hlen _ _ => wp_serverSendfileTransfer hlen

end VsFtp
