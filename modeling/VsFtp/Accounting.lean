import VsFtp.Lib.Loop
import VsFtp.Sizes

/-!
# The counter of a transfer

The loop of `VSFTPServerSendfileTransfer` counts down what is left of the size that `fstat` gave at
the beginning.  Each round reads a part of it and writes what it read, and the counter is decreased
by what `write` accepted, which can be less than what was read.

## Main definitions

* `SendVars`, `sendfileRound` — the variables of the loop and one round of it.
* `SendHead` — the heads of the loop.
* `asked`, `Round` — what a call asks for, and what one round does.

## Main results

* `sendfileLoop_eq_loop` — the loop of the source is the loop of its rounds.
* `wp_sendfileRound` — the specification of a round.
* `SendHead.accounted` — the counter and what was accepted add up at every head.
* `transfer_accounting` — **the counter never wraps, nothing asks for more than is left, and the
  loop ends after as many rounds as the file has bytes.**
-/

namespace VsFtp

open CString Prog

attribute [local irreducible] serverSendReply

variable {os : Os} {s : St} {E : St → Prop} {fd : Int}

/-! ### The loop by rounds -/

/-- The variables of the loop. -/
structure SendVars where
  count : ℕ
  numSent : ℕ
  retval : Int
  deriving DecidableEq

/-- One round of the loop: it is left with a status, or goes on. -/
def sendfileRound (fd : Int) (v : SendVars) : ServerM (Int ⊕ SendVars) := do
  let toRead := if v.count < fileReadBufSize then v.count else fileReadBufSize
  let numRead ← sysReadFile fd toRead
  match numRead with
  | none => pure (.inl (-1))
  | some [] => pure (.inl v.retval)
  | some (b :: fileBuf) => do
      let d ← getData
      let (retval, numSent) ←
        sendOwnSock .transferClient d.transferClientSock (b :: fileBuf) v.numSent
      if retval = -1 then pure (.inl retval)
      else if numSent = 0 then pure (.inl (-1))
      else pure (.inr ⟨sizeSub v.count numSent, numSent, retval⟩)

/-- The loop of rounds, while something is left. -/
def sendRounds (fd : Int) : ℕ → SendVars → ServerM Int :=
  loop (fun v => 0 < v.count) SendVars.retval (sendfileRound fd)

/-- **The loop of the source is the loop of its rounds**, by induction on the bound. -/
theorem sendfileLoop_eq_loop : ∀ (fuel count numSent : ℕ) (retval : Int),
    sendfileLoop fd fuel count numSent retval = sendRounds fd fuel ⟨count, numSent, retval⟩ := by
  intro fuel
  induction fuel with
  | zero =>
    intro count numSent retval
    rw [sendfileLoop, sendRounds, loop]
  | succ fuel ih =>
    intro count numSent retval
    rw [sendfileLoop, sendRounds, loop]
    refine if_congr Iff.rfl ?_ rfl
    unfold sendfileRound
    simp only [bind_assoc]
    refine congrArg _ (funext fun numRead => ?_)
    cases numRead with
    | none => rfl
    | some bytes =>
      cases bytes with
      | nil => rfl
      | cons b fileBuf =>
        simp only [bind_assoc]
        refine congrArg _ (funext fun d => congrArg _ (funext fun out => ?_))
        -- the three ways on from a write: an error, nothing accepted, another round
        by_cases hr : out.1 = -1
        · simp only [if_pos hr]
          rfl
        · by_cases h0 : out.2 = 0
          · simp only [if_neg hr, if_pos h0]
            rfl
          · simp only [if_neg hr, if_neg h0]
            exact ih _ _ _

/-- After `k` rounds from `s0` the loop over a file of this size is at its head, with the variables
`v` and in the state `s`. -/
def SendHead (os : Os) (fd : Int) (size : ℕ) (s0 : St) (k : ℕ) (v : SendVars) (s : St) : Prop :=
  Head os (fun v => 0 < v.count) (sendfileRound fd) ⟨size, 0, 0⟩ s0 k v s

/-! ### One round -/

/-- How many bytes a record shows a read of a file or a write to have asked for. -/
def Event.asked : Event → ℕ
  | .readFile _ n _ => n
  | .write _ _ bytes _ => bytes.length
  | _ => 0

/-- A round with `count` bytes left: no read or write asks for more than that or than the buffer
holds, and if the loop goes on, then some of these bytes were accepted, at most `count`, and the
others are left. -/
structure Round (v : SendVars) (s : St) (out : Int ⊕ SendVars) (s' : St) : Prop where
  data : s'.data = s.data
  asks : ∃ M : List Event, s'.log = M ++ s.log ∧
    (∀ e ∈ M, e.asked ≤ min v.count fileReadBufSize) ∧
    ∀ v', out = .inr v' → dataSent M = v'.numSent
  goes_on : ∀ v', out = .inr v' → 0 < v'.numSent ∧ v'.numSent ≤ v.count ∧
    v'.count = v.count - v'.numSent ∧ v'.retval = 0

/-- A round that leaves the loop. -/
theorem Round.inl {v : SendVars} {a : Int} {M : List Event}
    (hM : ∀ e ∈ M, e.asked ≤ min v.count fileReadBufSize) :
    Round v s (.inl a) ⟨s.data, M ++ s.log⟩ where
  data := rfl
  asks := ⟨M, rfl, hM, fun v' h => by simp at h⟩
  goes_on := fun v' h => by simp at h

/-- **The specification of a round**: what is written is what was read, and what is accepted is at
most what is written. -/
theorem wp_sendfileRound {v : SendVars} (hcount : v.count < 2 ^ 64) :
    wp os (sendfileRound fd v) (Round v s) E s := by
  unfold sendfileRound
  have htoRead : (if v.count < fileReadBufSize then v.count else fileReadBufSize)
      = min v.count fileReadBufSize := by
    split <;> omega
  rw [htoRead]
  generalize hmin : min v.count fileReadBufSize = toRead
  have hle : toRead ≤ v.count := by omega
  refine (wp_bind _ _).mpr ((wp_call _ _).mpr ?_)
  cases hread : os.readFile s.log fd toRead with
  | none => exact .inl (M := [_]) (by simp [Event.asked, hmin])
  | some bytes =>
    have hlen := os.readFile_length_le hread
    cases bytes with
    | nil => exact .inl (M := [_]) (by simp [Event.asked, hmin])
    | cons b fileBuf =>
      refine (wp_bind _ _).mpr (wp_getData.mpr (wp_seq wp_sendOwnSock ?_))
      -- what a read and a write of these bytes ask for
      have hasked : ∀ w, ∀ e ∈ [
            Event.write .transferClient s.data.transferClientSock (b :: fileBuf) w,
          .readFile fd toRead (some (b :: fileBuf))], e.asked ≤ min v.count fileReadBufSize := by
        intro w e he
        rw [hmin]
        rcases List.mem_pair.mp he with rfl | rfl
        · exact hlen
        · exact le_rfl
      rintro _ _ ⟨w, ⟨rfl, rfl⟩ | ⟨k, rfl, hk, rfl⟩, rfl⟩
      · exact .inl (M := [_, _]) (hasked _)
      · refine wp_ite (fun h => absurd h (by simp)) (fun _ => wp_ite (fun h0 => ?_) (fun h0 => ?_))
        · exact .inl (M := [_, _]) (hasked _)
        · have hkc : k ≤ v.count := by omega
          refine ⟨rfl, ⟨[_, _], rfl, hasked _, ?_⟩, ?_⟩
          · rintro v' ⟨⟩
            simp [dataSent, Event.sent]
          · rintro v' ⟨⟩
            exact ⟨Nat.pos_of_ne_zero h0, hkc, sizeSub_of_le hkc hcount, rfl⟩

/-! ### All rounds -/

/-- The counter and the bytes accepted since `s0` add up to the size, and each round behind has
taken at least one byte off the counter. -/
structure Accounted (size : ℕ) (s0 : St) (k : ℕ) (v : SendVars) (s : St) : Prop where
  adds_up : ∃ N : List Event, s.log = N ++ s0.log ∧ v.count + dataSent N = size
  rounds : k + v.count ≤ size

theorem Accounted.start {size : ℕ} {s0 : St} : Accounted size s0 0 ⟨size, 0, 0⟩ s0 :=
  ⟨⟨[], rfl, rfl⟩, (Nat.zero_add _).le⟩

theorem Accounted.count_lt {size k : ℕ} {s0 : St} {v : SendVars} (h : Accounted size s0 k v s)
    (hsize : size < 2 ^ 64) : v.count < 2 ^ 64 := by
  have := h.rounds
  omega

/-- **A round keeps the account.** -/
theorem Accounted.round {size k : ℕ} {s0 s' : St} {v v' : SendVars} (h : Accounted size s0 k v s)
    (hround : Round v s (.inr v') s') : Accounted size s0 (k + 1) v' s' := by
  obtain ⟨N, hN, hsum⟩ := h.adds_up
  obtain ⟨M, hM, -, hsent⟩ := hround.asks
  obtain ⟨hpos, hle, hcount, -⟩ := hround.goes_on v' rfl
  have hk := h.rounds
  refine ⟨⟨M ++ N, ?_, ?_⟩, ?_⟩
  · rw [hM, hN, List.append_assoc]
  · rw [dataSent_append, hsent v' rfl, hcount]
    omega
  · omega

/-- **At every head of the loop the account is right.** -/
theorem SendHead.accounted {size k : ℕ} {s0 : St} {v : SendVars} (hsize : size < 2 ^ 64)
    (h : SendHead os fd size s0 k v s) : Accounted size s0 k v s := by
  refine Head.invariant h .start ?_
  intro k v s v' s' hacc _ hrun
  exact hacc.round (of_wp_run (E := fun _ => True) (wp_sendfileRound (hacc.count_lt hsize)) hrun)

/-- **The loop ends** at one of its heads, with the size as the bound. -/
theorem sendRounds_leaves {size : ℕ} {s0 : St} (hsize : size < 2 ^ 64) :
    ∃ k v s' retval s'', SendHead os fd size s0 k v s' ∧
      Leaves os (fun v => 0 < v.count) SendVars.retval (sendfileRound fd) v s' retval s'' ∧
      sendRounds fd size ⟨size, 0, 0⟩ os s0 = (some retval, s'') := by
  refine exists_leaves (I := fun v _ => v.count < 2 ^ 64) SendVars.count ?_ (fun _ h => h) le_rfl
    hsize
  intro v s hcount hpos
  refine wp_mono (wp_sendfileRound hcount) ?_ fun _ h => h
  rintro _ s' hround v' rfl
  obtain ⟨hsent, hle, heq, -⟩ := hround.goes_on v' rfl
  constructor <;> omega

/-! ### The transfer -/

/-- The size of a file that was opened is that of `fstat`. -/
theorem size_lt_of_open {path : List Byte} {len size : ℕ} {s0 : St}
    (h : filesystemOpenFile path len (-1) 0 os s = (some ⟨0, fd, size⟩, s0)) : size < 2 ^ 64 := by
  have hwp : wp os (filesystemOpenFile path len (-1) 0) (fun out _ => out.size < 2 ^ 64)
      (fun _ => True) s := by
    unfold filesystemOpenFile
    refine wp_ite (fun _ => ?_) (fun _ => by simp)
    refine (wp_bind _ _).mpr ((wp_call _ _).mpr (wp_ite (fun _ => ?_) (fun _ => by simp)))
    refine (wp_bind _ _).mpr ((wp_call _ _).mpr (wp_ite (fun _ => by simp) (fun _ => ?_)))
    refine (wp_bind _ _).mpr ((wp_call _ _).mpr ?_)
    cases os.fstat _ _ with
    | none => simp
    | some st => exact st.size_lt
  have hlt := of_wp_run hwp h
  exact hlt

/-- **The accounting of a transfer.**  When the file was opened and found to have `size` bytes, then
at every head of the loop the counter and the bytes accepted by `write` since then add up to `size`.
A round begins only behind fewer than `size` rounds, asks for no more than is left and fits the
buffer, and takes off the counter no more than is left.  With `size` as the bound on the rounds the
loop is left at one of its heads, and `VSFTPServerSendfileTransfer` closes the file and returns. -/
theorem transfer_accounting {path : List Byte} {len size : ℕ} {s0 : St}
    (hopen : filesystemOpenFile path len (-1) 0 os s = (some ⟨0, fd, size⟩, s0)) :
    (∀ k v s', SendHead os fd size s0 k v s' →
      (∃ N : List Event, s'.log = N ++ s0.log ∧ v.count + dataSent N = size) ∧
      (0 < v.count → k < size ∧ wp os (sendfileRound fd v) (Round v s') (fun _ => False) s')) ∧
    ∃ k v s' retval s'', SendHead os fd size s0 k v s' ∧
      Leaves os (fun v => 0 < v.count) SendVars.retval (sendfileRound fd) v s' retval s'' ∧
      sendfileLoop fd size size 0 0 os s0 = (some retval, s'') ∧
      serverSendfileTransfer path len os s = (some retval, (filesystemCloseFile fd os s'').2) := by
  have hsize := size_lt_of_open hopen
  refine ⟨fun k v s' hhead => ?_, ?_⟩
  · have hacc := hhead.accounted hsize
    refine ⟨hacc.adds_up, fun hpos => ⟨?_, wp_sendfileRound (hacc.count_lt hsize)⟩⟩
    have hrounds := hacc.rounds
    omega
  · obtain ⟨k, v, s', retval, s'', hhead, hleaves, hrun⟩ := sendRounds_leaves hsize
    rw [← sendfileLoop_eq_loop] at hrun
    refine ⟨k, v, s', retval, s'', hhead, hleaves, hrun, ?_⟩
    unfold serverSendfileTransfer
    rw [run_bind_of_some hopen, onOk_zero, run_bind_of_some hrun]
    rfl

/-- The state in which the data connection of the machine with one file is accepted. -/
def fileAccepted : St := (serverAcceptTransferClientConnection fileHost.os fileAsked).2

/-- The state in which its file is open. -/
def fileOpened : St := (filesystemOpenFile (ascii "/srv/f") 6 (-1) 0 fileHost.os fileAccepted).2

/-- The three bytes of the file are accounted for. -/
theorem transfer_accounting_file :
    (∀ k v s', SendHead fileHost.os 7 3 fileOpened k v s' →
      (∃ N : List Event, s'.log = N ++ fileOpened.log ∧ v.count + dataSent N = 3) ∧
      (0 < v.count →
        k < 3 ∧ wp fileHost.os (sendfileRound 7 v) (Round v s') (fun _ => False) s')) ∧
    ∃ k v s' retval s'', SendHead fileHost.os 7 3 fileOpened k v s' ∧
      Leaves fileHost.os (fun v => 0 < v.count) SendVars.retval (sendfileRound 7) v s' retval s'' ∧
      sendfileLoop 7 3 3 0 0 fileHost.os fileOpened = (some retval, s'') ∧
      serverSendfileTransfer (ascii "/srv/f") 6 fileHost.os fileAccepted
        = (some retval, (filesystemCloseFile 7 fileHost.os s'').2) :=
  transfer_accounting (Prod.ext (by decide +kernel) rfl)

end VsFtp
