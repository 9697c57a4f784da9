import VsFtp.Outcomes

/-!
# From a handler to its turn

What is known of the handler of a command holds in the turn it is called in, up to what
`HandleConnection` does once the handler has returned.

## Main results

* `wp_serverHandler_line` — a specification of the parser is one of the turn.
* `Called.calling_eq` — which handler is called can be computed.
* `Called.wp` — **a specification of the handler is one of the turn.**
* `Called.of_turn` — what it says about a turn that returned.
-/

namespace VsFtp

open CString Prog

attribute [local irreducible] serverSendReply helpText

variable {os : Os} {s : St} {E : St → Prop} {Q : Int → St → Prop}

/-- A specification of `VSFTPCommandsParse` on a line that was read is one of the turn, unless the
process is killed by the NUL behind a full buffer. -/
theorem wp_serverHandler_line {bytes : List Byte} (hcreated : s.data.isServerSocketCreated = true)
    (hconnected : s.data.isConnected = true) (hread : received os s = some bytes)
    (hline : IsLine bytes)
    (h : wp os (commandsParse (lineBuffer bytes) (bytes.length - 2)) Q E (lineState s bytes)) :
    wp os serverHandler (fun r s' => r = 0 ∧ ∃ r1 s2, Q r1 s2 ∧ Handled s2 r1 s')
      (fun s' => E s' ∨ Overlong os s) s := by
  have hle : bytes.length ≤ requestLenMax := os.read_length_le hread
  have hlen := hline.1
  unfold serverHandler
  refine (wp_bind _ _).mpr (wp_getData.mpr ?_)
  rw [if_neg (by simp [hcreated]), if_neg (by simp [hconnected])]
  unfold handleConnection receiveOwnSock
  refine (wp_bind _ _).mpr (wp_getData.mpr ((wp_bind _ _).mpr ((wp_bind _ _).mpr
    ((wp_call _ _).mpr ?_))))
  have hanswer : os.read s.log s.data.clientSock requestLenMax = some bytes := hread
  rw [hanswer]
  refine (wp_pure _).mpr (wp_seq (wp_mono wp_storeRequest_nul (fun _ _ h => h) ?_) ?_)
  · rintro _ ⟨hfull, hs, rfl⟩
    exact Or.inr ⟨bytes, hread, Nat.le_antisymm hle hfull, hs⟩
  · rintro _ _ ⟨rfl, rfl⟩
    refine wp_seq wp_examine ?_
    rintro isLine _ ⟨hisLine, rfl⟩
    rw [if_pos (hisLine.mpr hline)]
    exact wp_mono (wp_handleLine_parsed (by omega) h) (fun _ _ h => h) fun _ => Or.inl

/-- The handler that a turn calls, with its arguments and the state it starts in. -/
def calling (os : Os) (s : St) : Option (Command × List Byte × ℕ × St) :=
  if s.data.isServerSocketCreated = true ∧ s.data.isConnected = true then
    (received os s).bind fun bytes => if IsLine bytes then
      (commandFind (lineBuffer bytes)).map fun entry => (entry.2,
        argsArray (lineBuffer bytes) (bytes.length - 2) entry.1,
        argsLen (lineArgs (lineBuffer bytes) (bytes.length - 2) entry.1),
        calledState (lineState s bytes) (lineBuffer bytes) (bytes.length - 2) entry.1 entry.2)
      else none
  else none

/-- **What is called can be computed.** -/
theorem Called.calling_eq {c : Command} {args : List Byte} {len : ℕ} {s1 : St}
    (h : Called os s c args len s1) : calling os s = some (c, args, len, s1) := by
  obtain ⟨hcreated, hconnected, hread, hline, hfind⟩ := h
  rw [calling, if_pos ⟨hcreated, hconnected⟩, hread, Option.bind_some, if_pos hline, hfind]
  rfl

/-- What is computed is called. -/
theorem Called.of_calling {x : Command × List Byte × ℕ × St} (h : calling os s = some x) :
    Called os s x.1 x.2.1 x.2.2.1 x.2.2.2 := by
  unfold calling at h
  by_cases hc : s.data.isServerSocketCreated = true ∧ s.data.isConnected = true
  · rw [if_pos hc] at h
    obtain ⟨bytes, hread, h⟩ := Option.bind_eq_some_iff.mp h
    by_cases hline : IsLine bytes
    · rw [if_pos hline] at h
      obtain ⟨entry, hfind, rfl⟩ := Option.map_eq_some_iff.mp h
      exact .mk hc.1 hc.2 hread hline hfind
    · simp [hline] at h
  · simp [hc] at h

/-- Before the handler is called the server changes none of its data. -/
theorem Called.data {c : Command} {args : List Byte} {len : ℕ} {s1 : St}
    (h : Called os s c args len s1) : s1.data = s.data := by cases h; rfl

/-- **A specification of the handler that is called in a turn is one of the turn.** -/
theorem Called.wp {c : Command} {args : List Byte} {len : ℕ} {s1 : St}
    (hcall : Called os s c args len s1) (h : wp os (commandHandle c args len) Q E s1) :
    wp os serverHandler (fun r s' => r = 0 ∧ ∃ r1 s2, Q r1 s2 ∧ Handled s2 r1 s')
      (fun s' => E s' ∨ Overlong os s) s := by
  obtain ⟨hcreated, hconnected, hread, hline, hfind⟩ := hcall
  exact wp_serverHandler_line hcreated hconnected hread hline (wp_commandsParse_called hfind h)

/-- **A turn in which a handler is called** ends as the handler does, up to what is done
afterwards. -/
theorem Called.of_turn {c : Command} {args : List Byte} {len : ℕ} {s1 s' : St}
    (hcall : Called os s c args len s1) (h : Prog.wp os (commandHandle c args len) Q E s1)
    (ht : Turn os s s') : ∃ r1 s2, Q r1 s2 ∧ Handled s2 r1 s' := (of_wp_run (hcall.wp h) ht).2

end VsFtp
