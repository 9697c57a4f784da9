import VsFtp.Lib.Prog

/-!
# The same run in another environment

Two environments can differ in an answer that a program should not depend on.  Then its run in the
second environment follows that in the first one, up to records that show that the answer was used
after all.  They can also differ after some logs only; then a run that passes through none of these
is the same.

## Main definitions

* `Prog.Follows` — a run without such records is the same in the other environment.
* `Prog.Local` — a run with logs after which both environments are alike is the same in both.

## Main results

* `Prog.Follows.bind`, `Prog.Follows.call` — the rules.
* `Prog.Follows.run_eq` — **runs without such records are the same.**
* `Prog.Local.bind` — sequencing.
-/

namespace Prog

variable {ω δ ε α β ρ : Type} {bad : ε → Prop} {w w' : ω}

/-- From every state the program adds some records to the log, and unless one of them is bad its run
in `w'` is the one in `w`. -/
def Follows (bad : ε → Prop) (w w' : ω) (m : Prog ω (Logged δ ε) α) : Prop :=
  ∀ s, ∃ N, (m w s).2.log = N ++ s.log ∧ ((∀ e ∈ N, ¬ bad e) → m w' s = m w s)

namespace Follows

variable {m : Prog ω (Logged δ ε) α} {f : α → Prog ω (Logged δ ε) β}

/-- **Runs without bad records are the same.** -/
theorem run_eq (h : Follows bad w w' m) {s : Logged δ ε} {M : List ε}
    (hM : (m w s).2.log = M ++ s.log) (hgood : ∀ e ∈ M, ¬ bad e) : m w' s = m w s := by
  obtain ⟨N, hN, hsame⟩ := h s
  obtain rfl : N = M := List.append_cancel_right (hN.symm.trans hM)
  exact hsame hgood

protected theorem pure (a : α) : Follows bad w w' (pure a : Prog ω (Logged δ ε) α) :=
  fun _ => ⟨[], rfl, fun _ => rfl⟩

protected theorem stop : Follows bad w w' (stop : Prog ω (Logged δ ε) α) :=
  fun _ => ⟨[], rfl, fun _ => rfl⟩

/-- **Sequencing.** -/
protected theorem bind (hm : Follows bad w w' m) (hf : ∀ a, Follows bad w w' (f a)) :
    Follows bad w w' (m >>= f) := by
  intro s
  obtain ⟨N, hN, hsame⟩ := hm s
  rcases hrun : m w s with ⟨_ | a, s1⟩
  · -- the first part stops, and so do both
    have hstop : ∀ v : ω, m v s = (none, s1) → (m >>= f) v s = (none, s1) := by
      intro v hv
      rw [run_bind, hv]
    rw [hrun] at hN hsame
    refine ⟨N, ?_, fun hgood => ?_⟩
    · rw [hstop w hrun]
      exact hN
    · rw [hstop w hrun, hstop w' (hsame hgood)]
  · obtain ⟨M, hM, hsame'⟩ := hf a s1
    rw [hrun] at hN hsame
    refine ⟨M ++ N, ?_, fun hgood => ?_⟩
    · rw [run_bind_of_some hrun, hM, hN, List.append_assoc]
    · have hfirst := hsame fun e he => hgood e (List.mem_append_right _ he)
      rw [run_bind_of_some hrun, run_bind_of_some hfirst]
      exact hsame' fun e he => hgood e (List.mem_append_left _ he)

protected theorem getData : Follows bad w w' (getData : Prog ω (Logged δ ε) δ) :=
  fun _ => ⟨[], rfl, fun _ => rfl⟩

protected theorem modifyData (g : δ → δ) :
    Follows bad w w' (modifyData g : Prog ω (Logged δ ε) Unit) :=
  fun _ => ⟨[], rfl, fun _ => rfl⟩

protected theorem emit (e : ε) : Follows bad w w' (emit e : Prog ω (Logged δ ε) Unit) :=
  fun _ => ⟨[e], rfl, fun _ => rfl⟩

/-- What both environments determine alike. -/
protected theorem peek {answer : ω → List ε → ρ} (h : answer w' = answer w) :
    Follows bad w w' (peek answer : Prog ω (Logged δ ε) ρ) := by
  refine fun s => ⟨[], rfl, fun _ => ?_⟩
  rw [run_peek, run_peek, h]

/-- **Calls** that both environments answer alike. -/
protected theorem call {answer : ω → List ε → ρ} {record : ρ → ε} (h : answer w' = answer w) :
    Follows bad w w' (call answer record : Prog ω (Logged δ ε) ρ) := by
  refine fun s => ⟨[record (answer w s.log)], rfl, fun _ => ?_⟩
  rw [run_call, run_call, h]

end Follows

/-! ### Environments that are alike after some logs -/

/-- The program adds to the log, and asks its environment only in the course of its run: if `w` and
`w'` are `alike` after all logs up to the last one, its run in `w'` is the one in `w`. -/
def Local (alike : List ε → Prop) (w w' : ω) (m : Prog ω (Logged δ ε) α) : Prop :=
  ∀ s, s.log <:+ (m w s).2.log ∧ ((∀ l, l <:+ (m w s).2.log → alike l) → m w' s = m w s)

namespace Local

variable {alike : List ε → Prop} {m : Prog ω (Logged δ ε) α} {f : α → Prog ω (Logged δ ε) β}

protected theorem pure (a : α) : Local alike w w' (pure a : Prog ω (Logged δ ε) α) :=
  fun _ => ⟨List.suffix_rfl, fun _ => rfl⟩

protected theorem stop : Local alike w w' (stop : Prog ω (Logged δ ε) α) :=
  fun _ => ⟨List.suffix_rfl, fun _ => rfl⟩

/-- **Sequencing.** -/
protected theorem bind (hm : Local alike w w' m) (hf : ∀ a, Local alike w w' (f a)) :
    Local alike w w' (m >>= f) := by
  intro s
  obtain ⟨hlog, hsame⟩ := hm s
  rcases hrun : m w s with ⟨_ | a, s1⟩
  · -- the first part stops, and so do both
    have hstop : ∀ v : ω, m v s = (none, s1) → (m >>= f) v s = (none, s1) := by
      intro v hv
      rw [run_bind, hv]
    rw [hrun] at hlog hsame
    rw [hstop w hrun]
    exact ⟨hlog, fun hl => hstop w' (hsame hl)⟩
  · obtain ⟨hlog', hsame'⟩ := hf a s1
    rw [hrun] at hlog hsame
    rw [run_bind_of_some hrun]
    refine ⟨hlog.trans hlog', fun hl => ?_⟩
    have hfirst := hsame fun l hl1 => hl l (hl1.trans hlog')
    rw [run_bind_of_some hfirst]
    exact hsame' hl

protected theorem getData : Local alike w w' (getData : Prog ω (Logged δ ε) δ) :=
  fun _ => ⟨List.suffix_rfl, fun _ => rfl⟩

protected theorem modifyData (g : δ → δ) :
    Local alike w w' (modifyData g : Prog ω (Logged δ ε) Unit) :=
  fun _ => ⟨List.suffix_rfl, fun _ => rfl⟩

protected theorem emit (e : ε) : Local alike w w' (emit e : Prog ω (Logged δ ε) Unit) :=
  fun s => ⟨List.suffix_cons e s.log, fun _ => rfl⟩

/-- What both environments determine alike where they are alike. -/
protected theorem peek {answer : ω → List ε → ρ} (h : ∀ l, alike l → answer w' l = answer w l) :
    Local alike w w' (peek answer : Prog ω (Logged δ ε) ρ) := by
  refine fun s => ⟨List.suffix_rfl, fun hl => ?_⟩
  have hnow : alike s.log := hl s.log List.suffix_rfl
  rw [run_peek, run_peek, h _ hnow]

/-- **Calls** that both environments answer alike. -/
protected theorem call {answer : ω → List ε → ρ} {record : ρ → ε} (h : answer w' = answer w) :
    Local alike w w' (call answer record : Prog ω (Logged δ ε) ρ) := by
  refine fun s => ⟨List.suffix_cons _ _, fun _ => ?_⟩
  rw [run_call, run_call, h]

end Local

end Prog
