import VsFtp.Lib.Prog

/-!
# Loops

A loop tests its variables, runs its body and goes on with new variables, unless the body leaves
it with a result.  The statements about a loop are about its heads: the variables and the state
each time they are tested.

## Main definitions

* `Prog.loop` — the loop, with a bound on the iterations.
* `Prog.Head` — the heads of a loop, with the number of iterations behind them.
* `Prog.Leaves` — how a loop is left from its last head.

## Main results

* `Prog.Head.invariant` — **what every iteration preserves holds at every head.**
* `Prog.exists_leaves` — **a loop whose iterations decrease a measure ends**, at one of its heads.
* `Prog.Head.loop_eq` — the loop goes on from each of its heads.
* `Prog.exists_leaves_of_run` — a loop that has returned was left at one of its heads.
* `Prog.exists_dies_of_run` — a loop that has not returned was stopped in its body, or used up its
  iterations.
-/

namespace Prog

variable {ω σ α ν : Type} {w : ω} {cond : ν → Prop} {leave : ν → α}
  {body : ν → Prog ω σ (α ⊕ ν)}

/-- `while (cond) body`, which returns what the body leaves the loop with, or what the variables
say in the end.  The bound is on the iterations. -/
def loop (cond : ν → Prop) [DecidablePred cond] (leave : ν → α) (body : ν → Prog ω σ (α ⊕ ν)) :
    ℕ → ν → Prog ω σ α
  | fuel, v =>
      if cond v then
        match fuel with
        | 0 => stop
        | fuel + 1 => do
            let out ← body v
            match out with
            | .inl a => pure a
            | .inr v => loop cond leave body fuel v
      else pure (leave v)

/-- After so many iterations from `v₀` and `s₀` the loop is at its head, with these variables and
in this state. -/
inductive Head (w : ω) (cond : ν → Prop) (body : ν → Prog ω σ (α ⊕ ν)) (v₀ : ν) (s₀ : σ) :
    ℕ → ν → σ → Prop
  | start : Head w cond body v₀ s₀ 0 v₀ s₀
  | next {k : ℕ} {v v' : ν} {s s' : σ} (h : Head w cond body v₀ s₀ k v s) (hc : cond v)
      (hrun : body v w s = (some (.inr v'), s')) : Head w cond body v₀ s₀ (k + 1) v' s'

/-- From a head the loop is left with the result `a` in the state `s'`. -/
inductive Leaves (w : ω) (cond : ν → Prop) (leave : ν → α) (body : ν → Prog ω σ (α ⊕ ν)) (v : ν)
    (s : σ) : α → σ → Prop
  | ended (hc : ¬ cond v) : Leaves w cond leave body v s (leave v) s
  | left {a : α} {s' : σ} (hc : cond v) (hrun : body v w s = (some (.inl a), s')) :
      Leaves w cond leave body v s a s'

/-- **What every iteration preserves holds at every head**, by induction on their number. -/
theorem Head.invariant {v₀ v : ν} {s₀ s : σ} {k : ℕ} {I : ℕ → ν → σ → Prop}
    (h : Head w cond body v₀ s₀ k v s) (h0 : I 0 v₀ s₀)
    (hstep : ∀ k v s v' s', I k v s → cond v → body v w s = (some (.inr v'), s') →
      I (k + 1) v' s') : I k v s := by
  induction h with
  | start => exact h0
  | next _ hc hrun ih => exact hstep _ _ _ _ _ ih hc hrun

/-- The heads behind the first iteration. -/
theorem Head.of_next {v₀ v₁ v : ν} {s₀ s₁ s : σ} {k : ℕ} (hc : cond v₀)
    (hrun : body v₀ w s₀ = (some (.inr v₁), s₁)) (h : Head w cond body v₁ s₁ k v s) :
    Head w cond body v₀ s₀ (k + 1) v s := by
  induction h with
  | start => exact .next .start hc hrun
  | next _ hc' hrun' ih => exact .next ih hc' hrun'

/-- The loop goes on from each of its heads, with the iterations that are left. -/
theorem Head.loop_eq [DecidablePred cond] {v₀ v : ν} {s₀ s : σ} {k : ℕ}
    (h : Head w cond body v₀ s₀ k v s) : ∀ fuel,
      loop cond leave body (k + fuel) v₀ w s₀ = loop cond leave body fuel v w s := by
  induction h with
  | start =>
    intro fuel
    rw [Nat.zero_add]
  | @next k v v' s s' _ hc hrun ih =>
    intro fuel
    have hloop : loop cond leave body (fuel + 1) v w s = loop cond leave body fuel v' w s' := by
      rw [loop, if_pos hc]
      exact run_bind_of_some hrun
    rw [Nat.add_right_comm, Nat.add_assoc, ih (fuel + 1), hloop]

/-- **A loop whose iterations decrease a measure ends**, at one of its heads. -/
theorem exists_leaves [DecidablePred cond] {I : ν → σ → Prop} (μ : ν → ℕ)
    (hbody : ∀ v s, I v s → cond v → wp w (body v)
      (fun out s' => ∀ v', out = .inr v' → μ v' < μ v ∧ I v' s') (fun _ => False) s)
    (hμ : ∀ v, cond v → 0 < μ v) : ∀ {fuel : ℕ} {v : ν} {s : σ}, μ v ≤ fuel → I v s →
      ∃ k v' s' a s'', Head w cond body v s k v' s' ∧ Leaves w cond leave body v' s' a s'' ∧
        loop cond leave body fuel v w s = (some a, s'') := by
  intro fuel
  induction fuel with
  | zero =>
    -- without a round left the measure is zero, so the condition fails
    intro v s hfuel _
    have hc : ¬ cond v := fun hc => absurd (hμ v hc) (by omega)
    refine ⟨0, v, s, leave v, s, .start, .ended hc, ?_⟩
    rw [loop, if_neg hc]
    rfl
  | succ fuel ih =>
    intro v s hfuel hI
    by_cases hc : cond v
    · obtain ⟨out, s₁, hrun, hout⟩ := exists_run_of_wp (hbody v s hI hc)
      rw [loop, if_pos hc]
      cases out with
      | inl a =>
        refine ⟨0, v, s, a, s₁, .start, .left hc hrun, ?_⟩
        rw [run_bind_of_some hrun]
        rfl
      | inr v₁ =>
        obtain ⟨hlt, hI₁⟩ := hout v₁ rfl
        obtain ⟨k, v', s', a, s'', hhead, hleaves, hloop⟩ := ih (v := v₁) (by omega) hI₁
        refine ⟨k + 1, v', s', a, s'', hhead.of_next hc hrun, hleaves, ?_⟩
        rw [run_bind_of_some hrun]
        exact hloop
    · refine ⟨0, v, s, leave v, s, .start, .ended hc, ?_⟩
      rw [loop, if_neg hc]
      rfl

/-- **A loop that has returned was left at one of its heads**, within its bound. -/
theorem exists_leaves_of_run [DecidablePred cond] {a : α} {s' : σ} : ∀ {fuel : ℕ} {v : ν} {s : σ},
    loop cond leave body fuel v w s = (some a, s') →
      ∃ k v' s₁, (cond v' → k < fuel) ∧ Head w cond body v s k v' s₁ ∧
        Leaves w cond leave body v' s₁ a s' := by
  intro fuel
  induction fuel with
  | zero =>
    intro v s h
    rw [loop] at h
    by_cases hc : cond v
    · rw [if_pos hc] at h
      exact absurd (Prod.mk.inj h).1 (by simp)
    · rw [if_neg hc] at h
      cases h
      exact ⟨0, v, _, fun h => absurd h hc, .start, .ended hc⟩
  | succ fuel ih =>
    intro v s h
    rw [loop] at h
    by_cases hc : cond v
    · rw [if_pos hc, run_bind] at h
      rcases hrun : body v w s with ⟨_ | a' | v₁, s₁⟩ <;> rw [hrun] at h
      · exact absurd (Prod.mk.inj h).1 (by simp)
      · cases h
        exact ⟨0, v, _, fun _ => Nat.succ_pos fuel, .start, .left hc hrun⟩
      · -- one round later
        obtain ⟨k, v', s₂, hk, hhead, hleaves⟩ := ih h
        exact ⟨k + 1, v', s₂, fun h => Nat.succ_lt_succ (hk h), hhead.of_next hc hrun, hleaves⟩
    · rw [if_neg hc] at h
      cases h
      exact ⟨0, v, _, fun h => absurd h hc, .start, .ended hc⟩

/-- **A loop that has not returned was stopped in its body** at one of its heads, or it has used up
its iterations. -/
theorem exists_dies_of_run [DecidablePred cond] {s' : σ} : ∀ {fuel : ℕ} {v : ν} {s : σ},
    loop cond leave body fuel v w s = (none, s') →
      ∃ k v' s₁, Head w cond body v s k v' s₁ ∧
        (k = fuel ∧ s₁ = s' ∨ k < fuel ∧ body v' w s₁ = (none, s')) := by
  intro fuel
  induction fuel with
  | zero =>
    intro v s h
    rw [loop] at h
    by_cases hc : cond v
    · rw [if_pos hc] at h
      exact ⟨0, v, s, .start, Or.inl ⟨rfl, (Prod.mk.inj h).2⟩⟩
    · rw [if_neg hc] at h
      exact absurd (Prod.mk.inj h).1 (by simp)
  | succ fuel ih =>
    intro v s h
    rw [loop] at h
    by_cases hc : cond v
    · rw [if_pos hc, run_bind] at h
      rcases hrun : body v w s with ⟨_ | a' | v₁, s₁⟩ <;> rw [hrun] at h
      · obtain rfl : s₁ = s' := (Prod.mk.inj h).2
        exact ⟨0, v, s, .start, Or.inr ⟨Nat.succ_pos fuel, hrun⟩⟩
      · exact absurd (Prod.mk.inj h).1 (by simp)
      · -- one round later
        obtain ⟨k, v', s₂, hhead, hend⟩ := ih h
        refine ⟨k + 1, v', s₂, hhead.of_next hc hrun, ?_⟩
        rcases hend with ⟨rfl, hs⟩ | ⟨hk, hdies⟩
        · exact Or.inl ⟨rfl, hs⟩
        · exact Or.inr ⟨Nat.succ_lt_succ hk, hdies⟩
    · rw [if_neg hc] at h
      exact absurd (Prod.mk.inj h).1 (by simp)

end Prog
