/-!
# Runs of a transition system

A system is given by its initial states and its steps.  What is proved of every
reachable state is proved of every run of any length.

## Main definitions

* `Reach` — the reachable states.

## Main results

* `Reach.invariant` — **what holds initially and is preserved by each step holds
  in every reachable state.**
* `Reach.mono` — restricting the steps restricts the reachable states.
-/

variable {σ : Type}

/-- The states that are reached from an initial one by any number of steps. -/
inductive Reach (init : σ → Prop) (next : σ → σ → Prop) : σ → Prop
  | start {s : σ} (h : init s) : Reach init next s
  | step {s s' : σ} (hs : Reach init next s) (h : next s s') : Reach init next s'

namespace Reach

variable {init : σ → Prop} {next next' : σ → σ → Prop} {s : σ}

/-- **The invariant rule.**  The step may use that the state before it is
reachable. -/
theorem invariant {I : σ → Prop} (h : Reach init next s) (h0 : ∀ s, init s → I s)
    (hstep : ∀ s s', Reach init next s → I s → next s s' → I s') : I s := by
  induction h with
  | start h => exact h0 _ h
  | step hs h ih => exact hstep _ _ hs ih h

theorem mono (h : Reach init next s) (hsub : ∀ s s', next s s' → next' s s') :
    Reach init next' s := by
  induction h with
  | start h => exact .start h
  | step _ h ih => exact .step ih (hsub _ _ h)

end Reach
