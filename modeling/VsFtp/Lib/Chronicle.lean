import Mathlib.Data.List.Basic

/-!
# Reading a log in order

A log is kept newest record first.  What is of interest in it is read off in the
order in which it happened: each record contributes some items.

## Main definitions

* `chronicle` — the items of a log, oldest first.

## Main results

* `chronicle_append` — new records add their items behind the old ones.
* `chronicle_append_of_silent` — records without items add nothing.
-/

variable {ε β : Type} {f : ε → List β} {log new : List ε}

/-- The items that the records of a log contribute, oldest first. -/
def chronicle (f : ε → List β) : List ε → List β
  | [] => []
  | e :: log => chronicle f log ++ f e

@[simp] theorem chronicle_nil : chronicle f [] = [] := rfl

@[simp] theorem chronicle_cons (e : ε) : chronicle f (e :: log) = chronicle f log ++ f e := rfl

theorem mem_chronicle {b : β} : b ∈ chronicle f log ↔ ∃ e ∈ log, b ∈ f e := by
  induction log with
  | nil => simp
  | cons e log ih => rw [chronicle_cons, List.mem_append, ih, List.exists_mem_cons_iff, or_comm]

/-- **New records add their items behind the old ones.** -/
theorem chronicle_append : chronicle f (new ++ log) = chronicle f log ++ chronicle f new := by
  induction new with
  | nil => simp
  | cons e new ih => rw [List.cons_append, chronicle_cons, ih, chronicle_cons, List.append_assoc]

theorem chronicle_of_silent (h : ∀ e ∈ new, f e = []) : chronicle f new = [] := by
  induction new with
  | nil => rfl
  | cons e new ih =>
    rw [chronicle_cons, ih fun a ha => h a (by simp [ha]), h e (by simp), List.append_nil]

/-- **Records without items add nothing.** -/
theorem chronicle_append_of_silent (h : ∀ e ∈ new, f e = []) :
    chronicle f (new ++ log) = chronicle f log := by
  rw [chronicle_append, chronicle_of_silent h, List.append_nil]
