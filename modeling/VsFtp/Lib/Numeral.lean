import Mathlib.Algebra.Ring.Nat
import Mathlib.Data.List.Induction
import Mathlib.Data.Nat.Digits.Defs

/-!
# Numerals

The value of a list of digits, the most significant one first, as a program computes it when it
reads the digits from left to right.

## Main definitions

* `Numeral.value` — the value of a list of digits.

## Main results

* `Numeral.value_cons`, `Numeral.value_append_singleton` — a digit in front, and one behind.
* `Numeral.value_lt` — a numeral with `n` digits is less than the `n`-th power of the base.
* `Numeral.value_cons_le_value_cons_iff` — **numerals of one length compare like their digits, from
  the first one on.**
-/

namespace Numeral

variable {b : ℕ} {xs ys : List ℕ} {x y : ℕ}

/-- The value of a list of digits to the base `b`, most significant one first. -/
def value (b : ℕ) (xs : List ℕ) : ℕ := xs.foldl (fun n x => b * n + x) 0

@[simp] theorem value_nil : value b [] = 0 := rfl

@[simp] theorem value_append_singleton : value b (xs ++ [x]) = b * value b xs + x := by
  simp [value]

/-- The value of digits is that Mathlib gives them, which has the last one first. -/
theorem value_eq_ofDigits : value b xs = Nat.ofDigits b xs.reverse := by
  induction xs using List.reverseRecOn with
  | nil => rfl
  | append_singleton xs x ih =>
    rw [value_append_singleton, ih, List.reverse_append, List.reverse_singleton,
      List.singleton_append, Nat.ofDigits_cons, Nat.add_comm]

theorem value_cons : value b (x :: xs) = b ^ xs.length * x + value b xs := by
  rw [value_eq_ofDigits, value_eq_ofDigits, List.reverse_cons, Nat.ofDigits_append,
    Nat.ofDigits_singleton, List.length_reverse, Nat.add_comm]

/-- **A numeral is bounded by its length.** -/
theorem value_lt (hb : 1 < b) (hxs : ∀ x ∈ xs, x < b) : value b xs < b ^ xs.length := by
  rw [value_eq_ofDigits, ← List.length_reverse]
  exact Nat.ofDigits_lt_base_pow_length hb fun x hx => hxs x (List.mem_reverse.mp hx)

/-- **Numerals of one length compare like their digits**: if the first ones differ, the rest does
not matter. -/
theorem value_cons_le_value_cons_iff (hb : 1 < b) (hlen : xs.length = ys.length)
    (hxs : ∀ x ∈ xs, x < b) (hys : ∀ y ∈ ys, y < b) :
    value b (x :: xs) ≤ value b (y :: ys) ↔ x < y ∨ x = y ∧ value b xs ≤ value b ys := by
  have hx := value_lt hb hxs
  have hy := value_lt hb hys
  rw [value_cons, value_cons, hlen]
  rw [hlen] at hx
  rcases lt_trichotomy x y with h | rfl | h
  · have hstep := Nat.mul_le_mul_left (b ^ ys.length) h
    rw [Nat.mul_succ] at hstep
    exact iff_of_true (by omega) (Or.inl h)
  · rw [Nat.add_le_add_iff_left]
    exact ⟨fun h => Or.inr ⟨rfl, h⟩, fun h => (h.resolve_left (lt_irrefl _)).2⟩
  · have hstep := Nat.mul_le_mul_left (b ^ ys.length) h
    rw [Nat.mul_succ] at hstep
    exact iff_of_false (by omega) (by omega)

end Numeral
