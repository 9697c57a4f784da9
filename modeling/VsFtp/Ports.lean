import Mathlib.Data.Nat.ModEq
import VsFtp.Invariants
import VsFtp.Lib.Numeral

/-!
# The port on the command line

`IsDecimal` compares five digits with those of a limit, one by one, and `ParseDecimal` adds up the
digits from the last one on in 16-bit arithmetic.  The limit is meant to be `UINT16_MAX`, but two of
its digits are swapped.

## Main definitions

* `Digits` — a string of decimal digits.
* `IsPort` — a decimal number of at most five digits that fits 16 bits.

## Main results

* `digitsFit_iff` — comparing the digits compares the numbers.
* `isDecimal_iff` — what `IsDecimal` accepts.
* `toNat_parseDecimalLoop` — the invariant of the loop of `ParseDecimal`.
* `port_validation_iff` — **`IsDecimal` is right about a string, unless that is empty or a number
  between the limit and `UINT16_MAX`.**
* `parseDecimal_eq_number` — **`ParseDecimal` yields the value of the digits modulo `2 ^ 16`.**
-/

namespace VsFtp

open CString

variable {string : List Byte}

/-- `UINT16_MAX`. -/
abbrev uint16Max : ℕ := 65535

/-- A string of decimal digits. -/
def Digits (string : List Byte) : Prop := ∀ c ∈ string, 48 ≤ c ∧ c ≤ 57

instance (string : List Byte) : Decidable (Digits string) :=
  inferInstanceAs (Decidable (∀ _ ∈ _, _))

/-- A valid port. -/
structure IsPort (string : List Byte) : Prop where
  length_pos : 1 ≤ string.length
  length_le : string.length ≤ 5
  digits : Digits string
  number_le : number string ≤ uint16Max

/-! ### Digits -/

theorem isDecimalChar_iff {c : Byte} : isDecimalChar c = true ↔ 48 ≤ c ∧ c ≤ 57 := by
  simp [isDecimalChar]

theorem all_isDecimalChar_iff : string.all isDecimalChar = true ↔ Digits string := by
  simp [Digits, isDecimalChar_iff]

/-- The value of a digit. -/
def digit (c : Byte) : ℕ := c.toNat - 48

theorem toNat_of_digit {c : Byte} (h : 48 ≤ c ∧ c ≤ 57) :
    c.toNat = 48 + digit c ∧ digit c < 10 := by
  obtain ⟨hlow, hhigh⟩ := h
  rw [UInt8.le_iff_toNat_le] at hlow hhigh
  have h48 : (48 : UInt8).toNat = 48 := rfl
  have h57 : (57 : UInt8).toNat = 57 := rfl
  unfold digit
  omega

theorem number_eq_value : number string = Numeral.value 10 (string.map digit) := by
  unfold number Numeral.value
  rw [List.foldl_map]
  rfl

theorem Digits.lt_ten (h : Digits string) : ∀ x ∈ string.map digit, x < 10 := by
  intro x hx
  obtain ⟨c, hc, rfl⟩ := List.mem_map.mp hx
  exact (toNat_of_digit (h c hc)).2

theorem Digits.number_lt (h : Digits string) : number string < 10 ^ string.length := by
  have hlt := Numeral.value_lt (by decide) h.lt_ten
  rwa [List.length_map, ← number_eq_value] at hlt

/-! ### Comparing with the limit -/

/-- **Comparing the digits of two numbers of the same length compares the numbers.** -/
theorem digitsFit_iff : ∀ {max : List Byte}, string.length = max.length → Digits string →
    Digits max → (digitsFit string max = true ↔ number string ≤ number max) := by
  induction string with
  | nil =>
    intro max hlen _ _
    obtain rfl := List.eq_nil_of_length_eq_zero hlen.symm
    simp [digitsFit]
  | cons c string ih =>
    intro max hlen hs hm
    cases max with
    | nil => exact absurd hlen (by simp)
    | cons m max =>
      have hlen' : string.length = max.length := Nat.succ_injective hlen
      obtain ⟨hc, hs'⟩ := List.forall_mem_cons.mp hs
      obtain ⟨hm0, hm'⟩ := List.forall_mem_cons.mp hm
      obtain ⟨hcdigit, -⟩ := toNat_of_digit hc
      obtain ⟨hmdigit, -⟩ := toNat_of_digit hm0
      -- two numbers with as many digits compare by the first digit, or else by the others
      have hstep := Numeral.value_cons_le_value_cons_iff (b := 10) (x := digit c) (y := digit m)
        (by decide) (by simpa using hlen') (Digits.lt_ten hs') (Digits.lt_ten hm')
      rw [number_eq_value, number_eq_value, List.map_cons, List.map_cons, hstep,
        ← number_eq_value, ← number_eq_value, digitsFit]
      by_cases hgt : c > m
      · have hlt : m.toNat < c.toNat := UInt8.lt_iff_toNat_lt.mp hgt
        rw [if_pos hgt]
        exact iff_of_false Bool.false_ne_true (by omega)
      · rw [if_neg hgt]
        by_cases heq : c = m
        · subst heq
          simp [ih hlen' hs' hm']
        · have hle : ¬ m.toNat < c.toNat := fun h => hgt (UInt8.lt_iff_toNat_lt.mpr h)
          have hne : c.toNat ≠ m.toNat := fun h => heq (UInt8.toNat_inj.mp h)
          rw [if_neg heq]
          exact iff_of_true rfl (Or.inl (by omega))

/-- **What `IsDecimal` accepts**: up to four digits, or five that do not exceed the limit. -/
theorem isDecimal_iff : isDecimal string = true ↔
    Digits string ∧ (string.length < 5 ∨ string.length = 5 ∧ number string ≤ 65365) := by
  have hlimit : Digits decimalStringValueMax ∧ number decimalStringValueMax = 65365 := by
    decide +kernel
  have hmax : decimalStringLenMax = 5 := rfl
  unfold isDecimal
  by_cases hd : Digits string
  · rw [if_pos (all_isDecimalChar_iff.mpr hd), and_iff_right hd]
    by_cases h0 : string.length = 0
    · simp [h0]
    · rw [if_neg h0]
      by_cases h5 : string.length = decimalStringLenMax
      · rw [if_pos h5, digitsFit_iff h5 hd hlimit.1, hlimit.2]
        simp [h5]
      · rw [if_neg h5]
        by_cases hgt : string.length > decimalStringLenMax
        · rw [if_pos hgt]
          exact iff_of_false Bool.false_ne_true (by omega)
        · rw [if_neg hgt]
          exact iff_of_true rfl (Or.inl (by omega))
  · rw [if_neg fun h => hd (all_isDecimalChar_iff.mp h)]
    exact iff_of_false Bool.false_ne_true fun h => hd h.1

/-- **`IsDecimal` is right about a string, unless that is empty or has five digits whose value lies
between the limit and `UINT16_MAX`.** -/
theorem port_validation_iff (string : List Byte) : (isDecimal string = true ↔ IsPort string) ↔
    string ≠ [] ∧ ¬ (Digits string ∧ string.length = 5 ∧ 65365 < number string ∧
      number string ≤ uint16Max) := by
  have hmax : uint16Max = 65535 := rfl
  rw [isDecimal_iff]
  by_cases hnil : string = []
  · subst hnil
    refine iff_of_false (fun h => ?_) fun h => h.1 rfl
    exact absurd (h.mp ⟨by simp [Digits], Or.inl (by decide)⟩).length_pos (by decide)
  · -- the limit is below the greatest port, so what is accepted is a port
    have hpos : 1 ≤ string.length := List.length_pos_of_ne_nil hnil
    rw [and_iff_right hnil]
    constructor
    · rintro hiff ⟨hd, hlen, hover, hfits⟩
      have hport : IsPort string := ⟨hpos, hlen.le, hd, hfits⟩
      have := (hiff.mpr hport).2
      omega
    · intro hno
      constructor
      · rintro ⟨hd, hlt | ⟨hlen, hle⟩⟩
        · have hsmall : number string < 10 ^ 4 :=
            hd.number_lt.trans_le (Nat.pow_le_pow_right (by decide) (by omega))
          exact ⟨hpos, by omega, hd, by omega⟩
        · exact ⟨hpos, hlen.le, hd, by omega⟩
      · rintro ⟨-, hle, hd, hfits⟩
        refine ⟨hd, ?_⟩
        rcases hle.lt_or_eq with hlt | hlen
        · exact Or.inl hlt
        · exact Or.inr ⟨hlen, not_lt.mp fun hover => hno ⟨hd, hlen, hover, hfits⟩⟩

/-- **The greatest port is refused, and the empty string is accepted.** -/
theorem port_65535_refused : (isDecimal (ascii "65535") = false ∧ IsPort (ascii "65535")) ∧
    isDecimal [] = true ∧ ¬ IsPort [] :=
  ⟨⟨by decide, by decide, by decide, by decide +kernel, by decide +kernel⟩, rfl,
    fun h => absurd h.length_pos (by decide)⟩

/-! ### Parsing -/

theorem toNat_digitValue {c : Byte} (h : 48 ≤ c ∧ c ≤ 57) : (digitValue c).toNat = digit c := by
  obtain ⟨hc, hlt⟩ := toNat_of_digit h
  have hsmall : c < 128 := by
    rw [UInt8.lt_iff_toNat_lt]
    change c.toNat < 128
    omega
  have hle : (48 : UInt16) ≤ c.toUInt16 := by
    rw [UInt16.le_iff_toNat_le, UInt8.toNat_toUInt16]
    change 48 ≤ c.toNat
    omega
  rw [digitValue, if_pos hsmall, UInt16.toNat_sub_of_le _ _ hle, UInt8.toNat_toUInt16]
  rfl

/-- The first `i + 1` digits end with the one at `i`. -/
theorem number_take_succ {i : ℕ} (hi : i < string.length) :
    number (string.take (i + 1)) = 10 * number (string.take i) + digit (string.getD i 0) := by
  rw [number_eq_value, number_eq_value, List.take_succ_eq_append_getElem hi, List.map_append,
    List.map_singleton, Numeral.value_append_singleton, List.getD_eq_getElem _ _ hi]

/-- **The loop of `ParseDecimal`** adds what the first `i` digits are worth to the number, in units
of the weight; everything is modulo `2 ^ 16`, so it does not matter that all of it wraps. -/
theorem toNat_parseDecimalLoop (hs : Digits string) : ∀ {i : ℕ} {val n : UInt16},
    i ≤ string.length → (parseDecimalLoop string i val n).toNat
      = (n.toNat + val.toNat * number (string.take i)) % 2 ^ 16 := by
  intro i
  induction i with
  | zero =>
    intro val n _
    rw [parseDecimalLoop, List.take_zero, number_eq_value, List.map_nil, Numeral.value_nil,
      Nat.mul_zero, Nat.add_zero, Nat.mod_eq_of_lt n.toNat_lt]
  | succ i ih =>
    intro val n hi
    have hc : 48 ≤ string.getD i 0 ∧ string.getD i 0 ≤ 57 := by
      rw [List.getD_eq_getElem _ _ hi]
      exact hs _ (List.getElem_mem hi)
    rw [parseDecimalLoop, ih (by omega), number_take_succ hi, UInt16.toNat_add, UInt16.toNat_mul,
      UInt16.toNat_mul, toNat_digitValue hc]
    generalize number (string.take i) = k
    generalize digit (string.getD i 0) = d
    have h10 : (10 : UInt16).toNat = 10 := rfl
    have hsum : (n.toNat + d * val.toNat % 2 ^ 16) % 2 ^ 16 + val.toNat * 10 % 2 ^ 16 * k ≡
        n.toNat + d * val.toNat + val.toNat * 10 * k [MOD 2 ^ 16] :=
      ((Nat.mod_modEq _ _).trans ((Nat.mod_modEq _ _).add_left _)).add
        ((Nat.mod_modEq _ _).mul_right _)
    rw [h10]
    refine hsum.trans ?_
    rw [Nat.mul_add, Nat.mul_comm d, Nat.mul_assoc, Nat.add_assoc, Nat.add_comm (val.toNat * d)]

/-- **`ParseDecimal` yields the value of the digits modulo `2 ^ 16`**, if there are so many that the
index fits, and the value itself for what `IsDecimal` accepts. -/
theorem parseDecimal_eq_number : (∀ string : List Byte, Digits string → 1 ≤ string.length →
      string.length ≤ 32768 → (parseDecimal string).toNat = number string % 2 ^ 16) ∧
    ∀ string : List Byte, string ≠ [] → isDecimal string = true →
      (parseDecimal string).toNat = number string := by
  have hparse : ∀ string : List Byte, Digits string → 1 ≤ string.length →
      string.length ≤ 32768 → (parseDecimal string).toNat = number string % 2 ^ 16 := by
    intro string hs hpos hlen
    -- the cast of the index changes nothing
    have hstart : sizeSub string.length 1 % 2 ^ 16 = string.length - 1 := by
      rw [sizeSub_of_le hpos (by omega), Nat.mod_eq_of_lt (by omega)]
    have hcount : string.length - 1 + 1 = string.length := by omega
    rw [parseDecimal, hstart]
    rw [if_pos (by omega), hcount, toNat_parseDecimalLoop hs le_rfl, List.take_length]
    change (0 + 1 * number string) % 2 ^ 16 = number string % 2 ^ 16
    rw [Nat.zero_add, Nat.one_mul]
  refine ⟨hparse, fun string hnil haccepted => ?_⟩
  have hpos : 1 ≤ string.length := List.length_pos_of_ne_nil hnil
  obtain ⟨hs, hlt | ⟨hlen, hle⟩⟩ := isDecimal_iff.mp haccepted
  · have hsmall : number string < 10 ^ 4 :=
      hs.number_lt.trans_le (Nat.pow_le_pow_right (by decide) (by omega))
    rw [hparse string hs hpos (by omega), Nat.mod_eq_of_lt (by omega)]
  · rw [hparse string hs hpos (by omega), Nat.mod_eq_of_lt (by omega)]

/-- A port that is accepted is read off its digits. -/
theorem parseDecimal_eq_number_2121 :
    (parseDecimal (ascii "2121")).toNat = number (ascii "2121") :=
  parseDecimal_eq_number.2 (ascii "2121") (by decide) (by decide)

/-- Weights and products wrap on the way through seven digits. -/
example : (parseDecimal (ascii "1234567")).toNat = 1234567 % 2 ^ 16 := by decide

end VsFtp
