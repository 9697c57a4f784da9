import Mathlib.Algebra.Ring.Nat
import Mathlib.Data.List.TakeWhile
import Mathlib.Data.List.Infix
import Mathlib.Data.List.GetD

/-!
# C strings and character arrays

A character array is the list of the bytes that are known to have been stored in
it, from its first byte on.  What lies behind them (bytes never written, or
memory past the end of the array) is not part of the list: a reader of the array
appends whatever it assumes to be there.  The size of the array is passed to the
operations as the C functions get it.

A C string is the list of its bytes, without the terminating NUL.

## Main definitions

* `cstr` — the string that starts at the beginning of an array.
* `strncpy`, `snprintf`, `strnlen`, `strncmp` — the library functions, on arrays.
* `sizeSub` — subtraction of 64-bit sizes.

## Main results

* `cstr_strncpy` — a string that fits is read back unchanged.
* `strncmp_eq_true_iff` — comparing against a text of the given length tests for a
  prefix.
-/

namespace CString

/-- A byte. -/
abbrev Byte := UInt8

/-- The bytes of an ASCII text. -/
def ascii (s : String) : List Byte := s.toList.map fun c => UInt8.ofNat c.toNat

/-- A list of bytes can be the text of a C string: it has no NUL. -/
def NoNul (s : List Byte) : Prop := (0 : Byte) ∉ s

instance (s : List Byte) : Decidable (NoNul s) := inferInstanceAs (Decidable (_ ∉ _))

/-- The string that starts at the beginning of an array. -/
def cstr (a : List Byte) : List Byte := a.takeWhile (· ≠ 0)

/-- Store `b` into `a` from offset `off` on. -/
def overwrite (a : List Byte) (off : ℕ) (b : List Byte) : List Byte :=
  a.take off ++ b ++ a.drop (off + b.length)

/-- `strncpy(&dst[off], src, n)`: exactly `n` bytes are stored, the string cut
off or padded with NULs. -/
def strncpy (dst : List Byte) (off : ℕ) (src : List Byte) (n : ℕ) : List Byte :=
  overwrite dst off (src.take n ++ List.replicate (n - src.length) 0)

/-- `snprintf(&dst[off], size, ..)` of the output `text`: what fits is stored,
always terminated.  The call returns `text.length` whether it fits or not. -/
def snprintf (dst : List Byte) (off size : ℕ) (text : List Byte) : List Byte :=
  if size = 0 then dst else overwrite dst off (text.take (size - 1) ++ [0])

/-- `strnlen(a, max)`. -/
def strnlen (a : List Byte) (max : ℕ) : ℕ := (cstr (a.take max)).length

/-- `strncmp(a, b, n) == 0`, where what lies behind a list counts as a NUL. -/
def strncmp : List Byte → List Byte → ℕ → Bool
  | _, _, 0 => true
  | a, b, n + 1 =>
      if a.headD 0 ≠ b.headD 0 then false
      else if a.headD 0 = 0 then true
      else strncmp a.tail b.tail n

/-- Subtraction of values of type `size_t`. -/
def sizeSub (a b : ℕ) : ℕ := (a + 2 ^ 64 - b) % 2 ^ 64

/-- The decimal digits of a number. -/
def decimal (n : ℕ) : List Byte := (Nat.toDigits 10 n).map fun c => UInt8.ofNat c.toNat

/-! ### Strings in arrays -/

theorem cstr_append_nul {s : List Byte} (h : NoNul s) (t : List Byte) :
    cstr (s ++ 0 :: t) = s := by
  have hs : ∀ c ∈ s, decide (c ≠ 0) = true := fun c hc => by
    simpa using fun h0 : c = 0 => h (h0 ▸ hc)
  unfold cstr
  rw [List.takeWhile_append_of_pos hs, List.takeWhile_cons_of_neg (by simp), List.append_nil]

theorem noNul_cstr (a : List Byte) : NoNul (cstr a) := by
  intro h
  simpa using List.mem_takeWhile_imp h

theorem cstr_isPrefix (a : List Byte) : cstr a <+: a := List.takeWhile_prefix _

theorem cstr_length_le (a : List Byte) : (cstr a).length ≤ a.length := (cstr_isPrefix a).length_le

theorem NoNul.append {s t : List Byte} (hs : NoNul s) (ht : NoNul t) : NoNul (s ++ t) := by
  simpa [NoNul] using ⟨hs, ht⟩

theorem NoNul.cons {c : Byte} {s : List Byte} (hc : c ≠ 0) (hs : NoNul s) : NoNul (c :: s) := by
  simpa [NoNul] using ⟨hc.symm, hs⟩

theorem NoNul.take {s : List Byte} (hs : NoNul s) (n : ℕ) : NoNul (s.take n) :=
  fun h => hs (List.mem_of_mem_take h)

theorem noNul_replicate {c : Byte} (hc : c ≠ 0) (n : ℕ) : NoNul (List.replicate n c) :=
  fun h => hc (List.eq_of_mem_replicate h).symm

theorem cstr_of_noNul {s : List Byte} (h : NoNul s) : cstr s = s := by
  unfold cstr
  rw [List.takeWhile_eq_self_iff]
  intro c hc
  simpa using fun h0 : c = 0 => h (h0 ▸ hc)

/-- A text without a NUL is part of the string it begins. -/
theorem isPrefix_cstr_append {s : List Byte} (h : NoNul s) (t : List Byte) :
    s <+: cstr (s ++ t) := by
  refine ⟨cstr t, ?_⟩
  rw [cstr, cstr, List.takeWhile_append_of_pos]
  intro c hc
  exact decide_eq_true fun h0 => h (h0 ▸ hc)

/-- What lies behind a NUL is not part of the string. -/
theorem cstr_append_zero (s t : List Byte) : cstr (s ++ 0 :: t) = cstr s := by
  unfold cstr
  induction s with
  | nil => simp
  | cons c s ih =>
    by_cases hc : c = 0
    · simp [hc]
    · rw [List.cons_append, List.takeWhile_cons_of_pos (by simpa using hc),
        List.takeWhile_cons_of_pos (by simpa using hc), ih]

/-- The string in an array with a NUL goes up to the first one. -/
theorem exists_eq_cstr_append (a t : List Byte) : ∃ t', a ++ 0 :: t = cstr a ++ 0 :: t' := by
  unfold cstr
  induction a with
  | nil => exact ⟨t, by simp⟩
  | cons c a ih =>
    by_cases hc : c = 0
    · subst hc
      exact ⟨a ++ 0 :: t, by simp⟩
    · obtain ⟨t', ht'⟩ := ih
      exact ⟨t', by simp [hc, ht']⟩

/-- A string ends at the first NUL at the latest. -/
theorem cstr_length_le_of_nul (s t : List Byte) : (cstr (s ++ 0 :: t)).length ≤ s.length := by
  rw [cstr_append_zero]
  exact cstr_length_le s

theorem overwrite_zero (a b : List Byte) : overwrite a 0 b = b ++ a.drop b.length := by
  simp [overwrite]

/-- What is stored behind a string of at most `n` bytes by `strncpy`. -/
theorem strncpy_zero {src : List Byte} {n : ℕ} (h : src.length ≤ n) (dst : List Byte) :
    strncpy dst 0 src n = src ++ List.replicate (n - src.length) 0 ++ dst.drop n := by
  unfold strncpy
  rw [overwrite_zero, List.take_of_length_le h]
  simp [Nat.add_sub_cancel' h]

/-- **A string shorter than the array is read back after `strncpy`.** -/
theorem cstr_strncpy {src : List Byte} {n : ℕ} (hs : NoNul src) (h : src.length < n)
    (dst t : List Byte) : cstr (strncpy dst 0 src n ++ t) = src := by
  obtain ⟨k, hk⟩ : ∃ k, n - src.length = k + 1 := ⟨n - src.length - 1, by omega⟩
  rw [strncpy_zero h.le, hk, List.replicate_succ]
  simpa using cstr_append_nul hs _

theorem strnlen_of_length_lt {s : List Byte} {n : ℕ} (hs : NoNul s) (h : s.length ≤ n) :
    strnlen s n = s.length := by
  unfold strnlen
  rw [List.take_of_length_le h, cstr_of_noNul hs]

theorem strnlen_of_le {s : List Byte} {n : ℕ} (hs : NoNul s) (h : n ≤ s.length) :
    strnlen s n = n := by
  unfold strnlen
  rw [cstr_of_noNul (hs.take n), List.length_take, Nat.min_eq_left h]

theorem strnlen_strncpy {src : List Byte} {n : ℕ} (hs : NoNul src) (h : src.length < n)
    (dst : List Byte) : strnlen (strncpy dst 0 src n) n = src.length := by
  obtain ⟨k, hk⟩ : ∃ k, n - src.length = k + 1 := ⟨n - src.length - 1, by omega⟩
  have hlen : (src ++ List.replicate (n - src.length) 0).length = n := by simp [h.le]
  unfold strnlen
  rw [strncpy_zero h.le, List.take_left' hlen, hk, List.replicate_succ, cstr_append_nul hs]

/-! ### Comparing -/

theorem strncmp_comm (a b : List Byte) (n : ℕ) : strncmp a b n = strncmp b a n := by
  induction n generalizing a b with
  | zero => simp [strncmp]
  | succ n ih =>
    rw [strncmp, strncmp, ih]
    by_cases h : a.headD 0 = b.headD 0
    · rw [h]
    · rw [if_pos h, if_pos (Ne.symm h)]

/-- **Comparing as many bytes as a text has tests whether it is a prefix.** -/
theorem strncmp_eq_true_iff {name : List Byte} (hn : NoNul name) : ∀ (a : List Byte),
    strncmp a name name.length = true ↔ name <+: a := by
  induction name with
  | nil => intro a; simp [strncmp]
  | cons c name ih =>
    intro a
    have hc : c ≠ 0 := fun h => hn (by simp [h])
    have hname : NoNul name := fun h => hn (by simp [h])
    cases a with
    | nil => simp [strncmp, hc.symm]
    | cons b a =>
      rw [List.length_cons, strncmp]
      by_cases hb : b = c
      · subst hb
        simp [hc, ih hname]
      · simp only [List.headD_cons, ne_eq, hb, not_false_eq_true, if_true, Bool.false_eq_true,
          false_iff]
        intro h
        exact hb (List.cons_prefix_cons.mp h).1.symm

/-- Comparing byte by byte, as far as the first text goes, tests whether it is a
prefix of a text that is no shorter. -/
theorem isPrefix_iff_getD {a b : List Byte} (hlen : a.length ≤ b.length) (t : List Byte) :
    a <+: b ↔ ∀ i < a.length, a.getD i 0 = (b ++ t).getD i 0 := by
  have hget : ∀ i < a.length, (b ++ t).getD i 0 = b.getD i 0 := fun i hi =>
    List.getD_append _ _ _ _ (by omega)
  constructor
  · rintro ⟨c, rfl⟩ i hi
    rw [hget i hi, List.getD_append _ _ _ _ hi]
  · intro h
    refine List.prefix_iff_eq_take.mpr (List.ext_getElem (by simp; omega) fun i hi _ => ?_)
    have hi' := h i hi
    rw [hget i hi, List.getD_eq_getElem _ _ hi, List.getD_eq_getElem _ _ (by omega)] at hi'
    rw [List.getElem_take, hi']

/-! ### Numbers and sizes -/

/-- A 64-bit number has at most twenty digits. -/
theorem decimal_length_le {n : ℕ} (hn : n < 2 ^ 64) : (decimal n).length ≤ 20 := by
  rw [decimal, List.length_map, Nat.length_toDigits_le_iff (by decide) (by decide)]
  omega

/-- What is printed of a number are digits. -/
theorem digit_of_mem_decimal {n : ℕ} {c : Byte} (h : c ∈ decimal n) : 48 ≤ c ∧ c ≤ 57 := by
  obtain ⟨d, hd, rfl⟩ := List.mem_map.mp h
  have hdigit := Nat.isDigit_of_mem_toDigits (by decide) (by decide) hd
  simp only [Char.isDigit, ge_iff_le, Bool.and_eq_true, decide_eq_true_eq,
    UInt32.le_iff_toNat_le] at hdigit
  have hlow : 48 ≤ d.toNat := hdigit.1
  have hhigh : d.toNat ≤ 57 := hdigit.2
  have hbyte : (UInt8.ofNat d.toNat).toNat = d.toNat := Nat.mod_eq_of_lt (by omega)
  rw [UInt8.le_iff_toNat_le, UInt8.le_iff_toNat_le, hbyte]
  exact ⟨hlow, hhigh⟩

/-- **A number is read off its digits.** -/
theorem decimal_injective : Function.Injective decimal := by
  intro n m h
  have hread : ∀ n, (decimal n).map (fun c => Char.ofNat c.toNat) = Nat.toDigits 10 n := by
    intro n
    rw [decimal, List.map_map]
    refine (List.map_congr_left fun c hc => ?_).trans (List.map_id _)
    have hdigit := Nat.isDigit_of_mem_toDigits (by decide) (by decide) hc
    have hsmall : c.toNat < 256 := by
      simp only [Char.isDigit, ge_iff_le, Bool.and_eq_true, decide_eq_true_eq,
        UInt32.le_iff_toNat_le] at hdigit
      have hval : c.val.toNat ≤ 57 := hdigit.2
      change c.val.toNat < 256
      omega
    have hbyte : (UInt8.ofNat c.toNat).toNat = c.toNat := Nat.mod_eq_of_lt hsmall
    rw [Function.comp_apply, hbyte, Char.ofNat_toNat]
    rfl
  have hdigits : Nat.toDigits 10 n = Nat.toDigits 10 m := by rw [← hread, h, hread]
  have hvalue := congrArg (fun ds => Nat.ofDigitChars 10 ds 0) hdigits
  simpa only [Nat.ofDigitChars_ten_toDigits] using hvalue

/-- Reading no more than an array is known to contain. -/
theorem map_getD_range {a : List Byte} {n : ℕ} (h : n ≤ a.length) (t : List Byte) :
    (List.range n).map ((a ++ t).getD · 0) = a.take n := by
  refine List.ext_getElem (by simp [h]) fun i hi _ => ?_
  have hia : i < a.length := by
    rw [List.length_map, List.length_range] at hi
    omega
  simp [List.getElem?_append_left hia, List.getElem?_eq_getElem hia]

/-- Reading over the end of the first part of an array. -/
theorem map_getD_range_append (a b : List Byte) (n : ℕ) :
    (List.range (a.length + n)).map ((a ++ b).getD · 0) = a ++ (List.range n).map (b.getD · 0) := by
  rw [List.range_add, List.map_append, map_getD_range le_rfl, List.take_length, List.map_map]
  congr 1
  refine List.map_congr_left fun i _ => ?_
  change (a ++ b).getD (a.length + i) 0 = b.getD i 0
  rw [List.getD_append_right _ _ _ _ (Nat.le_add_right _ _), Nat.add_sub_cancel_left]

theorem sizeSub_of_le {a b : ℕ} (hba : b ≤ a) (ha : a < 2 ^ 64) : sizeSub a b = a - b := by
  unfold sizeSub
  omega

end CString
