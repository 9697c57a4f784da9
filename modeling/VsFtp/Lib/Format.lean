import VsFtp.Lib.CString
import VsFtp.Lib.Numeral

/-!
# Formats with one argument

What `printf` makes of a format that comes with one argument, of type `size_t`, on a system with
64-bit words.  A conversion that prints an integer of that width takes it.  Any other conversion,
and every one behind it, lacks an argument of its type, so that what is printed is not determined.
The conversions are those of the C standard: what it leaves undefined is undefined here, also where
a library gives it a meaning.

## Main definitions

* `Conversion` — a conversion specification that prints an integer.
* `readConversion` — the specification behind a percent sign.
* `Conversion.text` — what it prints.
* `formatText` — the output of a format.

## Main results

* `formatText_of_plain`, `formatText_ne` — **a format is printed as it is if and only if it has no
  percent sign.**
* `formatText_slash` — what is printed ends in a slash only if the format does.
* `mem_formatText` — what is printed besides the bytes of the format can be seen.
-/

namespace CString

/-! ### Conversion specifications -/

/-- The flags: `-`, `+`, the space, `#` and `0`. -/
def isFlag (c : Byte) : Bool := c = 45 || c = 43 || c = 32 || c = 35 || c = 48

/-- The decimal digits. -/
def isDigit (c : Byte) : Bool := 48 ≤ c && c ≤ 57

/-- The length modifiers `z`, `l`, `j` and `t`, whose types all have the width of `size_t`. -/
def isModifier (c : Byte) : Bool := c = 122 || c = 108 || c = 106 || c = 116

/-- The letters of the conversions that print an integer with a sign: `d` and `i`. -/
def isSigned (c : Byte) : Bool := c = 100 || c = 105

/-- The letters of the conversions that print an integer without a sign: `u`, `o`, `x` and `X`. -/
def isUnsigned (c : Byte) : Bool := c = 117 || c = 111 || c = 120 || c = 88

/-- A conversion specification that prints an integer. -/
structure Conversion where
  flags : List Byte
  width : ℕ
  precision : Option ℕ
  letter : Byte
  deriving DecidableEq, Repr

/-- The number at the start of a text, and what follows it. -/
def readNumber (fmt : List Byte) : ℕ × List Byte :=
  (Numeral.value 10 ((fmt.takeWhile isDigit).map (·.toNat - 48)), fmt.dropWhile isDigit)

/-- The precision at the start of a text: a dot and a number, which may be left out. -/
def readPrecision : List Byte → Option ℕ × List Byte
  | [] => (none, [])
  | c :: fmt => if c = 46 then ((readNumber fmt).1, (readNumber fmt).2) else (none, c :: fmt)

/-- The specification behind a percent sign, and the rest of the format.  `#` goes with `o`, `x` and
`X` only. -/
def readConversion (fmt : List Byte) : Option (Conversion × List Byte) :=
  let flags := fmt.takeWhile isFlag
  let (width, fmt) := readNumber (fmt.dropWhile isFlag)
  let (precision, fmt) := readPrecision fmt
  match fmt with
  | modifier :: letter :: fmt =>
      if isModifier modifier = false then none
      else if isSigned letter = false ∧ isUnsigned letter = false then none
      else if 35 ∈ flags ∧ (isSigned letter = true ∨ letter = 117) then none
      else some (⟨flags, width, precision, letter⟩, fmt)
  | _ => none

namespace Conversion

variable (c : Conversion) (n : ℕ)

/-- The base of the digits. -/
def base : ℕ := if c.letter = 111 then 8 else if c.letter = 120 ∨ c.letter = 88 then 16 else 10

/-- A digit, which is a capital letter for `X`. -/
def digit (k : ℕ) : Byte :=
  UInt8.ofNat (if k < 10 then 48 + k else if c.letter = 88 then 55 + k else 87 + k)

/-- The digits of the number, as many as the precision asks for at least.  `#` makes an octal number
start with a zero. -/
def digits : List Byte :=
  let digits := (Nat.digits c.base n).reverse.map c.digit
  let digits := List.replicate (c.precision.getD 1 - digits.length) 48 ++ digits
  if c.letter = 111 ∧ 35 ∈ c.flags ∧ digits.head? ≠ some 48 then 48 :: digits else digits

/-- What stands before the digits: a sign, or the mark of a hexadecimal number. -/
def lead : List Byte :=
  if isSigned c.letter = true then
    if 43 ∈ c.flags then [43] else if 32 ∈ c.flags then [32] else []
  else if (c.letter = 120 ∨ c.letter = 88) ∧ 35 ∈ c.flags ∧ n ≠ 0 then [48, c.letter]
  else []

/-- What the conversion prints of a number that its type can represent. -/
def text : List Byte :=
  let fill := c.width - ((c.lead n).length + (c.digits n).length)
  if 45 ∈ c.flags then c.lead n ++ c.digits n ++ List.replicate fill 32
  else if 48 ∈ c.flags ∧ c.precision = none then c.lead n ++ List.replicate fill 48 ++ c.digits n
  else List.replicate fill 32 ++ c.lead n ++ c.digits n

end Conversion

/-! ### Formats -/

/-- The output of a format without an argument: it has no conversion but `%%`. -/
def literalText : List Byte → Option (List Byte)
  | [] => some []
  | [c] => if c = 37 then none else some [c]
  | c :: d :: fmt =>
      if c ≠ 37 then (literalText (d :: fmt)).map (c :: ·)
      else if d = 37 then (literalText fmt).map (c :: ·)
      else none

/-- The output of a format whose argument is the number `n`, of type `size_t`.  The first conversion
that is not `%%` takes the argument. -/
def formatText : List Byte → ℕ → Option (List Byte)
  | [], _ => some []
  | [c], _ => if c = 37 then none else some [c]
  | c :: d :: fmt, n =>
      if c ≠ 37 then (formatText (d :: fmt) n).map (c :: ·)
      else if d = 37 then (formatText fmt n).map (c :: ·)
      else (readConversion (d :: fmt)).bind fun out =>
        (literalText out.2).map (out.1.text n ++ ·)

example : formatText (ascii "/srv/%zu %%") 8 = some (ascii "/srv/8 %") := by decide

/-! ### What is read -/

theorem readNumber_suffix (fmt : List Byte) : (readNumber fmt).2 <:+ fmt :=
  List.dropWhile_suffix _

theorem readPrecision_suffix (fmt : List Byte) : (readPrecision fmt).2 <:+ fmt := by
  cases fmt with
  | nil => exact List.suffix_rfl
  | cons c fmt =>
    rw [readPrecision]
    split
    · exact (readNumber_suffix fmt).trans (List.suffix_cons c fmt)
    · exact List.suffix_rfl

/-- A specification is read from the start of the format, and has a letter. -/
theorem readConversion_spec {fmt rest : List Byte} {c : Conversion}
    (h : readConversion fmt = some (c, rest)) :
    rest <:+ fmt ∧ (isSigned c.letter = true ∨ isUnsigned c.letter = true) := by
  have hsuffix := (readPrecision_suffix (readNumber (fmt.dropWhile isFlag)).2).trans
    ((readNumber_suffix _).trans (List.dropWhile_suffix isFlag))
  unfold readConversion at h
  dsimp only at h
  split at h
  · next modifier letter tail htail =>
    rw [htail] at hsuffix
    split_ifs at h with hmodifier hletter hflag
    obtain ⟨rfl, rfl⟩ := Prod.mk.inj (Option.some.inj h)
    refine ⟨(List.suffix_cons letter _).trans ((List.suffix_cons modifier _).trans hsuffix), ?_⟩
    by_contra hno
    rw [not_or, Bool.not_eq_true, Bool.not_eq_true] at hno
    exact hletter hno
  · exact absurd h (by simp)

/-! ### What is printed -/

/-- A byte that a conversion can print: it can be seen, or is a space, and it is no percent sign
and no slash. -/
def IsShown (b : Byte) : Prop := 32 ≤ b ∧ b ≠ 37 ∧ b ≠ 47

instance (b : Byte) : Decidable (IsShown b) := inferInstanceAs (Decidable (_ ∧ _))

theorem isShown_ofNat {k : ℕ} (hlow : 47 < k) (hhigh : k < 256) : IsShown (UInt8.ofNat k) := by
  have hbyte : (UInt8.ofNat k).toNat = k := Nat.mod_eq_of_lt hhigh
  have hne : ∀ b : Byte, b.toNat ≤ 47 → UInt8.ofNat k ≠ b := by
    intro b hb h0
    have h1 := congrArg UInt8.toNat h0
    rw [hbyte] at h1
    omega
  refine ⟨?_, hne 37 (by decide), hne 47 (by decide)⟩
  rw [UInt8.le_iff_toNat_le, hbyte]
  exact Nat.le_trans (by decide) hlow

theorem isShown_digit (c : Conversion) {k : ℕ} (hk : k < 16) : IsShown (c.digit k) := by
  unfold Conversion.digit
  split_ifs <;> exact isShown_ofNat (by omega) (by omega)

theorem isShown_replicate {b x : Byte} {n : ℕ} (hb : IsShown b) (h : x ∈ List.replicate n b) :
    IsShown x := List.eq_of_mem_replicate h ▸ hb

theorem isShown_digits {c : Conversion} {n : ℕ} {b : Byte} (h : b ∈ c.digits n) : IsShown b := by
  have hbase : 1 < c.base ∧ c.base ≤ 16 := by
    unfold Conversion.base
    split_ifs <;> decide
  have hdigits : b ∈ List.replicate (c.precision.getD 1 -
      ((Nat.digits c.base n).reverse.map c.digit).length) 48 ++
        (Nat.digits c.base n).reverse.map c.digit → IsShown b := by
    intro hb
    rcases List.mem_append.mp hb with hb | hb
    · exact isShown_replicate (by decide) hb
    · obtain ⟨k, hk, rfl⟩ := List.mem_map.mp hb
      have hlt := Nat.digits_lt_base hbase.1 (List.mem_reverse.mp hk)
      exact isShown_digit c (by omega)
  unfold Conversion.digits at h
  dsimp only at h
  split at h
  · rcases List.mem_cons.mp h with rfl | h
    · decide
    · exact hdigits h
  · exact hdigits h

theorem isShown_lead {c : Conversion} {n : ℕ} {b : Byte} (h : b ∈ c.lead n) : IsShown b := by
  unfold Conversion.lead at h
  split_ifs at h with h1 h2 h3 h4
  · obtain rfl := List.mem_singleton.mp h
    decide
  · obtain rfl := List.mem_singleton.mp h
    decide
  · exact absurd h List.not_mem_nil
  · rcases List.mem_cons.mp h with rfl | h
    · decide
    · obtain rfl := List.mem_singleton.mp h
      rcases h4.1 with h0 | h0 <;> rw [h0] <;> decide
  · exact absurd h List.not_mem_nil

/-- **What a conversion prints can be seen.** -/
theorem isShown_text {c : Conversion} {n : ℕ} {b : Byte} (h : b ∈ c.text n) : IsShown b := by
  unfold Conversion.text at h
  dsimp only at h
  split_ifs at h <;> simp only [List.mem_append] at h <;> rcases h with (h | h) | h <;>
    first
    | exact isShown_lead h
    | exact isShown_digits h
    | exact isShown_replicate (by decide) h

/-- Printing a text takes percent signs away, if it has one. -/
theorem literalText_count {s t : List Byte} (h : literalText s = some t) :
    t.count 37 ≤ s.count 37 := by
  fun_induction literalText s generalizing t with
  | case1 =>
    obtain rfl := Option.some.inj h
    exact le_rfl
  | case2 => simp at h
  | case3 c hc =>
    obtain rfl := Option.some.inj h
    exact le_rfl
  | case4 c d fmt hc ih =>
    obtain ⟨u, hu, rfl⟩ := Option.map_eq_some_iff.mp h
    rw [List.count_cons, List.count_cons]
    exact Nat.add_le_add_right (ih hu) _
  | case5 c fmt hc ih =>
    obtain ⟨u, hu, rfl⟩ := Option.map_eq_some_iff.mp h
    have hle := ih hu
    rw [List.count_cons, List.count_cons, List.count_cons]
    omega
  | case6 => simp at h

theorem literalText_subset {s t : List Byte} (h : literalText s = some t) : t ⊆ s := by
  fun_induction literalText s generalizing t with
  | case1 =>
    obtain rfl := Option.some.inj h
    exact List.Subset.refl _
  | case2 => simp at h
  | case3 c hc =>
    obtain rfl := Option.some.inj h
    exact List.Subset.refl _
  | case4 c d fmt hc ih =>
    obtain ⟨u, hu, rfl⟩ := Option.map_eq_some_iff.mp h
    exact List.cons_subset_cons c (ih hu)
  | case5 c fmt hc ih =>
    obtain ⟨u, hu, rfl⟩ := Option.map_eq_some_iff.mp h
    exact List.cons_subset_cons c (List.Subset.trans (ih hu) (List.subset_cons_self _ _))
  | case6 => simp at h

/-- A text without a percent sign is printed as it is. -/
theorem formatText_of_plain {s : List Byte} (h : (37 : Byte) ∉ s) (n : ℕ) :
    formatText s n = some s := by
  induction s with
  | nil => rfl
  | cons c s ih =>
    have hc : c ≠ 37 := fun h0 => h (by simp [h0])
    have hs : (37 : Byte) ∉ s := fun h0 => h (by simp [h0])
    cases s with
    | nil => simp [formatText, hc]
    | cons d s => simp [formatText, hc, ih hs]

/-- Printing a format takes percent signs away, if it has one. -/
theorem formatText_count {s t : List Byte} {n : ℕ} (h : formatText s n = some t) :
    t.count 37 ≤ s.count 37 ∧ ((37 : Byte) ∈ s → t.count 37 < s.count 37) := by
  fun_induction formatText s n generalizing t with
  | case1 =>
    obtain rfl := Option.some.inj h
    exact ⟨le_rfl, fun hmem => absurd hmem List.not_mem_nil⟩
  | case2 => simp at h
  | case3 c n hc =>
    obtain rfl := Option.some.inj h
    exact ⟨le_rfl, fun hmem => absurd (List.mem_singleton.mp hmem).symm hc⟩
  | case4 c d fmt n hc ih =>
    obtain ⟨u, hu, rfl⟩ := Option.map_eq_some_iff.mp h
    obtain ⟨hle, hlt⟩ := ih hu
    rw [List.count_cons, List.count_cons]
    refine ⟨Nat.add_le_add_right hle _, fun hmem => Nat.add_lt_add_right (hlt ?_) _⟩
    exact (List.mem_cons.mp hmem).resolve_left fun h0 => hc h0.symm
  | case5 c fmt n hc ih =>
    obtain ⟨u, hu, rfl⟩ := Option.map_eq_some_iff.mp h
    obtain rfl : c = 37 := not_not.mp hc
    have hle := (ih hu).1
    rw [List.count_cons_self, List.count_cons_self, List.count_cons_self]
    exact ⟨by omega, fun _ => by omega⟩
  | case6 c d fmt n hc hd =>
    obtain rfl : c = 37 := not_not.mp hc
    obtain ⟨⟨conv, rest⟩, hconv, hrest⟩ := Option.bind_eq_some_iff.mp h
    obtain ⟨u, hu, rfl⟩ := Option.map_eq_some_iff.mp hrest
    -- the conversion prints none, and its own sign is gone
    have hnone : (conv.text n).count 37 = 0 :=
      List.count_eq_zero.mpr fun h0 => (isShown_text h0).2.1 rfl
    have hle := literalText_count hu
    have hsub := (readConversion_spec hconv).1.sublist.count_le (37 : Byte)
    rw [List.count_append, hnone, List.count_cons_self]
    dsimp only at hle
    exact ⟨by omega, fun _ => by omega⟩

/-- **A format with a percent sign is not printed as it is.** -/
theorem formatText_ne {s t : List Byte} {n : ℕ} (hs : (37 : Byte) ∈ s)
    (h : formatText s n = some t) : t ≠ s := by
  rintro rfl
  exact absurd ((formatText_count h).2 hs) (lt_irrefl _)

/-- **What is printed besides the bytes of the format can be seen.** -/
theorem mem_formatText {s t : List Byte} {n : ℕ} {b : Byte} (h : formatText s n = some t)
    (hb : b ∈ t) : b ∈ s ∨ IsShown b := by
  fun_induction formatText s n generalizing t with
  | case1 =>
    obtain rfl := Option.some.inj h
    exact Or.inl hb
  | case2 => simp at h
  | case3 c n hc =>
    obtain rfl := Option.some.inj h
    exact Or.inl hb
  | case4 c d fmt n hc ih =>
    obtain ⟨u, hu, rfl⟩ := Option.map_eq_some_iff.mp h
    rcases List.mem_cons.mp hb with rfl | hb
    · exact Or.inl List.mem_cons_self
    · exact (ih hu hb).imp_left (List.mem_cons_of_mem c)
  | case5 c fmt n hc ih =>
    obtain ⟨u, hu, rfl⟩ := Option.map_eq_some_iff.mp h
    rcases List.mem_cons.mp hb with rfl | hb
    · exact Or.inl List.mem_cons_self
    · exact (ih hu hb).imp_left fun h0 => List.mem_cons_of_mem c (List.mem_cons_of_mem 37 h0)
  | case6 c d fmt n hc hd =>
    obtain ⟨⟨conv, rest⟩, hconv, hrest⟩ := Option.bind_eq_some_iff.mp h
    obtain ⟨u, hu, rfl⟩ := Option.map_eq_some_iff.mp hrest
    rcases List.mem_append.mp hb with hb | hb
    · exact Or.inr (isShown_text hb)
    · exact Or.inl (List.mem_cons_of_mem c
        ((readConversion_spec hconv).1.subset (literalText_subset hu hb)))

/-- A conversion prints something of a number that is not zero. -/
theorem text_ne_nil (c : Conversion) {n : ℕ} (hn : n ≠ 0) : c.text n ≠ [] := by
  have hdigits : c.digits n ≠ [] := by
    unfold Conversion.digits
    dsimp only
    split_ifs
    · exact List.cons_ne_nil _ _
    · simp [Nat.digits_ne_nil_iff_ne_zero.mpr hn]
  unfold Conversion.text
  dsimp only
  split_ifs <;> simp [hdigits]

/-- What ends in a slash behind another byte does so without it, unless it is the slash. -/
theorem slash_suffix_cons {c : Byte} {u : List Byte} (hu : u ≠ []) (h : [47] <:+ c :: u) :
    [47] <:+ u := by
  rcases List.suffix_cons_iff.mp h with h | h
  · exact absurd (List.cons.inj h).2.symm hu
  · exact h

/-- Of a format that is not empty something is printed. -/
theorem literalText_ne_nil {s t : List Byte} (hs : s ≠ []) (h : literalText s = some t) :
    t ≠ [] := by
  rintro rfl
  fun_cases literalText s <;> simp_all [literalText]

/-- An output ends in a slash only if the format does. -/
theorem literalText_slash {s t : List Byte} (h : literalText s = some t) (ht : [47] <:+ t) :
    [47] <:+ s := by
  fun_induction literalText s generalizing t with
  | case1 =>
    obtain rfl := Option.some.inj h
    exact ht
  | case2 => simp at h
  | case3 c hc =>
    obtain rfl := Option.some.inj h
    exact ht
  | case4 c d fmt hc ih =>
    obtain ⟨u, hu, rfl⟩ := Option.map_eq_some_iff.mp h
    have hne := literalText_ne_nil (List.cons_ne_nil d fmt) hu
    exact (ih hu (slash_suffix_cons hne ht)).trans (List.suffix_cons _ _)
  | case5 c fmt hc ih =>
    obtain ⟨u, hu, rfl⟩ := Option.map_eq_some_iff.mp h
    obtain rfl : c = 37 := not_not.mp hc
    rcases List.suffix_cons_iff.mp ht with h0 | ht
    · exact absurd (List.cons.inj h0).1 (by decide)
    · exact ((ih hu ht).trans (List.suffix_cons _ _)).trans (List.suffix_cons _ _)
  | case6 => simp at h

/-- Something is printed of a format that is not empty, if the argument is not zero. -/
theorem formatText_ne_nil {s t : List Byte} {n : ℕ} (hn : n ≠ 0) (hs : s ≠ [])
    (h : formatText s n = some t) : t ≠ [] := by
  rintro rfl
  fun_cases formatText s n with
  | case6 c d fmt _ hc hd =>
    rw [formatText, if_neg hc, if_neg hd] at h
    obtain ⟨⟨conv, rest⟩, -, hrest⟩ := Option.bind_eq_some_iff.mp h
    obtain ⟨u, -, hu⟩ := Option.map_eq_some_iff.mp hrest
    exact text_ne_nil conv hn (List.append_eq_nil_iff.mp hu).1
  | _ => simp_all [formatText]

/-- **The output ends in a slash only if the format does**, if the number is not zero. -/
theorem formatText_slash {s t : List Byte} {n : ℕ} (hn : n ≠ 0) (h : formatText s n = some t)
    (ht : [47] <:+ t) : [47] <:+ s := by
  fun_induction formatText s n generalizing t with
  | case1 =>
    obtain rfl := Option.some.inj h
    exact ht
  | case2 => simp at h
  | case3 c n hc =>
    obtain rfl := Option.some.inj h
    exact ht
  | case4 c d fmt n hc ih =>
    obtain ⟨u, hu, rfl⟩ := Option.map_eq_some_iff.mp h
    have hne := formatText_ne_nil hn (List.cons_ne_nil d fmt) hu
    exact (ih hn hu (slash_suffix_cons hne ht)).trans (List.suffix_cons _ _)
  | case5 c fmt n hc ih =>
    obtain ⟨u, hu, rfl⟩ := Option.map_eq_some_iff.mp h
    obtain rfl : c = 37 := not_not.mp hc
    rcases List.suffix_cons_iff.mp ht with h0 | ht
    · exact absurd (List.cons.inj h0).1 (by decide)
    · exact ((ih hn hu ht).trans (List.suffix_cons _ _)).trans (List.suffix_cons _ _)
  | case6 c d fmt n hc hd =>
    obtain ⟨⟨conv, rest⟩, hconv, hrest⟩ := Option.bind_eq_some_iff.mp h
    obtain ⟨u, hu, rfl⟩ := Option.map_eq_some_iff.mp hrest
    have hsuffix := (readConversion_spec hconv).1.trans (List.suffix_cons c _)
    cases u with
    | nil =>
      -- what a conversion prints has no slash
      rw [List.append_nil] at ht
      exact absurd rfl (isShown_text (ht.subset (List.mem_singleton_self 47))).2.2
    | cons b u =>
      have hu' : [47] <:+ b :: u :=
        List.suffix_of_suffix_length_le ht (List.suffix_append _ _) (by simp)
      exact (literalText_slash hu hu').trans hsuffix

theorem NoNul.formatText {s t : List Byte} {n : ℕ} (hs : NoNul s)
    (h : CString.formatText s n = some t) : NoNul t :=
  fun h0 => (mem_formatText h h0).elim hs fun h1 => absurd h1.1 (by decide)

end CString
