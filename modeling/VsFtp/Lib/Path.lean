import Mathlib.Data.List.TakeWhile
import Mathlib.Data.List.Infix

/-!
# Canonical paths and the tree below a directory

A canonical path is determined by its components: names that are not empty and
do not contain the separator.  Its text starts with the separator and ends in
none, except for the root of everything, whose text is the separator alone.  The
tree of a directory consists of the paths whose components extend the
directory's.

On texts this is *not* the prefix relation: a path next to a directory whose name
merely begins with the directory's name has the directory's text as a prefix
too.  The results below say exactly how the two differ.

## Main definitions

* `Path.render` — the text of a path with the given components.
* `Path.Canonical` — texts of paths.
* `Path.Within` — the tree of a directory, by components.
* `Path.Below`, `Path.InTree` — the same on texts.
* `Path.Sibling` — a text that extends the directory's without starting a new
  component.

## Main results

* `Path.inTree_iff_within` — **on canonical texts `InTree` is the component-wise
  tree.**
* `Path.prefix_iff` — the prefix relation is `InTree` or `Sibling`.
* `Path.not_inTree_of_sibling` — the two exclude each other.
-/

namespace Path

variable {α : Type*} (sep : α)

/-- A component: not empty and without separators. -/
def IsName (c : List α) : Prop := c ≠ [] ∧ sep ∉ c

instance [DecidableEq α] (c : List α) : Decidable (IsName sep c) :=
  inferInstanceAs (Decidable (_ ∧ _))

/-- The components, each behind a separator. -/
def joined : List (List α) → List α
  | [] => []
  | c :: cs => sep :: (c ++ joined cs)

/-- The text of the path with the given components. -/
def render : List (List α) → List α
  | [] => [sep]
  | c :: cs => joined sep (c :: cs)

/-- The text of some path. -/
def Canonical (p : List α) : Prop := ∃ cs, (∀ c ∈ cs, IsName sep c) ∧ p = render sep cs

/-- The tree of `root`, by components. -/
def Within (root p : List α) : Prop :=
  ∃ rs cs, (∀ c ∈ rs, IsName sep c) ∧ (∀ c ∈ cs, IsName sep c) ∧
    root = render sep rs ∧ p = render sep cs ∧ rs <+: cs

/-- `p` lies below `root`: it is the text of `root`, a separator and a rest, or
anything absolute if `root` is the root of everything. -/
def Below [DecidableEq α] (root p : List α) : Prop :=
  if root = [sep] then [sep] <+: p else root ++ [sep] <+: p

/-- `p` is `root` or lies below it. -/
def InTree [DecidableEq α] (root p : List α) : Prop := p = root ∨ Below sep root p

/-- `p` extends the text of `root`, but not by a whole component. -/
def Sibling (root p : List α) : Prop :=
  root ≠ [sep] ∧ ∃ c rest, c ≠ sep ∧ p = root ++ c :: rest

instance [DecidableEq α] (root p : List α) : Decidable (Below sep root p) := by
  unfold Below; infer_instance

instance [DecidableEq α] (root p : List α) : Decidable (InTree sep root p) :=
  inferInstanceAs (Decidable (_ ∨ _))

variable {sep}

/-! ### Texts of paths -/

theorem IsName.pos {c : List α} (h : IsName sep c) : 0 < c.length :=
  List.length_pos_of_ne_nil h.1

/-- What is joined is empty or starts with the separator. -/
theorem joined_eq_nil_or (cs : List (List α)) :
    joined sep cs = [] ∨ ∃ t, joined sep cs = sep :: t := by
  cases cs with
  | nil => exact Or.inl rfl
  | cons c cs => exact Or.inr ⟨_, rfl⟩

theorem render_eq_cons (cs : List (List α)) : ∃ t, render sep cs = sep :: t := by
  cases cs with
  | nil => exact ⟨[], rfl⟩
  | cons c cs => exact ⟨_, rfl⟩

theorem Canonical.eq_cons {p : List α} (h : Canonical sep p) : ∃ t, p = sep :: t := by
  obtain ⟨cs, -, rfl⟩ := h
  exact render_eq_cons cs

theorem Canonical.ne_nil {p : List α} (h : Canonical sep p) : p ≠ [] := by
  obtain ⟨t, rfl⟩ := h.eq_cons
  simp

theorem Canonical.length_pos {p : List α} (h : Canonical sep p) : 0 < p.length :=
  List.length_pos_of_ne_nil h.ne_nil

theorem Canonical.sep_isPrefix {p : List α} (h : Canonical sep p) : [sep] <+: p := by
  obtain ⟨t, rfl⟩ := h.eq_cons
  exact ⟨t, rfl⟩

/-- What is joined of names does not end with the separator, as the last name does not. -/
theorem joined_ne_append_sep {cs : List (List α)} (hcs : ∀ c ∈ cs, IsName sep c) :
    ∀ q, joined sep cs ≠ q ++ [sep] := by
  induction cs with
  | nil => simp [joined]
  | cons c cs ih =>
    intro q h
    obtain ⟨hne, hsep⟩ := hcs c (by simp)
    rcases List.eq_nil_or_concat' (joined sep cs) with hnil | ⟨r, x, hr⟩
    · obtain ⟨c', y, rfl⟩ := (List.eq_nil_or_concat' c).resolve_left hne
      rw [joined, hnil, List.append_nil, ← List.cons_append] at h
      obtain rfl : y = sep := (List.append_inj' h rfl).2 |> List.singleton_inj.mp
      simp at hsep
    · rw [joined, hr, ← List.append_assoc, ← List.cons_append] at h
      obtain rfl : x = sep := (List.append_inj' h rfl).2 |> List.singleton_inj.mp
      exact ih (fun c hc => hcs c (by simp [hc])) r hr

/-- Only the root of everything ends with the separator. -/
theorem Canonical.eq_nil_of_append {q : List α} (h : Canonical sep (q ++ [sep])) : q = [] := by
  obtain ⟨cs, hcs, h⟩ := h
  cases cs with
  | nil => simpa [render] using h
  | cons c cs => exact absurd h.symm (joined_ne_append_sep hcs q)

/-- A symbol of a text is the separator or occurs in a component. -/
theorem mem_joined {x : α} {cs : List (List α)} (h : x ∈ joined sep cs) :
    x = sep ∨ ∃ c ∈ cs, x ∈ c := by
  induction cs with
  | nil => simp [joined] at h
  | cons c cs ih =>
    rw [joined, List.mem_cons, List.mem_append] at h
    rcases h with h | h | h
    · exact Or.inl h
    · exact Or.inr ⟨c, by simp, h⟩
    · rcases ih h with h | ⟨d, hd, hx⟩
      · exact Or.inl h
      · exact Or.inr ⟨d, by simp [hd], hx⟩

theorem mem_render {x : α} {cs : List (List α)} (h : x ∈ render sep cs) :
    x = sep ∨ ∃ c ∈ cs, x ∈ c := by
  cases cs with
  | nil => exact Or.inl (by simpa [render] using h)
  | cons c cs => exact mem_joined h

theorem render_ne_singleton {c : List α} {cs : List (List α)} (hc : IsName sep c) :
    render sep (c :: cs) ≠ [sep] := by
  intro h
  have hlen := congrArg List.length h
  simp only [render, joined, List.length_cons, List.length_append, List.length_nil] at hlen
  have hpos := hc.pos
  omega

/-- Behind its first separator a path does not start with another one. -/
theorem Canonical.not_sep_sep {p : List α} (h : Canonical sep p) : ¬ [sep, sep] <+: p := by
  obtain ⟨cs, hcs, rfl⟩ := h
  cases cs with
  | nil => exact fun h => absurd h.length_le (by simp [render])
  | cons c cs =>
    have hc := hcs c (by simp)
    obtain ⟨a, c', rfl⟩ := List.exists_cons_of_ne_nil hc.1
    intro h
    simp only [render, joined, List.cons_append, List.cons_prefix_cons] at h
    exact hc.2 (by simp [h.2.1])

/-! ### Texts and components -/

/-- Two names followed by an end or a separator are read off the same text. -/
theorem name_append_inj {r q x y : List α} (hr : sep ∉ r) (hq : sep ∉ q)
    (hx : x = [] ∨ ∃ t, x = sep :: t) (hy : y = [] ∨ ∃ t, y = sep :: t)
    (h : r ++ x = q ++ y) : r = q ∧ x = y := by
  induction r generalizing q with
  | nil =>
    cases q with
    | nil => exact ⟨rfl, h⟩
    | cons b q =>
      have hb : b ≠ sep := fun h0 => hq (by simp [h0])
      rcases hx with rfl | ⟨t, rfl⟩
      · simp at h
      · exact absurd (List.cons.inj h).1.symm hb
  | cons a r ih =>
    have ha : a ≠ sep := fun h0 => hr (by simp [h0])
    cases q with
    | nil =>
      rcases hy with rfl | ⟨t, rfl⟩
      · simp at h
      · exact absurd (List.cons.inj h).1 ha
    | cons b q =>
      rw [List.cons_append, List.cons_append, List.cons.injEq] at h
      obtain ⟨rfl, h⟩ := h
      obtain ⟨rfl, rfl⟩ := ih (fun h0 => hr (List.mem_cons_of_mem _ h0))
        (fun h0 => hq (List.mem_cons_of_mem _ h0)) h
      exact ⟨rfl, rfl⟩

/-- **Extending the components is extending the text by a separator and a
rest.** -/
theorem joined_prefix_iff {rs : List (List α)} : ∀ {cs : List (List α)},
    (∀ c ∈ rs, IsName sep c) → (∀ c ∈ cs, IsName sep c) →
      (rs <+: cs ↔ joined sep cs = joined sep rs ∨ joined sep rs ++ [sep] <+: joined sep cs) := by
  induction rs with
  | nil =>
    intro cs _ _
    refine iff_of_true List.nil_prefix ?_
    rcases @joined_eq_nil_or α sep cs with h | ⟨t, h⟩
    · exact Or.inl h
    · exact Or.inr ⟨t, by rw [h]; rfl⟩
  | cons r rs ih =>
    intro cs hrs hcs
    cases cs with
    | nil => simp [joined]
    | cons c cs =>
      have ih := @ih cs (fun d hd => hrs d (by simp [hd])) (fun d hd => hcs d (by simp [hd]))
      have hr : sep ∉ r := (hrs r (by simp)).2
      have hc : sep ∉ c := (hcs c (by simp)).2
      rw [List.cons_prefix_cons, ih]
      simp only [joined, List.cons_append, List.cons.injEq, true_and, List.cons_prefix_cons]
      constructor
      · rintro ⟨rfl, h | h⟩
        · exact Or.inl (by rw [h])
        · refine Or.inr ?_
          rw [List.append_assoc]
          exact (List.prefix_append_right_inj r).mpr h
      · rintro (h | ⟨z, h⟩)
        · obtain ⟨hcr, h⟩ := name_append_inj hc hr (joined_eq_nil_or cs) (joined_eq_nil_or rs) h
          exact ⟨hcr.symm, Or.inl h⟩
        · -- the text continues behind `rs`, so what follows `r` starts a component
          have hx : joined sep rs ++ [sep] ++ z = [] ∨
            ∃ t, joined sep rs ++ [sep] ++ z = sep :: t := by
            rcases @joined_eq_nil_or α sep rs with h0 | ⟨t, h0⟩
            · exact Or.inr ⟨z, by rw [h0]; rfl⟩
            · exact Or.inr ⟨t ++ [sep] ++ z, by rw [h0]; rfl⟩
          have h' : r ++ (joined sep rs ++ [sep] ++ z) = c ++ joined sep cs := by
            rw [← h]; simp
          obtain ⟨hrc, h'⟩ := name_append_inj hr hc hx (joined_eq_nil_or cs) h'
          exact ⟨hrc, Or.inr ⟨z, h'⟩⟩

section Tree

variable [DecidableEq α]

/-- The tree of a directory on rendered components. -/
theorem inTree_render_iff {rs cs : List (List α)} (hrs : ∀ c ∈ rs, IsName sep c)
    (hcs : ∀ c ∈ cs, IsName sep c) :
    InTree sep (render sep rs) (render sep cs) ↔ rs <+: cs := by
  unfold InTree Below
  cases rs with
  | nil =>
    obtain ⟨t, ht⟩ := @render_eq_cons α sep cs
    refine iff_of_true (Or.inr ?_) List.nil_prefix
    rw [if_pos (show render sep [] = [sep] from rfl)]
    exact ⟨t, ht.symm⟩
  | cons r rs =>
    have hne := @render_ne_singleton α sep r rs (hrs r (by simp))
    rw [joined_prefix_iff hrs hcs, if_neg hne]
    cases cs with
    | nil =>
      -- the root of everything is below no named directory
      have hpos := (hrs r (by simp)).pos
      constructor
      · rintro (h | h)
        · exact absurd h.symm hne
        · have := h.length_le
          simp [render, joined] at this
      · rintro (h | h) <;> simp [joined] at h
    | cons c cs => rfl

/-- **On canonical texts `InTree` is the component-wise tree.** -/
theorem inTree_iff_within {root p : List α} (hr : Canonical sep root) (hp : Canonical sep p) :
    InTree sep root p ↔ Within sep root p := by
  constructor
  · intro h
    obtain ⟨rs, hrs, rfl⟩ := hr
    obtain ⟨cs, hcs, rfl⟩ := hp
    exact ⟨rs, cs, hrs, hcs, rfl, rfl, (inTree_render_iff hrs hcs).mp h⟩
  · rintro ⟨rs, cs, hrs, hcs, rfl, rfl, h⟩
    exact (inTree_render_iff hrs hcs).mpr h

/-- A path in the tree has the text of the directory as a prefix. -/
theorem InTree.isPrefix {root p : List α} (h : InTree sep root p) : root <+: p := by
  rcases h with rfl | h
  · exact List.prefix_rfl
  · unfold Below at h
    split at h
    · next h0 => rw [h0]; exact h
    · exact (List.prefix_append root [sep]).trans h

/-- **The prefix relation on texts, for an absolute path.** -/
theorem prefix_iff {root p : List α} (hp : [sep] <+: p) :
    root <+: p ↔ InTree sep root p ∨ Sibling sep root p := by
  constructor
  · rintro ⟨t, rfl⟩
    by_cases hroot : root = [sep]
    · exact Or.inl (Or.inr (by unfold Below; rw [if_pos hroot]; exact hp))
    · cases t with
      | nil => exact Or.inl (Or.inl (by simp))
      | cons c t =>
        by_cases hc : c = sep
        · subst hc
          refine Or.inl (Or.inr ?_)
          unfold Below
          rw [if_neg hroot]
          exact ⟨t, by simp⟩
        · exact Or.inr ⟨hroot, c, t, hc, rfl⟩
  · rintro (h | ⟨-, c, t, -, rfl⟩)
    · exact h.isPrefix
    · exact List.prefix_append _ _

theorem not_inTree_of_sibling {root p : List α} (h : Sibling sep root p) :
    ¬ InTree sep root p := by
  obtain ⟨hroot, c, t, hc, rfl⟩ := h
  rintro (h | h)
  · simp at h
  · unfold Below at h
    rw [if_neg hroot, List.prefix_append_right_inj] at h
    exact hc (List.cons_prefix_cons.mp h).1.symm

end Tree

end Path
