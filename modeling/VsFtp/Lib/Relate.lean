import VsFtp.Lib.Prog

/-!
# Two runs of one program

A property of two runs, such as that neither shows a difference between the states they started
in, is proved by running both side by side: they take the same branches, return the same values
and stay related.  The rules follow those of `Prog.wp`; where the programs read their data, these
may differ, as long as what is made of them is the same.

## Main definitions

* `Prog.rwp` — two programs, run on two states, end alike and in related states.
* `Prog.Keeps` — from related states a program ends alike, and its states are related again.

## Main results

* `Prog.rwp_seq`, `Prog.rwp_mono`, `Prog.rwp_wp` — the rules of `rwp`.
* `Prog.Keeps.bind`, `Prog.Keeps.call`, `Prog.Keeps.reads` — the rules of `Keeps`.
-/

namespace Prog

variable {ω σ δ ε α β : Type}

/-- From `s₁` and `s₂` both programs return the same value `a` and end in states related by `Q a`,
or both stop, in states related by `E`. -/
def rwp (w₁ w₂ : ω) (m₁ m₂ : Prog ω σ α) (Q : α → σ → σ → Prop) (E : σ → σ → Prop)
    (s₁ s₂ : σ) : Prop :=
  match m₁ w₁ s₁, m₂ w₂ s₂ with
  | (some a, s₁'), (some b, s₂') => a = b ∧ Q a s₁' s₂'
  | (none, s₁'), (none, s₂') => E s₁' s₂'
  | _, _ => False

section Rwp

variable {w₁ w₂ : ω} {Q Q' : α → σ → σ → Prop} {E E' : σ → σ → Prop} {s₁ s₂ : σ}
  {m₁ m₂ : Prog ω σ α}

@[simp] theorem rwp_pure (a : α) : rwp w₁ w₂ (pure a) (pure a) Q E s₁ s₂ ↔ Q a s₁ s₂ :=
  and_iff_right rfl

/-- What both runs show. -/
theorem rwp_cases (h : rwp w₁ w₂ m₁ m₂ Q E s₁ s₂) :
    (∃ a s₁' s₂', m₁ w₁ s₁ = (some a, s₁') ∧ m₂ w₂ s₂ = (some a, s₂') ∧ Q a s₁' s₂') ∨
      ∃ s₁' s₂', m₁ w₁ s₁ = (none, s₁') ∧ m₂ w₂ s₂ = (none, s₂') ∧ E s₁' s₂' := by
  unfold rwp at h
  rcases h₁ : m₁ w₁ s₁ with ⟨_ | a, s₁'⟩ <;> rcases h₂ : m₂ w₂ s₂ with ⟨_ | b, s₂'⟩ <;>
    rw [h₁, h₂] at h
  · exact Or.inr ⟨_, _, rfl, rfl, h⟩
  · exact h.elim
  · exact h.elim
  · obtain ⟨rfl, h⟩ := h
    exact Or.inl ⟨_, _, _, rfl, rfl, h⟩

theorem rwp_of_returns {a : α} {s₁' s₂' : σ} (h₁ : m₁ w₁ s₁ = (some a, s₁'))
    (h₂ : m₂ w₂ s₂ = (some a, s₂')) : rwp w₁ w₂ m₁ m₂ Q E s₁ s₂ ↔ Q a s₁' s₂' := by
  unfold rwp
  rw [h₁, h₂]
  exact and_iff_right rfl

theorem rwp_of_stops {s₁' s₂' : σ} (h₁ : m₁ w₁ s₁ = (none, s₁')) (h₂ : m₂ w₂ s₂ = (none, s₂')) :
    rwp w₁ w₂ m₁ m₂ Q E s₁ s₂ ↔ E s₁' s₂' := by
  unfold rwp
  rw [h₁, h₂]

/-- **Consequence.** -/
theorem rwp_mono (h : rwp w₁ w₂ m₁ m₂ Q E s₁ s₂) (hQ : ∀ a s₁' s₂', Q a s₁' s₂' → Q' a s₁' s₂')
    (hE : ∀ s₁' s₂', E s₁' s₂' → E' s₁' s₂') : rwp w₁ w₂ m₁ m₂ Q' E' s₁ s₂ := by
  rcases rwp_cases h with ⟨a, s₁', s₂', h₁, h₂, h⟩ | ⟨s₁', s₂', h₁, h₂, h⟩
  · exact (rwp_of_returns h₁ h₂).mpr (hQ _ _ _ h)
  · exact (rwp_of_stops h₁ h₂).mpr (hE _ _ h)

/-- **Sequencing through an intermediate relation.** -/
theorem rwp_seq {f₁ f₂ : α → Prog ω σ β} {R : β → σ → σ → Prop} (hm : rwp w₁ w₂ m₁ m₂ Q E s₁ s₂)
    (hf : ∀ a s₁' s₂', Q a s₁' s₂' → rwp w₁ w₂ (f₁ a) (f₂ a) R E s₁' s₂') :
    rwp w₁ w₂ (m₁ >>= f₁) (m₂ >>= f₂) R E s₁ s₂ := by
  rcases rwp_cases hm with ⟨a, s₁', s₂', h₁, h₂, h⟩ | ⟨s₁', s₂', h₁, h₂, h⟩
  · have hrun := hf a s₁' s₂' h
    unfold rwp at hrun ⊢
    rwa [run_bind_of_some h₁, run_bind_of_some h₂]
  · unfold rwp
    rw [run_bind, run_bind, h₁, h₂]
    exact h

/-- Two programs whose first parts return go on with what these have returned. -/
theorem rwp_bind_of_returns {β : Type} {n₁ n₂ : Prog ω σ β} {f₁ f₂ : β → Prog ω σ α} {a b : β}
    {s₁' s₂' : σ} (h₁ : n₁ w₁ s₁ = (some a, s₁')) (h₂ : n₂ w₂ s₂ = (some b, s₂')) :
    rwp w₁ w₂ (n₁ >>= f₁) (n₂ >>= f₂) Q E s₁ s₂ ↔ rwp w₁ w₂ (f₁ a) (f₂ b) Q E s₁' s₂' := by
  unfold rwp
  rw [run_bind_of_some h₁, run_bind_of_some h₂]

/-- What one of the runs is known to do. -/
theorem rwp_wp {P : α → σ → Prop} {F : σ → Prop} (h : rwp w₁ w₂ m₁ m₂ Q E s₁ s₂)
    (hP : wp w₁ m₁ P F s₁) :
    rwp w₁ w₂ m₁ m₂ (fun a s₁' s₂' => Q a s₁' s₂' ∧ P a s₁') E s₁ s₂ := by
  rcases rwp_cases h with ⟨a, s₁', s₂', h₁, h₂, h⟩ | ⟨s₁', s₂', h₁, h₂, h⟩
  · exact (rwp_of_returns h₁ h₂).mpr ⟨h, of_wp_run hP h₁⟩
  · exact (rwp_of_stops h₁ h₂).mpr h

theorem rwp_ite {c : Prop} [Decidable c] {m₁' m₂' : Prog ω σ α}
    (ht : c → rwp w₁ w₂ m₁ m₂ Q E s₁ s₂) (hf : ¬ c → rwp w₁ w₂ m₁' m₂' Q E s₁ s₂) :
    rwp w₁ w₂ (if c then m₁ else m₁') (if c then m₂ else m₂') Q E s₁ s₂ := by
  by_cases h : c
  · rw [if_pos h, if_pos h]
    exact ht h
  · rw [if_neg h, if_neg h]
    exact hf h

theorem rwp_onOk {retval : Int} {n₁ n₂ : Prog ω σ Int} {Q : Int → σ → σ → Prop}
    (hz : retval = 0 → rwp w₁ w₂ n₁ n₂ Q E s₁ s₂) (hn : retval ≠ 0 → Q retval s₁ s₂) :
    rwp w₁ w₂ (onOk retval n₁) (onOk retval n₂) Q E s₁ s₂ :=
  rwp_ite hz fun h => (rwp_pure _).mpr (hn h)

end Rwp

section RwpLogged

variable {w₁ w₂ : ω} {E : Logged δ ε → Logged δ ε → Prop} {s₁ s₂ : Logged δ ε}

/-- The programs go on with their own data. -/
theorem rwp_getData {f₁ f₂ : δ → Prog ω (Logged δ ε) α}
    {Q : α → Logged δ ε → Logged δ ε → Prop} :
    rwp w₁ w₂ (getData >>= f₁) (getData >>= f₂) Q E s₁ s₂ ↔
      rwp w₁ w₂ (f₁ s₁.data) (f₂ s₂.data) Q E s₁ s₂ := Iff.rfl

theorem rwp_modifyData (f : δ → δ) {Q : Unit → Logged δ ε → Logged δ ε → Prop} :
    rwp w₁ w₂ (modifyData f) (modifyData f) Q E s₁ s₂ ↔
      Q () { s₁ with data := f s₁.data } { s₂ with data := f s₂.data } := and_iff_right rfl

theorem rwp_emit (e : ε) {Q : Unit → Logged δ ε → Logged δ ε → Prop} :
    rwp w₁ w₂ (emit e) (emit e) Q E s₁ s₂ ↔
      Q () { s₁ with log := e :: s₁.log } { s₂ with log := e :: s₂.log } := and_iff_right rfl

theorem rwp_emit_bind (e : ε) {f₁ f₂ : Unit → Prog ω (Logged δ ε) α}
    {Q : α → Logged δ ε → Logged δ ε → Prop} :
    rwp w₁ w₂ (emit e >>= f₁) (emit e >>= f₂) Q E s₁ s₂ ↔
      rwp w₁ w₂ (f₁ ()) (f₂ ()) Q E { s₁ with log := e :: s₁.log } { s₂ with log := e :: s₂.log } :=
  Iff.rfl

/-- **Calls** must be answered alike. -/
theorem rwp_call {ρ : Type} {answer : ω → List ε → ρ} {record : ρ → ε}
    {Q : ρ → Logged δ ε → Logged δ ε → Prop} (h : answer w₁ s₁.log = answer w₂ s₂.log)
    (hQ : ∀ r, r = answer w₁ s₁.log →
      Q r { s₁ with log := record r :: s₁.log } { s₂ with log := record r :: s₂.log }) :
    rwp w₁ w₂ (call answer record) (call answer record) Q E s₁ s₂ := by
  refine ⟨h, ?_⟩
  rw [← h]
  exact hQ _ rfl

/-- Calls that may be answered in different ways. -/
theorem rwp_call_bind {ρ : Type} {answer₁ answer₂ : ω → List ε → ρ} {record₁ record₂ : ρ → ε}
    {f₁ f₂ : ρ → Prog ω (Logged δ ε) α} {Q : α → Logged δ ε → Logged δ ε → Prop} :
    rwp w₁ w₂ (call answer₁ record₁ >>= f₁) (call answer₂ record₂ >>= f₂) Q E s₁ s₂ ↔
      rwp w₁ w₂ (f₁ (answer₁ w₁ s₁.log)) (f₂ (answer₂ w₂ s₂.log)) Q E
        { s₁ with log := record₁ (answer₁ w₁ s₁.log) :: s₁.log }
        { s₂ with log := record₂ (answer₂ w₂ s₂.log) :: s₂.log } := Iff.rfl

end RwpLogged

/-! ### Programs that keep a relation -/

/-- From states related by `T` the program returns the same in both environments and ends in
states related by `T`, or it stops in both, in states related by `E`. -/
def Keeps (w₁ w₂ : ω) (E T : σ → σ → Prop) (m : Prog ω σ α) : Prop :=
  ∀ ⦃s₁ s₂ : σ⦄, T s₁ s₂ → rwp w₁ w₂ m m (fun _ => T) E s₁ s₂

namespace Keeps

variable {w₁ w₂ : ω}

section

variable {E T : σ → σ → Prop}

protected theorem pure (a : α) : Keeps w₁ w₂ E T (pure a) := fun _ _ h => (rwp_pure a).mpr h

protected theorem stop (h : ∀ s₁ s₂, T s₁ s₂ → E s₁ s₂) :
    Keeps w₁ w₂ E T (stop : Prog ω σ α) := fun _ _ hT => h _ _ hT

/-- **Sequencing.** -/
protected theorem bind {m : Prog ω σ α} {f : α → Prog ω σ β} (hm : Keeps w₁ w₂ E T m)
    (hf : ∀ a, Keeps w₁ w₂ E T (f a)) : Keeps w₁ w₂ E T (m >>= f) :=
  fun _ _ h => rwp_seq (hm h) fun a _ _ h' => hf a h'

protected theorem ite {c : Prop} [Decidable c] {m m' : Prog ω σ α} (ht : Keeps w₁ w₂ E T m)
    (hf : Keeps w₁ w₂ E T m') : Keeps w₁ w₂ E T (if c then m else m') :=
  fun _ _ h => rwp_ite (fun _ => ht h) fun _ => hf h

protected theorem onOk {retval : Int} {next : Prog ω σ Int} (h : Keeps w₁ w₂ E T next) :
    Keeps w₁ w₂ E T (onOk retval next) := .ite h (.pure _)

end

variable {E T : Logged δ ε → Logged δ ε → Prop}

/-- **Reading** data that differ, if the program makes the same of them. -/
protected theorem reads {f : δ → Prog ω (Logged δ ε) α}
    (hf : ∀ s₁ s₂, T s₁ s₂ → f s₁.data = f s₂.data) (h : ∀ d, Keeps w₁ w₂ E T (f d)) :
    Keeps w₁ w₂ E T (getData >>= f) := by
  intro s₁ s₂ hT
  rw [rwp_getData, hf s₁ s₂ hT]
  exact h _ hT

protected theorem modifyData {f : δ → δ} (hf : ∀ s₁ s₂, T s₁ s₂ →
      T { s₁ with data := f s₁.data } { s₂ with data := f s₂.data }) :
    Keeps w₁ w₂ E T (modifyData f) := fun _ _ h => (rwp_modifyData f).mpr (hf _ _ h)

variable (hpush : ∀ e s₁ s₂, T s₁ s₂ →
  T { s₁ with log := e :: s₁.log } { s₂ with log := e :: s₂.log })

include hpush in
protected theorem emit (e : ε) : Keeps w₁ w₂ E T (emit e) :=
  fun _ _ h => (rwp_emit e).mpr (hpush e _ _ h)

protected theorem peek {ρ : Type} {answer : ω → List ε → ρ}
    (h : ∀ s₁ s₂, T s₁ s₂ → answer w₁ s₁.log = answer w₂ s₂.log) :
    Keeps w₁ w₂ E T (peek answer) := fun _ _ hT => ⟨h _ _ hT, hT⟩

include hpush in
/-- **Calls.** -/
protected theorem call {ρ : Type} {answer : ω → List ε → ρ} {record : ρ → ε}
    (h : ∀ s₁ s₂, T s₁ s₂ → answer w₁ s₁.log = answer w₂ s₂.log) :
    Keeps w₁ w₂ E T (call answer record) :=
  fun _ _ hT => rwp_call (h _ _ hT) fun _ _ => hpush _ _ _ hT

end Keeps

end Prog
