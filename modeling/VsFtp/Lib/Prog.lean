import Mathlib.Data.List.Basic

/-!
# Programs that talk to an environment

A program here is sequential code that keeps some data and calls an environment.
Every call is answered by the environment from the calls made so far, and leaves
a record in a log, newest first.  The environment is arbitrary, so a statement
about every environment is a statement about every sequence of outcomes.  A
program either returns a value or stops for good; in both cases the data and
the log it leaves behind can be observed.

## Main definitions

* `Prog ω σ α` — programs with environment `ω`, state `σ` and result `α`.
* `Logged δ ε` — the state: data `δ` and a log of records `ε`.
* `Prog.call`, `Prog.getData`, `Prog.modifyData`, `Prog.stop` — the primitives.
* `Prog.wp` — the weakest precondition, with one postcondition for returning and
  one for stopping.
* `Prog.Dies` — a program that does not return.

## Main results

* `Prog.wp_bind`, `Prog.wp_seq`, `Prog.wp_mono`, `Prog.wp_call` — the rules of `wp`.
-/

/-- A program run in an environment `ω` on a state `σ`: it returns a value or
stops for good (`none`), and leaves a state either way. -/
def Prog (ω σ α : Type) : Type := ω → σ → Option α × σ

/-- Data together with the log of everything that was done, newest first. -/
structure Logged (δ ε : Type) where
  /-- The program's own variables. -/
  data : δ
  /-- What has been done so far, newest first. -/
  log : List ε
  deriving DecidableEq

namespace Prog

variable {ω σ δ ε α β : Type}

instance : Monad (Prog ω σ) where
  pure a := fun _ s => (some a, s)
  bind m f := fun w s =>
    match m w s with
    | (some a, s') => f a w s'
    | (none, s') => (none, s')

instance : LawfulMonad (Prog ω σ) := LawfulMonad.mk' _
  (fun m => by
    funext w s
    change (match m w s with
      | (some a, s') => (some a, s')
      | (none, s') => (none, s')) = m w s
    rcases m w s with ⟨_ | a, s'⟩ <;> rfl)
  (fun _ _ => rfl)
  (fun m f g => by
    funext w s
    change (match (match m w s with
        | (some a, s') => f a w s'
        | (none, s') => (none, s')) with
      | (some b, s') => g b w s'
      | (none, s') => (none, s')) = match m w s with
        | (some a, s') => (f a >>= g) w s'
        | (none, s') => (none, s')
    rcases m w s with ⟨_ | a, s'⟩ <;> rfl)

/-- Stop for good. -/
def stop : Prog ω σ α := fun _ s => (none, s)

/-- Read the data. -/
def getData : Prog ω (Logged δ ε) δ := fun _ s => (some s.data, s)

/-- Change the data. -/
def modifyData (f : δ → δ) : Prog ω (Logged δ ε) Unit :=
  fun _ s => (some (), { s with data := f s.data })

/-- Look at something the environment determines, without a trace in the log. -/
def peek {ρ : Type} (answer : ω → List ε → ρ) : Prog ω (Logged δ ε) ρ :=
  fun w s => (some (answer w s.log), s)

/-- Put a record into the log. -/
def emit (e : ε) : Prog ω (Logged δ ε) Unit :=
  fun _ s => (some (), { s with log := e :: s.log })

/-- Call the environment: it answers from the log, and the call is recorded
together with its answer. -/
def call {ρ : Type} (answer : ω → List ε → ρ) (record : ρ → ε) : Prog ω (Logged δ ε) ρ :=
  fun w s => (some (answer w s.log), { s with log := record (answer w s.log) :: s.log })

/-- The next step of a chain of fallible steps: it runs only if none failed so
far, that is if the status is still zero. -/
def onOk (retval : Int) (next : Prog ω σ Int) : Prog ω σ Int :=
  if retval = 0 then next else pure retval

/-! ### Runs of the primitives -/

@[simp] theorem run_pure (a : α) (w : ω) (s : σ) :
    (pure a : Prog ω σ α) w s = (some a, s) := rfl

theorem run_bind (m : Prog ω σ α) (f : α → Prog ω σ β) (w : ω) (s : σ) :
    (m >>= f) w s = match m w s with
      | (some a, s') => f a w s'
      | (none, s') => (none, s') := rfl

/-- A bind whose first part is known to return. -/
theorem run_bind_of_some {m : Prog ω σ α} {f : α → Prog ω σ β} {w : ω} {s s' : σ} {a : α}
    (h : m w s = (some a, s')) : (m >>= f) w s = f a w s' := by
  rw [run_bind, h]

@[simp] theorem run_getData (w : ω) (s : Logged δ ε) :
    (getData : Prog ω (Logged δ ε) δ) w s = (some s.data, s) := rfl

@[simp] theorem run_peek {ρ : Type} (answer : ω → List ε → ρ) (w : ω) (s : Logged δ ε) :
    (peek answer : Prog ω (Logged δ ε) ρ) w s = (some (answer w s.log), s) := rfl

@[simp] theorem run_call {ρ : Type} (answer : ω → List ε → ρ) (record : ρ → ε) (w : ω)
    (s : Logged δ ε) : (call answer record : Prog ω (Logged δ ε) ρ) w s
      = (some (answer w s.log), { s with log := record (answer w s.log) :: s.log }) := rfl

@[simp] theorem onOk_zero (next : Prog ω σ Int) : onOk 0 next = next := by simp [onOk]

theorem onOk_of_ne {retval : Int} (h : retval ≠ 0) (next : Prog ω σ Int) :
    onOk retval next = pure retval := by simp [onOk, h]

/-! ### Weakest preconditions -/

/-- From `s` the program ends in a state satisfying `Q a` if it returns `a`, and
in one satisfying `E` if it stops. -/
def wp (w : ω) (m : Prog ω σ α) (Q : α → σ → Prop) (E : σ → Prop) (s : σ) : Prop :=
  match m w s with
  | (some a, s') => Q a s'
  | (none, s') => E s'

section Wp

variable {w : ω} {Q Q' : α → σ → Prop} {E E' : σ → Prop} {s : σ}

@[simp] theorem wp_pure (a : α) : wp w (pure a) Q E s ↔ Q a s := Iff.rfl

theorem wp_bind (m : Prog ω σ α) (f : α → Prog ω σ β) {Q : β → σ → Prop} :
    wp w (m >>= f) Q E s ↔ wp w m (fun a => wp w (f a) Q E) E s := by
  unfold wp
  rw [run_bind]
  rcases m w s with ⟨_ | a, s'⟩ <;> rfl

/-- **Consequence.** -/
theorem wp_mono {m : Prog ω σ α} (h : wp w m Q E s) (hQ : ∀ a s', Q a s' → Q' a s')
    (hE : ∀ s', E s' → E' s') : wp w m Q' E' s := by
  unfold wp at h ⊢
  generalize m w s = r at h ⊢
  rcases r with ⟨_ | a, s'⟩
  · exact hE _ h
  · exact hQ _ _ h

/-- **Sequencing through an intermediate assertion.** -/
theorem wp_seq {m : Prog ω σ α} {f : α → Prog ω σ β} {R : α → σ → Prop} {Q : β → σ → Prop}
    (hm : wp w m R E s) (hf : ∀ a s', R a s' → wp w (f a) Q E s') : wp w (m >>= f) Q E s :=
  (wp_bind m f).mpr (wp_mono hm hf fun _ h => h)

theorem wp_and {m : Prog ω σ α} (h : wp w m Q E s) (h' : wp w m Q' E' s) :
    wp w m (fun a s' => Q a s' ∧ Q' a s') (fun s' => E s' ∧ E' s') s := by
  unfold wp at h h' ⊢
  generalize m w s = r at h h' ⊢
  rcases r with ⟨_ | a, s'⟩ <;> exact ⟨h, h'⟩

theorem wp_ite {c : Prop} [Decidable c] {m m' : Prog ω σ α}
    (ht : c → wp w m Q E s) (hf : ¬ c → wp w m' Q E s) : wp w (if c then m else m') Q E s := by
  by_cases h : c
  · rw [if_pos h]; exact ht h
  · rw [if_neg h]; exact hf h

/-- One more step of a chain: either the status was still zero and the step ran,
or it is unchanged. -/
theorem wp_onOk {retval : Int} {next : Prog ω σ Int} {Q : Int → σ → Prop}
    (hz : retval = 0 → wp w next Q E s) (hn : retval ≠ 0 → Q retval s) :
    wp w (onOk retval next) Q E s := by
  unfold onOk
  exact wp_ite hz fun h => (wp_pure _).mpr (hn h)

theorem wp_of_run {m : Prog ω σ α} {a : α} {s' : σ} (h : m w s = (some a, s')) :
    wp w m Q E s ↔ Q a s' := by unfold wp; rw [h]

/-- What a program is known to do, whatever that is. -/
theorem wp_self (m : Prog ω σ α) :
    wp w m (fun a s' => m w s = (some a, s')) (fun s' => m w s = (none, s')) s := by
  unfold wp
  rcases m w s with ⟨_ | a, s'⟩ <;> rfl

/-- What holds of the state a program ends in, however it ends. -/
theorem wp_state {m : Prog ω σ α} {P : σ → Prop} : wp w m (fun _ => P) P s ↔ P (m w s).2 := by
  unfold wp
  rcases m w s with ⟨_ | a, s'⟩ <;> rfl

/-- Reading a `wp` off a run that returned. -/
theorem of_wp_run {m : Prog ω σ α} {a : α} {s' : σ} (h : wp w m Q E s)
    (hr : m w s = (some a, s')) : Q a s' := (wp_of_run hr).mp h

/-- A program for which stopping is impossible returns. -/
theorem exists_run_of_wp {m : Prog ω σ α} (h : wp w m Q (fun _ => False) s) :
    ∃ a s', m w s = (some a, s') ∧ Q a s' := by
  unfold wp at h
  rcases hm : m w s with ⟨_ | a, s'⟩ <;> rw [hm] at h
  · exact h.elim
  · exact ⟨a, s', rfl, h⟩

/-- A specification excludes those that contradict it. -/
theorem not_wp_of_wp {m : Prog ω σ α} (h : wp w m Q E s) (hno : ∀ a s', Q a s' → ¬ Q' a s') :
    ¬ wp w m Q' (fun _ => False) s := by
  intro h'
  obtain ⟨a, s', -, hQ, hQ'⟩ :=
    exists_run_of_wp (wp_mono (wp_and h h') (fun _ _ h => h) fun _ h => h.2)
  exact hno a s' hQ hQ'

/-- From `s` the program stops for good, in whatever state. -/
def Dies (w : ω) (m : Prog ω σ α) (s : σ) : Prop := wp w m (fun _ _ => False) (fun _ => True) s

/-- **A program whose first part stops, stops.** -/
theorem Dies.bind {m : Prog ω σ α} (h : Dies w m s) (f : α → Prog ω σ β) : Dies w (m >>= f) s :=
  wp_seq h fun _ _ h => h.elim

/-- A program stops if its second part does, wherever the first one ends. -/
theorem dies_seq {m : Prog ω σ α} {f : α → Prog ω σ β} {R : α → σ → Prop}
    (hm : wp w m R (fun _ => True) s) (hf : ∀ a s', R a s' → Dies w (f a) s') :
    Dies w (m >>= f) s := wp_seq hm hf

theorem Dies.run_ne {m : Prog ω σ α} (h : Dies w m s) (a : α) (s' : σ) : m w s ≠ (some a, s') :=
  fun hr => of_wp_run h hr

end Wp

section WpLogged

variable {w : ω} {E : Logged δ ε → Prop} {s : Logged δ ε} {ρ : Type}

@[simp] theorem wp_getData {Q : δ → Logged δ ε → Prop} :
    wp w getData Q E s ↔ Q s.data s := Iff.rfl

@[simp] theorem wp_modifyData (f : δ → δ) {Q : Unit → Logged δ ε → Prop} :
    wp w (modifyData f) Q E s ↔ Q () { s with data := f s.data } := Iff.rfl

@[simp] theorem wp_emit (e : ε) {Q : Unit → Logged δ ε → Prop} :
    wp w (emit e) Q E s ↔ Q () { s with log := e :: s.log } := Iff.rfl

@[simp] theorem wp_peek (answer : ω → List ε → ρ) {Q : ρ → Logged δ ε → Prop} :
    wp w (peek answer) Q E s ↔ Q (answer w s.log) s := Iff.rfl

/-- **Calls.** The answer is the environment's, and the record is logged. -/
@[simp] theorem wp_call (answer : ω → List ε → ρ) (record : ρ → ε)
    {Q : ρ → Logged δ ε → Prop} : wp w (call answer record) Q E s
      ↔ Q (answer w s.log) { s with log := record (answer w s.log) :: s.log } := Iff.rfl

end WpLogged

end Prog
