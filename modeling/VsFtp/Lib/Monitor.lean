import Mathlib.Data.List.Basic

/-!
# Monitors of a log

A monitor reads a log, which is kept newest record first, from its oldest record on and
is in some phase after each record.  What may be done can depend on the phase.

## Main definitions

* `Monitor.phase` — the phase after a log.
* `Monitor.Guarded` — every record met a condition on the phase before it.
* `Monitor.Passes` — some records are guarded from one phase on, and lead to another.
* `Monitor.Leads` — a log is continued by such records.

## Main results

* `Monitor.phase_append` — records that keep the phase.
* `Monitor.exists_entry` — **a phase was entered by some record and kept by all records
  since.**
* `Monitor.guarded_iff` — what `Guarded` says of any record of the log.
* `Monitor.Passes.append` — **passages compose.**
* `Monitor.Passes.count_eq` — records that are counted off against the phase.
-/

namespace Monitor

variable {ε π : Type} {next : ε → π → π} {init : π} {log new : List ε} {p : π}

/-- The phase after a log. -/
def phase (next : ε → π → π) (init : π) : List ε → π
  | [] => init
  | e :: log => next e (phase next init log)

@[simp] theorem phase_cons (e : ε) :
    phase next init (e :: log) = next e (phase next init log) := rfl

/-- **Records that keep the phase.** -/
theorem phase_append (h : phase next init log = p) (hnew : ∀ e ∈ new, next e p = p) :
    phase next init (new ++ log) = p := by
  induction new with
  | nil => exact h
  | cons e new ih =>
    rw [List.cons_append, phase_cons, ih fun a ha => hnew a (by simp [ha])]
    exact hnew e (by simp)

/-- **A phase was entered by some record and kept by all records since**, where a record
leads to the phase only by entering it or by keeping it. -/
theorem exists_entry (enters : ε → π → Prop) (keeps : ε → Prop)
    (hnext : ∀ e q, next e q = p → enters e q ∨ q = p ∧ keeps e) (hinit : init ≠ p)
    (h : phase next init log = p) : ∃ new e old, log = new ++ e :: old ∧
      enters e (phase next init old) ∧ ∀ a ∈ new, keeps a := by
  induction log with
  | nil => exact absurd h hinit
  | cons e log ih =>
    rcases hnext e _ h with he | ⟨hp, hk⟩
    · exact ⟨[], e, log, rfl, he, by simp⟩
    · obtain ⟨new, e', old, rfl, he', hnew⟩ := ih hp
      exact ⟨e :: new, e', old, rfl, he', List.forall_mem_cons.mpr ⟨hk, hnew⟩⟩

/-- Every record met a condition on the phase before it. -/
def Guarded (guard : ε → π → Prop) (next : ε → π → π) (init : π) : List ε → Prop
  | [] => True
  | e :: log => guard e (phase next init log) ∧ Guarded guard next init log

variable {guard : ε → π → Prop}

/-- Records whose condition holds in any phase. -/
theorem Guarded.append (h : Guarded guard next init log) (hnew : ∀ e ∈ new, ∀ q, guard e q) :
    Guarded guard next init (new ++ log) := by
  induction new with
  | nil => exact h
  | cons e new ih => exact ⟨hnew e (by simp) _, ih fun a ha => hnew a (by simp [ha])⟩

/-- **What this says of any record of the log.** -/
theorem guarded_iff : Guarded guard next init log ↔
    ∀ new e old, log = new ++ e :: old → guard e (phase next init old) := by
  induction log with
  | nil => simp [Guarded]
  | cons a log ih =>
    rw [Guarded, ih]
    constructor
    · rintro ⟨ha, h⟩ new e old heq
      cases new with
      | nil =>
        obtain ⟨rfl, rfl⟩ := List.cons.inj heq
        exact ha
      | cons b new => exact h new e old (List.cons.inj heq).2
    · intro h
      exact ⟨h [] a log rfl, fun new e old heq => h (a :: new) e old (by rw [heq]; rfl)⟩

/-! ### Passages -/

/-- The phase after a log that continues another one. -/
theorem phase_of_append : phase next init (new ++ log) = phase next (phase next init log) new := by
  induction new with
  | nil => rfl
  | cons e new ih => rw [List.cons_append, phase_cons, ih, phase_cons]

theorem guarded_append : Guarded guard next init (new ++ log) ↔
    Guarded guard next (phase next init log) new ∧ Guarded guard next init log := by
  induction new with
  | nil => simp [Guarded]
  | cons e new ih => rw [List.cons_append, Guarded, ih, Guarded, phase_of_append, and_assoc]

/-- From the phase `p` on, every record met the condition on the phase before it, and the last one
led to the phase `q`. -/
structure Passes (guard : ε → π → Prop) (next : ε → π → π) (p : π) (new : List ε) (q : π) :
    Prop where
  guarded : Guarded guard next p new
  phase_eq : phase next p new = q

namespace Passes

variable {q r : π} {e : ε}

theorem nil : Passes guard next p [] p := ⟨trivial, rfl⟩

/-- A record that may come continues a passage, to the phase that follows. -/
theorem cons (h : Passes guard next p new q) (hg : guard e q) (hn : next e q = r) :
    Passes guard next p (e :: new) r := by
  obtain ⟨hnew, rfl⟩ := h
  exact ⟨⟨hg, hnew⟩, hn⟩

/-- A record that may come continues a passage to the phase behind it. -/
theorem record (h : Passes guard next p new q) (e : ε) (hg : guard e q) :
    Passes guard next p (e :: new) (next e q) := h.cons hg rfl

/-- **Passages compose.** -/
theorem append (h : Passes guard next q new r) (h' : Passes guard next p log q) :
    Passes guard next p (new ++ log) r := by
  obtain ⟨hlog, rfl⟩ := h'
  exact ⟨guarded_append.mpr ⟨h.guarded, hlog⟩, by rw [phase_of_append, h.phase_eq]⟩

/-- Records that keep the phase. -/
theorem of_keeps (h : ∀ e ∈ new, guard e p ∧ next e p = p) : Passes guard next p new p := by
  induction new with
  | nil => exact .nil
  | cons e new ih =>
    exact (ih fun a ha => h a (by simp [ha])).cons (h e (by simp)).1 (h e (by simp)).2

/-- **Records that are counted off against the phase**: if a phase tells how many of them are still
to come, and every record that meets its condition takes itself off, then their number is what the
phases differ by. -/
theorem count_eq {due : π → ℕ} {counts avoids : ε → Bool} {I : π → Prop}
    (hstep : ∀ e p, I p → avoids e = false → guard e p →
      I (next e p) ∧ due p = due (next e p) + (if counts e then 1 else 0))
    (h : Passes guard next p new q) (hp : I p) (hnew : ∀ e ∈ new, avoids e = false) :
    I q ∧ due p = due q + new.countP counts := by
  induction new generalizing q with
  | nil =>
    obtain ⟨-, rfl⟩ := h
    exact ⟨hp, rfl⟩
  | cons e new ih =>
    obtain ⟨⟨hg, hguarded⟩, rfl⟩ := h
    obtain ⟨hI, h1⟩ := ih ⟨hguarded, rfl⟩ fun a ha => hnew a (by simp [ha])
    obtain ⟨hI', h2⟩ := hstep e _ hI (hnew e (by simp)) hg
    refine ⟨hI', ?_⟩
    rw [phase_cons, h1, h2, List.countP_cons]
    omega

end Passes

/-- A log is continued by records that pass from the phase `p` to the phase `q`. -/
def Leads (guard : ε → π → Prop) (next : ε → π → π) (p : π) (log : List ε) (q : π)
    (log' : List ε) : Prop := ∃ new, log' = new ++ log ∧ Passes guard next p new q

namespace Leads

variable {q r : π} {log' log'' : List ε} {e : ε}

theorem mk (h : Passes guard next p new q) : Leads guard next p log q (new ++ log) := ⟨_, rfl, h⟩

theorem refl : Leads guard next p log p log := ⟨[], rfl, .nil⟩

theorem trans (h : Leads guard next p log q log') (h' : Leads guard next q log' r log'') :
    Leads guard next p log r log'' := by
  obtain ⟨new, rfl, hnew⟩ := h
  obtain ⟨new', rfl, hnew'⟩ := h'
  exact ⟨new' ++ new, (List.append_assoc _ _ _).symm, hnew'.append hnew⟩

/-- A passage behind a log that leads somewhere leads on. -/
theorem append (h : Leads guard next p log q log') (h' : Passes guard next q new r) :
    Leads guard next p log r (new ++ log') := h.trans (.mk h')

/-- A record that may come leads on to the phase that follows. -/
theorem cons (h : Leads guard next p log q log') (hg : guard e q) (hn : next e q = r) :
    Leads guard next p log r (e :: log') := h.trans ⟨[e], rfl, Passes.nil.cons hg hn⟩

/-- A record that may come leads on to the phase behind it. -/
theorem record (h : Leads guard next p log q log') (e : ε) (hg : guard e q) :
    Leads guard next p log (next e q) (e :: log') := h.cons hg rfl

/-- **A log that is guarded up to some phase stays so.** -/
theorem passes (h : Leads guard next p log q log') (h' : Passes guard next init log p) :
    Passes guard next init log' q := by
  obtain ⟨new, rfl, hnew⟩ := h
  exact hnew.append h'

end Leads

end Monitor
