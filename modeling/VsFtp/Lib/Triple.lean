import VsFtp.Lib.Monitor
import VsFtp.Lib.Prog

/-!
# Triples over the data and the phase

A monitor reads the log that a program writes.  What a program is to do with its data can then be
said of the data and the phase of the monitor alone, and what it may do at all is said by a
condition on each record in the phase before it.  A triple claims both at once: from a log whose
records all met their conditions, and from data that fit the phase, the program leads to such a log
again, and to data that fit the new phase.  The log itself does not occur in the assertions.

## Main definitions

* `Contract` — a monitor with the condition on each record.
* `Prog.Tracks` — the triples.

## Main results

* `Prog.Tracks.bind`, `Prog.Tracks.mono` — **sequencing and consequence.**
* `Prog.Tracks.call`, `Prog.Tracks.emit` — a record is added: its condition holds, and the phase
  moves on.
* `Prog.Tracks.assume`, `Prog.Tracks.of_exists` — facts and values that the assertion determines.
* `Prog.Tracks.state` — **what a triple says of a run, however it ends.**
-/

open Monitor

/-- A monitor of records `ε` with phases `π`, and the condition on each record. -/
structure Contract (ε π : Type) where
  /-- The phase after a record. -/
  next : ε → π → π
  /-- The condition on a record in the phase before it. -/
  guard : ε → π → Prop
  /-- The phase before the first record. -/
  init : π

namespace Contract

variable {ε π : Type} (K : Contract ε π)

/-- The phase after a log. -/
def phase (log : List ε) : π := Monitor.phase K.next K.init log

/-- Every record of the log met its condition. -/
def Kept (log : List ε) : Prop := Guarded K.guard K.next K.init log

variable {K}

theorem kept_nil : K.Kept [] := trivial

theorem Kept.cons {e : ε} {log : List ε} (h : K.Kept log) (hg : K.guard e (K.phase log)) :
    K.Kept (e :: log) := ⟨hg, h⟩

/-- **What this says of any record of the log.** -/
theorem Kept.guard {new old : List ε} {e : ε} (h : K.Kept (new ++ e :: old)) :
    K.guard e (K.phase old) := guarded_iff.mp h new e old rfl

end Contract

namespace Prog

variable {ω δ ε π α β ρ : Type} {K : Contract ε π} {w : ω} {E R R₁ : δ → π → Prop}
  {m m' : Prog ω (Logged δ ε) α} {f : α → Prog ω (Logged δ ε) β} {Q Q₁ : α → δ → π → Prop}
  {Q' : β → δ → π → Prop} {s : Logged δ ε}

/-- **The triple.**  From a log that keeps the contract, and data and a phase that satisfy `R`, the
program leads to a log that keeps it, and to data and a phase that satisfy `Q a` if it returns `a`,
and `E` if it stops. -/
def Tracks (K : Contract ε π) (w : ω) (E R : δ → π → Prop) (m : Prog ω (Logged δ ε) α)
    (Q : α → δ → π → Prop) : Prop :=
  ∀ s, K.Kept s.log → R s.data (K.phase s.log) →
    wp w m (fun a s' => K.Kept s'.log ∧ Q a s'.data (K.phase s'.log))
      (fun s' => K.Kept s'.log ∧ E s'.data (K.phase s'.log)) s

namespace Tracks

/-! ### Programs that leave the log alone -/

protected theorem pure {a : α} (h : ∀ d p, R d p → Q a d p) : Tracks K w E R (pure a) Q :=
  fun _ hlog hR => ⟨hlog, h _ _ hR⟩

protected theorem stop (h : ∀ d p, R d p → E d p) : Tracks K w E R stop Q :=
  fun _ hlog hR => ⟨hlog, h _ _ hR⟩

theorem modifyData {g : δ → δ} {Q : Unit → δ → π → Prop} (h : ∀ d p, R d p → Q () (g d) p) :
    Tracks K w E R (modifyData g) Q :=
  fun _ hlog hR => ⟨hlog, h _ _ hR⟩

/-- What the environment determines, from the log so far. -/
theorem peek {answer : ω → List ε → ρ} {Q : ρ → δ → π → Prop}
    (h : ∀ log d p, R d p → Q (answer w log) d p) : Tracks K w E R (peek answer) Q :=
  fun s hlog hR => ⟨hlog, h s.log _ _ hR⟩

/-! ### Records -/

/-- **A record is added**: its condition holds, and the phase moves on. -/
theorem emit {e : ε} {Q : Unit → δ → π → Prop}
    (h : ∀ d p, R d p → K.guard e p ∧ Q () d (K.next e p)) : Tracks K w E R (emit e) Q := by
  intro s hlog hR
  obtain ⟨hg, hQ⟩ := h _ _ hR
  exact ⟨hlog.cons hg, hQ⟩

/-- **A call** adds the record of its answer. -/
theorem call {answer : ω → List ε → ρ} {record : ρ → ε} {Q : ρ → δ → π → Prop}
    (h : ∀ log d p, R d p → K.guard (record (answer w log)) p ∧
      Q (answer w log) d (K.next (record (answer w log)) p)) :
    Tracks K w E R (call answer record) Q := by
  intro s hlog hR
  obtain ⟨hg, hQ⟩ := h s.log _ _ hR
  exact ⟨hlog.cons hg, hQ⟩

/-- A record that may always be added, and that the monitor does not look at. -/
theorem emit_silent {e : ε} (hg : ∀ p, K.guard e p) (hn : ∀ p, K.next e p = p) :
    Tracks K w E R (Prog.emit e) (fun _ => R) := by
  apply emit
  intro d p hR
  rw [hn]
  exact ⟨hg p, hR⟩

/-- A call that adds such a record. -/
theorem call_silent {answer : ω → List ε → ρ} {record : ρ → ε} (hg : ∀ a p, K.guard (record a) p)
    (hn : ∀ a p, K.next (record a) p = p) :
    Tracks K w E R (Prog.call answer record) (fun _ => R) := by
  apply call
  intro log d p hR
  rw [hn]
  exact ⟨hg _ p, hR⟩

/-! ### The rules -/

/-- **Sequencing.** -/
protected theorem bind (hm : Tracks K w E R m Q) (hf : ∀ a, Tracks K w E (Q a) (f a) Q') :
    Tracks K w E R (m >>= f) Q' := by
  intro s hlog hR
  refine wp_seq (hm s hlog hR) ?_
  intro a s' h
  exact hf a s' h.1 h.2

/-- **Consequence.** -/
theorem mono (h : Tracks K w E R m Q) (hR : ∀ d p, R₁ d p → R d p)
    (hQ : ∀ a d p, Q a d p → Q₁ a d p) : Tracks K w E R₁ m Q₁ := by
  intro s hlog hR₁
  refine wp_mono (h s hlog (hR _ _ hR₁)) ?_ fun _ h => h
  intro a s' h
  exact ⟨h.1, hQ _ _ _ h.2⟩

/-- Strengthening the precondition. -/
theorem strengthen (h : Tracks K w E R m Q) (hR : ∀ d p, R₁ d p → R d p) : Tracks K w E R₁ m Q :=
  h.mono hR fun _ _ _ h => h

/-- Weakening the postcondition. -/
theorem weaken (h : Tracks K w E R m Q) (hQ : ∀ a d p, Q a d p → Q₁ a d p) : Tracks K w E R m Q₁ :=
  h.mono (fun _ _ h => h) hQ

/-- A fact that the precondition determines. -/
theorem assume {c : Prop} (h : ∀ d p, R d p → c) (hm : c → Tracks K w E R m Q) :
    Tracks K w E R m Q := fun s hlog hR => hm (h _ _ hR) s hlog hR

/-- A value that the precondition determines. -/
theorem of_exists {ι : Sort*} {P : ι → δ → π → Prop} (h : ∀ i, Tracks K w E (P i) m Q) :
    Tracks K w E (fun d p => ∃ i, P i d p) m Q := by
  rintro s hlog ⟨i, hP⟩
  exact h i s hlog hP

/-- Reading the data. -/
theorem bind_getData {f : δ → Prog ω (Logged δ ε) β}
    (h : ∀ a, Tracks K w E (fun d p => d = a ∧ R d p) (f a) Q') :
    Tracks K w E R (getData >>= f) Q' := fun s hlog hR => h s.data s hlog ⟨rfl, hR⟩

protected theorem ite {c : Prop} [Decidable c] (ht : c → Tracks K w E R m Q)
    (hf : ¬ c → Tracks K w E R m' Q) : Tracks K w E R (if c then m else m') Q := by
  intro s hlog hR
  exact wp_ite (fun hc => ht hc s hlog hR) (fun hc => hf hc s hlog hR)

/-- The next step of a chain of fallible steps. -/
protected theorem onOk {retval : Int} {next : Prog ω (Logged δ ε) Int} {Q : Int → δ → π → Prop}
    (h : retval = 0 → Tracks K w E R next Q) (hn : retval ≠ 0 → ∀ d p, R d p → Q retval d p) :
    Tracks K w E R (onOk retval next) Q := .ite h fun hr => .pure (hn hr)

/-! ### Runs -/

/-- **What a triple says of a run, however it ends.** -/
theorem state (h : Tracks K w E R m Q) (hQ : ∀ a d p, Q a d p → E d p) (hlog : K.Kept s.log)
    (hR : R s.data (K.phase s.log)) :
    K.Kept (m w s).2.log ∧ E (m w s).2.data (K.phase (m w s).2.log) := by
  refine wp_state.mp (wp_mono (h s hlog hR) ?_ fun _ h => h)
  intro a s' h'
  exact ⟨h'.1, hQ a _ _ h'.2⟩

end Tracks

end Prog
