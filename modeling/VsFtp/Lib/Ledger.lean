import Mathlib.Data.List.Basic

/-!
# Ledgers

Events hand out items and take items back.  The items in circulation after a log
of events, newest first, are computed from the log alone.

## Main definitions

* `Ledger.live` — the items in circulation.

## Main results

* `Ledger.mem_live_cons` — what one event does.
* `Ledger.mem_live_append` — an item that no new event touches stays where it is.
* `Ledger.live_subset` — handing out more puts more into circulation.
* `Ledger.live_antitone` — taking back more leaves less in circulation.
* `Ledger.exists_drop` — what is in one circulation only was dropped from the other
  one, and not touched since.
-/

namespace Ledger

variable {ε ι : Type} [DecidableEq ι]

/-- The items in circulation after a log, newest event first, if `start` were in
circulation before it. -/
def live (gains drops : ε → List ι) (start : List ι) : List ε → List ι
  | [] => start
  | e :: log => gains e ++ (live gains drops start log).filter (· ∉ drops e)

variable {gains gains' drops drops' : ε → List ι} {start start' : List ι} {e : ε} {log new : List ε}
  {x : ι}

theorem mem_live_cons :
    x ∈ live gains drops start (e :: log)
      ↔ x ∈ gains e ∨ x ∈ live gains drops start log ∧ x ∉ drops e := by
  simp [live]

/-- An event that neither hands out nor takes back anything. -/
theorem live_cons_of_neutral (hg : gains e = []) (hd : drops e = []) :
    live gains drops start (e :: log) = live gains drops start log := by
  simp [live, hg, hd]

/-- A log that continues another one starts with what that left in circulation. -/
theorem live_append : live gains drops start (new ++ log)
    = live gains drops (live gains drops start log) new := by
  induction new with
  | nil => rfl
  | cons e new ih => rw [List.cons_append, live, live, ih]

/-- **Events that do not touch an item leave it where it is.** -/
theorem mem_live_append (hg : ∀ e ∈ new, x ∉ gains e) (hd : ∀ e ∈ new, x ∉ drops e) :
    x ∈ live gains drops start (new ++ log) ↔ x ∈ live gains drops start log := by
  induction new with
  | nil => rfl
  | cons e new ih =>
    have hge : x ∉ gains e := hg e (by simp)
    have hde : x ∉ drops e := hd e (by simp)
    rw [List.cons_append, mem_live_cons,
      ih (fun a ha => hg a (by simp [ha])) (fun a ha => hd a (by simp [ha]))]
    simp [hge, hde]

/-- **Neutral events leave everything where it is.** -/
theorem live_append_of_neutral (h : ∀ e ∈ new, gains e = [] ∧ drops e = []) :
    live gains drops start (new ++ log) = live gains drops start log := by
  induction new with
  | nil => rfl
  | cons e new ih =>
    rw [List.cons_append, live_cons_of_neutral (h e (by simp)).1 (h e (by simp)).2]
    exact ih fun a ha => h a (by simp [ha])

theorem live_subset (hg : ∀ e, gains e ⊆ gains' e) (hs : start ⊆ start') :
    live gains drops start log ⊆ live gains' drops start' log := by
  induction log with
  | nil => exact hs
  | cons e log ih =>
    intro x hx
    rcases mem_live_cons.mp hx with h | ⟨h, hd⟩
    · exact mem_live_cons.mpr (Or.inl (hg e h))
    · exact mem_live_cons.mpr (Or.inr ⟨ih h, hd⟩)

theorem live_antitone (hd : ∀ e, drops e ⊆ drops' e) :
    live gains drops' start log ⊆ live gains drops start log := by
  induction log with
  | nil => exact List.Subset.refl _
  | cons e log ih =>
    intro x hx
    rcases mem_live_cons.mp hx with h | ⟨h, hn⟩
    · exact mem_live_cons.mpr (Or.inl h)
    · exact mem_live_cons.mpr (Or.inr ⟨ih h, fun hx => hn (hd e hx)⟩)

/-- **What is in one circulation and not in the other** was dropped from the other one by
some event, and the first one has not taken it back since. -/
theorem exists_drop (h : x ∈ live gains drops start log) (hn : x ∉ live gains drops' start log) :
    ∃ new e old, log = new ++ e :: old ∧ x ∈ live gains drops start old ∧ x ∈ drops' e ∧
      ∀ a ∈ e :: new, x ∉ drops a := by
  induction log with
  | nil => exact absurd h hn
  | cons a log ih =>
    rcases mem_live_cons.mp h with hg | ⟨h', hda⟩
    · exact absurd (mem_live_cons.mpr (Or.inl hg)) hn
    by_cases hx : x ∈ live gains drops' start log
    · -- the last event is the one
      have hd : x ∈ drops' a := by
        by_contra hd
        exact hn (mem_live_cons.mpr (Or.inr ⟨hx, hd⟩))
      exact ⟨[], a, log, rfl, h', hd, by simpa using hda⟩
    · obtain ⟨new, e, old, rfl, hold, hd, hnew⟩ := ih h' hx
      refine ⟨a :: new, e, old, rfl, hold, hd, ?_⟩
      intro b hb
      rcases List.mem_cons.mp hb with rfl | hb
      · exact hnew b (by simp)
      · rcases List.mem_cons.mp hb with rfl | hb
        · exact hda
        · exact hnew b (by simp [hb])

/-- What all events hand out and what was there before holds of everything in
circulation. -/
theorem forall_live {P : ι → Prop} (hg : ∀ e, ∀ x ∈ gains e, P x) (hs : ∀ x ∈ start, P x) :
    ∀ x ∈ live gains drops start log, P x := by
  induction log with
  | nil => exact hs
  | cons e log ih =>
    intro x hx
    rcases mem_live_cons.mp hx with h | ⟨h, -⟩
    · exact hg e x h
    · exact ih x h

end Ledger
