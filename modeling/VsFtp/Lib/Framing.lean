import Mathlib.Data.List.Infix

/-!
# Frames in a stream

A receiver reads a stream item by item and takes it for frames: a frame is complete as soon as some
condition holds of what was read since the last one.  A sender that only sends lists of which the
condition holds, but of no proper beginning, is understood, however the stream is cut on the way.

## Main definitions

* `Framing.read` — the frames that are complete, and what was read of the next one.
* `Framing.readChunks` — the same, for a stream that arrives in chunks.
* `Framing.IsFrame` — a list that is complete at its end, and not before.

## Main results

* `Framing.readChunks_eq` — **the chunks make no difference.**
* `Framing.IsFrame.of_last` — frames whose last item tells that they are complete.
* `Framing.read_flatten` — **frames that were sent one after the other are read as such.**
-/

namespace Framing

variable {α : Type*} {stop : List α → Bool}

/-- The frames that are complete, and what was read of the next one, where `acc` was read of the
first one before. -/
def read (stop : List α → Bool) : List α → List α → List (List α) × List α
  | acc, [] => ([], acc)
  | acc, a :: s =>
      if stop (acc ++ [a]) then
        let out := read stop [] s
        ((acc ++ [a]) :: out.1, out.2)
      else read stop (acc ++ [a]) s

/-- The frames of a stream that arrives in chunks, and what is left of the last one: what was read
of a frame is kept for the next chunk. -/
def readChunks (stop : List α → Bool) : List α → List (List α) → List (List α) × List α
  | acc, [] => ([], acc)
  | acc, c :: chunks =>
      let out := read stop acc c
      let more := readChunks stop out.2 chunks
      (out.1 ++ more.1, more.2)

@[simp] theorem read_nil (acc : List α) : read stop acc [] = ([], acc) := rfl

theorem read_cons_of_stop {acc s : List α} {a : α} (h : stop (acc ++ [a]) = true) :
    read stop acc (a :: s) = ((acc ++ [a]) :: (read stop [] s).1, (read stop [] s).2) := by
  rw [read, if_pos h]

theorem read_cons_of_not_stop {acc s : List α} {a : α} (h : stop (acc ++ [a]) = false) :
    read stop acc (a :: s) = read stop (acc ++ [a]) s := by
  rw [read, if_neg (by simp [h])]

/-- **Reading on.** -/
theorem read_append (acc s t : List α) : read stop acc (s ++ t) =
    ((read stop acc s).1 ++ (read stop (read stop acc s).2 t).1,
      (read stop (read stop acc s).2 t).2) := by
  induction s generalizing acc with
  | nil => rfl
  | cons a s ih =>
    rw [List.cons_append]
    cases h : stop (acc ++ [a]) with
    | true =>
      rw [read_cons_of_stop h, read_cons_of_stop h, ih]
      rfl
    | false => rw [read_cons_of_not_stop h, read_cons_of_not_stop h, ih]

/-- **The chunks make no difference.** -/
theorem readChunks_eq (acc : List α) (chunks : List (List α)) :
    readChunks stop acc chunks = read stop acc chunks.flatten := by
  induction chunks generalizing acc with
  | nil => rfl
  | cons c chunks ih =>
    rw [List.flatten_cons, read_append, readChunks, ih]

/-- A list that is complete at its end, and not before. -/
structure IsFrame (stop : List α → Bool) (w : List α) : Prop where
  ne_nil : w ≠ []
  stops : stop w = true
  first : ∀ p, p <+: w → p ≠ [] → p ≠ w → stop p = false

/-- As long as nothing is complete, everything is kept. -/
theorem read_open {acc s : List α} (h : ∀ p, p <+: s → p ≠ [] → stop (acc ++ p) = false) :
    read stop acc s = ([], acc ++ s) := by
  induction s generalizing acc with
  | nil => rw [read_nil, List.append_nil]
  | cons a s ih =>
    have ha : stop (acc ++ [a]) = false := h [a] ⟨s, rfl⟩ (by simp)
    rw [read_cons_of_not_stop ha, ih, List.append_assoc, List.singleton_append]
    intro p hp _
    rw [List.append_assoc]
    exact h (a :: p) (List.cons_prefix_cons.mpr ⟨rfl, hp⟩) (by simp)

namespace IsFrame

variable {w : List α}

/-- **A frame is read.** -/
theorem read_eq (h : IsFrame stop w) : read stop [] w = ([w], []) := by
  obtain ⟨p, a, rfl⟩ := (List.eq_nil_or_concat' w).resolve_left h.ne_nil
  have hopen : read stop [] p = ([], p) := by
    apply read_open
    intro q hq hne
    refine h.first q (hq.trans (List.prefix_append p [a])) hne fun heq => ?_
    have hlen := hq.length_le
    rw [heq, List.length_append, List.length_singleton] at hlen
    omega
  rw [read_append, hopen, read_cons_of_stop h.stops]
  rfl

/-- A frame is recognised by trying its beginnings. -/
theorem of_inits [DecidableEq α] (h : (w ≠ [] ∧ stop w = true) ∧
    ∀ p ∈ w.inits, p = [] ∨ p = w ∨ stop p = false) : IsFrame stop w := by
  refine ⟨h.1.1, h.1.2, fun p hp hne hproper => ?_⟩
  exact ((h.2 p ((List.mem_inits p w).mpr hp)).resolve_left hne).resolve_left hproper

/-- Frames whose last item tells that they are complete: it occurs only there. -/
theorem of_last {z : α} (hstop : ∀ p, stop p = true → p.getLast? = some z) {t : List α}
    (ht : z ∉ t) (h : stop (t ++ [z]) = true) : IsFrame stop (t ++ [z]) := by
  refine ⟨by simp, h, fun p hp hne hproper => ?_⟩
  by_contra hs
  -- a proper beginning does not contain the last item
  have hlast := hstop p (by simpa using hs)
  have hpt : p <+: t := (List.prefix_concat_iff.mp hp).resolve_left hproper
  exact ht (hpt.subset (List.mem_of_getLast? hlast))

end IsFrame

/-- **Frames that were sent one after the other are read as such.** -/
theorem read_flatten {ws : List (List α)} (h : ∀ w ∈ ws, IsFrame stop w) :
    read stop [] ws.flatten = (ws, []) := by
  induction ws with
  | nil => rfl
  | cons w ws ih =>
    have hw := (h w List.mem_cons_self).read_eq
    rw [List.flatten_cons, read_append, hw, ih fun v hv => h v (List.mem_cons_of_mem w hv)]
    rfl

end Framing
