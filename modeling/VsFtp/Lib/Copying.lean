import Mathlib.Data.List.Range
import Mathlib.Data.List.Infix
import Mathlib.Data.List.Pairwise

/-!
# Copying a file in chunks

A file is copied by reading a chunk and sending it, over and over.  A send may accept
only a part of its chunk; what it does not accept is not sent again unless the copying
goes back for it.  Which positions of the file are sent is determined by the lengths of
the chunks that were read and by how much of each was accepted.

## Main definitions

* `Copying.Item` — reading a chunk, or sending one of which so much is accepted.
* `Copying.positions` — the positions of the file that are sent, in order.
* `Copying.Alternates` — every chunk that is sent is the one read just before.
* `Copying.Delivers`, `Copying.sentBytes` — the chunks are those of a given content, and
  what is sent of it.

## Main results

* `Copying.inOrder_iff` — **the positions are sent in order exactly if nothing is
  accepted behind a send that fell short.**
* `Copying.positions_prefix` — if they are in order at the end, they were at every moment.
* `Copying.sentBytes_prefix` — then what is sent is a prefix of the content.
-/

namespace Copying

variable {β : Type}

/-- A step of the copying. -/
inductive Item (β : Type)
  | read (chunk : List β)
  | sent (chunk : List β) (accepted : ℕ)
  deriving DecidableEq

/-- The positions that are sent, in order.  A chunk that is sent lies just before the
offset up to which the file has been read. -/
def positions : ℕ → List (Item β) → List ℕ
  | _, [] => []
  | off, .read chunk :: items => positions (off + chunk.length) items
  | off, .sent chunk accepted :: items =>
      List.range' (off - chunk.length) accepted ++ positions off items

/-- What is sent. -/
def sentBytes : List (Item β) → List β
  | [] => []
  | .read _ :: items => sentBytes items
  | .sent chunk accepted :: items => chunk.take accepted ++ sentBytes items

/-- Every chunk that is sent is the one read just before, and at most that much of it is
accepted. -/
inductive Alternates : List (Item β) → Prop
  | nil : Alternates []
  | last {chunk : List β} : Alternates [.read chunk]
  | round {chunk : List β} {accepted : ℕ} {items : List (Item β)} (hle : accepted ≤ chunk.length)
      (h : Alternates items) : Alternates (.read chunk :: .sent chunk accepted :: items)

/-- A send that did not accept its whole chunk. -/
def Item.fellShort : Item β → Prop
  | .sent chunk accepted => accepted < chunk.length
  | .read _ => False

/-- A send that accepted something. -/
def Item.accepts : Item β → Prop
  | .sent _ accepted => 0 < accepted
  | .read _ => False

/-- Nothing is accepted behind a send that fell short. -/
def StopsShort (items : List (Item β)) : Prop :=
  items.Pairwise fun earlier later => earlier.fellShort → ¬ later.accepts

/-- The positions that are sent are the first ones, in order. -/
def InOrder (items : List (Item β)) : Prop :=
  positions 0 items = List.range (positions 0 items).length

instance (items : List (Item β)) : Decidable (InOrder items) :=
  inferInstanceAs (Decidable (_ = _))

/-! ### Positions -/

theorem positions_round (off : ℕ) (chunk : List β) (accepted : ℕ) (items : List (Item β)) :
    positions off (.read chunk :: .sent chunk accepted :: items) =
      List.range' off accepted ++ positions (off + chunk.length) items := by
  rw [positions, positions, Nat.add_sub_cancel]

/-- Copying goes forward. -/
theorem Alternates.le_of_mem {items : List (Item β)} (h : Alternates items) {off i : ℕ}
    (hi : i ∈ positions off items) : off ≤ i := by
  induction h generalizing off with
  | nil => simp [positions] at hi
  | last => simp [positions] at hi
  | round _ _ ih =>
    rw [positions_round, List.mem_append] at hi
    rcases hi with hi | hi
    · exact (List.mem_range'_1.mp hi).1
    · exact (Nat.le_add_right _ _).trans (ih hi)

theorem positions_eq_nil_iff {items : List (Item β)} : ∀ {off : ℕ},
    positions off items = [] ↔ ∀ i ∈ items, ¬ i.accepts := by
  induction items with
  | nil => simp [positions]
  | cons i items ih =>
    intro off
    cases i with
    | read chunk => simp [positions, ih, Item.accepts]
    | sent chunk accepted =>
      simp only [positions, List.append_eq_nil_iff, ih, List.forall_mem_cons, Item.accepts,
        List.range'_eq_nil_iff, Nat.pos_iff_ne_zero, not_not]

/-- In order from an offset on: the induction behind `inOrder_iff`. -/
theorem Alternates.inOrder_iff {items : List (Item β)} (h : Alternates items) : ∀ {off : ℕ},
    positions off items = List.range' off (positions off items).length ↔ StopsShort items := by
  induction h with
  | nil => simp [positions, StopsShort]
  | last => simp [positions, StopsShort]
  | @round chunk accepted items hle h ih =>
    intro off
    have hpair : StopsShort (.read chunk :: .sent chunk accepted :: items) ↔
        (accepted < chunk.length → ∀ i ∈ items, ¬ i.accepts) ∧ StopsShort items := by
      simp only [StopsShort, List.pairwise_cons, Item.fellShort]
      constructor
      · rintro ⟨-, h, hrest⟩
        exact ⟨fun hs i hi => h i hi hs, hrest⟩
      · rintro ⟨h, hrest⟩
        exact ⟨fun _ _ hf => hf.elim, fun i hi hs => h hs i hi, hrest⟩
    rw [hpair, positions_round, List.length_append, List.length_range', ← List.range'_append_1,
      List.append_cancel_left_eq]
    rcases hle.lt_or_eq with hlt | rfl
    · -- the chunk falls short, so the next position that is sent would leave a gap
      constructor
      · intro hpos
        have hnil : positions (off + chunk.length) items = [] := by
          by_contra hne
          obtain ⟨i, rest, hi⟩ := List.exists_cons_of_ne_nil hne
          have hge := @Alternates.le_of_mem _ _ h (off + chunk.length) i (by rw [hi]; simp)
          rw [hi, List.length_cons, List.range'_succ] at hpos
          have := (List.cons.inj hpos).1
          omega
        have hnone := positions_eq_nil_iff.mp hnil
        exact ⟨fun _ => hnone, (@ih (off + chunk.length)).mp (by rw [hnil]; rfl)⟩
      · rintro ⟨hnone, -⟩
        rw [positions_eq_nil_iff.mpr (hnone hlt)]
        rfl
    · rw [ih]
      exact ⟨fun hs => ⟨fun hlt => absurd hlt (lt_irrefl _), hs⟩, fun hs => hs.2⟩

/-- **The positions are sent in order exactly if nothing is accepted behind a send that
fell short.** -/
theorem inOrder_iff {items : List (Item β)} (h : Alternates items) :
    InOrder items ↔ StopsShort items := by
  rw [InOrder, List.range_eq_range']
  exact h.inOrder_iff

theorem positions_append (items items' : List (Item β)) : ∀ off,
    positions off items <+: positions off (items ++ items') := by
  induction items with
  | nil => exact fun _ => List.nil_prefix
  | cons i items ih =>
    intro off
    cases i with
    | read chunk => exact ih _
    | sent chunk accepted => exact (List.prefix_append_right_inj _).mpr (ih off)

/-- **Positions that are in order at the end were in order at every moment.** -/
theorem positions_prefix {items sofar : List (Item β)} (h : InOrder items)
    (hp : sofar <+: items) : InOrder sofar := by
  obtain ⟨rest, rfl⟩ := hp
  have hpre := positions_append sofar rest 0
  rw [h, List.prefix_iff_eq_take, List.take_range] at hpre
  unfold InOrder
  rw [hpre, List.length_range]

/-! ### Content -/

/-- The chunks that are read are those of the content, from the offset on. -/
def Delivers (content : List β) : ℕ → List (Item β) → Prop
  | _, [] => True
  | off, .read chunk :: items =>
      chunk <+: content.drop off ∧ Delivers content (off + chunk.length) items
  | off, .sent _ _ :: items => Delivers content off items

/-- What is sent is what the content has at the positions. -/
theorem Alternates.map_sentBytes {content : List β} {items : List (Item β)} (h : Alternates items) :
    ∀ {off : ℕ}, Delivers content off items →
      (sentBytes items).map some = (positions off items).map (content[·]?) := by
  induction h with
  | nil => simp [sentBytes, positions]
  | last => simp [sentBytes, positions]
  | @round chunk accepted items hle _ ih =>
    rintro off ⟨⟨rest, hchunk⟩, hd⟩
    rw [positions_round, List.map_append, ← ih hd, sentBytes, sentBytes, List.map_append]
    congr 1
    apply List.ext_getElem?
    intro i
    simp only [List.getElem?_map, List.getElem?_take]
    by_cases hi : i < accepted
    · have hget : content[off + i]? = chunk[i]? := by
        rw [← List.getElem?_drop, ← hchunk, List.getElem?_append_left (by omega)]
      have hlt : i < chunk.length := by omega
      have hsome : chunk[i]? = some chunk[i] := List.getElem?_eq_getElem hlt
      simp [hi, hget, hsome]
    · simp [hi]

theorem sentBytes_append (items items' : List (Item β)) :
    sentBytes (items ++ items') = sentBytes items ++ sentBytes items' := by
  induction items with
  | nil => rfl
  | cons i items ih => cases i <;> simp [sentBytes, ih]

/-- **What is sent in order is a prefix of the content.** -/
theorem sentBytes_prefix {content : List β} {items : List (Item β)} (h : Alternates items)
    (hd : Delivers content 0 items) (hin : InOrder items) : sentBytes items <+: content := by
  have hmap := h.map_sentBytes hd
  rw [hin] at hmap
  have hlen := congrArg List.length hmap
  rw [List.length_map, List.length_map, List.length_range] at hlen
  rw [List.prefix_iff_getElem?]
  intro i hi
  have hi' := congrArg (·[i]?) hmap
  simp only [List.getElem?_map, List.getElem?_range (hlen ▸ hi), List.getElem?_eq_getElem hi,
    Option.map_some] at hi'
  exact (Option.some.inj hi').symm

/-- At every moment of the copying, what was sent so far is a beginning of the content. -/
theorem sentBytes_prefix_of_prefix {content : List β} {items sofar : List (Item β)}
    (h : Alternates items) (hd : Delivers content 0 items) (hin : InOrder items)
    (hp : sofar <+: items) : sentBytes sofar <+: content := by
  obtain ⟨rest, rfl⟩ := hp
  have hall := sentBytes_prefix h hd hin
  rw [sentBytes_append] at hall
  exact (List.prefix_append _ _).trans hall

end Copying
