import Mathlib

/-!
# Growing buffers

A block of cells of which the first ones are in use. When a piece is appended that does not fit, the
capacity is doubled until it does, and the block is moved; the fresh cells hold anything. Behind the
content stands a terminator.
-/

namespace MiniDbms

variable {α : Type}

/-- A block of cells, `cells.length` being its capacity, and the number of cells in use. -/
structure GrowBuffer (α : Type) where
  cells : List α
  length : Nat

namespace GrowBuffer

def contents (b : GrowBuffer α) : List α := b.cells.take b.length

/-- The cells in use end with the terminator `z`. -/
structure Terminated (z : α) (b : GrowBuffer α) : Prop where
  terminator : b.cells[b.length]? = some z

lemma Terminated.length_lt {z : α} {b : GrowBuffer α} (h : b.Terminated z) :
    b.length < b.cells.length :=
  (List.getElem?_eq_some_iff.mp h.terminator).1

lemma Terminated.length_contents {z : α} {b : GrowBuffer α} (h : b.Terminated z) :
    b.contents.length = b.length := by
  rw [contents, List.length_take, min_eq_left h.length_lt.le]

/-- The capacity is doubled until it is large enough. -/
def growCapacity : (fuel required capacity : Nat) → Nat
  | 0, _, capacity               => capacity
  | fuel + 1, required, capacity =>
    if required > capacity then growCapacity fuel required (capacity * 2) else capacity

/-- `realloc`: the fresh cells hold what `fresh` says. -/
def resize (fresh : Nat → α) (cells : List α) (capacity : Nat) : List α :=
  cells ++ (List.range' cells.length (capacity - cells.length)).map fresh

/-- `memcpy` of the piece and the terminator behind the content. -/
def write (z : α) (b : GrowBuffer α) (piece : List α) : GrowBuffer α where
  cells := b.cells.take b.length ++ (piece ++ [z]) ++ b.cells.drop (b.length + (piece.length + 1))
  length := b.length + piece.length

/-- The piece is appended, after the block has grown where it must. -/
def append (z : α) (fresh : Nat → α) (b : GrowBuffer α) (piece : List α) : GrowBuffer α :=
  let required := b.length + piece.length + 1
  if required > b.cells.length then
    write z ⟨resize fresh b.cells (growCapacity required required b.cells.length), b.length⟩ piece
  else write z b piece

lemma le_growCapacity {fuel required capacity : Nat} (hpos : 0 < capacity)
    (hfuel : required ≤ fuel + capacity) : required ≤ growCapacity fuel required capacity := by
  induction fuel generalizing capacity with
  | zero =>
    rw [growCapacity]
    omega
  | succ fuel ih =>
    rw [growCapacity]
    split_ifs with hlarge
    · exact ih (by omega) (by omega)
    · omega

lemma length_resize {fresh : Nat → α} {cells : List α} {capacity : Nat}
    (h : cells.length ≤ capacity) : (resize fresh cells capacity).length = capacity := by
  rw [resize, List.length_append, List.length_map, List.length_range']
  omega

lemma take_resize {fresh : Nat → α} {cells : List α} {capacity n : Nat} (h : n ≤ cells.length) :
    (resize fresh cells capacity).take n = cells.take n :=
  List.take_append_of_le_length h

lemma write_spec {z : α} {b : GrowBuffer α} {piece : List α}
    (h : b.length + piece.length + 1 ≤ b.cells.length) :
    (b.write z piece).Terminated z ∧ (b.write z piece).contents = b.contents ++ piece ∧
      (b.write z piece).cells.length = b.cells.length := by
  have htake : (b.cells.take b.length).length = b.length := by
    rw [List.length_take, min_eq_left (by omega)]
  refine ⟨⟨?_⟩, ?_, ?_⟩
  · rw [write, List.append_assoc, List.getElem?_append_right (by simp only; omega), htake]
    simp
  · rw [contents, contents, write, List.append_assoc, List.append_assoc, List.take_append, htake,
      List.take_of_length_le (show _ ≤ b.length + piece.length by omega)]
    simp
  · rw [write]
    simp only [List.length_append, htake, List.length_drop, List.length_singleton]
    omega

/-- Nothing of the content is lost, whatever the fresh cells hold. -/
lemma append_spec {z : α} {b : GrowBuffer α} (h : b.Terminated z) (fresh : Nat → α)
    (piece : List α) :
    (b.append z fresh piece).Terminated z ∧
      (b.append z fresh piece).contents = b.contents ++ piece := by
  have hlt := h.length_lt
  rw [append]
  split_ifs with hlarge
  · have hgrow := @le_growCapacity (b.length + piece.length + 1) (b.length + piece.length + 1)
      b.cells.length (by omega) (by omega)
    have hlength := @length_resize _ fresh b.cells _ (le_of_lt (lt_of_lt_of_le hlarge hgrow))
    obtain ⟨hterminated, hcontents, -⟩ := @write_spec _ z ⟨resize fresh b.cells
      (growCapacity (b.length + piece.length + 1) (b.length + piece.length + 1) b.cells.length),
        b.length⟩ piece (by simpa [hlength] using hgrow)
    refine ⟨hterminated, hcontents.trans ?_⟩
    rw [contents, contents, take_resize hlt.le]
  · obtain ⟨hterminated, hcontents, -⟩ := @write_spec _ z b piece (by omega)
    exact ⟨hterminated, hcontents⟩

end GrowBuffer

end MiniDbms
