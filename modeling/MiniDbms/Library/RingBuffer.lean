import Mathlib

/-!
# Ring buffers

A block of cells that is used as a ring holds, from a head on, a number of values; the positions go
round at the end of the block. What it holds is the beginning of the block rotated to the head.
-/

namespace MiniDbms

variable {α : Type}

/-- The values in the ring, the oldest first. -/
def ringContents (cells : List α) (head count : Nat) : List α := (cells.rotate head).take count

lemma getElem?_ringContents {cells : List α} {head count i : Nat} (hcount : count ≤ cells.length)
    (hi : i < count) :
    (ringContents cells head count)[i]? = cells[(head + i) % cells.length]? := by
  rw [ringContents, List.getElem?_take_of_lt hi, List.getElem?_rotate (hi.trans_le hcount),
    Nat.add_comm]

lemma length_ringContents {cells : List α} {head count : Nat} (hcount : count ≤ cells.length) :
    (ringContents cells head count).length = count := by
  rw [ringContents, List.length_take, List.length_rotate, min_eq_left hcount]

/-- Two positions of the ring are different cells. -/
lemma ring_position_ne {n head i j : Nat} (hi : i < n) (hj : j < n) (hne : i ≠ j) :
    (head + i) % n ≠ (head + j) % n := by
  intro heq
  have hmod : i ≡ j [MOD n] := Nat.ModEq.add_left_cancel' head heq
  exact hne (hmod.eq_of_lt_of_lt hi hj)

/-- A value that is written behind the last one is the new last one. -/
lemma ringContents_push {cells : List α} {head count : Nat} (hcount : count < cells.length)
    (x : α) :
    ringContents (cells.set ((head + count) % cells.length) x) head (count + 1) =
      ringContents cells head count ++ [x] := by
  have hlen : (cells.set ((head + count) % cells.length) x).length = cells.length :=
    List.length_set
  have hlength : (ringContents cells head count).length = count :=
    length_ringContents hcount.le
  apply List.ext_getElem?
  intro i
  rcases Nat.lt_trichotomy i count with hi | rfl | hi
  · rw [getElem?_ringContents (by omega) (by omega), List.getElem?_append_left (by omega),
      getElem?_ringContents hcount.le hi, hlen]
    exact List.getElem?_set_ne (ring_position_ne hcount (hi.trans hcount) (by omega))
  · have hpos : (head + i) % cells.length < cells.length := Nat.mod_lt _ (by omega)
    rw [getElem?_ringContents (by omega) (by omega), hlen, List.getElem?_set_self hpos,
      List.getElem?_append_right hlength.le, hlength]
    simp
  · rw [List.getElem?_eq_none, List.getElem?_eq_none]
    · rw [List.length_append, hlength, List.length_singleton]
      omega
    · rw [length_ringContents (by omega)]
      omega

/-- The value at the head is the oldest one. -/
lemma ringContents_pop {cells : List α} {head count : Nat} (hcount : count < cells.length) {x : α}
    (hx : cells[head % cells.length]? = some x) :
    ringContents cells head (count + 1) =
      x :: ringContents cells ((head + 1) % cells.length) count := by
  apply List.ext_getElem?
  intro i
  cases i with
  | zero =>
    rw [getElem?_ringContents hcount (by omega), Nat.add_zero, hx]
    rfl
  | succ i =>
    rw [List.getElem?_cons_succ]
    by_cases hi : i < count
    · rw [getElem?_ringContents hcount (by omega), getElem?_ringContents hcount.le hi,
        Nat.mod_add_mod, Nat.add_assoc, Nat.add_comm 1 i]
    · rw [List.getElem?_eq_none, List.getElem?_eq_none]
      · rw [length_ringContents hcount.le]
        omega
      · rw [length_ringContents hcount]
        omega

end MiniDbms
