import MiniDbms.Library.CString

/-!
# Arrays with an `int` capacity

An array of elements of one size, with room for 16 of them at first. When the next element finds it
full, its capacity, an `int`, is doubled and `realloc` is asked for that many elements. This goes
well up to 2^30 elements; then the doubled capacity is no `int` any more, and the size that comes of
it is larger than any object.
-/

namespace MiniDbms

/-- The bytes of `count` elements of `size` bytes, `count` having been converted to `size_t`. -/
def arrayBytes (size : Nat) (count : Int) : Int := (count % 2 ^ 64) * size % 2 ^ 64

/-- Room for one more element behind `count` others: the capacity afterwards, `none` if `realloc`
cannot serve. -/
def reserveSlot (size count : Nat) (capacity : Int) : Option Int :=
  if (count : Int) < capacity then some capacity
  else
    let doubled := wrapInt (capacity * 2)
    if arrayBytes size doubled > maxObjectSize then none else some doubled

/-- Room for `n` more elements, one after the other. -/
def reserveSlots (size : Nat) : (count : Nat) → (capacity : Int) → (n : Nat) → Option Int
  | _, capacity, 0         => some capacity
  | count, capacity, n + 1 =>
    (reserveSlot size count capacity).bind fun capacity =>
      reserveSlots size (count + 1) capacity n

/-- The capacity of an array before it has grown. -/
def initialCapacity : Int := 16

/-! ### How many elements there is room for -/

lemma wrapInt_doubled : ∀ k < 26, wrapInt (16 * 2 ^ k * 2) = 16 * 2 ^ (k + 1) ∧
    (0 : Int) < 16 * 2 ^ (k + 1) ∧ (16 * 2 ^ (k + 1) : Int) ≤ 2 ^ 30 := by
  decide

lemma arrayBytes_of_le {size : Nat} {count : Int} (hsize : size ≤ 2 ^ 32) (hpos : 0 ≤ count)
    (hle : count ≤ 2 ^ 30) : arrayBytes size count ≤ maxObjectSize := by
  have hbound : count * size ≤ 2 ^ 30 * 2 ^ 32 := by
    have hs : (size : Int) ≤ 2 ^ 32 := by exact_mod_cast hsize
    calc count * size ≤ 2 ^ 30 * (size : Int) := by gcongr
      _ ≤ 2 ^ 30 * 2 ^ 32 := by gcongr
  have hprod : 0 ≤ count * (size : Int) := by positivity
  rw [arrayBytes, Int.emod_eq_of_lt hpos (by omega), Int.emod_eq_of_lt hprod (by omega),
    maxObjectSize]
  omega

/-- The capacity that comes of 2^30 is negative, and as a `size_t` larger than any object. -/
lemma arrayBytes_wrapped {size : Nat} (hpos : 0 < size) (hsize : size ≤ 2 ^ 32) :
    arrayBytes size (wrapInt (16 * 2 ^ 26 * 2)) > maxObjectSize := by
  have hwrap : wrapInt (16 * 2 ^ 26 * 2) % 2 ^ 64 = 2 ^ 64 - 2 ^ 31 := by decide
  have hproduct : (2 ^ 64 - 2 ^ 31) * (size : Int) =
      (2 ^ 64 - 2 ^ 31 * (size : Int)) + 2 ^ 64 * ((size : Int) - 1) := by ring
  rw [arrayBytes, hwrap, hproduct, Int.add_mul_emod_self_left, Int.emod_eq_of_lt (by omega)
    (by omega), maxObjectSize]
  omega

variable {size : Nat}

lemma reserveSlots_ne_none_iff (hpos : 0 < size) (hsize : size ≤ 2 ^ 32) (n : Nat) {count k : Nat}
    (hk : k ≤ 26) (hcount : (count : Int) ≤ 16 * 2 ^ k) :
    reserveSlots size count (16 * 2 ^ k) n ≠ none ↔ count + n ≤ 2 ^ 30 := by
  have hmax : ∀ k ≤ 26, (16 * 2 ^ k : Int) ≤ 2 ^ 30 := by decide
  induction n generalizing count k with
  | zero =>
    have := hmax k hk
    simp only [reserveSlots, ne_eq, reduceCtorEq, not_false_eq_true, true_iff]
    omega
  | succ n ih =>
    rw [reserveSlots, reserveSlot]
    by_cases hroom : (count : Int) < 16 * 2 ^ k
    · have hmore := @ih (count + 1) k hk (by push_cast; omega)
      rw [if_pos hroom, Option.bind_some]
      exact hmore.trans (by omega)
    · have hfull : (count : Int) = 16 * 2 ^ k := by omega
      rw [if_neg hroom]
      dsimp only
      rcases Nat.lt_or_eq_of_le hk with hlt | rfl
      · -- the array doubles
        obtain ⟨hdouble, hdpos, hdle⟩ := wrapInt_doubled k hlt
        have hpow : (16 * 2 ^ (k + 1) : Int) = 2 * (16 * 2 ^ k) := by ring
        have hmore := @ih (count + 1) (k + 1) hlt (by push_cast; omega)
        rw [hdouble, if_neg (not_lt.mpr (arrayBytes_of_le hsize hdpos.le hdle)), Option.bind_some]
        exact hmore.trans (by omega)
      · rw [if_pos (arrayBytes_wrapped hpos hsize)]
        simp only [Option.bind_none, ne_eq, not_true_eq_false, false_iff]
        omega

/-- An array that was empty takes up to 2^30 elements. -/
lemma reserveSlots_empty_iff (hpos : 0 < size) (hsize : size ≤ 2 ^ 32) (n : Nat) :
    reserveSlots size 0 initialCapacity n ≠ none ↔ n ≤ 2 ^ 30 := by
  have h := @reserveSlots_ne_none_iff size hpos hsize n 0 0 (by decide) (by decide)
  rwa [Nat.zero_add] at h

end MiniDbms
