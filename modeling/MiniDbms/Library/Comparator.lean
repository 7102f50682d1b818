import MiniDbms.Library.CString

/-!
# Comparison functions

The value of a comparison function is negative, zero or positive, as `strcmp`, `qsort` and a binary
search have it. One that follows the keys in a linear order is consistent, and the values below a
bound are then the first ones of a sorted list.
-/

namespace MiniDbms

variable {α κ : Type*}

/-- What `qsort` and a binary search require of a comparison function on the values in `s`: a total
preorder. -/
structure IsConsistent (cmp : α → α → Int) (s : Set α) : Prop where
  swap : ∀ a ∈ s, ∀ b ∈ s, (cmp a b).sign = -(cmp b a).sign
  trans : ∀ a ∈ s, ∀ b ∈ s, ∀ c ∈ s, cmp a b ≤ 0 → cmp b c ≤ 0 → cmp a c ≤ 0

lemma sign_swap_iff {m n : Int} : m.sign = -n.sign ↔ (m < 0 ↔ 0 < n) ∧ (0 < m ↔ n < 0) := by
  rcases lt_trichotomy m 0 with hm | rfl | hm <;> rcases lt_trichotomy n 0 with hn | rfl | hn <;>
    simp [Int.sign_eq_one_of_pos, Int.sign_eq_neg_one_of_neg, *, not_lt_of_gt]

namespace IsConsistent

variable {cmp : α → α → Int} {s t : Set α}

lemma mono (h : IsConsistent cmp t) (hst : s ⊆ t) : IsConsistent cmp s where
  swap a ha b hb := h.swap a (hst ha) b (hst hb)
  trans a ha b hb c hc := h.trans a (hst ha) b (hst hb) c (hst hc)

lemma neg_iff (h : IsConsistent cmp s) {a b : α} (ha : a ∈ s) (hb : b ∈ s) :
    cmp a b < 0 ↔ 0 < cmp b a := (sign_swap_iff.mp (h.swap a ha b hb)).1

lemma nonpos_or (h : IsConsistent cmp s) {a b : α} (ha : a ∈ s) (hb : b ∈ s) :
    cmp a b ≤ 0 ∨ cmp b a ≤ 0 := by
  by_contra hpos
  obtain ⟨hab, hba⟩ := not_or.mp hpos
  have := (h.neg_iff ha hb).mpr (not_le.mp hba)
  omega

/-- A function that follows keys in a linear order. -/
lemma of_key [LinearOrder κ] (key : α → κ) (hneg : ∀ a b, cmp a b < 0 ↔ key a < key b)
    (hpos : ∀ a b, 0 < cmp a b ↔ key b < key a) (s : Set α) : IsConsistent cmp s where
  swap a _ b _ := sign_swap_iff.mpr ⟨(hneg a b).trans (hpos b a).symm,
    (hpos a b).trans (hneg b a).symm⟩
  trans a _ b _ c _ hab hbc := by
    rw [← not_lt, hpos, not_lt] at *
    exact hab.trans hbc

/-- On the elements of a list consistency can be tested. -/
instance (cmp : α → α → Int) (l : List α) : Decidable (IsConsistent cmp {a | a ∈ l}) :=
  decidable_of_iff ((∀ a ∈ l, ∀ b ∈ l, (cmp a b).sign = -(cmp b a).sign) ∧
    ∀ a ∈ l, ∀ b ∈ l, ∀ c ∈ l, cmp a b ≤ 0 → cmp b c ≤ 0 → cmp a c ≤ 0)
    ⟨fun h => ⟨h.1, h.2⟩, fun h => ⟨h.swap, h.trans⟩⟩

end IsConsistent

/-! ### Byte order -/

/-- The numbers of the bytes: `strcmp` follows their lexicographic order. -/
def byteNumbers (s : CString) : List Nat := s.map UInt8.toNat

lemma strcmp_swap (s t : CString) : strcmp s t = -strcmp t s := by
  induction s generalizing t with
  | nil => cases t <;> simp [strcmp]
  | cons a s ih =>
    cases t with
    | nil => simp [strcmp]
    | cons b t =>
      by_cases hab : a < b
      · simp [strcmp, hab, UInt8.lt_asymm hab]
      · by_cases hba : b < a
        · simp [strcmp, hab, hba]
        · simp [strcmp, hab, hba, ih]

lemma strcmp_neg_iff {s t : CString} : strcmp s t < 0 ↔ byteNumbers s < byteNumbers t := by
  induction s generalizing t with
  | nil => cases t <;> simp [strcmp, byteNumbers]
  | cons a s ih =>
    cases t with
    | nil => simp [strcmp, byteNumbers]
    | cons b t =>
      simp only [byteNumbers, List.map_cons, List.cons_lt_cons_iff] at ih ⊢
      rw [strcmp, ← UInt8.lt_iff_toNat_lt]
      by_cases hab : a < b
      · simp [hab]
      · by_cases hba : b < a
        · simp [hab, hba, UInt8.toNat_inj, (UInt8.ne_of_lt hba).symm]
        · have heq : a = b := by grind
          simp [heq, ih]

lemma strcmp_pos_iff {s t : CString} : 0 < strcmp s t ↔ byteNumbers t < byteNumbers s := by
  rw [strcmp_swap, Left.neg_pos_iff, strcmp_neg_iff]

/-- `strcmp` is consistent. -/
lemma strcmp_consistent (s : Set CString) : IsConsistent strcmp s :=
  .of_key byteNumbers (fun _ _ => strcmp_neg_iff) (fun _ _ => strcmp_pos_iff) s

end MiniDbms
