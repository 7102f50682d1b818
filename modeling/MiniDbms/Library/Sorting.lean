import MiniDbms.Library.Comparator

/-!
# Sorting and binary search

`qsort` sorts with a consistent comparison function and permutes with any. A binary search for the
end of the values below a bound finds it in a list that has all of them in front.
-/

namespace MiniDbms

variable {α : Type*}

/-! ### Sorting -/

/-- What `qsort` promises. -/
structure IsQsort (qsort : (α → α → Int) → List α → List α) : Prop where
  perm : ∀ cmp l, (qsort cmp l).Perm l
  sorted : ∀ cmp l, IsConsistent cmp {a | a ∈ l} → (qsort cmp l).Pairwise fun a b => cmp a b ≤ 0

/-- An insertion sort. The elements carry their membership, as the function need not be consistent
elsewhere. -/
def insertionSortBy (cmp : α → α → Int) (l : List α) : List α :=
  (l.attach.insertionSort fun a b => cmp a.val b.val ≤ 0).map Subtype.val

lemma insertionSortBy_perm (cmp : α → α → Int) (l : List α) : (insertionSortBy cmp l).Perm l := by
  have h := (List.perm_insertionSort (fun a b : {a // a ∈ l} => cmp a.val b.val ≤ 0) l.attach).map
    Subtype.val
  rwa [List.attach_map_subtype_val] at h

lemma insertionSortBy_isQsort : IsQsort (insertionSortBy (α := α)) where
  perm := insertionSortBy_perm
  sorted cmp l h := by
    have htotal : Std.Total fun a b : {a // a ∈ l} => cmp a.val b.val ≤ 0 :=
      ⟨fun a b => h.nonpos_or a.2 b.2⟩
    have htrans : IsTrans {a // a ∈ l} fun a b => cmp a.val b.val ≤ 0 :=
      ⟨fun a b c => h.trans _ a.2 _ b.2 _ c.2⟩
    rw [insertionSortBy, List.pairwise_map]
    exact List.pairwise_insertionSort _ l.attach

open Classical in
/-- With an inconsistent comparison function `qsort` may return any permutation. -/
lemma exists_isQsort {cmp : α → α → Int} {l l' : List α} (hperm : l'.Perm l)
    (h : ¬ IsConsistent cmp {a | a ∈ l}) : ∃ qsort, IsQsort qsort ∧ qsort cmp l = l' := by
  refine ⟨fun cmp' m => if cmp' = cmp ∧ m = l then l' else insertionSortBy cmp' m, ⟨?_, ?_⟩, by simp⟩
  · intro cmp' m
    by_cases heq : cmp' = cmp ∧ m = l
    · rw [if_pos heq, heq.2]
      exact hperm
    · rw [if_neg heq]
      exact insertionSortBy_perm cmp' m
  · intro cmp' m hm
    rw [if_neg]
    · exact insertionSortBy_isQsort.sorted cmp' m hm
    · rintro ⟨rfl, rfl⟩
      exact h hm

/-! ### Binary search -/

/-- A binary search from `left` to `right`: it goes on behind the positions where `p` holds. -/
def bisect (p : Nat → Bool) : (fuel left right : Nat) → Nat
  | 0, left, _            => left
  | fuel + 1, left, right =>
    if left < right then
      let middle := left + (right - left) / 2
      if p middle then bisect p fuel (middle + 1) right else bisect p fuel left middle
    else left

lemma bisect_range {p : Nat → Bool} {fuel left right : Nat} (h : left ≤ right) :
    left ≤ bisect p fuel left right ∧ bisect p fuel left right ≤ right := by
  induction fuel generalizing left right with
  | zero => exact ⟨le_refl _, h⟩
  | succ fuel ih =>
    rw [bisect]
    dsimp only
    split_ifs with hlt hp
    · have := @ih (left + (right - left) / 2 + 1) right (by omega)
      omega
    · have := @ih left (left + (right - left) / 2) (by omega)
      omega
    · exact ⟨le_refl _, h⟩

/-- Where `p` holds up to some position only, the search finds that position. -/
lemma bisect_spec {p : Nat → Bool} {fuel left right : Nat} (h : left ≤ right)
    (hfuel : right - left ≤ fuel)
    (hp : ∀ i j, left ≤ i → i ≤ j → j < right → p j = true → p i = true) {i : Nat}
    (hleft : left ≤ i) (hright : i < right) : p i = true ↔ i < bisect p fuel left right := by
  induction fuel generalizing left right with
  | zero => omega
  | succ fuel ih =>
    have hlt : left < right := by omega
    rw [bisect, if_pos hlt]
    dsimp only
    by_cases hmiddle : p (left + (right - left) / 2) = true
    · rw [if_pos hmiddle]
      have hrange := @bisect_range p fuel (left + (right - left) / 2 + 1) right (by omega)
      by_cases hi : i ≤ left + (right - left) / 2
      · exact iff_of_true (hp i _ hleft hi (by omega) hmiddle) (by omega)
      · exact ih (by omega) (by omega) (fun j k hj => hp j k (by omega)) (by omega) hright
    · rw [if_neg hmiddle]
      have hrange := @bisect_range p fuel left (left + (right - left) / 2) (by omega)
      by_cases hi : i < left + (right - left) / 2
      · exact ih (by omega) (by omega) (fun j k hj hjk hk => hp j k hj hjk (by omega)) hleft hi
      · refine iff_of_false (fun hpi => hmiddle ?_) (by omega)
        exact hp _ i (by omega) (by omega) hright hpi

/-- In a list that has the values with `q` in front, the search separates them from the others. -/
lemma bisect_separates {p : Nat → Bool} {q : α → Bool} {l : List α}
    (hp : ∀ i (h : i < l.length), p i = q l[i])
    (hq : l.Pairwise fun a b => q b = true → q a = true) :
    l.take (bisect p l.length 0 l.length) = l.filter q ∧
      l.drop (bisect p l.length 0 l.length) = l.filter fun a => !q a := by
  have hmono : ∀ i j, 0 ≤ i → i ≤ j → j < l.length → p j = true → p i = true := by
    intro i j _ hij hj hpj
    rcases hij.eq_or_lt with rfl | hlt
    · exact hpj
    · rw [hp i (by omega)]
      rw [hp j hj] at hpj
      exact List.pairwise_iff_getElem.mp hq i j (by omega) hj hlt hpj
  set r := bisect p l.length 0 l.length with hr
  have hspec : ∀ i (h : i < l.length), q l[i] = true ↔ i < r := by
    intro i hi
    rw [← hp i hi, hr]
    exact bisect_spec (Nat.zero_le _) (by omega) hmono (Nat.zero_le _) hi
  have hfront : ∀ a ∈ l.take r, q a = true := by
    intro a ha
    obtain ⟨i, hi, rfl⟩ := List.getElem_of_mem ha
    rw [List.getElem_take]
    exact (hspec i _).mpr (by simp at hi; omega)
  have hback : ∀ a ∈ l.drop r, q a = false := by
    intro a ha
    obtain ⟨i, hi, rfl⟩ := List.getElem_of_mem ha
    rw [List.getElem_drop, ← Bool.not_eq_true, hspec]
    omega
  have hsplit : l.take r ++ l.drop r = l := List.take_append_drop r l
  constructor
  · conv_rhs => rw [← hsplit, List.filter_append, List.filter_eq_self.mpr hfront,
      List.filter_eq_nil_iff.mpr (by simpa using hback), List.append_nil]
  · conv_rhs => rw [← hsplit, List.filter_append,
      List.filter_eq_nil_iff.mpr (by simpa using hfront), List.nil_append,
      List.filter_eq_self.mpr (by simpa using hback)]

end MiniDbms
