import Mathlib

/-!
# Recently used elements

The distinct elements of a history, the last used first, and the list of the first `n` of them that
a least-recently-used cache keeps.
-/

namespace MiniDbms

variable {α : Type*} [DecidableEq α]

/-- The distinct elements of a history, the last used first. -/
def recency (history : List α) : List α := history.dedup.reverse

lemma nodup_recency (history : List α) : (recency history).Nodup :=
  List.nodup_reverse.mpr (List.nodup_dedup history)

variable [BEq α] [LawfulBEq α]

/-- A cache of `n` elements, ordered by their last use, uses one. -/
def lruUse (n : Nat) (cache : List α) (a : α) : List α := (a :: cache.erase a).take n

lemma dedup_append_singleton (l : List α) (a : α) : (l ++ [a]).dedup = l.dedup.erase a ++ [a] := by
  induction l with
  | nil => rfl
  | cons b l ih =>
    rw [List.cons_append]
    by_cases hmem : b ∈ l
    · rw [List.dedup_cons_of_mem hmem, List.dedup_cons_of_mem (List.mem_append_left _ hmem), ih]
    · rw [List.dedup_cons_of_notMem hmem]
      by_cases hb : b = a
      · subst hb
        have herase : l.dedup.erase b = l.dedup := List.erase_of_not_mem (by simpa using hmem)
        rw [List.dedup_cons_of_mem (by simp), ih, List.erase_cons_head, herase]
      · rw [List.dedup_cons_of_notMem (by simp [hmem, hb]), ih,
          List.erase_cons_tail (by simpa using hb), List.cons_append]

/-- What is used comes first, and the others keep their order. -/
lemma recency_append (history : List α) (a : α) :
    recency (history ++ [a]) = a :: (recency history).erase a := by
  rw [recency, dedup_append_singleton, List.reverse_append, List.reverse_singleton,
    List.singleton_append, (List.nodup_dedup history).erase_eq_filter, ← List.filter_reverse,
    (nodup_recency history).erase_eq_filter, recency]

lemma take_erase_take (l : List α) (a : α) (n : Nat) :
    ((l.take (n + 1)).erase a).take n = (l.erase a).take n := by
  induction l generalizing n with
  | nil => rfl
  | cons b l ih =>
    rw [List.take_succ_cons]
    by_cases hb : b = a
    · subst hb
      rw [List.erase_cons_head, List.erase_cons_head, List.take_take, min_self]
    · rw [List.erase_cons_tail (by simpa using hb), List.erase_cons_tail (by simpa using hb)]
      cases n with
      | zero => rfl
      | succ n => rw [List.take_succ_cons, List.take_succ_cons, ih]

/-- The cache keeps the elements that were used last. -/
lemma lruUse_recency (n : Nat) (history : List α) (a : α) :
    lruUse n ((recency history).take n) a = (recency (history ++ [a])).take n := by
  rw [lruUse, recency_append]
  cases n with
  | zero => rfl
  | succ n => rw [List.take_succ_cons, List.take_succ_cons, take_erase_take]

end MiniDbms
