import Mathlib

/-!
# Condition variables

Threads wait at a condition variable until they are unblocked. A signal unblocks at least one of the
threads that are still blocked, a broadcast all of them, and a thread may come back without either.
An unblocked thread still waits for the mutex before it comes back. When every item that is put down
comes with a signal, no item is left without a thread that comes for it.
-/

namespace MiniDbms.Condition

variable {ι : Type}

/-- A signal, by the threads that wait and those of them that are unblocked before and after. -/
structure Signal (waiting unblocked unblocked' : Finset ι) : Prop where
  keeps : unblocked ⊆ unblocked'
  waits : unblocked' ⊆ waiting
  wakes : unblocked' = unblocked → waiting ⊆ unblocked

/-- While a thread is blocked, every item has an awake or an unblocked thread of its own. -/
def Covered (items awake : Nat) (waiting unblocked : Finset ι) : Prop :=
  waiting ⊆ unblocked ∨ items ≤ awake + unblocked.card

variable {items awake : Nat} {waiting unblocked unblocked' : Finset ι} {thread : ι}

/-- An item is put down. -/
lemma Covered.signal (h : Covered items awake waiting unblocked)
    (hsignal : Signal waiting unblocked unblocked') :
    Covered (items + 1) awake waiting unblocked' := by
  rcases h with hall | hle
  · exact .inl (hall.trans hsignal.keeps)
  by_cases hsame : unblocked' = unblocked
  · exact .inl (hsame ▸ hsignal.wakes hsame)
  · have hlt := Finset.card_lt_card (hsignal.keeps.ssubset_of_ne (Ne.symm hsame))
    exact .inr (by omega)

lemma covered_broadcast : Covered items awake waiting waiting := .inl (Finset.Subset.refl _)

/-- A thread starts to wait, as nothing is there. -/
lemma covered_empty : Covered 0 awake waiting unblocked := .inr (Nat.zero_le _)

/-- An awake thread takes an item. -/
lemma Covered.take (h : Covered (items + 1) (awake + 1) waiting unblocked) :
    Covered items awake waiting unblocked := by
  rcases h with hall | hle
  · exact .inl hall
  · exact .inr (by omega)

/-- More threads are awake. -/
lemma Covered.mono {awake' : Nat} (h : Covered items awake waiting unblocked)
    (hle : awake ≤ awake') : Covered items awake' waiting unblocked := by
  rcases h with hall | hitems
  · exact .inl hall
  · exact .inr (by omega)

section

variable [DecidableEq ι]

/-- An unblocked thread comes back. -/
lemma Covered.back (h : Covered items awake waiting unblocked) (hthread : thread ∈ unblocked) :
    Covered items (awake + 1) (waiting.erase thread) (unblocked.erase thread) := by
  rcases h with hall | hle
  · exact .inl (Finset.erase_subset_erase thread hall)
  · have hcard := Finset.card_erase_add_one hthread
    exact .inr (by omega)

/-- A thread comes back by itself. -/
lemma Covered.spurious (h : Covered items awake waiting unblocked) :
    Covered items (awake + 1) (waiting.erase thread) unblocked := by
  rcases h with hall | hle
  · exact .inl ((Finset.erase_subset thread waiting).trans hall)
  · exact .inr (by omega)

end

end MiniDbms.Condition
