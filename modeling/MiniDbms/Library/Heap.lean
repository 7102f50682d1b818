import Mathlib

/-!
# A heap of cells with exclusive ownership

Cells live at natural-number addresses and are never reclaimed, so a fresh cell takes the
next address. The outcome of each allocation is scripted by the heap itself, which lets the
same program text be run with and without allocation failures.

`Owns h L` says that the heap stores exactly the listed contents at the listed, pairwise
distinct addresses. Since the list is read up to permutation, it plays the part of a
separating conjunction: every rule below touches one cell and frames the rest.
-/

namespace MiniDbms

/-- A non-null pointer. -/
abbrev Addr := Nat

structure Heap (α : Type) where
  cells : List α
  /-- Outcomes of the next allocations; once exhausted, allocation succeeds. -/
  outcomes : List Bool
  deriving DecidableEq, Repr

namespace Heap

variable {α : Type}

def empty : Heap α := ⟨[], []⟩

def get? (h : Heap α) (a : Addr) : Option α := h.cells[a]?

def modify (h : Heap α) (a : Addr) (f : α → α) : Heap α :=
  { h with cells := h.cells.modify a f }

/-- Try to allocate a cell holding `x`. -/
def alloc (h : Heap α) (x : α) : Option Addr × Heap α :=
  match h.outcomes with
  | []            => (some h.cells.length, ⟨h.cells ++ [x], []⟩)
  | true :: rest  => (some h.cells.length, ⟨h.cells ++ [x], rest⟩)
  | false :: rest => (none, { h with outcomes := rest })

@[simp] lemma cells_modify_length (h : Heap α) (a : Addr) (f : α → α) :
    (h.modify a f).cells.length = h.cells.length := by simp [modify]

@[simp] lemma outcomes_modify (h : Heap α) (a : Addr) (f : α → α) :
    (h.modify a f).outcomes = h.outcomes := rfl

/-- The next `n` allocations succeed. -/
def Allocates (h : Heap α) (n : Nat) : Prop := ∀ b ∈ h.outcomes.take n, b = true

instance (h : Heap α) (n : Nat) : Decidable (h.Allocates n) :=
  inferInstanceAs (Decidable (∀ b ∈ h.outcomes.take n, b = true))

lemma allocates_of_outcomes_nil {h : Heap α} (ho : h.outcomes = []) (n : Nat) :
    h.Allocates n := by
  simp [Allocates, ho]

lemma allocates_zero (h : Heap α) : h.Allocates 0 := by simp [Allocates]

/-- An allocation takes the next outcome. -/
lemma allocates_succ_iff (h : Heap α) (n : Nat) :
    h.Allocates (n + 1) ↔
      h.outcomes.head? ≠ some false ∧ ∀ b ∈ h.outcomes.tail.take n, b = true := by
  cases ho : h.outcomes with
  | nil => simp [Allocates, ho]
  | cons b rest => cases b <;> simp [Allocates, ho]

lemma alloc_of_head {h : Heap α} (ho : h.outcomes.head? ≠ some false) (x : α) :
    h.alloc x = (some h.cells.length, ⟨h.cells ++ [x], h.outcomes.tail⟩) := by
  cases hrest : h.outcomes with
  | nil => simp [alloc, hrest]
  | cons b rest => cases b <;> simp_all [alloc]

lemma alloc_of_head_false {h : Heap α} (ho : h.outcomes.head? = some false) (x : α) :
    h.alloc x = (none, { h with outcomes := h.outcomes.tail }) := by
  cases hrest : h.outcomes with
  | nil => simp [hrest] at ho
  | cons b rest => cases b <;> simp_all [alloc]

/-- The heap holds the listed contents at the listed, pairwise distinct addresses. -/
structure Owns (h : Heap α) (L : List (Addr × α)) : Prop where
  get : ∀ c ∈ L, h.get? c.1 = some c.2
  nodup : (L.map Prod.fst).Nodup

namespace Owns

variable {h : Heap α} {L L' : List (Addr × α)} {a : Addr} {x : α}

lemma of_perm (ho : h.Owns L) (hp : L.Perm L') : h.Owns L' :=
  ⟨fun c hc => ho.get c (hp.mem_iff.mpr hc), (hp.map Prod.fst).nodup_iff.mp ho.nodup⟩

lemma get_head (ho : h.Owns ((a, x) :: L)) : h.get? a = some x :=
  ho.get (a, x) (by simp)

lemma not_mem_tail (ho : h.Owns ((a, x) :: L)) : a ∉ L.map Prod.fst := by
  have := ho.nodup
  rw [List.map_cons, List.nodup_cons] at this
  exact this.1

/-- Writing the head cell leaves the framed cells alone. -/
lemma modify_head (ho : h.Owns ((a, x) :: L)) (f : α → α) :
    (h.modify a f).Owns ((a, f x) :: L) := by
  refine ⟨fun c hc => ?_, by simpa using ho.nodup⟩
  rcases List.mem_cons.mp hc with rfl | hcL
  · have := ho.get_head
    simp only [get?] at this
    simp [get?, modify, this]
  · have hne : a ≠ c.1 := by
      rintro rfl
      exact ho.not_mem_tail (List.mem_map_of_mem hcL)
    have := ho.get c (by simp [hcL])
    simp only [get?] at this
    simp [get?, modify, hne, this]

lemma addr_lt (ho : h.Owns L) {c : Addr × α} (hc : c ∈ L) : c.1 < h.cells.length := by
  have := ho.get c hc
  simp only [get?] at this
  exact (List.getElem?_eq_some_iff.mp this).1

/-- Allocation extends what is owned by a cell at a fresh address. -/
lemma push (ho : h.Owns L) (x : α) (os : List Bool) :
    (⟨h.cells ++ [x], os⟩ : Heap α).Owns ((h.cells.length, x) :: L) := by
  refine ⟨fun c hc => ?_, ?_⟩
  · rcases List.mem_cons.mp hc with rfl | hc
    · simp [get?]
    · have hlt := ho.addr_lt hc
      have := ho.get c hc
      simp only [get?] at this ⊢
      rw [List.getElem?_append_left hlt, this]
  · rw [List.map_cons, List.nodup_cons]
    refine ⟨fun hmem => ?_, ho.nodup⟩
    obtain ⟨c, hc, hca⟩ := List.mem_map.mp hmem
    exact absurd hca (ho.addr_lt hc).ne

/-- Distinct addresses below the end of the heap: there are at most as many as cells. -/
lemma length_le (ho : h.Owns L) : L.length ≤ h.cells.length := by
  have hsub : (L.map Prod.fst).toFinset ⊆ Finset.range h.cells.length := by
    intro a ha
    simp only [List.mem_toFinset, List.mem_map] at ha
    obtain ⟨c, hc, rfl⟩ := ha
    exact Finset.mem_range.mpr (ho.addr_lt hc)
  have := Finset.card_le_card hsub
  rwa [List.toFinset_card_of_nodup ho.nodup, Finset.card_range, List.length_map] at this

end Owns
end Heap
end MiniDbms
