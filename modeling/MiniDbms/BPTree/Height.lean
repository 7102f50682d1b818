import MiniDbms.BPTree.Links

/-!
# The height of the tree

Every node but the root is at least half full, so that the number of keys grows with the sixteenth
power of the height. The loop of `bptree_find_leaf` takes one round a level, which bounds the nodes
that a search reads by the logarithm of the number of keys.
-/

namespace MiniDbms

/-! ### Full levels -/

/-- A list of lists that are all long is long. -/
lemma length_flatMap_ge {α β : Type} (l : List α) (f : α → List β) (m : Nat)
    (hf : ∀ x ∈ l, m ≤ (f x).length) : l.length * m ≤ (l.flatMap f).length := by
  rw [List.length_flatMap, ← smul_eq_mul, ← List.length_map fun x => (f x).length]
  refine List.card_nsmul_le_sum _ _ fun k hk => ?_
  obtain ⟨x, hx, rfl⟩ := List.mem_map.mp hk
  exact hf x hx

namespace Shape

variable {d : Nat} {r : Bool} {lo hi : Option Int} {s : Shape}

/-- A node other than the root has sixteen entries or sixteen children. -/
lemma WF.pow_le_length (h : s.WF d false lo hi) : 16 ^ (d + 1) ≤ s.entries.length := by
  induction d generalizing lo hi s with
  | zero =>
    cases s with
    | node a ks cs => cases h
    | leaf a es nx =>
      rw [entries_leaf]
      exact h.2.2.2.2 rfl
  | succ d ih =>
    cases s with
    | leaf a es nx => cases h
    | node a ks cs =>
      have hchildren : 16 ≤ cs.length := by
        have hkeys := h.2.2.2 rfl
        have hlen := h.1.length_eq
        omega
      have hentries := length_flatMap_ge cs entries (16 ^ (d + 1)) fun c hc => by
        obtain ⟨lo', hi', hwf⟩ := h.child hc
        exact ih hwf
      calc 16 ^ (d + 1 + 1) = 16 * 16 ^ (d + 1) := by rw [pow_succ, mul_comm]
        _ ≤ cs.length * 16 ^ (d + 1) := Nat.mul_le_mul_right _ hchildren
        _ ≤ (Shape.node a ks cs).entries.length := by rwa [entries_node]

/-- An internal root has two children at least. -/
lemma WF.two_mul_pow_le (h : s.WF (d + 1) r lo hi) : 2 * 16 ^ (d + 1) ≤ s.entries.length := by
  cases s with
  | leaf a es nx => cases h
  | node a ks cs =>
    have hchildren : 2 ≤ cs.length := by
      have hkeys := List.length_pos_of_ne_nil h.2.1
      have hlen := h.1.length_eq
      omega
    have hentries := length_flatMap_ge cs entries (16 ^ (d + 1)) fun c hc => by
      obtain ⟨lo', hi', hwf⟩ := h.child hc
      exact hwf.pow_le_length
    rw [entries_node]
    exact (Nat.mul_le_mul_right _ hchildren).trans hentries

/-- The height is at most logarithmic in the number of entries. -/
lemma WF.height_le (h : s.WF d r lo hi) : d ≤ Nat.log 16 (s.entries.length / 2) := by
  cases d with
  | zero => exact Nat.zero_le _
  | succ d =>
    have hpow : 16 ^ (d + 1) ≤ s.entries.length / 2 := by
      have := h.two_mul_pow_le
      omega
    have hpos : s.entries.length / 2 ≠ 0 := by
      have : 0 < 16 ^ (d + 1) := by positivity
      omega
    exact Nat.le_log_of_pow_le (by norm_num) hpow

end Shape

/-! ### Searches -/

/-- The entries of a tree are as many as the keys that were inserted. -/
lemma length_entries_eq {pairs : List (Int × Int)} {s : Shape} {d : Nat}
    (hs : s.WF d true none none)
    (hmap : ∀ k v, (k, v) ∈ s.entries ↔ pairs.lookup k = some v) :
    s.entries.length = (pairs.map Prod.fst).toFinset.card := by
  have hnodup : (s.entries.map Prod.fst).Nodup := hs.entries_sorted.1.imp ne_of_lt
  rw [← List.length_map Prod.fst, ← List.toFinset_card_of_nodup hnodup]
  congr 1
  ext k
  rw [List.mem_toFinset, List.mem_toFinset, mem_keys_iff_lookup pairs k]
  simp only [List.mem_map, Prod.exists, hmap]
  constructor
  · rintro ⟨k', v, h, rfl⟩
    exact ⟨v, h⟩
  · rintro ⟨v, h⟩
    exact ⟨k, v, h, rfl⟩

/-- The number of different keys. -/
def keyCount (pairs : List (Int × Int)) : Nat := (pairs.map Prod.fst).toFinset.card

/-- In a tree built from `NULL` with `n` different keys, the loop of `bptree_find_leaf` ends at its
leaf after `log₁₆ (n / 2) + 1` nodes at the latest. -/
theorem bptreeFindLeaf_logarithmic (pairs : List (Int × Int)) (key : Int) :
    (∀ fuel, Nat.log 16 (keyCount pairs / 2) < fuel →
      bptreeFindLeaf (bptreeRun pairs) key fuel (bptreeRun pairs).root =
        bptreeFindLeaf (bptreeRun pairs) key (bptreeRun pairs).heap.cells.length
          (bptreeRun pairs).root) ∧
      ((bptreeFindLeaf (bptreeRun pairs) key (Nat.log 16 (keyCount pairs / 2) + 1)
        (bptreeRun pairs).root).isSome = true ↔ pairs ≠ []) := by
  set t := bptreeRun pairs
  rcases bptreeRun_shape pairs with ⟨hnull, rfl⟩ | ⟨s, d, hm, hs, hmap, -⟩
  · have hnone : ∀ fuel, bptreeFindLeaf t key fuel t.root = none := by
      intro fuel
      rw [show t = .null from hnull]
      cases fuel <;> rfl
    exact ⟨fun fuel _ => by rw [hnone, hnone], by simp [hnone]⟩
  · have hheight : d ≤ Nat.log 16 (keyCount pairs / 2) := by
      have := hs.height_le
      rwa [length_entries_eq hs hmap] at this
    obtain ⟨fs, a, es, nx, lo, hi, -, -, hfind⟩ := bptreeFindLeaf_spec [] hs ⟨rfl, rfl⟩
      (inRange_none_none key) (by simp [sideEntries]) hm.owns
    have hroot : t.root = some s.addr := hm.root
    have hcells : d < t.heap.cells.length := hm.represents.height_lt hs
    rw [hroot]
    refine ⟨fun fuel hfuel => ?_, ?_⟩
    · rw [hfind fuel (by omega), hfind _ hcells]
    · rw [hfind _ (by omega)]
      refine ⟨fun _ => ?_, fun _ => rfl⟩
      rintro rfl
      cases hm.root

end MiniDbms
