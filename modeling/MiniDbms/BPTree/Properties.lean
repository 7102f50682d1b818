import MiniDbms.BPTree.Descent

/-!
# Correctness of `bptree_insert`

Every tree that `bptree_insert` builds from `NULL` is modelled by a well-formed shape whose
entries are the first insertions of each key. The map semantics of search and insertion and the
node-level shape of the tree are both read off from there.
-/

namespace MiniDbms

/-! ### Leaves -/

lemma leafInsertIndex_cons (k : Int) (ks : List Int) (key : Int) :
    leafInsertIndex (k :: ks) key = if k < key then leafInsertIndex ks key + 1 else 0 := by
  by_cases h : k < key
  · simp [leafInsertIndex, List.findIdx_cons, h, not_le.mpr h]
  · simp [leafInsertIndex, List.findIdx_cons, h, not_lt.mp h]

/-- The entries of a leaf after the sorted insertion of `(key, row)`. -/
def leafInsert (es : List (Int × Int)) (key row : Int) : List (Int × Int) :=
  es.insertIdx (leafInsertIndex (es.map Prod.fst) key) (key, row)

lemma leafInsert_cons (e : Int × Int) (es : List (Int × Int)) (key row : Int) :
    leafInsert (e :: es) key row
      = if e.1 < key then e :: leafInsert es key row else (key, row) :: e :: es := by
  rw [leafInsert, List.map_cons, leafInsertIndex_cons]
  split_ifs <;> simp [leafInsert]

lemma leafInsert_perm (es : List (Int × Int)) (key row : Int) :
    (leafInsert es key row).Perm ((key, row) :: es) := by
  induction es with
  | nil => simp [leafInsert, leafInsertIndex]
  | cons e es ih =>
    rw [leafInsert_cons]
    split_ifs
    · exact (ih.cons e).trans (List.Perm.swap _ _ _)
    · exact List.Perm.refl _

lemma leafInsert_sorted {es : List (Int × Int)} {key : Int} (row : Int)
    (hs : (es.map Prod.fst).Pairwise (· < ·)) (hk : key ∉ es.map Prod.fst) :
    ((leafInsert es key row).map Prod.fst).Pairwise (· < ·) := by
  induction es with
  | nil => simp [leafInsert, leafInsertIndex]
  | cons e es ih =>
    simp only [List.map_cons, List.pairwise_cons, List.mem_cons, not_or] at hs hk
    rw [leafInsert_cons]
    split_ifs with hlt
    · simp only [List.map_cons, List.pairwise_cons]
      refine ⟨fun k hmem => ?_, ih hs.2 hk.2⟩
      have hmem' := ((leafInsert_perm es key row).map Prod.fst).mem_iff.mp hmem
      rw [List.map_cons, List.mem_cons] at hmem'
      rcases hmem' with rfl | hmem'
      · exact hlt
      · exact hs.1 k hmem'
    · have hkey : key < e.1 := lt_of_le_of_ne (not_lt.mp hlt) hk.1
      simp only [List.map_cons, List.pairwise_cons, List.mem_cons]
      refine ⟨?_, hs.1, hs.2⟩
      rintro k (rfl | hmem)
      · exact hkey
      · exact lt_trans hkey (hs.1 k hmem)

lemma leafInsert_map_fst (es : List (Int × Int)) (key row : Int) :
    (leafInsert es key row).map Prod.fst
      = (es.map Prod.fst).insertIdx (leafInsertIndex (es.map Prod.fst) key) key := by
  simp [leafInsert, List.map_insertIdx]

lemma leafInsert_map_snd (es : List (Int × Int)) (key row : Int) :
    (leafInsert es key row).map Prod.snd
      = (es.map Prod.snd).insertIdx (leafInsertIndex (es.map Prod.fst) key) row := by
  simp [leafInsert, List.map_insertIdx]

/-- The tree after the insertion of an entry, fresh nodes being numbered from `new`. -/
inductive Shape.Inserted (key row : Int) (new : Addr) : Shape → Shape → Prop where
  | room (fs : List Frame) (a : Addr) (es : List (Int × Int)) (nx : Option Addr) :
      Inserted key row new (plug fs (.leaf a es nx)) (plug fs (.leaf a (leafInsert es key row) nx))
  | split (fs : List Frame) (a : Addr) (es : List (Int × Int)) (nx : Option Addr) (sep : Int) :
      Inserted key row new (plug fs (.leaf a es nx))
        (insertUp (new + 1) fs (.leaf a ((leafInsert es key row).take 16) (some new)) sep
          (.leaf new ((leafInsert es key row).drop 16) nx))

lemma Shape.Inserted.entries_perm {key row : Int} {new : Addr} {s s' : Shape}
    (h : Inserted key row new s s') : s'.entries.Perm ((key, row) :: s.entries) := by
  cases h with
  | room fs a es nx =>
    refine (entries_plug fs _).trans (List.Perm.trans ?_ ((entries_plug fs _).symm.cons _))
    simpa using (leafInsert_perm es key row).append_right (sideEntries fs)
  | split fs a es nx sep =>
    refine (entries_insertUp _ _ _ _ _).trans
      (List.Perm.trans ?_ ((entries_plug fs _).symm.cons _))
    rw [Shape.entries_leaf, Shape.entries_leaf, Shape.entries_leaf, List.take_append_drop]
    exact (leafInsert_perm es key row).append_right (sideEntries fs)

section LeafAt

variable {key row : Int} {s : Shape} {fs : List Frame} {a : Addr} {es : List (Int × Int)}
  {nx : Option Addr} {lo hi : Option Int} {t : BPTree}

lemma LeafAt.node_eq (hat : LeafAt key s fs a es nx lo hi) (h : Represents t s) :
    t.node a = ⟨true, es.map Prod.fst, parentOf fs, [], es.map Prod.snd, nx⟩ := by
  have hm : Represents t (plug fs (.leaf a es nx)) := by rw [hat.plug_eq]; exact h
  exact BPTree.node_of_owns (hm.owns.of_perm (cells_plug fs _))
    (List.mem_append_left _ (Shape.addr_mem_cells _ _))

/-- The leaf with the new entry stays within the bounds of its place. -/
lemma LeafAt.leafInsert_inRange (hat : LeafAt key s fs a es nx lo hi) (row : Int) :
    ∀ e ∈ leafInsert es key row, InRange lo hi e.1 := by
  intro e he
  rcases List.mem_cons.mp ((leafInsert_perm es key row).mem_iff.mp he) with rfl | he
  · exact hat.inRange
  · exact hat.wf.2.1 e he

/-- Insertion into a leaf with room. -/
lemma bptreeInsertIntoLeaf_spec (hat : LeafAt key s fs a es nx lo hi) (h : Represents t s)
    (hk : key ∉ es.map Prod.fst) (hroom : es.length < bptreeMaxKeys) :
    ∃ t' s', bptreeInsertIntoLeaf t a key row = (t', .success) ∧ Represents t' s' ∧
      t'.heap.outcomes = t.heap.outcomes ∧ (∃ d', s'.WF d' true none none) ∧
      Shape.Inserted key row t.heap.cells.length s s' := by
  have hm : Represents t (plug fs (.leaf a es nx)) := by rw [hat.plug_eq]; exact h
  have hnode := hat.node_eq h
  have hlen : (leafInsert es key row).length = es.length + 1 :=
    (leafInsert_perm es key row).length_eq
  have h1 := hm.owns.of_perm (cells_plug fs _)
  rw [Shape.cells_leaf] at h1
  have h2 := h1.modify_head (fun n =>
    { n with
      keys := n.keys.insertIdx (leafInsertIndex (es.map Prod.fst) key) key
      rowIndices := n.rowIndices.insertIdx (leafInsertIndex (es.map Prod.fst) key) row })
  have heq : bptreeInsertIntoLeaf t a key row = (t.modify a fun n =>
      { n with
        keys := n.keys.insertIdx (leafInsertIndex (es.map Prod.fst) key) key
        rowIndices := n.rowIndices.insertIdx (leafInsertIndex (es.map Prod.fst) key) row },
      .success) := by
    rw [bptreeInsertIntoLeaf, if_neg (by simp [hnode, hroom]), hnode]
  refine ⟨_, plug fs (.leaf a (leafInsert es key row) nx), heq, ⟨?_, ?_⟩, rfl, ?_, ?_⟩
  · refine h2.of_perm (List.Perm.trans ?_ (cells_plug fs _).symm)
    rw [Shape.cells_leaf, leafInsert_map_fst, leafInsert_map_snd]
    exact List.Perm.refl _
  · exact hm.root.trans (congrArg some (addr_plug_congr fs rfl))
  · refine hat.path.plug_wf ⟨leafInsert_sorted _ hat.wf.1 hk, hat.leafInsert_inRange _, ?_, ?_, ?_⟩
    · exact List.ne_nil_of_length_pos (by omega)
    · omega
    · intro hr
      have := hat.wf.2.2.2.2 hr
      omega
  · rw [← hat.plug_eq]
    exact .room fs a es nx

/-- The two halves of an over-full leaf, cut at the first key of the right one. -/
lemma LeafAt.split_wf (hat : LeafAt key s fs a es nx lo hi) (row : Int)
    (hk : key ∉ es.map Prod.fst)
    (hfull : es.length = bptreeMaxKeys) (new : Addr) (nx' nx'' : Option Addr) :
    (Shape.leaf a ((leafInsert es key row).take 16) nx').WF 0 false lo
        (some (((leafInsert es key row).drop 16).map Prod.fst |>.getD 0 0)) ∧
      (Shape.leaf new ((leafInsert es key row).drop 16) nx'').WF 0 false
        (some (((leafInsert es key row).drop 16).map Prod.fst |>.getD 0 0)) hi := by
  have hsorted := leafInsert_sorted row hat.wf.1 hk
  have hrange := hat.leafInsert_inRange row
  have hlen : (leafInsert es key row).length = 32 := by
    rw [(leafInsert_perm es key row).length_eq, List.length_cons, hfull, bptreeMaxKeys]
  generalize leafInsert es key row = l at hsorted hrange hlen
  have hcut : l.take 16 ++ l.drop 16 = l := List.take_append_drop 16 l
  obtain ⟨e₀, rest, hdrop⟩ : ∃ e₀ rest, l.drop 16 = e₀ :: rest :=
    List.exists_cons_of_length_pos (by rw [List.length_drop]; omega)
  have hlt : (l.take 16).length = 16 := by rw [List.length_take]; omega
  have hld : (e₀ :: rest).length = 16 := by rw [← hdrop, List.length_drop]; omega
  rw [← hcut, hdrop, List.map_append, List.map_cons, List.pairwise_append, List.pairwise_cons]
    at hsorted
  rw [← hcut, hdrop] at hrange
  rw [hdrop]
  simp only [List.map_cons, List.getD_cons_zero]
  obtain ⟨hs1, ⟨hs2, hs3⟩, hs4⟩ := hsorted
  constructor
  · refine ⟨hs1, fun e he => ⟨(hrange e (by simp [he])).1, ?_⟩, ?_, ?_, ?_⟩
    · simpa using hs4 e.1 (List.mem_map_of_mem he) e₀.1 (by simp)
    · exact List.ne_nil_of_length_pos (by omega)
    · rw [hlt, bptreeMaxKeys]; omega
    · intro _; omega
  · refine ⟨List.pairwise_cons.mpr ⟨hs2, hs3⟩,
      fun e he => ⟨?_, (hrange e (List.mem_append_right _ he)).2⟩, by simp, ?_, ?_⟩
    · rcases List.mem_cons.mp he with rfl | he
      · simp
      · simpa using (hs2 e.1 (List.mem_map_of_mem he)).le
    · rw [hld, bptreeMaxKeys]; omega
    · intro _; omega

/-- The state in which `bptree_split_leaf` climbs, the new leaf being linked in. -/
def splitLeafNodes (t : BPTree) (leaf : Addr) (key rowIndex : Int) : BPTree :=
  let newLeaf := t.heap.cells.length
  let t := t.push true
  let insertIndex := leafInsertIndex (t.node leaf).keys key
  let tempKeys := (t.node leaf).keys.insertIdx insertIndex key
  let tempRowIndices := (t.node leaf).rowIndices.insertIdx insertIndex rowIndex
  let splitIndex := ((t.node leaf).keys.length + 1) / 2
  let oldNext := (t.node leaf).next
  let oldParent := (t.node leaf).parent
  let t := t.modify leaf fun n =>
    { n with
      keys := tempKeys.take splitIndex
      rowIndices := tempRowIndices.take splitIndex
      next := some newLeaf }
  t.modify newLeaf fun n =>
    { n with
      keys := tempKeys.drop splitIndex
      rowIndices := tempRowIndices.drop splitIndex
      next := oldNext
      parent := oldParent }

/-- The separator that `bptree_split_leaf` hands to the parent. -/
def splitLeafKey (t : BPTree) (leaf : Addr) (key rowIndex : Int) : Int :=
  ((splitLeafNodes t leaf key rowIndex).node t.heap.cells.length).keys.getD 0 0

lemma bptreeSplitLeaf_eq {leaf : Addr} (key rowIndex : Int) (hleaf : (t.node leaf).isLeaf = true)
    (ho : t.heap.outcomes.head? ≠ some false) :
    bptreeSplitLeaf t leaf key rowIndex =
      bptreeInsertIntoParent (climbFuel (splitLeafNodes t leaf key rowIndex))
        (splitLeafNodes t leaf key rowIndex) leaf (splitLeafKey t leaf key rowIndex)
        t.heap.cells.length := by
  rw [bptreeSplitLeaf, if_neg (by rw [hleaf]; simp)]
  simp only [bptreeCreateNode_eq _ ho]
  rfl

/-- The two halves of a full leaf hang where the leaf was, the right half at the fresh address. -/
lemma splitLeafNodes_owns (hat : LeafAt key s fs a es nx lo hi) (h : Represents t s)
    (hfull : es.length = bptreeMaxKeys) :
    let left := Shape.leaf a ((leafInsert es key row).take 16) (some t.heap.cells.length)
    let right := Shape.leaf t.heap.cells.length ((leafInsert es key row).drop 16) nx
    splitLeafKey t a key row = (((leafInsert es key row).drop 16).map Prod.fst).getD 0 0 ∧
      (splitLeafNodes t a key row).heap.Owns
        (left.cells (parentOf fs) ++ right.cells (parentOf fs) ++ frameCells fs left.addr) := by
  intro left right
  have hm : Represents t (plug fs (.leaf a es nx)) := by rw [hat.plug_eq]; exact h
  have h1 := hm.owns.of_perm (cells_plug fs _)
  rw [Shape.cells_leaf] at h1
  have h2 := h1.push ⟨true, [], none, [], [], none⟩ t.heap.outcomes.tail
  have hnode : (t.push true).node a =
      ⟨true, es.map Prod.fst, parentOf fs, [], es.map Prod.snd, nx⟩ :=
    BPTree.node_of_owns (t := t.push true) h2 (by simp)
  have hlen : ((es.map Prod.fst).length + 1) / 2 = 16 := by
    rw [List.length_map, hfull, bptreeMaxKeys]
  -- the left half stays in place, the right half goes to the fresh leaf
  have h3 := (h2.of_perm (List.Perm.swap _ _ _)).modify_head (fun n =>
    { n with
      keys := ((leafInsert es key row).take 16).map Prod.fst
      rowIndices := ((leafInsert es key row).take 16).map Prod.snd
      next := some t.heap.cells.length })
  have h4 := (h3.of_perm (List.Perm.swap _ _ _)).modify_head (fun n =>
    { n with
      keys := ((leafInsert es key row).drop 16).map Prod.fst
      rowIndices := ((leafInsert es key row).drop 16).map Prod.snd
      next := nx
      parent := parentOf fs })
  have hnodes : splitLeafNodes t a key row = ((t.push true).modify a fun n =>
      { n with
        keys := ((leafInsert es key row).take 16).map Prod.fst
        rowIndices := ((leafInsert es key row).take 16).map Prod.snd
        next := some t.heap.cells.length }).modify t.heap.cells.length fun n =>
      { n with
        keys := ((leafInsert es key row).drop 16).map Prod.fst
        rowIndices := ((leafInsert es key row).drop 16).map Prod.snd
        next := nx
        parent := parentOf fs } := by
    rw [splitLeafNodes]
    simp only [hnode, hlen, ← leafInsert_map_fst es key row, ← leafInsert_map_snd,
      ← List.map_take, ← List.map_drop]
  constructor
  · rw [splitLeafKey, hnodes]
    exact congrArg (fun n => n.keys.getD 0 0)
      (BPTree.node_of_owns (t := ((t.push true).modify a _).modify _ _) h4 List.mem_cons_self)
  · rw [hnodes]
    refine Heap.Owns.of_perm (h := (((t.push true).modify a _).modify _ _).heap) h4 ?_
    rw [Shape.cells_leaf, Shape.cells_leaf]
    exact List.Perm.swap _ _ _

lemma splitLeafNodes_heap (t : BPTree) (leaf : Addr) (key rowIndex : Int) :
    (splitLeafNodes t leaf key rowIndex).heap.outcomes = t.heap.outcomes.tail ∧
      (splitLeafNodes t leaf key rowIndex).heap.cells.length = t.heap.cells.length + 1 ∧
      (splitLeafNodes t leaf key rowIndex).root = t.root := by
  refine ⟨rfl, ?_, rfl⟩
  simp [splitLeafNodes, BPTree.modify, BPTree.push]

/-- The climb from a split leaf has fuel for the whole path. -/
lemma LeafAt.climbFuel_lt (hat : LeafAt key s fs a es nx lo hi) (h : Represents t s) :
    2 * fs.length < climbFuel (splitLeafNodes t a key row) := by
  have hm : Represents t (plug fs (.leaf a es nx)) := by rw [hat.plug_eq]; exact h
  have hlt := hm.length_lt
  rw [climbFuel, (splitLeafNodes_heap t a key row).2.1]
  omega

/-- Insertion into a full leaf: cut it in the middle, link the new leaf in, and climb. -/
lemma bptreeSplitLeaf_spec (hat : LeafAt key s fs a es nx lo hi) (h : Represents t s)
    (hk : key ∉ es.map Prod.fst) (hfull : es.length = bptreeMaxKeys)
    (hout : t.heap.Allocates (nodesNeeded fs + 1)) :
    ∃ t' s', bptreeSplitLeaf t a key row = (t', .success) ∧ Represents t' s' ∧
      t'.heap.outcomes = t.heap.outcomes.drop (nodesNeeded fs + 1) ∧
      (∃ d', s'.WF d' true none none) ∧ Shape.Inserted key row t.heap.cells.length s s' := by
  have hm : Represents t (plug fs (.leaf a es nx)) := by rw [hat.plug_eq]; exact h
  obtain ⟨hhead, htail⟩ := (t.heap.allocates_succ_iff _).mp hout
  obtain ⟨hkey, howns⟩ := @splitLeafNodes_owns key row _ _ _ _ _ _ _ _ hat h hfull
  obtain ⟨hwl, hwr⟩ := hat.split_wf row hk hfull t.heap.cells.length (some t.heap.cells.length) nx
  obtain ⟨hout', hlen', hroot'⟩ := splitLeafNodes_heap t a key row
  have hroot : (splitLeafNodes t a key row).root = some (plug fs
      (.leaf a ((leafInsert es key row).take 16) (some t.heap.cells.length))).addr :=
    hroot'.trans (hm.root.trans (congrArg some (addr_plug_congr fs rfl)))
  obtain ⟨t', heq, hrep, houtcomes⟩ := bptreeInsertIntoParent_represents
    ((((leafInsert es key row).drop 16).map Prod.fst).getD 0 0) hat.path (hat.climbFuel_lt h)
    (by rw [Heap.Allocates, hout']; exact htail) hroot howns
  rw [hlen'] at hrep
  refine ⟨t', _, ?_, hrep, ?_, hat.path.insertUp_wf _ hwl hwr, ?_⟩
  · rw [bptreeSplitLeaf_eq _ _ (by rw [hat.node_eq h]) hhead, hkey]
    exact heq
  · rw [houtcomes, hout', List.drop_tail]
  · rw [← hat.plug_eq]
    exact .split fs a es nx _

end LeafAt

/-! ### One insertion -/

lemma bptreeInsert_null (key row : Int) :
    ∃ t', bptreeInsert .null key row = (t', .success) ∧
      Models t' (.leaf 0 [(key, row)] none) := by
  refine ⟨_, rfl, ?_, rfl, rfl⟩
  rw [Shape.cells_leaf]
  refine ⟨fun c hc => ?_, by simp⟩
  rw [List.mem_singleton.mp hc]
  rfl

/-- A key that is present is refused. -/
lemma bptreeInsert_present {t : BPTree} {s : Shape} {d : Nat} (h : Represents t s)
    (hs : s.WF d true none none) {key : Int} (row : Int) (hkey : key ∈ s.entries.map Prod.fst) :
    bptreeInsert t key row = (t, .failure) := by
  obtain ⟨⟨k, v⟩, he, rfl⟩ := List.mem_map.mp hkey
  have hsearch := (h.search_eq_some_iff hs k v).mpr he
  simp [bptreeInsert, h.root, hsearch]

/-- Any other key goes into the leaf that is responsible for it. -/
lemma bptreeInsert_fresh {t : BPTree} {s : Shape} {d : Nat} (h : Represents t s)
    (hs : s.WF d true none none) {key : Int} (row : Int) (hkey : key ∉ s.entries.map Prod.fst) :
    bptreeSearch t key = none ∧ ∃ fs a es nx lo hi, LeafAt key s fs a es nx lo hi ∧
      bptreeFindLeaf t key t.heap.cells.length t.root = some a ∧ key ∉ es.map Prod.fst ∧
      bptreeInsert t key row = if es.length < bptreeMaxKeys then bptreeInsertIntoLeaf t a key row
        else bptreeSplitLeaf t a key row := by
  have hsearch : bptreeSearch t key = none := by
    cases hres : bptreeSearch t key with
    | none => rfl
    | some v =>
      exact absurd (List.mem_map.mpr ⟨_, (h.search_eq_some_iff hs key v).mp hres, rfl⟩) hkey
  obtain ⟨fs, a, es, nx, lo, hi, hat, hfind⟩ := h.findLeaf hs key
  have hk : key ∉ es.map Prod.fst := by
    intro hmem
    obtain ⟨⟨k, v⟩, he, rfl⟩ := List.mem_map.mp hmem
    exact hkey (List.mem_map.mpr ⟨_, (hat.leaf_mem v).mpr he, rfl⟩)
  have hlen : (t.node a).keys.length = es.length := by rw [hat.node_eq h, List.length_map]
  refine ⟨hsearch, fs, a, es, nx, lo, hi, hat, hfind, hk, ?_⟩
  rw [h.root] at hfind
  simp only [bptreeInsert, h.root, hsearch, hfind, hlen]

/-- As long as allocation succeeds, a key is refused if it is present, and added to the entries
otherwise. -/
lemma bptreeInsert_spec {t : BPTree} {s : Shape} {d : Nat} (h : Represents t s)
    (hout : t.heap.outcomes = []) (hs : s.WF d true none none) (key row : Int) :
    (key ∈ s.entries.map Prod.fst → bptreeInsert t key row = (t, .failure)) ∧
      (key ∉ s.entries.map Prod.fst →
        ∃ t' s', bptreeInsert t key row = (t', .success) ∧ Represents t' s' ∧
          t'.heap.outcomes = [] ∧ (∃ d', s'.WF d' true none none) ∧
          Shape.Inserted key row t.heap.cells.length s s') := by
  refine ⟨bptreeInsert_present h hs row, fun hkey => ?_⟩
  obtain ⟨-, fs, a, es, nx, lo, hi, hat, -, hk, heq⟩ := bptreeInsert_fresh h hs row hkey
  rw [heq]
  split_ifs with hroom
  · simpa only [hout] using bptreeInsertIntoLeaf_spec hat h hk hroom
  · simpa only [hout, List.drop_nil] using bptreeSplitLeaf_spec hat h hk
      (le_antisymm hat.wf.2.2.2.1 (not_lt.mp hroom)) (Heap.allocates_of_outcomes_nil hout _)

/-! ### Runs from the empty tree -/

/-- What a run maintains: the tree is either `NULL` with nothing inserted, or models a well-formed
shape whose entries are the first insertions. -/
def RunInv (t : BPTree) (pairs : List (Int × Int)) : Prop :=
  (t = .null ∧ pairs = []) ∨
    ∃ s d, Models t s ∧ s.WF d true none none ∧
      ∀ k v, (k, v) ∈ s.entries ↔ pairs.lookup k = some v

lemma lookup_append_singleton (pairs : List (Int × Int)) (key row k : Int) :
    (pairs ++ [(key, row)]).lookup k
      = (pairs.lookup k).or (if k = key then some row else none) := by
  rw [List.lookup_append]
  by_cases h : k = key
  · simp [h]
  · have h' : (k == key) = false := by simpa using h
    simp [List.lookup_cons, h, h']

lemma mem_keys_iff_lookup (pairs : List (Int × Int)) (k : Int) :
    k ∈ pairs.map Prod.fst ↔ ∃ v, pairs.lookup k = some v := by
  rw [← Option.isSome_iff_exists, List.lookup_isSome_iff, List.mem_map]
  simp only [beq_iff_eq]
  exact exists_congr fun p => and_congr_right fun _ => eq_comm

/-- One call on a tree whose entries are the first insertions. -/
lemma bptreeInsert_entries {t : BPTree} {s : Shape} {d : Nat} {pairs : List (Int × Int)}
    (hm : Models t s) (hs : s.WF d true none none)
    (hmap : ∀ k v, (k, v) ∈ s.entries ↔ pairs.lookup k = some v) (key row : Int) :
    ((bptreeInsert t key row).2 = .success ↔ key ∉ pairs.map Prod.fst) ∧
      ∃ s' d', Models (bptreeInsert t key row).1 s' ∧ s'.WF d' true none none ∧
        (∀ k v, (k, v) ∈ s'.entries ↔ (pairs ++ [(key, row)]).lookup k = some v) ∧
        (s' = s ∨ Shape.Inserted key row t.heap.cells.length s s') := by
  have hkeys : ∀ k, k ∈ s.entries.map Prod.fst ↔ k ∈ pairs.map Prod.fst := by
    intro k
    rw [mem_keys_iff_lookup pairs k]
    simp only [List.mem_map, Prod.exists, hmap]
    constructor
    · rintro ⟨k', v, h, rfl⟩; exact ⟨v, h⟩
    · rintro ⟨v, h⟩; exact ⟨k, v, h, rfl⟩
  obtain ⟨hdup, hfresh⟩ := bptreeInsert_spec hm.represents hm.outcomes hs key row
  by_cases hmem : key ∈ pairs.map Prod.fst
  · rw [hdup ((hkeys key).mpr hmem)]
    refine ⟨by simpa using hmem, s, d, hm, hs, fun k v => ?_, Or.inl rfl⟩
    obtain ⟨w, hw⟩ := (mem_keys_iff_lookup pairs key).mp hmem
    rw [hmap, lookup_append_singleton]
    by_cases hk : k = key
    · simp [hk, hw]
    · simp [hk]
  · obtain ⟨t', s', heq, hrep', hout', ⟨d', hs'⟩, hinserted⟩ :=
      hfresh (fun h => hmem ((hkeys key).mp h))
    rw [heq]
    refine ⟨by simpa using hmem, s', d', ⟨hrep'.owns, hrep'.root, hout'⟩, hs', fun k v => ?_,
      Or.inr hinserted⟩
    have hnone : pairs.lookup key = none := by
      cases hl : pairs.lookup key with
      | none => rfl
      | some w => exact absurd ((mem_keys_iff_lookup pairs key).mpr ⟨w, hl⟩) hmem
    rw [hinserted.entries_perm.mem_iff, List.mem_cons, hmap, lookup_append_singleton]
    by_cases hk : k = key
    · simp [hk, hnone, eq_comm]
    · simp [hk]

/-- The first call makes a leaf. -/
lemma bptreeInsert_null_entries (key row : Int) :
    (bptreeInsert .null key row).2 = .success ∧
      Models (bptreeInsert .null key row).1 (.leaf 0 [(key, row)] none) ∧
      (Shape.leaf 0 [(key, row)] none).WF 0 true none none ∧
      ∀ k v, (k, v) ∈ (Shape.leaf 0 [(key, row)] none).entries ↔
        ([] ++ [(key, row)]).lookup k = some v := by
  obtain ⟨t', heq, hm⟩ := bptreeInsert_null key row
  rw [heq]
  refine ⟨rfl, hm, ⟨by simp, by simp, by simp, by simp [bptreeMaxKeys], by simp⟩, fun k v => ?_⟩
  by_cases hk : k = key
  · simp [hk, eq_comm]
  · have hk' : (k == key) = false := by simpa using hk
    simp [hk, hk', List.lookup_cons]

/-- One call advances the invariant, and succeeds exactly on a new key. -/
lemma RunInv.step {t : BPTree} {pairs : List (Int × Int)} (h : RunInv t pairs) (key row : Int) :
    RunInv (bptreeInsert t key row).1 (pairs ++ [(key, row)]) ∧
      ((bptreeInsert t key row).2 = .success ↔ key ∉ pairs.map Prod.fst) := by
  rcases h with ⟨rfl, rfl⟩ | ⟨s, d, hm, hs, hmap⟩
  · obtain ⟨hstatus, hm, hs, hmap⟩ := bptreeInsert_null_entries key row
    exact ⟨Or.inr ⟨_, 0, hm, hs, hmap⟩, by simpa using hstatus⟩
  · obtain ⟨hstatus, s', d', hm', hs', hmap', -⟩ := bptreeInsert_entries hm hs hmap key row
    exact ⟨Or.inr ⟨s', d', hm', hs', hmap'⟩, hstatus⟩

lemma bptreeRun_append (pairs : List (Int × Int)) (key row : Int) :
    bptreeRun (pairs ++ [(key, row)]) = (bptreeInsert (bptreeRun pairs) key row).1 := by
  simp [bptreeRun]

lemma bptreeRun_inv (pairs : List (Int × Int)) : RunInv (bptreeRun pairs) pairs := by
  induction pairs using List.reverseRecOn with
  | nil => exact Or.inl ⟨rfl, rfl⟩
  | append_singleton pairs p ih =>
    rw [bptreeRun_append]
    exact (ih.step p.1 p.2).1

lemma RunInv.search_eq_lookup {t : BPTree} {pairs : List (Int × Int)} (h : RunInv t pairs)
    (k : Int) : bptreeSearch t k = pairs.lookup k := by
  rcases h with ⟨rfl, rfl⟩ | ⟨s, d, hm, hs, hmap⟩
  · rfl
  · apply Option.ext
    intro v
    rw [hm.represents.search_eq_some_iff hs, hmap]

/-- The tree refines a finite map that keeps the first binding of each key. -/
theorem bptreeRun_refines_map (pairs : List (Int × Int)) (key row : Int) :
    ((bptreeInsert (bptreeRun pairs) key row).2 = .success ↔ key ∉ pairs.map Prod.fst) ∧
      ((bptreeInsert (bptreeRun pairs) key row).2 = .failure →
        ∀ k, bptreeSearch (bptreeInsert (bptreeRun pairs) key row).1 k
          = bptreeSearch (bptreeRun pairs) k) ∧
      ∀ k, bptreeSearch (bptreeRun pairs) k = pairs.lookup k := by
  have hinv := bptreeRun_inv pairs
  obtain ⟨hinv', hstatus⟩ := hinv.step key row
  refine ⟨hstatus, fun hfail k => ?_, hinv.search_eq_lookup⟩
  have hmem : key ∈ pairs.map Prod.fst := by
    by_contra hnot
    rw [hstatus.mpr hnot] at hfail
    cases hfail
  obtain ⟨w, hw⟩ := (mem_keys_iff_lookup pairs key).mp hmem
  rw [hinv'.search_eq_lookup, hinv.search_eq_lookup, lookup_append_singleton]
  by_cases hk : k = key
  · simp [hk, hw]
  · simp [hk]

/-! ### Node-level shape -/

/-- The subtree at address `a` of the heap: all leaves at depth `d`, every key in `[lo, hi)`,
keys strictly increasing, one more child than keys, and the occupancy bounds. The bounds handed
to child `i` are the keys around it. -/
def BPTree.Balanced (t : BPTree) : Nat → Bool → Option Int → Option Int → Addr → Prop
  | 0, isRoot, lo, hi, a =>
      ∃ n, t.heap.get? a = some n ∧ n.isLeaf = true ∧ n.keys.Pairwise (· < ·) ∧
        (∀ k ∈ n.keys, InRange lo hi k) ∧ n.keys.length ≤ bptreeMaxKeys ∧
        (isRoot = false → 16 ≤ n.keys.length)
  | d + 1, isRoot, lo, hi, a =>
      ∃ n, t.heap.get? a = some n ∧ n.isLeaf = false ∧ n.keys.Pairwise (· < ·) ∧
        (∀ k ∈ n.keys, InRange lo hi k) ∧ n.keys.length ≤ bptreeMaxKeys ∧
        1 ≤ n.keys.length ∧ (isRoot = false → 15 ≤ n.keys.length) ∧
        n.children.length = n.keys.length + 1 ∧
        ∀ i c, n.children[i]? = some c →
          Balanced t d false (if i = 0 then lo else n.keys[i - 1]?) (n.keys[i]?.or hi) c

lemma Shape.WF.balanced {t : BPTree} {d : Nat} {r : Bool} {lo hi : Option Int} {s : Shape}
    {p : Option Addr} {L : List (Addr × BPTreeNode)} (hs : s.WF d r lo hi)
    (ho : t.heap.Owns L) (hsub : s.cells p ⊆ L) : t.Balanced d r lo hi s.addr := by
  induction d generalizing r lo hi s p with
  | zero =>
    match s, hs with
    | .leaf a es nx, hs =>
      rw [Shape.cells_leaf] at hsub
      refine ⟨_, ho.get _ (hsub List.mem_cons_self), rfl, hs.1, ?_, by simpa using hs.2.2.2.1,
        fun hr => by simpa using hs.2.2.2.2 hr⟩
      simpa using hs.2.1
  | succ d ih =>
    match s, hs with
    | .node a ks cs, hs =>
      obtain ⟨hchain, hne, hmax, hmin⟩ := hs
      rw [Shape.cells_node] at hsub
      have hbounds := hchain.sep_bounds (fun _ _ _ => Shape.WF.bounded)
      refine ⟨_, ho.get _ (hsub List.mem_cons_self), rfl,
        hchain.pairwise (fun _ _ _ => Shape.WF.bounded), ?_, hmax,
        List.length_pos_of_ne_nil hne, hmin, by simpa using hchain.length_eq, ?_⟩
      · exact fun k hk => ⟨fun l hl => ((hbounds k hk).1 l hl).le, (hbounds k hk).2⟩
      · intro i a' hget
        rw [List.getElem?_map, Option.map_eq_some_iff] at hget
        obtain ⟨c, hc, rfl⟩ := hget
        refine ih (hchain.of_getElem? hc) (p := some a) fun x hx => hsub ?_
        exact List.mem_cons_of_mem _ (List.mem_flatMap.mpr ⟨c, List.mem_of_getElem? hc, hx⟩)

/-- Every tree built from `NULL` by insertions is balanced, ordered and adequately filled. -/
theorem bptreeRun_balanced (pairs : List (Int × Int)) (a : Addr)
    (hroot : (bptreeRun pairs).root = some a) :
    ∃ d, (bptreeRun pairs).Balanced d true none none a := by
  rcases bptreeRun_inv pairs with ⟨hnull, _⟩ | ⟨s, d, hm, hs, _⟩
  · rw [hnull] at hroot
    cases hroot
  · obtain rfl : s.addr = a := Option.some.inj (hm.root.symm.trans hroot)
    exact ⟨d, hs.balanced hm.owns (List.Subset.refl _)⟩

/-- The 32nd key splits the root leaf. -/
theorem bptreeRun_balanced_split :
    ∃ t, t = bptreeRun ((List.range 32).map fun i => ((i : Int), (i : Int))) ∧ t.root = some 2 ∧
      (t.node 2).isLeaf = false ∧ (t.node 2).keys = [16] ∧ (t.node 2).children = [0, 1] ∧
      ∃ d, t.Balanced d true none none 2 :=
  ⟨_, rfl, by decide +kernel, by decide +kernel, by decide +kernel, by decide +kernel,
    bptreeRun_balanced _ 2 (by decide +kernel)⟩

end MiniDbms
