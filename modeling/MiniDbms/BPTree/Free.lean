import MiniDbms.BPTree.Allocation

/-!
# Releasing the tree

`bptree_free` walks the child pointers and releases every node after what hangs below it. The model
keeps the list of what has been released and stops at the first access to a released node, so that
a result is a run without use after free and without double free. Such a run exists after any
calls of `bptree_insert`, whatever their allocations do; it releases the nodes of the tree, and all
nodes that were ever allocated unless a call ran out of memory half-way.
-/

namespace MiniDbms

/-- `bptree_free`: the nodes released so far, in order, or `none` when a released node would be
accessed. Each round of the loop reads `root->key_count`; empty slots of the child array count as
`NULL`. -/
def bptreeFree (t : BPTree) : (fuel : Nat) → (freed : List Addr) → Option Addr → Option (List Addr)
  | _, freed, none            => some freed
  | 0, _, some _              => none
  | fuel + 1, freed, some root => do
    if root ∈ freed then none
    let freed ←
      if (t.node root).isLeaf then some freed
      else
        ((t.node root).children.take ((t.node root).keys.length + 1)).foldlM (fun freed child =>
          if root ∈ freed then none else bptreeFree t fuel freed (some child)) freed
    if root ∈ freed then none else some (freed ++ [root])

/-- The trees that calls build from `NULL`, whatever the outcomes of their allocations. -/
inductive ScriptedRun : BPTree → Prop where
  | null : ScriptedRun .null
  | insert {t : BPTree} (h : ScriptedRun t) (outcomes : List Bool) (key rowIndex : Int) :
      ScriptedRun (bptreeInsert (t.script outcomes) key rowIndex).1

lemma EarlyRun.scripted {t : BPTree} (h : EarlyRun t) : ScriptedRun t := by
  induction h with
  | null => exact .null
  | insert h outcomes key rowIndex hearly ih => exact .insert ih outcomes key rowIndex

/-! ### The order of release -/

namespace Shape

/-- The nodes, each after those below it. -/
def postorder : Shape → List Addr
  | .leaf a _ _ => [a]
  | .node a _ cs => cs.flatMap postorder ++ [a]

lemma postorder_leaf (a : Addr) (es : List (Int × Int)) (nx : Option Addr) :
    (Shape.leaf a es nx).postorder = [a] := by simp [postorder]

lemma postorder_node (a : Addr) (ks : List Int) (cs : List Shape) :
    (Shape.node a ks cs).postorder = cs.flatMap postorder ++ [a] := by simp [postorder]

lemma postorder_perm (s : Shape) (p : Option Addr) :
    s.postorder.Perm ((s.cells p).map Prod.fst) := by
  induction s using Shape.induction generalizing p with
  | leaf a es nx => rw [postorder_leaf, cells_leaf]; exact List.Perm.refl _
  | node a ks cs ih =>
    rw [postorder_node, cells_node, List.map_cons, List.map_flatMap]
    refine (List.perm_append_singleton _ _).trans (List.Perm.cons _ ?_)
    exact List.Perm.flatMap_left cs fun c hc => ih c hc (some a)

end Shape

/-- The children are released one after the other. -/
lemma foldlM_postorder {f : List Addr → Addr → Option (List Addr)} (cs : List Shape)
    (freed : List Addr)
    (hf : ∀ c ∈ cs, ∀ before, before ⊆ freed ++ cs.flatMap Shape.postorder →
      (before ++ c.postorder).Nodup → f before c.addr = some (before ++ c.postorder))
    (hnodup : (freed ++ cs.flatMap Shape.postorder).Nodup) :
    (cs.map Shape.addr).foldlM f freed = some (freed ++ cs.flatMap Shape.postorder) := by
  induction cs generalizing freed with
  | nil => simp
  | cons c cs ih =>
    rw [List.flatMap_cons, ← List.append_assoc] at hnodup hf ⊢
    have hfirst := hf c List.mem_cons_self freed
      (fun x hx => List.mem_append_left _ (List.mem_append_left _ hx))
      (List.nodup_append.mp hnodup).1
    have hrest := ih (freed ++ c.postorder)
      (fun c' hc' => hf c' (List.mem_cons_of_mem _ hc')) hnodup
    rw [List.map_cons, List.foldlM_cons, hfirst]
    exact hrest

/-- On a tree of which nothing has been released, `bptree_free` releases the nodes in their order. -/
lemma bptreeFree_eq {t : BPTree} {L : List (Addr × BPTreeNode)} (ho : t.heap.Owns L) {d : Nat}
    {r : Bool} {lo hi : Option Int} {s : Shape} {p : Option Addr} (hs : s.WF d r lo hi)
    (hsub : s.cells p ⊆ L) {fuel : Nat} (hfuel : d < fuel) {freed : List Addr}
    (hnodup : (freed ++ s.postorder).Nodup) :
    bptreeFree t fuel freed (some s.addr) = some (freed ++ s.postorder) := by
  induction d generalizing s r lo hi p fuel freed with
  | zero =>
    obtain ⟨fuel, rfl⟩ : ∃ n, fuel = n + 1 := ⟨fuel - 1, by omega⟩
    cases s with
    | node a ks cs => cases hs
    | leaf a es nx =>
      rw [Shape.postorder_leaf] at hnodup ⊢
      have ha : a ∉ freed := fun hmem =>
        List.disjoint_of_nodup_append hnodup hmem (List.mem_singleton_self a)
      rw [bptreeFree, BPTree.node_of_owns ho (hsub (Shape.addr_mem_cells p _))]
      simp [Shape.rootCell, Shape.addr, ha]
  | succ d ih =>
    obtain ⟨fuel, rfl⟩ : ∃ n, fuel = n + 1 := ⟨fuel - 1, by omega⟩
    cases s with
    | leaf a es nx => cases hs
    | node a ks cs =>
      rw [Shape.postorder_node, ← List.append_assoc] at hnodup ⊢
      -- the node itself is released last
      have ha : a ∉ freed ++ cs.flatMap Shape.postorder := fun hmem =>
        List.disjoint_of_nodup_append hnodup hmem (List.mem_singleton_self a)
      have hchildren := @foldlM_postorder (fun freed child =>
          if a ∈ freed then none else bptreeFree t fuel freed (some child)) cs freed
        (fun c hc before hbefore hdistinct => by
          obtain ⟨lo', hi', hwf⟩ := hs.child hc
          rw [if_neg fun hmem => ha (hbefore hmem)]
          refine ih hwf (p := some a) (fun x hx => hsub ?_) (by omega) hdistinct
          exact Shape.mem_cells_node.mpr (Or.inr ⟨c, hc, hx⟩))
        (List.nodup_append.mp hnodup).1
      have htake : (cs.map Shape.addr).take (ks.length + 1) = cs.map Shape.addr :=
        List.take_of_length_le (by rw [List.length_map, hs.1.length_eq])
      have hfree : a ∉ freed := fun hmem => ha (List.mem_append_left _ hmem)
      rw [bptreeFree, BPTree.node_of_owns ho (hsub (Shape.addr_mem_cells p _))]
      simp only [Shape.rootCell, Shape.addr, htake, hfree, if_false, Bool.false_eq_true,
        Option.bind_eq_bind, Option.bind_some]
      exact (congrArg (fun o => Option.bind o _) hchildren).trans (if_neg ha)

/-! ### What a run allocates -/

/-- No allocated node is lost. -/
def BPTree.Complete (t : BPTree) : Prop := ∀ a < t.heap.cells.length, t.Reaches a

lemma Represents.mem_cells_iff {t : BPTree} {s : Shape} (h : Represents t s) (a : Addr) :
    a ∈ (s.cells none).map Prod.fst ↔ t.Reaches a := by
  rw [h.reaches_iff, List.mem_map]
  constructor
  · rintro ⟨⟨a, n⟩, hn, rfl⟩
    rwa [BPTree.node_of_owns h.owns hn]
  · exact fun ha => ⟨_, ha, rfl⟩

/-- Nothing is lost when there are as many nodes in the tree as on the heap. -/
lemma Represents.complete_iff {t : BPTree} {s : Shape} (h : Represents t s) :
    t.Complete ↔ t.heap.cells.length = (s.cells none).length := by
  have hsub : ((s.cells none).map Prod.fst).toFinset ⊆ Finset.range t.heap.cells.length := by
    intro a ha
    obtain ⟨c, hc, rfl⟩ := List.mem_map.mp (List.mem_toFinset.mp ha)
    exact Finset.mem_range.mpr (h.owns.addr_lt hc)
  have hcard : ((s.cells none).map Prod.fst).toFinset.card = (s.cells none).length := by
    rw [List.toFinset_card_of_nodup h.owns.nodup, List.length_map]
  constructor
  · intro hcomplete
    refine le_antisymm ?_ h.owns.length_le
    have hle : (Finset.range t.heap.cells.length).card ≤
        ((s.cells none).map Prod.fst).toFinset.card := by
      refine Finset.card_le_card fun a ha => List.mem_toFinset.mpr ?_
      exact (h.mem_cells_iff a).mpr (hcomplete a (Finset.mem_range.mp ha))
    rwa [Finset.card_range, hcard] at hle
  · intro hlen a ha
    have heq := Finset.eq_of_subset_of_card_le hsub (by rw [Finset.card_range, hcard, hlen])
    rw [← h.mem_cells_iff, ← List.mem_toFinset, heq]
    exact Finset.mem_range.mpr ha

/-- Nothing is lost when only fields other than the children are written. -/
lemma BPTree.Complete.congr {t t' : BPTree} (h : t.Complete) (hroot : t'.root = t.root)
    (hlen : t'.heap.cells.length = t.heap.cells.length)
    (hchildren : ∀ a, (t'.node a).children = (t.node a).children) : t'.Complete := by
  intro a ha
  have hreach := h a (hlen ▸ ha)
  clear ha
  induction hreach with
  | root hr => exact .root (hroot.trans hr)
  | child ha hc ih => exact .child ih ((hchildren _).symm ▸ hc)

/-! ### Counting nodes -/

namespace Shape

def nodeCount : Shape → Nat
  | .leaf _ _ _ => 1
  | .node _ _ cs => (cs.map nodeCount).sum + 1

@[simp] lemma nodeCount_leaf (a : Addr) (es : List (Int × Int)) (nx : Option Addr) :
    (Shape.leaf a es nx).nodeCount = 1 := by simp [nodeCount]

@[simp] lemma nodeCount_node (a : Addr) (ks : List Int) (cs : List Shape) :
    (Shape.node a ks cs).nodeCount = (cs.map nodeCount).sum + 1 := by simp [nodeCount]

lemma length_cells (s : Shape) (p : Option Addr) : (s.cells p).length = s.nodeCount := by
  induction s using Shape.induction generalizing p with
  | leaf a es nx => rw [cells_leaf, nodeCount_leaf, List.length_singleton]
  | node a ks cs ih =>
    rw [cells_node, nodeCount_node, List.length_cons, List.length_flatMap]
    congr 2
    exact List.map_congr_left fun c hc => ih c hc (some a)

end Shape

/-- The nodes of a path and of what hangs off it. -/
def pathCount : List Frame → Nat
  | []      => 0
  | f :: fs => ((f.lefts ++ f.rights).map Shape.nodeCount).sum + 1 + pathCount fs

lemma nodeCount_plug (fs : List Frame) (s : Shape) :
    (plug fs s).nodeCount = s.nodeCount + pathCount fs := by
  induction fs generalizing s with
  | nil => rfl
  | cons f fs ih =>
    rw [plug, ih, Frame.plug, pathCount]
    simp only [Shape.nodeCount_node, List.map_append, List.map_cons, List.sum_append, List.sum_cons]
    omega

/-- A split on the path adds the nodes that are needed for it. -/
lemma nodeCount_insertUp (next : Addr) (fs : List Frame) (left right : Shape) (key : Int) :
    (insertUp next fs left key right).nodeCount =
      left.nodeCount + right.nodeCount + pathCount fs + nodesNeeded fs := by
  induction fs generalizing next left key right with
  | nil => simp [insertUp, pathCount, nodesNeeded]
  | cons f fs ih =>
    simp only [insertUp, nodesNeeded]
    split_ifs
    · rw [nodeCount_plug, pathCount]
      simp only [Shape.nodeCount_node, List.map_append, List.map_cons, List.sum_append,
        List.sum_cons]
      omega
    · have hcut := List.take_append_drop ((f.lkeys ++ key :: f.rkeys).length / 2 + 1)
        (f.lefts ++ left :: right :: f.rights)
      rw [ih, pathCount, Shape.nodeCount_node, Shape.nodeCount_node]
      have hsum := congrArg (fun cs => (cs.map Shape.nodeCount).sum) hcut
      simp only [List.map_append, List.map_cons, List.sum_append, List.sum_cons] at hsum ⊢
      omega

/-- The climb allocates a node for each split, and nothing else. -/
lemma bptreeInsertIntoParent_length {fs : List Frame} {t : BPTree} {left right : Shape} (key : Int)
    {fuel d : Nat} {lo hi : Option Int} (hfs : PathWF d lo hi fs) (hfuel : 2 * fs.length < fuel)
    (hout : t.heap.Allocates (nodesNeeded fs))
    (ho : t.heap.Owns (left.cells (parentOf fs) ++ right.cells (parentOf fs) ++
      frameCells fs left.addr)) :
    (bptreeInsertIntoParent fuel t left.addr key right.addr).1.heap.cells.length =
      t.heap.cells.length + nodesNeeded fs := by
  induction fs generalizing t left right key fuel d lo hi with
  | nil =>
    obtain ⟨fuel, rfl⟩ : ∃ n, fuel = n + 1 := ⟨fuel - 1, by omega⟩
    have hparent : (t.node left.addr).parent = none := by
      rw [BPTree.node_of_owns ho (List.mem_append_left _
        (List.mem_append_left _ (left.addr_mem_cells none)))]
    rw [bptreeInsertIntoParent]
    simp only [hparent, bptreeCreateNode_eq _ ((t.heap.allocates_succ_iff 0).mp hout).1]
    simp [BPTree.push, BPTree.modify, nodesNeeded]
  | cons f fs ih =>
    obtain ⟨lo', hi', hfs', hll, -⟩ := hfs
    obtain ⟨fuel, rfl⟩ : ∃ n, fuel = n + 2 := ⟨fuel - 2, by simp at hfuel; omega⟩
    simp only [List.length_cons] at hfuel
    obtain ⟨hparent, hidx, hleaf, hcount⟩ := frame_of_owns ho
    rw [bptreeInsertIntoParent]
    simp only [hparent, hidx, hcount, nodesNeeded] at hout ⊢
    split_ifs at hout ⊢ with hroom
    · simp [bptreeInsertIntoInternal, BPTree.modify]
    · obtain ⟨hhead, htail⟩ := (t.heap.allocates_succ_iff _).mp hout
      obtain ⟨hkey, ho'⟩ := splitInternalNodes_owns key hll ho
      obtain ⟨hout', hlen'⟩ := splitInternalNodes_heap t f.a f.lefts.length key right.addr
      have hclimb := ih (splitInternalKey t f.a f.lefts.length key) hfs'
        (show 2 * fs.length < fuel by omega) (by rw [Heap.Allocates, hout']; exact htail) ho'
      rw [hlen'] at hclimb
      rw [bptreeSplitInternal_eq _ _ _ _ hleaf hhead]
      refine hclimb.trans ?_
      omega

section LeafAt

variable {key : Int} {s : Shape} {fs : List Frame} {a : Addr} {es : List (Int × Int)}
  {nx : Option Addr} {lo hi : Option Int} {t : BPTree}

/-- An entry that goes into a leaf with room moves no node. -/
lemma bptreeInsertIntoLeaf_complete (h : t.Complete) (a : Addr) (key row : Int) :
    (bptreeInsertIntoLeaf t a key row).1.Complete := by
  rw [bptreeInsertIntoLeaf]
  split_ifs
  · exact h
  · refine h.congr rfl (by simp [BPTree.modify]) fun b => ?_
    simp only [BPTree.node, BPTree.modify, Heap.modify, Heap.get?, List.getElem?_modify]
    cases t.heap.cells[b]? with
    | none => rfl
    | some n => by_cases hb : a = b <;> simp [hb]

/-- All nodes that the split of a leaf allocates end up in the tree. -/
lemma bptreeSplitLeaf_complete (hat : LeafAt key s fs a es nx lo hi) (h : Represents t s)
    (hfull : es.length = bptreeMaxKeys) (row : Int)
    (hout : t.heap.Allocates (nodesNeeded fs + 1)) (hcomplete : t.Complete) :
    (bptreeSplitLeaf t a key row).1.Complete := by
  have hm : Represents t (plug fs (.leaf a es nx)) := by rw [hat.plug_eq]; exact h
  obtain ⟨hhead, htail⟩ := (t.heap.allocates_succ_iff _).mp hout
  obtain ⟨-, howns⟩ := @splitLeafNodes_owns key row _ _ _ _ _ _ _ _ hat h hfull
  obtain ⟨hout', hlen', hroot'⟩ := splitLeafNodes_heap t a key row
  have hroot : (splitLeafNodes t a key row).root = some (plug fs
      (.leaf a ((leafInsert es key row).take 16) (some t.heap.cells.length))).addr :=
    hroot'.trans (hm.root.trans (congrArg some (addr_plug_congr fs rfl)))
  have hnodes : (splitLeafNodes t a key row).heap.Allocates (nodesNeeded fs) := by
    rw [Heap.Allocates, hout']
    exact htail
  have hfuel : 2 * fs.length < climbFuel (splitLeafNodes t a key row) := hat.climbFuel_lt h
  obtain ⟨t', heq, hrep, -⟩ := bptreeInsertIntoParent_represents (splitLeafKey t a key row)
    hat.path hfuel hnodes hroot howns
  have hlen := bptreeInsertIntoParent_length (splitLeafKey t a key row) hat.path hfuel hnodes howns
  rw [heq, hlen'] at hlen
  have hold := hm.complete_iff.mp hcomplete
  rw [Shape.length_cells, nodeCount_plug, Shape.nodeCount_leaf] at hold
  rw [bptreeSplitLeaf_eq _ _ (by rw [hat.node_eq h]) hhead]
  refine (congrArg (fun r => r.1.Complete) heq).mpr (hrep.complete_iff.mpr ?_)
  rw [hlen, Shape.length_cells, nodeCount_insertUp, Shape.nodeCount_leaf, Shape.nodeCount_leaf]
  omega

end LeafAt

/-! ### Runs -/

/-- What a run maintains whatever its allocations do: the tree is empty, or represents a well-formed
shape. Half of a node that was cut may hang on nothing. -/
def Standing (t : BPTree) : Prop :=
  (t.root = none ∧ t.heap.cells = []) ∨ ∃ s d, Represents t s ∧ s.WF d true none none

lemma Standing.script {t : BPTree} (h : Standing t) (outcomes : List Bool) :
    Standing (t.script outcomes) := by
  rcases h with hempty | ⟨s, d, hrep, hs⟩
  · exact Or.inl hempty
  · exact Or.inr ⟨s, d, ⟨⟨hrep.owns.get, hrep.owns.nodup⟩, hrep.root⟩, hs⟩

lemma BPTree.Complete.script {t : BPTree} (h : t.Complete) (outcomes : List Bool) :
    (t.script outcomes).Complete :=
  h.congr rfl rfl fun _ => rfl

/-- One call keeps the tree in shape, and loses no node unless it runs out of memory half-way. -/
lemma Standing.insert {t : BPTree} (h : Standing t) (key row : Int) :
    Standing (bptreeInsert t key row).1 ∧
      (t.Complete → FailsEarly t key → (bptreeInsert t key row).1.Complete) := by
  rcases h with ⟨hroot, hcells⟩ | ⟨s, d, hrep, hs⟩
  · rcases bptreeInsert_empty hroot hcells key row with ⟨hhead, heq⟩ | ⟨hsuccess, hrep⟩
    · rw [heq]
      exact ⟨Or.inl ⟨hroot, hcells⟩, fun hcomplete _ => hcomplete.script _⟩
    · refine ⟨Or.inr ⟨_, 0, hrep, ?_⟩, fun _ _ => hrep.complete_iff.mpr ?_⟩
      · exact ⟨by simp, by simp, by simp, by simp [bptreeMaxKeys], by simp⟩
      · have hhead : t.heap.outcomes.head? ≠ some false := by
          intro hhead
          rw [bptreeInsert, hroot] at hsuccess
          simp [bptreeCreateNode_script _ hhead] at hsuccess
        rw [Shape.cells_leaf, bptreeInsert, hroot]
        simp [bptreeCreateNode_eq _ hhead, BPTree.modify, BPTree.push, hcells]
  · by_cases hkey : key ∈ s.entries.map Prod.fst
    · rw [bptreeInsert_present hrep hs row hkey]
      exact ⟨Or.inr ⟨s, d, hrep, hs⟩, fun hcomplete _ => hcomplete⟩
    · obtain ⟨hsearch, fs, a, es, nx, lo, hi, hat, hfind, hk, heq⟩ :=
        bptreeInsert_fresh hrep hs row hkey
      have hnodes := hat.bptreeInsertNodes_eq hrep hsearch hfind
      split_ifs at heq hnodes with hroom
      · obtain ⟨t', s', hinsert, hrep', -, ⟨d', hs'⟩, -⟩ :=
          @bptreeInsertIntoLeaf_spec key row _ _ _ _ _ _ _ _ hat hrep hk hroom
        rw [heq]
        refine ⟨Or.inr ⟨s', d', ?_, hs'⟩, fun hcomplete _ =>
          bptreeInsertIntoLeaf_complete hcomplete a key row⟩
        rwa [hinsert]
      · have hfull := le_antisymm hat.wf.2.2.2.1 (not_lt.mp hroom)
        rw [heq]
        by_cases hhead : t.heap.outcomes.head? = some false
        · rw [bptreeSplitLeaf_early key row (by rw [hat.node_eq hrep]) hhead]
          exact ⟨Standing.script (Or.inr ⟨s, d, hrep, hs⟩) _,
            fun hcomplete _ => hcomplete.script _⟩
        · by_cases hout : t.heap.Allocates (nodesNeeded fs + 1)
          · obtain ⟨t', s', hinsert, hrep', -, ⟨d', hs'⟩, -⟩ :=
              @bptreeSplitLeaf_spec key row _ _ _ _ _ _ _ _ hat hrep hk hfull hout
            refine ⟨Or.inr ⟨s', d', ?_, hs'⟩, fun hcomplete _ =>
              bptreeSplitLeaf_complete hat hrep hfull row hout hcomplete⟩
            rwa [hinsert]
          · obtain ⟨t', s', d', lost, hinsert, hrep', hs', -⟩ :=
              @bptreeSplitLeaf_fails key row _ _ _ _ _ _ _ _ hat hrep hk hfull hhead hout
            refine ⟨Or.inr ⟨s', d', ?_, hs'⟩, fun _ hearly => ?_⟩
            · rwa [hinsert]
            · rw [FailsEarly, hnodes] at hearly
              exact absurd hearly (not_or.mpr ⟨hhead, hout⟩)

lemma ScriptedRun.standing {t : BPTree} (h : ScriptedRun t) : Standing t := by
  induction h with
  | null => exact Or.inl ⟨rfl, rfl⟩
  | insert h outcomes key rowIndex ih => exact ((ih.script outcomes).insert key rowIndex).1

lemma EarlyRun.complete {t : BPTree} (h : EarlyRun t) : t.Complete := by
  induction h with
  | null => exact fun a ha => absurd ha (Nat.not_lt_zero a)
  | insert h outcomes key rowIndex hearly ih =>
    exact ((h.scripted.standing.script outcomes).insert key rowIndex).2 (ih.script outcomes) hearly

/-- After any calls of `bptree_insert`, `bptree_free` accesses no released node and releases each
node of the tree once. These are all the nodes that were allocated, unless a call has run out of
memory after its first allocation. -/
theorem bptreeFree_scriptedRun {t : BPTree} (h : ScriptedRun t) :
    ∃ freed, bptreeFree t t.heap.cells.length [] t.root = some freed ∧ freed.Nodup ∧
      (∀ a, a ∈ freed ↔ t.Reaches a) ∧
      (EarlyRun t → freed.Perm (List.range t.heap.cells.length)) := by
  rcases h.standing with ⟨hroot, hcells⟩ | ⟨s, d, hrep, hs⟩
  · refine ⟨[], by rw [hroot, bptreeFree], List.nodup_nil, fun a => ?_, fun _ => by rw [hcells]; rfl⟩
    refine iff_of_false List.not_mem_nil fun ha => ?_
    induction ha with
    | root hr => cases hroot.symm.trans hr
    | child ha hc ih => exact ih
  · have hperm := s.postorder_perm none
    have hnodup : s.postorder.Nodup := hperm.nodup_iff.mpr hrep.owns.nodup
    have hmem : ∀ a, a ∈ s.postorder ↔ t.Reaches a := fun a => by
      rw [hperm.mem_iff, hrep.mem_cells_iff]
    refine ⟨s.postorder, ?_, hnodup, hmem, fun hearly => ?_⟩
    · rw [hrep.root]
      exact bptreeFree_eq hrep.owns hs (List.Subset.refl _) (hrep.height_lt hs)
        (by rwa [List.nil_append])
    · refine (List.perm_ext_iff_of_nodup hnodup List.nodup_range).mpr fun a => ?_
      rw [hmem, List.mem_range]
      refine ⟨fun ha => ?_, hearly.complete a⟩
      obtain ⟨c, hc, rfl⟩ := List.mem_map.mp ((hrep.mem_cells_iff a).mpr ha)
      exact hrep.owns.addr_lt hc

/-- The root leaf is full, the new leaf is allocated and the new root is not: the new leaf stays
behind. -/
theorem bptreeFree_scriptedRun_late :
    let t := (bptreeInsert ((bptreeRun ((List.range 31).map fun i => ((i : Int), (i : Int)))).script
      [true, false]) 31 31).1
    ∃ freed, bptreeFree t t.heap.cells.length [] t.root = some freed ∧ freed.Nodup ∧
      (∀ a, a ∈ freed ↔ t.Reaches a) ∧
      (EarlyRun t → freed.Perm (List.range t.heap.cells.length)) :=
  bptreeFree_scriptedRun (.insert (earlyRun_bptreeRun _).scripted [true, false] 31 31)

end MiniDbms
