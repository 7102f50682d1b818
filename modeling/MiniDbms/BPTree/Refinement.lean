import MiniDbms.BPTree.Shape

/-!
# The heap refines the shape

`Models t s` ties the linked nodes of `bptree.c` to the shape they describe. The lemmas below
give one specification for each routine: what it reads from the heap, and the shape that the
heap models afterwards.
-/

namespace MiniDbms

/-- The root pointer of `t` leads to exactly the tree `s`, and no allocation is set to fail. -/
structure Models (t : BPTree) (s : Shape) : Prop where
  owns : t.heap.Owns (s.cells none)
  root : t.root = some s.addr
  outcomes : t.heap.outcomes = []

/-- The root pointer of `t` leads to exactly the tree `s`, whatever allocations are set to do. -/
structure Represents (t : BPTree) (s : Shape) : Prop where
  owns : t.heap.Owns (s.cells none)
  root : t.root = some s.addr

lemma Models.represents {t : BPTree} {s : Shape} (h : Models t s) : Represents t s :=
  ⟨h.owns, h.root⟩

namespace BPTree

lemma node_of_owns {t : BPTree} {L : List (Addr × BPTreeNode)} {a : Addr} {n : BPTreeNode}
    (ho : t.heap.Owns L) (hmem : (a, n) ∈ L) : t.node a = n := by
  simp [node, ho.get _ hmem]

end BPTree

/-- The tree after the allocation of a node. -/
def BPTree.push (t : BPTree) (isLeaf : Bool) : BPTree :=
  { t with
    heap := ⟨t.heap.cells ++ [{ (default : BPTreeNode) with isLeaf := isLeaf }],
      t.heap.outcomes.tail⟩ }

lemma bptreeCreateNode_eq {t : BPTree} (isLeaf : Bool) (ho : t.heap.outcomes.head? ≠ some false) :
    bptreeCreateNode t isLeaf = (some t.heap.cells.length, t.push isLeaf) := by
  simp [bptreeCreateNode, Heap.alloc_of_head ho, BPTree.push]

/-- A failed allocation leaves the nodes alone. -/
lemma bptreeCreateNode_eq_none {t : BPTree} (isLeaf : Bool)
    (ho : t.heap.outcomes.head? = some false) :
    bptreeCreateNode t isLeaf =
      (none, { t with heap := { t.heap with outcomes := t.heap.outcomes.tail } }) := by
  simp [bptreeCreateNode, Heap.alloc_of_head_false ho]

lemma insertIdx_length_append {α : Type} (l r : List α) (x : α) :
    (l ++ r).insertIdx l.length x = l ++ x :: r := by
  induction l with
  | nil => simp
  | cons y l ih => simp [ih]

/-- The child array of a frame holds the node of the hole right after its left siblings. -/
lemma bptreeFindChildIndex_frame {ls rs : List Addr} {a : Addr} (n : BPTreeNode)
    (hn : n.children = ls ++ a :: rs) (ha : a ∉ ls) :
    bptreeFindChildIndex n a = some ls.length := by
  rw [bptreeFindChildIndex, hn, List.findIdx?_append]
  have : ls.findIdx? (· == a) = none := by
    rw [List.findIdx?_eq_none_iff]
    intro b hb
    simpa using fun h : b = a => ha (h ▸ hb)
  simp [this, List.findIdx?_cons]

lemma Shape.addr_mem_cells (p : Option Addr) (s : Shape) :
    (s.addr, { s.rootCell with parent := p }) ∈ s.cells p := by
  simp [Shape.cells_eq]

/-- The addresses of the children of a node are those of their root cells. -/
lemma Shape.addr_mem_flatMap {p : Option Addr} {cs : List Shape} {a : Addr}
    (h : a ∈ cs.map Shape.addr) : a ∈ (cs.flatMap (Shape.cells p)).map Prod.fst := by
  obtain ⟨c, hc, rfl⟩ := List.mem_map.mp h
  exact List.mem_map.mpr ⟨_, List.mem_flatMap.mpr ⟨c, hc, c.addr_mem_cells p⟩, rfl⟩

namespace BPTree

lemma setParents_cells_length (t : BPTree) (as : List Addr) (a : Addr) :
    (t.setParents as a).heap.cells.length = t.heap.cells.length := by
  simp only [setParents]
  generalize t.heap = h
  induction as generalizing h with
  | nil => rfl
  | cons b as ih => simp [ih]

lemma setParents_outcomes (t : BPTree) (as : List Addr) (a : Addr) :
    (t.setParents as a).heap.outcomes = t.heap.outcomes := by
  simp only [setParents]
  generalize t.heap = h
  induction as generalizing h with
  | nil => rfl
  | cons b as ih => simp [ih]

/-- Setting the parent link of a root redirects the whole subtree. -/
lemma relink_owns {t : BPTree} {p : Option Addr} {s : Shape} {L : List (Addr × BPTreeNode)}
    (q : Option Addr) (ho : t.heap.Owns (s.cells p ++ L)) :
    (t.modify s.addr fun n => { n with parent := q }).heap.Owns (s.cells q ++ L) := by
  rw [Shape.cells_eq] at ho ⊢
  exact ho.modify_head _

/-- The loop that redirects the parent links of a run of siblings. -/
lemma setParents_owns {t : BPTree} {p : Option Addr} (cs : List Shape)
    {L : List (Addr × BPTreeNode)} (a : Addr)
    (ho : t.heap.Owns (cs.flatMap (Shape.cells p) ++ L)) :
    (t.setParents (cs.map Shape.addr) a).heap.Owns (cs.flatMap (Shape.cells (some a)) ++ L) := by
  induction cs generalizing t L with
  | nil => simpa [setParents] using ho
  | cons c cs ih =>
    rw [List.flatMap_cons, List.append_assoc] at ho
    have h1 := relink_owns (some a) ho
    have h2 := ih (L := c.cells (some a) ++ L) (h1.of_perm (List.perm_append_comm_assoc _ _ _))
    rw [List.flatMap_cons, List.append_assoc]
    exact h2.of_perm (List.perm_append_comm_assoc _ _ _)

end BPTree

/-! ### Climbing to the root -/

/-- The cells of a frame and of everything hanging off it, once the hole has been split. -/
lemma frame_perm (f : Frame) (fs : List Frame) (left right : Shape) :
    (left.cells (some f.a) ++ right.cells (some f.a) ++ frameCells (f :: fs) left.addr).Perm
      ((f.a, ⟨false, f.lkeys ++ f.rkeys, parentOf fs,
          f.lefts.map Shape.addr ++ left.addr :: f.rights.map Shape.addr, [], none⟩) ::
        ((f.lefts ++ left :: right :: f.rights).flatMap (Shape.cells (some f.a)) ++
          frameCells fs f.a)) := by
  simp only [frameCells, List.flatMap_append, List.flatMap_cons]
  grind

/-- Room in the parent: the separator and the new child go in next to the split child. -/
lemma bptreeInsertIntoInternal_owns {t : BPTree} {f : Frame} {fs : List Frame}
    {left right : Shape} {key : Int} (hll : f.lefts.length = f.lkeys.length)
    (ho : t.heap.Owns (left.cells (some f.a) ++ right.cells (some f.a) ++
      frameCells (f :: fs) left.addr)) :
    (bptreeInsertIntoInternal t f.a f.lefts.length key right.addr).heap.Owns
      ((plug fs (.node f.a (f.lkeys ++ key :: f.rkeys)
        (f.lefts ++ left :: right :: f.rights))).cells none) := by
  have h1 := (ho.of_perm (frame_perm f fs left right)).modify_head (fun n =>
    { n with
      keys := n.keys.insertIdx f.lefts.length key
      children := n.children.insertIdx (f.lefts.length + 1) right.addr })
  have hkeys : (f.lkeys ++ f.rkeys).insertIdx f.lefts.length key
      = f.lkeys ++ key :: f.rkeys := by
    rw [hll, insertIdx_length_append]
  have hchildren : (f.lefts.map Shape.addr ++ left.addr :: f.rights.map Shape.addr).insertIdx
      (f.lefts.length + 1) right.addr
      = (f.lefts ++ left :: right :: f.rights).map Shape.addr := by
    have := insertIdx_length_append (f.lefts.map Shape.addr ++ [left.addr])
      (f.rights.map Shape.addr) right.addr
    simpa using this
  simp only [hkeys, hchildren] at h1
  -- the link of the new child is set last, and already points to this parent
  have h2 := BPTree.relink_owns (t := t.modify f.a _) (s := right) (p := some f.a) (some f.a)
    (L := left.cells (some f.a) ++
      ((f.a, ⟨false, f.lkeys ++ key :: f.rkeys, parentOf fs,
        (f.lefts ++ left :: right :: f.rights).map Shape.addr, [], none⟩) ::
        ((f.lefts ++ f.rights).flatMap (Shape.cells (some f.a)) ++ frameCells fs f.a)))
    (h1.of_perm (by simp only [List.flatMap_append, List.flatMap_cons]; grind))
  refine h2.of_perm (List.Perm.trans ?_ (cells_plug fs _).symm)
  simp only [Shape.cells_node, Shape.addr, List.flatMap_append, List.flatMap_cons]
  grind

lemma bptreeDistribute_heap (t : BPTree) (node new : Addr) (ks : List Int) (cs : List Addr)
    (m : Nat) :
    (bptreeDistribute t node new ks cs m).heap.outcomes = t.heap.outcomes ∧
      (bptreeDistribute t node new ks cs m).heap.cells.length = t.heap.cells.length := by
  simp [bptreeDistribute, BPTree.modify, BPTree.setParents_outcomes,
    BPTree.setParents_cells_length]

/-- Distributing a merged node leaves two nodes side by side, under the same parent. -/
lemma bptreeDistribute_owns {t : BPTree} {a new : Addr} {p : Option Addr} {ks₀ ks : List Int}
    {cs₀ : List Addr} {cs : List Shape} {L : List (Addr × BPTreeNode)} (m : Nat)
    (ho : t.heap.Owns ((new, ⟨false, [], none, [], [], none⟩) ::
      (a, ⟨false, ks₀, p, cs₀, [], none⟩) :: (cs.flatMap (Shape.cells (some a)) ++ L))) :
    (bptreeDistribute t a new ks (cs.map Shape.addr) m).heap.Owns
      ((Shape.node a (ks.take m) (cs.take (m + 1))).cells p ++
        (Shape.node new (ks.drop (m + 1)) (cs.drop (m + 1))).cells p ++ L) := by
  have hcs : (cs.flatMap (Shape.cells (some a))) =
      (cs.take (m + 1)).flatMap (Shape.cells (some a)) ++
        (cs.drop (m + 1)).flatMap (Shape.cells (some a)) := by
    rw [← List.flatMap_append, List.take_append_drop]
  simp only [bptreeDistribute, ← List.map_take, ← List.map_drop, Shape.cells_node]
  rw [hcs] at ho
  generalize cs.take (m + 1) = ls at ho ⊢
  generalize cs.drop (m + 1) = rs at ho ⊢
  -- the left half stays with the node
  have h1 := (ho.of_perm (List.Perm.swap _ _ _)).modify_head
    (fun n => { n with keys := ks.take m, children := ls.map Shape.addr })
  have h2 := BPTree.setParents_owns (t := t.modify a _) (p := some a) ls a
    (L := (a, ⟨false, ks.take m, p, ls.map Shape.addr, [], none⟩) ::
      (new, ⟨false, [], none, [], [], none⟩) :: (rs.flatMap (Shape.cells (some a)) ++ L))
    (h1.of_perm (by grind))
  -- the right half goes to the new node
  generalize (t.modify a _).setParents (ls.map Shape.addr) a = t₂ at h2 ⊢
  have h3 := (@Heap.Owns.of_perm _ _ _ ((new, ⟨false, [], none, [], [], none⟩) ::
      (ls.flatMap (Shape.cells (some a)) ++
        (a, ⟨false, ks.take m, p, ls.map Shape.addr, [], none⟩) ::
        (rs.flatMap (Shape.cells (some a)) ++ L))) h2 (by grind)).modify_head
    (fun n => { n with keys := ks.drop (m + 1), children := rs.map Shape.addr })
  have h4 := BPTree.setParents_owns (t := t₂.modify new _) (p := some a) rs new
    (L := (new, ⟨false, ks.drop (m + 1), none, rs.map Shape.addr, [], none⟩) ::
      (a, ⟨false, ks.take m, p, ls.map Shape.addr, [], none⟩) ::
      (ls.flatMap (Shape.cells (some a)) ++ L))
    (h3.of_perm (by grind))
  generalize (t₂.modify new _).setParents (rs.map Shape.addr) new = t₄ at h4 ⊢
  have hparent : (t₄.node a).parent = p := by
    rw [BPTree.node_of_owns h4 (a := a) (n := ⟨false, ks.take m, p, ls.map Shape.addr, [], none⟩)
      (by simp)]
  have h5 := (h4.of_perm List.perm_middle).modify_head
    (fun n => { n with parent := (t₄.node a).parent })
  simp only [hparent] at h5 ⊢
  exact h5.of_perm (by grind)

/-- The state in which `bptree_split_internal` climbs on, the two halves of the node being cut at
`promoteIndex`. -/
def splitInternalNodes (t : BPTree) (node : Addr) (leftChildIndex : Nat) (key : Int)
    (rightChild : Addr) : BPTree :=
  bptreeDistribute (t.push false) node t.heap.cells.length
    (((t.push false).node node).keys.insertIdx leftChildIndex key)
    (((t.push false).node node).children.insertIdx (leftChildIndex + 1) rightChild)
    ((((t.push false).node node).keys.length + 1) / 2)

/-- The separator that `bptree_split_internal` promotes. -/
def splitInternalKey (t : BPTree) (node : Addr) (leftChildIndex : Nat) (key : Int) : Int :=
  (((t.push false).node node).keys.insertIdx leftChildIndex key).getD
    ((((t.push false).node node).keys.length + 1) / 2) 0

lemma bptreeSplitInternal_eq {t : BPTree} {node : Addr} (fuel leftChildIndex : Nat) (key : Int)
    (rightChild : Addr) (hnode : (t.node node).isLeaf = false)
    (ho : t.heap.outcomes.head? ≠ some false) :
    bptreeSplitInternal (fuel + 1) t node leftChildIndex key rightChild =
      bptreeInsertIntoParent fuel (splitInternalNodes t node leftChildIndex key rightChild) node
        (splitInternalKey t node leftChildIndex key) t.heap.cells.length := by
  rw [bptreeSplitInternal]
  simp only [hnode, bptreeCreateNode_eq _ ho, Bool.false_eq_true, if_false]
  rfl

/-- A full parent: after the cut, the two halves hang where one node was, the right half at the
fresh address. -/
lemma splitInternalNodes_owns {t : BPTree} {f : Frame} {fs : List Frame} {left right : Shape}
    (key : Int) (hll : f.lefts.length = f.lkeys.length)
    (ho : t.heap.Owns (left.cells (some f.a) ++ right.cells (some f.a) ++
      frameCells (f :: fs) left.addr)) :
    let keys := f.lkeys ++ key :: f.rkeys
    let children := f.lefts ++ left :: right :: f.rights
    let left' := Shape.node f.a (keys.take (keys.length / 2)) (children.take (keys.length / 2 + 1))
    let right' := Shape.node t.heap.cells.length (keys.drop (keys.length / 2 + 1))
      (children.drop (keys.length / 2 + 1))
    splitInternalKey t f.a f.lefts.length key = keys.getD (keys.length / 2) 0 ∧
      (splitInternalNodes t f.a f.lefts.length key right.addr).heap.Owns
        (left'.cells (parentOf fs) ++ right'.cells (parentOf fs) ++ frameCells fs f.a) := by
  intro keys children left' right'
  have h0 := ho.of_perm (frame_perm f fs left right)
  have h1 := h0.push ⟨false, [], none, [], [], none⟩ t.heap.outcomes.tail
  have hnode : (t.push false).node f.a = ⟨false, f.lkeys ++ f.rkeys, parentOf fs,
      f.lefts.map Shape.addr ++ left.addr :: f.rights.map Shape.addr, [], none⟩ :=
    BPTree.node_of_owns (t := t.push false) h1 (by simp)
  have hkeys : (f.lkeys ++ f.rkeys).insertIdx f.lefts.length key = keys := by
    rw [hll, insertIdx_length_append]
  have hchildren : (f.lefts.map Shape.addr ++ left.addr :: f.rights.map Shape.addr).insertIdx
      (f.lefts.length + 1) right.addr = children.map Shape.addr := by
    have := insertIdx_length_append (f.lefts.map Shape.addr ++ [left.addr])
      (f.rights.map Shape.addr) right.addr
    simpa [children] using this
  have htotal : (f.lkeys ++ f.rkeys).length + 1 = keys.length := by simp [keys]; omega
  simp only [splitInternalKey, splitInternalNodes, hnode, hkeys, hchildren, htotal]
  exact ⟨trivial, bptreeDistribute_owns _ h1⟩

lemma splitInternalNodes_heap (t : BPTree) (node : Addr) (leftChildIndex : Nat) (key : Int)
    (rightChild : Addr) :
    (splitInternalNodes t node leftChildIndex key rightChild).heap.outcomes =
        t.heap.outcomes.tail ∧
      (splitInternalNodes t node leftChildIndex key rightChild).heap.cells.length =
        t.heap.cells.length + 1 := by
  refine ⟨(bptreeDistribute_heap _ _ _ _ _ _).1, (bptreeDistribute_heap _ _ _ _ _ _).2.trans ?_⟩
  simp [BPTree.push]

/-- Growing a new root over two halves. -/
lemma bptreeInsertIntoParent_root {t : BPTree} {left right : Shape} {key : Int} (fuel : Nat)
    (hout : t.heap.outcomes.head? ≠ some false)
    (ho : t.heap.Owns (left.cells none ++ right.cells none)) :
    ∃ t' : BPTree, bptreeInsertIntoParent (fuel + 1) t left.addr key right.addr = (t', .success) ∧
      Represents t' (.node t.heap.cells.length [key] [left, right]) ∧
      t'.heap.outcomes = t.heap.outcomes.tail := by
  have hparent : (t.node left.addr).parent = none := by
    rw [BPTree.node_of_owns ho (List.mem_append_left _ (left.addr_mem_cells none))]
  have h1 := (ho.push ⟨false, [], none, [], [], none⟩ t.heap.outcomes.tail).modify_head
    (fun n => { n with keys := [key], children := [left.addr, right.addr] })
  rw [bptreeInsertIntoParent]
  simp only [hparent, bptreeCreateNode_eq _ hout, BPTree.push]
  refine ⟨_, rfl, ⟨?_, rfl⟩, rfl⟩
  have h2 := BPTree.relink_owns (t := ⟨_, t.root⟩) (s := left) (p := none)
    (some t.heap.cells.length)
    (L := right.cells none ++ [(t.heap.cells.length,
      ⟨false, [key], none, [left.addr, right.addr], [], none⟩)]) (h1.of_perm (by grind))
  have h3 := BPTree.relink_owns (s := right) (p := none) (some t.heap.cells.length)
    (L := left.cells (some t.heap.cells.length) ++ [(t.heap.cells.length,
      ⟨false, [key], none, [left.addr, right.addr], [], none⟩)])
    (h2.of_perm (by grind))
  refine h3.of_perm ?_
  simp only [Shape.cells_node, List.flatMap_cons, List.flatMap_nil, List.map_cons, List.map_nil]
  grind

/-- What a node below a frame finds above it: the frame, which holds the node after its left
siblings. -/
lemma frame_of_owns {t : BPTree} {f : Frame} {fs : List Frame} {left right : Shape}
    (ho : t.heap.Owns (left.cells (some f.a) ++ right.cells (some f.a) ++
      frameCells (f :: fs) left.addr)) :
    (t.node left.addr).parent = some f.a ∧
      bptreeFindChildIndex (t.node f.a) left.addr = some f.lefts.length ∧
      (t.node f.a).isLeaf = false ∧ (t.node f.a).keys.length = f.keyCount := by
  have h0 := ho.of_perm (frame_perm f fs left right)
  have hnode := BPTree.node_of_owns h0 List.mem_cons_self
  refine ⟨?_, ?_, by rw [hnode], by rw [hnode]; simp [Frame.keyCount]⟩
  · rw [BPTree.node_of_owns ho (List.mem_append_left _
      (List.mem_append_left _ (left.addr_mem_cells (some f.a))))]
  · -- addresses are distinct, so the search finds the hole and not a sibling
    have hnotin : left.addr ∉ f.lefts.map Shape.addr := by
      intro hmem
      have hnd := h0.nodup
      simp only [List.flatMap_append, List.flatMap_cons, List.map_cons, List.map_append,
        List.nodup_cons, List.nodup_append] at hnd
      exact hnd.2.1.2.2 _ (Shape.addr_mem_flatMap hmem) _
        (List.mem_append_left _ (List.mem_map_of_mem (left.addr_mem_cells _))) rfl
    rw [bptreeFindChildIndex_frame (t.node f.a) (by rw [hnode]) hnotin, List.length_map]

/-- The climb: from a split node to the root, `bptree_insert_into_parent` computes `insertUp`. -/
lemma bptreeInsertIntoParent_represents {fs : List Frame} {t : BPTree} {left right : Shape}
    (key : Int) {fuel d : Nat} {lo hi : Option Int} (hfs : PathWF d lo hi fs)
    (hfuel : 2 * fs.length < fuel) (hout : t.heap.Allocates (nodesNeeded fs))
    (hroot : t.root = some (plug fs left).addr)
    (ho : t.heap.Owns (left.cells (parentOf fs) ++ right.cells (parentOf fs) ++
      frameCells fs left.addr)) :
    ∃ t' : BPTree, bptreeInsertIntoParent fuel t left.addr key right.addr = (t', .success) ∧
      Represents t' (insertUp t.heap.cells.length fs left key right) ∧
      t'.heap.outcomes = t.heap.outcomes.drop (nodesNeeded fs) := by
  induction fs generalizing t left right key fuel d lo hi with
  | nil =>
    obtain ⟨fuel, rfl⟩ : ∃ n, fuel = n + 1 := ⟨fuel - 1, by omega⟩
    rw [nodesNeeded, List.drop_one]
    exact bptreeInsertIntoParent_root fuel ((t.heap.allocates_succ_iff 0).mp hout).1
      (by simpa [parentOf, frameCells] using ho)
  | cons f fs ih =>
    obtain ⟨lo', hi', hfs', hll, hrl, hpos, hmax, hmin, -⟩ := hfs
    obtain ⟨fuel, rfl⟩ : ∃ n, fuel = n + 2 := ⟨fuel - 2, by simp at hfuel; omega⟩
    simp only [List.length_cons] at hfuel
    obtain ⟨hparent, hidx, hleaf, hcount⟩ := frame_of_owns ho
    rw [bptreeInsertIntoParent]
    simp only [hparent, hidx, hcount, insertUp, nodesNeeded] at hout ⊢
    split_ifs at hout ⊢ with hroom
    · refine ⟨_, rfl, ⟨bptreeInsertIntoInternal_owns hll ho, ?_⟩, rfl⟩
      exact hroot.trans (congrArg some (addr_plug_congr fs rfl))
    · obtain ⟨hhead, htail⟩ := (t.heap.allocates_succ_iff _).mp hout
      obtain ⟨hkey, ho'⟩ := splitInternalNodes_owns key hll ho
      obtain ⟨hout', hlen'⟩ := splitInternalNodes_heap t f.a f.lefts.length key right.addr
      have hdrop : t.heap.outcomes.drop (nodesNeeded fs + 1) =
          (splitInternalNodes t f.a f.lefts.length key right.addr).heap.outcomes.drop
            (nodesNeeded fs) := by
        rw [hout', List.drop_tail]
      rw [bptreeSplitInternal_eq _ _ _ _ hleaf hhead, hkey, ← hlen', hdrop]
      refine ih _ hfs' (by omega) (by rw [Heap.Allocates, hout']; exact htail) ?_ ho'
      exact hroot.trans (congrArg some (addr_plug_congr fs rfl))

end MiniDbms
