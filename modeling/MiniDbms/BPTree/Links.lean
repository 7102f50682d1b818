import MiniDbms.BPTree.Properties
import MiniDbms.Library.Segments

/-!
# The links of the tree

The parent pointers lead back along the child pointers, and the `next` pointers of the leaves form
one list from left to right. `leafLinks` is that list as the shape has it.
-/

namespace MiniDbms

/-! ### The list of leaves of a shape -/

namespace Shape

/-- The leaves from left to right, each with its `next` pointer. -/
def leafLinks : Shape → List (Addr × Option Addr)
  | .leaf a _ nx => [(a, nx)]
  | .node _ _ cs => cs.flatMap leafLinks

@[simp] lemma leafLinks_leaf (a : Addr) (es : List (Int × Int)) (nx : Option Addr) :
    (Shape.leaf a es nx).leafLinks = [(a, nx)] := by simp [leafLinks]

@[simp] lemma leafLinks_node (a : Addr) (ks : List Int) (cs : List Shape) :
    (Shape.node a ks cs).leafLinks = cs.flatMap leafLinks := by simp [leafLinks]

/-- The leaves form one list. -/
def Linked (s : Shape) : Prop := ∃ first, Segment first s.leafLinks none

end Shape

/-- The leaves to the left of the hole. -/
def leftLinks : List Frame → List (Addr × Option Addr)
  | []      => []
  | f :: fs => leftLinks fs ++ f.lefts.flatMap Shape.leafLinks

/-- The leaves to the right of the hole. -/
def rightLinks : List Frame → List (Addr × Option Addr)
  | []      => []
  | f :: fs => f.rights.flatMap Shape.leafLinks ++ rightLinks fs

lemma leafLinks_plug (fs : List Frame) (s : Shape) :
    (plug fs s).leafLinks = leftLinks fs ++ s.leafLinks ++ rightLinks fs := by
  induction fs generalizing s with
  | nil => simp [plug, leftLinks, rightLinks]
  | cons f fs ih => simp [plug, ih, Frame.plug, leftLinks, rightLinks]

/-- Splitting nodes on the path does not move leaves. -/
lemma leafLinks_insertUp (next : Addr) (fs : List Frame) (left right : Shape) (key : Int) :
    (insertUp next fs left key right).leafLinks =
      leftLinks fs ++ (left.leafLinks ++ right.leafLinks) ++ rightLinks fs := by
  induction fs generalizing next left key right with
  | nil => simp [insertUp, leftLinks, rightLinks]
  | cons f fs ih =>
    simp only [insertUp]
    split_ifs
    · simp [leafLinks_plug, leftLinks, rightLinks]
    · rw [ih, Shape.leafLinks_node, Shape.leafLinks_node, ← List.flatMap_append,
        List.take_append_drop]
      simp [leftLinks, rightLinks]

/-- A new leaf is linked in behind the one that was split. -/
lemma Shape.Inserted.linked {key row : Int} {new : Addr} {s s' : Shape}
    (h : Inserted key row new s s') (hs : s.Linked) : s'.Linked := by
  obtain ⟨first, hfirst⟩ := hs
  refine ⟨first, ?_⟩
  cases h with
  | room fs a es nx =>
    rw [leafLinks_plug, Shape.leafLinks_leaf] at hfirst ⊢
    exact hfirst
  | split fs a es nx sep =>
    rw [leafLinks_plug, Shape.leafLinks_leaf] at hfirst
    rw [leafLinks_insertUp, Shape.leafLinks_leaf, Shape.leafLinks_leaf]
    refine hfirst.exchange fun start stop hleaf => ?_
    obtain ⟨hstart, hstop⟩ := hleaf
    exact ⟨hstart, rfl, hstop⟩

/-- The shape of a tree that is built from `NULL`. -/
lemma bptreeRun_shape (pairs : List (Int × Int)) :
    (bptreeRun pairs = .null ∧ pairs = []) ∨
      ∃ s d, Models (bptreeRun pairs) s ∧ s.WF d true none none ∧
        (∀ k v, (k, v) ∈ s.entries ↔ pairs.lookup k = some v) ∧ s.Linked := by
  induction pairs using List.reverseRecOn with
  | nil => exact Or.inl ⟨rfl, rfl⟩
  | append_singleton pairs p ih =>
    rw [bptreeRun_append]
    rcases ih with ⟨hnull, rfl⟩ | ⟨s, d, hm, hs, hmap, hlinked⟩
    · obtain ⟨-, hm, hs, hmap⟩ := bptreeInsert_null_entries p.1 p.2
      rw [hnull]
      exact Or.inr ⟨_, 0, hm, hs, hmap, ⟨some 0, by simp [Segment]⟩⟩
    · obtain ⟨-, s', d', hm', hs', hmap', hsame⟩ := bptreeInsert_entries hm hs hmap p.1 p.2
      refine Or.inr ⟨s', d', hm', hs', hmap', ?_⟩
      rcases hsame with rfl | hinserted
      · exact hlinked
      · exact hinserted.linked hlinked

/-! ### Cells and links -/

namespace Shape

/-- Induction over the nodes of a shape. -/
@[elab_as_elim]
lemma induction {motive : Shape → Prop} (leaf : ∀ a es nx, motive (.leaf a es nx))
    (node : ∀ a ks cs, (∀ c ∈ cs, motive c) → motive (.node a ks cs)) : ∀ s, motive s
  | .leaf a es nx => leaf a es nx
  | .node a ks cs => node a ks cs fun c _ => induction leaf node c

/-- A cell of a node is that of the node itself or belongs to one of its children. -/
lemma mem_cells_node {p : Option Addr} {a : Addr} {ks : List Int} {cs : List Shape}
    {x : Addr × BPTreeNode} :
    x ∈ (Shape.node a ks cs).cells p ↔
      x = (a, ⟨false, ks, p, cs.map addr, [], none⟩) ∨ ∃ c ∈ cs, x ∈ c.cells (some a) := by
  rw [cells_node, List.mem_cons, List.mem_flatMap]

/-- Each child of a cell is a cell whose parent pointer leads back. -/
lemma child_mem_cells (s : Shape) {p : Option Addr} {a c : Addr} {n : BPTreeNode}
    (hn : (a, n) ∈ s.cells p) (hc : c ∈ n.children) :
    ∃ m, (c, m) ∈ s.cells p ∧ m.parent = some a := by
  induction s using Shape.induction generalizing p with
  | leaf b es nx =>
    rw [cells_leaf, List.mem_singleton] at hn
    cases hn
    exact absurd hc List.not_mem_nil
  | node b ks cs ih =>
    rcases mem_cells_node.mp hn with heq | ⟨child, hchild, hn⟩
    · cases heq
      obtain ⟨child, hchild, rfl⟩ := List.mem_map.mp hc
      exact ⟨_, mem_cells_node.mpr (Or.inr ⟨child, hchild, child.addr_mem_cells (some a)⟩), rfl⟩
    · obtain ⟨m, hm, hparent⟩ := ih child hchild hn
      exact ⟨m, mem_cells_node.mpr (Or.inr ⟨child, hchild, hm⟩), hparent⟩

/-- Every cell but that of the root is a child of a cell. -/
lemma mem_cells_child (s : Shape) {p : Option Addr} {c : Addr} {m : BPTreeNode}
    (hm : (c, m) ∈ s.cells p) :
    c = s.addr ∨ ∃ a n, (a, n) ∈ s.cells p ∧ c ∈ n.children := by
  induction s using Shape.induction generalizing p with
  | leaf b es nx =>
    rw [cells_leaf, List.mem_singleton] at hm
    exact Or.inl (congrArg Prod.fst hm)
  | node b ks cs ih =>
    rcases mem_cells_node.mp hm with heq | ⟨child, hchild, hm⟩
    · exact Or.inl (congrArg Prod.fst heq)
    · rcases ih child hchild hm with rfl | ⟨a, n, hn, hc⟩
      · exact Or.inr ⟨b, _, mem_cells_node.mpr (Or.inl rfl), List.mem_map_of_mem hchild⟩
      · exact Or.inr ⟨a, n, mem_cells_node.mpr (Or.inr ⟨child, hchild, hn⟩), hc⟩

/-- The leaves of a shape are its leaf cells, each with its `next` pointer. -/
lemma mem_leafLinks_iff (s : Shape) {p : Option Addr} {a : Addr} {nx : Option Addr} :
    (a, nx) ∈ s.leafLinks ↔ ∃ n, (a, n) ∈ s.cells p ∧ n.isLeaf = true ∧ n.next = nx := by
  induction s using Shape.induction generalizing p with
  | leaf b es nx' =>
    simp only [leafLinks_leaf, cells_leaf, List.mem_singleton, Prod.mk.injEq]
    constructor
    · rintro ⟨rfl, rfl⟩
      exact ⟨_, ⟨rfl, rfl⟩, rfl, rfl⟩
    · rintro ⟨n, ⟨rfl, rfl⟩, -, rfl⟩
      exact ⟨rfl, rfl⟩
  | node b ks cs ih =>
    simp only [leafLinks_node, List.mem_flatMap, mem_cells_node]
    constructor
    · rintro ⟨child, hchild, ha⟩
      obtain ⟨n, hn, hleaf⟩ := (ih child hchild).mp ha
      exact ⟨n, Or.inr ⟨child, hchild, hn⟩, hleaf⟩
    · rintro ⟨n, heq | ⟨child, hchild, hn⟩, hleaf⟩
      · cases heq
        exact absurd hleaf.1 Bool.false_ne_true
      · exact ⟨child, hchild, (ih child hchild).mpr ⟨n, hn, hleaf⟩⟩

/-- The root cells of siblings, in order, are among their cells. -/
lemma addr_sublist (p : Option Addr) (cs : List Shape) :
    (cs.map addr).Sublist ((cs.flatMap (cells p)).map Prod.fst) := by
  induction cs with
  | nil => exact List.Sublist.refl _
  | cons c cs ih =>
    rw [List.map_cons, List.flatMap_cons, cells_eq, List.cons_append, List.map_cons,
      List.map_append]
    exact (ih.trans (List.sublist_append_right _ _)).cons_cons _

lemma leafLinks_sublist (s : Shape) (p : Option Addr) :
    (s.leafLinks.map Prod.fst).Sublist ((s.cells p).map Prod.fst) := by
  induction s using Shape.induction generalizing p with
  | leaf a es nx => rw [leafLinks_leaf, cells_leaf]; exact List.Sublist.refl _
  | node a ks cs ih =>
    rw [leafLinks_node, cells_node, List.map_cons]
    refine List.Sublist.cons _ ?_
    induction cs with
    | nil => exact List.Sublist.refl _
    | cons c cs ihcs =>
      rw [List.flatMap_cons, List.flatMap_cons, List.map_append, List.map_append]
      exact (ih c List.mem_cons_self (some a)).append
        (ihcs fun c' hc' => ih c' (List.mem_cons_of_mem c hc'))

/-- Siblings hang at distinct addresses. -/
lemma children_nodup (s : Shape) {p : Option Addr} {a : Addr} {n : BPTreeNode}
    (hnodup : ((s.cells p).map Prod.fst).Nodup) (hn : (a, n) ∈ s.cells p) :
    n.children.Nodup := by
  induction s using Shape.induction generalizing p with
  | leaf b es nx =>
    rw [cells_leaf, List.mem_singleton] at hn
    cases hn
    exact List.nodup_nil
  | node b ks cs ih =>
    have hchildren : ((cs.flatMap (cells (some b))).map Prod.fst).Nodup := by
      rw [cells_node, List.map_cons] at hnodup
      exact hnodup.of_cons
    rcases mem_cells_node.mp hn with heq | ⟨child, hchild, hn⟩
    · cases heq
      exact (addr_sublist (some a) cs).nodup hchildren
    · refine ih child hchild (List.Sublist.nodup ?_ hchildren) hn
      rw [List.flatMap_def]
      exact (List.sublist_flatten_of_mem (List.mem_map_of_mem hchild)).map Prod.fst

end Shape

/-! ### The links in the heap -/

namespace BPTree

/-- The nodes of the tree: the root and what child pointers lead to. -/
inductive Reaches (t : BPTree) : Addr → Prop where
  | root {a : Addr} (h : t.root = some a) : Reaches t a
  | child {a c : Addr} (ha : Reaches t a) (hc : c ∈ (t.node a).children) : Reaches t c

/-- The leaves below a node, from left to right. -/
def leavesFrom (t : BPTree) : (fuel : Nat) → Addr → List Addr
  | 0, _        => []
  | fuel + 1, a =>
    if (t.node a).isLeaf then [a] else (t.node a).children.flatMap (t.leavesFrom fuel)

/-- The first child is followed down to a leaf. -/
def leftmostFrom (t : BPTree) : (fuel : Nat) → Addr → Option Addr
  | 0, _        => none
  | fuel + 1, a =>
    if (t.node a).isLeaf then some a else (t.node a).children.head?.bind (t.leftmostFrom fuel)

/-- The leaves of the tree; the number of allocated nodes bounds its height. -/
def leaves (t : BPTree) (root : Addr) : List Addr := t.leavesFrom t.heap.cells.length root

def leftmostLeaf (t : BPTree) (root : Addr) : Option Addr :=
  t.leftmostFrom t.heap.cells.length root

/-- The keys of the leaves, one leaf after the other. -/
def leafKeys (t : BPTree) (root : Addr) : List Int :=
  (t.leaves root).flatMap fun a => (t.node a).keys

/-- All links agree with the child pointers. -/
structure Linked (t : BPTree) (root : Addr) : Prop where
  root_parent : (t.node root).parent = none
  child_parent : ∀ a, t.Reaches a → ∀ c ∈ (t.node a).children, (t.node c).parent = some a
  root_no_child : ∀ a, t.Reaches a → root ∉ (t.node a).children
  children_nodup : ∀ a, t.Reaches a → (t.node a).children.Nodup
  one_parent : ∀ c, t.Reaches c → c ≠ root → ∃! a, t.Reaches a ∧ c ∈ (t.node a).children
  visits : Visits (fun a => (t.node a).next) (t.leftmostLeaf root) (t.leaves root)
  leaves_nodup : (t.leaves root).Nodup
  mem_leaves_iff : ∀ a, a ∈ t.leaves root ↔ t.Reaches a ∧ (t.node a).isLeaf = true

end BPTree

section

variable {t : BPTree} {s : Shape} {L : List (Addr × BPTreeNode)}

lemma Shape.WF.child {d : Nat} {r : Bool} {lo hi : Option Int} {a : Addr} {ks : List Int}
    {cs : List Shape} (h : (Shape.node a ks cs).WF (d + 1) r lo hi) {c : Shape} (hc : c ∈ cs) :
    ∃ lo' hi', c.WF d false lo' hi' := by
  obtain ⟨i, hi'⟩ := List.mem_iff_getElem?.mp hc
  exact ⟨_, _, h.1.of_getElem? hi'⟩

/-- The traversal of the heap lists the leaves of the shape. -/
lemma leavesFrom_eq (ho : t.heap.Owns L) {d : Nat} {r : Bool} {lo hi : Option Int}
    {p : Option Addr} (hs : s.WF d r lo hi) (hsub : s.cells p ⊆ L) {fuel : Nat} (hfuel : d < fuel) :
    t.leavesFrom fuel s.addr = s.leafLinks.map Prod.fst := by
  induction d generalizing s r lo hi p fuel with
  | zero =>
    obtain ⟨fuel, rfl⟩ : ∃ n, fuel = n + 1 := ⟨fuel - 1, by omega⟩
    cases s with
    | node a ks cs => cases hs
    | leaf a es nx =>
      rw [BPTree.leavesFrom, BPTree.node_of_owns ho (hsub (Shape.addr_mem_cells p _))]
      simp [Shape.rootCell, Shape.addr]
  | succ d ih =>
    obtain ⟨fuel, rfl⟩ : ∃ n, fuel = n + 1 := ⟨fuel - 1, by omega⟩
    cases s with
    | leaf a es nx => cases hs
    | node a ks cs =>
      have hchild : ∀ c ∈ cs, t.leavesFrom fuel c.addr = c.leafLinks.map Prod.fst := by
        intro c hc
        obtain ⟨lo', hi', hwf⟩ := hs.child hc
        refine ih (p := some a) hwf (fun x hx => hsub ?_) (by omega)
        exact Shape.mem_cells_node.mpr (Or.inr ⟨c, hc, hx⟩)
      rw [BPTree.leavesFrom, BPTree.node_of_owns ho (hsub (Shape.addr_mem_cells p _))]
      simp only [Shape.rootCell, Bool.false_eq_true, if_false, Shape.leafLinks_node,
        List.flatMap_map, List.map_flatMap]
      exact List.flatMap_congr hchild

/-- The first child leads to the first leaf of the shape. -/
lemma leftmostFrom_eq (ho : t.heap.Owns L) {d : Nat} {r : Bool} {lo hi : Option Int}
    {p : Option Addr} (hs : s.WF d r lo hi) (hsub : s.cells p ⊆ L) {fuel : Nat} (hfuel : d < fuel) :
    ∃ c l, s.leafLinks = c :: l ∧ t.leftmostFrom fuel s.addr = some c.1 := by
  induction d generalizing s r lo hi p fuel with
  | zero =>
    obtain ⟨fuel, rfl⟩ : ∃ n, fuel = n + 1 := ⟨fuel - 1, by omega⟩
    cases s with
    | node a ks cs => cases hs
    | leaf a es nx =>
      refine ⟨(a, nx), [], Shape.leafLinks_leaf _ _ _, ?_⟩
      rw [BPTree.leftmostFrom, BPTree.node_of_owns ho (hsub (Shape.addr_mem_cells p _))]
      rfl
  | succ d ih =>
    obtain ⟨fuel, rfl⟩ : ∃ n, fuel = n + 1 := ⟨fuel - 1, by omega⟩
    obtain ⟨a, ks, c, cs, rfl⟩ : ∃ a ks c cs, s = .node a ks (c :: cs) := by
      cases s with
      | leaf a es nx => cases hs
      | node a ks cs =>
        cases cs with
        | nil => exact absurd hs.1.length_eq (by simp)
        | cons c cs => exact ⟨a, ks, c, cs, rfl⟩
    obtain ⟨lo', hi', hwf⟩ := hs.child List.mem_cons_self
    obtain ⟨x, l, hlinks, hleftmost⟩ := @ih c false lo' hi' (some a) hwf
      (fun y hy => hsub (Shape.mem_cells_node.mpr (Or.inr ⟨c, List.mem_cons_self, hy⟩))) fuel
      (by omega)
    refine ⟨x, l ++ cs.flatMap Shape.leafLinks, by simp [hlinks], ?_⟩
    rw [BPTree.leftmostFrom, BPTree.node_of_owns ho (hsub (Shape.addr_mem_cells p _))]
    exact hleftmost

/-- The keys of the leaves are those of the entries. -/
lemma flatMap_keys_eq (ho : t.heap.Owns L) {p : Option Addr} (hsub : s.cells p ⊆ L) :
    (s.leafLinks.map Prod.fst).flatMap (fun a => (t.node a).keys) = s.entries.map Prod.fst := by
  induction s using Shape.induction generalizing p with
  | leaf a es nx =>
    have hnode := BPTree.node_of_owns ho (hsub (Shape.addr_mem_cells p (.leaf a es nx)))
    rw [Shape.addr] at hnode
    simp [hnode, Shape.rootCell]
  | node a ks cs ih =>
    rw [Shape.leafLinks_node, Shape.entries_node, List.map_flatMap, List.map_flatMap,
      List.flatMap_assoc]
    exact List.flatMap_congr fun c hc =>
      ih c hc fun x hx => hsub (Shape.mem_cells_node.mpr (Or.inr ⟨c, hc, hx⟩))

/-- All cells below a node that is reached are reached. -/
lemma reaches_of_mem_cells (ho : t.heap.Owns L) {p : Option Addr} (hsub : s.cells p ⊆ L)
    (hs : t.Reaches s.addr) {a : Addr} {n : BPTreeNode} (hn : (a, n) ∈ s.cells p) :
    t.Reaches a := by
  induction s using Shape.induction generalizing p with
  | leaf b es nx =>
    rw [Shape.cells_leaf, List.mem_singleton] at hn
    cases hn
    exact hs
  | node b ks cs ih =>
    rcases Shape.mem_cells_node.mp hn with heq | ⟨c, hc, hn⟩
    · cases heq
      exact hs
    · refine ih c hc (fun x hx => hsub (Shape.mem_cells_node.mpr (Or.inr ⟨c, hc, hx⟩)))
        (.child hs ?_) hn
      rw [BPTree.node_of_owns ho (hsub (Shape.addr_mem_cells p _))]
      exact List.mem_map_of_mem hc

/-- The height of a tree is less than the number of its cells. -/
lemma Represents.height_lt {d : Nat} (h : Represents t s) (hs : s.WF d true none none) :
    d < t.heap.cells.length := by
  obtain ⟨fs, a, es, nx, lo, hi, hat, hlen, -⟩ := @bptreeFindLeaf_spec t 0 d none none s [] hs
    ⟨rfl, rfl⟩ (inRange_none_none 0) (by simp [sideEntries]) h.owns
  have hm : Represents t (plug fs (.leaf a es nx)) := by rw [hat.plug_eq]; exact h
  have hlt := hm.length_lt
  rw [hlen] at hlt
  simpa using hlt

/-- The nodes are the cells of the shape. -/
lemma Represents.reaches_iff (h : Represents t s) (a : Addr) :
    t.Reaches a ↔ (a, t.node a) ∈ s.cells none := by
  constructor
  · intro ha
    induction ha with
    | root hroot =>
      cases Option.some.inj (h.root.symm.trans hroot)
      have hmem := s.addr_mem_cells none
      rwa [BPTree.node_of_owns h.owns hmem]
    | child ha hc ih =>
      obtain ⟨m, hm, -⟩ := s.child_mem_cells ih hc
      rwa [BPTree.node_of_owns h.owns hm]
  · exact reaches_of_mem_cells h.owns (List.Subset.refl _) (.root h.root)

lemma Represents.linked {d : Nat} (h : Represents t s) (hs : s.WF d true none none)
    (hlinked : s.Linked) : t.Linked s.addr := by
  have hroot := BPTree.node_of_owns h.owns (s.addr_mem_cells none)
  have hleaves : t.leaves s.addr = s.leafLinks.map Prod.fst :=
    leavesFrom_eq h.owns hs (List.Subset.refl _) (h.height_lt hs)
  have hchild : ∀ a, t.Reaches a → ∀ c ∈ (t.node a).children,
      (t.node c).parent = some a := by
    intro a ha c hc
    obtain ⟨m, hm, hparent⟩ := s.child_mem_cells ((h.reaches_iff a).mp ha) hc
    rw [BPTree.node_of_owns h.owns hm, hparent]
  refine ⟨by rw [hroot], hchild, fun a ha hmem => ?_, fun a ha => ?_, fun c hc hne => ?_, ?_, ?_,
    fun a => ?_⟩
  · have hparent := hchild a ha s.addr hmem
    rw [hroot] at hparent
    cases hparent
  · exact s.children_nodup h.owns.nodup ((h.reaches_iff a).mp ha)
  · obtain heq | ⟨a, n, hn, hmem⟩ := s.mem_cells_child ((h.reaches_iff c).mp hc)
    · exact absurd heq hne
    · have hnode := BPTree.node_of_owns h.owns hn
      refine ⟨a, ⟨(h.reaches_iff a).mpr (hnode ▸ hn), hnode ▸ hmem⟩, fun b hb => ?_⟩
      -- the one parent pointer of the child leads to both
      exact Option.some.inj ((hchild b hb.1 c hb.2).symm.trans
        (hchild a ((h.reaches_iff a).mpr (hnode ▸ hn)) c (hnode ▸ hmem)))
  · obtain ⟨x, l, hlinks, hleftmost⟩ :=
      leftmostFrom_eq h.owns hs (List.Subset.refl _) (h.height_lt hs)
    obtain ⟨first, hfirst⟩ := hlinked
    have hstart : first = some x.1 := by
      rw [hlinks] at hfirst
      exact hfirst.1
    rw [hleaves, BPTree.leftmostLeaf, hleftmost, ← hstart]
    refine hfirst.visits fun c hc => ?_
    obtain ⟨n, hn, -, hnext⟩ := s.mem_leafLinks_iff.mp hc
    rw [BPTree.node_of_owns h.owns hn, hnext]
  · rw [hleaves]
    exact (s.leafLinks_sublist none).nodup h.owns.nodup
  · rw [hleaves, h.reaches_iff, List.mem_map]
    constructor
    · rintro ⟨⟨a', nx⟩, ha, rfl⟩
      obtain ⟨n, hn, hleaf, -⟩ := s.mem_leafLinks_iff.mp ha
      have hnode := BPTree.node_of_owns h.owns hn
      exact ⟨hnode ▸ hn, hnode ▸ hleaf⟩
    · rintro ⟨hn, hleaf⟩
      exact ⟨(a, (t.node a).next), s.mem_leafLinks_iff.mpr ⟨_, hn, hleaf, rfl⟩, rfl⟩

lemma Represents.leafKeys_eq {d : Nat} (h : Represents t s) (hs : s.WF d true none none) :
    t.leafKeys s.addr = s.entries.map Prod.fst := by
  have hleaves : t.leaves s.addr = s.leafLinks.map Prod.fst :=
    leavesFrom_eq h.owns hs (List.Subset.refl _) (h.height_lt hs)
  rw [BPTree.leafKeys, hleaves, flatMap_keys_eq h.owns (List.Subset.refl _)]

end

/-! ### The calls of `bptree_insert_into_parent` -/

/-- The arguments of a call, with the tree it finds. -/
structure ParentCall where
  tree : BPTree
  left : Addr
  key : Int
  right : Addr

/-- The calls of `bptree_insert_into_parent` that `bptree_insert` makes: one after a leaf has been
split, as `bptreeSplitLeaf_eq` has it, and one after each internal node that has been split in the
course of another, as `bptreeSplitInternal_eq` has it. -/
inductive ParentCall.During (t : BPTree) (key rowIndex : Int) : ParentCall → Prop where
  | splitLeaf {leaf : Addr} (hsearch : bptreeSearch t key = none)
      (hfind : bptreeFindLeaf t key t.heap.cells.length t.root = some leaf)
      (hfull : bptreeMaxKeys ≤ (t.node leaf).keys.length)
      (hcreate : t.heap.outcomes.head? ≠ some false) :
      During t key rowIndex ⟨splitLeafNodes t leaf key rowIndex, leaf,
        splitLeafKey t leaf key rowIndex, t.heap.cells.length⟩
  | splitInternal {call : ParentCall} {parent : Addr} {childIndex : Nat}
      (hcall : During t key rowIndex call)
      (hparent : (call.tree.node call.left).parent = some parent)
      (hfind : bptreeFindChildIndex (call.tree.node parent) call.left = some childIndex)
      (hfull : bptreeMaxKeys ≤ (call.tree.node parent).keys.length)
      (hcreate : call.tree.heap.outcomes.head? ≠ some false) :
      During t key rowIndex
        ⟨splitInternalNodes call.tree parent childIndex call.key call.right, parent,
          splitInternalKey call.tree parent childIndex call.key, call.tree.heap.cells.length⟩

/-- The two halves of a split node hang where the node was. -/
def ParentCall.Consistent (call : ParentCall) : Prop :=
  ∃ fs left right d lo hi, call.left = Shape.addr left ∧ call.right = Shape.addr right ∧
    PathWF d lo hi fs ∧ call.tree.heap.Owns
      (left.cells (parentOf fs) ++ right.cells (parentOf fs) ++ frameCells fs left.addr)

/-- A parent that such a call finds is the innermost node of the path. -/
lemma ParentCall.Consistent.parent {call : ParentCall} (h : call.Consistent) {parent : Addr}
    (hparent : (call.tree.node call.left).parent = some parent) :
    ∃ i, bptreeFindChildIndex (call.tree.node parent) call.left = some i ∧
      ⟨splitInternalNodes call.tree parent i call.key call.right, parent,
        splitInternalKey call.tree parent i call.key, call.tree.heap.cells.length⟩ ∈
          {next : ParentCall | next.Consistent} := by
  obtain ⟨tree, leftAddr, key, rightAddr⟩ := call
  obtain ⟨fs, left, right, d, lo, hi, rfl, rfl, hfs, ho⟩ := h
  cases fs with
  | nil =>
    rw [BPTree.node_of_owns ho (List.mem_append_left _
      (List.mem_append_left _ (left.addr_mem_cells none)))] at hparent
    cases hparent
  | cons f fs =>
    obtain ⟨hup, hidx, -⟩ := frame_of_owns ho
    cases hup.symm.trans hparent
    obtain ⟨lo', hi', hfs', hll, -⟩ := hfs
    obtain ⟨-, ho'⟩ := splitInternalNodes_owns key hll ho
    exact ⟨f.lefts.length, hidx, fs, _, _, d + 1, lo', hi', rfl, rfl, hfs', ho'⟩

lemma ParentCall.During.consistent {t : BPTree} {s : Shape} {d : Nat} (h : Represents t s)
    (hs : s.WF d true none none) {key rowIndex : Int} {call : ParentCall}
    (hcall : During t key rowIndex call) : call.Consistent := by
  induction hcall with
  | @splitLeaf leaf hsearch hfind hfull hcreate =>
    obtain ⟨fs, a, es, nx, lo, hi, hat, hfind'⟩ := h.findLeaf hs key
    cases hfind'.symm.trans hfind
    rw [hat.node_eq h, List.length_map] at hfull
    obtain ⟨-, howns⟩ := @splitLeafNodes_owns key rowIndex _ _ _ _ _ _ _ _ hat h
      (le_antisymm hat.wf.2.2.2.1 hfull)
    exact ⟨fs, _, _, 0, lo, hi, rfl, rfl, hat.path, howns⟩
  | splitInternal hcall hparent hfind hfull hcreate ih =>
    obtain ⟨i, hfind', hnext⟩ := ih.parent hparent
    cases hfind'.symm.trans hfind
    exact hnext

/-- In a tree that is built from `NULL` all links agree, the leaves from left to right hold the
inserted keys in ascending order, and a split node is found among the children of its parent. -/
theorem bptreeRun_linked (pairs : List (Int × Int)) :
    (∀ root, (bptreeRun pairs).root = some root →
      (bptreeRun pairs).Linked root ∧
        ((bptreeRun pairs).leafKeys root).Pairwise (· < ·) ∧
        ∀ k, k ∈ (bptreeRun pairs).leafKeys root ↔ k ∈ pairs.map Prod.fst) ∧
    ∀ key rowIndex call, ParentCall.During (bptreeRun pairs) key rowIndex call →
      ∀ parent, (call.tree.node call.left).parent = some parent →
        ∃ i, bptreeFindChildIndex (call.tree.node parent) call.left = some i := by
  rcases bptreeRun_shape pairs with ⟨hnull, rfl⟩ | ⟨s, d, hm, hs, hmap, hlinked⟩
  · rw [hnull]
    refine ⟨fun root hroot => absurd hroot (by simp [BPTree.null]),
      fun key rowIndex call hcall => ?_⟩
    exfalso
    induction hcall with
    | splitLeaf hsearch hfind hfull hcreate => cases hfind
    | splitInternal hcall hparent hfind hfull hcreate ih => exact ih
  · refine ⟨fun root hroot => ?_, fun key rowIndex call hcall parent hparent => ?_⟩
    · cases Option.some.inj (hm.root.symm.trans hroot)
      rw [hm.represents.leafKeys_eq hs]
      refine ⟨hm.represents.linked hs hlinked, hs.entries_sorted.1, fun k => ?_⟩
      rw [mem_keys_iff_lookup pairs, List.mem_map]
      constructor
      · rintro ⟨⟨k', v⟩, he, rfl⟩
        exact ⟨v, (hmap _ _).mp he⟩
      · rintro ⟨v, hv⟩
        exact ⟨(k, v), (hmap _ _).mpr hv, rfl⟩
    · obtain ⟨i, hi, -⟩ := (hcall.consistent hm.represents hs).parent hparent
      exact ⟨i, hi⟩

end MiniDbms
