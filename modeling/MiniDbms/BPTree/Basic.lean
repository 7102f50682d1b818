import MiniDbms.Library.Heap
import MiniDbms.Common.Utils

/-!
# The B+ tree of `bptree.c`

Nodes live in a heap and are linked by addresses exactly as in the source: an internal node
points to its children, every node but the root points to its parent, and each leaf points to
the leaf on its right. The array `keys[0 .. key_count)` is the list `keys`, so that `key_count`
is its length; `children` lists the non-null slots of the child array and `rowIndices` the slots
of `row_indices` in use.

Loops that follow pointers carry fuel. The number of allocated nodes bounds the height of a
tree, and running out of fuel is reported as `FAILURE`, so that no result below rests on it.
-/

namespace MiniDbms

/-- `BPTREE_MAX_KEYS` -/
def bptreeMaxKeys : Nat := 31

structure BPTreeNode where
  isLeaf : Bool
  keys : List Int
  parent : Option Addr
  children : List Addr
  rowIndices : List Int
  next : Option Addr
  deriving DecidableEq, Repr

/-- A node as `calloc` returns it. -/
instance : Inhabited BPTreeNode := ⟨⟨false, [], none, [], [], none⟩⟩

/-- The heap of nodes together with the root pointer that callers pass by reference. -/
structure BPTree where
  heap : Heap BPTreeNode
  root : Option Addr
  deriving DecidableEq, Repr

namespace BPTree

/-- The `NULL` root. -/
def null : BPTree := ⟨Heap.empty, none⟩

/-- Dereference a node pointer. -/
def node (t : BPTree) (a : Addr) : BPTreeNode := (t.heap.get? a).getD default

def modify (t : BPTree) (a : Addr) (f : BPTreeNode → BPTreeNode) : BPTree :=
  { t with heap := t.heap.modify a f }

/-- `child->parent = node` for each of the listed children in turn. -/
def setParents (t : BPTree) (children : List Addr) (a : Addr) : BPTree :=
  { t with
    heap := children.foldl (fun h c => h.modify c fun n => { n with parent := some a }) t.heap }

end BPTree

/-- `bptree_create_node`; `none` is the `NULL` of a failed `calloc`. -/
def bptreeCreateNode (t : BPTree) (isLeaf : Bool) : Option Addr × BPTree :=
  match t.heap.alloc { (default : BPTreeNode) with isLeaf := isLeaf } with
  | (a, heap) => (a, { t with heap := heap })

/-- `bptree_find_child_index` -/
def bptreeFindChildIndex (parent : BPTreeNode) (child : Addr) : Option Nat :=
  parent.children.findIdx? (· == child)

/-- `bptree_find_leaf`: the inner loop stops at the first separator above `key`. -/
def bptreeFindLeaf (t : BPTree) (key : Int) : Nat → Option Addr → Option Addr
  | _, none          => none
  | 0, some _        => none
  | fuel + 1, some a =>
    if (t.node a).isLeaf then some a
    else bptreeFindLeaf t key fuel (t.node a).children[(t.node a).keys.findIdx (key < ·)]?

/-- `bptree_search`; the result is the `row_index` stored for `key`, if any. -/
def bptreeSearch (t : BPTree) (key : Int) : Option Int :=
  match bptreeFindLeaf t key t.heap.cells.length t.root with
  | none      => none
  | some leaf =>
    match (t.node leaf).keys.findIdx? (· == key) with
    | none   => none
    | some i => (t.node leaf).rowIndices[i]?

/-- The position the `while` loops of `bptree_insert_into_leaf` and `bptree_split_leaf` stop at. -/
def leafInsertIndex (keys : List Int) (key : Int) : Nat := keys.findIdx (fun k => ¬ k < key)

/-- `bptree_insert_into_leaf` -/
def bptreeInsertIntoLeaf (t : BPTree) (leaf : Addr) (key rowIndex : Int) : BPTree × Status :=
  if ¬ (t.node leaf).isLeaf ∨ bptreeMaxKeys ≤ (t.node leaf).keys.length then (t, .failure)
  else
    let i := leafInsertIndex (t.node leaf).keys key
    (t.modify leaf fun n =>
      { n with keys := n.keys.insertIdx i key, rowIndices := n.rowIndices.insertIdx i rowIndex },
     .success)

/-- `bptree_insert_into_internal` -/
def bptreeInsertIntoInternal (t : BPTree) (node : Addr) (childIndex : Nat) (key : Int)
    (rightChild : Addr) : BPTree :=
  (t.modify node fun n =>
    { n with
      keys := n.keys.insertIdx childIndex key
      children := n.children.insertIdx (childIndex + 1) rightChild }).modify rightChild
    fun n => { n with parent := some node }

/-- The second half of `bptree_split_internal`: hand out the merged arrays to `node` and
`newNode`, the key at `promoteIndex` going to neither. -/
def bptreeDistribute (t : BPTree) (node newNode : Addr) (tempKeys : List Int)
    (tempChildren : List Addr) (promoteIndex : Nat) : BPTree :=
  let leftChildren := tempChildren.take (promoteIndex + 1)
  let rightChildren := tempChildren.drop (promoteIndex + 1)
  let t := t.modify node fun n =>
    { n with keys := tempKeys.take promoteIndex, children := leftChildren }
  let t := t.setParents leftChildren node
  let t := t.modify newNode fun n =>
    { n with keys := tempKeys.drop (promoteIndex + 1), children := rightChildren }
  let t := t.setParents rightChildren newNode
  t.modify newNode fun n => { n with parent := (t.node node).parent }

mutual

/-- `bptree_insert_into_parent` -/
def bptreeInsertIntoParent : Nat → BPTree → Addr → Int → Addr → BPTree × Status
  | 0, t, _, _, _ => (t, .failure)
  | fuel + 1, t, left, key, right =>
    match (t.node left).parent with
    | none =>
      match bptreeCreateNode t false with
      | (none, t)         => (t, .failure)
      | (some newRoot, t) =>
        let t := t.modify newRoot fun n => { n with keys := [key], children := [left, right] }
        let t := t.modify left fun n => { n with parent := some newRoot }
        let t := t.modify right fun n => { n with parent := some newRoot }
        ({ t with root := some newRoot }, .success)
    | some parent =>
      match bptreeFindChildIndex (t.node parent) left with
      | none            => (t, .failure)
      | some childIndex =>
        if (t.node parent).keys.length < bptreeMaxKeys then
          (bptreeInsertIntoInternal t parent childIndex key right, .success)
        else bptreeSplitInternal fuel t parent childIndex key right

/-- `bptree_split_internal` -/
def bptreeSplitInternal : Nat → BPTree → Addr → Nat → Int → Addr → BPTree × Status
  | 0, t, _, _, _, _ => (t, .failure)
  | fuel + 1, t, node, leftChildIndex, key, rightChild =>
    if (t.node node).isLeaf then (t, .failure)
    else
      match bptreeCreateNode t false with
      | (none, t)         => (t, .failure)
      | (some newNode, t) =>
        let totalKeys := (t.node node).keys.length + 1
        let tempKeys := (t.node node).keys.insertIdx leftChildIndex key
        let tempChildren := (t.node node).children.insertIdx (leftChildIndex + 1) rightChild
        let promoteIndex := totalKeys / 2
        let promoteKey := tempKeys.getD promoteIndex 0
        let t := bptreeDistribute t node newNode tempKeys tempChildren promoteIndex
        bptreeInsertIntoParent fuel t node promoteKey newNode

end

/-- Fuel for the climb from a leaf to the root: two calls a level, one level a node at most. -/
def climbFuel (t : BPTree) : Nat := 2 * t.heap.cells.length

/-- `bptree_split_leaf` -/
def bptreeSplitLeaf (t : BPTree) (leaf : Addr) (key rowIndex : Int) : BPTree × Status :=
  if ¬ (t.node leaf).isLeaf then (t, .failure)
  else
    match bptreeCreateNode t true with
    | (none, t)         => (t, .failure)
    | (some newLeaf, t) =>
      let totalKeys := (t.node leaf).keys.length + 1
      let insertIndex := leafInsertIndex (t.node leaf).keys key
      let tempKeys := (t.node leaf).keys.insertIdx insertIndex key
      let tempRowIndices := (t.node leaf).rowIndices.insertIdx insertIndex rowIndex
      let splitIndex := totalKeys / 2
      let oldNext := (t.node leaf).next
      let oldParent := (t.node leaf).parent
      let t := t.modify leaf fun n =>
        { n with
          keys := tempKeys.take splitIndex
          rowIndices := tempRowIndices.take splitIndex
          next := some newLeaf }
      let t := t.modify newLeaf fun n =>
        { n with
          keys := tempKeys.drop splitIndex
          rowIndices := tempRowIndices.drop splitIndex
          next := oldNext
          parent := oldParent }
      bptreeInsertIntoParent (climbFuel t) t leaf ((t.node newLeaf).keys.getD 0 0) newLeaf

/-- `bptree_insert` -/
def bptreeInsert (t : BPTree) (key rowIndex : Int) : BPTree × Status :=
  match t.root with
  | none =>
    match bptreeCreateNode t true with
    | (none, t)   => (t, .failure)
    | (some a, t) =>
      ({ t.modify a fun n => { n with keys := [key], rowIndices := [rowIndex] } with
         root := some a }, .success)
  | some _ =>
    match bptreeSearch t key with
    | some _ => (t, .failure)
    | none   =>
      match bptreeFindLeaf t key t.heap.cells.length t.root with
      | none      => (t, .failure)
      | some leaf =>
        if (t.node leaf).keys.length < bptreeMaxKeys then bptreeInsertIntoLeaf t leaf key rowIndex
        else bptreeSplitLeaf t leaf key rowIndex

/-- The tree after feeding the pairs in turn to `bptree_insert`, starting from `NULL`. -/
def bptreeRun (pairs : List (Int × Int)) : BPTree :=
  pairs.foldl (fun t p => (bptreeInsert t p.1 p.2).1) .null

end MiniDbms
