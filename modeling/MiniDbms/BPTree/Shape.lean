import MiniDbms.Library.SeparatorChain
import MiniDbms.BPTree.Basic

/-!
# The shape of a B+ tree

`Shape` is the tree that a root pointer describes: the nodes with their addresses, the entries
of the leaves, and the separators of the internal nodes. `Shape.WF` is the ordering and
occupancy invariant, and `insertUp` is what `bptree_insert_into_parent` does to a tree, written
along the path (`List Frame`) from the split node to the root.
-/

namespace MiniDbms

inductive Shape where
  | leaf (a : Addr) (entries : List (Int × Int)) (next : Option Addr)
  | node (a : Addr) (keys : List Int) (children : List Shape)

namespace Shape

def addr : Shape → Addr
  | .leaf a _ _ => a
  | .node a _ _ => a

/-- The entries from left to right. -/
def entries : Shape → List (Int × Int)
  | .leaf _ es _ => es
  | .node _ _ cs => cs.flatMap entries

@[simp] lemma entries_leaf (a : Addr) (es : List (Int × Int)) (nx : Option Addr) :
    (Shape.leaf a es nx).entries = es := by simp [entries]

@[simp] lemma entries_node (a : Addr) (ks : List Int) (cs : List Shape) :
    (Shape.node a ks cs).entries = cs.flatMap entries := by simp [entries]

/-- The heap cells of a tree whose root has parent `p`. -/
def cells (p : Option Addr) : Shape → List (Addr × BPTreeNode)
  | .leaf a es nx => [(a, ⟨true, es.map Prod.fst, p, [], es.map Prod.snd, nx⟩)]
  | .node a ks cs => (a, ⟨false, ks, p, cs.map addr, [], none⟩) :: cs.flatMap (cells (some a))

lemma cells_leaf (p : Option Addr) (a : Addr) (es : List (Int × Int)) (nx : Option Addr) :
    (Shape.leaf a es nx).cells p = [(a, ⟨true, es.map Prod.fst, p, [], es.map Prod.snd, nx⟩)] := by
  simp [cells]

lemma cells_node (p : Option Addr) (a : Addr) (ks : List Int) (cs : List Shape) :
    (Shape.node a ks cs).cells p
      = (a, ⟨false, ks, p, cs.map addr, [], none⟩) :: cs.flatMap (cells (some a)) := by
  simp [cells]

/-- The root cell of a tree without its parent link. -/
def rootCell : Shape → BPTreeNode
  | .leaf _ es nx => ⟨true, es.map Prod.fst, none, [], es.map Prod.snd, nx⟩
  | .node _ ks cs => ⟨false, ks, none, cs.map addr, [], none⟩

/-- The cells below the root. -/
def inner : Shape → List (Addr × BPTreeNode)
  | .leaf _ _ _ => []
  | .node a _ cs => cs.flatMap (cells (some a))

/-- Only the root cell mentions the parent. -/
lemma cells_eq (p : Option Addr) (s : Shape) :
    s.cells p = (s.addr, { s.rootCell with parent := p }) :: s.inner := by
  cases s <;> simp [cells, addr, rootCell, inner]

/-! ### The invariant -/

/-- A well-formed subtree of uniform height with all keys in `[lo, hi)`. Occupancy is bounded
from below for every node but the root. -/
def WF : Nat → Bool → Option Int → Option Int → Shape → Prop
  | 0, isRoot, lo, hi, .leaf _ es _ =>
      (es.map Prod.fst).Pairwise (· < ·) ∧ (∀ e ∈ es, InRange lo hi e.1) ∧ es ≠ [] ∧
        es.length ≤ bptreeMaxKeys ∧ (isRoot = false → 16 ≤ es.length)
  | d + 1, isRoot, lo, hi, .node _ ks cs =>
      Chain (WF d false) lo ks cs hi ∧ ks ≠ [] ∧ ks.length ≤ bptreeMaxKeys ∧
        (isRoot = false → 15 ≤ ks.length)
  | _, _, _, _, _ => False

lemma WF.toRoot {d : Nat} {r : Bool} {lo hi : Option Int} {s : Shape} (h : s.WF d r lo hi) :
    s.WF d true lo hi := by
  match d, s, h with
  | 0, .leaf _ _ _, h => exact ⟨h.1, h.2.1, h.2.2.1, h.2.2.2.1, by simp⟩
  | _ + 1, .node _ _ _, h => exact ⟨h.1, h.2.1, h.2.2.1, by simp⟩

lemma WF.bounded {d : Nat} {r : Bool} {lo hi : Option Int} {s : Shape} (h : s.WF d r lo hi) :
    Bounded lo hi := by
  induction d generalizing r lo hi s with
  | zero =>
    match s, h with
    | .leaf _ (e :: _) _, h => exact (h.2.1 e (by simp)).bounded
    | .leaf _ [] _, h => exact absurd rfl h.2.2.1
  | succ d ih =>
    match s, h with
    | .node _ _ _, h => exact h.1.bounded fun _ _ _ => ih

/-- The upper bound may be raised. -/
lemma WF.mono_upper {d : Nat} {r : Bool} {lo hi : Option Int} {u : Int} {s : Shape}
    (h : s.WF d r lo (some u)) (hu : Bounded (some u) hi) : s.WF d r lo hi := by
  induction d generalizing r lo s with
  | zero =>
    match s, h with
    | .leaf _ _ _, h =>
      refine ⟨h.1, fun e he => ⟨(h.2.1 e he).1, fun u' hu' => ?_⟩, h.2.2⟩
      exact lt_trans ((h.2.1 e he).2 u rfl) (hu u rfl u' hu')
  | succ d ih =>
    match s, h with
    | .node _ _ _, h => exact ⟨h.1.mono_upper fun _ _ hc => ih hc, h.2⟩

/-- The keys of the entries ascend strictly and stay within the bounds. -/
lemma WF.entries_sorted {d : Nat} {r : Bool} {lo hi : Option Int} {s : Shape}
    (h : s.WF d r lo hi) :
    (s.entries.map Prod.fst).Pairwise (· < ·) ∧
      ∀ k ∈ s.entries.map Prod.fst, InRange lo hi k := by
  induction d generalizing r lo hi s with
  | zero =>
    match s, h with
    | .leaf _ es _, h => simpa using ⟨h.1, by simpa using h.2.1⟩
  | succ d ih =>
    match s, h with
    | .node _ ks cs, h =>
      rw [entries_node, List.map_flatMap]
      exact h.1.flatMap_sorted fun _ _ _ hc => ⟨hc.bounded, ih hc⟩

end Shape

/-! ### Paths to the root -/

/-- An internal node on the path to the root, with the place of the path left open: the hole
sits after the separators `lkeys` and before the separators `rkeys`. -/
structure Frame where
  a : Addr
  lkeys : List Int
  rkeys : List Int
  lefts : List Shape
  rights : List Shape

namespace Frame

def plug (f : Frame) (s : Shape) : Shape :=
  .node f.a (f.lkeys ++ f.rkeys) (f.lefts ++ s :: f.rights)

def keyCount (f : Frame) : Nat := f.lkeys.length + f.rkeys.length

end Frame

/-- Fill the hole of a path, innermost frame first. -/
def plug : List Frame → Shape → Shape
  | [], s      => s
  | f :: fs, s => plug fs (f.plug s)

/-- The parent link of the node in the hole. -/
def parentOf : List Frame → Option Addr
  | []     => none
  | f :: _ => some f.a

/-- The cells of a path, given the address of the node in the hole. -/
def frameCells : List Frame → Addr → List (Addr × BPTreeNode)
  | [], _      => []
  | f :: fs, a =>
      (f.a, ⟨false, f.lkeys ++ f.rkeys, parentOf fs,
        f.lefts.map Shape.addr ++ a :: f.rights.map Shape.addr, [], none⟩) ::
        ((f.lefts ++ f.rights).flatMap (Shape.cells (some f.a)) ++ frameCells fs f.a)

/-- The entries to the left and to the right of the hole. -/
def sideEntries : List Frame → List (Int × Int)
  | []      => []
  | f :: fs => (f.lefts ++ f.rights).flatMap Shape.entries ++ sideEntries fs

lemma addr_plug_congr (fs : List Frame) {s s' : Shape} (h : s.addr = s'.addr) :
    (plug fs s).addr = (plug fs s').addr := by
  induction fs generalizing s s' with
  | nil => exact h
  | cons f fs ih => exact ih rfl

lemma cells_plug (fs : List Frame) (s : Shape) :
    ((plug fs s).cells none).Perm (s.cells (parentOf fs) ++ frameCells fs s.addr) := by
  induction fs generalizing s with
  | nil => simp [plug, parentOf, frameCells]
  | cons f fs ih =>
    refine (ih (f.plug s)).trans ?_
    simp only [Frame.plug, Shape.cells_node, Shape.addr, frameCells, parentOf,
      List.flatMap_append, List.flatMap_cons, List.map_append, List.map_cons]
    grind

lemma entries_plug (fs : List Frame) (s : Shape) :
    ((plug fs s).entries).Perm (s.entries ++ sideEntries fs) := by
  induction fs generalizing s with
  | nil => simp [plug, sideEntries]
  | cons f fs ih =>
    refine (ih (f.plug s)).trans ?_
    simp only [Frame.plug, Shape.entries_node, sideEntries, List.flatMap_append,
      List.flatMap_cons]
    grind

/-- A path whose hole takes any well-formed tree of height `d` within `[lo, hi)`. -/
def PathWF : Nat → Option Int → Option Int → List Frame → Prop
  | _, lo, hi, []      => lo = none ∧ hi = none
  | d, lo, hi, f :: fs =>
      ∃ lo' hi', PathWF (d + 1) lo' hi' fs ∧
        f.lefts.length = f.lkeys.length ∧ f.rights.length = f.rkeys.length ∧
        0 < f.keyCount ∧ f.keyCount ≤ bptreeMaxKeys ∧ (fs ≠ [] → 15 ≤ f.keyCount) ∧
        ∀ ts ms, Chain (Shape.WF d false) lo ts ms hi →
          Chain (Shape.WF d false) lo' (f.lkeys ++ ts ++ f.rkeys) (f.lefts ++ ms ++ f.rights) hi'

lemma PathWF.plug_wf {d : Nat} {lo hi : Option Int} {fs : List Frame} {s : Shape}
    (hfs : PathWF d lo hi fs) (hs : s.WF d fs.isEmpty lo hi) :
    ∃ d', (plug fs s).WF d' true none none := by
  induction fs generalizing d lo hi s with
  | nil =>
    obtain ⟨rfl, rfl⟩ := hfs
    exact ⟨d, hs⟩
  | cons f fs ih =>
    obtain ⟨lo', hi', hfs', hl, hr, hpos, hmax, hmin, hfill⟩ := hfs
    have hchain := hfill [] [s] (chain_nil_iff.mpr ⟨s, rfl, hs⟩)
    refine ih hfs' (s := f.plug s) ?_
    have hlen : (f.lkeys ++ f.rkeys).length = f.keyCount := List.length_append
    refine ⟨by simpa using hchain, ?_, hlen ▸ hmax, fun hne => hlen ▸ hmin (by simpa using hne)⟩
    exact List.ne_nil_of_length_pos (hlen ▸ hpos)

/-! ### Inserting a split child -/

/-- What `bptree_insert_into_parent` does to the tree whose path `fs` leads to `left`, when the
node in the hole has been split at `key` into `left` and `right`. New nodes are numbered from
`next`. -/
def insertUp (next : Addr) : List Frame → Shape → Int → Shape → Shape
  | [], left, key, right      => .node next [key] [left, right]
  | f :: fs, left, key, right =>
    let keys := f.lkeys ++ key :: f.rkeys
    let children := f.lefts ++ left :: right :: f.rights
    if f.keyCount < bptreeMaxKeys then plug fs (.node f.a keys children)
    else
      insertUp (next + 1) fs
        (.node f.a (keys.take (keys.length / 2)) (children.take (keys.length / 2 + 1)))
        (keys.getD (keys.length / 2) 0)
        (.node next (keys.drop (keys.length / 2 + 1)) (children.drop (keys.length / 2 + 1)))

/-- The number of nodes that `bptree_insert_into_parent` allocates on this path: one for each full
node above the split one and, if all are full, one for the new root. -/
def nodesNeeded : List Frame → Nat
  | []      => 1
  | f :: fs => if f.keyCount < bptreeMaxKeys then 0 else nodesNeeded fs + 1

lemma entries_insertUp (next : Addr) (fs : List Frame) (left right : Shape) (key : Int) :
    (insertUp next fs left key right).entries.Perm
      (left.entries ++ right.entries ++ sideEntries fs) := by
  induction fs generalizing next left key right with
  | nil => simp [insertUp, sideEntries]
  | cons f fs ih =>
    simp only [insertUp]
    split_ifs
    · refine (entries_plug fs _).trans ?_
      simp only [Shape.entries_node, sideEntries, List.flatMap_append, List.flatMap_cons]
      grind
    · refine (ih _ _ _ _).trans ?_
      rw [Shape.entries_node, Shape.entries_node, ← List.flatMap_append, List.take_append_drop]
      simp only [sideEntries, List.flatMap_append, List.flatMap_cons]
      grind

/-- Cutting a full chain of separators at the promoted key. -/
lemma Shape.chain_split {d : Nat} {lo hi : Option Int} {ks : List Int} {cs : List Shape}
    (h : Chain (Shape.WF d false) lo ks cs hi) {i : Nat} (hi' : i < ks.length) :
    Chain (Shape.WF d false) lo (ks.take i) (cs.take (i + 1)) (some (ks.getD i 0)) ∧
      Chain (Shape.WF d false) (some (ks.getD i 0)) (ks.drop (i + 1)) (cs.drop (i + 1)) hi := by
  have hlen := h.length_eq
  have hks : ks = ks.take i ++ ks.getD i 0 :: ks.drop (i + 1) := by
    rw [List.getD_eq_getElem?_getD, List.getElem?_eq_getElem hi', Option.getD_some,
      ← List.drop_eq_getElem_cons hi', List.take_append_drop]
  rw [hks, ← List.take_append_drop (i + 1) cs] at h
  refine (chain_append_iff ?_).mp h
  simp only [List.length_take]
  omega

/-- The two halves of a full node, cut at the promoted key, within the bounds of the node. -/
lemma PathWF.split_wf {d : Nat} {lo hi : Option Int} {f : Frame} {fs : List Frame}
    {left right : Shape} {key : Int} (next : Addr) (hfs : PathWF d lo hi (f :: fs))
    (hl : left.WF d false lo (some key)) (hr : right.WF d false (some key) hi)
    (hfull : ¬ f.keyCount < bptreeMaxKeys) :
    let keys := f.lkeys ++ key :: f.rkeys
    let children := f.lefts ++ left :: right :: f.rights
    ∃ lo' hi', PathWF (d + 1) lo' hi' fs ∧
      (Shape.node f.a (keys.take (keys.length / 2)) (children.take (keys.length / 2 + 1))).WF
        (d + 1) false lo' (some (keys.getD (keys.length / 2) 0)) ∧
      (Shape.node next (keys.drop (keys.length / 2 + 1)) (children.drop (keys.length / 2 + 1))).WF
        (d + 1) false (some (keys.getD (keys.length / 2) 0)) hi' := by
  intro keys children
  obtain ⟨lo', hi', hfs', hll, hrl, hpos, hmax, hmin, hfill⟩ := hfs
  have hchain := hfill [key] [left, right] (by simp [hl, hr])
  simp only [List.append_assoc, List.cons_append, List.nil_append] at hchain
  have hlen : keys.length = 32 := by
    simp only [bptreeMaxKeys, Frame.keyCount] at hmax hfull
    simp only [keys, List.length_append, List.length_cons]
    omega
  obtain ⟨h1, h2⟩ := Shape.chain_split hchain (show keys.length / 2 < keys.length by omega)
  refine ⟨lo', hi', hfs', ⟨h1, ?_, ?_, ?_⟩, ⟨h2, ?_, ?_, ?_⟩⟩
  · exact List.ne_nil_of_length_pos (by rw [List.length_take]; omega)
  · rw [List.length_take, bptreeMaxKeys]; omega
  · intro _; rw [List.length_take]; omega
  · exact List.ne_nil_of_length_pos (by rw [List.length_drop]; omega)
  · rw [List.length_drop, bptreeMaxKeys]; omega
  · intro _; rw [List.length_drop]; omega

lemma PathWF.insertUp_wf {d : Nat} {lo hi : Option Int} {fs : List Frame} {left right : Shape}
    {key : Int} (next : Addr) (hfs : PathWF d lo hi fs) (hl : left.WF d false lo (some key))
    (hr : right.WF d false (some key) hi) :
    ∃ d', (insertUp next fs left key right).WF d' true none none := by
  induction fs generalizing d lo hi left key right next with
  | nil =>
    obtain ⟨rfl, rfl⟩ := hfs
    refine ⟨d + 1, ?_⟩
    simp [insertUp, Shape.WF, hl, hr, bptreeMaxKeys]
  | cons f fs ih =>
    simp only [insertUp]
    split_ifs with hroom
    · obtain ⟨lo', hi', hfs', hll, hrl, hpos, hmax, hmin, hfill⟩ := hfs
      have hchain := hfill [key] [left, right] (by simp [hl, hr])
      simp only [List.append_assoc, List.cons_append, List.nil_append] at hchain
      have hlen : (f.lkeys ++ key :: f.rkeys).length = f.keyCount + 1 := by
        simp [Frame.keyCount]; omega
      refine hfs'.plug_wf ⟨hchain, by simp, by omega, fun hne => ?_⟩
      have := hmin (by simpa using hne)
      omega
    · obtain ⟨lo', hi', hfs', hl', hr'⟩ := hfs.split_wf next hl hr hroom
      exact ih (next + 1) hfs' hl' hr'

end MiniDbms
