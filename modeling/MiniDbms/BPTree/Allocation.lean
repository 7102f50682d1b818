import MiniDbms.BPTree.Links

/-!
# Insertion when memory runs out

Each call of `bptree_insert` is given the outcomes of its allocations. A call whose first
allocation fails leaves the nodes alone. When a later one fails, nodes have been cut in two already,
and the right half of the one that was cut last hangs nowhere.
-/

namespace MiniDbms

/-! ### Runs with failing allocations -/

/-- The outcomes of the next allocations. -/
def BPTree.script (t : BPTree) (outcomes : List Bool) : BPTree :=
  { t with heap := { t.heap with outcomes } }

/-- The nodes that are allocated on the way up from a split node. -/
def climbNodes (t : BPTree) : (fuel : Nat) → (left : Addr) → Nat
  | 0, _           => 0
  | fuel + 1, left =>
    match (t.node left).parent with
    | none        => 1
    | some parent =>
      if (t.node parent).keys.length < bptreeMaxKeys then 0 else climbNodes t fuel parent + 1

/-- The nodes that `bptree_insert` allocates for a key if all allocations succeed. -/
def bptreeInsertNodes (t : BPTree) (key : Int) : Nat :=
  match t.root with
  | none   => 1
  | some _ =>
    match bptreeSearch t key with
    | some _ => 0
    | none   =>
      match bptreeFindLeaf t key t.heap.cells.length t.root with
      | none      => 0
      | some leaf =>
        if (t.node leaf).keys.length < bptreeMaxKeys then 0
        else climbNodes t t.heap.cells.length leaf + 1

/-- The first allocation of the call fails, or none does. -/
def FailsEarly (t : BPTree) (key : Int) : Prop :=
  t.heap.outcomes.head? = some false ∨ t.heap.Allocates (bptreeInsertNodes t key)

/-- The trees that calls build from `NULL`, none of which runs out of memory after its first
allocation. -/
inductive EarlyRun : BPTree → Prop where
  | null : EarlyRun .null
  | insert {t : BPTree} (h : EarlyRun t) (outcomes : List Bool) (key rowIndex : Int)
      (hearly : FailsEarly (t.script outcomes) key) :
      EarlyRun (bptreeInsert (t.script outcomes) key rowIndex).1

/-- The nodes are balanced and ordered, and all links agree. -/
def BPTree.WellFormed (t : BPTree) : Prop :=
  ∀ root, t.root = some root → (∃ d, t.Balanced d true none none root) ∧ t.Linked root

/-- A call that fails changes the outcome of no search and leaves a well-formed tree. -/
def LosesNothing (t : BPTree) (key rowIndex : Int) : Prop :=
  (bptreeInsert t key rowIndex).2 = .failure →
    (∀ k, bptreeSearch (bptreeInsert t key rowIndex).1 k = bptreeSearch t k) ∧
      (bptreeInsert t key rowIndex).1.WellFormed

/-- Searching allocates nothing. -/
@[simp]
lemma bptreeSearch_script (t : BPTree) (outcomes : List Bool) (key : Int) :
    bptreeSearch (t.script outcomes) key = bptreeSearch t key := by
  have hfind : ∀ fuel a,
      bptreeFindLeaf (t.script outcomes) key fuel a = bptreeFindLeaf t key fuel a := by
    intro fuel
    induction fuel with
    | zero => intro a; cases a <;> rfl
    | succ fuel ih =>
      intro a
      cases a with
      | none => rfl
      | some a =>
        rw [bptreeFindLeaf, bptreeFindLeaf, ih]
        rfl
  simp only [bptreeSearch, hfind]
  rfl

/-! ### The nodes that are needed -/

lemma climbNodes_eq {t : BPTree} {fs : List Frame} {s : Shape} {fuel : Nat}
    (ho : t.heap.Owns (s.cells (parentOf fs) ++ frameCells fs s.addr)) (hfuel : fs.length < fuel) :
    climbNodes t fuel s.addr = nodesNeeded fs := by
  induction fs generalizing s fuel with
  | nil =>
    obtain ⟨fuel, rfl⟩ : ∃ n, fuel = n + 1 := ⟨fuel - 1, by omega⟩
    rw [climbNodes, BPTree.node_of_owns ho (List.mem_append_left _ (s.addr_mem_cells _))]
    rfl
  | cons f fs ih =>
    obtain ⟨fuel, rfl⟩ : ∃ n, fuel = n + 1 := ⟨fuel - 1, by omega⟩
    have hplug : t.heap.Owns ((f.plug s).cells (parentOf fs) ++ frameCells fs f.a) := by
      refine ho.of_perm ?_
      simp only [Frame.plug, Shape.cells_node, frameCells, parentOf, List.flatMap_append,
        List.flatMap_cons, List.map_append, List.map_cons]
      grind
    have hcount : (t.node f.a).keys.length = f.keyCount := by
      have hnode := BPTree.node_of_owns hplug
        (List.mem_append_left _ ((f.plug s).addr_mem_cells (parentOf fs)))
      rw [Frame.plug, Shape.addr] at hnode
      rw [hnode]
      simp [Shape.rootCell, Frame.keyCount]
    rw [climbNodes, BPTree.node_of_owns ho (List.mem_append_left _ (s.addr_mem_cells _))]
    simp only [parentOf, hcount, nodesNeeded]
    split_ifs with hroom
    · rfl
    · rw [← ih hplug (by simpa using hfuel)]
      rfl

/-! ### Running out of memory on the way up -/

/-- The tree that is left when a new node cannot be attached. -/
lemma represents_left {fs : List Frame} {t : BPTree} {left right : Shape} {key : Int}
    {d : Nat} {lo hi : Option Int} (outcomes : List Bool) (hfs : PathWF d lo hi fs)
    (hl : left.WF d false lo (some key)) (hr : right.WF d false (some key) hi)
    (hroot : t.root = some (plug fs left).addr)
    (ho : t.heap.Owns (left.cells (parentOf fs) ++ right.cells (parentOf fs) ++
      frameCells fs left.addr)) :
    Represents (t.script outcomes) (plug fs left) ∧
      (∃ d', (plug fs left).WF d' true none none) ∧
      ((plug fs left).entries ++ right.entries).Perm
        (left.entries ++ right.entries ++ sideEntries fs) := by
  refine ⟨⟨?_, hroot⟩, hfs.plug_wf ?_, ?_⟩
  · refine Heap.Owns.of_perm (L := left.cells (parentOf fs) ++ frameCells fs left.addr) ?_
      (cells_plug fs left).symm
    have hsub : (left.cells (parentOf fs) ++ frameCells fs left.addr).Sublist
        (left.cells (parentOf fs) ++ right.cells (parentOf fs) ++ frameCells fs left.addr) :=
      (List.sublist_append_left _ _).append (List.Sublist.refl _)
    exact ⟨fun c hc => ho.get c (hsub.subset hc), (hsub.map Prod.fst).nodup ho.nodup⟩
  · have hwf := hl.mono_upper hr.bounded
    cases fs with
    | nil => exact hwf.toRoot
    | cons f fs => exact hwf
  · refine ((entries_plug fs left).append_right _).trans ?_
    grind

/-- A node that is not the root has at least two entries. -/
lemma Shape.WF.two_le {d : Nat} {lo hi : Option Int} {s : Shape} (h : s.WF d false lo hi) :
    2 ≤ s.entries.length := by
  induction d generalizing lo hi s with
  | zero =>
    match s, h with
    | .leaf a es nx, h =>
      have hmin := h.2.2.2.2 rfl
      rw [Shape.entries_leaf]
      omega
  | succ d ih =>
    match s, h with
    | .node a ks [], h => exact absurd h.1.length_eq (by simp)
    | .node a ks (c :: cs), h =>
      obtain ⟨lo', hi', hwf⟩ := h.child List.mem_cons_self
      have hfirst := ih hwf
      rw [Shape.entries_node, List.flatMap_cons, List.length_append]
      omega

/-- A failed allocation of an internal node. -/
lemma bptreeCreateNode_script {t : BPTree} (isLeaf : Bool)
    (ho : t.heap.outcomes.head? = some false) :
    bptreeCreateNode t isLeaf = (none, t.script t.heap.outcomes.tail) :=
  bptreeCreateNode_eq_none isLeaf ho

/-- When an allocation fails on the way up, the entries of a node are lost. -/
lemma bptreeInsertIntoParent_fails {fs : List Frame} {t : BPTree} {left right : Shape}
    {key : Int} {fuel d : Nat} {lo hi : Option Int} (hfs : PathWF d lo hi fs)
    (hl : left.WF d false lo (some key)) (hr : right.WF d false (some key) hi)
    (hfuel : 2 * fs.length < fuel) (hout : ¬ t.heap.Allocates (nodesNeeded fs))
    (hroot : t.root = some (plug fs left).addr)
    (ho : t.heap.Owns (left.cells (parentOf fs) ++ right.cells (parentOf fs) ++
      frameCells fs left.addr)) :
    ∃ t' s' d' lost, bptreeInsertIntoParent fuel t left.addr key right.addr = (t', .failure) ∧
      Represents t' s' ∧ s'.WF d' true none none ∧ 2 ≤ lost.length ∧
      (s'.entries ++ lost).Perm (left.entries ++ right.entries ++ sideEntries fs) := by
  induction fs generalizing t left right key fuel d lo hi with
  | nil =>
    obtain ⟨hrep, ⟨d', hwf⟩, hperm⟩ := represents_left t.heap.outcomes.tail hfs hl hr hroot ho
    obtain ⟨fuel, rfl⟩ : ∃ n, fuel = n + 1 := ⟨fuel - 1, by omega⟩
    have hhead : t.heap.outcomes.head? = some false := by
      by_contra hne
      exact hout ((t.heap.allocates_succ_iff 0).mpr ⟨hne, by simp⟩)
    have hparent : (t.node left.addr).parent = none := by
      rw [BPTree.node_of_owns ho (List.mem_append_left _
        (List.mem_append_left _ (left.addr_mem_cells none)))]
    refine ⟨_, _, d', right.entries, ?_, hrep, hwf, hr.two_le, hperm⟩
    rw [bptreeInsertIntoParent]
    simp only [hparent, bptreeCreateNode_script _ hhead]
  | cons f fs ih =>
    obtain ⟨fuel, rfl⟩ : ∃ n, fuel = n + 2 := ⟨fuel - 2, by simp at hfuel; omega⟩
    simp only [List.length_cons] at hfuel
    obtain ⟨hparent, hidx, hleaf, hcount⟩ := frame_of_owns ho
    have hfull : ¬ f.keyCount < bptreeMaxKeys := by
      intro hroom
      rw [nodesNeeded, if_pos hroom] at hout
      exact hout t.heap.allocates_zero
    have hclimb : bptreeInsertIntoParent (fuel + 2) t left.addr key right.addr =
        bptreeSplitInternal (fuel + 1) t f.a f.lefts.length key right.addr := by
      rw [bptreeInsertIntoParent]
      simp only [hparent, hidx, hcount, if_neg hfull]
    rw [nodesNeeded, if_neg hfull, Heap.allocates_succ_iff, not_and'] at hout
    rw [hclimb]
    by_cases hhead : t.heap.outcomes.head? = some false
    · obtain ⟨hrep, ⟨d', hwf⟩, hperm⟩ := represents_left t.heap.outcomes.tail hfs hl hr hroot ho
      refine ⟨_, _, d', right.entries, ?_, hrep, hwf, hr.two_le, hperm⟩
      rw [bptreeSplitInternal]
      simp only [hleaf, bptreeCreateNode_script _ hhead, Bool.false_eq_true, if_false]
    · obtain ⟨lo', hi', hfs', hl', hr'⟩ := hfs.split_wf t.heap.cells.length hl hr hfull
      obtain ⟨-, -, -, hll, -⟩ := hfs
      obtain ⟨hkey, ho'⟩ := splitInternalNodes_owns key hll ho
      obtain ⟨hout', -⟩ := splitInternalNodes_heap t f.a f.lefts.length key right.addr
      have hfuel' : 2 * fs.length < fuel := by omega
      have hfail : ¬ (splitInternalNodes t f.a f.lefts.length key right.addr).heap.Allocates
          (nodesNeeded fs) := by
        rw [Heap.Allocates, hout']
        exact fun h => hout h hhead
      have hroot' : ∀ s : Shape, s.addr = f.a →
          (splitInternalNodes t f.a f.lefts.length key right.addr).root = some (plug fs s).addr :=
        fun s hs => hroot.trans (congrArg some (addr_plug_congr fs hs.symm))
      obtain ⟨t', s', d', lost, heq, hrep, hwf, hlost, hperm⟩ :=
        ih hfs' hl' hr' hfuel' hfail (hroot' _ rfl) ho'
      refine ⟨t', s', d', lost, ?_, hrep, hwf, hlost, hperm.trans ?_⟩
      · rw [bptreeSplitInternal_eq _ _ _ _ hleaf hhead, hkey]
        exact heq
      · rw [Shape.entries_node, Shape.entries_node, ← List.flatMap_append, List.take_append_drop]
        simp only [sideEntries, List.flatMap_append, List.flatMap_cons]
        grind

section LeafAt

variable {key row : Int} {s : Shape} {fs : List Frame} {a : Addr} {es : List (Int × Int)}
  {nx : Option Addr} {lo hi : Option Int} {t : BPTree} {d : Nat}

lemma bptreeSplitLeaf_fails (hat : LeafAt key s fs a es nx lo hi) (h : Represents t s)
    (hk : key ∉ es.map Prod.fst) (hfull : es.length = bptreeMaxKeys)
    (hhead : t.heap.outcomes.head? ≠ some false)
    (hout : ¬ t.heap.Allocates (nodesNeeded fs + 1)) :
    ∃ t' s' d' lost, bptreeSplitLeaf t a key row = (t', .failure) ∧ Represents t' s' ∧
      s'.WF d' true none none ∧ 2 ≤ lost.length ∧
      (s'.entries ++ lost).Perm ((key, row) :: s.entries) := by
  have hm : Represents t (plug fs (.leaf a es nx)) := by rw [hat.plug_eq]; exact h
  obtain ⟨hkey, howns⟩ := @splitLeafNodes_owns key row _ _ _ _ _ _ _ _ hat h hfull
  obtain ⟨hwl, hwr⟩ := hat.split_wf row hk hfull t.heap.cells.length (some t.heap.cells.length) nx
  obtain ⟨hout', -, hroot'⟩ := splitLeafNodes_heap t a key row
  have hroot : (splitLeafNodes t a key row).root = some (plug fs
      (.leaf a ((leafInsert es key row).take 16) (some t.heap.cells.length))).addr :=
    hroot'.trans (hm.root.trans (congrArg some (addr_plug_congr fs rfl)))
  have hfail : ¬ (splitLeafNodes t a key row).heap.Allocates (nodesNeeded fs) := by
    rw [Heap.Allocates, hout']
    exact fun hsucc => hout ((t.heap.allocates_succ_iff _).mpr ⟨hhead, hsucc⟩)
  obtain ⟨t', s', d', lost, heq, hrep, hwf, hlost, hperm⟩ := bptreeInsertIntoParent_fails
    hat.path hwl hwr (hat.climbFuel_lt h) hfail hroot howns
  refine ⟨t', s', d', lost, ?_, hrep, hwf, hlost, hperm.trans ?_⟩
  · rw [bptreeSplitLeaf_eq _ _ (by rw [hat.node_eq h]) hhead, hkey]
    exact heq
  · rw [← hat.plug_eq, Shape.entries_leaf, Shape.entries_leaf, List.take_append_drop]
    refine ((leafInsert_perm es key row).append_right (sideEntries fs)).trans ?_
    have hentries := entries_plug fs (.leaf a es nx)
    rw [Shape.entries_leaf] at hentries
    exact hentries.symm.cons _

/-- The number of nodes that a fresh key needs. -/
lemma LeafAt.bptreeInsertNodes_eq (hat : LeafAt key s fs a es nx lo hi) (h : Represents t s)
    (hsearch : bptreeSearch t key = none)
    (hfind : bptreeFindLeaf t key t.heap.cells.length t.root = some a) :
    bptreeInsertNodes t key =
      if es.length < bptreeMaxKeys then 0 else nodesNeeded fs + 1 := by
  have hm : Represents t (plug fs (.leaf a es nx)) := by rw [hat.plug_eq]; exact h
  have hclimb : climbNodes t t.heap.cells.length a = nodesNeeded fs :=
    climbNodes_eq (s := .leaf a es nx) (hm.owns.of_perm (cells_plug fs _)) hm.length_lt
  have hlen : (t.node a).keys.length = es.length := by rw [hat.node_eq h, List.length_map]
  rw [h.root] at hfind
  simp only [bptreeInsertNodes, h.root, hsearch, hfind, hlen, hclimb]

/-- An entry that is lost is no longer found. -/
lemma exists_lost {s' : Shape} {d' : Nat} {t' : BPTree} {lost : List (Int × Int)}
    (h : Represents t s) (hs : s.WF d true none none) (h' : Represents t' s')
    (hs' : s'.WF d' true none none) (hkey : key ∉ s.entries.map Prod.fst)
    (hlost : 2 ≤ lost.length) (hperm : (s'.entries ++ lost).Perm ((key, row) :: s.entries)) :
    ∃ k, bptreeSearch t' k ≠ bptreeSearch t k := by
  have hnodup : ((s'.entries ++ lost).map Prod.fst).Nodup := by
    rw [(hperm.map Prod.fst).nodup_iff, List.map_cons, List.nodup_cons]
    exact ⟨hkey, hs.entries_sorted.1.imp ne_of_lt⟩
  rw [List.map_append, List.nodup_append] at hnodup
  -- of two lost entries one is not the new one
  obtain ⟨e, he, hne⟩ : ∃ e ∈ lost, e.1 ≠ key := by
    match lost, hlost with
    | e₁ :: e₂ :: _, _ =>
      have hdistinct := (List.nodup_cons.mp hnodup.2.1).1
      by_cases h₁ : e₁.1 = key
      · refine ⟨e₂, by simp, fun h₂ => hdistinct ?_⟩
        rw [h₁, ← h₂]
        exact List.mem_cons_self
      · exact ⟨e₁, by simp, h₁⟩
  refine ⟨e.1, fun hsame => ?_⟩
  have hold : e ∈ s.entries := by
    rcases List.mem_cons.mp (hperm.mem_iff.mp (List.mem_append_right _ he)) with rfl | hmem
    · exact absurd rfl hne
    · exact hmem
  rw [(h.search_eq_some_iff hs e.1 e.2).mpr hold, h'.search_eq_some_iff hs'] at hsame
  exact hnodup.2.2 e.1 (List.mem_map_of_mem hsame) e.1 (List.mem_map_of_mem he) rfl

end LeafAt

/-! ### Runs -/

/-- What a run maintains: the tree is empty, or represents a well-formed shape whose leaves are
linked. -/
def Sound (t : BPTree) : Prop :=
  (t.root = none ∧ t.heap.cells = []) ∨
    ∃ s d, Represents t s ∧ s.WF d true none none ∧ s.Linked

lemma Sound.script {t : BPTree} (h : Sound t) (outcomes : List Bool) :
    Sound (t.script outcomes) := by
  rcases h with ⟨hroot, hcells⟩ | ⟨s, d, hrep, hs, hlinked⟩
  · exact Or.inl ⟨hroot, hcells⟩
  · exact Or.inr ⟨s, d, ⟨⟨hrep.owns.get, hrep.owns.nodup⟩, hrep.root⟩, hs, hlinked⟩

lemma Sound.wellFormed {t : BPTree} (h : Sound t) : t.WellFormed := by
  intro root hroot
  rcases h with ⟨hnone, -⟩ | ⟨s, d, hrep, hs, hlinked⟩
  · cases hnone.symm.trans hroot
  · cases Option.some.inj (hrep.root.symm.trans hroot)
    exact ⟨⟨d, hs.balanced hrep.owns (List.Subset.refl _)⟩, hrep.linked hs hlinked⟩

/-- The first node of an empty tree. -/
lemma bptreeInsert_empty {t : BPTree} (hroot : t.root = none) (hcells : t.heap.cells = [])
    (key row : Int) :
    (t.heap.outcomes.head? = some false ∧
        bptreeInsert t key row = (t.script t.heap.outcomes.tail, .failure)) ∨
      (bptreeInsert t key row).2 = .success ∧
        Represents (bptreeInsert t key row).1 (.leaf 0 [(key, row)] none) := by
  by_cases hhead : t.heap.outcomes.head? = some false
  · refine Or.inl ⟨hhead, ?_⟩
    rw [bptreeInsert, hroot]
    simp only [bptreeCreateNode_script _ hhead]
  · refine Or.inr ?_
    rw [bptreeInsert, hroot]
    simp only [bptreeCreateNode_eq _ hhead]
    refine ⟨trivial, ⟨fun c hc => ?_, by simp [Shape.cells_leaf]⟩, by rw [hcells]; rfl⟩
    rw [Shape.cells_leaf, List.mem_singleton] at hc
    rw [hc, hcells]
    simp only [BPTree.modify, BPTree.push, hcells]
    rfl

/-- A failed first allocation of a call on a full leaf. -/
lemma bptreeSplitLeaf_early {t : BPTree} {leaf : Addr} (key row : Int)
    (hleaf : (t.node leaf).isLeaf = true) (hhead : t.heap.outcomes.head? = some false) :
    bptreeSplitLeaf t leaf key row = (t.script t.heap.outcomes.tail, .failure) := by
  rw [bptreeSplitLeaf, if_neg (by rw [hleaf]; simp)]
  simp only [bptreeCreateNode_script _ hhead]

/-- One call: what it does when it fails early, and what it loses otherwise. -/
lemma Sound.insert {t : BPTree} (h : Sound t) (key row : Int) :
    (FailsEarly t key → Sound (bptreeInsert t key row).1 ∧
      ((bptreeInsert t key row).2 = .failure →
        ∀ k, bptreeSearch (bptreeInsert t key row).1 k = bptreeSearch t k)) ∧
    (¬ FailsEarly t key → (bptreeInsert t key row).2 = .failure ∧
      ∃ k, bptreeSearch (bptreeInsert t key row).1 k ≠ bptreeSearch t k) := by
  have hunchanged : ∀ outcomes, bptreeInsert t key row = (t.script outcomes, .failure) →
      Sound (bptreeInsert t key row).1 ∧ ((bptreeInsert t key row).2 = .failure →
        ∀ k, bptreeSearch (bptreeInsert t key row).1 k = bptreeSearch t k) := by
    intro outcomes heq
    rw [heq]
    exact ⟨h.script outcomes, fun _ k => bptreeSearch_script t outcomes k⟩
  rcases h with ⟨hroot, hcells⟩ | ⟨s, d, hrep, hs, hlinked⟩
  · rcases bptreeInsert_empty hroot hcells key row with ⟨hhead, heq⟩ | ⟨hsuccess, hrep⟩
    · exact ⟨fun _ => hunchanged _ heq, fun hnot => absurd (Or.inl hhead) hnot⟩
    · refine ⟨fun _ => ⟨Or.inr ⟨_, 0, hrep, ?_, some 0, by simp [Segment]⟩, ?_⟩, fun hnot => ?_⟩
      · exact ⟨by simp, by simp, by simp, by simp [bptreeMaxKeys], by simp⟩
      · rw [hsuccess]
        exact fun hfail => by cases hfail
      · by_cases hhead : t.heap.outcomes.head? = some false
        · exact absurd (Or.inl hhead) hnot
        · refine absurd (Or.inr ?_) hnot
          rw [bptreeInsertNodes, hroot]
          exact (t.heap.allocates_succ_iff 0).mpr ⟨hhead, by simp⟩
  · by_cases hkey : key ∈ s.entries.map Prod.fst
    · have heq := bptreeInsert_present hrep hs row hkey
      refine ⟨fun _ => hunchanged t.heap.outcomes heq, fun hnot => absurd (Or.inr ?_) hnot⟩
      obtain ⟨⟨k, v⟩, he, rfl⟩ := List.mem_map.mp hkey
      rw [bptreeInsertNodes, hrep.root]
      simp only [(hrep.search_eq_some_iff hs k v).mpr he]
      exact t.heap.allocates_zero
    · obtain ⟨hsearch, fs, a, es, nx, lo, hi, hat, hfind, hk, heq⟩ :=
        bptreeInsert_fresh hrep hs row hkey
      have hnodes := hat.bptreeInsertNodes_eq hrep hsearch hfind
      split_ifs at heq hnodes with hroom
      · obtain ⟨t', s', hinsert, hrep', -, ⟨d', hs'⟩, hinserted⟩ :=
          @bptreeInsertIntoLeaf_spec key row _ _ _ _ _ _ _ _ hat hrep hk hroom
        rw [heq, hinsert]
        refine ⟨fun _ => ⟨Or.inr ⟨s', d', hrep', hs', hinserted.linked hlinked⟩, ?_⟩,
          fun hnot => absurd (Or.inr ?_) hnot⟩
        · exact fun hfail => by cases hfail
        · rw [hnodes]
          exact t.heap.allocates_zero
      · have hfull := le_antisymm hat.wf.2.2.2.1 (not_lt.mp hroom)
        by_cases hhead : t.heap.outcomes.head? = some false
        · have hearly := bptreeSplitLeaf_early key row (by rw [hat.node_eq hrep]) hhead
          exact ⟨fun _ => hunchanged _ (heq.trans hearly), fun hnot => absurd (Or.inl hhead) hnot⟩
        · by_cases hout : t.heap.Allocates (nodesNeeded fs + 1)
          · obtain ⟨t', s', hinsert, hrep', -, ⟨d', hs'⟩, hinserted⟩ :=
              @bptreeSplitLeaf_spec key row _ _ _ _ _ _ _ _ hat hrep hk hfull hout
            rw [heq, hinsert]
            refine ⟨fun _ => ⟨Or.inr ⟨s', d', hrep', hs', hinserted.linked hlinked⟩, ?_⟩,
              fun hnot => absurd (Or.inr (hnodes ▸ hout)) hnot⟩
            exact fun hfail => by cases hfail
          · obtain ⟨t', s', d', lost, hinsert, hrep', hs', hlost, hperm⟩ :=
              @bptreeSplitLeaf_fails key row _ _ _ _ _ _ _ _ hat hrep hk hfull hhead hout
            rw [heq, hinsert]
            refine ⟨fun hearly => ?_,
              fun _ => ⟨rfl, exists_lost hrep hs hrep' hs' hkey hlost hperm⟩⟩
            rw [FailsEarly, hnodes] at hearly
            exact absurd hearly (not_or.mpr ⟨hhead, hout⟩)

lemma EarlyRun.sound {t : BPTree} (h : EarlyRun t) : Sound t := by
  induction h with
  | null => exact Or.inl ⟨rfl, rfl⟩
  | insert h outcomes key rowIndex hearly ih =>
    exact (((ih.script outcomes).insert key rowIndex).1 hearly).1

/-- After a run in which no call has run out of memory after its first allocation, a further call
loses nothing exactly when it does not either. -/
theorem losesNothing_iff {t : BPTree} (h : EarlyRun t) (outcomes : List Bool)
    (key rowIndex : Int) :
    LosesNothing (t.script outcomes) key rowIndex ↔ FailsEarly (t.script outcomes) key := by
  obtain ⟨hearly, hlate⟩ := (h.sound.script outcomes).insert key rowIndex
  constructor
  · intro hnothing
    by_contra hnot
    obtain ⟨hfail, k, hk⟩ := hlate hnot
    exact hk ((hnothing hfail).1 k)
  · intro hcondition hfail
    obtain ⟨hsound, hsame⟩ := hearly hcondition
    exact ⟨hsame hfail, hsound.wellFormed⟩

/-- The trees that are built without failures are among those. -/
lemma earlyRun_bptreeRun (pairs : List (Int × Int)) : EarlyRun (bptreeRun pairs) := by
  induction pairs using List.reverseRecOn with
  | nil => exact .null
  | append_singleton pairs p ih =>
    have houtcomes : (bptreeRun pairs).heap.outcomes = [] := by
      rcases bptreeRun_inv pairs with ⟨hnull, -⟩ | ⟨s, d, hm, -⟩
      · rw [hnull]; rfl
      · exact hm.outcomes
    have hscript : (bptreeRun pairs).script [] = bptreeRun pairs := by
      rw [BPTree.script, ← houtcomes]
    rw [bptreeRun_append, ← hscript]
    exact .insert ih [] p.1 p.2 (Or.inr (Heap.allocates_of_outcomes_nil rfl _))

/-- The root leaf is full and no node is allocated at all. -/
theorem losesNothing_iff_full :
    ∃ t, EarlyRun t ∧ (bptreeInsert (t.script [false]) 31 31).2 = .failure ∧
      LosesNothing (t.script [false]) 31 31 := by
  have hrun := earlyRun_bptreeRun ((List.range 31).map fun i => ((i : Int), (i : Int)))
  exact ⟨_, hrun, by decide +kernel, (losesNothing_iff hrun [false] 31 31).mpr (.inl rfl)⟩

/-- The root leaf is full, the new leaf is allocated and the new root is not: half of the keys are
gone. -/
theorem losesNothing_full_leaf :
    ¬ ∀ t, EarlyRun t → ∀ outcomes key rowIndex,
      LosesNothing (t.script outcomes) key rowIndex := by
  intro h
  have hrun := earlyRun_bptreeRun ((List.range 31).map fun i => ((i : Int), (i : Int)))
  have hfull := h _ hrun [true, false] 31 31 (by decide +kernel)
  exact absurd (hfull.1 16) (by decide +kernel)

end MiniDbms
