import MiniDbms.BPTree.Refinement

/-!
# Descending to a leaf

`bptree_find_leaf` opens a tree into the leaf responsible for a key and the path above it. No
entry hanging off that path has the key, so the leaf alone decides a search.
-/

namespace MiniDbms

/-- The frame that the descent for `key` leaves behind at an internal node. -/
def descentFrame (a : Addr) (ks : List Int) (cs : List Shape) (key : Int) : Frame where
  a := a
  lkeys := ks.take (ks.findIdx (key < ·))
  rkeys := ks.drop (ks.findIdx (key < ·))
  lefts := cs.take (ks.findIdx (key < ·))
  rights := cs.drop (ks.findIdx (key < ·) + 1)

/-- A leaf of the tree with the path above it, as seen by a search for `key`. -/
structure LeafAt (key : Int) (s : Shape) (fs : List Frame) (a : Addr) (es : List (Int × Int))
    (nx : Option Addr) (lo hi : Option Int) : Prop where
  plug_eq : plug fs (.leaf a es nx) = s
  path : PathWF 0 lo hi fs
  wf : (Shape.leaf a es nx).WF 0 fs.isEmpty lo hi
  inRange : InRange lo hi key
  side : ∀ e ∈ sideEntries fs, e.1 ≠ key

lemma Shape.WF.descend {d : Nat} {lo hi : Option Int} {a : Addr} {ks : List Int}
    {cs : List Shape} {fs : List Frame} {key : Int}
    (hs : (Shape.node a ks cs).WF (d + 1) fs.isEmpty lo hi) (hfs : PathWF (d + 1) lo hi fs)
    (hk : InRange lo hi key) :
    ∃ c lo' hi', cs[ks.findIdx (key < ·)]? = some c ∧
      (descentFrame a ks cs key).plug c = .node a ks cs ∧
      c.WF d false lo' hi' ∧ InRange lo' hi' key ∧
      PathWF d lo' hi' (descentFrame a ks cs key :: fs) ∧
      ∀ e ∈ ((descentFrame a ks cs key).lefts ++ (descentFrame a ks cs key).rights).flatMap
        Shape.entries, e.1 ≠ key := by
  obtain ⟨hchain, hne, hmax, hmin⟩ := hs
  obtain ⟨c, lo', hi', hcs, hget, hc, hin, hfill⟩ := chain_route hchain hk
  obtain ⟨hl, hr⟩ := chain_route_siblings (fun _ _ _ h => Shape.WF.bounded h) (k := key) hchain
  have hlen := hchain.length_eq
  have hidx : ks.findIdx (key < ·) ≤ ks.length := List.findIdx_le_length
  have hcount : (descentFrame a ks cs key).keyCount = ks.length := by
    simp only [Frame.keyCount, descentFrame, List.length_take, List.length_drop]; omega
  refine ⟨c, lo', hi', hget, ?_, hc, hin, ⟨lo, hi, hfs, ?_, ?_, ?_, ?_, ?_, hfill⟩, ?_⟩
  · rw [Frame.plug, descentFrame, List.take_append_drop, ← hcs]
  · simp only [descentFrame, List.length_take]; omega
  · simp only [descentFrame, List.length_drop]; omega
  · rw [hcount]; exact List.length_pos_of_ne_nil hne
  · rw [hcount]; exact hmax
  · intro h; rw [hcount]; exact hmin (by simpa using h)
  · intro e he
    simp only [descentFrame, List.flatMap_append, List.mem_append, List.mem_flatMap] at he
    rcases he with ⟨c', hc', he⟩ | ⟨c', hc', he⟩
    · obtain ⟨a', u, hwf, hu⟩ := hl c' hc'
      have := (hwf.entries_sorted.2 e.1 (List.mem_map_of_mem he)).2 u rfl
      omega
    · obtain ⟨l, b', hwf, hlt⟩ := hr c' hc'
      have := (hwf.entries_sorted.2 e.1 (List.mem_map_of_mem he)).1 l rfl
      omega

/-- `bptree_find_leaf` reaches the leaf responsible for the key, one level a step. -/
lemma bptreeFindLeaf_spec {t : BPTree} {key : Int} {d : Nat} {lo hi : Option Int} {s : Shape}
    (fs : List Frame) (hs : s.WF d fs.isEmpty lo hi) (hfs : PathWF d lo hi fs)
    (hk : InRange lo hi key) (hside : ∀ e ∈ sideEntries fs, e.1 ≠ key)
    (ho : t.heap.Owns ((plug fs s).cells none)) :
    ∃ fs' a es nx lo' hi', LeafAt key (plug fs s) fs' a es nx lo' hi' ∧
      fs'.length = fs.length + d ∧
      ∀ fuel, d < fuel → bptreeFindLeaf t key fuel (some s.addr) = some a := by
  induction d generalizing s fs lo hi with
  | zero =>
    cases s with
    | node a ks cs => cases hs
    | leaf a es nx =>
      refine ⟨fs, a, es, nx, lo, hi, ⟨rfl, hfs, hs, hk, hside⟩, rfl, fun fuel hfuel => ?_⟩
      obtain ⟨n, rfl⟩ : ∃ n, fuel = n + 1 := ⟨fuel - 1, by omega⟩
      have hnode := BPTree.node_of_owns (ho.of_perm (cells_plug fs _))
        (List.mem_append_left _ (Shape.addr_mem_cells _ _))
      rw [bptreeFindLeaf, hnode]
      simp [Shape.rootCell, Shape.addr]
  | succ d ih =>
    cases s with
    | leaf a es nx => cases hs
    | node a ks cs =>
      obtain ⟨c, lo', hi', hget, hplug, hc, hin, hpath, hsib⟩ := hs.descend hfs hk
      have hplug' : plug (descentFrame a ks cs key :: fs) c = plug fs (.node a ks cs) := by
        rw [plug, hplug]
      obtain ⟨fs', a', es, nx, lo'', hi'', hat, hlen, hfind⟩ :=
        ih (descentFrame a ks cs key :: fs) hc hpath hin
          (by
            intro e he
            rcases List.mem_append.mp he with he | he
            · exact hsib e he
            · exact hside e he)
          (by rw [hplug']; exact ho)
      refine ⟨fs', a', es, nx, lo'', hi'', hplug' ▸ hat, ?_, fun fuel hfuel => ?_⟩
      · rw [hlen, List.length_cons]; omega
      obtain ⟨n, rfl⟩ : ∃ n, fuel = n + 1 := ⟨fuel - 1, by omega⟩
      have hnode := BPTree.node_of_owns (ho.of_perm (cells_plug fs _))
        (List.mem_append_left _ (Shape.addr_mem_cells _ _))
      rw [bptreeFindLeaf, hnode]
      simp only [Shape.rootCell, List.getElem?_map, hget, Option.map_some, Bool.false_eq_true,
        if_false]
      exact hfind n (by omega)

lemma length_frameCells (fs : List Frame) (a : Addr) : fs.length ≤ (frameCells fs a).length := by
  induction fs generalizing a with
  | nil => simp
  | cons f fs ih =>
    have := ih f.a
    simp only [frameCells, List.length_cons, List.length_append]
    omega

/-- The nodes on a path are distinct cells, so the heap is larger than the tree is high. -/
lemma Represents.length_lt {t : BPTree} {fs : List Frame} {s : Shape}
    (h : Represents t (plug fs s)) : fs.length < t.heap.cells.length := by
  have h1 := (h.owns.of_perm (cells_plug fs s)).length_le
  have h2 := length_frameCells fs s.addr
  simp only [Shape.cells_eq (parentOf fs) s, List.length_append, List.length_cons] at h1
  omega

/-- The descent from the root, with the fuel the source's loop has. -/
lemma Represents.findLeaf {t : BPTree} {s : Shape} {d : Nat} (h : Represents t s)
    (hs : s.WF d true none none) (key : Int) :
    ∃ fs a es nx lo hi, LeafAt key s fs a es nx lo hi ∧
      bptreeFindLeaf t key t.heap.cells.length t.root = some a := by
  obtain ⟨fs, a, es, nx, lo, hi, hat, hlen, hfind⟩ := bptreeFindLeaf_spec [] hs ⟨rfl, rfl⟩
    (inRange_none_none key) (by simp [sideEntries]) h.owns
  refine ⟨fs, a, es, nx, lo, hi, hat, ?_⟩
  have hm : Represents t (plug fs (.leaf a es nx)) := by rw [hat.plug_eq]; exact h
  rw [h.root]
  exact hfind _ (by simpa [hlen] using hm.length_lt)

/-- The two parallel arrays of a leaf are searched as one list of entries. -/
lemma leaf_search_eq_lookup (es : List (Int × Int)) (key : Int) :
    (match (es.map Prod.fst).findIdx? (· == key) with
      | none => none
      | some i => (es.map Prod.snd)[i]?) = es.lookup key := by
  induction es with
  | nil => rfl
  | cons e es ih =>
    obtain ⟨k, v⟩ := e
    simp only [List.map_cons, List.findIdx?_cons, List.lookup_cons]
    by_cases hk : k = key
    · simp [hk]
    · have hk' : (key == k) = false := by simpa using fun h : key = k => hk h.symm
      rw [← ih, hk']
      cases hf : (es.map Prod.fst).findIdx? (· == key) <;> simp [hk]

lemma LeafAt.leaf_mem {key : Int} {s : Shape} {fs : List Frame} {a : Addr}
    {es : List (Int × Int)} {nx : Option Addr} {lo hi : Option Int}
    (h : LeafAt key s fs a es nx lo hi) (v : Int) :
    (key, v) ∈ s.entries ↔ (key, v) ∈ es := by
  rw [← h.plug_eq, (entries_plug fs _).mem_iff, List.mem_append, Shape.entries_leaf]
  exact or_iff_left fun hmem => h.side _ hmem rfl

/-- With distinct keys, looking a key up finds the one entry that has it. -/
lemma lookup_eq_some_iff_mem {es : List (Int × Int)} {key v : Int}
    (hs : (es.map Prod.fst).Nodup) : es.lookup key = some v ↔ (key, v) ∈ es := by
  induction es with
  | nil => simp
  | cons e es ih =>
    obtain ⟨k, w⟩ := e
    simp only [List.map_cons, List.nodup_cons] at hs
    rw [List.lookup_cons]
    by_cases hk : key = k
    · subst hk
      have hnot : (key, v) ∉ es := fun hmem =>
        hs.1 (List.mem_map.mpr ⟨_, hmem, rfl⟩)
      simp [hnot, eq_comm]
    · have hk' : (key == k) = false := by simpa using hk
      simp [hk', hk, ih hs.2]

/-- `bptree_search` finds exactly the entries of the tree. -/
lemma Represents.search_eq_some_iff {t : BPTree} {s : Shape} {d : Nat} (h : Represents t s)
    (hs : s.WF d true none none) (key v : Int) :
    bptreeSearch t key = some v ↔ (key, v) ∈ s.entries := by
  obtain ⟨fs, a, es, nx, lo, hi, hat, hfind⟩ := h.findLeaf hs key
  have hm : Represents t (plug fs (.leaf a es nx)) := by rw [hat.plug_eq]; exact h
  have hnode := BPTree.node_of_owns (hm.owns.of_perm (cells_plug fs _))
    (List.mem_append_left _ (Shape.addr_mem_cells _ _))
  simp only [Shape.addr] at hnode
  have hsearch : bptreeSearch t key = es.lookup key := by
    rw [bptreeSearch, hfind]
    simp only [hnode, Shape.rootCell]
    exact leaf_search_eq_lookup es key
  rw [hat.leaf_mem, ← lookup_eq_some_iff_mem (hat.wf.1.imp ne_of_lt), hsearch]

end MiniDbms
