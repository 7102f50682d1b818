import MiniDbms.Common.Comparison
import MiniDbms.Engine.Select
import MiniDbms.Index.Basic

/-!
# Equality queries

The hash table maps every key to the offsets that were added under it, in their order, whatever the
collisions. A query finds the cells with the same bytes; a scan compares integers by number.
-/

namespace MiniDbms

/-! ### The hash table -/

/-- The offsets in a chain under a key. -/
def HashChain.lookup (chain : HashChain) (key : CString) : List Nat :=
  match chain.find? fun node => strcmp node.key key = 0 with
  | some node => node.offsets.items
  | none      => []

/-- The offsets in a hash table under a key. -/
def EqualityIndex.lookup (equality : EqualityIndex) (key : CString) : List Nat :=
  HashChain.lookup (equality.chain key) key

namespace HashChain

@[simp]
lemma lookup_nil (key : CString) : HashChain.lookup [] key = [] := rfl

lemma lookup_cons (node : HashNode) (chain : HashChain) (key : CString) :
    HashChain.lookup (node :: chain) key =
      if node.key = key then node.offsets.items else HashChain.lookup chain key := by
  by_cases h : node.key = key <;> simp [HashChain.lookup, h]

/-- A chain without the key is left to get a new node. -/
lemma append_none {key : CString} {offset : Nat} {chain : HashChain}
    (h : hashChainAppend key offset chain = none) : HashChain.lookup chain key = [] := by
  induction chain with
  | nil => rfl
  | cons node chain ih =>
    rw [hashChainAppend] at h
    by_cases hkey : node.key = key
    · simp [hkey] at h
    · rw [if_neg (by simpa using hkey), Option.map_eq_none_iff] at h
      rw [lookup_cons, if_neg hkey, ih h]

lemma append_some {key : CString} {offset : Nat} {chain chain' : HashChain}
    (h : hashChainAppend key offset chain = some chain') (key' : CString) :
    HashChain.lookup chain' key' =
      if key' = key then HashChain.lookup chain key ++ [offset]
      else HashChain.lookup chain key' := by
  induction chain generalizing chain' with
  | nil => cases h
  | cons node chain ih =>
    rw [hashChainAppend] at h
    by_cases hkey : node.key = key
    · rw [if_pos (by simpa using hkey)] at h
      obtain rfl := Option.some.inj h
      simp only [lookup_cons, hkey, indexOffsetListAppend, if_true]
      by_cases hkey' : key' = key
      · rw [hkey', if_pos rfl, if_pos rfl]
      · rw [if_neg (Ne.symm hkey'), if_neg hkey', if_neg (Ne.symm hkey')]
    · rw [if_neg (by simpa using hkey)] at h
      obtain ⟨rest, hrest, rfl⟩ := Option.map_eq_some_iff.mp h
      rw [lookup_cons, lookup_cons, lookup_cons, ih hrest, if_neg hkey]
      by_cases hkey' : key' = key
      · rw [hkey', if_neg hkey, if_pos rfl, if_pos rfl]
      · rw [if_neg hkey', if_neg hkey']

end HashChain

/-- An entry is added behind those under its key, and nothing else changes. -/
lemma EqualityIndex.lookup_add (equality : EqualityIndex) (key : CString) (offset : Nat)
    (key' : CString) :
    (indexAddHashEntry equality key offset).lookup key' =
      if key' = key then equality.lookup key ++ [offset] else equality.lookup key' := by
  -- the new chain of the key, seen from any key
  have hchain : ∀ k, HashChain.lookup ((hashChainAppend key offset (equality.chain key)).getD
      (⟨key, indexOffsetListAppend .zero offset⟩ :: equality.chain key)) k =
        if k = key then equality.lookup key ++ [offset]
        else HashChain.lookup (equality.chain key) k := by
    intro k
    cases happend : hashChainAppend key offset (equality.chain key) with
    | some chain =>
      rw [Option.getD_some, HashChain.append_some happend]
      rfl
    | none =>
      rw [Option.getD_none, HashChain.lookup_cons, EqualityIndex.lookup,
        HashChain.append_none happend]
      by_cases hk : k = key
      · rw [if_pos hk.symm, if_pos hk]
        rfl
      · rw [if_neg (Ne.symm hk), if_neg hk]
  have hset : (indexAddHashEntry equality key offset).chain key' =
      if equality.bucketIndex key = equality.bucketIndex key' then
        (hashChainAppend key offset (equality.chain key)).getD
          (⟨key, indexOffsetListAppend .zero offset⟩ :: equality.chain key)
      else equality.chain key' :=
    Vector.getElem_set (equality.bucketIndex_lt key) (equality.bucketIndex_lt key')
  rw [EqualityIndex.lookup, hset]
  by_cases hbucket : equality.bucketIndex key = equality.bucketIndex key'
  · -- the keys collide
    have hsame : equality.chain key = equality.chain key' := by
      simp only [EqualityIndex.chain, hbucket]
    rw [if_pos hbucket, hchain, hsame]
    rfl
  · have hne : key' ≠ key := by
      rintro rfl
      exact hbucket rfl
    rw [if_neg hbucket, if_neg hne]
    rfl

/-- After a number of entries the table has the offsets of each key in their order. -/
lemma EqualityIndex.lookup_foldl (equality : EqualityIndex) (cell : List CString × Nat → CString)
    (rows : List (List CString × Nat)) (key : CString) :
    (rows.foldl (fun e r => indexAddHashEntry e (cell r) r.2) equality).lookup key =
      equality.lookup key ++ (rows.filter fun r => cell r = key).map Prod.snd := by
  induction rows generalizing equality with
  | nil => simp
  | cons r rows ih =>
    rw [List.foldl_cons, ih, EqualityIndex.lookup_add]
    by_cases h : key = cell r
    · simp [h]
    · rw [if_neg h, List.filter_cons_of_neg (by simpa using Ne.symm h)]

lemma EqualityIndex.lookup_zero (key : CString) : EqualityIndex.zero.lookup key = [] := by
  have hchain : EqualityIndex.zero.chain key = [] :=
    Vector.getElem_replicate (EqualityIndex.zero.bucketIndex_lt key)
  rw [EqualityIndex.lookup, hchain, HashChain.lookup_nil]

/-! ### Queries -/

/-- The offsets of the rows whose cell in a column satisfies a condition. -/
def TableData.offsetsWhere (table : TableData) (columnIndex : Nat) (p : CString → Bool) :
    List Nat :=
  ((table.rows.zip table.offsets).filter fun r => p (r.1.getD columnIndex [])).map Prod.snd

/-- A query for a key finds the rows that have just these bytes in the column. -/
theorem indexQueryEquals_eq
    {qsort : (RangeEntry → RangeEntry → Int) → List RangeEntry → List RangeEntry}
    {table : TableData} {columnIndex : Nat} (h : table.ColumnFits columnIndex) (value : CString) :
    ∃ index, indexBuild qsort table columnIndex = some index ∧
      indexQueryEquals index value = table.offsetsWhere columnIndex (· = value) := by
  refine ⟨_, indexBuild_some h, ?_⟩
  exact (EqualityIndex.lookup_foldl .zero (fun r => r.1.getD columnIndex []) _ value).trans
    (by rw [EqualityIndex.lookup_zero, List.nil_append]; rfl)

/-- Another spelling of an integer. -/
def IsRespelling (cell value : CString) : Prop :=
  utilsIsInteger cell = true ∧ utilsIsInteger value = true ∧
    utilsParseInteger cell = utilsParseInteger value ∧ cell ≠ value

instance (cell value : CString) : Decidable (IsRespelling cell value) := by
  unfold IsRespelling
  infer_instance

lemma utilsCompareValues_zero_iff {cell value : CString} :
    utilsCompareValues cell value = 0 ↔ cell = value ∨ IsRespelling cell value := by
  by_cases h : utilsIsInteger cell = true ∧ utilsIsInteger value = true
  · rw [utilsCompareValues_integers h.1 h.2, Int.sign_eq_zero_iff_zero, sub_eq_zero, IsRespelling]
    by_cases heq : cell = value
    · simp [heq]
    · simp [heq, h.1, h.2]
  · have htext : utilsIsInteger cell = false ∨ utilsIsInteger value = false := by
      simpa [Classical.or_iff_not_imp_left] using h
    rw [utilsCompareValues_texts htext, strcmp_eq_zero_iff, IsRespelling]
    rcases htext with htext | htext <;> simp [htext]

/-- A query finds what a scan finds unless a cell of the column is another spelling of the value. -/
theorem indexQueryEquals_scan_iff
    {qsort : (RangeEntry → RangeEntry → Int) → List RangeEntry → List RangeEntry}
    {table : TableData} {columnIndex : Nat} (h : table.ColumnFits columnIndex) (value : CString) :
    (∃ index, indexBuild qsort table columnIndex = some index ∧
        indexQueryEquals index value = table.offsetsWhere columnIndex fun cell =>
          CompareOp.eq.holds (utilsCompareValues cell value)) ↔
      ∀ row ∈ table.rows, ¬ IsRespelling (row.getD columnIndex []) value := by
  obtain ⟨index, hbuild, hquery⟩ := @indexQueryEquals_eq qsort _ _ h value
  have hindex : (∃ index', indexBuild qsort table columnIndex = some index' ∧
      indexQueryEquals index' value = table.offsetsWhere columnIndex fun cell =>
        CompareOp.eq.holds (utilsCompareValues cell value)) ↔
      table.offsetsWhere columnIndex (· = value) = table.offsetsWhere columnIndex fun cell =>
        CompareOp.eq.holds (utilsCompareValues cell value) := by
    simp [hbuild, hquery]
  have hholds : ∀ cell, CompareOp.eq.holds (utilsCompareValues cell value) = true ↔
      cell = value ∨ IsRespelling cell value := by
    intro cell
    rw [← utilsCompareValues_zero_iff]
    simp [CompareOp.holds]
  rw [hindex, TableData.offsetsWhere, TableData.offsetsWhere]
  constructor
  · intro heq row hrow hrespelling
    -- the scan finds the row beyond those that the query finds
    have hsub := List.monotone_filter_right (table.rows.zip table.offsets)
      (p := fun r => decide (r.1.getD columnIndex [] = value))
      (q := fun r => CompareOp.eq.holds (utilsCompareValues (r.1.getD columnIndex []) value))
      (fun r hr => (hholds _).mpr (.inl (by simpa using hr)))
    have hfilter := hsub.eq_of_length (by simpa using congrArg List.length heq)
    obtain ⟨i, hi, rfl⟩ := List.getElem_of_mem hrow
    have hoffset : i < table.offsets.length := h.offsets ▸ hi
    have hmem : (table.rows[i], table.offsets[i]) ∈
        (table.rows.zip table.offsets).filter fun r =>
          CompareOp.eq.holds (utilsCompareValues (r.1.getD columnIndex []) value) := by
      refine List.mem_filter.mpr ⟨?_, (hholds _).mpr (.inr hrespelling)⟩
      rw [← List.getElem_zip (h := by simp [h.offsets, hi])]
      exact List.getElem_mem _
    rw [← hfilter] at hmem
    exact hrespelling.2.2.2 (by simpa using (List.mem_filter.mp hmem).2)
  · intro hnone
    refine congrArg (List.map Prod.snd) (List.filter_congr fun r hr => ?_)
    have hrespelling := hnone r.1 (List.of_mem_zip hr).1
    rw [Bool.eq_iff_iff, hholds, or_iff_left hrespelling]
    simp

/-- Two integer spellings and a text. -/
def respelledTable : TableData where
  columns := [identifier "a"]
  rows := [[bytes "1"], [bytes "01"], [bytes "x"]]
  offsets := [2, 4, 7]

lemma respelledTable_columnFits : respelledTable.ColumnFits 0 := ⟨rfl, by decide, by decide⟩

/-- The text is found by both. -/
theorem indexQueryEquals_scan_text :
    ∃ index, indexBuild insertionSortBy respelledTable 0 = some index ∧
      indexQueryEquals index (bytes "x") = respelledTable.offsetsWhere 0 fun cell =>
        CompareOp.eq.holds (utilsCompareValues cell (bytes "x")) :=
  (indexQueryEquals_scan_iff respelledTable_columnFits (bytes "x")).mpr (by decide)

/-- Of the cells 1 and 01 a query for 1 finds the first only. -/
theorem indexQueryEquals_scan_respelled :
    ¬ ∀ (qsort : (RangeEntry → RangeEntry → Int) → List RangeEntry → List RangeEntry)
        (table : TableData) (columnIndex : Nat) (value : CString), IsQsort qsort →
      table.ColumnFits columnIndex →
        ∃ index, indexBuild qsort table columnIndex = some index ∧
          indexQueryEquals index value = table.offsetsWhere columnIndex fun cell =>
            CompareOp.eq.holds (utilsCompareValues cell value) := by
  intro h
  obtain ⟨index, hbuild, hquery⟩ :=
    h insertionSortBy respelledTable 0 (bytes "1") insertionSortBy_isQsort respelledTable_columnFits
  have hfound : (indexBuild insertionSortBy respelledTable 0).map (indexQueryEquals · (bytes "1")) =
      some [2] := by
    decide +kernel
  rw [hbuild, Option.map_some, hquery] at hfound
  exact absurd hfound (by decide)

end MiniDbms
