import MiniDbms.Library.Sorting
import MiniDbms.Storage.Basic

/-!
# The column index of `index.c`

An index is built over the rows of a loaded table: a hash table from the cells of one column to the
offsets of their rows, and the same pairs sorted for range queries. Allocation never fails here, and
`qsort` is a parameter.
-/

namespace MiniDbms

/-- An `OffsetList`: its `count` is the number of items. -/
@[ext]
structure OffsetList where
  items : List Nat
  capacity : Nat
  count_le : items.length ≤ capacity
  deriving DecidableEq, Repr

/-- A list in zeroed memory. -/
def OffsetList.zero : OffsetList := ⟨[], 0, le_refl _⟩

structure HashNode where
  key : CString
  offsets : OffsetList
  deriving DecidableEq, Repr

/-- The nodes of a bucket in the order of their links. -/
abbrev HashChain := List HashNode

structure EqualityIndex where
  bucketCount : Nat
  buckets : Vector HashChain bucketCount
  bucketCount_pos : 0 < bucketCount

structure RangeEntry where
  key : Value
  offset : Nat
  deriving DecidableEq, Repr, Inhabited

structure TableIndex where
  columnIndex : Nat
  equality : EqualityIndex
  range : List RangeEntry

/-- `HASH_BUCKET_COUNT` -/
def hashBucketCount : Nat := 101

/-! ### Building -/

/-- `index_hash_string`, an `unsigned long` having 64 bits. -/
def indexHashString (text : CString) : UInt64 :=
  text.foldl (fun hash b => ((hash <<< 5) + hash) + b.toUInt64) 5381

/-- `index_offset_list_append` -/
def indexOffsetListAppend (list : OffsetList) (offset : Nat) : OffsetList where
  items := list.items ++ [offset]
  capacity :=
    if list.items.isEmpty then 4
    else if list.items.length ≥ list.capacity then list.capacity * 2
    else list.capacity
  count_le := by
    have hle := list.count_le
    rw [List.length_append, List.length_singleton]
    by_cases hempty : list.items = []
    · simp [hempty]
    · have hpos : 0 < list.items.length := List.length_pos_iff.mpr hempty
      rw [if_neg (by simpa using hempty)]
      split_ifs <;> omega

/-- The walk of `index_add_hash_entry` along a bucket, `none` when no node has the key. -/
def hashChainAppend (key : CString) (offset : Nat) : HashChain → Option HashChain
  | []            => none
  | node :: chain =>
    if strcmp node.key key = 0 then
      some (⟨node.key, indexOffsetListAppend node.offsets offset⟩ :: chain)
    else (hashChainAppend key offset chain).map (node :: ·)

/-- The bucket of a key. -/
def EqualityIndex.bucketIndex (equality : EqualityIndex) (key : CString) : Nat :=
  (indexHashString key).toNat % equality.bucketCount

lemma EqualityIndex.bucketIndex_lt (equality : EqualityIndex) (key : CString) :
    equality.bucketIndex key < equality.bucketCount := Nat.mod_lt _ equality.bucketCount_pos

/-- The chain of a key. -/
def EqualityIndex.chain (equality : EqualityIndex) (key : CString) : HashChain :=
  equality.buckets.get ⟨equality.bucketIndex key, equality.bucketIndex_lt key⟩

/-- `index_add_hash_entry` -/
def indexAddHashEntry (equality : EqualityIndex) (key : CString) (offset : Nat) : EqualityIndex :=
  let chain := (hashChainAppend key offset (equality.chain key)).getD
    (⟨key, indexOffsetListAppend .zero offset⟩ :: equality.chain key)
  { equality with
    buckets := equality.buckets.set (equality.bucketIndex key) chain
      (equality.bucketIndex_lt key) }

/-- `index_compare_range_entries` -/
def indexCompareRangeEntries (left right : RangeEntry) : Int :=
  let comparison := utilsCompareValues left.key.val right.key.val
  if comparison ≠ 0 then comparison
  else if left.offset < right.offset then -1
  else if left.offset > right.offset then 1
  else 0

/-- The loop of `index_build` over the rows and their offsets. -/
def indexBuildRows (columnIndex : Nat) (equality : EqualityIndex) :
    List (List CString × Nat) → Option (EqualityIndex × List RangeEntry)
  | []                    => some (equality, [])
  | (row, offset) :: rows =>
    let cell := row.getD columnIndex []
    match utilsSafeStrcpy 255 cell with
    | (_, .failure)   => none
    | (key, .success) =>
      (indexBuildRows columnIndex (indexAddHashEntry equality cell offset) rows).map
        fun (equality, entries) => (equality, ⟨key, offset⟩ :: entries)

/-- The equality index in zeroed memory. -/
def EqualityIndex.zero : EqualityIndex := ⟨hashBucketCount, .replicate _ [], by decide⟩

/-- `index_build` -/
def indexBuild (qsort : (RangeEntry → RangeEntry → Int) → List RangeEntry → List RangeEntry)
    (table : TableData) (columnIndex : Nat) : Option TableIndex :=
  if columnIndex ≥ table.columns.length then none
  else
    (indexBuildRows columnIndex .zero (table.rows.zip table.offsets)).map
      fun (equality, entries) => ⟨columnIndex, equality, qsort indexCompareRangeEntries entries⟩

/-! ### Queries -/

/-- `index_query_equals` -/
def indexQueryEquals (index : TableIndex) (value : CString) : List Nat :=
  match (index.equality.chain value).find? fun node => strcmp node.key value = 0 with
  | some node => node.offsets.items
  | none      => []

/-- `index_compare_entry_to_value` -/
def indexCompareEntryToValue (entry : RangeEntry) (value : CString) : Int :=
  utilsCompareValues entry.key.val value

/-- `index_lower_bound` -/
def indexLowerBound (entries : List RangeEntry) (value : CString) : Nat :=
  bisect (fun middle => indexCompareEntryToValue (entries.getD middle default) value < 0)
    entries.length 0 entries.length

/-- `index_upper_bound` -/
def indexUpperBound (entries : List RangeEntry) (value : CString) : Nat :=
  bisect (fun middle => indexCompareEntryToValue (entries.getD middle default) value ≤ 0)
    entries.length 0 entries.length

/-- `index_query_range`, `none` being `FAILURE`. -/
def indexQueryRange (index : TableIndex) (op value : CString) : Option (List Nat) :=
  let entries := index.range
  if strcmp op (bytes "!=") = 0 then
    some ((entries.filter fun e => utilsCompareValues e.key.val value ≠ 0).map RangeEntry.offset)
  else if strcmp op (bytes ">") = 0 then
    some ((entries.drop (indexUpperBound entries value)).map RangeEntry.offset)
  else if strcmp op (bytes ">=") = 0 then
    some ((entries.drop (indexLowerBound entries value)).map RangeEntry.offset)
  else if strcmp op (bytes "<") = 0 then
    some ((entries.take (indexLowerBound entries value)).map RangeEntry.offset)
  else if strcmp op (bytes "<=") = 0 then
    some ((entries.take (indexUpperBound entries value)).map RangeEntry.offset)
  else none

/-! ### The cells of a column -/

/-- The entries of a column, in the order of the rows. -/
def TableData.entries (table : TableData) (columnIndex : Nat) : List RangeEntry :=
  (table.rows.zip table.offsets).map fun (row, offset) =>
    ⟨.truncate 255 (row.getD columnIndex []), offset⟩

/-- The table has the column, which consists of strings that fit into an entry. -/
structure TableData.ColumnFits (table : TableData) (columnIndex : Nat) : Prop where
  offsets : table.offsets.length = table.rows.length
  column : columnIndex < table.columns.length
  cells : ∀ row ∈ table.rows,
    (row.getD columnIndex []).length ≤ 255 ∧ 0 ∉ row.getD columnIndex []

lemma indexBuildRows_some {columnIndex : Nat} {equality : EqualityIndex}
    {rows : List (List CString × Nat)}
    (h : ∀ r ∈ rows, (r.1.getD columnIndex []).length ≤ 255 ∧ 0 ∉ r.1.getD columnIndex []) :
    indexBuildRows columnIndex equality rows =
      some (rows.foldl (fun e r => indexAddHashEntry e (r.1.getD columnIndex []) r.2) equality,
        rows.map fun r => ⟨.truncate 255 (r.1.getD columnIndex []), r.2⟩) := by
  induction rows generalizing equality with
  | nil => rfl
  | cons r rows ih =>
    obtain ⟨⟨hlen, hnul⟩, hrows⟩ := List.forall_mem_cons.mp h
    have hcopy : utilsSafeStrcpy 255 (r.1.getD columnIndex []) =
        (.truncate 255 (r.1.getD columnIndex []), .success) := by
      rw [utilsSafeStrcpy, cView_eq_self hnul, if_pos hlen]
    rw [indexBuildRows]
    dsimp only
    rw [hcopy]
    dsimp only
    rw [ih hrows]
    rfl

/-- What is built over a column whose cells fit. -/
lemma indexBuild_some {qsort : (RangeEntry → RangeEntry → Int) → List RangeEntry → List RangeEntry}
    {table : TableData} {columnIndex : Nat} (h : table.ColumnFits columnIndex) :
    indexBuild qsort table columnIndex = some ⟨columnIndex,
      (table.rows.zip table.offsets).foldl
        (fun e r => indexAddHashEntry e (r.1.getD columnIndex []) r.2) .zero,
      qsort indexCompareRangeEntries (table.entries columnIndex)⟩ := by
  have hrows : ∀ r ∈ table.rows.zip table.offsets,
      (r.1.getD columnIndex []).length ≤ 255 ∧ 0 ∉ r.1.getD columnIndex [] := by
    intro r hr
    exact h.cells r.1 (List.of_mem_zip hr).1
  rw [indexBuild, if_neg (not_le.mpr h.column), indexBuildRows_some hrows]
  rfl

end MiniDbms
