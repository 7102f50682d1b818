import MiniDbms.Storage.LineLength
import MiniDbms.Runtime.Acceptance
import MiniDbms.Runtime.FailedInsert

/-!
# Tables of keys

`storage_insert` tells ids apart as texts, while `table_load_from_storage_if_needed` takes them for
the numbers of the B+ tree. A file that insertions have written is a table of keys as long as every
insertion was one of a key: a decimal number that the tree can hold and that no stored id denotes.
-/

namespace MiniDbms

/-- An id that the B+ tree can hold. -/
structure IsKey (id : CString) : Prop where
  integer : utilsIsInteger id = true
  nonneg : 0 ≤ integerValue id
  le_max : integerValue id ≤ intMax

/-- No two columns are named as the id column. -/
def OneId (columns : List Identifier) : Prop :=
  columns.Pairwise fun c d => ¬ (utilsEqualsIgnoreCase c.val (bytes "id") = true ∧
    utilsEqualsIgnoreCase d.val (bytes "id") = true)

lemma OneId.unique {columns : List Identifier} {idIndex : Nat} (h : OneId columns)
    (hid : storageFindColumnIndex columns (bytes "id") = some idIndex) {c : Identifier} {i : Nat}
    (hmem : (c, i) ∈ columns.zipIdx) (hname : utilsEqualsIgnoreCase c.val (bytes "id") = true) :
    i = idIndex := by
  obtain ⟨hlt, hcolumn, -⟩ := List.findIdx?_eq_some_iff_getElem.mp hid
  obtain ⟨hi, hc⟩ := List.getElem?_eq_some_iff.mp (List.mem_zipIdx_iff_getElem?.mp hmem)
  rw [OneId, List.pairwise_iff_getElem] at h
  rcases Nat.lt_trichotomy i idIndex with hlt' | heq | hgt
  · exact absurd ⟨by rw [hc]; exact hname, hcolumn⟩ (h i idIndex hi hlt hlt')
  · exact heq
  · exact absurd ⟨hcolumn, by rw [hc]; exact hname⟩ (h idIndex i hlt hi hgt)

/-- An id column that is put before columns of other names is the only one. -/
lemma oneId_newColumns {stmt : InsertStatement}
    (h : storageFindColumnIndex stmt.columns (bytes "id") = none) : OneId (newColumns stmt) := by
  have hnone := List.findIdx?_eq_none_iff.mp h
  refine List.pairwise_cons.mpr ⟨?_, List.pairwise_of_forall_mem_list ?_⟩
  · rintro d hd ⟨-, hname⟩
    rw [hnone d hd] at hname
    cases hname
  · rintro c hc d - ⟨hname, -⟩
    rw [hnone c hc] at hname
    cases hname

/-- A written table whose ids are keys. -/
structure KeyTable (columns : List Identifier) (rows : List (List CString)) (idIndex : Nat) :
    Prop where
  names : ∀ c ∈ columns, NoLineBreak c.val
  columns_le : columns.length ≤ maxColumns
  id_column : storageFindColumnIndex columns (bytes "id") = some idIndex
  one_id : OneId columns
  cells : ∀ row ∈ rows, ∀ v ∈ row, NoLineBreak v ∧ 0 ∉ v
  row_length : ∀ row ∈ rows, row.length = columns.length
  fits : ∀ row ∈ rows, csvRowLength row ≤ csvLineRoom
  keys : ∀ row ∈ rows, IsKey (row.getD idIndex [])
  distinct : (rows.map fun row => integerValue (row.getD idIndex [])).Nodup
  count : rows.length ≤ 2 ^ 30

/-! ### The file of a table of keys -/

namespace KeyTable

variable {columns : List Identifier} {rows : List (List CString)} {idIndex : Nat}

lemma columns_ne_nil (h : KeyTable columns rows idIndex) : columns ≠ [] := by
  rintro rfl
  exact absurd h.id_column (by simp [storageFindColumnIndex])

lemma isRow (h : KeyTable columns rows idIndex) {row : List CString} (hrow : row ∈ rows) :
    IsRow row ∧ row ≠ [[]] := by
  have hlen := h.row_length row hrow
  refine ⟨⟨?_, fun v hv => (h.cells row hrow v hv).2⟩, ne_blank_of_getD (i := idIndex) ?_⟩
  · rintro rfl
    exact h.columns_ne_nil (List.length_eq_zero_iff.mp hlen.symm)
  · intro hnil
    have hint := (h.keys row hrow).integer
    rw [hnil] at hint
    cases hint

/-- The rows are read back line by line. -/
lemma row_line (h : KeyTable columns rows idIndex) {row : List CString} (hrow : row ∈ rows) :
    IsLine csvLineRoom (storageWriteCsvRow row) ∧
      storageParseRow columns.length (storageWriteCsvRow row) = some (some row) := by
  obtain ⟨hisRow, hblank⟩ := h.isRow hrow
  have hclean : ∀ v ∈ row, NoLineBreak v := fun v hv => (h.cells row hrow v hv).1
  constructor
  · exact isLine_of_csvRowLength hisRow.ne_nil hclean (h.fits row hrow)
  · rw [← h.row_length row hrow]
    exact storageParseRow_row hisRow hblank hclean

lemma readHeader (h : KeyTable columns rows idIndex) :
    storageReadHeader (tableText (columns.map CBuf.val) rows) =
      some (columns, (rows.map storageWriteCsvRow).flatten) :=
  storageReadHeader_row h.columns_ne_nil h.columns_le h.names _

lemma loadRows (h : KeyTable columns rows idIndex) (offset : Nat) :
    ∃ offsets, storageLoadRows columns.length offset
      (storageLines (rows.map storageWriteCsvRow).flatten) = some (rows, offsets) := by
  rw [storageLines_rows fun row hrow => (h.row_line hrow).1]
  exact storageLoadRows_rows (fun row hrow => (h.row_line hrow).2) offset

lemma storageLoadTable (h : KeyTable columns rows idIndex) {files : Files} {name : Identifier}
    (hfile : files (tablePath name) = some (tableText (columns.map CBuf.val) rows)) :
    ∃ offsets, MiniDbms.storageLoadTable files name.val = some ⟨columns, rows, offsets⟩ := by
  obtain ⟨offsets, hload⟩ := h.loadRows ((tableText (columns.map CBuf.val) rows).length -
    (rows.map storageWriteCsvRow).flatten.length)
  refine ⟨offsets, ?_⟩
  simp only [MiniDbms.storageLoadTable, storageBuildPath_val, hfile, Option.bind_eq_bind,
    Option.bind_some]
  exact storageLoadTableFromFp_eq_some.mpr ⟨_, h.readHeader, hload, h.count⟩

lemma parse_eq (h : KeyTable columns rows idIndex) {row : List CString} (hrow : row ∈ rows) :
    utilsParseInteger (row.getD idIndex []) = integerValue (row.getD idIndex []) := by
  have hkey := h.keys row hrow
  exact (utilsParseInteger_range hkey.integer).2 ⟨hkey.nonneg, hkey.le_max⟩

/-- The table that is loaded from the file. -/
lemma tableFromStorage (h : KeyTable columns rows idIndex) {files : Files} {name : Identifier}
    (hfile : files (tablePath name) = some (tableText (columns.map CBuf.val) rows)) :
    ∃ t, MiniDbms.tableFromStorage files name = some t ∧ t.columns = columns ∧ t.rows = rows ∧
      t.idColumnIndex = idIndex := by
  obtain ⟨offsets, hdata⟩ := h.storageLoadTable hfile
  have hids : (rows.map fun row => utilsParseInteger (row.getD idIndex [])) =
      rows.map fun row => integerValue (row.getD idIndex []) :=
    List.map_congr_left fun row hrow => h.parse_eq hrow
  refine tableFromStorage_of_load hdata h.columns_le h.id_column h.row_length
    (fun row hrow => (h.keys row hrow).integer) ?_ (hids ▸ h.distinct) h.count
  intro row hrow
  rw [h.parse_eq hrow]
  exact ⟨(h.keys row hrow).nonneg, (h.keys row hrow).le_max⟩

/-- Two ids never compare equal. -/
lemma pairwise_ids (h : KeyTable columns rows idIndex) :
    (rows.map fun row => row.getD idIndex []).Pairwise fun a b => utilsCompareValues a b ≠ 0 := by
  have hdistinct := h.distinct
  rw [List.Nodup, List.pairwise_map] at hdistinct
  rw [List.pairwise_map]
  refine hdistinct.imp_of_mem fun {row row'} hrow hrow' hne hzero => hne ?_
  rw [utilsCompareValues_eq_zero_iff (h.keys row hrow).integer (h.keys row' hrow').integer,
    h.parse_eq hrow, h.parse_eq hrow'] at hzero
  exact hzero

/-! ### Adding a row -/

lemma append (h : KeyTable columns rows idIndex) {row : List CString}
    (hcells : ∀ v ∈ row, NoLineBreak v ∧ 0 ∉ v) (hlen : row.length = columns.length)
    (hfits : csvRowLength row ≤ csvLineRoom) (hkey : IsKey (row.getD idIndex []))
    (hfresh : ∀ r ∈ rows, integerValue (r.getD idIndex []) ≠ integerValue (row.getD idIndex []))
    (hcount : rows.length < 2 ^ 30) : KeyTable columns (rows ++ [row]) idIndex where
  names := h.names
  columns_le := h.columns_le
  id_column := h.id_column
  one_id := h.one_id
  cells := List.forall_mem_append.mpr ⟨h.cells, by simpa using hcells⟩
  row_length := List.forall_mem_append.mpr ⟨h.row_length, by simpa using hlen⟩
  fits := List.forall_mem_append.mpr ⟨h.fits, by simpa using hfits⟩
  keys := List.forall_mem_append.mpr ⟨h.keys, by simpa using hkey⟩
  distinct := by
    rw [List.map_append, List.map_singleton]
    refine h.distinct.append (List.nodup_singleton _) ?_
    rw [List.disjoint_singleton]
    intro hmem
    obtain ⟨r, hr, heq⟩ := List.mem_map.mp hmem
    exact hfresh r hr heq
  count := by
    rw [List.length_append, List.length_singleton]
    exact hcount

end KeyTable

lemma nextIdAfter_le {ids : List Int} {m : Int} (hm : 1 ≤ m) (h : ∀ k ∈ ids, k < m) :
    nextIdAfter ids ≤ m := by
  induction ids using List.reverseRecOn with
  | nil => exact hm
  | append_singleton ids k ih =>
    have hk := h k (by simp)
    have hids := ih fun k' hk' => h k' (List.mem_append_left _ hk')
    rw [nextIdAfter_append]
    split_ifs <;> omega

lemma integerValue_printInt {n : Int} (h : 0 ≤ n) : integerValue (printInt n) = n := by
  rw [printInt, if_neg (by omega), integerValue_natDigits]
  omega

lemma isKey_printInt {n : Int} (h : 0 ≤ n) (hmax : n ≤ intMax) : IsKey (printInt n) := by
  refine ⟨utilsIsInteger_printInt h, ?_, ?_⟩
  · rw [integerValue_printInt h]
    exact h
  · rw [integerValue_printInt h]
    exact hmax

/-- The next id is the one that the loaded table would give. -/
lemma KeyTable.nextAutoId {columns : List Identifier} {rows : List (List CString)} {idIndex : Nat}
    (h : KeyTable columns rows idIndex) :
    storageGetNextAutoId (rows.map storageWriteCsvRow).flatten columns =
      some (printInt (nextIdAfter (rows.map fun row => integerValue (row.getD idIndex [])))) := by
  obtain ⟨offsets, hload⟩ := h.loadRows 0
  have hids : (rows.map fun row => integerValue (row.getD idIndex [])) =
      rows.map fun row => utilsParseInteger (row.getD idIndex []) :=
    List.map_congr_left fun row hrow => (h.parse_eq hrow).symm
  have hrange : ∀ row ∈ rows, 0 ≤ utilsParseInteger (row.getD idIndex []) ∧
      utilsParseInteger (row.getD idIndex []) ≤ intMax := by
    intro row hrow
    rw [h.parse_eq hrow]
    exact ⟨(h.keys row hrow).nonneg, (h.keys row hrow).le_max⟩
  rw [storageGetNextAutoId, h.id_column]
  dsimp only
  rw [storageNextId_of_load hload (fun row hrow => (h.keys row hrow).integer) hrange, hids]
  rfl

/-! ### The row an insertion adds -/

/-- An id that the statement gives is stored as it is. -/
lemma storageExistingValues_explicit {stream : CString} {existing : List Identifier}
    {stmt : InsertStatement} {i j : Nat}
    (hi : storageFindColumnIndex existing (bytes "id") = some i)
    (hj : storageFindColumnIndex stmt.columns (bytes "id") = some j) :
    (storageExistingValues stream existing stmt).getD i [] =
      (stmt.values.map CBuf.val).getD j [] := by
  obtain ⟨hlt, hid, -⟩ := List.findIdx?_eq_some_iff_getElem.mp hi
  have hauto : storageAutoIndex existing stmt = none := by simp [storageAutoIndex, hj]
  have hlen : i < (storageExistingValues stream existing stmt).length := by
    simpa [storageExistingValues] using hlt
  have hvalue : stmt.valueFor existing[i] = (stmt.values.map CBuf.val).getD j [] := by
    rw [InsertStatement.valueFor, storageFindColumnIndex_congr hid, hj]
  rw [List.getD_eq_getElem _ _ hlen, ← hvalue]
  simp [storageExistingValues, hauto]

/-- The ids of the rows that `storage_load_table` reads. -/
def storedIds (files : Files) (tableName : CString) : List CString :=
  match storageLoadTable files tableName with
  | none      => []
  | some data =>
    match storageFindColumnIndex data.columns (bytes "id") with
    | none         => []
    | some idIndex => data.rows.map fun row => row.getD idIndex []

lemma KeyTable.storedIds {columns : List Identifier} {rows : List (List CString)} {idIndex : Nat}
    (h : KeyTable columns rows idIndex) {files : Files} {name : Identifier}
    (hfile : files (tablePath name) = some (tableText (columns.map CBuf.val) rows)) :
    MiniDbms.storedIds files name.val = rows.map fun row => row.getD idIndex [] := by
  obtain ⟨offsets, hdata⟩ := h.storageLoadTable hfile
  rw [MiniDbms.storedIds, hdata]
  dsimp only
  rw [h.id_column]

/-! ### Insertions of keys -/

/-- The names and values of a statement have no line breaks. -/
structure CleanStatement (stmt : InsertStatement) : Prop where
  columns : ∀ c ∈ stmt.columns, NoLineBreak c.val
  values : ∀ v ∈ stmt.values, NoLineBreak v.val

/-- A statement for the file as it is: the columns of a new table have one id, an id that is given
is a key that no stored id denotes, an id that is not given does not run past the keys, and the
reader gets the row whole. -/
structure AdmitsKey (files : Files) (name : Identifier) (stmt : InsertStatement) : Prop where
  one_id : (files (tablePath name)).getD [] = [] → OneId stmt.columns
  explicit : ∀ j, storageFindColumnIndex stmt.columns (bytes "id") = some j →
    IsKey ((stmt.values.map CBuf.val).getD j []) ∧
      ∀ id ∈ storedIds files name.val,
        integerValue id ≠ integerValue ((stmt.values.map CBuf.val).getD j [])
  auto : ¬ stmt.NamesId → ∀ id ∈ storedIds files name.val, integerValue id ≠ intMax
  fits : csvRowLength (storageInsertValues ((files (tablePath name)).getD []) stmt) ≤ csvLineRoom
  count : (storedIds files name.val).length < 2 ^ 30

/-- The columns that `storage_insert` gives to a new table. -/
def startColumns (stmt : InsertStatement) : List Identifier :=
  if storageFindColumnIndex stmt.columns (bytes "id") = none then newColumns stmt else stmt.columns

lemma startColumns_val (stmt : InsertStatement) :
    (startColumns stmt).map CBuf.val = storageNewNames stmt := by
  rw [startColumns, storageNewNames]
  split_ifs
  · rfl
  · rfl

/-- The first insertion of a key makes a table of keys. -/
lemma keyTable_start {files : Files} {name : Identifier} {stmt : InsertStatement}
    (hempty : (files (tablePath name)).getD [] = []) (hclean : CleanStatement stmt)
    (hkey : AdmitsKey files name stmt) {text : CString}
    (htext : storageInsertText [] stmt = some text) :
    text = tableText ((startColumns stmt).map CBuf.val) [storageInsertValues [] stmt] ∧
      ∃ idIndex, KeyTable (startColumns stmt) [storageInsertValues [] stmt] idIndex := by
  obtain ⟨htable, -, -, -, -⟩ := storageInsertText_nil htext
  have hstart := (storageInsertText_nil_iff stmt).mp (by rw [htext]; simp)
  have hfits := hkey.fits
  rw [hempty] at hfits
  have hvalues : storageInsertValues [] stmt = storageNewValues stmt := rfl
  have hlength := stmt.values_length
  have hcells := @storageInsertValues_clean [] _ hclean.values
  rw [startColumns_val]
  refine ⟨htable, ?_⟩
  rw [hvalues] at hfits hcells ⊢
  rw [StartsTable] at hstart
  unfold startColumns storageNewValues at *
  cases hfind : storageFindColumnIndex stmt.columns (bytes "id") with
  | none =>
    rw [hfind] at hstart
    rw [if_pos hfind] at hfits hcells
    rw [if_pos rfl, if_pos rfl]
    refine ⟨0, ⟨?_, hstart, ?_, oneId_newColumns hfind, by simpa using hcells, ?_,
      by simpa using hfits, ?_, by simp, by simp⟩⟩
    · exact List.forall_mem_cons.mpr ⟨⟨by decide, by decide⟩, hclean.columns⟩
    · rw [newColumns, storageFindColumnIndex, List.findIdx?_cons, if_pos (by decide)]
    · simp [newColumns, hlength]
    · intro row hrow
      rw [List.mem_singleton.mp hrow]
      exact @isKey_printInt 1 (by decide) (by decide)
  | some j =>
    rw [if_neg (by rw [hfind]; simp)] at hfits hcells
    rw [if_neg (by simp), if_neg (by simp)]
    refine ⟨j, ⟨hclean.columns, stmt.columns_le, hfind, hkey.one_id hempty, by simpa using hcells,
      ?_, by simpa using hfits, ?_, by simp, by simp⟩⟩
    · simp [hlength]
    · simpa using (hkey.explicit j hfind).1

/-- The row that `storage_insert` writes into a table of keys. -/
lemma KeyTable.insertValues {columns : List Identifier} {rows : List (List CString)} {idIndex : Nat}
    (h : KeyTable columns rows idIndex) (stmt : InsertStatement) :
    storageInsertValues (tableText (columns.map CBuf.val) rows) stmt =
      storageExistingValues (rows.map storageWriteCsvRow).flatten columns stmt := by
  rw [storageInsertValues, h.readHeader]
  dsimp only
  rw [if_neg (by simpa using h.columns_ne_nil)]

/-- The text that `storage_insert` appends to a table of keys. -/
lemma KeyTable.insertText {columns : List Identifier} {rows : List (List CString)} {idIndex : Nat}
    (h : KeyTable columns rows idIndex) (stmt : InsertStatement) :
    storageInsertText (tableText (columns.map CBuf.val) rows) stmt =
      storageInsertExisting (rows.map storageWriteCsvRow).flatten columns stmt := by
  rw [storageInsertText, h.readHeader, Option.bind_eq_bind, Option.bind_some]
  dsimp only
  rw [if_neg (by simpa using h.columns_ne_nil)]

/-- An automatic id is a key that no stored id denotes, as long as none is the greatest key. -/
lemma KeyTable.autoId {columns : List Identifier} {rows : List (List CString)} {idIndex : Nat}
    (h : KeyTable columns rows idIndex) {stmt : InsertStatement}
    (hfind : storageFindColumnIndex stmt.columns (bytes "id") = none)
    (hmax : ∀ row ∈ rows, integerValue (row.getD idIndex []) ≠ intMax) :
    let id := (storageExistingValues (rows.map storageWriteCsvRow).flatten columns stmt).getD
      idIndex []
    IsKey id ∧ ∀ row ∈ rows, integerValue (row.getD idIndex []) ≠ integerValue id := by
  intro id
  have hbelow : ∀ k ∈ rows.map (fun row => integerValue (row.getD idIndex [])), k < intMax := by
    intro k hk
    obtain ⟨r, hr, rfl⟩ := List.mem_map.mp hk
    exact lt_of_le_of_ne (h.keys r hr).le_max (hmax r hr)
  have hnext := nextIdAfter_le (by decide) hbelow
  obtain ⟨hpos, hgreater⟩ :=
    lt_nextIdAfter (rows.map fun row => integerValue (row.getD idIndex []))
  obtain ⟨hlt, -⟩ := List.findIdx?_eq_some_iff_getElem.mp h.id_column
  have hindex : storageAutoIndex columns stmt = some idIndex := by
    rw [storageAutoIndex, if_pos hfind, h.id_column]
  have hid : id =
      printInt (nextIdAfter (rows.map fun row => integerValue (row.getD idIndex []))) := by
    have hcell := @storageExistingValues_auto (rows.map storageWriteCsvRow).flatten _ _ _ hlt hindex
    rw [h.nextAutoId, Option.getD_some] at hcell
    exact hcell
  rw [hid]
  refine ⟨isKey_printInt (by omega) hnext, fun r hr => ?_⟩
  rw [integerValue_printInt (by omega)]
  exact (hgreater _ (List.mem_map_of_mem hr)).ne

/-- A further insertion of a key keeps it. -/
lemma KeyTable.insert {columns : List Identifier} {rows : List (List CString)} {idIndex : Nat}
    (h : KeyTable columns rows idIndex) {files : Files} {name : Identifier}
    (hfile : files (tablePath name) = some (tableText (columns.map CBuf.val) rows))
    {stmt : InsertStatement} (hclean : CleanStatement stmt) (hkey : AdmitsKey files name stmt)
    {text : CString}
    (htext : storageInsertText (tableText (columns.map CBuf.val) rows) stmt = some text) :
    ∃ row, text = storageWriteCsvRow row ∧ KeyTable columns (rows ++ [row]) idIndex := by
  have hstored := h.storedIds hfile
  have hexplicit := hkey.explicit
  have hauto := hkey.auto
  have hfits := hkey.fits
  have hcount := hkey.count
  rw [hfile, Option.getD_some] at hfits
  rw [hstored] at hexplicit hauto hcount
  rw [List.length_map] at hcount
  have hcells :=
    @storageInsertValues_clean (tableText (columns.map CBuf.val) rows) _ hclean.values
  rw [h.insertValues] at hfits hcells
  rw [h.insertText] at htext
  have hlen : (storageExistingValues (rows.map storageWriteCsvRow).flatten columns stmt).length =
      columns.length := by simp [storageExistingValues]
  refine ⟨_, (storageInsertExisting_some htext).1, ?_⟩
  cases hfind : storageFindColumnIndex stmt.columns (bytes "id") with
  | some j =>
    obtain ⟨hid, hfresh⟩ := hexplicit j hfind
    have hcell := @storageExistingValues_explicit (rows.map storageWriteCsvRow).flatten _ _ _ _
      h.id_column hfind
    refine h.append hcells hlen hfits (hcell ▸ hid) ?_ hcount
    intro r hr
    rw [hcell]
    exact hfresh _ (List.mem_map_of_mem hr)
  | none =>
    have hnot : ¬ stmt.NamesId := by simp [InsertStatement.NamesId, hfind]
    obtain ⟨hid, hfresh⟩ := h.autoId hfind fun r hr => hauto hnot _ (List.mem_map_of_mem hr)
    exact h.append hcells hlen hfits hid hfresh hcount

/-! ### Further insertions without an id -/

/-- The statement names every column of the table but the id column. -/
structure NamesOthers (columns : List Identifier) (idIndex : Nat) (stmt : InsertStatement) :
    Prop where
  no_id : ¬ stmt.NamesId
  length : stmt.columns.length + 1 = columns.length
  others : ∀ c i, (c, i) ∈ columns.zipIdx → i ≠ idIndex →
    storageFindColumnIndex stmt.columns c.val ≠ none

lemma KeyTable.accepts {columns : List Identifier} {rows : List (List CString)} {idIndex : Nat}
    (h : KeyTable columns rows idIndex) {stmt : InsertStatement}
    (hstmt : NamesOthers columns idIndex stmt) :
    storageInsertText (tableText (columns.map CBuf.val) rows) stmt ≠ none := by
  have hnone : storageFindColumnIndex stmt.columns (bytes "id") = none := by
    simpa [InsertStatement.NamesId] using hstmt.no_id
  have hexpected : ¬ columns.length ≠ stmt.columns.length + 1 := by
    simp [hstmt.length]
  rw [h.insertText]
  unfold storageInsertExisting
  simp only [hnone, h.id_column, h.nextAutoId, ne_eq, reduceCtorEq, not_false_eq_true, and_self,
    if_true, if_false, false_and, Option.bind_eq_bind, Option.bind_some] at hexpected ⊢
  rw [if_neg hexpected, if_neg]
  · simp
  · -- no column is missing from the statement
    rw [Bool.not_eq_true, List.any_eq_false]
    rintro ⟨c, i⟩ hmem
    by_cases hi : idIndex = i
    · simp [hi]
    · have hfound := hstmt.others c i hmem (Ne.symm hi)
      simp [hfound]

/-- If no other column is named as the id column, there is such a statement. -/
lemma exists_namesOthers (name : Identifier) {columns : List Identifier} {idIndex : Nat}
    (hid : storageFindColumnIndex columns (bytes "id") = some idIndex)
    (hle : columns.length ≤ maxColumns) (hone : OneId columns) :
    ∃ stmt, NamesOthers columns idIndex stmt := by
  obtain ⟨hlt, -⟩ := List.findIdx?_eq_some_iff_getElem.mp hid
  have hlength : (columns.eraseIdx idIndex).length + 1 = columns.length := by
    rw [List.length_eraseIdx_of_lt hlt]
    omega
  refine ⟨⟨name, columns.eraseIdx idIndex, List.replicate (columns.eraseIdx idIndex).length
    (.truncate 255 []), by omega, List.length_replicate⟩, ?_, hlength, ?_⟩
  · rw [InsertStatement.NamesId, not_not, storageFindColumnIndex, List.findIdx?_eq_none_iff]
    intro c hc
    obtain ⟨i, hne, hi⟩ := List.mem_eraseIdx_iff_getElem?.mp hc
    rw [← Bool.not_eq_true]
    exact fun hname => hne (hone.unique hid (List.mem_zipIdx_iff_getElem?.mpr hi) hname)
  · intro c i hmem hne hnone
    have hc : c ∈ columns.eraseIdx idIndex :=
      List.mem_eraseIdx_iff_getElem?.mpr ⟨i, hne, List.mem_zipIdx_iff_getElem?.mp hmem⟩
    have hself := List.findIdx?_eq_none_iff.mp hnone c hc
    rw [utilsEqualsIgnoreCase_iff.mpr rfl] at hself
    cases hself

/-! ### Runs -/

/-- The states that calls of `storage_insert` lead to on a table that has no file, with the
statements of those that succeeded. -/
inductive InsertRun (name : Identifier) (Allowed : Files → InsertStatement → Prop) :
    Files → List InsertStatement → Prop
  | absent {files : Files} (h : files (tablePath name) = none) : InsertRun name Allowed files []
  | refused {files files' : Files} {accepted : List InsertStatement} {stmt : InsertStatement}
      (hrun : InsertRun name Allowed files accepted)
      (h : storageInsert files name.val stmt = (files', .failure)) :
      InsertRun name Allowed files' accepted
  | accepted {files files' : Files} {accepted : List InsertStatement} {stmt : InsertStatement}
      (hrun : InsertRun name Allowed files accepted) (hstmt : Allowed files stmt)
      (h : storageInsert files name.val stmt = (files', .success)) :
      InsertRun name Allowed files' (accepted ++ [stmt])

/-- The file of a table is one of keys for the engine: each of `count` rows has an id that compares
equal to no other, insertions without an id can go on, and the file loads. -/
structure StoresKeys (files : Files) (name : Identifier) (count : Nat) (columns : List Identifier)
    (rows : List (List CString)) (idIndex : Nat) : Prop where
  read : ∃ offsets, storageLoadTable files name.val = some ⟨columns, rows, offsets⟩
  id_column : storageFindColumnIndex columns (bytes "id") = some idIndex
  count : rows.length = count
  distinct : (rows.map fun row => row.getD idIndex []).Pairwise fun a b =>
    utilsCompareValues a b ≠ 0
  accepts : ∀ stmt, NamesOthers columns idIndex stmt →
    (storageInsert files name.val stmt).2 = .success
  others : ∃ stmt, NamesOthers columns idIndex stmt
  loads : ∀ t : TableRuntime, t.loaded = false → t.Accepts name.val →
    (tableLoadFromStorageIfNeeded files t name.val).2 = .success ∧
      (tableLoadFromStorageIfNeeded files t name.val).1.loaded = true

lemma KeyTable.storesKeys {columns : List Identifier} {rows : List (List CString)} {idIndex : Nat}
    (h : KeyTable columns rows idIndex) {files : Files} {name : Identifier}
    (hfile : files (tablePath name) = some (tableText (columns.map CBuf.val) rows)) :
    StoresKeys files name rows.length columns rows idIndex where
  read := h.storageLoadTable hfile
  id_column := h.id_column
  count := rfl
  distinct := h.pairwise_ids
  accepts stmt hstmt := by
    obtain ⟨text, htext⟩ := Option.ne_none_iff_exists'.mp (h.accepts hstmt)
    rw [storageInsert_eq (storageBuildPath_val name), hfile, Option.getD_some, htext]
  others := exists_namesOthers name h.id_column h.columns_le h.one_id
  loads t hun hacc := by
    obtain ⟨t', hfrom, -⟩ := h.tableFromStorage hfile
    have hexists : storageTableExists files name.val = true := by
      simp [storageTableExists, storageBuildPath_val, hfile]
    rw [tableLoad_accepted hun hacc, if_pos hexists, hfrom]
    exact ⟨rfl, (tableFromStorage_some hfrom).2.2.1⟩

/-- What a run of insertions of keys leaves: nothing yet, or a table of as many keys as there were
insertions. -/
lemma InsertRun.keyTable {name : Identifier} {files : Files} {accepted : List InsertStatement}
    (h : InsertRun name (fun files stmt => CleanStatement stmt ∧ AdmitsKey files name stmt) files
      accepted) :
    (accepted = [] ∧ (files (tablePath name)).getD [] = []) ∨
      ∃ columns rows idIndex, KeyTable columns rows idIndex ∧ rows.length = accepted.length ∧
        files (tablePath name) = some (tableText (columns.map CBuf.val) rows) := by
  induction h with
  | absent h => exact .inl ⟨rfl, by rw [h, Option.getD_none]⟩
  | @refused files files' accepted stmt _ h ih =>
    rw [storageInsert_eq (storageBuildPath_val name)] at h
    have hfile : files' (tablePath name) = some ((files (tablePath name)).getD []) := by
      cases htext : storageInsertText ((files (tablePath name)).getD []) stmt with
      | none =>
        rw [htext] at h
        rw [← (Prod.mk.inj h).1, Function.update_self]
      | some text =>
        rw [htext] at h
        cases (Prod.mk.inj h).2
    rw [hfile, Option.getD_some]
    obtain ⟨rfl, hempty⟩ | ⟨columns, rows, idIndex, hkeys, hcount, hsome⟩ := ih
    · exact .inl ⟨rfl, hempty⟩
    · exact .inr ⟨columns, rows, idIndex, hkeys, hcount, by rw [hsome, Option.getD_some]⟩
  | @accepted files files' accepted stmt _ hstmt h ih =>
    obtain ⟨hclean, hkey⟩ := hstmt
    obtain ⟨path, text, hpath, htext, rfl⟩ := storageInsert_success h
    obtain rfl := Option.some.inj ((storageBuildPath_val name).symm.trans hpath)
    rw [Function.update_self, List.length_append, List.length_singleton]
    obtain ⟨rfl, hempty⟩ | ⟨columns, rows, idIndex, hkeys, hcount, hsome⟩ := ih
    · rw [hempty] at htext ⊢
      obtain ⟨rfl, idIndex, hstart⟩ := keyTable_start hempty hclean hkey htext
      exact .inr ⟨_, _, idIndex, hstart, rfl, rfl⟩
    · rw [hsome, Option.getD_some] at htext ⊢
      obtain ⟨row, rfl, hkeys⟩ := hkeys.insert hsome hclean hkey htext
      refine .inr ⟨columns, rows ++ [row], idIndex, hkeys, ?_, ?_⟩
      · rw [List.length_append, List.length_singleton, hcount]
      · rw [Option.getD_some, tableText_append]

/-- When every insertion that succeeds is one of a key, the file is a table of keys in every state
after the first of them. -/
theorem storageInsert_storesKeys {name : Identifier} {files : Files}
    {accepted : List InsertStatement}
    (h : InsertRun name (fun files stmt => CleanStatement stmt ∧ AdmitsKey files name stmt) files
      accepted) (hne : accepted ≠ []) :
    ∃ columns rows idIndex, StoresKeys files name accepted.length columns rows idIndex := by
  obtain ⟨rfl, -⟩ | ⟨columns, rows, idIndex, hkeys, hcount, hfile⟩ := h.keyTable
  · exact absurd rfl hne
  · exact ⟨columns, rows, idIndex, hcount ▸ hkeys.storesKeys hfile⟩

/-- A row without an id. -/
def insertNext : InsertStatement :=
  ⟨identifier "t", [identifier "name"], [.truncate 255 (bytes "a")], by decide, rfl⟩

lemma cleanStatement_insertKey {id : String} (h : NoLineBreak (CBuf.truncate 255 (bytes id)).val) :
    CleanStatement (insertKey id) := by
  have hcolumns : ∀ c ∈ [identifier "id", identifier "name"], NoLineBreak c.val := by
    unfold NoLineBreak
    decide
  have hvalue : NoLineBreak (CBuf.truncate 255 (bytes "a")).val := by
    unfold NoLineBreak
    decide
  exact ⟨hcolumns, List.forall_mem_cons.mpr ⟨h, List.forall_mem_singleton.mpr hvalue⟩⟩

/-- The id 7 and the next one. -/
theorem storageInsert_storesKeys_next :
    ∃ (files : Files) (columns : List Identifier) (rows : List (List CString)) (idIndex : Nat),
      StoresKeys files (identifier "t") 2 columns rows idIndex := by
  have hrun : InsertRun (identifier "t")
      (fun files stmt => CleanStatement stmt ∧ AdmitsKey files (identifier "t") stmt)
      (fun _ => none) [] := .absent rfl
  have hkey : AdmitsKey (fun _ => none) (identifier "t") (insertKey "7") := by
    refine ⟨fun _ => ?_, ?_, by simp +decide, by decide +kernel, by decide +kernel⟩
    · unfold OneId
      decide
    · rintro j ⟨⟩
      exact ⟨⟨by decide, by decide, by decide⟩, by decide⟩
  have hrun := hrun.accepted
    ⟨cleanStatement_insertKey (by unfold NoLineBreak; decide), hkey⟩
    (Prod.ext rfl (by decide +kernel))
  have hclean : CleanStatement insertNext := by
    constructor <;> (unfold NoLineBreak; decide)
  have hnext : AdmitsKey (storageInsert (fun _ => none) (bytes "t") (insertKey "7")).1
      (identifier "t") insertNext := by
    refine ⟨fun _ => ?_, ?_, fun _ => by decide +kernel, by decide +kernel, by decide +kernel⟩
    · unfold OneId
      decide
    · rintro j ⟨⟩
  have hrun := hrun.accepted ⟨hclean, hnext⟩ (Prod.ext rfl (by decide +kernel))
  exact ⟨_, storageInsert_storesKeys hrun (by simp)⟩

/-- The ids 1 and 01 are different texts and the same number. -/
theorem storageInsert_storesKeys_leadingZero :
    ¬ ∀ (name : Identifier) (files : Files) (accepted : List InsertStatement),
      InsertRun name (fun _ stmt => CleanStatement stmt) files accepted → accepted ≠ [] →
      ∃ columns rows idIndex, StoresKeys files name accepted.length columns rows idIndex := by
  intro h
  have hrun : InsertRun (identifier "t") (fun _ stmt => CleanStatement stmt) (fun _ => none) [] :=
    .absent rfl
  have hrun := hrun.accepted
    (@cleanStatement_insertKey "1" (by unfold NoLineBreak; decide))
    (Prod.ext rfl (by decide +kernel))
  have hrun := hrun.accepted
    (@cleanStatement_insertKey "01" (by unfold NoLineBreak; decide))
    (Prod.ext rfl (by decide +kernel))
  obtain ⟨columns, rows, idIndex, hkeys⟩ := h _ _ _ hrun (by simp)
  obtain ⟨offsets, hread⟩ := hkeys.read
  -- the rows are those with the ids 1 and 01
  have hrows := congrArg (Option.map fun data => (data.columns, data.rows)) hread
  rw [Option.map_some] at hrows
  have hboth : (columns, rows) = ([identifier "id", identifier "name"],
      [[bytes "1", bytes "a"], [bytes "01", bytes "a"]]) :=
    Option.some.inj (hrows.symm.trans (by decide +kernel))
  obtain ⟨rfl, rfl⟩ := Prod.mk.inj hboth
  obtain rfl : 0 = idIndex := Option.some.inj hkeys.id_column
  exact absurd hkeys.distinct (by decide +kernel)

end MiniDbms
