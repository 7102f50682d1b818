import MiniDbms.Storage.LineLength
import MiniDbms.Storage.Loaded

/-!
# `storage_delete` alone

The rows that do not match are written into a new file, which then takes the place of the table.
What is read of the new file is what was written, unless a row is written as an empty line.
-/

namespace MiniDbms

/-- The path of the temporary file, as long as that of the table. -/
def storageTempPath (tableName : CString) : CString := bytes "data/" ++ tableName ++ bytes ".tmp"

/-- `storage_delete`, with the number of rows in `deleted_count`. -/
def storageDelete (files : Files) (tableName : CString) (stmt : DeleteStatement) :
    Files × Int × Status :=
  match storageBuildPath tableName with
  | none      => (files, 0, .failure)
  | some path =>
    match (files path).bind storageLoadTableFromFp with
    | none       => (files, 0, .failure)
    | some table =>
      let (text, deletedCount, status) := storageDeleteText stmt table
      let removed := Function.update files (storageTempPath tableName) none
      match status with
      | .failure => (removed, deletedCount, .failure)
      | .success => (Function.update removed path (some text), deletedCount, .success)

/-! ### What is loaded again -/

namespace CleanTable

variable {table : TableData} {rows : List (List CString)}

/-- A written table that is loaded as it is has columns, and no row that is written as an empty
line. -/
lemma not_blank_of_load (h : CleanTable table) (hsub : rows ⊆ table.rows) {offsets : List Nat}
    (hload : storageLoadTableFromFp (tableText (table.columns.map CBuf.val) rows) =
      some ⟨table.columns, rows, offsets⟩) :
    table.columns ≠ [] ∧ ∀ row ∈ rows, row ≠ [[]] := by
  have hrow := h.row_clean hsub
  obtain ⟨rest, hread, hloaded, -⟩ := storageLoadTableFromFp_eq_some.mp hload
  have hne : table.columns ≠ [] := by
    rw [Ne, storageReadHeader_nil_iff hread]
    simp [tableText, storageWriteCsvRow]
  have hisRow := h.isRow hsub hne
  have hheader := storageReadHeader_row hne h.columns_le h.names
    (rows.map storageWriteCsvRow).flatten
  rw [tableText, hheader] at hread
  cases hread
  obtain ⟨hlines, -⟩ := storageLines_written hisRow (storageLoadRows_ne_none hloaded)
  rw [hlines] at hloaded
  have hkept : rows = rows.filter fun row => row ≠ [[]] :=
    storageLoadRows_written (fun row hr => ⟨hisRow row hr, (hrow row hr).2⟩) hloaded
  refine ⟨hne, fun row hr => ?_⟩
  rw [hkept] at hr
  simpa using (List.mem_filter.mp hr).2

/-- A written table with columns and no such row is loaded as it is. -/
lemma load_of_not_blank (h : CleanTable table) (hsub : rows ⊆ table.rows) (hne : table.columns ≠ [])
    (hcount : rows.length ≤ 2 ^ 30) (hblank : ∀ row ∈ rows, row ≠ [[]]) :
    ∃ offsets, storageLoadTableFromFp (tableText (table.columns.map CBuf.val) rows) =
      some ⟨table.columns, rows, offsets⟩ := by
  have hrow := h.row_clean hsub
  have hisRow := h.isRow hsub hne
  have hlines := storageLines_rows fun row hr => isLine_of_csvRowLength
    (hisRow row hr).ne_nil (hrow row hr).2 (h.fits row (hsub hr))
  have hread : ∀ row ∈ rows, storageParseRow table.columns.length (storageWriteCsvRow row) =
      some (some row) := by
    intro row hr
    rw [← (hrow row hr).1]
    exact storageParseRow_row (hisRow row hr) (hblank row hr) (hrow row hr).2
  have hheader := storageReadHeader_row hne h.columns_le h.names
    (rows.map storageWriteCsvRow).flatten
  obtain ⟨offsets, hload⟩ := storageLoadRows_rows hread
    ((tableText (table.columns.map CBuf.val) rows).length -
      (rows.map storageWriteCsvRow).flatten.length)
  refine ⟨offsets, storageLoadTableFromFp_eq_some.mpr ⟨_, hheader, ?_, hcount⟩⟩
  rw [hlines]
  exact hload

end CleanTable

/-- A written table is loaded as it is if and only if it has columns and no row that is written as
an empty line. -/
lemma storageLoadTableFromFp_written_iff {table : TableData} (h : CleanTable table)
    {rows : List (List CString)} (hsub : rows ⊆ table.rows) (hcount : rows.length ≤ 2 ^ 30) :
    (∃ offsets, storageLoadTableFromFp (tableText (table.columns.map CBuf.val) rows) =
      some ⟨table.columns, rows, offsets⟩) ↔
      table.columns ≠ [] ∧ ∀ row ∈ rows, row ≠ [[]] :=
  ⟨fun ⟨_, hload⟩ => h.not_blank_of_load hsub hload,
    fun ⟨hne, hblank⟩ => h.load_of_not_blank hsub hne hcount hblank⟩

/-! ### The new file -/

/-- A deletion whose condition can be tested on every row. -/
lemma storageDeleteRows_eq {stmt : DeleteStatement} {columns : List Identifier}
    {deletes : List CString → Bool} {rows : List (List CString)}
    (h : ∀ row ∈ rows, storageDeleteMatches stmt columns row = some (deletes row)) :
    storageDeleteRows stmt columns rows =
      (((rows.filter fun row => !deletes row).map storageWriteCsvRow).flatten,
        ((rows.filter deletes).length : Int), .success) := by
  induction rows with
  | nil => rfl
  | cons row rows ih =>
    obtain ⟨hrow, hrest⟩ := List.forall_mem_cons.mp h
    rw [storageDeleteRows, hrow, ih hrest]
    cases hdeletes : deletes row with
    | true =>
      rw [List.filter_cons_of_neg (by simp [hdeletes]), List.filter_cons_of_pos hdeletes]
      simp
    | false =>
      rw [List.filter_cons_of_pos (by simp [hdeletes]), List.filter_cons_of_neg (by simp [hdeletes])]
      simp

/-- It replaces the file by a table of the other rows. -/
lemma storageDelete_eq {files : Files} {tableName path content : CString} {stmt : DeleteStatement}
    {table : TableData} (hpath : storageBuildPath tableName = some path)
    (hcontent : files path = some content) (htable : storageLoadTableFromFp content = some table)
    {deletes : List CString → Bool}
    (h : ∀ row ∈ table.rows, storageDeleteMatches stmt table.columns row = some (deletes row)) :
    storageDelete files tableName stmt =
      (Function.update (Function.update files (storageTempPath tableName) none) path
        (some (tableText (table.columns.map CBuf.val) (table.rows.filter fun row => !deletes row))),
        ((table.rows.filter deletes).length : Int), .success) := by
  rw [storageDelete, hpath]
  dsimp only
  rw [hcontent, Option.bind_some, htable]
  dsimp only
  rw [storageDeleteText, storageDeleteRows_eq h]
  rfl

end MiniDbms
