import MiniDbms.Storage.Delete
import MiniDbms.Sql.Operators
import MiniDbms.Engine.Select

/-!
# The meaning of DELETE

`storage_delete` deletes the rows that a query with the same condition selects, and means to keep
the others as they are.
-/

namespace MiniDbms

/-! ### The meaning -/

/-- The statement deletes the row; without a condition it deletes every row. -/
def DeleteStatement.deletes (stmt : DeleteStatement) (columns : List Identifier)
    (row : List CString) : Bool :=
  stmt.whereClause.all fun w => w.holds columns row

/-- The condition is about a column of the table, with a known operator. -/
def DeleteStatement.WellFormedFor (stmt : DeleteStatement) (columns : List Identifier) : Prop :=
  ∀ w ∈ stmt.whereClause, storageFindColumnIndex columns w.column.val ≠ none ∧
    CompareOp.ofText w.op.val ≠ none

/-! ### The evaluators -/

lemma CompareOp.text_mem (op : CompareOp) : op.text ∈ comparisonOperators := by
  cases op <;> decide

/-- `storage_delete` tests the condition. -/
lemma storageDeleteMatches_eq {stmt : DeleteStatement} {columns : List Identifier}
    (h : stmt.WellFormedFor columns) (row : List CString) :
    storageDeleteMatches stmt columns row = some (stmt.deletes columns row) := by
  rw [storageDeleteMatches, DeleteStatement.deletes]
  cases hwhere : stmt.whereClause with
  | none => rfl
  | some w =>
    obtain ⟨hcol, hop⟩ := h w hwhere
    obtain ⟨i, hi⟩ := Option.ne_none_iff_exists'.mp hcol
    obtain ⟨op, hop⟩ := Option.ne_none_iff_exists'.mp hop
    dsimp only
    rw [storageRowMatchesWhere, hi, Option.bind_eq_bind, Option.bind_some,
      storageCompareWithOperator_eq (by rw [CompareOp.ofText_some hop]; exact op.text_mem),
      tableWhereMatches_of_ofText hop, Option.all_some, WhereClause.holds, hop, Option.any_some,
      cellOf, hi]

/-- So does the scan of a loaded table. -/
lemma mem_tableLinearScanByField {t : TableRuntime} (hl : t.loaded = true) {stmt : DeleteStatement}
    (h : stmt.WellFormedFor t.columns) :
    ∃ slots, tableLinearScanByField t stmt.whereClause = some slots ∧
      ∀ (i : Nat) row, t.rows[i]? = some row →
        ((i : Int) ∈ slots ↔ stmt.deletes t.columns row = true) := by
  cases hwhere : stmt.whereClause with
  | none =>
    refine ⟨_, tableLinearScanByField_none hl, fun i row hrow => ?_⟩
    simp only [DeleteStatement.deletes, hwhere, Option.all_none, iff_true, List.mem_map]
    exact ⟨(row, i), List.mem_zipIdx_iff_getElem?.mpr hrow, rfl⟩
  | some w =>
    obtain ⟨hcol, hop⟩ := h w hwhere
    refine ⟨_, tableLinearScanByField_some hl hcol hop, fun i row hrow => ?_⟩
    simp only [DeleteStatement.deletes, hwhere, Option.all_some, List.mem_map, List.mem_filter,
      Prod.exists, List.mem_zipIdx_iff_getElem?]
    constructor
    · rintro ⟨row', i', ⟨hrow', hholds⟩, hi⟩
      obtain rfl := Int.ofNat.inj hi
      obtain rfl := Option.some.inj (hrow.symm.trans hrow')
      exact hholds
    · intro hholds
      exact ⟨row, i, ⟨hrow, hholds⟩, rfl⟩

/-- A deletion keeps exactly the rows that a query with its condition does not select, if and only
if the table has columns and no row to be kept is written as an empty line. -/
theorem storageDelete_filters_iff {files : Files} {tableName : CString} {stmt : DeleteStatement}
    {table : TableData} (hload : storageLoadTable files tableName = some table)
    (hwf : stmt.WellFormedFor table.columns) :
    ((∃ files', storageDelete files tableName stmt =
        (files', ((table.rows.filter (stmt.deletes table.columns)).length : Int), .success) ∧
      ∃ offsets, storageLoadTable files' tableName = some ⟨table.columns,
        table.rows.filter fun row => !stmt.deletes table.columns row, offsets⟩) ∧
      ∀ t : TableRuntime, t.loaded = true → t.columns = table.columns → t.rows = table.rows →
        ∃ slots, tableLinearScanByField t stmt.whereClause = some slots ∧
          ∀ (i : Nat) row, table.rows[i]? = some row →
            ((i : Int) ∈ slots ↔ stmt.deletes table.columns row = true)) ↔
    table.columns ≠ [] ∧ ∀ row ∈ table.rows, stmt.deletes table.columns row = false →
      row ≠ [[]] := by
  obtain ⟨path, hpath, hfile⟩ := Option.bind_eq_some_iff.mp hload
  obtain ⟨content, hcontent, htable⟩ := Option.bind_eq_some_iff.mp hfile
  have hdelete := storageDelete_eq hpath hcontent htable
    fun row _ => storageDeleteMatches_eq hwf row
  obtain ⟨-, -, -, hcount⟩ := storageLoadTableFromFp_eq_some.mp htable
  have hwritten := storageLoadTableFromFp_written_iff (storageLoadTableFromFp_clean htable)
    (List.filter_sublist (p := fun row => !stmt.deletes table.columns row)).subset
    ((List.length_filter_le _ _).trans hcount)
  -- what the new file holds is loaded from the path of the table
  have hreload : ∀ files' : Files, (∃ text, files' path = some text ∧
      text = tableText (table.columns.map CBuf.val)
        (table.rows.filter fun row => !stmt.deletes table.columns row)) →
      ((∃ offsets, storageLoadTable files' tableName = some ⟨table.columns,
        table.rows.filter fun row => !stmt.deletes table.columns row, offsets⟩) ↔
      table.columns ≠ [] ∧ ∀ row ∈ table.rows, stmt.deletes table.columns row = false →
        row ≠ [[]]) := by
    rintro files' ⟨text, hfile', rfl⟩
    have hloaded : storageLoadTable files' tableName =
        storageLoadTableFromFp (tableText (table.columns.map CBuf.val)
          (table.rows.filter fun row => !stmt.deletes table.columns row)) := by
      simp only [storageLoadTable, hpath, hfile', Option.bind_eq_bind, Option.bind_some]
    rw [hloaded, hwritten]
    simp [List.mem_filter]
  constructor
  · rintro ⟨⟨files', heq, hafter⟩, -⟩
    rw [hdelete] at heq
    refine (hreload files' ⟨_, ?_, rfl⟩).mp hafter
    rw [← (Prod.mk.inj heq).1, Function.update_self]
  · intro hkept
    refine ⟨⟨_, hdelete, (hreload _ ⟨_, Function.update_self _ _ _, rfl⟩).mpr hkept⟩, ?_⟩
    intro t hl hcolumns hrows
    rw [← hcolumns, ← hrows]
    exact mem_tableLinearScanByField hl (hcolumns ▸ hwf)

/-- The statement `DELETE FROM t WHERE x = v`. -/
def deleteWhereX (v : String) : DeleteStatement :=
  ⟨identifier "t", some ⟨identifier "x", .truncate 3 (bytes "="), .truncate 255 (bytes v)⟩⟩

lemma deleteWhereX_wellFormed (v : String) :
    (deleteWhereX v).WellFormedFor [identifier "x"] := by
  rintro w ⟨⟩
  show storageFindColumnIndex [identifier "x"] (identifier "x").val ≠ none ∧
    CompareOp.ofText (CBuf.truncate 3 (bytes "=")).val ≠ none
  decide

/-- One of two rows is deleted. -/
theorem storageDelete_filters_one :
    (storageDelete (singleFile (bytes "data/t.csv") (bytes "x\n1\n2\n")) (bytes "t")
      (deleteWhereX "1")).2 = (1, .success) := by
  have hload : storageLoadTable (singleFile (bytes "data/t.csv") (bytes "x\n1\n2\n")) (bytes "t") =
      some ⟨[identifier "x"], [[bytes "1"], [bytes "2"]], [2, 4]⟩ := by decide +kernel
  have hkept : ∀ row ∈ [[bytes "1"], [bytes "2"]],
      (deleteWhereX "1").deletes [identifier "x"] row = false → row ≠ [[]] := by
    decide +kernel
  obtain ⟨⟨files', hdelete, -⟩, -⟩ :=
    (storageDelete_filters_iff hload (deleteWhereX_wellFormed "1")).mpr ⟨by simp, hkept⟩
  rw [hdelete]
  dsimp only
  rw [Prod.mk.injEq]
  exact ⟨by decide +kernel, rfl⟩

/-- The row of a single empty value is gone as well. -/
theorem storageDelete_filters_blank :
    ¬ ∀ (files : Files) (tableName : CString) (stmt : DeleteStatement) (table : TableData),
      storageLoadTable files tableName = some table → stmt.WellFormedFor table.columns →
      ∃ files', storageDelete files tableName stmt =
          (files', ((table.rows.filter (stmt.deletes table.columns)).length : Int), .success) ∧
        ∃ offsets, storageLoadTable files' tableName = some ⟨table.columns,
          table.rows.filter fun row => !stmt.deletes table.columns row, offsets⟩ := by
  intro h
  obtain ⟨files', hdelete, offsets, hreload⟩ :=
    h (singleFile (bytes "data/t.csv") (bytes "x\n1\n\"\"\n")) (bytes "t") (deleteWhereX "1")
      ⟨[identifier "x"], [[bytes "1"], [[]]], [2, 4]⟩ (by decide +kernel)
      (deleteWhereX_wellFormed "1")
  have hfiles : files' = (storageDelete (singleFile (bytes "data/t.csv")
      (bytes "x\n1\n\"\"\n")) (bytes "t") (deleteWhereX "1")).1 := by rw [hdelete]
  have hrows := congrArg (Option.map TableData.rows) hreload
  rw [hfiles, Option.map_some] at hrows
  dsimp only at hrows
  exact absurd hrows (by decide +kernel)

end MiniDbms
