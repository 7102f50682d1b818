import MiniDbms.Runtime.Basic

/-!
# The executor of `executor.c`

A statement works on the files and on the active table. `columns` and `rows` of a result are the
used parts of its arrays; the output for the command line is left out.
-/

namespace MiniDbms

/-! ### Results -/

inductive DbResultType where
  | none
  | insert
  | select
  | delete
  | error
  deriving DecidableEq, Repr

structure DbResult where
  type : DbResultType
  success : Bool
  columns : List Identifier
  rows : List (List CString)
  rowsAffected : Int
  usedIdIndex : Bool
  message : CBuf 511
  deriving DecidableEq, Repr

/-- `db_result_init` -/
def dbResultInit : DbResult := ⟨.none, false, [], [], 0, false, .empty⟩

/-- `db_result_set_message` -/
def dbResultSetMessage (result : DbResult) (message : CString) : DbResult × Status :=
  ({ result with message := .truncate 511 message }, .success)

/-- `db_result_set_error` -/
def dbResultSetError (_ : DbResult) (message : CString) : DbResult × Status :=
  (⟨.error, false, [], [], 0, false, .truncate 511 message⟩, .failure)

/-! ### Reading the table -/

/-- `table_get_row_by_slot`, `none` being `NULL`. -/
def tableGetRowBySlot (table : TableRuntime) (rowIndex : Int) : Option (List CString) :=
  if rowIndex < 0 ∨ rowIndex ≥ table.rows.length then none else table.rows[rowIndex.toNat]?

/-- `table_where_matches` -/
def tableWhereMatches (comparison : Int) (op : CString) : Bool :=
  if strcmp op (bytes "=") = 0 then comparison = 0
  else if strcmp op (bytes "!=") = 0 then comparison ≠ 0
  else if strcmp op (bytes ">") = 0 then comparison > 0
  else if strcmp op (bytes ">=") = 0 then comparison ≥ 0
  else if strcmp op (bytes "<") = 0 then comparison < 0
  else if strcmp op (bytes "<=") = 0 then comparison ≤ 0
  else false

/-- The loop of `table_linear_scan_by_field`: the slots whose cell in a column matches. -/
def tableScanColumn (table : TableRuntime) (columnIndex : Nat) (w : WhereClause) : List Int :=
  (table.rows.zipIdx.filter fun (row, _) =>
    tableWhereMatches (utilsCompareValues (row.getD columnIndex []) w.value.val) w.op.val).map
      fun (_, i) => (i : Int)

/-- `table_linear_scan_by_field`; no clause stands for a `NULL` one. -/
def tableLinearScanByField (table : TableRuntime) (w : Option WhereClause) :
    Option (List Int) :=
  if !table.loaded ∨ table.rows.length = 0 then some []
  else
    match w with
    | none   => some (table.rows.zipIdx.map fun (_, i) => (i : Int))
    | some w =>
      (storageFindColumnIndex table.columns w.column.val).map
        fun columnIndex => tableScanColumn table columnIndex w

/-! ### SELECT -/

/-- `executor_prepare_projection`: the selected indices and the headers. -/
def executorPrepareProjection (stmt : SelectStatement) (table : TableRuntime) :
    Option (List Nat × List Identifier) :=
  if stmt.columns.length = 0 then
    some (List.range table.columns.length, table.columns)
  else do
    let indices ← stmt.columns.mapM fun c => storageFindColumnIndex table.columns c.val
    return (indices, indices.map fun i => table.columns.getD i .empty)

/-- `executor_copy_projected_row` -/
def executorCopyProjectedRow (sourceRow : List CString) (selectedIndices : List Nat) :
    List CString :=
  selectedIndices.map fun i => sourceRow.getD i []

/-- `executor_collect_rows_by_indices` -/
def executorCollectRowsByIndices (table : TableRuntime) (selectedIndices : List Nat)
    (rowIndices : List Int) : Option (List (List CString)) :=
  rowIndices.mapM fun i =>
    (tableGetRowBySlot table i).map fun row => executorCopyProjectedRow row selectedIndices

/-- `executor_collect_all_rows` -/
def executorCollectAllRows (table : TableRuntime) (selectedIndices : List Nat) :
    Option (List (List CString)) := do
  let rowIndices ← tableLinearScanByField table none
  executorCollectRowsByIndices table selectedIndices rowIndices

/-- `executor_can_use_id_index`: the key to look for. -/
def executorCanUseIdIndex (table : TableRuntime) (w : WhereClause) : Option Int :=
  if !table.loaded ∨ table.idIndex.root = none then none
  else if strcmp w.op.val (bytes "=") ≠ 0 ∨ !utilsIsInteger w.value.val then none
  else if !utilsEqualsIgnoreCase (table.columns.getD table.idColumnIndex .empty).val
      w.column.val then none
  else
    let parsedKey := utilsParseInteger w.value.val
    if parsedKey < 0 ∨ parsedKey > intMax then none else some parsedKey

/-- `executor_collect_rows_by_id` -/
def executorCollectRowsById (table : TableRuntime) (searchKey : Int)
    (selectedIndices : List Nat) : Option (List (List CString)) :=
  match bptreeSearch table.idIndex searchKey with
  | none          => some []
  | some rowIndex => executorCollectRowsByIndices table selectedIndices [rowIndex]

/-- `executor_collect_rows_by_scan` -/
def executorCollectRowsByScan (table : TableRuntime) (w : WhereClause)
    (selectedIndices : List Nat) : Option (List (List CString)) := do
  let rowIndices ← tableLinearScanByField table (some w)
  executorCollectRowsByIndices table selectedIndices rowIndices

/-- `executor_copy_headers_to_result` -/
def executorCopyHeadersToResult (result : DbResult) (headers : List Identifier) :
    DbResult × Status :=
  if headers.length > maxColumns then (result, .failure)
  else ({ result with columns := headers }, .success)

/-- The message of `executor_finish_select`. -/
def selectMessage (rowCount : Nat) : CString :=
  printInt rowCount ++ bytes " row" ++ (if rowCount = 1 then [] else bytes "s") ++
    bytes " selected."

/-- `executor_finish_select` -/
def executorFinishSelect (result : DbResult) (headers : List Identifier)
    (rows : List (List CString)) (usedIdIndex : Bool) : DbResult × Status :=
  match executorCopyHeadersToResult result headers with
  | (result, .failure) => dbResultSetError result (bytes "Failed to prepare SELECT headers.")
  | (result, .success) =>
    dbResultSetMessage { result with
      type := .select, success := true, rows := rows, rowsAffected := rows.length
      usedIdIndex := usedIdIndex } (selectMessage rows.length)

/-- The rows of `executor_execute_select`, and whether the index was used. -/
def executorCollectRows (table : TableRuntime) (w : Option WhereClause)
    (selectedIndices : List Nat) : Option (List (List CString)) × Bool :=
  match w with
  | none   => (executorCollectAllRows table selectedIndices, false)
  | some w =>
    match executorCanUseIdIndex table w with
    | some searchKey => (executorCollectRowsById table searchKey selectedIndices, true)
    | none           => (executorCollectRowsByScan table w selectedIndices, false)

/-- The part of `executor_execute_select` that reads a loaded table. -/
def executorSelectLoaded (table : TableRuntime) (stmt : SelectStatement) (result : DbResult) :
    DbResult × Status :=
  match executorPrepareProjection stmt table with
  | none => dbResultSetError result (bytes "Failed to prepare SELECT projection.")
  | some (selectedIndices, headers) =>
    match executorCollectRows table stmt.whereClause selectedIndices with
    | (none, _)                => dbResultSetError result (bytes "Failed to collect SELECT rows.")
    | (some rows, usedIdIndex) => executorFinishSelect result headers rows usedIdIndex

/-- `executor_execute_select` -/
def executorExecuteSelect (files : Files) (active : Option TableRuntime) (stmt : SelectStatement)
    (result : DbResult) : TableRuntime × DbResult × Status :=
  match tableGetOrLoad active stmt.tableName.val with
  | (table, .failure) =>
    (table, dbResultSetError result (bytes "Failed to prepare runtime table."))
  | (table, .success) =>
    match tableLoadFromStorageIfNeeded files table stmt.tableName.val with
    | (table, .failure) =>
      (table, dbResultSetError result (bytes "Failed to load table from storage."))
    | (table, .success) =>
      if !table.loaded then
        (table, dbResultSetError result
          (bytes "Table '" ++ stmt.tableName.val ++ bytes "' not found in runtime."))
      else (table, executorSelectLoaded table stmt result)

/-! ### INSERT -/

/-- `executor_finish_insert` -/
def executorFinishInsert (result : DbResult) (tableName : CString) : DbResult × Status :=
  dbResultSetMessage { result with
    type := .insert, success := true, rowsAffected := 1, usedIdIndex := false }
    (bytes "1 row inserted into " ++ tableName ++ bytes ".")

/-- `executor_execute_insert` -/
def executorExecuteInsert (files : Files) (active : Option TableRuntime) (stmt : InsertStatement)
    (result : DbResult) : Files × TableRuntime × DbResult × Status :=
  match tableGetOrLoad active stmt.tableName.val with
  | (table, .failure) =>
    (files, table, dbResultSetError result (bytes "Failed to prepare runtime table."))
  | (table, .success) =>
    match tableLoadFromStorageIfNeeded files table stmt.tableName.val with
    | (table, .failure) =>
      (files, table, dbResultSetError result (bytes "Failed to load table from storage."))
    | (table, .success) =>
      match tableInsertRow files table stmt with
      | (files, table, none) =>
        (files, table, dbResultSetError result
          (bytes "Failed to insert row into " ++ stmt.tableName.val ++ bytes "."))
      | (files, table, some _) => (files, table, executorFinishInsert result stmt.tableName.val)

/-! ### Every statement -/

/-- `executor_execute_delete` -/
def executorExecuteDelete (_ : DeleteStatement) (result : DbResult) : DbResult × Status :=
  dbResultSetError result (bytes "DELETE is not supported in memory runtime mode.")

/-- `executor_execute_into_result`: the files, the active table and the result afterwards. -/
def executorExecuteIntoResult (files : Files) (active : Option TableRuntime)
    (statement : SqlStatement) (result : DbResult) :
    Files × Option TableRuntime × DbResult × Status :=
  match statement with
  | .insert stmt =>
    let (files, table, result) := executorExecuteInsert files active stmt result
    (files, some table, result)
  | .select stmt =>
    let (table, result) := executorExecuteSelect files active stmt result
    (files, some table, result)
  | .delete stmt => (files, active, executorExecuteDelete stmt result)

/-! ### The table of a statement -/

/-- The table that a statement works on: the active one if it has the name, else the one that the
file of that name loads to. -/
def statementTable (files : Files) (active : Option TableRuntime) (name : Identifier) :
    TableRuntime :=
  (tableLoadFromStorageIfNeeded files (tableGetOrLoad active name.val).1 name.val).1

lemma tableGetOrLoad_success (active : Option TableRuntime) (name : Identifier) :
    (tableGetOrLoad active name.val).2 = .success := by
  unfold tableGetOrLoad tableSetActiveName
  dsimp only
  split_ifs
  · rfl
  · rw [utilsSafeStrcpy_val]

/-- A query leaves the table that it works on as the active one. -/
lemma executorExecuteSelect_table (files : Files) (active : Option TableRuntime)
    (stmt : SelectStatement) (result : DbResult) :
    (executorExecuteSelect files active stmt result).1 =
      statementTable files active stmt.tableName := by
  have hget := tableGetOrLoad_success active stmt.tableName
  unfold executorExecuteSelect statementTable
  generalize tableGetOrLoad active stmt.tableName.val = got at hget ⊢
  obtain ⟨t₁, st₁⟩ := got
  obtain rfl : st₁ = .success := hget
  dsimp only
  generalize tableLoadFromStorageIfNeeded files t₁ stmt.tableName.val = loaded
  obtain ⟨t₂, st₂⟩ := loaded
  cases st₂ with
  | failure => rfl
  | success =>
    dsimp only
    split_ifs <;> rfl

/-- An insertion inserts into the table that it works on, unless that cannot be loaded. -/
lemma executorExecuteInsert_table (files : Files) (active : Option TableRuntime)
    (stmt : InsertStatement) (result : DbResult) :
    ((executorExecuteInsert files active stmt result).1 = files ∧
      (executorExecuteInsert files active stmt result).2.1 =
        statementTable files active stmt.tableName) ∨
    ((executorExecuteInsert files active stmt result).1 =
        (tableInsertRow files (statementTable files active stmt.tableName) stmt).1 ∧
      (executorExecuteInsert files active stmt result).2.1 =
        (tableInsertRow files (statementTable files active stmt.tableName) stmt).2.1) := by
  have hget := tableGetOrLoad_success active stmt.tableName
  unfold executorExecuteInsert statementTable
  generalize tableGetOrLoad active stmt.tableName.val = got at hget ⊢
  obtain ⟨t₁, st₁⟩ := got
  obtain rfl : st₁ = .success := hget
  dsimp only
  generalize tableLoadFromStorageIfNeeded files t₁ stmt.tableName.val = loaded
  obtain ⟨t₂, st₂⟩ := loaded
  cases st₂ with
  | failure => exact .inl ⟨rfl, rfl⟩
  | success =>
    dsimp only
    generalize tableInsertRow files t₂ stmt = inserted
    obtain ⟨files', t₃, slot⟩ := inserted
    cases slot <;> exact .inr ⟨rfl, rfl⟩

end MiniDbms
