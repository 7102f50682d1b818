import MiniDbms.Storage.Basic
import MiniDbms.BPTree.Basic

/-!
# The runtime table of `table_runtime.c`

`columns` is the used part `columns[0 .. col_count)` and `rows` the used part
`rows[0 .. row_count)`. The static `table_runtime_active` is an `Option`: `none` while
`table_runtime_has_active` is not set. Allocation succeeds for every size an object can have.
-/

namespace MiniDbms

structure TableRuntime where
  tableName : Identifier
  columns : List Identifier
  rows : List (List CString)
  capacity : Int
  idColumnIndex : Nat
  nextId : Int
  idIndex : BPTree
  loaded : Bool
  deriving DecidableEq, Repr

/-- The bytes of `count` pointers, `count` having been converted to `size_t`. -/
def pointerArraySize (count : Int) : Int := (count % 2 ^ 64) * 8 % 2 ^ 64

/-- `table_init` -/
def tableInit : TableRuntime := ⟨.empty, [], [], 0, 0, 1, .null, false⟩

/-- `table_free` -/
def tableFree (_ : TableRuntime) : TableRuntime := tableInit

/-- `table_set_active_name`; the name is truncated even on failure. -/
def tableSetActiveName (table : TableRuntime) (tableName : CString) : TableRuntime × Status :=
  ({ table with tableName := (utilsSafeStrcpy 63 tableName).1 }, (utilsSafeStrcpy 63 tableName).2)

/-- `table_reset_as_unloaded` -/
def tableResetAsUnloaded (table : TableRuntime) (tableName : CString) : TableRuntime × Status :=
  tableSetActiveName (tableFree table) tableName

/-- The new capacity in `table_reserve_if_needed`; `INITIAL_ROW_CAPACITY` is 16. -/
def grownCapacity (capacity : Int) : Int := if capacity = 0 then 16 else wrapInt (capacity * 2)

/-- `table_reserve_if_needed` -/
def tableReserveIfNeeded (table : TableRuntime) : TableRuntime × Status :=
  if (table.rows.length : Int) < table.capacity then (table, .success)
  else
    let newCapacity := grownCapacity table.capacity
    if pointerArraySize newCapacity > maxObjectSize then (table, .failure)
    else ({ table with capacity := newCapacity }, .success)

/-! ### Loading -/

/-- `table_copy_schema_from_storage`, `none` being `FAILURE`. -/
def tableCopySchemaFromStorage (table : TableRuntime) (loaded : TableData) :
    Option TableRuntime :=
  if loaded.columns.length = 0 ∨ loaded.columns.length > maxColumns then none
  else
    match storageFindColumnIndex loaded.columns (bytes "id") with
    | none       => none
    | some index =>
      some { table with columns := loaded.columns, idColumnIndex := index, loaded := true }

/-- The text of the id of a row. -/
def TableRuntime.idText (table : TableRuntime) (row : List CString) : CString :=
  row.getD table.idColumnIndex []

/-- One round of the loop of `table_load_from_storage_if_needed`. -/
def tableLoadRow (table : TableRuntime) (row : List CString) : Option TableRuntime :=
  match tableReserveIfNeeded table with
  | (_, .failure)     => none
  | (table, .success) =>
    if utilsIsInteger (table.idText row) then
      let parsedId := utilsParseInteger (table.idText row)
      if parsedId < 0 ∨ parsedId > intMax then none
      else
        match bptreeInsert table.idIndex parsedId table.rows.length with
        | (_, .failure)       => none
        | (idIndex, .success) =>
          some { table with
            rows := table.rows ++ [row]
            idIndex := idIndex
            nextId := if parsedId ≥ table.nextId then parsedId + 1 else table.nextId }
    else none

/-- The loop of `table_load_from_storage_if_needed`. -/
def tableLoadRows (table : TableRuntime) : List (List CString) → Option TableRuntime
  | []          => some table
  | row :: rows => (tableLoadRow table row).bind fun table => tableLoadRows table rows

/-- `table_load_from_storage_if_needed` -/
def tableLoadFromStorageIfNeeded (files : Files) (table : TableRuntime) (tableName : CString) :
    TableRuntime × Status :=
  if table.loaded then (table, .success)
  else
    let (table, named) :=
      if table.tableName.val.isEmpty then tableSetActiveName table tableName else (table, .success)
    if named = .failure then (table, .failure)
    else if !utilsEqualsIgnoreCase table.tableName.val tableName then (table, .failure)
    else if !storageTableExists files tableName then (table, .success)
    else
      match storageLoadTable files tableName with
      | none        => (table, .failure)
      | some loaded =>
        let (table, named) := tableResetAsUnloaded table tableName
        if named = .failure then (table, .failure)
        else
          match (tableCopySchemaFromStorage table loaded).bind
              fun table => tableLoadRows table loaded.rows with
          | none       => ((tableResetAsUnloaded table tableName).1, .failure)
          | some table => (table, .success)

/-- `table_get_or_load`: the active table afterwards; `FAILURE` is a `NULL` result. -/
def tableGetOrLoad (active : Option TableRuntime) (tableName : CString) : TableRuntime × Status :=
  let table := active.getD tableInit
  if !table.tableName.val.isEmpty && utilsEqualsIgnoreCase table.tableName.val tableName then
    (table, .success)
  else tableSetActiveName (tableFree table) tableName

/-- `table_runtime_is_loaded_for` -/
def tableRuntimeIsLoadedFor (active : Option TableRuntime) (tableName : CString) : Bool :=
  match active with
  | none       => false
  | some table => table.loaded && !table.tableName.val.isEmpty &&
      utilsEqualsIgnoreCase table.tableName.val tableName

/-! ### Inserting -/

/-- `table_validate_insert_schema` -/
def tableValidateInsertSchema (table : TableRuntime) (stmt : InsertStatement) : Status :=
  if stmt.columns.length = 0 ∨ stmt.columns.length + 1 ≠ table.columns.length then .failure
  else if ((table.columns.drop 1).zip stmt.columns).all fun (c, name) =>
      utilsEqualsIgnoreCase c.val name.val then .success
  else .failure

/-- The loop of `table_initialize_schema`: the names copied, and whether all were. -/
def tableCopyInsertColumns : List Identifier → List Identifier × Status
  | []           => ([], .success)
  | name :: names =>
    if utilsEqualsIgnoreCase name.val (bytes "id") then ([], .failure)
    else ((name :: (tableCopyInsertColumns names).1), (tableCopyInsertColumns names).2)

/-- `table_initialize_schema`. When it fails half-way, the names copied so far stay in the slots of
a table that is not loaded, where nothing reads them. -/
def tableInitializeSchema (table : TableRuntime) (stmt : InsertStatement) :
    TableRuntime × Status :=
  if stmt.columns.length = 0 ∨ stmt.columns.length + 1 > maxColumns then (table, .failure)
  else
    match tableCopyInsertColumns stmt.columns with
    | (names, .failure) =>
      ({ table with columns := .truncate 63 (bytes "id") :: names }, .failure)
    | (names, .success) =>
      ({ table with
          columns := .truncate 63 (bytes "id") :: names, idColumnIndex := 0, loaded := true },
       .success)

/-- `table_build_row` -/
def tableBuildRow (stmt : InsertStatement) (nextId : Int) : List CString :=
  printInt nextId :: stmt.values.map CBuf.val

/-- The part of `table_insert_row` that sets or checks the schema. -/
def tablePrepareSchema (table : TableRuntime) (stmt : InsertStatement) : TableRuntime × Status :=
  if table.loaded then (table, tableValidateInsertSchema table stmt)
  else tableInitializeSchema table stmt

/-- The part of `table_insert_row` that puts the row into memory. -/
def tableAppendRow (table : TableRuntime) (stmt : InsertStatement) : TableRuntime × Status :=
  match tableReserveIfNeeded table with
  | (table, .failure) => (table, .failure)
  | (table, .success) =>
    if table.nextId > intMax then (table, .failure)
    else
      match bptreeInsert table.idIndex table.nextId table.rows.length with
      | (idIndex, .failure) => ({ table with idIndex := idIndex }, .failure)
      | (idIndex, .success) =>
        ({ table with
            rows := table.rows ++ [tableBuildRow stmt table.nextId]
            idIndex := idIndex
            nextId := table.nextId + 1 }, .success)

/-- The rollback of `table_insert_row` after `storage_insert` has failed. -/
def tableRollback (files : Files) (table : TableRuntime) (stmt : InsertStatement) : TableRuntime :=
  (tableLoadFromStorageIfNeeded files (tableResetAsUnloaded table stmt.tableName.val).1
    stmt.tableName.val).1

/-- `table_insert_row` once the schema is set: the row goes to memory, then to the file. -/
def tableStoreRow (files : Files) (table : TableRuntime) (stmt : InsertStatement) :
    Files × TableRuntime × Option Nat :=
  match tableAppendRow table stmt with
  | (table, .failure) => (files, table, none)
  | (table, .success) =>
    match storageInsert files table.tableName.val stmt with
    | (files, .failure) => (files, tableRollback files table stmt, none)
    | (files, .success) => (files, table, some (table.rows.length - 1))

/-- `table_insert_row` once the table was loaded from storage or found to have no file. -/
def tableInsertLoaded (files : Files) (table : TableRuntime) (stmt : InsertStatement) :
    Files × TableRuntime × Option Nat :=
  match tablePrepareSchema table stmt with
  | (table, .failure) => (files, table, none)
  | (table, .success) => tableStoreRow files table stmt

/-- `table_insert_row`; `out_row_index` is set on success. -/
def tableInsertRow (files : Files) (table : TableRuntime) (stmt : InsertStatement) :
    Files × TableRuntime × Option Nat :=
  let name := stmt.tableName.val
  let (table, named) :=
    if table.tableName.val.isEmpty then tableSetActiveName table name else (table, .success)
  if named = .failure then (files, table, none)
  else if !utilsEqualsIgnoreCase table.tableName.val name then (files, table, none)
  else
    match tableLoadFromStorageIfNeeded files table name with
    | (table, .failure) => (files, table, none)
    | (table, .success) => tableInsertLoaded files table stmt

end MiniDbms
