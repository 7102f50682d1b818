import MiniDbms.Library.Doubling
import MiniDbms.Storage.Csv
import MiniDbms.Sql.Parser

/-!
# The table files of `storage.c`

Opening, locking and closing a file never fail here, and neither does allocation of a size that an
object can have: what remains is what the source does with the bytes. `none` stands for `FAILURE`.
-/

namespace MiniDbms

/-- `MAX_PATH_LEN` -/
def maxPathLen : Nat := 256

/-- `storage_build_path` -/
def storageBuildPath (tableName : CString) : Option CString :=
  let path := bytes "data/" ++ tableName ++ bytes ".csv"
  if path.length ≥ maxPathLen then none else some path

/-- `storage_table_exists` -/
def storageTableExists (files : Files) (tableName : CString) : Bool :=
  match storageBuildPath tableName with
  | none      => false
  | some path => (files path).isSome

/-- A search for a column by name, without regard to case: `storage_find_column_index` and
`table_find_column_index`. -/
def storageFindColumnIndex (columns : List Identifier) (target : CString) : Option Nat :=
  columns.findIdx? fun c => utilsEqualsIgnoreCase c.val target

/-! ### Reading -/

/-- The test `strchr(line, '\n') == NULL && !feof(fp)` after a line was read. -/
def csvLineTooLong (raw : CString) : Bool :=
  !(cView raw).contains (chr '\n') && !feofAfter csvLineRoom raw

/-- `storage_copy_columns` -/
def storageCopyColumns : List CString → Option (List Identifier)
  | []            => some []
  | name :: names =>
    match utilsSafeStrcpy 63 name with
    | (dest, .success) => (storageCopyColumns names).map (dest :: ·)
    | (_, .failure)    => none

/-- `storage_read_header`: the columns (none for an empty file) and the stream after them. -/
def storageReadHeader (stream : CString) : Option (List Identifier × CString) :=
  if stream.isEmpty then some ([], [])
  else
    let (raw, rest) := fgets csvLineRoom stream
    if csvLineTooLong raw then none
    else do
      let parsed ← storageParseCsvLine (cView raw)
      if parsed.length > maxColumns then none
      else
        let columns ← storageCopyColumns parsed
        return (columns, rest)

/-- What the loops over the rows do with a line before they use it: `none` is an error, `some none`
a line that is skipped. -/
def storageParseRow (colCount : Nat) (raw : CString) : Option (Option (List CString)) :=
  let line := cView raw
  if csvLineTooLong raw then none
  else if line.head? = some (chr '\n') ∨ line.head? = some (chr '\r') then some none
  else
    match storageParseCsvLine line with
    | none        => none
    | some fields => if fields.length ≠ colCount then none else some (some fields)

structure TableData where
  columns : List Identifier
  rows : List (List CString)
  offsets : List Nat
  deriving DecidableEq, Repr

/-- The loop of `storage_load_table_from_fp`, with the offset of the next line; the growth of the
arrays apart. -/
def storageLoadRows (colCount : Nat) : Nat → List CString →
    Option (List (List CString) × List Nat)
  | _, []               => some ([], [])
  | offset, raw :: lines => do
    match ← storageParseRow colCount raw with
    | none        => storageLoadRows colCount (offset + raw.length) lines
    | some fields =>
      let (rows, offsets) ← storageLoadRows colCount (offset + raw.length) lines
      return (fields :: rows, offset :: offsets)

/-- The lines of a stream. -/
def storageLines (stream : CString) : List CString := readLines csvLineRoom stream.length stream

/-- The arrays of the rows and of the offsets, of 8 bytes an element, are found to have room or
grow for each of `count` rows. -/
def rowArrayHolds (count : Nat) : Bool := (reserveSlots 8 0 initialCapacity count).isSome

/-- `storage_load_table_from_fp`. A row that finds no room ends the loop as a line that is no row
does, so that the room may be looked at afterwards. -/
def storageLoadTableFromFp (content : CString) : Option TableData := do
  let (columns, rest) ← storageReadHeader content
  let (rows, offsets) ←
    storageLoadRows columns.length (content.length - rest.length) (storageLines rest)
  if rowArrayHolds rows.length then some ⟨columns, rows, offsets⟩ else none

/-- `storage_load_table` -/
def storageLoadTable (files : Files) (tableName : CString) : Option TableData := do
  let path ← storageBuildPath tableName
  let content ← files path
  storageLoadTableFromFp content

/-! ### Inserting -/

/-- The loop of `storage_validate_primary_key`. -/
def storageCheckUnique (colCount idIndex : Nat) (id : CString) : List CString → Status
  | []           => .success
  | raw :: lines =>
    match storageParseRow colCount raw with
    | none               => .failure
    | some none          => storageCheckUnique colCount idIndex id lines
    | some (some fields) =>
      if strcmp (fields.getD idIndex []) id = 0 then .failure
      else storageCheckUnique colCount idIndex id lines

/-- `storage_validate_primary_key` -/
def storageValidatePrimaryKey (stream : CString) (columns : List Identifier)
    (orderedValues : List CString) : Status :=
  match storageFindColumnIndex columns (bytes "id") with
  | none         => .success
  | some idIndex =>
    let id := orderedValues.getD idIndex []
    if id.isEmpty then .failure
    else storageCheckUnique columns.length idIndex id (storageLines stream)

/-- Arithmetic of `long long`, which wraps around on the platforms the program runs on. -/
def wrapLongLong (n : Int) : Int := n.bmod (2 ^ 64)

/-- The loop of `storage_get_next_auto_id`. -/
def storageNextId (colCount idIndex : Nat) (nextId : Int) : List CString → Option Int
  | []           => some nextId
  | raw :: lines =>
    match storageParseRow colCount raw with
    | none               => none
    | some none          => storageNextId colCount idIndex nextId lines
    | some (some fields) =>
      let id := fields.getD idIndex []
      if utilsIsInteger id then
        let currentId := utilsParseInteger id
        storageNextId colCount idIndex
          (if currentId ≥ nextId then wrapLongLong (currentId + 1) else nextId) lines
      else none

/-- `storage_get_next_auto_id` -/
def storageGetNextAutoId (stream : CString) (columns : List Identifier) : Option CString :=
  match storageFindColumnIndex columns (bytes "id") with
  | none         => none
  | some idIndex =>
    (storageNextId columns.length idIndex 1 (storageLines stream)).map printInt

/-- The branch of `storage_insert` for a new file: the bytes written. -/
def storageInsertNew (stream : CString) (stmt : InsertStatement) : Option CString :=
  let stmtIdIndex := storageFindColumnIndex stmt.columns (bytes "id")
  let stmtValues := stmt.values.map CBuf.val
  if stmtIdIndex = none ∧ stmt.columns.length + 1 > maxColumns then none
  else
    let finalColumns :=
      if stmtIdIndex = none then CBuf.truncate 63 (bytes "id") :: stmt.columns else stmt.columns
    let orderedValues := if stmtIdIndex = none then bytes "1" :: stmtValues else stmtValues
    if storageValidatePrimaryKey stream finalColumns orderedValues = .success then
      some (storageWriteCsvRow (finalColumns.map CBuf.val) ++ storageWriteCsvRow orderedValues)
    else none

/-- The branch of `storage_insert` for a file with a header: the bytes appended. -/
def storageInsertExisting (stream : CString) (existing : List Identifier)
    (stmt : InsertStatement) : Option CString :=
  let existingIdIndex := storageFindColumnIndex existing (bytes "id")
  let stmtIdIndex := storageFindColumnIndex stmt.columns (bytes "id")
  let expected :=
    if existingIdIndex ≠ none ∧ stmtIdIndex = none then stmt.columns.length + 1
    else stmt.columns.length
  let autoIndex := if stmtIdIndex = none then existingIdIndex else none
  if existing.length ≠ expected then none
  else if existing.zipIdx.any fun (c, i) =>
      autoIndex ≠ some i && (storageFindColumnIndex stmt.columns c.val).isNone then none
  else do
    let autoId ← if autoIndex ≠ none then storageGetNextAutoId stream existing else some []
    let orderedValues := existing.zipIdx.map fun (c, i) =>
      if autoIndex = some i then autoId
      else
        match storageFindColumnIndex stmt.columns c.val with
        | none   => []
        | some j => (stmt.values.map CBuf.val).getD j []
    if autoIndex = none ∧
        storageValidatePrimaryKey stream existing orderedValues = .failure then none
    else return storageWriteCsvRow orderedValues

/-- `storage_insert`. The mode `"a+"` creates a missing file and writes at its end. -/
def storageInsert (files : Files) (tableName : CString) (stmt : InsertStatement) :
    Files × Status :=
  match storageBuildPath tableName with
  | none      => (files, .failure)
  | some path =>
    let content := (files path).getD []
    let opened := Function.update files path (some content)
    match storageReadHeader content with
    | none                     => (opened, .failure)
    | some (existing, stream) =>
      let written :=
        if existing.isEmpty then storageInsertNew stream stmt
        else storageInsertExisting stream existing stmt
      match written with
      | none     => (opened, .failure)
      | some row => (Function.update files path (some (content ++ row)), .success)

/-! ### Loading -/

lemma rowArrayHolds_iff {count : Nat} : rowArrayHolds count = true ↔ count ≤ 2 ^ 30 := by
  rw [rowArrayHolds, Option.isSome_iff_ne_none]
  exact reserveSlots_empty_iff (by decide) (by decide) count

/-- A content loads if its header and its rows are read, and the rows are not too many. -/
lemma storageLoadTableFromFp_eq_some {content : CString} {table : TableData} :
    storageLoadTableFromFp content = some table ↔
      ∃ rest, storageReadHeader content = some (table.columns, rest) ∧
        storageLoadRows table.columns.length (content.length - rest.length) (storageLines rest) =
          some (table.rows, table.offsets) ∧ table.rows.length ≤ 2 ^ 30 := by
  constructor
  · intro h
    obtain ⟨⟨columns, rest⟩, hheader, h⟩ := Option.bind_eq_some_iff.mp h
    obtain ⟨⟨rows, offsets⟩, hrows, h⟩ := Option.bind_eq_some_iff.mp h
    dsimp only at hrows h
    split_ifs at h with hroom
    cases h
    exact ⟨rest, hheader, hrows, rowArrayHolds_iff.mp hroom⟩
  · rintro ⟨rest, hheader, hrows, hroom⟩
    rw [storageLoadTableFromFp, hheader, Option.bind_eq_bind, Option.bind_some]
    dsimp only
    rw [hrows, Option.bind_eq_bind, Option.bind_some]
    exact if_pos (rowArrayHolds_iff.mpr hroom)

end MiniDbms
