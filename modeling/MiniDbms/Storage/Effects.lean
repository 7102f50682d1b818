import MiniDbms.Storage.TableText

/-!
# What `storage_insert` and `storage_delete` make of the bytes of a file

An insertion appends to the file; a deletion writes a copy without the rows that match. For a file
that was written as a table, both give a table again: a row more, or the rows that do not match.
-/

namespace MiniDbms

/-! ### Inserting -/

/-- What `storage_insert` appends to a file. -/
def storageInsertText (content : CString) (stmt : InsertStatement) : Option CString := do
  let (existing, stream) ← storageReadHeader content
  if existing.isEmpty then storageInsertNew stream stmt
  else storageInsertExisting stream existing stmt

/-- `storage_insert` opens the file, which it creates if there is none, and appends to it. -/
lemma storageInsert_eq {tableName path : CString} (h : storageBuildPath tableName = some path)
    (files : Files) (stmt : InsertStatement) :
    storageInsert files tableName stmt =
      match storageInsertText ((files path).getD []) stmt with
      | none      => (Function.update files path (some ((files path).getD [])), .failure)
      | some text =>
        (Function.update files path (some ((files path).getD [] ++ text)), .success) := by
  unfold storageInsert storageInsertText
  rw [h]
  dsimp only
  cases storageReadHeader ((files path).getD []) with
  | none => rfl
  | some header =>
    obtain ⟨existing, stream⟩ := header
    cases hwritten : (if existing.isEmpty = true then storageInsertNew stream stmt
      else storageInsertExisting stream existing stmt) with
    | none => simp only [Option.bind_eq_bind, Option.bind_some, hwritten]
    | some row => simp only [Option.bind_eq_bind, Option.bind_some, hwritten]

/-- The value a statement gives to a column, found by name. -/
def InsertStatement.valueFor (stmt : InsertStatement) (column : Identifier) : CString :=
  match storageFindColumnIndex stmt.columns column.val with
  | none   => []
  | some j => (stmt.values.map CBuf.val).getD j []

/-- The column that `storage_insert` fills by itself: the id column of the file, if the statement
does not name one. -/
def storageAutoIndex (existing : List Identifier) (stmt : InsertStatement) : Option Nat :=
  if storageFindColumnIndex stmt.columns (bytes "id") = none then
    storageFindColumnIndex existing (bytes "id")
  else none

/-- The row that `storage_insert` writes into a file with these columns. -/
def storageExistingValues (stream : CString) (existing : List Identifier) (stmt : InsertStatement) :
    List CString :=
  existing.zipIdx.map fun p =>
    if storageAutoIndex existing stmt = some p.2 then
      (storageGetNextAutoId stream existing).getD []
    else stmt.valueFor p.1

/-- The names and the row that `storage_insert` writes into an empty file. -/
def storageNewNames (stmt : InsertStatement) : List CString :=
  if storageFindColumnIndex stmt.columns (bytes "id") = none then
    bytes "id" :: stmt.columns.map CBuf.val
  else stmt.columns.map CBuf.val

def storageNewValues (stmt : InsertStatement) : List CString :=
  if storageFindColumnIndex stmt.columns (bytes "id") = none then
    bytes "1" :: stmt.values.map CBuf.val
  else stmt.values.map CBuf.val

/-- The row that `storage_insert` writes into a file. -/
def storageInsertValues (content : CString) (stmt : InsertStatement) : List CString :=
  match storageReadHeader content with
  | none                    => []
  | some (existing, stream) =>
    if existing.isEmpty then storageNewValues stmt else storageExistingValues stream existing stmt

/-- A valid row has an id. -/
lemma storageValidatePrimaryKey_success {stream : CString} {columns : List Identifier}
    {values : List CString} (h : storageValidatePrimaryKey stream columns values = .success)
    {i : Nat} (hi : storageFindColumnIndex columns (bytes "id") = some i) :
    values.getD i [] ≠ [] := by
  intro hnil
  rw [storageValidatePrimaryKey, hi] at h
  dsimp only at h
  rw [hnil, if_pos List.isEmpty_nil] at h
  cases h

lemma storageInsertNew_some {stream text : CString} {stmt : InsertStatement}
    (h : storageInsertNew stream stmt = some text) :
    text = storageWriteCsvRow (storageNewNames stmt) ++ storageWriteCsvRow (storageNewValues stmt) ∧
      ∀ i, storageFindColumnIndex stmt.columns (bytes "id") = some i →
        (storageNewValues stmt).getD i [] ≠ [] := by
  unfold storageInsertNew at h
  dsimp only at h
  split_ifs at h with hmany hid hvalid hvalid
  · obtain rfl := Option.some.inj h
    refine ⟨?_, ?_⟩
    · rw [storageNewNames, storageNewValues, if_pos hid, if_pos hid]
      rfl
    · intro i hi
      rw [hid] at hi
      cases hi
  · obtain rfl := Option.some.inj h
    refine ⟨?_, ?_⟩
    · rw [storageNewNames, storageNewValues, if_neg hid, if_neg hid]
    · intro i hi
      rw [storageNewValues, if_neg hid]
      exact storageValidatePrimaryKey_success hvalid hi

/-- The row as `storage_insert` builds it, with the id that it has got if it needs one. -/
lemma storageExistingValues_of_autoId {stream autoId : CString} {existing : List Identifier}
    {stmt : InsertStatement} (hid : storageAutoIndex existing stmt ≠ none →
      storageGetNextAutoId stream existing = some autoId) :
    (existing.zipIdx.map fun p => if storageAutoIndex existing stmt = some p.2 then autoId
      else stmt.valueFor p.1) = storageExistingValues stream existing stmt := by
  apply List.map_congr_left
  rintro ⟨c, i⟩ -
  dsimp only
  split_ifs with hi
  · rw [hid (by simp [hi]), Option.getD_some]
  · rfl

lemma storageInsertExisting_some {stream text : CString} {existing : List Identifier}
    {stmt : InsertStatement} (h : storageInsertExisting stream existing stmt = some text) :
    text = storageWriteCsvRow (storageExistingValues stream existing stmt) ∧
      (storageAutoIndex existing stmt ≠ none →
        (storageGetNextAutoId stream existing).isSome = true) ∧
      (storageAutoIndex existing stmt = none →
        storageValidatePrimaryKey stream existing (storageExistingValues stream existing stmt) =
          .success) ∧
      ∀ c i, (c, i) ∈ existing.zipIdx → storageAutoIndex existing stmt ≠ some i →
        storageFindColumnIndex stmt.columns c.val ≠ none := by
  have hauto : (if storageFindColumnIndex stmt.columns (bytes "id") = none then
      storageFindColumnIndex existing (bytes "id") else none) = storageAutoIndex existing stmt := rfl
  unfold storageInsertExisting at h
  dsimp only at h
  rw [hauto] at h
  generalize (if storageFindColumnIndex existing (bytes "id") ≠ none ∧
    storageFindColumnIndex stmt.columns (bytes "id") = none then stmt.columns.length + 1
    else stmt.columns.length) = expected at h
  by_cases hcount : existing.length ≠ expected
  · rw [if_pos hcount] at h
    cases h
  rw [if_neg hcount] at h
  by_cases hmissing : (existing.zipIdx.any fun p => storageAutoIndex existing stmt ≠ some p.2 &&
      (storageFindColumnIndex stmt.columns p.1.val).isNone) = true
  · rw [if_pos hmissing] at h
    cases h
  rw [if_neg hmissing] at h
  have hfound : ∀ c i, (c, i) ∈ existing.zipIdx → storageAutoIndex existing stmt ≠ some i →
      storageFindColumnIndex stmt.columns c.val ≠ none := by
    intro c i hmem hne hnone
    apply hmissing
    rw [List.any_eq_true]
    exact ⟨(c, i), hmem, by simp [hne, hnone]⟩
  by_cases hnone : storageAutoIndex existing stmt = none
  · rw [if_neg (by simpa using hnone), Option.bind_eq_bind, Option.bind_some] at h
    have hrow := @storageExistingValues_of_autoId stream [] _ _ fun hne => absurd hnone hne
    by_cases hvalid : storageValidatePrimaryKey stream existing
        (storageExistingValues stream existing stmt) = .failure
    · rw [← hrow] at hvalid
      rw [if_pos ⟨hnone, hvalid⟩] at h
      cases h
    · rw [← hrow] at hvalid
      rw [if_neg fun hboth => hvalid hboth.2] at h
      rw [hrow] at hvalid
      refine ⟨?_, fun hne => absurd hnone hne, fun _ => Status.eq_success hvalid, hfound⟩
      rw [← hrow]
      exact (Option.some.inj h).symm
  · rw [if_pos hnone, Option.bind_eq_bind, Option.bind_eq_some_iff] at h
    obtain ⟨autoId, hid, h⟩ := h
    rw [if_neg fun hboth => hnone hboth.1] at h
    refine ⟨?_, fun _ => by simp [hid], fun heq => absurd heq hnone, hfound⟩
    rw [← storageExistingValues_of_autoId fun _ => hid]
    exact (Option.some.inj h).symm

lemma storageReadHeader_nil_iff {content stream : CString} {columns : List Identifier}
    (h : storageReadHeader content = some (columns, stream)) : columns = [] ↔ content = [] := by
  constructor
  · rintro rfl
    by_contra hne
    rw [storageReadHeader, if_neg (by simpa using hne)] at h
    dsimp only at h
    split_ifs at h
    rw [Option.bind_eq_bind, Option.bind_eq_some_iff] at h
    obtain ⟨parsed, hparsed, h⟩ := h
    split_ifs at h
    rw [Option.bind_eq_bind, Option.bind_eq_some_iff] at h
    obtain ⟨columns', hcopy, ⟨⟩⟩ := h
    have hlen := storageCopyColumns_length hcopy
    rw [List.length_nil, eq_comm, List.length_eq_zero_iff] at hlen
    exact csvScan_ne_nil hparsed hlen
  · rintro rfl
    cases h
    rfl

/-- A column is found by its name up to case. -/
lemma storageFindColumnIndex_congr {target target' : CString}
    (h : utilsEqualsIgnoreCase target target' = true) (columns : List Identifier) :
    storageFindColumnIndex columns target = storageFindColumnIndex columns target' := by
  rw [utilsEqualsIgnoreCase_iff] at h
  rw [storageFindColumnIndex, storageFindColumnIndex]
  congr 1
  funext c
  rw [Bool.eq_iff_iff, utilsEqualsIgnoreCase_iff, utilsEqualsIgnoreCase_iff, h]

/-- One of the names is that of the id column. -/
def HasId (names : List CString) : Prop :=
  ∃ name ∈ names, utilsEqualsIgnoreCase name (bytes "id") = true

lemma HasId.find {columns : List Identifier} (h : HasId (columns.map CBuf.val)) :
    ∃ i, i < columns.length ∧ storageFindColumnIndex columns (bytes "id") = some i := by
  cases hfind : storageFindColumnIndex columns (bytes "id") with
  | none =>
    obtain ⟨name, hmem, hid⟩ := h
    obtain ⟨c, hc, rfl⟩ := List.mem_map.mp hmem
    rw [List.findIdx?_eq_none_iff.mp hfind c hc] at hid
    cases hid
  | some i => exact ⟨i, (List.findIdx?_eq_some_iff_getElem.mp hfind).1, rfl⟩

lemma hasId_of_find {columns : List Identifier} {i : Nat}
    (h : storageFindColumnIndex columns (bytes "id") = some i) : HasId (columns.map CBuf.val) := by
  obtain ⟨hlt, hid, -⟩ := List.findIdx?_eq_some_iff_getElem.mp h
  exact ⟨_, List.mem_map_of_mem (List.getElem_mem hlt), hid⟩

/-- A row with a value somewhere is not written as an empty line. -/
lemma ne_blank_of_getD {values : List CString} {i : Nat} (h : values.getD i [] ≠ []) :
    values ≠ [[]] := by
  rintro rfl
  cases i with
  | zero => exact h rfl
  | succ i => exact h rfl

lemma nul_notMem_value {stmt : InsertStatement} : ∀ v ∈ stmt.values.map CBuf.val, 0 ∉ v := by
  intro v hv
  obtain ⟨value, -, rfl⟩ := List.mem_map.mp hv
  exact value.property.2

lemma nul_notMem_printInt (n : Int) : 0 ∉ printInt n := by
  intro hmem
  have hdigits : (0 : Byte) ∉ natDigits n.natAbs := by
    intro h0
    exact absurd (isdigit_of_mem_natDigits 0 h0) (by decide)
  unfold printInt at hmem
  split_ifs at hmem
  · rcases List.mem_cons.mp hmem with h0 | h0
    · exact absurd h0 (by decide)
    · exact hdigits h0
  · exact hdigits hmem

lemma nul_notMem_valueFor (stmt : InsertStatement) (c : Identifier) : 0 ∉ stmt.valueFor c := by
  unfold InsertStatement.valueFor
  split
  · exact List.not_mem_nil
  · rename_i j _
    rw [List.getD_eq_getElem?_getD]
    cases hget : (stmt.values.map CBuf.val)[j]? with
    | none => exact List.not_mem_nil
    | some v => exact nul_notMem_value v (List.mem_of_getElem? hget)

lemma storageGetNextAutoId_some {stream autoId : CString} {columns : List Identifier}
    (h : storageGetNextAutoId stream columns = some autoId) :
    ∃ i n, storageFindColumnIndex columns (bytes "id") = some i ∧
      storageNextId columns.length i 1 (storageLines stream) = some n ∧ autoId = printInt n := by
  unfold storageGetNextAutoId at h
  cases hfind : storageFindColumnIndex columns (bytes "id") with
  | none =>
    rw [hfind] at h
    cases h
  | some i =>
    rw [hfind] at h
    obtain ⟨n, hn, rfl⟩ := Option.map_eq_some_iff.mp h
    exact ⟨i, n, rfl, hn, rfl⟩

lemma storageGetNextAutoId_ne_nil {stream autoId : CString} {columns : List Identifier}
    (h : storageGetNextAutoId stream columns = some autoId) : autoId ≠ [] := by
  obtain ⟨i, n, -, -, rfl⟩ := storageGetNextAutoId_some h
  unfold printInt
  split_ifs
  · exact List.cons_ne_nil _ _
  · exact natDigits_ne_nil _

/-- The id column of a row that does not name it has the new id. -/
lemma storageExistingValues_auto {stream : CString} {existing : List Identifier}
    {stmt : InsertStatement} {i : Nat} (hlt : i < existing.length)
    (hauto : storageAutoIndex existing stmt = some i) :
    (storageExistingValues stream existing stmt).getD i [] =
      (storageGetNextAutoId stream existing).getD [] := by
  have hlen : i < (storageExistingValues stream existing stmt).length := by
    simpa [storageExistingValues] using hlt
  rw [List.getD_eq_getElem _ _ hlen]
  simp [storageExistingValues, hauto]

lemma nul_notMem_storageExistingValues {stream : CString} {existing : List Identifier}
    {stmt : InsertStatement} : ∀ v ∈ storageExistingValues stream existing stmt, 0 ∉ v := by
  intro v hv
  obtain ⟨⟨c, i⟩, -, rfl⟩ := List.mem_map.mp hv
  dsimp only
  split_ifs
  · cases hid : storageGetNextAutoId stream existing with
    | none => exact List.not_mem_nil
    | some autoId =>
      obtain ⟨_, n, -, -, rfl⟩ := storageGetNextAutoId_some hid
      exact nul_notMem_printInt n
  · exact nul_notMem_valueFor stmt c

/-- What an insertion into an empty file makes of it. -/
lemma storageInsertText_nil {stmt : InsertStatement} {text : CString}
    (h : storageInsertText [] stmt = some text) :
    text = tableText (storageNewNames stmt) [storageInsertValues [] stmt] ∧
      IsRow (storageNewNames stmt) ∧ HasId (storageNewNames stmt) ∧
      IsRow (storageInsertValues [] stmt) ∧ storageInsertValues [] stmt ≠ [[]] := by
  have hvalues : storageInsertValues [] stmt = storageNewValues stmt := rfl
  obtain ⟨htext, hid⟩ := @storageInsertNew_some [] _ _ h
  rw [hvalues, tableText, htext]
  refine ⟨by simp, ?_⟩
  have hnames : ∀ v ∈ stmt.columns.map CBuf.val, 0 ∉ v := by
    intro v hv
    obtain ⟨c, -, rfl⟩ := List.mem_map.mp hv
    exact c.property.2
  have hlen := stmt.values_length
  unfold storageNewNames storageNewValues at *
  cases hfind : storageFindColumnIndex stmt.columns (bytes "id") with
  | none =>
    rw [if_pos rfl, if_pos rfl]
    refine ⟨⟨by simp, List.forall_mem_cons.mpr ⟨by decide, hnames⟩⟩, ⟨bytes "id", by simp, rfl⟩,
      ⟨by simp, List.forall_mem_cons.mpr ⟨by decide, nul_notMem_value⟩⟩, ?_⟩
    intro heq
    exact absurd (List.cons_eq_cons.mp heq).1 (by decide)
  | some i =>
    have hvalue := hid i hfind
    obtain ⟨hlt, -⟩ := List.findIdx?_eq_some_iff_getElem.mp hfind
    rw [hfind] at hvalue
    rw [if_neg (by simp), if_neg (by simp)]
    rw [if_neg (by simp)] at hvalue
    refine ⟨⟨?_, hnames⟩, hasId_of_find hfind, ⟨?_, nul_notMem_value⟩, ne_blank_of_getD hvalue⟩
    · exact List.ne_nil_of_length_pos (by rw [List.length_map]; omega)
    · exact List.ne_nil_of_length_pos (by rw [List.length_map]; omega)

/-- The row that is put behind a header. It is no empty line if there is an id, and a column without
a name takes a statement that names none. -/
lemma storageInsertExisting_row {stream text : CString} {existing : List Identifier}
    {stmt : InsertStatement} (hne : existing ≠ [])
    (h : storageInsertExisting stream existing stmt = some text) :
    text = storageWriteCsvRow (storageExistingValues stream existing stmt) ∧
      IsRow (storageExistingValues stream existing stmt) ∧
      (HasId (existing.map CBuf.val) → storageExistingValues stream existing stmt ≠ [[]]) ∧
      (existing.map CBuf.val = [[]] → ∃ c ∈ stmt.columns, c.val = []) := by
  obtain ⟨htext, hauto, hvalid, hfound⟩ := storageInsertExisting_some h
  refine ⟨htext, ⟨?_, nul_notMem_storageExistingValues⟩, ?_, ?_⟩
  · simpa [storageExistingValues] using hne
  · intro hid
    obtain ⟨i, hlt, hfind⟩ := hid.find
    apply ne_blank_of_getD (i := i)
    cases hindex : storageAutoIndex existing stmt with
    | none => exact storageValidatePrimaryKey_success (hvalid hindex) hfind
    | some k =>
      rw [storageAutoIndex, hfind] at hindex
      split_ifs at hindex with hnone
      obtain rfl : i = k := Option.some.inj hindex
      obtain ⟨autoId, hautoId⟩ := Option.isSome_iff_exists.mp
        (hauto (by simp [storageAutoIndex, hfind, hnone]))
      rw [storageExistingValues_auto hlt (by simp [storageAutoIndex, hfind, hnone]), hautoId]
      exact storageGetNextAutoId_ne_nil hautoId
  · intro hblank
    obtain ⟨c, hc⟩ : ∃ c, existing = [c] := by
      apply List.length_eq_one_iff.mp
      simpa using congrArg List.length hblank
    subst hc
    have hval : c.val = [] := by simpa using hblank
    have hauto : storageAutoIndex [c] stmt ≠ some 0 := by
      have hnone : storageFindColumnIndex [c] (bytes "id") = none := by
        simp +decide [storageFindColumnIndex, hval, utilsEqualsIgnoreCase]
      simp [storageAutoIndex, hnone]
    obtain ⟨j, hj⟩ := Option.ne_none_iff_exists'.mp (hfound c 0 (by simp) hauto)
    obtain ⟨hlt, heq, -⟩ := List.findIdx?_eq_some_iff_getElem.mp hj
    refine ⟨_, List.getElem_mem hlt, ?_⟩
    rw [hval, utilsEqualsIgnoreCase_iff] at heq
    simpa using heq

/-- An insertion into a file that is not empty works with the columns of its header. -/
lemma storageInsertText_some {content text : CString} {stmt : InsertStatement}
    (hne : content ≠ []) (h : storageInsertText content stmt = some text) :
    ∃ existing stream, storageReadHeader content = some (existing, stream) ∧ existing ≠ [] ∧
      storageInsertExisting stream existing stmt = some text ∧
      storageInsertValues content stmt = storageExistingValues stream existing stmt := by
  rw [storageInsertText, Option.bind_eq_bind, Option.bind_eq_some_iff] at h
  obtain ⟨⟨existing, stream⟩, hheader, h⟩ := h
  have hexisting : existing ≠ [] := (storageReadHeader_nil_iff hheader).not.mpr hne
  have hempty : existing.isEmpty = false := by simpa using hexisting
  dsimp only at h
  rw [hempty, if_neg (by simp)] at h
  refine ⟨existing, stream, hheader, hexisting, h, ?_⟩
  rw [storageInsertValues, hheader]
  simp [hempty]

/-- An insertion into a written table works with the names of its header. -/
lemma storageInsertText_header {names : List CString} (hnames : IsRow names)
    {rows : List (List CString)} {stmt : InsertStatement} {text : CString}
    (h : storageInsertText (tableText names rows) stmt = some text) :
    ∃ existing, existing.map CBuf.val = names ∧
      storageInsertExisting (rows.map storageWriteCsvRow).flatten existing stmt = some text ∧
      storageInsertValues (tableText names rows) stmt =
        storageExistingValues (rows.map storageWriteCsvRow).flatten existing stmt := by
  have hne : tableText names rows ≠ [] := by simp [tableText, storageWriteCsvRow]
  obtain ⟨existing, stream, hheader, -, h, hvalues⟩ := storageInsertText_some hne h
  obtain ⟨rfl, rfl⟩ := storageReadHeader_written hnames hheader
  exact ⟨existing, rfl, h, hvalues⟩

/-! ### Deleting -/

/-- `storage_compare_with_operator`, `none` being `FAILURE`. -/
def storageCompareWithOperator (lhs op rhs : CString) : Option Bool :=
  let comparison := utilsCompareValues lhs rhs
  if strcmp op (bytes "=") = 0 then some (comparison = 0)
  else if strcmp op (bytes "!=") = 0 then some (comparison ≠ 0)
  else if strcmp op (bytes ">") = 0 then some (comparison > 0)
  else if strcmp op (bytes "<") = 0 then some (comparison < 0)
  else if strcmp op (bytes ">=") = 0 then some (comparison ≥ 0)
  else if strcmp op (bytes "<=") = 0 then some (comparison ≤ 0)
  else none

/-- `storage_row_matches_where`, `none` being `FAILURE`. -/
def storageRowMatchesWhere (row : List CString) (columns : List Identifier) (w : WhereClause) :
    Option Bool := do
  let columnIndex ← storageFindColumnIndex columns w.column.val
  storageCompareWithOperator (row.getD columnIndex []) w.op.val w.value.val

/-- Whether `storage_delete` deletes a row; without `WHERE` it deletes every row. -/
def storageDeleteMatches (stmt : DeleteStatement) (columns : List Identifier)
    (row : List CString) : Option Bool :=
  match stmt.whereClause with
  | none   => some true
  | some w => storageRowMatchesWhere row columns w

/-- The loop of `storage_delete`: the rows written, the count of the others, and the status. -/
def storageDeleteRows (stmt : DeleteStatement) (columns : List Identifier) :
    List (List CString) → CString × Int × Status
  | []          => ([], 0, .success)
  | row :: rows =>
    match storageDeleteMatches stmt columns row with
    | none       => ([], 0, .failure)
    | some true  =>
      let (text, deletedCount, status) := storageDeleteRows stmt columns rows
      (text, deletedCount + 1, status)
    | some false =>
      let (text, deletedCount, status) := storageDeleteRows stmt columns rows
      (storageWriteCsvRow row ++ text, deletedCount, status)

/-- What `storage_delete` writes into the temporary file. -/
def storageDeleteText (stmt : DeleteStatement) (table : TableData) : CString × Int × Status :=
  let (text, deletedCount, status) := storageDeleteRows stmt table.columns table.rows
  (storageWriteCsvRow (table.columns.map CBuf.val) ++ text, deletedCount, status)

/-- The rows that a completed deletion leaves. -/
lemma storageDeleteRows_success {stmt : DeleteStatement} {columns : List Identifier}
    {rows : List (List CString)} (h : (storageDeleteRows stmt columns rows).2.2 = .success) :
    (storageDeleteRows stmt columns rows).1 =
      ((rows.filter fun row => storageDeleteMatches stmt columns row ≠ some true).map
        storageWriteCsvRow).flatten := by
  induction rows with
  | nil => rfl
  | cons row rows ih =>
    rw [storageDeleteRows] at h ⊢
    cases hmatch : storageDeleteMatches stmt columns row with
    | none =>
      rw [hmatch] at h
      cases h
    | some deleted =>
      rw [hmatch] at h
      cases deleted with
      | true =>
        rw [List.filter_cons_of_neg (by simp [hmatch])]
        exact ih h
      | false =>
        rw [List.filter_cons_of_pos (by simp [hmatch]), List.map_cons, List.flatten_cons, ← ih h]

/-- A completed deletion of a written table writes the table of the rows that do not match. -/
lemma storageDeleteText_success {stmt : DeleteStatement} {table : TableData}
    (h : (storageDeleteText stmt table).2.2 = .success) :
    (storageDeleteText stmt table).1 = tableText (table.columns.map CBuf.val)
      (table.rows.filter fun row => storageDeleteMatches stmt table.columns row ≠ some true) :=
  congrArg (storageWriteCsvRow (table.columns.map CBuf.val) ++ ·) (storageDeleteRows_success h)

end MiniDbms
