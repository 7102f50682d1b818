import MiniDbms.Runtime.Load
import MiniDbms.Storage.Effects

/-!
# What `storage_insert` does to the file of a table

For a statement that fits the table in memory there are two cases. A statement that names the id
column itself is refused. Any other one is given the next id of the table, and its values are put
into the order of the header by name.
-/

namespace MiniDbms

/-! ### Paths -/

/-- The path of a table file. -/
def tablePath (name : Identifier) : CString := bytes "data/" ++ name.val ++ bytes ".csv"

/-- Every name fits the buffer for the path. -/
lemma storageBuildPath_val (name : Identifier) :
    storageBuildPath name.val = some (tablePath name) := by
  have hname := name.2.1
  have hlen : (tablePath name).length < maxPathLen := by
    have hdata : (bytes "data/").length = 5 := by decide
    have hcsv : (bytes ".csv").length = 4 := by decide
    rw [tablePath, List.length_append, List.length_append, hdata, hcsv, maxPathLen]
    omega
  exact if_neg (Nat.not_le.mpr hlen)

lemma tablePath_injective : Function.Injective tablePath := by
  intro name name' h
  have hval : name.val = name'.val := List.append_cancel_left (List.append_cancel_right h)
  cases name
  cases name'
  cases hval
  rfl

/-! ### Statements that fit a table -/

lemma tableValidateInsertSchema_success {t : TableRuntime} {stmt : InsertStatement}
    (h : tableValidateInsertSchema t stmt = .success) :
    stmt.columns ≠ [] ∧ stmt.columns.length + 1 = t.columns.length ∧
      ∀ i c n, t.columns[i + 1]? = some c → stmt.columns[i]? = some n →
        utilsEqualsIgnoreCase c.val n.val = true := by
  unfold tableValidateInsertSchema at h
  split_ifs at h with hcount hall
  rw [not_or] at hcount
  refine ⟨fun hnil => hcount.1 (by simp [hnil]), by omega, fun i c n hc hn => ?_⟩
  rw [List.all_eq_true] at hall
  apply hall (c, n)
  rw [List.mem_iff_getElem?]
  refine ⟨i, ?_⟩
  rw [List.getElem?_zip_eq_some]
  exact ⟨by rw [List.getElem?_drop, Nat.add_comm]; exact hc, hn⟩

/-- The statement names the id column. -/
def InsertStatement.NamesId (stmt : InsertStatement) : Prop :=
  storageFindColumnIndex stmt.columns (bytes "id") ≠ none

instance (stmt : InsertStatement) : Decidable stmt.NamesId := by
  unfold InsertStatement.NamesId
  infer_instance

/-- A statement that fits a table whose id column is not the first one names that column. -/
lemma namesId_of_validate {t : TableRuntime} {stmt : InsertStatement}
    (hcol : storageFindColumnIndex t.columns (bytes "id") = some t.idColumnIndex)
    (hid : t.idColumnIndex ≠ 0) (hval : tableValidateInsertSchema t stmt = .success) :
    stmt.NamesId := by
  obtain ⟨-, hlen, hmatch⟩ := tableValidateInsertSchema_success hval
  obtain ⟨i, hi⟩ : ∃ i, t.idColumnIndex = i + 1 := ⟨t.idColumnIndex - 1, by omega⟩
  rw [hi, storageFindColumnIndex, List.findIdx?_eq_some_iff_getElem] at hcol
  obtain ⟨hlt, hcolid, -⟩ := hcol
  have hlt' : i < stmt.columns.length := by omega
  have hname := hmatch i t.columns[i + 1] stmt.columns[i] (List.getElem?_eq_getElem hlt)
    (List.getElem?_eq_getElem hlt')
  rw [utilsEqualsIgnoreCase_comm] at hname
  rw [InsertStatement.NamesId, storageFindColumnIndex, ne_eq, List.findIdx?_eq_none_iff]
  intro hnone
  have := hnone _ (List.getElem_mem hlt')
  rw [utilsEqualsIgnoreCase_trans hname hcolid] at this
  cases this

/-! ### A statement that names the id column -/

/-- A refused row leaves an existing file as it is. -/
lemma storageInsert_failure_files {files files' : Files} {name : Identifier}
    {stmt : InsertStatement} (hexists : (files (tablePath name)).isSome = true)
    (h : storageInsert files name.val stmt = (files', .failure)) : files' = files := by
  obtain ⟨content, hcontent⟩ := Option.isSome_iff_exists.mp hexists
  rw [storageInsert_eq (storageBuildPath_val name), hcontent, Option.getD_some] at h
  cases htext : storageInsertText content stmt with
  | none =>
    simp only [htext, Prod.mk.injEq, and_true] at h
    rw [← h, ← hcontent, Function.update_eq_self]
  | some text => simp [htext] at h

/-- Such a statement has one column too few for `storage_insert`. -/
lemma storageInsert_refuses {files : Files} {t : TableRuntime} {stmt : InsertStatement}
    (hheader : HeaderMatches files t) (hid : stmt.NamesId)
    (hval : tableValidateInsertSchema t stmt = .success) :
    storageInsert files t.tableName.val stmt = (files, .failure) := by
  obtain ⟨path, content, rest, hpath, hcontent, hread⟩ := hheader
  obtain ⟨-, hlen, -⟩ := tableValidateInsertSchema_success hval
  have hexisting : t.columns.isEmpty = false := by
    rw [List.isEmpty_eq_false_iff]
    exact List.ne_nil_of_length_pos (by omega)
  have hnone : storageInsertExisting rest t.columns stmt = none := by
    unfold InsertStatement.NamesId at hid
    unfold storageInsertExisting
    simp only [hid, and_false, if_false]
    rw [if_pos (by omega)]
  have hopened : Function.update files path (some content) = files := by
    rw [← hcontent, Function.update_eq_self]
  simp [storageInsert, hpath, hcontent, hread, hexisting, hnone, hopened]

/-! ### A statement that does not -/

/-- The row that `storage_insert` writes for a table with the id column in front. -/
def storedRow (t : TableRuntime) (stmt : InsertStatement) : List CString :=
  printInt t.nextId :: (t.columns.drop 1).map stmt.valueFor

/-- The content of a file reads as these columns and rows. -/
def HoldsTable (content : CString) (columns : List Identifier) (rows : List (List CString)) :
    Prop :=
  ∃ rest offset offsets, storageReadHeader content = some (columns, rest) ∧
    storageLoadRows columns.length offset (storageLines rest) = some (rows, offsets)

lemma tableFromStorage_holds {files : Files} {name : Identifier} {t : TableRuntime}
    (h : tableFromStorage files name = some t) :
    ∃ content, files (tablePath name) = some content ∧ HoldsTable content t.columns t.rows := by
  obtain ⟨-, -, -, -, data, hdata, hcols, hrows⟩ := tableFromStorage_some h
  obtain ⟨path, content, rest, hpath, hcontent, hread, offset, hload⟩ :=
    storageLoadTable_some hdata
  rw [storageBuildPath_val, Option.some.injEq] at hpath
  subst hpath
  rw [← hcols] at hread hload
  rw [← hrows] at hload
  exact ⟨content, hcontent, rest, offset, data.offsets, hread, hload⟩

lemma wrapLongLong_of_range {k : Int} (h : 0 ≤ k ∧ k ≤ intMax) : wrapLongLong (k + 1) = k + 1 := by
  unfold wrapLongLong intMax at *
  rw [Int.bmod_def]
  split_ifs <;> omega

/-- `storage_get_next_auto_id` counts as `table_load_from_storage_if_needed` does. -/
lemma storageNextId_of_load {colCount idIndex offset : Nat} {lines : List CString}
    {rows : List (List CString)} {offsets : List Nat} {n : Int}
    (hload : storageLoadRows colCount offset lines = some (rows, offsets))
    (hint : ∀ row ∈ rows, utilsIsInteger (row.getD idIndex []) = true)
    (hrange : ∀ row ∈ rows, 0 ≤ utilsParseInteger (row.getD idIndex []) ∧
      utilsParseInteger (row.getD idIndex []) ≤ intMax) :
    storageNextId colCount idIndex n lines =
      some ((rows.map fun row => utilsParseInteger (row.getD idIndex [])).foldl
        (fun n k => if k ≥ n then k + 1 else n) n) := by
  induction lines generalizing offset rows offsets n with
  | nil =>
    cases hload
    rfl
  | cons raw lines ih =>
    rw [storageLoadRows, Option.bind_eq_bind, Option.bind_eq_some_iff] at hload
    obtain ⟨parsed, hparsed, hload⟩ := hload
    rw [storageNextId, hparsed]
    cases parsed with
    | none => exact ih hload hint hrange
    | some fields =>
      obtain ⟨⟨rows', offsets'⟩, hrest, ⟨⟩⟩ := Option.bind_eq_some_iff.mp hload
      have hfields : fields ∈ fields :: rows' := List.mem_cons_self
      simp only [hint fields hfields, if_true, wrapLongLong_of_range (hrange fields hfields),
        List.map_cons, List.foldl_cons]
      exact ih hrest (fun row hrow => hint row (by simp [hrow]))
        fun row hrow => hrange row (by simp [hrow])

lemma storageGetNextAutoId_eq {t : TableRuntime} (h : t.Consistent) {rest : CString}
    {offset : Nat} {offsets : List Nat}
    (hload : storageLoadRows t.columns.length offset (storageLines rest) =
      some (t.rows, offsets)) :
    storageGetNextAutoId rest t.columns = some (printInt t.nextId) := by
  have hrange : ∀ row ∈ t.rows, 0 ≤ utilsParseInteger (t.idText row) ∧
      utilsParseInteger (t.idText row) ≤ intMax := by
    intro row hrow
    exact h.id_range _ (List.mem_map.mpr ⟨row, hrow, rfl⟩)
  rw [storageGetNextAutoId, h.id_column]
  dsimp only
  rw [storageNextId_of_load hload h.id_integer hrange, h.next_id]
  rfl

/-- Every column but the first is named by a statement that fits the table. -/
lemma find_column_of_validate {t : TableRuntime} {stmt : InsertStatement}
    (hval : tableValidateInsertSchema t stmt = .success) {i : Nat} {c : Identifier}
    (hc : t.columns[i + 1]? = some c) :
    ∃ j n, storageFindColumnIndex stmt.columns c.val = some j ∧ stmt.columns[j]? = some n ∧
      utilsEqualsIgnoreCase n.val c.val = true := by
  obtain ⟨-, hlen, hmatch⟩ := tableValidateInsertSchema_success hval
  have hlt : i < stmt.columns.length := by
    have := (List.getElem?_eq_some_iff.mp hc).1
    omega
  have hname := hmatch i c stmt.columns[i] hc (List.getElem?_eq_getElem hlt)
  rw [utilsEqualsIgnoreCase_comm] at hname
  cases hfind : storageFindColumnIndex stmt.columns c.val with
  | none =>
    rw [storageFindColumnIndex, List.findIdx?_eq_none_iff] at hfind
    rw [hfind _ (List.getElem_mem hlt)] at hname
    cases hname
  | some j =>
    obtain ⟨hj, heq, -⟩ := List.findIdx?_eq_some_iff_getElem.mp hfind
    exact ⟨j, stmt.columns[j], rfl, List.getElem?_eq_getElem hj, heq⟩

/-- The row is written under the next id of the table, with its values ordered by name. -/
lemma storageInsertExisting_eq {t : TableRuntime} {stmt : InsertStatement} (h : t.Consistent)
    (hval : tableValidateInsertSchema t stmt = .success) (hnames : ¬ stmt.NamesId)
    {rest : CString} {offset : Nat} {offsets : List Nat}
    (hload : storageLoadRows t.columns.length offset (storageLines rest) =
      some (t.rows, offsets)) :
    storageInsertExisting rest t.columns stmt = some (storageWriteCsvRow (storedRow t stmt)) := by
  have hid : t.idColumnIndex = 0 := by
    by_contra hid
    exact hnames (namesId_of_validate h.id_column hid hval)
  have hnone : storageFindColumnIndex stmt.columns (bytes "id") = none := by
    simpa [InsertStatement.NamesId] using hnames
  have hsome : storageFindColumnIndex t.columns (bytes "id") = some 0 := hid ▸ h.id_column
  have hlen := (tableValidateInsertSchema_success hval).2.1
  obtain ⟨c₀, cols, hcols⟩ : ∃ c cs, t.columns = c :: cs :=
    List.exists_cons_of_length_pos (by omega)
  have hfound : ∀ c ∈ cols, (storageFindColumnIndex stmt.columns c.val).isNone = false := by
    intro c hc
    obtain ⟨i, hi⟩ := List.mem_iff_getElem?.mp hc
    obtain ⟨j, -, hj, -⟩ := find_column_of_validate hval (i := i) (c := c) (by rw [hcols]; exact hi)
    rw [hj]
    rfl
  -- behind the id column every position is at least 1
  have hpos : ∀ c i, (c, i) ∈ cols.zipIdx 1 → c ∈ cols ∧ (some 0 : Option Nat) ≠ some i := by
    intro c i hmem
    have hle := List.le_snd_of_mem_zipIdx hmem
    exact ⟨List.fst_mem_of_mem_zipIdx hmem, fun h0 => by cases h0; omega⟩
  have hvalues : (t.columns.zipIdx.map fun p => if (some 0 : Option Nat) = some p.2 then
      printInt t.nextId else stmt.valueFor p.1) = storedRow t stmt := by
    rw [storedRow, hcols, List.zipIdx_cons, List.map_cons, List.drop_one, List.tail_cons]
    refine List.cons_eq_cons.mpr ⟨if_pos rfl, ?_⟩
    have hmap : cols.map stmt.valueFor = (cols.zipIdx 1).map fun p => stmt.valueFor p.1 := by
      conv_lhs => rw [← List.zipIdx_map_fst 1 cols, List.map_map]
      rfl
    rw [hmap]
    apply List.map_congr_left
    rintro ⟨c, i⟩ hmem
    exact if_neg (hpos c i hmem).2
  have hexpected : ¬ t.columns.length ≠ stmt.columns.length + 1 := by omega
  unfold storageInsertExisting
  simp only [hnone, hsome, storageGetNextAutoId_eq h hload, ne_eq, reduceCtorEq, not_false_eq_true,
    and_self, if_true, if_false, false_and, Option.bind_eq_bind, Option.bind_some] at hexpected ⊢
  rw [if_neg hexpected, if_neg]
  · exact congrArg (fun row => some (storageWriteCsvRow row)) hvalues
  · -- no column is missing from the statement
    rw [Bool.not_eq_true, hcols, List.zipIdx_cons, List.any_cons, Bool.or_eq_false_iff]
    refine ⟨by simp, List.any_eq_false.mpr ?_⟩
    rintro ⟨c, i⟩ hmem
    simp [hfound c (hpos c i hmem).1]

lemma storageInsert_accepts {files : Files} {t : TableRuntime} {stmt : InsertStatement}
    {content : CString} (h : t.Consistent) (hcontent : files (tablePath t.tableName) = some content)
    (hholds : HoldsTable content t.columns t.rows)
    (hval : tableValidateInsertSchema t stmt = .success) (hnames : ¬ stmt.NamesId) :
    storageInsert files t.tableName.val stmt =
      (Function.update files (tablePath t.tableName)
        (some (content ++ storageWriteCsvRow (storedRow t stmt))), .success) := by
  obtain ⟨rest, offset, offsets, hread, hload⟩ := hholds
  have hexisting : t.columns.isEmpty = false := by
    have hlen := (tableValidateInsertSchema_success hval).2.1
    rw [List.isEmpty_eq_false_iff]
    exact List.ne_nil_of_length_pos (by omega)
  have hwritten := storageInsertExisting_eq h hval hnames hload
  simp [storageInsert, storageBuildPath_val, hcontent, hread, hexisting, hwritten]

/-- The header that `storage_insert` writes for a statement without id column. -/
def newColumns (stmt : InsertStatement) : List Identifier :=
  .truncate 63 (bytes "id") :: stmt.columns

/-- A missing or empty file gets a header and the first row. -/
lemma storageInsert_new {files : Files} {name : Identifier} {stmt : InsertStatement}
    (hcontent : (files (tablePath name)).getD [] = []) (hnames : ¬ stmt.NamesId)
    (hlen : stmt.columns.length + 1 ≤ maxColumns) :
    storageInsert files name.val stmt =
      (Function.update files (tablePath name)
        (some (storageWriteCsvRow ((newColumns stmt).map CBuf.val) ++
          storageWriteCsvRow (tableBuildRow stmt 1))), .success) := by
  have hnone : storageFindColumnIndex stmt.columns (bytes "id") = none := by
    simpa [InsertStatement.NamesId] using hnames
  have hfind : storageFindColumnIndex (newColumns stmt) (bytes "id") = some 0 := by
    simp +decide [storageFindColumnIndex, newColumns, List.findIdx?_cons]
  have hkey : storageValidatePrimaryKey [] (newColumns stmt)
      (bytes "1" :: stmt.values.map CBuf.val) = .success := by
    rw [storageValidatePrimaryKey, hfind]
    rfl
  have hnew : storageInsertNew [] stmt = some (storageWriteCsvRow ((newColumns stmt).map CBuf.val) ++
      storageWriteCsvRow (tableBuildRow stmt 1)) := by
    unfold storageInsertNew
    simp only [hnone, true_and, if_true]
    rw [if_neg (by omega)]
    exact if_pos hkey
  simp [storageInsert, storageBuildPath_val, hcontent, storageReadHeader, hnew]

end MiniDbms
