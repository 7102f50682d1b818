import MiniDbms.Engine.Facade
import MiniDbms.Engine.Select
import MiniDbms.Runtime.Agreement
import MiniDbms.Runtime.Reload
import MiniDbms.Sql.Names

/-!
# Memory and disk

A process that starts in an empty data directory keeps every loaded table equal to its file, as
long as two kinds of rows are not stored: rows with a line break in a value, which is quoted but
read line by line, and rows of an existing table that name a column twice, which the file takes by
name and the table by position.
-/

namespace MiniDbms

/-! ### The rows that survive -/

/-- The row of the statement is the same in memory and in the file. -/
structure RowSurvives (t : TableRuntime) (stmt : InsertStatement) : Prop where
  no_line_break : ∀ v ∈ stmt.values, NoLineBreak v.val
  same_value : t.loaded = true → stmt.SameNameSameValue

lemma isName_noLineBreak {s : CString} (h : IsName s) : NoLineBreak s := by
  have hbyte : ∀ b : Byte, (isWordByte b = true ∨ b = chr '*') → b ≠ chr '\n' ∧ b ≠ chr '\r' := by
    apply forall_byte
    decide +kernel
  exact ⟨fun hmem => (hbyte _ (h.2 _ hmem)).1 rfl, fun hmem => (hbyte _ (h.2 _ hmem)).2 rfl⟩

/-! ### The invariant -/

/-- Every table file is the text of a storable table. -/
def FilesStored (files : Files) : Prop :=
  ∀ name content, files (tablePath name) = some content → ∃ t, Storable t ∧ content = t.fileText

/-- A loaded table is what its file holds, and a table that is not loaded has no file. -/
structure Current (files : Files) (t : TableRuntime) : Prop where
  named : t.tableName.val ≠ []
  state : (Storable t ∧ files (tablePath t.tableName) = some t.fileText) ∨
    (t.Unloaded ∧ files (tablePath t.tableName) = none)

structure StoreInv (store : Store) : Prop where
  files : FilesStored store.1
  active : ∀ t ∈ store.2, Current store.1 t

lemma FilesStored.load {files : Files} (h : FilesStored files) {name : Identifier}
    {content : CString} (hfile : files (tablePath name) = some content) :
    ∃ t, tableFromStorage files name = some t ∧ t.tableName = name ∧ Storable t ∧
      content = t.fileText := by
  obtain ⟨t, hst, rfl⟩ := h name content hfile
  obtain ⟨t₀, hfrom, hcols, hrows⟩ := hst.reload hfile
  obtain ⟨hcons₀, htn, hl₀, -⟩ := tableFromStorage_some hfrom
  obtain ⟨hst₀, htext⟩ := hst.congr hcons₀ hl₀ hcols hrows
  exact ⟨t₀, hfrom, htn, hst₀, htext.symm⟩

lemma FilesStored.update {files : Files} (h : FilesStored files) {t : TableRuntime}
    (ht : Storable t) (name : Identifier) :
    FilesStored (Function.update files (tablePath name) (some t.fileText)) := by
  intro name' content hfile
  by_cases hsame : tablePath name' = tablePath name
  · rw [hsame, Function.update_self, Option.some.injEq] at hfile
    exact ⟨t, ht, hfile.symm⟩
  · rw [Function.update_of_ne hsame] at hfile
    exact h name' content hfile

/-! ### One statement -/

section Step

variable {files : Files} {active : Option TableRuntime}

lemma storageTableExists_iff {name : Identifier} :
    storageTableExists files name.val = true ↔ files (tablePath name) ≠ none := by
  simp [storageTableExists, storageBuildPath_val, Option.isSome_iff_ne_none]

/-- An empty table loads the file of the name, if there is one. -/
lemma FilesStored.load_current (h : FilesStored files) {u : TableRuntime} (hun : u.Unloaded)
    (hne : u.tableName.val ≠ []) {name : Identifier}
    (hname : utilsEqualsIgnoreCase u.tableName.val name.val = true)
    (hmissing : u.tableName = name ∨ files (tablePath u.tableName) = none) :
    ∃ t, tableLoadFromStorageIfNeeded files u name.val = (t, .success) ∧ Current files t ∧
      utilsEqualsIgnoreCase t.tableName.val name.val = true ∧
      (t.loaded = false → files (tablePath name) = none) := by
  have hnameFor := TableRuntime.nameFor_of_nonempty hne name.val
  have hacc : u.Accepts name.val := by
    refine ⟨by rw [hnameFor]; exact hname, fun hempty => ?_⟩
    exact absurd (List.isEmpty_iff.mp hempty) hne
  have hload := @tableLoad_accepted files u name hun.loaded hacc
  rw [hnameFor] at hload
  cases hfile : files (tablePath name) with
  | none =>
    rw [if_neg (by rw [storageTableExists_iff]; simp [hfile])] at hload
    refine ⟨u, hload, ⟨hne, .inr ⟨hun, ?_⟩⟩, hname, fun _ => rfl⟩
    rcases hmissing with rfl | hmissing
    · exact hfile
    · exact hmissing
  | some content =>
    obtain ⟨t, hfrom, htn, hst, rfl⟩ := h.load hfile
    rw [if_pos (by rw [storageTableExists_iff]; simp [hfile]), hfrom] at hload
    have hne' : name.val ≠ [] := by
      intro hnil
      rw [hnil] at hname
      cases hval : u.tableName.val with
      | nil => exact hne hval
      | cons b bs =>
        rw [hval] at hname
        cases hname
    refine ⟨t, hload, ⟨by rw [htn]; exact hne', .inl ⟨hst, by rw [htn]; exact hfile⟩⟩, ?_, ?_⟩
    · rw [htn]
      exact utilsEqualsIgnoreCase_self _
    · intro hl
      rw [hst.loaded] at hl
      cases hl

/-- The table that a statement works on is current. -/
lemma StoreInv.fetch (h : StoreInv (files, active)) {name : Identifier} (hne : name.val ≠ []) :
    ∃ u t, tableGetOrLoad active name.val = (u, .success) ∧
      tableLoadFromStorageIfNeeded files u name.val = (t, .success) ∧ Current files t ∧
      utilsEqualsIgnoreCase t.tableName.val name.val = true ∧
      (t.loaded = false → files (tablePath name) = none) := by
  have hnew : ∀ u : TableRuntime, tableSetActiveName (tableFree u) name.val =
      (.named name, .success) := fun u => tableResetAsUnloaded_eq u name
  have hfresh := h.files.load_current (TableRuntime.named_unloaded name) hne
    (utilsEqualsIgnoreCase_self _) (.inl rfl)
  unfold tableGetOrLoad
  simp only [hnew]
  cases active with
  | none =>
    obtain ⟨t, hload, hcur⟩ := hfresh
    exact ⟨.named name, t, by simp [tableInit, CBuf.empty], hload, hcur⟩
  | some u =>
    obtain ⟨hnamed, hstate⟩ := h.active u rfl
    simp only [Option.getD_some]
    split_ifs with hmatch
    · have hname : utilsEqualsIgnoreCase u.tableName.val name.val = true := by
        simp only [Bool.and_eq_true] at hmatch
        exact hmatch.2
      rcases hstate with ⟨hst, hfile⟩ | ⟨hun, hfile⟩
      · refine ⟨u, u, rfl, ?_, ⟨hnamed, .inl ⟨hst, hfile⟩⟩, hname, ?_⟩
        · simp [tableLoadFromStorageIfNeeded, hst.loaded]
        · intro hl
          rw [hst.loaded] at hl
          cases hl
      · obtain ⟨t, hload, hcur⟩ := h.files.load_current hun hnamed hname (.inr hfile)
        exact ⟨u, t, rfl, hload, hcur⟩
    · obtain ⟨t, hload, hcur⟩ := hfresh
      exact ⟨.named name, t, rfl, hload, hcur⟩

/-- The rest of `table_insert_row` once the table is fetched: fetching it again does nothing. -/
lemma Current.insertRow_eq {t : TableRuntime} (h : Current files t) {stmt : InsertStatement}
    (hname : utilsEqualsIgnoreCase t.tableName.val stmt.tableName.val = true)
    (hmissing : t.loaded = false → files (tablePath stmt.tableName) = none) :
    tableInsertRow files t stmt = tableInsertLoaded files t stmt := by
  have hnameFor := TableRuntime.nameFor_of_nonempty h.named stmt.tableName.val
  have hload : tableLoadFromStorageIfNeeded files t stmt.tableName.val = (t, .success) := by
    cases hl : t.loaded with
    | true => simp [tableLoadFromStorageIfNeeded, hl]
    | false =>
      have hacc : t.Accepts stmt.tableName.val := by
        refine ⟨by rw [hnameFor]; exact hname, fun hempty => ?_⟩
        exact absurd (List.isEmpty_iff.mp hempty) h.named
      rw [tableLoad_accepted hl hacc, hnameFor,
        if_neg (by rw [storageTableExists_iff]; simp [hmissing hl])]
  rw [tableInsertRow_eq, hnameFor, if_pos hname, hload]

/-- Inserting into a table that is in its file. -/
lemma Storable.insert_current {t : TableRuntime} (h : Storable t) (hne : t.tableName.val ≠ [])
    (hfile : files (tablePath t.tableName) = some t.fileText) (hfiles : FilesStored files)
    {stmt : InsertStatement}
    (hsurvives : tableValidateInsertSchema t stmt = .success → RowSurvives t stmt) :
    FilesStored (tableInsertLoaded files t stmt).1 ∧
      Current (tableInsertLoaded files t stmt).1 (tableInsertLoaded files t stmt).2.1 := by
  unfold tableInsertLoaded tablePrepareSchema
  simp only [h.loaded, if_true]
  cases hval : tableValidateInsertSchema t stmt with
  | failure => exact ⟨hfiles, hne, .inl ⟨h, hfile⟩⟩
  | success =>
    obtain ⟨hvalues, hsame⟩ := hsurvives hval
    obtain ⟨-, hlen, -⟩ := tableValidateInsertSchema_success hval
    have hstored := h.storageInsert_eq hfile hval (hsame h.loaded)
    rcases tableStoreRow_cases files h.consistent.insert_nextId stmt with
      ⟨-, heq⟩ | ⟨⟨hres, hmax⟩, files', ⟨hst, heq⟩ | ⟨hst, heq⟩⟩
    · obtain ⟨hc, hcrows, -, -⟩ :=
        tableReserveIfNeeded_spec h.consistent.valid_capacity h.consistent.rows_le
      simp only [heq]
      obtain ⟨hst', htext⟩ := h.congr (h.consistent.withCapacity hc hcrows) h.loaded rfl rfl
      exact ⟨hfiles, hne, .inl ⟨hst', by rw [htext]; exact hfile⟩⟩
    · rw [hstored] at hst
      cases hst
    · rw [hstored] at hst
      cases hst
      obtain ⟨hst', htext⟩ := h.addRow hlen hvalues hres hmax
      simp only [heq, ← htext]
      exact ⟨hfiles.update hst' _, hne, .inl ⟨hst', Function.update_self _ _ _⟩⟩

/-- The table that the first insertion makes of an empty one. -/
lemma storable_of_schema {t t₁ : TableRuntime} (hun : t.Unloaded) {stmt : InsertStatement}
    (hcolumns : ∀ c ∈ stmt.columns, IsName c.val)
    (heq : tableInitializeSchema t stmt = (t₁, .success)) :
    Storable t₁ ∧ t₁.tableName = t.tableName ∧ t₁.rows = [] ∧ t₁.columns = newColumns stmt ∧
      ¬ stmt.NamesId ∧ stmt.columns.length + 1 ≤ maxColumns := by
  rcases tableInitializeSchema_cases hun stmt with
    ⟨t', heq', -⟩ | ⟨t', heq', hcons, hl, htn, hid, hrows, hcols, -, hcount, hnone⟩
  · rw [heq] at heq'
    cases heq'
  · rw [heq] at heq'
    cases heq'
    refine ⟨⟨hcons, hl, hid, ?_, ?_, ?_, ?_⟩, htn, hrows, hcols, ?_, hcount⟩
    · rw [hcols]
      intro c hc
      rcases List.mem_cons.mp hc with rfl | hc
      · decide
      · exact isName_noLineBreak (hcolumns c hc)
    · rw [hcols]
      exact hnone
    · simp [hrows]
    · simp [hrows]
    · rw [InsertStatement.NamesId, not_not, storageFindColumnIndex, List.findIdx?_eq_none_iff]
      exact hnone

/-- Inserting into a table that has no file yet. -/
lemma insert_current_of_unloaded {t : TableRuntime} (hun : t.Unloaded) (hne : t.tableName.val ≠ [])
    (hmissing : files (tablePath t.tableName) = none) (hfiles : FilesStored files)
    {stmt : InsertStatement} (hcolumns : ∀ c ∈ stmt.columns, IsName c.val)
    (hvalues : (tableInitializeSchema t stmt).2 = .success →
      ∀ v ∈ stmt.values, NoLineBreak v.val) :
    FilesStored (tableInsertLoaded files t stmt).1 ∧
      Current (tableInsertLoaded files t stmt).1 (tableInsertLoaded files t stmt).2.1 := by
  unfold tableInsertLoaded tablePrepareSchema
  simp only [hun.loaded, Bool.false_eq_true, if_false]
  cases hschema : tableInitializeSchema t stmt with
  | mk t₁ st =>
    cases st with
    | failure =>
      rcases tableInitializeSchema_cases hun stmt with ⟨t', heq, hun', htn⟩ | ⟨t', heq, -⟩
      · rw [hschema] at heq
        cases heq
        exact ⟨hfiles, by rw [htn]; exact hne, .inr ⟨hun', by rw [htn]; exact hmissing⟩⟩
      · rw [hschema] at heq
        cases heq
    | success =>
      rw [hschema] at hvalues
      obtain ⟨hst₁, htn, hrows, hcols, hnames, hcount⟩ := storable_of_schema hun hcolumns hschema
      rw [← htn] at hne hmissing
      have hstored :=
        @storageInsert_new files t₁.tableName stmt (by rw [hmissing]; rfl) hnames hcount
      have hnext : t₁.nextId = 1 := by
        rw [hst₁.consistent.next_id, TableRuntime.ids, hrows]
        rfl
      have htext₁ : t₁.fileText = storageWriteCsvRow ((newColumns stmt).map CBuf.val) := by
        simp [TableRuntime.fileText, hrows, hcols]
      rcases tableStoreRow_cases files hst₁.consistent.insert_nextId stmt with
        ⟨hfull, -⟩ | ⟨⟨hres, hmax⟩, files', ⟨hst, heq⟩ | ⟨hst, heq⟩⟩
      · exact absurd (hst₁.consistent.firstRow_fits hrows) hfull
      · rw [hstored] at hst
        cases hst
      · rw [hstored] at hst
        cases hst
        have hlen : stmt.columns.length + 1 = t₁.columns.length := by
          rw [hcols]
          rfl
        obtain ⟨hst', htext⟩ := hst₁.addRow hlen (hvalues rfl) hres hmax
        rw [htext₁, hnext] at htext
        rw [hnext] at hst' heq
        simp only [heq, ← htext]
        exact ⟨hfiles.update hst' _, hne, .inl ⟨hst', Function.update_self _ _ _⟩⟩

lemma StoreInv.insert (h : StoreInv (files, active)) {stmt : InsertStatement}
    (hstmt : (SqlStatement.insert stmt).WellNamed)
    (hsurvives : (tablePrepareSchema (statementTable files active stmt.tableName) stmt).2 = .success →
      RowSurvives (statementTable files active stmt.tableName) stmt) (result : DbResult) :
    StoreInv ((executorExecuteInsert files active stmt result).1,
      some (executorExecuteInsert files active stmt result).2.1) := by
  have hne : stmt.tableName.val ≠ [] := hstmt.tableName.1
  obtain ⟨u, t, hget, hload, hcur, hname, hmissing⟩ := h.fetch hne
  have htable : statementTable files active stmt.tableName = t := by
    rw [statementTable, hget, hload]
  rw [htable] at hsurvives
  have hinsert : FilesStored (tableInsertLoaded files t stmt).1 ∧
      Current (tableInsertLoaded files t stmt).1 (tableInsertLoaded files t stmt).2.1 := by
    rcases hcur.state with ⟨hst, hfile⟩ | ⟨hun, hfile⟩
    · apply hst.insert_current hcur.named hfile h.files
      simpa [tablePrepareSchema, hst.loaded] using hsurvives
    · refine insert_current_of_unloaded hun hcur.named hfile h.files hstmt.insertColumns ?_
      intro hschema
      refine (hsurvives ?_).no_line_break
      rw [tablePrepareSchema, if_neg (by simp [hun.loaded])]
      exact hschema
  have hresult : (executorExecuteInsert files active stmt result).1 =
        (tableInsertLoaded files t stmt).1 ∧
      (executorExecuteInsert files active stmt result).2.1 =
        (tableInsertLoaded files t stmt).2.1 := by
    unfold executorExecuteInsert
    simp only [hget, hload, hcur.insertRow_eq hname hmissing]
    generalize tableInsertLoaded files t stmt = outcome
    obtain ⟨files', t', slot⟩ := outcome
    cases slot <;> exact ⟨rfl, rfl⟩
  rw [hresult.1, hresult.2]
  refine ⟨hinsert.1, ?_⟩
  rintro t' ⟨⟩
  exact hinsert.2

lemma StoreInv.select (h : StoreInv (files, active)) {stmt : SelectStatement}
    (hne : stmt.tableName.val ≠ []) (result : DbResult) :
    StoreInv (files, some (executorExecuteSelect files active stmt result).1) := by
  obtain ⟨u, t, hget, hload, hcur, -⟩ := h.fetch hne
  rw [executorExecuteSelect_table, statementTable, hget, hload]
  refine ⟨h.files, ?_⟩
  rintro t' ⟨⟩
  exact hcur

end Step

/-! ### Whole runs -/

/-- If the text is an insertion that fits its table, its row survives. -/
def StepSurvives (store : Store) (sql : CString) : Prop :=
  ∀ stmt, statementOf sql = .ok (.insert stmt) →
    (tablePrepareSchema (statementTable store.1 store.2 stmt.tableName) stmt).2 = .success →
      RowSurvives (statementTable store.1 store.2 stmt.tableName) stmt

lemma statementOf_wellNamed {sql : CString} {stmt : SqlStatement}
    (h : statementOf sql = .ok stmt) : stmt.WellNamed := by
  obtain ⟨tokens, htokens, hparse⟩ := statementOf_ok h
  exact parserParse_wellNamed (tokensOf_names htokens) hparse

lemma StoreInv.step {store : Store} (h : StoreInv store) {sql : CString}
    (hsql : StepSurvives store sql) : StoreInv (executeText store sql).1 := by
  obtain ⟨files, active⟩ := store
  unfold executeText
  cases hstmt : statementOf sql with
  | error message => exact h
  | ok statement =>
    have hnamed := statementOf_wellNamed hstmt
    cases statement with
    | insert stmt => exact h.insert hnamed (hsql stmt hstmt) _
    | select stmt => exact h.select hnamed.tableName.1 _
    | delete stmt => exact h

lemma dbRun_storeInv {sqls : List CString}
    (h : ∀ done sql rest, sqls = done ++ sql :: rest →
      StepSurvives (dbRun emptyDirectory done).store sql) :
    StoreInv (dbRun emptyDirectory sqls).store := by
  induction sqls using List.reverseRecOn with
  | nil =>
    constructor
    · intro name content hfile
      cases hfile
    · intro t ht
      cases ht
  | append_singleton sqls sql ih =>
    have hinv := ih fun done sql' rest heq => h done sql' (rest ++ [sql]) (by simp [heq])
    have hstep := hinv.step (h sqls sql [] rfl)
    have hexec := (dbExecuteSql_eq (dbRun_sound emptyDirectory sqls) sql).2
    rw [← hexec, ← dbRun_append] at hstep
    exact hstep

/-- Discarding the active table and loading its file again gives the same table. -/
def MemoryEqualsDisk (db : Database) : Prop :=
  ∀ t, db.active = some t → t.loaded = true →
    ∃ t', tableLoadFromStorageIfNeeded db.files (tableFree t) t.tableName.val = (t', .success) ∧
      t'.loaded = true ∧ SameContents t t'

lemma StoreInv.memoryEqualsDisk {db : Database} (h : StoreInv db.store) : MemoryEqualsDisk db := by
  intro t ht hl
  obtain ⟨hne, hstate⟩ := h.active t ht
  change (Storable t ∧ db.files (tablePath t.tableName) = some t.fileText) ∨ _ at hstate
  rcases hstate with ⟨hst, hfile⟩ | ⟨hun, -⟩
  · obtain ⟨t₀, hfrom, hcols, hrows⟩ := hst.reload hfile
    obtain ⟨hcons₀, -, hl₀, -⟩ := tableFromStorage_some hfrom
    have hnameFor : (tableFree t).nameFor t.tableName.val = .named t.tableName := by
      simp [TableRuntime.nameFor, tableFree, tableInit, CBuf.empty, utilsSafeStrcpy_val,
        TableRuntime.named]
    have hacc : (tableFree t).Accepts t.tableName.val := by
      refine ⟨by rw [hnameFor]; exact utilsEqualsIgnoreCase_self _, fun _ => ?_⟩
      rw [utilsSafeStrcpy_val]
    have hload := @tableLoad_accepted db.files (tableFree t) t.tableName rfl hacc
    rw [if_pos (storageTableExists_iff.mpr (by simp [hfile])), hfrom] at hload
    exact ⟨t₀, hload, hl₀, .of_consistent hst.consistent hcons₀ hcols hrows⟩
  · rw [hun.loaded] at hl
    cases hl

/-- From an empty data directory, as long as every row that is stored survives, the active table
is at all times what its file loads to. -/
theorem dbRun_memoryEqualsDisk (sqls : List CString)
    (h : ∀ done sql rest, sqls = done ++ sql :: rest →
      StepSurvives (dbRun emptyDirectory done).store sql) :
    ∀ done, done <+: sqls → MemoryEqualsDisk (dbRun emptyDirectory done) := by
  rintro done ⟨rest, rfl⟩
  apply StoreInv.memoryEqualsDisk
  apply dbRun_storeInv
  intro done' sql rest' heq
  exact h done' sql (rest' ++ rest) (by simp [heq])

/-- A value with a comma and quotes, then a query. -/
theorem dbRun_memoryEqualsDisk_quoted :
    let sqls := [bytes "INSERT INTO t (a) VALUES ('x,\"y''')", bytes "SELECT a FROM T"]
    (dbRun emptyDirectory sqls).active.map (·.rows) = some [[bytes "1", bytes "x,\"y'"]] ∧
      ∀ done, done <+: sqls → MemoryEqualsDisk (dbRun emptyDirectory done) := by
  intro sqls
  refine ⟨by decide, dbRun_memoryEqualsDisk sqls ?_⟩
  intro done sql rest heq stmt hstmt _
  match done, heq with
  | [], heq =>
    have hinsert : statementOf (bytes "INSERT INTO t (a) VALUES ('x,\"y''')") =
        .ok (.insert ⟨⟨bytes "t", by decide⟩, [⟨bytes "a", by decide⟩],
          [⟨bytes "x,\"y'", by decide⟩], by decide, by decide⟩) := by rfl
    obtain ⟨rfl, -⟩ := List.cons_eq_cons.mp heq
    obtain rfl := SqlStatement.insert.inj (Except.ok.inj (hinsert.symm.trans hstmt))
    exact ⟨by decide, fun hl => absurd hl (by decide)⟩
  | [_], heq =>
    have hselect : ∃ q, statementOf (bytes "SELECT a FROM T") = .ok (.select q) := ⟨_, rfl⟩
    obtain ⟨-, heq⟩ := List.cons_eq_cons.mp heq
    obtain ⟨rfl, -⟩ := List.cons_eq_cons.mp heq
    obtain ⟨q, hq⟩ := hselect
    rw [hq] at hstmt
    cases hstmt
  | _ :: _ :: _, heq =>
    have hlen := congrArg List.length heq
    simp [sqls] at hlen

/-- Two runs after which the file is not what is in memory. The line break of the first value is
written inside quotes, which do not reach over a line when the file is read: it is not a table any
more. In the second run the file takes the first of the two values for both columns. -/
theorem dbRun_memoryEqualsDisk_fails :
    ¬ MemoryEqualsDisk (dbRun emptyDirectory [bytes "INSERT INTO t (a) VALUES ('x\ny')"]) ∧
    ¬ MemoryEqualsDisk (dbRun emptyDirectory [bytes "INSERT INTO t (a, A) VALUES ('x', 'y')",
      bytes "INSERT INTO t (a, A) VALUES ('x', 'y')"]) := by
  constructor
  · intro h
    let db := dbRun emptyDirectory [bytes "INSERT INTO t (a) VALUES ('x\ny')"]
    obtain ⟨t', hload, -⟩ := h (db.active.getD tableInit) (by decide) (by decide)
    have hfails : (tableLoadFromStorageIfNeeded db.files (tableFree (db.active.getD tableInit))
        (db.active.getD tableInit).tableName.val).2 = .failure := by decide
    rw [hload] at hfails
    cases hfails
  · intro h
    let db := dbRun emptyDirectory [bytes "INSERT INTO t (a, A) VALUES ('x', 'y')",
      bytes "INSERT INTO t (a, A) VALUES ('x', 'y')"]
    obtain ⟨t', hload, -, hsame⟩ := h (db.active.getD tableInit) (by decide) (by decide)
    have hrows : (tableLoadFromStorageIfNeeded db.files (tableFree (db.active.getD tableInit))
        (db.active.getD tableInit).tableName.val).1.rows ≠ (db.active.getD tableInit).rows := by
      decide
    rw [hload] at hrows
    exact hrows hsame.rows

end MiniDbms
