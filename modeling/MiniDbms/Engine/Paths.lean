import MiniDbms.Engine.Addressing
import MiniDbms.Library.Footprint

/-!
# The paths that SQL reaches

The names that a statement passes to `storage_build_path`, call by call, and the two facts that tie
them to the execution: nothing but the files of these names changes, and nothing else has an
influence on the result. All of them come from identifier tokens, so that no text can name a file
outside `data/`.
-/

namespace MiniDbms

/-! ### The names that reach `storage_build_path` -/

/-- In `table_load_from_storage_if_needed`: once to see whether the file exists, and once more to
load it. -/
def tableLoadNames (files : Files) (table : TableRuntime) (tableName : CString) : List CString :=
  if table.loaded then []
  else
    let (table, named) :=
      if table.tableName.val.isEmpty then tableSetActiveName table tableName else (table, .success)
    if named = .failure then []
    else if !utilsEqualsIgnoreCase table.tableName.val tableName then []
    else if !storageTableExists files tableName then [tableName]
    else [tableName, tableName]

/-- In `table_insert_row` once the schema is set: in `storage_insert`, and in the rollback. -/
def tableStoreNames (files : Files) (table : TableRuntime) (stmt : InsertStatement) :
    List CString :=
  match tableAppendRow table stmt with
  | (_, .failure)     => []
  | (table, .success) =>
    table.tableName.val ::
      match storageInsert files table.tableName.val stmt with
      | (files, .failure) =>
        tableLoadNames files (tableResetAsUnloaded table stmt.tableName.val).1 stmt.tableName.val
      | (_, .success)     => []

/-- In `table_insert_row` once the table was loaded from storage or found to have no file. -/
def tableInsertLoadedNames (files : Files) (table : TableRuntime) (stmt : InsertStatement) :
    List CString :=
  match tablePrepareSchema table stmt with
  | (_, .failure)     => []
  | (table, .success) => tableStoreNames files table stmt

/-- In `table_insert_row`. -/
def tableInsertNames (files : Files) (table : TableRuntime) (stmt : InsertStatement) :
    List CString :=
  let name := stmt.tableName.val
  let (table, named) :=
    if table.tableName.val.isEmpty then tableSetActiveName table name else (table, .success)
  if named = .failure then []
  else if !utilsEqualsIgnoreCase table.tableName.val name then []
  else
    tableLoadNames files table name ++
      match tableLoadFromStorageIfNeeded files table name with
      | (_, .failure)     => []
      | (table, .success) => tableInsertLoadedNames files table stmt

/-- In `executor_execute_into_result`. -/
def executorNames (files : Files) (active : Option TableRuntime) : SqlStatement → List CString
  | .insert stmt =>
    match tableGetOrLoad active stmt.tableName.val with
    | (_, .failure)     => []
    | (table, .success) =>
      tableLoadNames files table stmt.tableName.val ++
        match tableLoadFromStorageIfNeeded files table stmt.tableName.val with
        | (_, .failure)     => []
        | (table, .success) => tableInsertNames files table stmt
  | .select stmt =>
    match tableGetOrLoad active stmt.tableName.val with
    | (_, .failure)     => []
    | (table, .success) => tableLoadNames files table stmt.tableName.val
  | .delete _ => []

/-- In `db_execute_sql`. -/
def dbExecuteSqlNames (db : Database) (sql : CString) : List CString :=
  if (utilsTrim sql).isEmpty then []
  else
    match tokenizerTokenize db.cache (utilsTrim sql) with
    | (_, none)        => []
    | (_, some tokens) =>
      if tokens.isEmpty then []
      else
        match parserParse tokens with
        | none           => []
        | some statement => executorNames db.files db.active statement

/-! ### Where the names come from -/

section Origin

variable {files : Files} {t : TableRuntime} {P : Identifier → Prop}

/-- A name that has the property. -/
def Named (P : Identifier → Prop) (n : CString) : Prop := ∃ name : Identifier, n = name.val ∧ P name

lemma tableLoadNames_eq (files : Files) (t : TableRuntime) (name : Identifier) :
    tableLoadNames files t name.val =
      if t.loaded = true ∨ ¬ utilsEqualsIgnoreCase (t.nameFor name.val).tableName.val name.val = true
      then []
      else if storageTableExists files name.val then [name.val, name.val] else [name.val] := by
  unfold tableLoadNames
  simp only [t.nameFor_first, reduceCtorEq, if_false]
  by_cases hl : t.loaded = true
  · simp [hl]
  · by_cases heq : utilsEqualsIgnoreCase (t.nameFor name.val).tableName.val name.val = true
    · cases storageTableExists files name.val <;> simp [hl, heq]
    · simp [hl, heq]

lemma tableLoadNames_named {name : Identifier} (hname : P name) :
    ∀ n ∈ tableLoadNames files t name.val, Named P n := by
  have hone : Named P name.val := ⟨name, rfl, hname⟩
  rw [tableLoadNames_eq]
  split_ifs
  · simp
  · simp [hone]
  · simp [hone]

lemma tableStoreNames_named {stmt : InsertStatement} (h : P t.tableName)
    (hname : P stmt.tableName) : ∀ n ∈ tableStoreNames files t stmt, Named P n := by
  have happend := (tableAppendRow_tableName t stmt).symm ▸ h
  unfold tableStoreNames
  generalize tableAppendRow t stmt = appended at happend ⊢
  obtain ⟨t₁, st⟩ := appended
  cases st with
  | failure => simp
  | success =>
    refine List.forall_mem_cons.mpr ⟨⟨t₁.tableName, rfl, happend⟩, ?_⟩
    generalize storageInsert files t₁.tableName.val stmt = stored
    obtain ⟨files', st⟩ := stored
    cases st with
    | failure => exact tableLoadNames_named hname
    | success => simp

lemma tableInsertLoadedNames_named {stmt : InsertStatement} (h : P t.tableName)
    (hname : P stmt.tableName) : ∀ n ∈ tableInsertLoadedNames files t stmt, Named P n := by
  have hschema := (tablePrepareSchema_tableName t stmt).symm ▸ h
  unfold tableInsertLoadedNames
  generalize tablePrepareSchema t stmt = prepared at hschema ⊢
  obtain ⟨t₂, st⟩ := prepared
  cases st with
  | failure => simp
  | success => exact tableStoreNames_named hschema hname

lemma tableInsertNames_eq (files : Files) (t : TableRuntime) (stmt : InsertStatement) :
    tableInsertNames files t stmt =
      if utilsEqualsIgnoreCase (t.nameFor stmt.tableName.val).tableName.val stmt.tableName.val then
        tableLoadNames files (t.nameFor stmt.tableName.val) stmt.tableName.val ++
          match tableLoadFromStorageIfNeeded files (t.nameFor stmt.tableName.val)
              stmt.tableName.val with
          | (_, .failure)     => []
          | (table, .success) => tableInsertLoadedNames files table stmt
      else [] := by
  unfold tableInsertNames
  simp only [t.nameFor_first, reduceCtorEq, if_false]
  by_cases heq : utilsEqualsIgnoreCase (t.nameFor stmt.tableName.val).tableName.val
      stmt.tableName.val = true
  · simp [heq]
  · simp [heq]

lemma tableInsertNames_named {stmt : InsertStatement} (h : P t.tableName)
    (hname : P stmt.tableName) : ∀ n ∈ tableInsertNames files t stmt, Named P n := by
  have hload := tableLoad_closed files (TableRuntime.nameFor_closed h hname) hname
  rw [tableInsertNames_eq]
  split_ifs
  · refine List.forall_mem_append.mpr ⟨tableLoadNames_named hname, ?_⟩
    generalize tableLoadFromStorageIfNeeded files (t.nameFor stmt.tableName.val)
      stmt.tableName.val = loaded at hload ⊢
    obtain ⟨t₁, st⟩ := loaded
    cases st with
    | failure => simp
    | success => exact tableInsertLoadedNames_named hload hname
  · simp

/-- Every name comes from the statement or from the active table. -/
lemma executorNames_named {active : Option TableRuntime} {stmt : SqlStatement}
    (h : ∀ t ∈ active, P t.tableName) (hname : P stmt.tableName) :
    ∀ n ∈ executorNames files active stmt, Named P n := by
  cases stmt with
  | delete stmt => simp [executorNames]
  | select stmt =>
    rw [executorNames]
    generalize tableGetOrLoad active stmt.tableName.val = got
    obtain ⟨t₁, st⟩ := got
    cases st with
    | failure => simp
    | success => exact tableLoadNames_named hname
  | insert stmt =>
    have hgot : P (tableGetOrLoad active stmt.tableName.val).1.tableName :=
      tableGetOrLoad_closed h hname
    rw [executorNames]
    generalize tableGetOrLoad active stmt.tableName.val = got at hgot ⊢
    obtain ⟨t₁, st⟩ := got
    cases st with
    | failure => simp
    | success =>
      have hload := tableLoad_closed files hgot hname
      refine List.forall_mem_append.mpr ⟨tableLoadNames_named hname, ?_⟩
      dsimp only [SqlStatement.tableName] at hload
      generalize tableLoadFromStorageIfNeeded files t₁ stmt.tableName.val = loaded at hload ⊢
      obtain ⟨t₂, st⟩ := loaded
      cases st with
      | failure => simp
      | success => exact tableInsertNames_named hload hname

end Origin

/-! ### The files of the names are all that matters -/

/-- The paths that `storage_build_path` makes of the names. -/
def pathsOf (names : List CString) : Set CString :=
  { path | ∃ n ∈ names, storageBuildPath n = some path }

lemma pathsOf_append (names names' : List CString) :
    pathsOf (names ++ names') = pathsOf names ∪ pathsOf names' := by
  ext path
  constructor
  · rintro ⟨n, hn, hpath⟩
    rcases List.mem_append.mp hn with hn | hn
    · exact .inl ⟨n, hn, hpath⟩
    · exact .inr ⟨n, hn, hpath⟩
  · rintro (⟨n, hn, hpath⟩ | ⟨n, hn, hpath⟩)
    · exact ⟨n, List.mem_append_left _ hn, hpath⟩
    · exact ⟨n, List.mem_append_right _ hn, hpath⟩

lemma tablePath_mem_pathsOf {name : Identifier} {names : List CString} (h : name.val ∈ names) :
    tablePath name ∈ pathsOf names :=
  ⟨name.val, h, storageBuildPath_val name⟩

section Confinement

variable {files : Files} {t : TableRuntime} {stmt : InsertStatement}

lemma tableLoad_congr {files' : Files} {name : Identifier}
    (h : files' (tablePath name) = files (tablePath name)) (t : TableRuntime) :
    tableLoadFromStorageIfNeeded files' t name.val =
      tableLoadFromStorageIfNeeded files t name.val := by
  have hexists : storageTableExists files' name.val = storageTableExists files name.val := by
    simp [storageTableExists, storageBuildPath_val, h]
  have hload : storageLoadTable files' name.val = storageLoadTable files name.val := by
    simp [storageLoadTable, storageBuildPath_val, h]
  unfold tableLoadFromStorageIfNeeded
  rw [hexists, hload]

/-- A load looks at no file but that of the name, and at that one only if it comes to it. -/
lemma tableLoad_confined (t : TableRuntime) (name : Identifier) :
    Confined (pathsOf (tableLoadNames files t name.val))
      (fun files => (files, tableLoadFromStorageIfNeeded files t name.val)) files := by
  intro files' hagree
  refine ⟨?_, hagree, fun _ _ => rfl⟩
  have hnames := tableLoadNames_eq files t name
  by_cases hl : t.loaded = true
  · simp [tableLoadFromStorageIfNeeded, hl]
  · by_cases heq : utilsEqualsIgnoreCase (t.nameFor name.val).tableName.val name.val = true
    · apply tableLoad_congr
      apply hagree
      apply tablePath_mem_pathsOf
      rw [hnames, if_neg (by simp [hl, heq])]
      split_ifs <;> simp
    · have hrefused : ¬ t.Accepts name.val := fun h => heq h.1
      dsimp only
      rw [tableLoad_refused (by simpa using hl) hrefused,
        tableLoad_refused (by simpa using hl) hrefused]

/-- What `storage_insert` makes of the content of the file. -/
def storageInsertContent (stmt : InsertStatement) (file : Option CString) :
    Option CString × Status :=
  match storageReadHeader (file.getD []) with
  | none                     => (some (file.getD []), .failure)
  | some (existing, stream) =>
    match if existing.isEmpty then storageInsertNew stream stmt
        else storageInsertExisting stream existing stmt with
    | none     => (some (file.getD []), .failure)
    | some row => (some (file.getD [] ++ row), .success)

lemma storageInsert_eq_content (files : Files) (name : Identifier) (stmt : InsertStatement) :
    storageInsert files name.val stmt =
      (Function.update files (tablePath name)
        (storageInsertContent stmt (files (tablePath name))).1,
        (storageInsertContent stmt (files (tablePath name))).2) := by
  unfold storageInsert storageInsertContent
  rw [storageBuildPath_val]
  dsimp only
  cases storageReadHeader ((files (tablePath name)).getD []) with
  | none => rfl
  | some header =>
    obtain ⟨existing, stream⟩ := header
    dsimp only
    generalize (if existing.isEmpty = true then storageInsertNew stream stmt
      else storageInsertExisting stream existing stmt) = written
    cases written <;> rfl

lemma storageInsert_confined (name : Identifier) (stmt : InsertStatement) {names : List CString}
    (h : name.val ∈ names) :
    Confined (pathsOf names) (fun files => storageInsert files name.val stmt) files := by
  have heq : (fun files => storageInsert files name.val stmt) = fun files : Files =>
      (Function.update files (tablePath name)
        (storageInsertContent stmt (files (tablePath name))).1,
        (storageInsertContent stmt (files (tablePath name))).2) :=
    funext fun files => storageInsert_eq_content files name stmt
  rw [heq]
  exact Confined.modify (tablePath_mem_pathsOf h) (storageInsertContent stmt)

lemma tableStoreRow_confined (t : TableRuntime) (stmt : InsertStatement) :
    Confined (pathsOf (tableStoreNames files t stmt)) (fun files => tableStoreRow files t stmt)
      files := by
  unfold tableStoreRow tableStoreNames
  generalize tableAppendRow t stmt = appended
  obtain ⟨t₁, st⟩ := appended
  cases st with
  | failure => exact Confined.pure _
  | success =>
    dsimp only
    have hinsert := @storageInsert_confined files t₁.tableName stmt _
      (List.mem_singleton_self t₁.tableName.val)
    rw [← List.singleton_append, pathsOf_append]
    cases hst : storageInsert files t₁.tableName.val stmt with
    | mk files₁ st =>
      cases st with
      | success =>
        refine hinsert.seq (Confined.pure (t₁, some (t₁.rows.length - 1))) ?_
        intro files' hvalue
        rw [hst] at hvalue
        generalize storageInsert files' t₁.tableName.val stmt = stored at hvalue ⊢
        obtain ⟨files'', st⟩ := stored
        cases hvalue
        rfl
      | failure =>
        have hload := @tableLoad_confined files₁
          (tableResetAsUnloaded t₁ stmt.tableName.val).1 stmt.tableName
        have hrollback : Confined _ (fun files => (files, tableRollback files t₁ stmt, none))
            files₁ :=
          hload.map (g := fun r => (r.1, (none : Option Nat))) fun _ => rfl
        refine hinsert.seq (by rw [hst]; exact hrollback) ?_
        intro files' hvalue
        rw [hst] at hvalue
        generalize storageInsert files' t₁.tableName.val stmt = stored at hvalue ⊢
        obtain ⟨files'', st⟩ := stored
        cases hvalue
        rfl

lemma tableInsertLoaded_confined (t : TableRuntime) (stmt : InsertStatement) :
    Confined (pathsOf (tableInsertLoadedNames files t stmt))
      (fun files => tableInsertLoaded files t stmt) files := by
  unfold tableInsertLoaded tableInsertLoadedNames
  generalize tablePrepareSchema t stmt = prepared
  obtain ⟨t₂, st⟩ := prepared
  cases st with
  | failure => exact Confined.pure _
  | success => exact tableStoreRow_confined t₂ stmt

/-- A computation that loads a table and goes on with what it got. -/
lemma Confined.afterLoad {β : Type} {t t' : TableRuntime} {name : Identifier} {st : Status}
    {S : Set CString} {g h : Files → Files × β}
    (hload : tableLoadFromStorageIfNeeded files t name.val = (t', st)) (hg : Confined S g files)
    (hseq : ∀ files', tableLoadFromStorageIfNeeded files' t name.val = (t', st) →
      h files' = g files') :
    Confined (pathsOf (tableLoadNames files t name.val) ∪ S) h files := by
  apply (tableLoad_confined t name).seq hg
  intro files' hvalue
  exact hseq files' (hvalue.trans hload)

lemma tableInsertRow_confined (t : TableRuntime) (stmt : InsertStatement) :
    Confined (pathsOf (tableInsertNames files t stmt)) (fun files => tableInsertRow files t stmt)
      files := by
  simp only [tableInsertRow_eq, tableInsertNames_eq]
  split_ifs
  · rw [pathsOf_append]
    cases hload : tableLoadFromStorageIfNeeded files (t.nameFor stmt.tableName.val)
        stmt.tableName.val with
    | mk t₁ st =>
      cases st with
      | failure =>
        apply Confined.afterLoad hload (Confined.pure (t₁, none))
        intro files' hload'
        rw [hload']
      | success =>
        apply Confined.afterLoad hload (tableInsertLoaded_confined t₁ stmt)
        intro files' hload'
        rw [hload']
  · exact Confined.pure _

lemma executorExecuteInsert_confined (active : Option TableRuntime) (stmt : InsertStatement)
    (result : DbResult) :
    Confined (pathsOf (executorNames files active (.insert stmt)))
      (fun files => executorExecuteInsert files active stmt result) files := by
  unfold executorExecuteInsert
  rw [executorNames]
  generalize tableGetOrLoad active stmt.tableName.val = got
  obtain ⟨t₁, st⟩ := got
  cases st with
  | failure => exact Confined.pure _
  | success =>
    dsimp only
    rw [pathsOf_append]
    cases hload : tableLoadFromStorageIfNeeded files t₁ stmt.tableName.val with
    | mk t₂ st =>
      cases st with
      | failure =>
        apply Confined.afterLoad hload (Confined.pure (t₂, dbResultSetError result
          (bytes "Failed to load table from storage.")))
        intro files' hload'
        rw [hload']
      | success =>
        -- the result is computed from the slot that the insertion returns
        have hresult : Confined _ (fun files =>
            ((tableInsertRow files t₂ stmt).1, (tableInsertRow files t₂ stmt).2.1,
              (tableInsertRow files t₂ stmt).2.2.elim
                (dbResultSetError result
                  (bytes "Failed to insert row into " ++ stmt.tableName.val ++ bytes "."))
                fun _ => executorFinishInsert result stmt.tableName.val)) files :=
          (tableInsertRow_confined t₂ stmt).map (g := fun r => (r.1, r.2.elim
            (dbResultSetError result
              (bytes "Failed to insert row into " ++ stmt.tableName.val ++ bytes "."))
            fun _ => executorFinishInsert result stmt.tableName.val)) fun _ => rfl
        apply Confined.afterLoad hload hresult
        intro files' hload'
        rw [hload']
        dsimp only
        generalize tableInsertRow files' t₂ stmt = inserted
        obtain ⟨files'', t₃, slot⟩ := inserted
        cases slot <;> rfl

lemma executorExecuteSelect_confined (active : Option TableRuntime) (stmt : SelectStatement)
    (result : DbResult) :
    Confined (pathsOf (executorNames files active (.select stmt)))
      (fun files => (files, executorExecuteSelect files active stmt result)) files := by
  unfold executorExecuteSelect
  rw [executorNames]
  generalize tableGetOrLoad active stmt.tableName.val = got
  obtain ⟨t₁, st⟩ := got
  cases st with
  | failure => exact Confined.pure _
  | success =>
    dsimp only
    rw [← Set.union_empty (pathsOf _)]
    cases hload : tableLoadFromStorageIfNeeded files t₁ stmt.tableName.val with
    | mk t₂ st =>
      cases st with
      | failure =>
        apply Confined.afterLoad hload (Confined.pure (t₂, dbResultSetError result
          (bytes "Failed to load table from storage.")))
        intro files' hload'
        rw [hload']
      | success =>
        apply Confined.afterLoad hload (Confined.pure (if !t₂.loaded then
          (t₂, dbResultSetError result
            (bytes "Table '" ++ stmt.tableName.val ++ bytes "' not found in runtime."))
          else (t₂, executorSelectLoaded t₂ stmt result)))
        intro files' hload'
        rw [hload']

/-- The execution of a statement reads and changes no file but those of its names. -/
lemma executorExecuteIntoResult_confined (active : Option TableRuntime) (statement : SqlStatement)
    (result : DbResult) :
    Confined (pathsOf (executorNames files active statement))
      (fun files => executorExecuteIntoResult files active statement result) files := by
  cases statement with
  | insert stmt =>
    exact (executorExecuteInsert_confined active stmt result).map
      (g := fun r => (some r.1, r.2)) fun _ => rfl
  | select stmt =>
    exact (executorExecuteSelect_confined active stmt result).map
      (g := fun r => (some r.1, r.2)) fun _ => rfl
  | delete stmt => exact Confined.pure _

/-- `db_execute_sql` as a computation on the data directory: what it returns besides the files is
the new active table, the new cache and the result. -/
def dbExecuteSqlOn (db : Database) (sql : CString) (files : Files) :
    Files × Option TableRuntime × TokenizerCache × DbResult × Status :=
  let (db', result) := dbExecuteSql dbEngineInit { db with files := files } sql
  (db'.files, db'.active, db'.cache, result)

lemma dbExecuteSqlOn_confined (db : Database) (sql : CString) :
    Confined (pathsOf (dbExecuteSqlNames db sql)) (dbExecuteSqlOn db sql) db.files := by
  have heta : dbExecuteSqlOn db sql = fun files => dbExecuteSqlOn db sql files := rfl
  rw [heta]
  simp only [dbExecuteSqlOn, dbExecuteSql, dbExecuteSqlNames, dbEngineInit, Bool.not_true,
    Bool.false_eq_true, if_false]
  split_ifs
  · exact Confined.pure (db.active, db.cache, _)
  · generalize tokenizerTokenize db.cache (utilsTrim sql) = outcome
    obtain ⟨cache, tokens⟩ := outcome
    cases tokens with
    | none => exact Confined.pure (db.active, cache, _)
    | some tokens =>
      dsimp only
      split_ifs
      · exact Confined.pure (db.active, cache, _)
      · cases parserParse tokens with
        | none => exact Confined.pure (db.active, cache, _)
        | some statement =>
          exact (executorExecuteIntoResult_confined db.active statement dbResultInit).map
            (g := fun r => (r.1, cache, dbFinishExecution r.2.1 r.2.2)) fun _ => rfl

end Confinement

/-! ### Runs of a process -/

lemma statementOf_sqlName {sql : CString} {stmt : SqlStatement} (h : statementOf sql = .ok stmt) :
    IsSqlName stmt.tableName.val := by
  obtain ⟨tokens, htokens, hparse⟩ := statementOf_ok h
  exact (parserParse_identifiers (tokensOf_sqlNames htokens) hparse).1

/-- The names that identifier tokens can have. -/
def sqlNames : Set Identifier := { name | IsSqlName name.val }

/-- Whatever a process has run, its active table has such a name. -/
lemma dbRun_activeNamed (files : Files) (sqls : List CString) :
    ActiveNamed sqlNames (dbRun files sqls).store := by
  induction sqls using List.reverseRecOn with
  | nil =>
    intro t ht
    cases ht
  | append_singleton sqls sql ih =>
    have hexec := (dbExecuteSql_eq (dbRun_sound files sqls) sql).2
    have hstore : (dbRun files (sqls ++ [sql])).store =
        (executeText (dbRun files sqls).store sql).1 := by
      rw [dbRun_append, ← hexec]
    rw [hstore, executeText]
    cases hstmt : statementOf sql with
    | error message => exact ih
    | ok stmt => exact ih.execute (statementOf_sqlName hstmt)

lemma dbExecuteSqlNames_eq {db : Database} (h : db.cache.Sound) (sql : CString) :
    dbExecuteSqlNames db sql =
      (statementOf sql).toOption.elim [] (executorNames db.files db.active) := by
  obtain ⟨-, htokens⟩ := h.tokenize (utilsTrim sql)
  unfold dbExecuteSqlNames statementOf
  dsimp only
  split_ifs
  · rfl
  · rw [← htokens]
    generalize tokenizerTokenize db.cache (utilsTrim sql) = outcome
    obtain ⟨cache, tokens⟩ := outcome
    cases tokens with
    | none => rfl
    | some tokens =>
      dsimp only
      split_ifs
      · rfl
      · cases parserParse tokens <;> rfl

lemma dbExecuteSqlNames_named (files : Files) (sqls : List CString) (sql : CString) :
    ∀ n ∈ dbExecuteSqlNames (dbRun files sqls) sql, Named (· ∈ sqlNames) n := by
  rw [dbExecuteSqlNames_eq (dbRun_sound files sqls)]
  cases hstmt : statementOf sql with
  | error message =>
    rintro n ⟨⟩
  | ok stmt => exact executorNames_named (dbRun_activeNamed files sqls) (statementOf_sqlName hstmt)

lemma IsSqlName.not_mem {s : CString} (h : IsSqlName s) {b : Byte} (hword : isWordByte b = false)
    (hstar : b ≠ chr '*') : b ∉ s := by
  intro hmem
  rcases h.isName.2 b hmem with hb | hb
  · rw [hword] at hb
    cases hb
  · exact hstar hb

/-- Whatever a process has run before, the names that a text passes to `storage_build_path` are
words or the asterisk, of 1 to 63 bytes; all of them give the path `data/<name>.csv`, and the
execution reads and changes no other file. -/
theorem dbExecuteSql_paths (files : Files) (sqls : List CString) (sql : CString) :
    (∀ n ∈ dbExecuteSqlNames (dbRun files sqls) sql,
      (1 ≤ n.length ∧ n.length ≤ 63) ∧ IsSqlName n ∧ chr '/' ∉ n ∧ chr '.' ∉ n ∧
        storageBuildPath n = some (bytes "data/" ++ n ++ bytes ".csv")) ∧
    Confined (pathsOf (dbExecuteSqlNames (dbRun files sqls) sql))
      (dbExecuteSqlOn (dbRun files sqls) sql) (dbRun files sqls).files := by
  refine ⟨?_, dbExecuteSqlOn_confined _ _⟩
  intro n hn
  obtain ⟨name, rfl, hname⟩ := dbExecuteSqlNames_named files sqls sql n hn
  have hsql : IsSqlName name.val := hname
  refine ⟨⟨?_, name.property.1⟩, hsql, hsql.not_mem (by decide) (by decide),
    hsql.not_mem (by decide) (by decide), storageBuildPath_val name⟩
  exact List.length_pos_of_ne_nil hsql.isName.1

example : dbExecuteSqlNames (.fresh emptyDirectory) (bytes "INSERT INTO t (x) VALUES ('../a');") =
    [bytes "t", bytes "t", bytes "t"] := by decide +kernel

end MiniDbms
