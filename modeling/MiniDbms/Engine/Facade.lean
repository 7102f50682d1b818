import MiniDbms.Engine.Executor
import MiniDbms.Sql.TokenizerCache

/-!
# The engine of `db_engine_facade.c`

A text is tokenized, parsed and executed. The state of the process is the data directory, the
active table and the token cache. The cache does not show in results, so that the rest of the
development works with the text's statement alone.
-/

namespace MiniDbms

/-- The data directory and the static state of the process. -/
structure Database where
  files : Files
  active : Option TableRuntime
  cache : TokenizerCache

/-- A process that has not run anything yet. -/
def Database.fresh (files : Files) : Database := ⟨files, none, .empty⟩

/-- A data directory without any file. -/
def emptyDirectory : Files := fun _ => none

structure DbEngine where
  initialized : Bool
  deriving DecidableEq, Repr

/-- `db_engine_init` -/
def dbEngineInit : DbEngine := ⟨true⟩

/-- `db_engine_fail` -/
def dbEngineFail (result : DbResult) (message : CString) : DbResult × Status :=
  ((dbResultSetError result message).1, .failure)

/-- `db_engine_parse_statement` -/
def dbEngineParseStatement (cache : TokenizerCache) (sql : CString) :
    TokenizerCache × Option SqlStatement :=
  let working := utilsTrim sql
  if working.isEmpty then (cache, none)
  else
    match tokenizerTokenize cache working with
    | (cache, none)        => (cache, none)
    | (cache, some tokens) => (cache, if tokens.isEmpty then none else parserParse tokens)

/-- The last part of `db_execute_sql`: a failure always has a message. -/
def dbFinishExecution (result : DbResult) (status : Status) : DbResult × Status :=
  if status ≠ .success ∧ result.message.val.isEmpty then
    ((dbEngineFail result (bytes "Failed to execute SQL statement.")).1, status)
  else (result, status)

/-- `db_execute_sql` -/
def dbExecuteSql (engine : DbEngine) (db : Database) (sql : CString) :
    Database × DbResult × Status :=
  if !engine.initialized then
    (db, dbEngineFail dbResultInit (bytes "DB engine is not initialized."))
  else
    let working := utilsTrim sql
    if working.isEmpty then (db, dbEngineFail dbResultInit (bytes "SQL statement is empty."))
    else
      match tokenizerTokenize db.cache working with
      | (cache, none)        =>
        ({ db with cache := cache },
          dbEngineFail dbResultInit (bytes "Failed to tokenize SQL statement."))
      | (cache, some tokens) =>
        if tokens.isEmpty then
          ({ db with cache := cache },
            dbEngineFail dbResultInit (bytes "Failed to tokenize SQL statement."))
        else
          match parserParse tokens with
          | none           =>
            ({ db with cache := cache },
              dbEngineFail dbResultInit (bytes "Failed to parse SQL statement."))
          | some statement =>
            match executorExecuteIntoResult db.files db.active statement dbResultInit with
            | (files, active, result, status) =>
              (⟨files, active, cache⟩, dbFinishExecution result status)

/-! ### Without the cache -/

/-- The statement of a text, or the message why there is none. -/
def statementOf (sql : CString) : Except CString SqlStatement :=
  let working := utilsTrim sql
  if working.isEmpty then .error (bytes "SQL statement is empty.")
  else
    match tokensOf working with
    | none        => .error (bytes "Failed to tokenize SQL statement.")
    | some tokens =>
      if tokens.isEmpty then .error (bytes "Failed to tokenize SQL statement.")
      else
        match parserParse tokens with
        | none           => .error (bytes "Failed to parse SQL statement.")
        | some statement => .ok statement

lemma statementOf_ok {sql : CString} {stmt : SqlStatement} (h : statementOf sql = .ok stmt) :
    ∃ tokens, tokensOf (utilsTrim sql) = some tokens ∧ parserParse tokens = some stmt := by
  unfold statementOf at h
  dsimp only at h
  split_ifs at h
  cases htokens : tokensOf (utilsTrim sql) with
  | none =>
    rw [htokens] at h
    cases h
  | some tokens =>
    rw [htokens] at h
    dsimp only at h
    split_ifs at h
    cases hparse : parserParse tokens with
    | none =>
      rw [hparse] at h
      cases h
    | some stmt' =>
      rw [hparse] at h
      cases h
      exact ⟨tokens, rfl, hparse⟩

/-- The part of the state that lasts: the data directory and the active table. -/
abbrev Store := Files × Option TableRuntime

def Database.store (db : Database) : Store := (db.files, db.active)

/-- The execution of a statement on the store. -/
def executeStatement (store : Store) (statement : SqlStatement) : Store × DbResult × Status :=
  match executorExecuteIntoResult store.1 store.2 statement dbResultInit with
  | (files, active, result, status) => ((files, active), dbFinishExecution result status)

/-- A query changes nothing but the active table. -/
lemma executeStatement_select (store : Store) (stmt : SelectStatement) :
    (executeStatement store (.select stmt)).1 =
      (store.1, some (statementTable store.1 store.2 stmt.tableName)) := by
  rw [← executorExecuteSelect_table _ _ _ dbResultInit]
  rfl

/-- The execution of a text on the store. -/
def executeText (store : Store) (sql : CString) : Store × DbResult × Status :=
  match statementOf sql with
  | .error message => (store, dbEngineFail dbResultInit message)
  | .ok statement  => executeStatement store statement

/-- With a sound cache, parsing for the lock mode finds the statement of the text. -/
lemma dbEngineParseStatement_eq {cache : TokenizerCache} (h : cache.Sound) (sql : CString) :
    (dbEngineParseStatement cache sql).1.Sound ∧
      (dbEngineParseStatement cache sql).2 = (statementOf sql).toOption := by
  obtain ⟨hsound, htokens⟩ := h.tokenize (utilsTrim sql)
  unfold dbEngineParseStatement statementOf
  dsimp only
  split_ifs with hempty
  · exact ⟨h, rfl⟩
  · rw [← htokens]
    generalize tokenizerTokenize cache (utilsTrim sql) = outcome at hsound ⊢
    obtain ⟨cache', tokens⟩ := outcome
    refine ⟨?_, ?_⟩
    · cases tokens <;> exact hsound
    · cases tokens with
      | none => rfl
      | some tokens =>
        dsimp only
        split_ifs
        · rfl
        · cases parserParse tokens <;> rfl

/-- With a sound cache, `db_execute_sql` executes the text on the store. -/
lemma dbExecuteSql_eq {db : Database} (h : db.cache.Sound) (sql : CString) :
    (dbExecuteSql dbEngineInit db sql).1.cache.Sound ∧
      ((dbExecuteSql dbEngineInit db sql).1.store, (dbExecuteSql dbEngineInit db sql).2) =
        executeText db.store sql := by
  obtain ⟨hsound, htokens⟩ := h.tokenize (utilsTrim sql)
  unfold dbExecuteSql executeText statementOf
  simp only [dbEngineInit, Bool.not_true, Bool.false_eq_true, if_false]
  by_cases hempty : (utilsTrim sql).isEmpty = true
  · rw [if_pos hempty, if_pos hempty]
    exact ⟨h, rfl⟩
  · rw [if_neg hempty, if_neg hempty, ← htokens]
    generalize tokenizerTokenize db.cache (utilsTrim sql) = outcome at hsound ⊢
    obtain ⟨cache', tokens⟩ := outcome
    cases tokens with
    | none => exact ⟨hsound, rfl⟩
    | some tokens =>
      dsimp only
      by_cases hnil : tokens.isEmpty = true
      · rw [if_pos hnil, if_pos hnil]
        exact ⟨hsound, rfl⟩
      · rw [if_neg hnil, if_neg hnil]
        cases parserParse tokens with
        | none => exact ⟨hsound, rfl⟩
        | some statement => exact ⟨hsound, rfl⟩

/-- The state of a process after a sequence of texts. -/
def dbRun (files : Files) (sqls : List CString) : Database :=
  sqls.foldl (fun db sql => (dbExecuteSql dbEngineInit db sql).1) (.fresh files)

lemma dbRun_append (files : Files) (sqls : List CString) (sql : CString) :
    dbRun files (sqls ++ [sql]) = (dbExecuteSql dbEngineInit (dbRun files sqls) sql).1 := by
  simp [dbRun]

lemma dbRun_sound (files : Files) (sqls : List CString) : (dbRun files sqls).cache.Sound := by
  induction sqls using List.reverseRecOn with
  | nil => exact TokenizerCache.sound_empty
  | append_singleton sqls sql ih =>
    rw [dbRun_append]
    exact (dbExecuteSql_eq ih sql).1

end MiniDbms
