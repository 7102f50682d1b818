import MiniDbms.Engine.Facade
import MiniDbms.Runtime.Rollback
import MiniDbms.Sql.Names

/-!
# The file that a statement addresses

The active table is found without regard to case, while a file is found by the name as it is
written. Which file a statement works on therefore depends on the statements before it, unless no
table is ever named in two spellings.
-/

namespace MiniDbms

/-- The file of the table that a statement works on: a query reads the rows of that table, an
insertion appends to that file. -/
def statementFile (store : Store) (name : Identifier) : CString :=
  tablePath (statementTable store.1 store.2 name).tableName

/-- The store after a sequence of statements, in a process that starts with the files. -/
def statementRun (files : Files) (history : List SqlStatement) : Store :=
  history.foldl (fun store stmt => (executeStatement store stmt).1) (files, none)

/-- The statements that work on a table. -/
def SqlStatement.Addresses : SqlStatement → Prop
  | delete _ => False
  | _        => True

/-- After any two histories that leave the same files, a statement addresses the same file, all
statements naming tables of `names`. -/
def CacheIndependent (names : Set Identifier) : Prop :=
  ∀ (files : Files) (history history' : List SqlStatement) (stmt : SqlStatement),
    (∀ s ∈ history, s.tableName ∈ names) → (∀ s ∈ history', s.tableName ∈ names) →
    stmt.tableName ∈ names → stmt.Addresses →
    (statementRun files history).1 = (statementRun files history').1 →
      statementFile (statementRun files history) stmt.tableName =
        statementFile (statementRun files history') stmt.tableName

/-- No two names differ only in the case of letters. -/
def OneSpelling (names : Set Identifier) : Prop :=
  ∀ n ∈ names, ∀ m ∈ names, utilsEqualsIgnoreCase n.val m.val = true → n = m

/-! ### The name of the table -/

section Name

variable {files : Files} {t : TableRuntime} {name : Identifier} {P : Identifier → Prop}

lemma TableRuntime.nameFor_closed (h : P t.tableName) (hname : P name) :
    P (t.nameFor name.val).tableName := by
  rw [TableRuntime.nameFor_tableName]
  split_ifs
  · exact hname
  · exact h

/-- A load request leaves the table under its own name or under the requested one. -/
lemma tableLoad_closed (files : Files) (h : P t.tableName) (hname : P name) :
    P (tableLoadFromStorageIfNeeded files t name.val).1.tableName := by
  cases hl : t.loaded with
  | true => simpa [tableLoadFromStorageIfNeeded, hl] using h
  | false =>
    rcases tableLoad_cases files hl name.val with
      ⟨-, hload⟩ | ⟨-, hfits, ⟨-, hload⟩ | ⟨-, t', ht', hload⟩ | ⟨t', hfrom, hload⟩⟩
    · rw [hload]
      exact TableRuntime.nameFor_closed h hname
    · rw [hload]
      exact TableRuntime.nameFor_closed h hname
    · rw [hload]
      rcases ht' with rfl | rfl
      · exact TableRuntime.nameFor_closed h hname
      · exact hname
    · rw [hload, (tableFromStorage_some hfrom).2.1]
      exact hname

lemma tableLoad_keeps_name (files : Files) (h : t.tableName = name) :
    (tableLoadFromStorageIfNeeded files t name.val).1.tableName = name :=
  tableLoad_closed (P := (· = name)) files h rfl

lemma tableInitializeSchema_tableName (t : TableRuntime) (stmt : InsertStatement) :
    (tableInitializeSchema t stmt).1.tableName = t.tableName := by
  unfold tableInitializeSchema
  split_ifs
  · rfl
  · split <;> rfl

lemma tableAppendRow_tableName (t : TableRuntime) (stmt : InsertStatement) :
    (tableAppendRow t stmt).1.tableName = t.tableName := by
  have hfst : (tableReserveIfNeeded t).1.tableName = t.tableName := by
    rw [tableReserveIfNeeded_fst]
  unfold tableAppendRow
  generalize tableReserveIfNeeded t = res at hfst ⊢
  obtain ⟨t₁, st⟩ := res
  cases st with
  | failure => exact hfst
  | success =>
    dsimp only
    split_ifs
    · exact hfst
    · split
      · exact hfst
      · exact hfst

lemma tableStoreRow_closed {stmt : InsertStatement} (h : P t.tableName)
    (hname : P stmt.tableName) : P (tableStoreRow files t stmt).2.1.tableName := by
  have happend := (tableAppendRow_tableName t stmt).symm ▸ h
  unfold tableStoreRow
  generalize tableAppendRow t stmt = appended at happend ⊢
  obtain ⟨t₁, st⟩ := appended
  cases st with
  | failure => exact happend
  | success =>
    dsimp only
    generalize storageInsert files t₁.tableName.val stmt = stored
    obtain ⟨files', st⟩ := stored
    cases st with
    | failure =>
      dsimp only
      rw [tableRollback_eq]
      exact tableLoad_closed files' hname hname
    | success => exact happend

lemma tablePrepareSchema_tableName (t : TableRuntime) (stmt : InsertStatement) :
    (tablePrepareSchema t stmt).1.tableName = t.tableName := by
  unfold tablePrepareSchema
  split_ifs
  · rfl
  · exact tableInitializeSchema_tableName t stmt

/-- An insertion leaves the table under its own name or under that of the statement. -/
lemma tableInsertRow_closed {stmt : InsertStatement} (h : P t.tableName)
    (hname : P stmt.tableName) : P (tableInsertRow files t stmt).2.1.tableName := by
  have hnameFor := TableRuntime.nameFor_closed h hname
  have hload := tableLoad_closed files hnameFor hname
  rw [tableInsertRow_eq]
  split_ifs
  · generalize tableLoadFromStorageIfNeeded files (t.nameFor stmt.tableName.val)
      stmt.tableName.val = loaded at hload ⊢
    obtain ⟨t₁, st⟩ := loaded
    cases st with
    | failure => exact hload
    | success =>
      dsimp only at hload ⊢
      have hschema := (tablePrepareSchema_tableName t₁ stmt).symm ▸ hload
      unfold tableInsertLoaded
      generalize tablePrepareSchema t₁ stmt = prepared at hschema ⊢
      obtain ⟨t₂, st⟩ := prepared
      cases st with
      | failure => exact hschema
      | success => exact tableStoreRow_closed hschema hname
  · exact hnameFor

/-- Loading the table of a statement once more keeps its name. -/
lemma statementTable_reload (files : Files) (active : Option TableRuntime) (name : Identifier) :
    (tableLoadFromStorageIfNeeded files ((statementTable files active name).nameFor name.val)
      name.val).1.tableName = (statementTable files active name).tableName := by
  by_cases hsame : (statementTable files active name).tableName = name
  · have hnameFor : ((statementTable files active name).nameFor name.val).tableName = name := by
      rw [TableRuntime.nameFor_tableName, hsame, ite_self]
    rw [tableLoad_keeps_name files hnameFor, hsame]
  · -- the active table was found under another spelling and is the table of the statement
    have hkept : (tableGetOrLoad active name.val).1.tableName.val ≠ [] ∧
        statementTable files active name = (tableGetOrLoad active name.val).1 := by
      have hother : (tableGetOrLoad active name.val).1.tableName ≠ name :=
        fun h => hsame (tableLoad_keeps_name files h)
      have hne : (tableGetOrLoad active name.val).1.tableName.val ≠ [] := by
        have hnew : ∀ u : TableRuntime, tableSetActiveName (tableFree u) name.val =
            (.named name, .success) := fun u => tableResetAsUnloaded_eq u name
        unfold tableGetOrLoad at hother ⊢
        simp only [hnew] at hother ⊢
        split_ifs at hother ⊢ with hmatch
        · simp only [Bool.and_eq_true, Bool.not_eq_true', List.isEmpty_eq_false_iff] at hmatch
          exact hmatch.1
        · exact absurd rfl hother
      refine ⟨hne, ?_⟩
      unfold statementTable at hsame ⊢
      have hnameFor := TableRuntime.nameFor_of_nonempty hne name.val
      cases hl : (tableGetOrLoad active name.val).1.loaded with
      | true => simp [tableLoadFromStorageIfNeeded, hl]
      | false =>
        rcases tableLoad_cases files hl name.val with
          ⟨-, hload⟩ | ⟨-, hname, ⟨-, hload⟩ | ⟨-, t', ht', hload⟩ | ⟨t', hfrom, hload⟩⟩
        · rw [hload, hnameFor]
        · rw [hload, hnameFor]
        · rw [hload] at hsame ⊢
          rcases ht' with rfl | rfl
          · exact hnameFor
          · exact absurd rfl hsame
        · rw [hload] at hsame
          exact absurd (tableFromStorage_some hfrom).2.1 hsame
    have hagain : tableLoadFromStorageIfNeeded files (statementTable files active name) name.val =
        tableLoadFromStorageIfNeeded files (tableGetOrLoad active name.val).1 name.val := by
      rw [hkept.2]
    rw [TableRuntime.nameFor_of_nonempty (by rw [hkept.2]; exact hkept.1), hagain]
    rfl

end Name

/-! ### An insertion changes no other file -/

lemma storageInsert_frame {files : Files} {name : Identifier} (stmt : InsertStatement)
    {path : CString} (h : path ≠ tablePath name) :
    (storageInsert files name.val stmt).1 path = files path := by
  rw [storageInsert_eq (storageBuildPath_val name)]
  cases storageInsertText ((files (tablePath name)).getD []) stmt with
  | none => exact Function.update_of_ne h _ _
  | some text => exact Function.update_of_ne h _ _

lemma tableStoreRow_frame {files : Files} {t : TableRuntime} (stmt : InsertStatement)
    {path : CString} (h : path ≠ tablePath t.tableName) :
    (tableStoreRow files t stmt).1 path = files path := by
  have happend := tableAppendRow_tableName t stmt
  unfold tableStoreRow
  generalize tableAppendRow t stmt = appended at happend ⊢
  obtain ⟨t₁, st⟩ := appended
  cases st with
  | failure => rfl
  | success =>
    have hframe : (storageInsert files t₁.tableName.val stmt).1 path = files path :=
      storageInsert_frame stmt (happend ▸ h)
    dsimp only
    generalize storageInsert files t₁.tableName.val stmt = stored at hframe ⊢
    obtain ⟨files', st⟩ := stored
    cases st <;> exact hframe

lemma tableInsertRow_frame {files : Files} {t : TableRuntime} (stmt : InsertStatement)
    {path : CString}
    (h : path ≠ tablePath (tableLoadFromStorageIfNeeded files (t.nameFor stmt.tableName.val)
      stmt.tableName.val).1.tableName) :
    (tableInsertRow files t stmt).1 path = files path := by
  rw [tableInsertRow_eq]
  split_ifs
  · generalize tableLoadFromStorageIfNeeded files (t.nameFor stmt.tableName.val)
      stmt.tableName.val = loaded at h ⊢
    obtain ⟨t₁, st⟩ := loaded
    cases st with
    | failure => rfl
    | success =>
      dsimp only at h ⊢
      have hschema := tablePrepareSchema_tableName t₁ stmt
      unfold tableInsertLoaded
      generalize tablePrepareSchema t₁ stmt = prepared at hschema ⊢
      obtain ⟨t₂, st⟩ := prepared
      cases st with
      | failure => rfl
      | success => exact tableStoreRow_frame stmt (hschema ▸ h)
  · rfl

/-- No statement changes a file other than the one it addresses. -/
theorem executeStatement_frame (store : Store) (stmt : SqlStatement) {path : CString}
    (h : path ≠ statementFile store stmt.tableName) :
    (executeStatement store stmt).1.1 path = store.1 path := by
  cases stmt with
  | delete stmt => rfl
  | select stmt => rw [executeStatement_select]
  | insert stmt =>
    have hfiles : (executeStatement store (.insert stmt)).1.1 =
        (executorExecuteInsert store.1 store.2 stmt dbResultInit).1 := rfl
    rw [hfiles]
    rcases executorExecuteInsert_table store.1 store.2 stmt dbResultInit with
      ⟨hinsert, -⟩ | ⟨hinsert, -⟩
    · rw [hinsert]
    · rw [hinsert]
      apply tableInsertRow_frame
      rw [statementTable_reload]
      exact h

/-! ### Histories with one spelling of every name -/

section OneSpelling

variable {names : Set Identifier} {active : Option TableRuntime}

/-- The active table has one of the names. -/
def ActiveNamed (names : Set Identifier) (store : Store) : Prop :=
  ∀ t ∈ store.2, t.tableName ∈ names

lemma tableGetOrLoad_closed {P : Identifier → Prop} {name : Identifier}
    (h : ∀ t ∈ active, P t.tableName) (hname : P name) :
    P (tableGetOrLoad active name.val).1.tableName := by
  have hnew : ∀ u : TableRuntime, tableSetActiveName (tableFree u) name.val =
      (.named name, .success) := fun u => tableResetAsUnloaded_eq u name
  unfold tableGetOrLoad
  simp only [hnew]
  cases active with
  | none => simpa [tableInit, CBuf.empty, TableRuntime.named] using hname
  | some t =>
    rw [Option.getD_some]
    split_ifs
    · exact h t rfl
    · exact hname

/-- A statement works on a table of its own name or of that of the active table. -/
lemma statementTable_closed {P : Identifier → Prop} (files : Files) {name : Identifier}
    (h : ∀ t ∈ active, P t.tableName) (hname : P name) :
    P (statementTable files active name).tableName :=
  tableLoad_closed files (tableGetOrLoad_closed h hname) hname

lemma ActiveNamed.execute {store : Store} (h : ActiveNamed names store) {stmt : SqlStatement}
    (hstmt : stmt.tableName ∈ names) : ActiveNamed names (executeStatement store stmt).1 := by
  cases stmt with
  | delete stmt => exact h
  | select stmt =>
    rw [executeStatement_select]
    rintro t ⟨⟩
    exact statementTable_closed store.1 h hstmt
  | insert stmt =>
    have htable : (statementTable store.1 store.2 stmt.tableName).tableName ∈ names :=
      statementTable_closed store.1 h hstmt
    have hactive : (executeStatement store (.insert stmt)).1.2 =
        some (executorExecuteInsert store.1 store.2 stmt dbResultInit).2.1 := rfl
    intro t ht
    rw [hactive] at ht
    obtain rfl := Option.mem_some_iff.mp ht
    rcases executorExecuteInsert_table store.1 store.2 stmt dbResultInit with
      ⟨-, hinsert⟩ | ⟨-, hinsert⟩
    · rw [hinsert]
      exact htable
    · rw [hinsert]
      exact tableInsertRow_closed (P := (· ∈ names)) htable hstmt

lemma tableGetOrLoad_tableName (hone : OneSpelling names)
    (h : ∀ t ∈ active, t.tableName ∈ names) {name : Identifier} (hname : name ∈ names) :
    (tableGetOrLoad active name.val).1.tableName = name := by
  have hnew : ∀ u : TableRuntime, tableSetActiveName (tableFree u) name.val =
      (.named name, .success) := fun u => tableResetAsUnloaded_eq u name
  unfold tableGetOrLoad
  simp only [hnew]
  cases active with
  | none => simp [tableInit, CBuf.empty, TableRuntime.named]
  | some t =>
    simp only [Option.getD_some]
    split_ifs with hmatch
    · simp only [Bool.and_eq_true] at hmatch
      exact hone _ (h t rfl) _ hname hmatch.2
    · rfl

/-- The statement works on the table of exactly its name. -/
lemma statementTable_tableName (hone : OneSpelling names) {store : Store}
    (h : ActiveNamed names store) {name : Identifier} (hname : name ∈ names) :
    (statementTable store.1 store.2 name).tableName = name :=
  tableLoad_keeps_name store.1 (tableGetOrLoad_tableName hone h hname)

lemma statementRun_activeNamed (files : Files) {history : List SqlStatement}
    (h : ∀ s ∈ history, s.tableName ∈ names) :
    ActiveNamed names (statementRun files history) := by
  induction history using List.reverseRecOn with
  | nil =>
    intro t ht
    cases ht
  | append_singleton history stmt ih =>
    have hrun : statementRun files (history ++ [stmt]) =
        (executeStatement (statementRun files history) stmt).1 := by
      simp [statementRun]
    rw [hrun]
    exact (ih fun s hs => h s (by simp [hs])).execute (h stmt (by simp))

end OneSpelling

/-! ### Two spellings -/

/-- `SELECT * FROM <name>` -/
def selectAll (name : Identifier) : SelectStatement := ⟨name, [], none, Nat.zero_le _⟩

/-- `INSERT INTO <name> (x) VALUES ('v')` -/
def insertInto (name : Identifier) : InsertStatement :=
  ⟨name, [⟨bytes "x", by decide⟩], [⟨bytes "v", by decide⟩], by decide, by decide⟩

/-- Without files, an empty table stays as it is. -/
lemma tableLoad_emptyDirectory {n m : Identifier} (hne : n.val ≠ [])
    (hsame : utilsEqualsIgnoreCase n.val m.val = true) :
    tableLoadFromStorageIfNeeded emptyDirectory (.named n) m.val = (.named n, .success) := by
  have hnameFor : (TableRuntime.named n).nameFor m.val = .named n :=
    TableRuntime.nameFor_of_nonempty hne m.val
  have hacc : (TableRuntime.named n).Accepts m.val := by
    refine ⟨by rw [hnameFor]; exact hsame, fun hempty => ?_⟩
    exact absurd (List.isEmpty_iff.mp hempty) hne
  have hmissing : storageTableExists emptyDirectory m.val = false := by
    rw [storageTableExists, storageBuildPath_val]
    rfl
  rw [tableLoad_accepted (TableRuntime.named_unloaded n).loaded hacc, hmissing, hnameFor]
  rfl

/-- Without files, the first statement leaves an empty table of its name. -/
lemma statementTable_first {n : Identifier} (hne : n.val ≠ []) :
    statementTable emptyDirectory none n = .named n := by
  have hget : tableGetOrLoad none n.val = (.named n, .success) := by
    rw [tableGetOrLoad, if_neg (by simp [tableInit, CBuf.empty])]
    exact tableResetAsUnloaded_eq tableInit n
  rw [statementTable, hget, tableLoad_emptyDirectory hne (utilsEqualsIgnoreCase_self _)]

/-- A statement that spells the name of that table in another way still gets it. -/
lemma statementTable_second {n m : Identifier} (hne : n.val ≠ [])
    (hsame : utilsEqualsIgnoreCase n.val m.val = true) :
    statementTable emptyDirectory (some (.named n)) m = .named n := by
  have hget : tableGetOrLoad (some (.named n)) m.val = (.named n, .success) := by
    simp [tableGetOrLoad, TableRuntime.named, hne, hsame]
  rw [statementTable, hget, tableLoad_emptyDirectory hne hsame]

/-- Statements address files independently of the active table exactly when no table is named in
two spellings. -/
theorem cacheIndependent_iff (names : Set Identifier) :
    CacheIndependent names ↔ OneSpelling names := by
  constructor
  · intro h n hn m hm hsame
    by_cases hne : n.val = []
    · have hlen := congrArg List.length (utilsEqualsIgnoreCase_iff.mp hsame)
      rw [List.length_map, List.length_map, hne] at hlen
      apply CBuf.ext
      rw [hne, List.length_eq_zero_iff.mp hlen.symm]
    · have hne' : m.val ≠ [] := by
        intro hnil
        have hlen := congrArg List.length (utilsEqualsIgnoreCase_iff.mp hsame)
        rw [List.length_map, List.length_map, hnil] at hlen
        exact hne (List.length_eq_zero_iff.mp hlen)
      -- a query about `n` leaves the table that an insertion into `m` then finds
      have hrun : statementRun emptyDirectory [.select (selectAll n)] =
          (emptyDirectory, some (.named n)) := by
        have hselect := executeStatement_select (emptyDirectory, none) (selectAll n)
        rw [statementRun, List.foldl_cons, hselect, List.foldl_nil]
        exact congrArg (fun t => (emptyDirectory, some t)) (statementTable_first hne)
      have hfiles := h emptyDirectory [.select (selectAll n)] [] (.insert (insertInto m))
        (by simpa [SqlStatement.tableName, selectAll] using hn) (by simp) hm trivial
        (by rw [hrun]; rfl)
      have hfirst : statementFile (statementRun emptyDirectory []) m = tablePath m := by
        rw [statementFile]
        exact congrArg (fun t => tablePath t.tableName) (statementTable_first hne')
      have hsecond : statementFile (statementRun emptyDirectory [.select (selectAll n)]) m =
          tablePath n := by
        rw [statementFile, hrun, statementTable_second hne hsame]
        rfl
      apply tablePath_injective
      rw [← hsecond, ← hfirst]
      exact hfiles
  · intro hone files history history' stmt hhistory hhistory' hstmt _ _
    have hact := statementRun_activeNamed files hhistory
    have hact' := statementRun_activeNamed files hhistory'
    rw [statementFile, statementFile, statementTable_tableName hone hact hstmt,
      statementTable_tableName hone hact' hstmt]

/-- Two tables whose names differ in the case of a letter. -/
def twoFiles : Files := Function.update
  (singleFile (bytes "data/a.csv") (bytes "id,x\n1,small\n")) (bytes "data/A.csv")
  (some (bytes "id,x\n1,capital\n"))

/-- After a query about `a`, a query about `A` reads the file of `a`. -/
theorem cacheIndependent_fails :
    ¬ ∀ (files : Files) (history history' : List SqlStatement) (stmt : SqlStatement),
      stmt.Addresses → (statementRun files history).1 = (statementRun files history').1 →
        statementFile (statementRun files history) stmt.tableName =
          statementFile (statementRun files history') stmt.tableName := by
  intro h
  have hfile := h twoFiles [.select (selectAll ⟨bytes "a", by decide⟩)] []
    (.select (selectAll ⟨bytes "A", by decide⟩)) trivial
    (by
      have hselect := executeStatement_select (twoFiles, none) (selectAll ⟨bytes "a", by decide⟩)
      rw [statementRun, List.foldl_cons, hselect]
      rfl)
  revert hfile
  decide

end MiniDbms
