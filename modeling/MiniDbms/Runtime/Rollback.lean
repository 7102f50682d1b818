import MiniDbms.Runtime.Reachable

/-!
# Failed insertions

An insertion that fails should change nothing. Before the row is in memory nothing has changed;
afterwards the rollback of `table_insert_row` discards the table and loads it again, under the name
as the statement spells it. The table was found without regard to case, so that name may belong to
another file, or to none.
-/

namespace MiniDbms

/-- The same columns, rows, next id and index. -/
structure SameContents (t t' : TableRuntime) : Prop where
  columns : t'.columns = t.columns
  rows : t'.rows = t.rows
  nextId : t'.nextId = t.nextId
  idIndex : t'.idIndex = t.idIndex

lemma SameContents.refl (t : TableRuntime) : SameContents t t := ⟨rfl, rfl, rfl, rfl⟩

/-- Columns and rows determine the rest of a consistent table. -/
lemma SameContents.of_consistent {t t' : TableRuntime} (h : t.Consistent) (h' : t'.Consistent)
    (hcols : t'.columns = t.columns) (hrows : t'.rows = t.rows) : SameContents t t' := by
  have hid : t'.idColumnIndex = t.idColumnIndex := by
    have := h'.id_column
    rw [hcols, h.id_column, Option.some.injEq] at this
    exact this.symm
  have hids : t'.ids = t.ids := by
    simp only [TableRuntime.ids, TableRuntime.idText, hrows, hid]
  constructor
  · exact hcols
  · exact hrows
  · rw [h'.next_id, h.next_id, hids]
  · rw [h'.index, h.index, hids]

/-- A table that is not loaded, or holds what its file loads to; only the capacity may differ. -/
def Settled (files : Files) (t : TableRuntime) : Prop :=
  t.Unloaded ∨ ∃ t₀ c, tableFromStorage files t.tableName = some t₀ ∧ t = { t₀ with capacity := c }

/-- The table is not loaded and has no rows, or it holds what its file loads to. -/
def EmptyOrStored (files : Files) (t : TableRuntime) : Prop :=
  (t.loaded = false ∧ t.rows = []) ∨
    (t.loaded = true ∧ ∃ t₀, tableFromStorage files t.tableName = some t₀ ∧ SameContents t₀ t)

/-- If the insertion fails, the files are as before, and so is a table that was loaded. -/
def FailureIsNoOp (files : Files) (t : TableRuntime) (stmt : InsertStatement) : Prop :=
  ∀ files' t', tableInsertRow files t stmt = (files', t', none) →
    files' = files ∧ (t.loaded = true → t'.loaded = true ∧ SameContents t t') ∧
      (t.loaded = false → EmptyOrStored files t')

/-- `storage_insert` refuses a row that fits the table in memory. For a table with a name, this is
a statement that names the id column. -/
def StorageRefuses (files : Files) (t : TableRuntime) (stmt : InsertStatement) : Prop :=
  if t.tableName.val = [] then (storageInsert files stmt.tableName.val stmt).2 = .failure
  else stmt.NamesId

/-- Whenever the row has to be taken out of a loaded table again, the file that the statement
spells holds that table. -/
def RollbackRestores (files : Files) (t : TableRuntime) (stmt : InsertStatement) : Prop :=
  t.loaded = true →
  utilsEqualsIgnoreCase (t.nameFor stmt.tableName.val).tableName.val stmt.tableName.val = true →
  tableValidateInsertSchema t stmt = .success → t.nextId ≤ intMax → StorageRefuses files t stmt →
    ∃ t₁, tableFromStorage files stmt.tableName = some t₁ ∧ t₁.columns = t.columns ∧
      t₁.rows = t.rows

/-! ### Tables that are loaded -/

/-- An empty table takes what the file of its name loads to, if that is a table. -/
lemma tableLoad_named (files : Files) (name : Identifier) :
    (∃ t₁, tableFromStorage files name = some t₁ ∧
      (tableLoadFromStorageIfNeeded files (.named name) name.val).1 = t₁) ∨
    (tableFromStorage files name = none ∧
      (tableLoadFromStorageIfNeeded files (.named name) name.val).1 = .named name) := by
  have hname : (TableRuntime.named name).nameFor name.val = .named name := by
    unfold TableRuntime.nameFor
    rw [utilsSafeStrcpy_val]
    split_ifs <;> rfl
  have hacc : (TableRuntime.named name).Accepts name.val := by
    constructor
    · rw [hname]
      exact utilsEqualsIgnoreCase_self _
    · intro _
      rw [utilsSafeStrcpy_val]
  have hload := @tableLoad_accepted files _ _ (TableRuntime.named_unloaded name).loaded hacc
  rw [hload, hname]
  by_cases hexists : storageTableExists files name.val = true
  · rw [if_pos hexists]
    cases hfrom : tableFromStorage files name with
    | some t₁ => exact .inl ⟨t₁, rfl, rfl⟩
    | none => exact .inr ⟨rfl, by simp⟩
  · rw [if_neg hexists]
    refine .inr ⟨?_, rfl⟩
    have hmissing : files (tablePath name) = none := by
      simpa [storageTableExists, storageBuildPath_val] using hexists
    simp [tableFromStorage, storageLoadTable, storageBuildPath_val, hmissing]

lemma tableFromStorage_exists {files : Files} {name : Identifier} {t : TableRuntime}
    (h : tableFromStorage files name = some t) : (files (tablePath name)).isSome = true := by
  obtain ⟨content, hcontent, -⟩ := tableFromStorage_holds h
  rw [hcontent]
  rfl

lemma TableRuntime.nameFor_sameContents (t : TableRuntime) (name : CString) :
    (t.nameFor name).loaded = t.loaded ∧ SameContents t (t.nameFor name) := by
  unfold TableRuntime.nameFor
  split_ifs
  · exact ⟨rfl, rfl, rfl, rfl, rfl⟩
  · exact ⟨rfl, .refl t⟩

/-- Insertion into a loaded table, once it has the name of the statement. -/
lemma tableInsertRow_loaded (files : Files) {t : TableRuntime} (hl : t.loaded = true)
    (stmt : InsertStatement) :
    tableInsertRow files t stmt =
      if utilsEqualsIgnoreCase (t.nameFor stmt.tableName.val).tableName.val stmt.tableName.val ∧
          tableValidateInsertSchema t stmt = .success then
        tableStoreRow files (t.nameFor stmt.tableName.val) stmt
      else (files, t.nameFor stmt.tableName.val, none) := by
  obtain ⟨hl', hsame⟩ := t.nameFor_sameContents stmt.tableName.val
  rw [hl] at hl'
  have hval : tableValidateInsertSchema (t.nameFor stmt.tableName.val) stmt =
      tableValidateInsertSchema t stmt := by
    rw [tableValidateInsertSchema, tableValidateInsertSchema, hsame.columns]
  rw [tableInsertRow_eq]
  by_cases hacc : utilsEqualsIgnoreCase (t.nameFor stmt.tableName.val).tableName.val
      stmt.tableName.val = true
  · simp only [hacc, if_true, true_and, tableLoadFromStorageIfNeeded, hl', tableInsertLoaded,
      tablePrepareSchema, hval]
    cases tableValidateInsertSchema t stmt <;> simp
  · simp [hacc]

lemma TableRuntime.nameFor_tableName (t : TableRuntime) (name : Identifier) :
    (t.nameFor name.val).tableName = if t.tableName.val = [] then name else t.tableName := by
  unfold TableRuntime.nameFor
  rw [utilsSafeStrcpy_val]
  by_cases hempty : t.tableName.val = []
  · simp [hempty]
  · simp [hempty]

lemma tableReserveIfNeeded_nameFor (t : TableRuntime) (name : CString) :
    (tableReserveIfNeeded (t.nameFor name)).2 = (tableReserveIfNeeded t).2 := by
  unfold TableRuntime.nameFor tableReserveIfNeeded
  dsimp only
  split_ifs <;> rfl

section Loaded

variable {files : Files} {t t₀ : TableRuntime} {c : Int} {stmt : InsertStatement}

/-- For a table that holds what its file loads to, the file refuses a statement that fits exactly
when the statement names the id column. -/
lemma storageRefuses_iff (hfrom : tableFromStorage files t.tableName = some t₀)
    (ht : t = { t₀ with capacity := c }) (hval : tableValidateInsertSchema t stmt = .success) :
    StorageRefuses files t stmt ↔
      (storageInsert files (t.nameFor stmt.tableName.val).tableName.val stmt).2 = .failure := by
  rw [StorageRefuses, TableRuntime.nameFor_tableName]
  by_cases hempty : t.tableName.val = []
  · rw [if_pos hempty, if_pos hempty]
  · rw [if_neg hempty, if_neg hempty]
    obtain ⟨hcons, htn, -, hheader, -⟩ := tableFromStorage_some hfrom
    obtain ⟨content, hcontent, hholds⟩ := tableFromStorage_holds hfrom
    rw [← htn] at hcontent ⊢
    have hval₀ : tableValidateInsertSchema t₀ stmt = .success := by
      rw [ht] at hval
      exact hval
    constructor
    · intro hnames
      rw [storageInsert_refuses hheader hnames hval₀]
    · intro hfail
      by_contra hnames
      rw [storageInsert_accepts hcons hcontent hholds hval₀ hnames] at hfail
      cases hfail

/-- The rollback leaves the table as it was exactly when the file that the statement spells holds
that table. -/
lemma rollback_iff (hcons : t₀.Consistent) (ht : t = { t₀ with capacity := c }) :
    ((tableRollback files (t.nameFor stmt.tableName.val) stmt).loaded = true ∧
      SameContents t (tableRollback files (t.nameFor stmt.tableName.val) stmt)) ↔
    ∃ t₁, tableFromStorage files stmt.tableName = some t₁ ∧ t₁.columns = t.columns ∧
      t₁.rows = t.rows := by
  rw [tableRollback_eq]
  rcases tableLoad_named files stmt.tableName with ⟨t₁, hfrom, heq⟩ | ⟨hfrom, heq⟩
  · rw [heq]
    obtain ⟨hcons₁, -, hl₁, -⟩ := tableFromStorage_some hfrom
    constructor
    · rintro ⟨-, hsame⟩
      exact ⟨t₁, hfrom, hsame.columns, hsame.rows⟩
    · rintro ⟨t₂, hfrom₂, hcols, hrows⟩
      obtain rfl : t₁ = t₂ := by simpa [hfrom] using hfrom₂
      subst ht
      have hsame := SameContents.of_consistent hcons hcons₁ hcols hrows
      exact ⟨hl₁, hsame.columns, hsame.rows, hsame.nextId, hsame.idIndex⟩
  · rw [heq]
    constructor
    · rintro ⟨hl, -⟩
      cases hl
    · rintro ⟨t₂, hfrom₂, -⟩
      rw [hfrom] at hfrom₂
      cases hfrom₂

/-- Every exit of the insertion before the row is stored keeps the table, whatever the file. -/
lemma failureIsNoOp_of_unstored {t' : TableRuntime} (hl : t.loaded = true)
    (heq : tableInsertRow files t stmt = (files, t', none)) (hl' : t'.loaded = true)
    (hsame : SameContents t t') : FailureIsNoOp files t stmt := by
  intro files'' t'' h
  rw [heq] at h
  cases h
  refine ⟨rfl, fun _ => ⟨hl', hsame⟩, fun h => ?_⟩
  rw [hl] at h
  cases h

lemma failureIsNoOp_iff_of_loaded (hfrom : tableFromStorage files t.tableName = some t₀)
    (ht : t = { t₀ with capacity := c }) (hres : (tableReserveIfNeeded t).2 = .success) :
    FailureIsNoOp files t stmt ↔ RollbackRestores files t stmt := by
  obtain ⟨hcons, htn, hl₀, -⟩ := tableFromStorage_some hfrom
  have hl : t.loaded = true := by rw [ht]; exact hl₀
  obtain ⟨hl', hsame⟩ := t.nameFor_sameContents stmt.tableName.val
  have hinsert := tableInsertRow_loaded files hl stmt
  by_cases hfits : utilsEqualsIgnoreCase (t.nameFor stmt.tableName.val).tableName.val
      stmt.tableName.val = true ∧ tableValidateInsertSchema t stmt = .success
  · rw [if_pos hfits] at hinsert
    have hins : (bptreeInsert (t.nameFor stmt.tableName.val).idIndex
        (t.nameFor stmt.tableName.val).nextId
        (t.nameFor stmt.tableName.val).rows.length).2 = .success := by
      rw [hsame.idIndex, hsame.nextId, hsame.rows, ht]
      exact hcons.insert_nextId
    have hrefuses := storageRefuses_iff hfrom ht hfits.2
    have hback := @rollback_iff files t t₀ c stmt hcons ht
    rcases tableStoreRow_cases files hins stmt with
      ⟨hfull, heq⟩ | ⟨⟨-, hmax⟩, files', ⟨hst, heq⟩ | ⟨hst, heq⟩⟩
    · -- the ids are used up
      rw [heq] at hinsert
      refine iff_of_true (failureIsNoOp_of_unstored hl hinsert (hl'.trans hl)
        ⟨hsame.columns, hsame.rows, hsame.nextId, hsame.idIndex⟩) ?_
      intro _ _ _ hmax
      rw [tableReserveIfNeeded_nameFor, hsame.nextId] at hfull
      exact absurd ⟨hres, hmax⟩ hfull
    · -- the row is taken out again
      rw [hst] at hrefuses
      rw [heq] at hinsert
      constructor
      · intro hnoop _ _ _ _ _
        obtain ⟨rfl, hkept, -⟩ := hnoop _ _ hinsert
        exact hback.mp (hkept hl)
      · intro hrestores
        rw [hsame.nextId] at hmax
        obtain ⟨t₁, hfrom₁, hsame₁⟩ := hrestores hl hfits.1 hfits.2 hmax (hrefuses.mpr rfl)
        have hexists :
            (files (tablePath (t.nameFor stmt.tableName.val).tableName)).isSome = true := by
          rw [TableRuntime.nameFor_tableName]
          split_ifs
          · exact tableFromStorage_exists hfrom₁
          · exact tableFromStorage_exists hfrom
        obtain rfl := storageInsert_failure_files hexists hst
        obtain ⟨hl₁, hkept⟩ := hback.mpr ⟨t₁, hfrom₁, hsame₁⟩
        exact failureIsNoOp_of_unstored hl hinsert hl₁ hkept
    · -- the row is stored
      rw [heq] at hinsert
      rw [hst] at hrefuses
      constructor
      · intro _ _ _ _ _ hrefused
        cases hrefuses.mp hrefused
      · intro _ files'' t'' h
        rw [hinsert] at h
        cases h
  · rw [if_neg hfits] at hinsert
    refine iff_of_true (failureIsNoOp_of_unstored hl hinsert (hl'.trans hl) hsame) ?_
    intro _ hacc hval
    exact absurd ⟨hacc, hval⟩ hfits

end Loaded

/-! ### Tables that are not loaded -/

lemma EmptyOrStored.of_unloaded {files : Files} {t : TableRuntime} (h : t.Unloaded) :
    EmptyOrStored files t := .inl ⟨h.loaded, h.rows⟩

lemma EmptyOrStored.of_stored {files : Files} {name : Identifier} {t : TableRuntime}
    (h : tableFromStorage files name = some t) (c : Int) :
    EmptyOrStored files { t with capacity := c } := by
  obtain ⟨-, htn, hl, -⟩ := tableFromStorage_some h
  exact .inr ⟨hl, t, by rw [htn]; exact h, rfl, rfl, rfl, rfl⟩

lemma EmptyOrStored.rollback (files : Files) (t : TableRuntime) (stmt : InsertStatement) :
    EmptyOrStored files (tableRollback files t stmt) := by
  rw [tableRollback_eq]
  rcases tableLoad_named files stmt.tableName with ⟨t₁, hfrom, heq⟩ | ⟨-, heq⟩
  · rw [heq]
    exact .of_stored hfrom t₁.capacity
  · rw [heq]
    exact .of_unloaded (TableRuntime.named_unloaded _)

/-- The first row always finds room and an id. -/
lemma TableRuntime.Consistent.firstRow_fits {t : TableRuntime} (h : t.Consistent)
    (hrows : t.rows = []) : (tableReserveIfNeeded t).2 = .success ∧ t.nextId ≤ intMax := by
  have hnext : t.nextId = 1 := by
    rw [h.next_id, TableRuntime.ids, hrows]
    rfl
  obtain ⟨-, -, -, hres⟩ := tableReserveIfNeeded_spec h.valid_capacity h.rows_le
  exact ⟨hres (by rw [hrows]; decide), by rw [hnext]; decide⟩

section Unloaded

variable {files files' : Files} {t t' : TableRuntime} {stmt : InsertStatement}

/-- Without a file for the name, the schema comes from the statement. The row is refused only by
a file under another spelling of the name. -/
lemma insertLoaded_noOp_of_unloaded (hun : t.Unloaded)
    (h : tableInsertLoaded files t stmt = (files', t', none)) :
    files' = files ∧ EmptyOrStored files t' := by
  unfold tableInsertLoaded tablePrepareSchema at h
  simp only [hun.loaded, Bool.false_eq_true, if_false] at h
  rcases tableInitializeSchema_cases hun stmt with
    ⟨t₁, heq, hun₁, -⟩ | ⟨t₁, heq, hcons, -, -, -, hrows, -, -, hcount, hnone⟩
  · rw [heq] at h
    cases h
    exact ⟨rfl, .of_unloaded hun₁⟩
  · rw [heq] at h
    have hnames : ¬ stmt.NamesId := by
      rw [InsertStatement.NamesId, not_not, storageFindColumnIndex, List.findIdx?_eq_none_iff]
      exact hnone
    rcases tableStoreRow_cases files hcons.insert_nextId stmt with
      ⟨hfull, heq₁⟩ | ⟨-, files₁, ⟨hst, heq₁⟩ | ⟨-, heq₁⟩⟩
    · exact absurd (hcons.firstRow_fits hrows) hfull
    · simp only [heq₁] at h
      cases h
      have hexists : (files (tablePath t₁.tableName)).isSome = true := by
        by_contra hmissing
        have hempty : (files (tablePath t₁.tableName)).getD [] = [] := by
          rw [Option.not_isSome_iff_eq_none.mp hmissing]
          rfl
        rw [storageInsert_new hempty hnames hcount] at hst
        cases hst
      obtain rfl := storageInsert_failure_files hexists hst
      exact ⟨rfl, .rollback _ _ _⟩
    · simp only [heq₁] at h
      cases h

/-- A table that was just loaded is loaded once more if its row is refused. -/
lemma insertLoaded_noOp_of_stored (hfrom : tableFromStorage files stmt.tableName = some t)
    (h : tableInsertLoaded files t stmt = (files', t', none)) :
    files' = files ∧ EmptyOrStored files t' := by
  obtain ⟨hcons, htn, hl, -⟩ := tableFromStorage_some hfrom
  unfold tableInsertLoaded tablePrepareSchema at h
  simp only [hl, if_true] at h
  cases hval : tableValidateInsertSchema t stmt with
  | failure =>
    rw [hval] at h
    cases h
    exact ⟨rfl, .of_stored hfrom t.capacity⟩
  | success =>
    rw [hval] at h
    rcases tableStoreRow_cases files hcons.insert_nextId stmt with
      ⟨-, heq⟩ | ⟨-, files₁, ⟨hst, heq⟩ | ⟨-, heq⟩⟩
    · simp only [heq] at h
      cases h
      exact ⟨rfl, .of_stored hfrom _⟩
    · simp only [heq] at h
      cases h
      have hexists := tableFromStorage_exists hfrom
      obtain rfl := storageInsert_failure_files (by rw [htn]; exact hexists) hst
      exact ⟨rfl, .rollback _ _ _⟩
    · simp only [heq] at h
      cases h

lemma insertRow_noOp_of_unloaded (hun : t.Unloaded)
    (h : tableInsertRow files t stmt = (files', t', none)) :
    files' = files ∧ EmptyOrStored files t' := by
  have hun' := hun.nameFor stmt.tableName.val
  rw [tableInsertRow_eq] at h
  split_ifs at h with hacc
  · rcases tableLoad_cases files hun'.loaded stmt.tableName.val with
      ⟨-, hload⟩ | ⟨-, hname, ⟨-, hload⟩ | ⟨-, t₁, ht₁, hload⟩ | ⟨t₁, hfrom, hload⟩⟩
    · rw [hload] at h
      cases h
      exact ⟨rfl, .of_unloaded (hun'.nameFor _)⟩
    · rw [hload] at h
      exact insertLoaded_noOp_of_unloaded (hun'.nameFor _) h
    · rw [hload] at h
      cases h
      refine ⟨rfl, .of_unloaded ?_⟩
      rcases ht₁ with rfl | rfl
      · exact hun'.nameFor _
      · exact TableRuntime.named_unloaded _
    · rw [hload] at h
      exact insertLoaded_noOp_of_stored hfrom h
  · cases h
    exact ⟨rfl, .of_unloaded hun'⟩

end Unloaded

/-! ### When a failed insertion changes nothing -/

/-- A failed insertion changes nothing exactly when the rollback, if it comes to that, finds the
table again under the name that the statement spells. -/
theorem failureIsNoOp_iff (files : Files) (t : TableRuntime) (stmt : InsertStatement)
    (hset : Settled files t)
    (hres : t.loaded = true → (tableReserveIfNeeded t).2 = .success) :
    FailureIsNoOp files t stmt ↔ RollbackRestores files t stmt := by
  rcases hset with hun | ⟨t₀, c, hfrom, ht⟩
  · refine iff_of_true ?_ ?_
    · intro files' t' h
      obtain ⟨hfiles, hempty⟩ := insertRow_noOp_of_unloaded hun h
      refine ⟨hfiles, fun hl => ?_, fun _ => hempty⟩
      rw [hun.loaded] at hl
      cases hl
    · intro hl
      rw [hun.loaded] at hl
      cases hl
  · have hl : t.loaded = true := by
      rw [ht]
      exact (tableFromStorage_some hfrom).2.2.1
    exact failureIsNoOp_iff_of_loaded hfrom ht (hres hl)

/-- A table `t` with its id column in the second place. -/
def peopleFiles : Files := singleFile (bytes "data/t.csv") (bytes "name,id\nbob,5\n")

/-- What its file loads to. -/
def peopleTable : TableRuntime := (tableFromStorage peopleFiles (identifier "t")).getD tableInit

/-- `INSERT INTO <name> (id) VALUES ('9')` -/
def insertNine (name : Identifier) : InsertStatement :=
  ⟨name, [identifier "id"], [.truncate 255 (bytes "9")], by decide, by decide⟩

lemma peopleTable_settled : Settled peopleFiles peopleTable :=
  .inr ⟨peopleTable, 16, by decide, by decide⟩

/-- The row is refused by `data/t.csv`, and the rollback finds the same file again. -/
theorem failureIsNoOp_sameSpelling :
    let stmt := insertNine ⟨bytes "t", by decide⟩
    Settled peopleFiles peopleTable ∧ (tableReserveIfNeeded peopleTable).2 = .success ∧
      stmt.NamesId ∧ FailureIsNoOp peopleFiles peopleTable stmt := by
  intro stmt
  refine ⟨peopleTable_settled, by decide, by decide, ?_⟩
  refine (failureIsNoOp_iff peopleFiles peopleTable stmt peopleTable_settled
    fun _ => by decide).mpr ?_
  intro _ _ _ _ _
  exact ⟨peopleTable, by decide, rfl, rfl⟩

/-- The same statement in capitals: the row is refused by `data/t.csv`, and the rollback looks for
`data/T.csv`, which does not exist. The table that was loaded is gone. -/
theorem failureIsNoOp_fails_otherSpelling :
    ¬ ∀ (files : Files) (t : TableRuntime) (stmt : InsertStatement), Settled files t →
      (t.loaded = true → (tableReserveIfNeeded t).2 = .success) → FailureIsNoOp files t stmt := by
  intro h
  let stmt := insertNine ⟨bytes "T", by decide⟩
  have hres : peopleTable.loaded = true → (tableReserveIfNeeded peopleTable).2 = .success :=
    fun _ => by decide
  have hfails : (tableInsertRow peopleFiles peopleTable stmt).2.2 = none := by decide
  obtain ⟨-, hkept, -⟩ := h peopleFiles peopleTable stmt peopleTable_settled hres
    (tableInsertRow peopleFiles peopleTable stmt).1
    (tableInsertRow peopleFiles peopleTable stmt).2.1 (by rw [← hfails])
  have hlost : (tableInsertRow peopleFiles peopleTable stmt).2.1.loaded = false := by decide
  rw [(hkept (by decide)).1] at hlost
  cases hlost

end MiniDbms
