import MiniDbms.Engine.Catalog
import MiniDbms.Index.Equality
import MiniDbms.Index.Range
import MiniDbms.Storage.Effects
import MiniDbms.Storage.Offsets

/-!
# Files only grow

Whatever is executed, no byte of a table file is changed or removed: an insertion writes behind what
is there, and nothing else writes. So an index over a file goes on finding the rows it was built
from.
-/

namespace MiniDbms

/-- No file is gone, and each holds what it held, and perhaps more behind it. -/
def Files.Extends (files' files : Files) : Prop :=
  ∀ path content, files path = some content → ∃ more, files' path = some (content ++ more)

namespace Files.Extends

variable {files files' files'' : Files}

lemma refl (files : Files) : files.Extends files :=
  fun _ content h => ⟨[], by rwa [List.append_nil]⟩

lemma trans (h' : files''.Extends files') (h : files'.Extends files) : files''.Extends files := by
  intro path content hfile
  obtain ⟨more, hmore⟩ := h path content hfile
  obtain ⟨more', hmore'⟩ := h' path _ hmore
  exact ⟨more ++ more', by rw [hmore', List.append_assoc]⟩

/-- Writing behind the content of a file. -/
lemma update (files : Files) (path text : CString) :
    Files.Extends (Function.update files path (some ((files path).getD [] ++ text))) files := by
  intro path' content hfile
  by_cases hpath : path' = path
  · subst hpath
    exact ⟨text, by rw [Function.update_self, hfile, Option.getD_some]⟩
  · exact ⟨[], by rw [Function.update_of_ne hpath, hfile, List.append_nil]⟩

end Files.Extends

/-! ### What is written -/

section Written

variable (files : Files) (table : TableRuntime)

lemma storageInsert_extends (tableName : CString) (stmt : InsertStatement) :
    (storageInsert files tableName stmt).1.Extends files := by
  cases hpath : storageBuildPath tableName with
  | none =>
    rw [storageInsert, hpath]
    exact .refl files
  | some path =>
    rw [storageInsert_eq hpath]
    cases storageInsertText ((files path).getD []) stmt with
    | none => simpa using Files.Extends.update files path []
    | some text => exact .update files path text

lemma tableStoreRow_extends (stmt : InsertStatement) :
    (tableStoreRow files table stmt).1.Extends files := by
  unfold tableStoreRow
  obtain ⟨table', st⟩ := tableAppendRow table stmt
  cases st with
  | failure => exact .refl files
  | success =>
    have hinsert := storageInsert_extends files table'.tableName.val stmt
    dsimp only
    generalize storageInsert files table'.tableName.val stmt = written at hinsert ⊢
    obtain ⟨files', st⟩ := written
    cases st <;> exact hinsert

lemma tableInsertLoaded_extends (stmt : InsertStatement) :
    (tableInsertLoaded files table stmt).1.Extends files := by
  unfold tableInsertLoaded
  obtain ⟨table', st⟩ := tablePrepareSchema table stmt
  cases st with
  | failure => exact .refl files
  | success => exact tableStoreRow_extends files table' stmt

lemma tableInsertRow_extends (stmt : InsertStatement) :
    (tableInsertRow files table stmt).1.Extends files := by
  unfold tableInsertRow
  dsimp only
  generalize ((if table.tableName.val.isEmpty then tableSetActiveName table stmt.tableName.val
    else (table, .success)) : TableRuntime × Status) = named
  obtain ⟨t₁, st⟩ := named
  dsimp only
  split_ifs
  · exact .refl files
  · exact .refl files
  obtain ⟨t₂, st⟩ := tableLoadFromStorageIfNeeded files t₁ stmt.tableName.val
  cases st with
  | failure => exact .refl files
  | success => exact tableInsertLoaded_extends files t₂ stmt

lemma executorExecuteInsert_extends (active : Option TableRuntime) (stmt : InsertStatement)
    (result : DbResult) : (executorExecuteInsert files active stmt result).1.Extends files := by
  unfold executorExecuteInsert
  obtain ⟨t, st⟩ := tableGetOrLoad active stmt.tableName.val
  cases st with
  | failure => exact .refl files
  | success =>
    dsimp only
    obtain ⟨t, st⟩ := tableLoadFromStorageIfNeeded files t stmt.tableName.val
    cases st with
    | failure => exact .refl files
    | success =>
      have hinsert := tableInsertRow_extends files t stmt
      dsimp only
      generalize tableInsertRow files t stmt = inserted at hinsert ⊢
      obtain ⟨files', t', slot⟩ := inserted
      cases slot <;> exact hinsert

end Written

/-! ### Runs -/

lemma executeStatement_extends (store : Store) (statement : SqlStatement) :
    (executeStatement store statement).1.1.Extends store.1 := by
  cases statement with
  | insert stmt => exact executorExecuteInsert_extends store.1 store.2 stmt dbResultInit
  | select stmt => exact .refl store.1
  | delete stmt => exact .refl store.1

lemma dbExecuteSql_extends {db : Database} (hsound : db.cache.Sound) (sql : CString) :
    (dbExecuteSql dbEngineInit db sql).1.files.Extends db.files := by
  have hfiles : (dbExecuteSql dbEngineInit db sql).1.files = (executeText db.store sql).1.1 :=
    congrArg (fun outcome => outcome.1.1) (dbExecuteSql_eq hsound sql).2
  rw [hfiles, executeText]
  cases statementOf sql with
  | error message => exact .refl db.files
  | ok statement => exact executeStatement_extends db.store statement

/-- One event. -/
lemma Database.step_extends {db : Database} (hsound : db.cache.Sound) (event : Event) :
    (db.step event).cache.Sound ∧ (db.step event).files.Extends db.files := by
  cases event with
  | query sql => exact ⟨(dbExecuteSql_eq hsound sql).1, dbExecuteSql_extends hsound sql⟩
  | restart => exact ⟨TokenizerCache.sound_empty, .refl db.files⟩

lemma Database.run_extends {db : Database} (hsound : db.cache.Sound) (events : List Event) :
    (events.foldl Database.step db).cache.Sound ∧
      (events.foldl Database.step db).files.Extends db.files := by
  induction events generalizing db with
  | nil => exact ⟨hsound, .refl db.files⟩
  | cons event events ih =>
    obtain ⟨hsound', hstep⟩ := Database.step_extends hsound event
    obtain ⟨hsound'', hrun⟩ := ih hsound'
    exact ⟨hsound'', hrun.trans hstep⟩

/-- From any directory, over any texts and restarts, every file goes on beginning with what it held
at any earlier time. -/
theorem databaseRun_appendOnly (files : Files) (before after : List Event) :
    ((before ++ after).foldl Database.step (.fresh files)).files.Extends
      (before.foldl Database.step (.fresh files)).files := by
  rw [List.foldl_append]
  have hbefore := @Database.run_extends (.fresh files) TokenizerCache.sound_empty before
  exact (Database.run_extends hbefore.1 after).2

/-! ### Rows found through an index -/

lemma fgets_append_newline {room : Nat} {s : CString} (h : chr '\n' ∈ s) (more : CString) :
    (fgets room (s ++ more)).1 = (fgets room s).1 := by
  induction room generalizing s with
  | zero => rfl
  | succ room ih =>
    cases s with
    | nil => cases h
    | cons b s =>
      rw [List.cons_append, fgets, fgets]
      by_cases hb : b = chr '\n'
      · rw [if_pos hb, if_pos hb]
      · have hmem : chr '\n' ∈ s := (List.mem_cons.mp h).resolve_left fun heq => hb heq.symm
        rw [if_neg hb, if_neg hb, ih hmem]

/-- A row stays where it is when the file grows behind a line break. -/
lemma RowAt.append {content : CString} {colCount offset : Nat} {row : List CString}
    (h : RowAt content colCount offset row) (hended : content.getLast? = some (chr '\n'))
    (more : CString) : RowAt (content ++ more) colCount offset row := by
  have hlt : offset < content.length := by
    by_contra hge
    exact h.not_end (List.drop_eq_nil_of_le (Nat.le_of_not_lt hge))
  have hdrop : (content ++ more).drop offset = content.drop offset ++ more :=
    List.drop_append_of_le_length hlt.le
  have hnewline : chr '\n' ∈ content.drop offset := by
    refine List.mem_of_getLast? ?_
    rw [List.getLast?_drop, if_neg hlt.not_ge, hended]
  refine ⟨by simp [hdrop, h.not_end], ?_⟩
  rw [hdrop, fgets_append_newline hnewline]
  exact h.line

/-- The rows whose cell in a column satisfies a condition. -/
def TableData.rowsWhere (table : TableData) (columnIndex : Nat) (p : CString → Bool) :
    List (List CString) :=
  table.rows.filter fun row => p (row.getD columnIndex [])

section Read

variable {table : TableData} {columnIndex : Nat} {p : CString → Bool}
  {read : Nat → Option (List CString)}

/-- Reading at the offsets of the rows that satisfy a condition gives these rows. -/
lemma mapM_offsetsWhere
    (h : List.Forall₂ (fun offset row => read offset = some row) table.offsets table.rows) :
    (table.offsetsWhere columnIndex p).mapM read = some (table.rowsWhere columnIndex p) := by
  have hread : ∀ r ∈ (table.rows.zip table.offsets).filter fun r => p (r.1.getD columnIndex []),
      read r.2 = some r.1 := by
    intro r hr
    have hzip := List.mem_of_mem_filter hr
    have hflip : List.Forall₂ (fun row offset => read offset = some row) table.rows table.offsets :=
      h.flip
    exact List.forall₂_zip hflip hzip
  have hrows : (table.rows.zip table.offsets).map Prod.fst = table.rows :=
    List.map_fst_zip h.length_eq.ge
  have hwhere : ((table.rows.zip table.offsets).filter fun r => p (r.1.getD columnIndex [])).map
      Prod.fst = table.rowsWhere columnIndex p := by
    conv_rhs => rw [TableData.rowsWhere, ← hrows, List.filter_map]
    rfl
  rw [TableData.offsetsWhere, List.mapM_map, ← hwhere]
  exact mapM_eq_some hread

end Read

lemma mapM_cons_some {α β : Type} {f : α → Option β} {a : α} {l : List α} {ys : List β} :
    (a :: l).mapM f = some ys ↔
      ∃ b, f a = some b ∧ ∃ bs, l.mapM f = some bs ∧ b :: bs = ys := by
  simp [List.mapM_cons, Option.bind_eq_some_iff]

/-- In another order the same is found. -/
lemma mapM_perm {α β : Type} {f : α → Option β} {l l' : List α} {ys : List β} (hperm : l.Perm l')
    (h : l.mapM f = some ys) : ∃ ys', l'.mapM f = some ys' ∧ ys'.Perm ys := by
  induction hperm generalizing ys with
  | nil => exact ⟨ys, h, .refl ys⟩
  | cons a _ ih =>
    obtain ⟨b, hb, bs, hbs, rfl⟩ := mapM_cons_some.mp h
    obtain ⟨bs', hbs', hperm⟩ := ih hbs
    exact ⟨b :: bs', mapM_cons_some.mpr ⟨b, hb, bs', hbs', rfl⟩, hperm.cons b⟩
  | swap a a' l =>
    obtain ⟨b', hb', _, hmore, rfl⟩ := mapM_cons_some.mp h
    obtain ⟨b, hb, bs, hbs, rfl⟩ := mapM_cons_some.mp hmore
    refine ⟨b :: b' :: bs, ?_, .swap b' b bs⟩
    exact mapM_cons_some.mpr ⟨b, hb, _, mapM_cons_some.mpr ⟨b', hb', bs, hbs, rfl⟩, rfl⟩
  | trans _ _ ih₁ ih₂ =>
    obtain ⟨ys₁, h₁, hperm₁⟩ := ih₁ h
    obtain ⟨ys₂, h₂, hperm₂⟩ := ih₂ h₁
    exact ⟨ys₂, h₂, hperm₂.trans hperm₁⟩

/-- The rows of a loaded table can be read at their offsets, whatever the file has grown by. -/
lemma storageReadRowAtOffset_extends {files files' : Files} {tableName : CString}
    {table : TableData} (hload : storageLoadTable files tableName = some table)
    (hended : ∀ path content, storageBuildPath tableName = some path → files path = some content →
      content.getLast? = some (chr '\n'))
    (hextends : files'.Extends files) :
    List.Forall₂ (fun (offset : Nat) row =>
      storageReadRowAtOffset files' tableName offset table.columns.length = some row)
      table.offsets table.rows := by
  obtain ⟨path, hpath, hload⟩ := Option.bind_eq_some_iff.mp hload
  obtain ⟨content, hfile, hload⟩ := Option.bind_eq_some_iff.mp hload
  obtain ⟨more, hmore⟩ := hextends path content hfile
  refine (storageLoadTableFromFp_rowAt hload).imp fun offset row hrow => ?_
  exact (hrow.append (hended path content hpath hfile) more).read hpath hmore

/-- A query by an index that was built from a table file finds, in the file as it is after any
texts and restarts, the rows that were to be found when it was built, if the file ended with a line
break then. -/
theorem indexQuery_reads (files : Files) (tableName : CString) (table : TableData)
    (hload : storageLoadTable files tableName = some table)
    (hended : ∀ path content, storageBuildPath tableName = some path → files path = some content →
      content.getLast? = some (chr '\n'))
    (columnIndex : Nat) (hfits : table.ColumnFits columnIndex) (value : CString)
    (qsort : (RangeEntry → RangeEntry → Int) → List RangeEntry → List RangeEntry)
    (hqsort : IsQsort qsort) (after : List Event) :
    ∃ index, indexBuild qsort table columnIndex = some index ∧
      let read := fun offset : Nat => storageReadRowAtOffset
        (after.foldl Database.step (.fresh files)).files tableName offset table.columns.length
      (indexQueryEquals index value).mapM read = some (table.rowsWhere columnIndex (· = value)) ∧
      ∀ op ∈ rangeOps,
        op = .ne ∨ SortsInFront (op.below value) (table.entries columnIndex) →
        ∃ offsets rows, indexQueryRange index op.text value = some offsets ∧
          offsets.mapM read = some rows ∧
          rows.Perm (table.rowsWhere columnIndex fun cell =>
            op.holds (utilsCompareValues cell value)) := by
  obtain ⟨index, hbuild, hequals⟩ := @indexQueryEquals_eq qsort _ _ hfits value
  have hextends := (@Database.run_extends (.fresh files) TokenizerCache.sound_empty after).2
  have hread := storageReadRowAtOffset_extends hload hended hextends
  refine ⟨index, hbuild, ?_, fun op hop hcond => ?_⟩
  · rw [hequals]
    exact mapM_offsetsWhere hread
  · have hagrees : ∃ index' offsets, indexBuild qsort table columnIndex = some index' ∧
        indexQueryRange index' op.text value = some offsets ∧
        offsets.Perm (table.offsetsWhere columnIndex fun cell =>
          op.holds (utilsCompareValues cell value)) := by
      by_cases hne : op = .ne
      · subst hne
        exact indexQueryRange_ne hfits value qsort hqsort
      · obtain ⟨index', offsets, hbuild', hrange, hright, -⟩ :=
          indexQueryRange_perm hfits hop hne value hqsort
        exact ⟨index', offsets, hbuild', hrange, hright ((hcond.resolve_left hne).pairwise hqsort)⟩
    obtain ⟨index', offsets, hbuild', hrange, hperm⟩ := hagrees
    obtain rfl := Option.some.inj (hbuild.symm.trans hbuild')
    obtain ⟨rows, hrows, hperm'⟩ := mapM_perm hperm.symm (mapM_offsetsWhere hread)
    exact ⟨offsets, rows, hrange, hrows, hperm'⟩

/-- Two rows that are still found after another one was inserted. -/
theorem indexQuery_reads_inserted :
    let files : Files := fun path => if path = bytes "data/t.csv" then
      some (bytes "id,a\n1,x\n2,y\n") else none
    let table : TableData := ⟨[identifier "id", identifier "a"],
      [[bytes "1", bytes "x"], [bytes "2", bytes "y"]], [5, 9]⟩
    let after := [Event.query (bytes "INSERT INTO t (a) VALUES ('x')")]
    ∃ index, indexBuild insertionSortBy table 1 = some index ∧
      let read := fun offset : Nat => storageReadRowAtOffset
        (after.foldl Database.step (.fresh files)).files (bytes "t") offset table.columns.length
      (indexQueryEquals index (bytes "x")).mapM read =
          some (table.rowsWhere 1 (· = bytes "x")) ∧
      ∀ op ∈ rangeOps, op = .ne ∨ SortsInFront (op.below (bytes "x")) (table.entries 1) →
        ∃ offsets rows, indexQueryRange index op.text (bytes "x") = some offsets ∧
          offsets.mapM read = some rows ∧
          rows.Perm (table.rowsWhere 1 fun cell =>
            op.holds (utilsCompareValues cell (bytes "x"))) := by
  intro files table after
  have hload : storageLoadTable files (bytes "t") = some table := by decide +kernel
  refine indexQuery_reads files (bytes "t") table hload ?_ 1 ⟨rfl, by decide, by decide⟩
    (bytes "x") insertionSortBy insertionSortBy_isQsort after
  rintro path content hpath hfile
  have hname : storageBuildPath (bytes "t") = some (bytes "data/t.csv") := by decide +kernel
  obtain rfl := Option.some.inj (hpath.symm.trans hname)
  obtain rfl := Option.some.inj (hfile.symm.trans (if_pos rfl))
  decide +kernel

end MiniDbms
