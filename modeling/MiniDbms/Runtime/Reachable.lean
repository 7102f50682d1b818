import MiniDbms.Runtime.Persist

/-!
# Every reachable table is consistent
-/

namespace MiniDbms

/-! ### The operations -/

/-- The calls that act on the active table. The data files may change in between by other hands,
but not under a loaded table. -/
inductive TableOp where
  | getOrLoad (tableName : CString)
  | load (tableName : CString)
  | insert (stmt : InsertStatement)
  | free
  | replaceFiles (files : Files)

def TableOp.apply (files : Files) (t : TableRuntime) : TableOp → Files × TableRuntime
  | getOrLoad name      => (files, (tableGetOrLoad (some t) name).1)
  | load name           => (files, (tableLoadFromStorageIfNeeded files t name).1)
  | insert stmt         => ((tableInsertRow files t stmt).1, (tableInsertRow files t stmt).2.1)
  | free                => (files, tableFree t)
  | replaceFiles files' => (if t.loaded then files else files', t)

/-- The files and the table after a sequence of calls. -/
def tableRun (files : Files) (ops : List TableOp) : Files × TableRuntime :=
  ops.foldl (fun s op => op.apply s.1 s.2) (files, tableInit)

/-- The call does not load or fill the table with the empty name, which the source takes for a
table without a name. -/
def TableOp.Named : TableOp → Prop
  | load name   => name ≠ []
  | insert stmt => stmt.tableName.val ≠ []
  | _           => True

/-! ### The invariant -/

structure RuntimeInv (files : Files) (t : TableRuntime) : Prop where
  loaded : t.loaded = true → t.Consistent ∧ t.tableName.val ≠ [] ∧
    (t.idColumnIndex = 0 ∨ HeaderMatches files t)
  unloaded : t.loaded = false → t.Unloaded

lemma RuntimeInv.of_unloaded {files : Files} {t : TableRuntime} (h : t.Unloaded) :
    RuntimeInv files t :=
  ⟨fun hl => absurd (h.loaded.symm.trans hl) (by decide), fun _ => h⟩

lemma RuntimeInv.of_loaded {files : Files} {t : TableRuntime} (hl : t.loaded = true)
    (hcons : t.Consistent) (hname : t.tableName.val ≠ [])
    (hheader : t.idColumnIndex = 0 ∨ HeaderMatches files t) : RuntimeInv files t :=
  ⟨fun _ => ⟨hcons, hname, hheader⟩, fun h => absurd (h.symm.trans hl) (by decide)⟩

lemma tableInit_unloaded : tableInit.Unloaded := ⟨rfl, rfl, rfl, rfl, rfl, rfl⟩

lemma TableRuntime.Unloaded.nameFor {t : TableRuntime} (h : t.Unloaded) (name : CString) :
    (t.nameFor name).Unloaded := by
  unfold TableRuntime.nameFor
  split_ifs
  · exact h.withName _
  · exact h

/-- A load from any file leaves a consistent table or none. -/
lemma RuntimeInv.load {files : Files} {t : TableRuntime} (h : t.Unloaded) {name : CString}
    (hne : name ≠ []) : RuntimeInv files (tableLoadFromStorageIfNeeded files t name).1 := by
  rcases tableLoad_cases files h.loaded name with
    ⟨-, hload⟩ | ⟨-, hname, ⟨-, hload⟩ | ⟨-, t', ht', hload⟩ | ⟨t', hfrom, hload⟩⟩
  · rw [hload]
    exact .of_unloaded (h.nameFor name)
  · rw [hload]
    exact .of_unloaded (h.nameFor name)
  · rw [hload]
    rcases ht' with rfl | rfl
    · exact .of_unloaded (h.nameFor name)
    · exact .of_unloaded (TableRuntime.named_unloaded _)
  · rw [hload]
    obtain ⟨hcons, htn, hl, hheader, -⟩ := tableFromStorage_some hfrom
    exact .of_loaded hl hcons (by rw [htn]; exact hne) (.inr hheader)

/-! ### Inserting -/

lemma tableCopyInsertColumns_success {names copied : List Identifier}
    (h : tableCopyInsertColumns names = (copied, .success)) :
    copied = names ∧ ∀ n ∈ names, utilsEqualsIgnoreCase n.val (bytes "id") = false := by
  induction names generalizing copied with
  | nil =>
    cases h
    simp
  | cons name names ih =>
    unfold tableCopyInsertColumns at h
    split_ifs at h with hid
    · cases h
    · simp only [Prod.mk.injEq] at h
      obtain ⟨rfl, hst⟩ := h
      obtain ⟨hcopied, hnone⟩ := ih (Prod.ext rfl hst)
      refine ⟨congrArg (name :: ·) hcopied, fun n hn => ?_⟩
      rcases List.mem_cons.mp hn with rfl | hn
      · simpa using hid
      · exact hnone n hn

/-- The schema is set from the statement, with the id column in front. -/
lemma tableInitializeSchema_cases {t : TableRuntime} (h : t.Unloaded) (stmt : InsertStatement) :
    (∃ t', tableInitializeSchema t stmt = (t', .failure) ∧ t'.Unloaded ∧
      t'.tableName = t.tableName) ∨
    (∃ t', tableInitializeSchema t stmt = (t', .success) ∧ t'.Consistent ∧ t'.loaded = true ∧
      t'.tableName = t.tableName ∧ t'.idColumnIndex = 0 ∧ t'.rows = [] ∧
      t'.columns = .truncate 63 (bytes "id") :: stmt.columns ∧ stmt.columns ≠ [] ∧
      stmt.columns.length + 1 ≤ maxColumns ∧
      ∀ n ∈ stmt.columns, utilsEqualsIgnoreCase n.val (bytes "id") = false) := by
  unfold tableInitializeSchema
  split_ifs with hcount
  · exact .inl ⟨t, rfl, h, rfl⟩
  · rw [not_or] at hcount
    cases hcopy : tableCopyInsertColumns stmt.columns with
    | mk names st =>
      cases st with
      | failure =>
        exact
          .inl ⟨_, rfl, ⟨h.rows, h.capacity, h.idColumnIndex, h.nextId, h.idIndex, h.loaded⟩, rfl⟩
      | success =>
        obtain ⟨rfl, hnone⟩ := tableCopyInsertColumns_success hcopy
        refine .inr ⟨_, rfl, consistent_of_schema h.rows h.capacity h.nextId h.idIndex ?_ ?_, rfl,
          rfl, rfl, h.rows, rfl, ?_, by omega, hnone⟩
        · simp only [List.length_cons]
          omega
        · simp +decide [storageFindColumnIndex, List.findIdx?_cons]
        · exact fun hnil => hcount.1 (by simp [hnil])

/-- A table keeps its consistency when only its capacity changes to a larger one. -/
lemma TableRuntime.Consistent.withCapacity {t : TableRuntime} (h : t.Consistent) {c : Int}
    (hc : ValidCapacity c) (hrows : (t.rows.length : Int) ≤ c) :
    ({ t with capacity := c } : TableRuntime).Consistent :=
  ⟨h.columns_le, h.id_column, h.row_length, h.id_integer, h.id_range, h.ids_nodup, h.next_id,
    h.index, hc, hrows⟩

/-- The next id is in no row, so that the index takes it. -/
lemma TableRuntime.Consistent.insert_nextId {t : TableRuntime} (h : t.Consistent) :
    (bptreeInsert t.idIndex t.nextId t.rows.length).2 = .success := by
  rw [h.insert_status]
  intro hmem
  have hlt := (lt_nextIdAfter t.ids).2 _ hmem
  rw [← h.next_id] at hlt
  exact lt_irrefl _ hlt

/-- Appending is adding the row under the next id, unless there is no room or no id left. -/
lemma tableAppendRow_eq {t : TableRuntime}
    (hins : (bptreeInsert t.idIndex t.nextId t.rows.length).2 = .success)
    (stmt : InsertStatement) :
    tableAppendRow t stmt =
      if (tableReserveIfNeeded t).2 = .success ∧ t.nextId ≤ intMax then
        (t.addRow (tableReserveIfNeeded t).1.capacity (tableBuildRow stmt t.nextId) t.nextId,
          .success)
      else ({ t with capacity := (tableReserveIfNeeded t).1.capacity }, .failure) := by
  have hfst := tableReserveIfNeeded_fst t
  unfold tableAppendRow
  generalize tableReserveIfNeeded t = res at hfst ⊢
  obtain ⟨t₁, st⟩ := res
  dsimp only at hfst ⊢
  generalize t₁.capacity = c at hfst ⊢
  subst hfst
  cases st with
  | failure => simp
  | success =>
    by_cases hmax : t.nextId > intMax
    · have hnot : ¬ t.nextId ≤ intMax := by omega
      simp [hmax, hnot]
    · have hok : t.nextId ≤ intMax := by omega
      have hadd : t.addRow c (tableBuildRow stmt t.nextId) t.nextId = { t with
          capacity := c, rows := t.rows ++ [tableBuildRow stmt t.nextId]
          idIndex := (bptreeInsert t.idIndex t.nextId t.rows.length).1
          nextId := t.nextId + 1 } := by
        simp [TableRuntime.addRow]
      rw [hadd]
      simp only [hmax, hok, if_false, if_true, and_self]
      generalize bptreeInsert t.idIndex t.nextId t.rows.length = inserted at hins ⊢
      obtain ⟨idIndex, st⟩ := inserted
      obtain rfl : st = .success := hins
      rfl

/-- The new row is a row of the table when the id column is the first one. -/
lemma TableRuntime.Consistent.addBuiltRow {t : TableRuntime} (h : t.Consistent)
    (hid : t.idColumnIndex = 0) {stmt : InsertStatement}
    (hlen : stmt.columns.length + 1 = t.columns.length)
    (hres : (tableReserveIfNeeded t).2 = .success) (hmax : t.nextId ≤ intMax) :
    (t.addRow (tableReserveIfNeeded t).1.capacity (tableBuildRow stmt t.nextId)
      t.nextId).Consistent := by
  obtain ⟨hc, -, hroom, -⟩ := tableReserveIfNeeded_spec h.valid_capacity h.rows_le
  have hnext := lt_nextIdAfter t.ids
  rw [← h.next_id] at hnext
  have htext : t.idText (tableBuildRow stmt t.nextId) = printInt t.nextId := by
    rw [TableRuntime.idText, hid]
    rfl
  refine h.addRow hc (hroom hres) ?_ ?_ ?_ ⟨by omega, hmax⟩ ?_
  · rw [← hlen, tableBuildRow, List.length_cons, List.length_map, stmt.values_length]
  · rw [htext]
    exact utilsIsInteger_printInt (by omega)
  · rw [htext]
    exact strtoll_printInt (by omega) (hmax.trans (by decide))
  · intro hmem
    have := hnext.2 _ hmem
    omega

/-- An insertion into a table that is named already, or into an unnamed one that takes the name of
the statement. -/
lemma tableInsertRow_eq (files : Files) (t : TableRuntime) (stmt : InsertStatement) :
    tableInsertRow files t stmt =
      if utilsEqualsIgnoreCase (t.nameFor stmt.tableName.val).tableName.val stmt.tableName.val then
        match tableLoadFromStorageIfNeeded files (t.nameFor stmt.tableName.val) stmt.tableName.val with
        | (t', .failure) => (files, t', none)
        | (t', .success) => tableInsertLoaded files t' stmt
      else (files, t.nameFor stmt.tableName.val, none) := by
  unfold tableInsertRow
  simp only [t.nameFor_first, reduceCtorEq, if_false]
  by_cases heq : utilsEqualsIgnoreCase (t.nameFor stmt.tableName.val).tableName.val
      stmt.tableName.val = true
  · refine (if_neg (by simp [heq])).trans ?_
    exact (if_pos heq).symm
  · simp [heq]

/-- The rollback starts from a table that only has the name of the statement. -/
lemma tableRollback_eq (files : Files) (t : TableRuntime) (stmt : InsertStatement) :
    tableRollback files t stmt =
      (tableLoadFromStorageIfNeeded files (.named stmt.tableName) stmt.tableName.val).1 := by
  rw [tableRollback, tableResetAsUnloaded_eq]

/-- Everything that storing a row can do. -/
lemma tableStoreRow_cases (files : Files) {t : TableRuntime}
    (hins : (bptreeInsert t.idIndex t.nextId t.rows.length).2 = .success)
    (stmt : InsertStatement) :
    (¬ ((tableReserveIfNeeded t).2 = .success ∧ t.nextId ≤ intMax) ∧
      tableStoreRow files t stmt =
        (files, { t with capacity := (tableReserveIfNeeded t).1.capacity }, none)) ∨
    (((tableReserveIfNeeded t).2 = .success ∧ t.nextId ≤ intMax) ∧ ∃ files',
      (storageInsert files t.tableName.val stmt = (files', .failure) ∧
        tableStoreRow files t stmt = (files', tableRollback files' t stmt, none)) ∨
      (storageInsert files t.tableName.val stmt = (files', .success) ∧
        tableStoreRow files t stmt = (files', t.addRow (tableReserveIfNeeded t).1.capacity
          (tableBuildRow stmt t.nextId) t.nextId, some t.rows.length))) := by
  unfold tableStoreRow
  rw [tableAppendRow_eq hins]
  by_cases hok : (tableReserveIfNeeded t).2 = .success ∧ t.nextId ≤ intMax
  · rw [if_pos hok]
    have htn : (t.addRow (tableReserveIfNeeded t).1.capacity (tableBuildRow stmt t.nextId)
        t.nextId).tableName = t.tableName := rfl
    have hlen : (t.addRow (tableReserveIfNeeded t).1.capacity (tableBuildRow stmt t.nextId)
        t.nextId).rows.length - 1 = t.rows.length := by
      simp [TableRuntime.addRow]
    dsimp only
    rw [htn, hlen]
    cases hst : storageInsert files t.tableName.val stmt with
    | mk files' st =>
      refine .inr ⟨hok, files', ?_⟩
      cases st with
      | failure => exact .inl ⟨rfl, by simp only [tableRollback_eq]⟩
      | success => exact .inr ⟨rfl, rfl⟩
  · rw [if_neg hok]
    exact .inl ⟨hok, rfl⟩

/-- A table with a schema takes the row, or is left as it was, or is rolled back. -/
lemma RuntimeInv.store {files : Files} {t : TableRuntime} {stmt : InsertStatement}
    (hcons : t.Consistent) (hname : t.tableName.val ≠ []) (hl : t.loaded = true)
    (hheader : t.idColumnIndex = 0 ∨
      (HeaderMatches files t ∧ tableValidateInsertSchema t stmt = .success))
    (hlen : stmt.columns.length + 1 = t.columns.length) (hne : stmt.tableName.val ≠ []) :
    RuntimeInv (tableStoreRow files t stmt).1 (tableStoreRow files t stmt).2.1 := by
  rcases tableStoreRow_cases files hcons.insert_nextId stmt with
    ⟨-, heq⟩ | ⟨hok, files', ⟨-, heq⟩ | ⟨hst, heq⟩⟩
  · obtain ⟨hc, hcrows, -, -⟩ := tableReserveIfNeeded_spec hcons.valid_capacity hcons.rows_le
    rw [heq]
    exact .of_loaded hl (hcons.withCapacity hc hcrows) hname (hheader.imp_right fun h => h.1)
  · rw [heq]
    dsimp only
    rw [tableRollback_eq]
    exact .load (TableRuntime.named_unloaded _) hne
  · -- only a table whose id column is the first one gets here
    have hid : t.idColumnIndex = 0 := by
      rcases hheader with hid | ⟨hheader, hval⟩
      · exact hid
      · by_contra hid
        have hnames := namesId_of_validate hcons.id_column hid hval
        rw [storageInsert_refuses hheader hnames hval] at hst
        cases hst
    rw [heq]
    exact .of_loaded hl (hcons.addBuiltRow hid hlen hok.1 hok.2) hname (.inl hid)

lemma RuntimeInv.insertLoaded {files : Files} {t : TableRuntime} {stmt : InsertStatement}
    (h : RuntimeInv files t) (htn : t.tableName.val ≠ []) (hne : stmt.tableName.val ≠ []) :
    RuntimeInv (tableInsertLoaded files t stmt).1 (tableInsertLoaded files t stmt).2.1 := by
  unfold tableInsertLoaded tablePrepareSchema
  cases hl : t.loaded with
  | true =>
    obtain ⟨hcons, hname, hheader⟩ := h.loaded hl
    simp only [if_true]
    cases hval : tableValidateInsertSchema t stmt with
    | failure => exact h
    | success =>
      exact .store hcons hname hl (hheader.imp_right fun hh => ⟨hh, hval⟩)
        (tableValidateInsertSchema_success hval).2.1 hne
  | false =>
    simp only [Bool.false_eq_true, if_false]
    rcases tableInitializeSchema_cases (h.unloaded hl) stmt with
      ⟨t', heq, hun, -⟩ | ⟨t', heq, hcons, hl', htn', hid, -, hcols, -⟩
    · rw [heq]
      exact .of_unloaded hun
    · rw [heq]
      refine .store hcons ?_ hl' (.inl hid) ?_ hne
      · rw [htn']
        exact htn
      · rw [hcols, List.length_cons]

lemma TableRuntime.nameFor_nonempty (t : TableRuntime) {name : Identifier} (h : name.val ≠ []) :
    (t.nameFor name.val).tableName.val ≠ [] := by
  unfold TableRuntime.nameFor
  split_ifs with hempty
  · simpa [utilsSafeStrcpy_val] using h
  · simpa using hempty

lemma TableRuntime.nameFor_of_nonempty {t : TableRuntime} (h : t.tableName.val ≠ [])
    (name : CString) : t.nameFor name = t := by
  simp [TableRuntime.nameFor, h]

lemma tableLoad_tableName (files : Files) {t : TableRuntime} {name : CString} (hne : name ≠ [])
    (htn : t.tableName.val ≠ []) :
    (tableLoadFromStorageIfNeeded files t name).1.tableName.val ≠ [] := by
  cases hl : t.loaded with
  | true => simpa [tableLoadFromStorageIfNeeded, hl] using htn
  | false =>
    have hsame := TableRuntime.nameFor_of_nonempty htn name
    rcases tableLoad_cases files hl name with
      ⟨-, hload⟩ | ⟨-, hname, ⟨-, hload⟩ | ⟨-, t', ht', hload⟩ | ⟨t', hfrom, hload⟩⟩
    · rw [hload, hsame]
      exact htn
    · rw [hload, hsame]
      exact htn
    · rw [hload]
      rcases ht' with rfl | rfl
      · rw [hsame]
        exact htn
      · exact hne
    · rw [hload]
      dsimp only
      rw [(tableFromStorage_some hfrom).2.1]
      exact hne

/-- Any insertion keeps the invariant, whether it succeeds or not. -/
lemma RuntimeInv.insert {files : Files} {t : TableRuntime} {stmt : InsertStatement}
    (h : RuntimeInv files t) (hne : stmt.tableName.val ≠ []) :
    RuntimeInv (tableInsertRow files t stmt).1 (tableInsertRow files t stmt).2.1 := by
  have hnamed : RuntimeInv files (t.nameFor stmt.tableName.val) := by
    cases hl : t.loaded with
    | true =>
      rw [TableRuntime.nameFor_of_nonempty (h.loaded hl).2.1]
      exact h
    | false => exact .of_unloaded ((h.unloaded hl).nameFor _)
  have hload : RuntimeInv files (tableLoadFromStorageIfNeeded files
      (t.nameFor stmt.tableName.val) stmt.tableName.val).1 := by
    cases hl : (t.nameFor stmt.tableName.val).loaded with
    | true => simpa [tableLoadFromStorageIfNeeded, hl] using hnamed
    | false => exact .load (hnamed.unloaded hl) hne
  have htn := tableLoad_tableName files hne
    (TableRuntime.nameFor_nonempty t hne)
  rw [tableInsertRow_eq]
  split_ifs
  · cases hres : tableLoadFromStorageIfNeeded files (t.nameFor stmt.tableName.val)
        stmt.tableName.val with
    | mk t' st =>
      rw [hres] at hload htn
      cases st with
      | failure => exact hload
      | success => exact hload.insertLoaded htn hne
  · exact hnamed

/-! ### Whole runs -/

lemma RuntimeInv.getOrLoad {files : Files} {t : TableRuntime} (h : RuntimeInv files t)
    (name : CString) : RuntimeInv files (tableGetOrLoad (some t) name).1 := by
  simp only [tableGetOrLoad, Option.getD_some]
  split_ifs
  · exact h
  · exact .of_unloaded (TableRuntime.named_unloaded _)

/-- One call keeps the invariant. -/
lemma RuntimeInv.step {files : Files} {t : TableRuntime} (h : RuntimeInv files t) {op : TableOp}
    (hop : op.Named) : RuntimeInv (op.apply files t).1 (op.apply files t).2 := by
  cases op with
  | getOrLoad name => exact h.getOrLoad name
  | load name =>
    cases hl : t.loaded with
    | true => simpa [TableOp.apply, tableLoadFromStorageIfNeeded, hl] using h
    | false => exact .load (h.unloaded hl) hop
  | insert stmt => exact h.insert hop
  | free => exact .of_unloaded tableInit_unloaded
  | replaceFiles files' =>
    cases hl : t.loaded with
    | true => simpa [TableOp.apply, hl] using h
    | false => exact .of_unloaded (h.unloaded hl)

lemma tableRun_inv (files : Files) {ops : List TableOp} (hops : ∀ op ∈ ops, op.Named) :
    RuntimeInv (tableRun files ops).1 (tableRun files ops).2 := by
  induction ops using List.reverseRecOn with
  | nil => exact .of_unloaded tableInit_unloaded
  | append_singleton ops op ih =>
    have hrun : tableRun files (ops ++ [op]) =
        op.apply (tableRun files ops).1 (tableRun files ops).2 := by
      simp [tableRun]
    rw [hrun]
    exact (ih fun o ho => hops o (by simp [ho])).step (hops op (by simp))

/-- What the fields of a loaded table satisfy. -/
structure LoadedInvariant (t : TableRuntime) : Prop where
  row_length : ∀ row ∈ t.rows, row.length = t.columns.length
  rows_le : (t.rows.length : Int) ≤ t.capacity
  id_column : storageFindColumnIndex t.columns (bytes "id") = some t.idColumnIndex
  ids : ∀ (i : Nat) row, t.rows[i]? = some row → ∃ k,
    utilsIsInteger (t.idText row) = true ∧ utilsParseInteger (t.idText row) = k ∧
      0 ≤ k ∧ k ≤ intMax ∧ bptreeSearch t.idIndex k = some (i : Int) ∧ k < t.nextId
  no_other_key : ∀ k v, bptreeSearch t.idIndex k = some v →
    ∃ (i : Nat) (row : List CString), t.rows[i]? = some row ∧
      utilsParseInteger (t.idText row) = k ∧ v = i
  ids_distinct : ∀ (i j : Nat) row row', t.rows[i]? = some row → t.rows[j]? = some row' →
    utilsParseInteger (t.idText row) = utilsParseInteger (t.idText row') → i = j

/-- The invariant of the runtime table. -/
def TableInvariant (t : TableRuntime) : Prop :=
  (t.loaded = true → LoadedInvariant t) ∧ (t.loaded = false → t.rows = [] ∧ t.idIndex = .null)

lemma TableRuntime.ids_getElem? (t : TableRuntime) (i : Nat) (k : Int) :
    t.ids[i]? = some k ↔ ∃ row, t.rows[i]? = some row ∧ utilsParseInteger (t.idText row) = k := by
  rw [TableRuntime.ids, List.getElem?_map, Option.map_eq_some_iff]

lemma TableRuntime.Consistent.loadedInvariant {t : TableRuntime} (h : t.Consistent) :
    LoadedInvariant t := by
  have hsearch : ∀ k v, bptreeSearch t.idIndex k = some v ↔
      ∃ i : Nat, t.ids[i]? = some k ∧ v = i := by
    rw [h.index]
    exact search_indexPairs h.ids_nodup
  constructor
  · exact h.row_length
  · exact h.rows_le
  · exact h.id_column
  · intro i row hrow
    have hget : t.ids[i]? = some (utilsParseInteger (t.idText row)) :=
      (t.ids_getElem? i _).mpr ⟨row, hrow, rfl⟩
    have hmem := List.mem_of_getElem? hget
    refine ⟨_, h.id_integer row (List.mem_of_getElem? hrow), rfl, (h.id_range _ hmem).1,
      (h.id_range _ hmem).2, (hsearch _ _).mpr ⟨i, hget, rfl⟩, ?_⟩
    rw [h.next_id]
    exact (lt_nextIdAfter t.ids).2 _ hmem
  · intro k v hv
    obtain ⟨i, hget, rfl⟩ := (hsearch k v).mp hv
    obtain ⟨row, hrow, hk⟩ := (t.ids_getElem? i k).mp hget
    exact ⟨i, row, hrow, hk, rfl⟩
  · intro i j row row' hi hj heq
    have hget : t.ids[i]? = t.ids[j]? := by
      rw [(t.ids_getElem? i _).mpr ⟨row, hi, rfl⟩, (t.ids_getElem? j _).mpr ⟨row', hj, rfl⟩, heq]
    have hlt : i < t.ids.length := by
      have := (List.getElem?_eq_some_iff.mp hi).1
      simpa [TableRuntime.ids] using this
    exact (List.getElem?_inj hlt h.ids_nodup).mp hget

/-- Every sequence of calls that names its tables leaves a table that is consistent when it is
loaded and empty when it is not. -/
theorem tableRun_invariant (files : Files) (ops : List TableOp) (hops : ∀ op ∈ ops, op.Named) :
    TableInvariant (tableRun files ops).2 := by
  have h := tableRun_inv files hops
  constructor
  · intro hl
    exact (h.loaded hl).1.loadedInvariant
  · intro hl
    have hun := h.unloaded hl
    exact ⟨hun.rows, hun.idIndex⟩

/-- A data directory with one file. -/
def singleFile (path content : CString) : Files := fun p => if p = path then some content else none

theorem tableRun_invariant_insert :
    let files := singleFile (bytes "data/t.csv") (bytes "ID,name\n7,bob\n")
    let ops : List TableOp := [.getOrLoad (bytes "t"), .load (bytes "t"),
      .insert ⟨⟨bytes "t", by decide⟩, [⟨bytes "name", by decide⟩], [⟨bytes "amy", by decide⟩],
        by decide, by decide⟩]
    (∀ op ∈ ops, op.Named) ∧ (tableRun files ops).2.rows.length = 2 ∧
      TableInvariant (tableRun files ops).2 := by
  intro files ops
  have hops : ∀ op ∈ ops, op.Named := by
    simp only [ops, List.forall_mem_cons]
    exact ⟨trivial, (by decide : bytes "t" ≠ []), (by decide : bytes "t" ≠ []), by simp⟩
  exact ⟨hops, by decide, tableRun_invariant files ops hops⟩

/-- A table loaded under the empty name is renamed by the next insertion, which then appends to
another file: the id cell of the new row holds the value of the statement, not its id. -/
theorem tableRun_invariant_fails_unnamed :
    ¬ ∀ (files : Files) (ops : List TableOp), TableInvariant (tableRun files ops).2 := by
  intro h
  have hinv := h (singleFile (bytes "data/.csv") (bytes "name,id\nbob,5\n"))
    [.getOrLoad [], .load [], .insert ⟨⟨bytes "x", by decide⟩, [⟨bytes "id", by decide⟩],
      [⟨bytes "abc", by decide⟩], by decide, by decide⟩]
  obtain ⟨k, hint, -⟩ := (hinv.1 (by decide)).ids 1 [bytes "6", bytes "abc"] (by decide)
  revert hint
  decide

end MiniDbms
