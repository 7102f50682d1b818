import MiniDbms.Engine.Addressing
import MiniDbms.Engine.Catalog
import MiniDbms.Engine.Durability
import MiniDbms.Engine.Messages

/-!
# The database refines a catalog

As long as every table is named in one spelling and every row survives on disk, what
`db_execute_sql` answers is what the catalog of `Engine.Catalog` answers, over any number of
restarts. The active table is an image of one table of the catalog, and the files are images of all
of them.
-/

namespace MiniDbms

/-! ### Images of a table -/

/-- A loaded table with the columns and rows of a logical one. -/
structure Holds (t : TableRuntime) (r : LogicalTable) : Prop where
  storable : Storable t
  columns : t.columns = r.columns
  rows : t.rows = r.rows

/-- The next id after `1, …, n`. -/
lemma nextIdAfter_range (n : Nat) :
    nextIdAfter ((List.range n).map fun i : Nat => (i : Int) + 1) = n + 1 := by
  induction n with
  | zero => rfl
  | succ n ih =>
    rw [List.range_succ, List.map_append, List.map_singleton, nextIdAfter_append, ih]
    simp

lemma bptreeRun_root_eq_none_iff (pairs : List (Int × Int)) :
    (bptreeRun pairs).root = none ↔ pairs = [] := by
  rcases bptreeRun_inv pairs with ⟨hnull, hpairs⟩ | ⟨s, d, hm, -⟩
  · exact iff_of_true (by rw [hnull]; rfl) hpairs
  · refine iff_of_false (by simp [hm.root]) ?_
    rintro rfl
    cases hm.root

lemma mapM_eq_none {α β : Type} {f : α → Option β} {l : List α} {a : α} (ha : a ∈ l)
    (hnone : f a = none) : l.mapM f = none := by
  induction l with
  | nil => cases ha
  | cons b l ih =>
    rw [List.mapM_cons]
    rcases List.mem_cons.mp ha with rfl | hmem
    · rw [hnone]
      rfl
    · rw [ih hmem]
      cases f b <;> rfl

/-- An operator that is none holds of nothing. -/
lemma tableWhereMatches_eq (comparison : Int) (text : CString) :
    tableWhereMatches comparison text = (CompareOp.ofText text).any (·.holds comparison) := by
  cases hop : CompareOp.ofText text with
  | some op => rw [tableWhereMatches_of_ofText hop, Option.any_some]
  | none =>
    have hne : ∀ op : CompareOp, text ≠ op.text := by
      intro op heq
      refine List.find?_eq_none.mp hop op (by cases op <;> simp) (by simp [heq])
    have heq : text ≠ bytes "=" := hne .eq
    have hne' : text ≠ bytes "!=" := hne .ne
    have hgt : text ≠ bytes ">" := hne .gt
    have hge : text ≠ bytes ">=" := hne .ge
    have hlt : text ≠ bytes "<" := hne .lt
    have hle : text ≠ bytes "<=" := hne .le
    unfold tableWhereMatches
    simp only [strcmp_eq_zero_iff, heq, hne', hgt, hge, hlt, hle, if_false, Option.any_none]

/-- The scan of a column that is there, whatever the operator is. -/
lemma collectRowsByScan_found {t : TableRuntime} (hl : t.loaded = true) {w : WhereClause}
    (hcol : storageFindColumnIndex t.columns w.column.val ≠ none) (indices : List Nat) :
    executorCollectRowsByScan t w indices =
      some ((t.rows.filter (w.holds t.columns)).map (executorCopyProjectedRow · indices)) := by
  obtain ⟨i, hi⟩ := Option.ne_none_iff_exists'.mp hcol
  have hmatches : ∀ row : List CString,
      tableWhereMatches (utilsCompareValues (row.getD i []) w.value.val) w.op.val =
        w.holds t.columns row := by
    intro row
    rw [tableWhereMatches_eq, WhereClause.holds, cellOf, hi]
  have hscan : tableLinearScanByField t (some w) =
      some ((t.rows.zipIdx.filter fun p => w.holds t.columns p.1).map fun p => (p.2 : Int)) := by
    unfold tableLinearScanByField
    split_ifs with hempty
    · have hrows : t.rows = [] := by simpa [hl] using hempty
      simp [hrows]
    · simp only [hi, Option.map_some, tableScanColumn, hmatches]
  rw [executorCollectRowsByScan, hscan, Option.bind_eq_bind, Option.bind_some,
    executorCollectRowsByIndices_eq]
  · exact congrArg some
      (map_filter_zipIdx t.rows (w.holds t.columns) (executorCopyProjectedRow · indices))
  · intro p hp
    exact List.mem_zipIdx_iff_getElem?.mp (List.mem_of_mem_filter hp)

namespace Holds

variable {t : TableRuntime} {r : LogicalTable}

lemma length_tuples (h : Holds t r) : t.rows.length = r.tuples.length := by
  rw [h.rows, r.length_rows]

lemma tuples_le (h : Holds t r) : r.tuples.length ≤ 2 ^ 30 :=
  h.length_tuples ▸ h.storable.consistent.rows_le_max

lemma ids_eq (h : Holds t r) :
    t.ids = (List.range r.tuples.length).map fun i : Nat => (i : Int) + 1 := by
  have hle := h.tuples_le
  rw [TableRuntime.ids, h.rows, LogicalTable.rows, List.map_map]
  refine List.ext_getElem (by simp) fun i hi hi' => ?_
  have hlt : i < r.tuples.length := by simpa using hi
  simp only [List.getElem_map, List.getElem_zipIdx, List.getElem_range, Function.comp_apply,
    Nat.zero_add, TableRuntime.idText, h.storable.id_first, List.getD_cons_zero]
  exact strtoll_printInt (by omega) (by omega)

lemma nextId_eq (h : Holds t r) : t.nextId = r.tuples.length + 1 := by
  rw [h.storable.consistent.next_id, h.ids_eq, nextIdAfter_range]

/-- There is room for another row up to the largest capacity. -/
lemma reserve_iff (h : Holds t r) :
    (tableReserveIfNeeded t).2 = .success ∧ t.nextId ≤ intMax ↔ r.tuples.length < 2 ^ 30 := by
  have hcons := h.storable.consistent
  have hlen := h.length_tuples
  have hnext := h.nextId_eq
  obtain ⟨hc, -, hroom, hres⟩ := tableReserveIfNeeded_spec hcons.valid_capacity hcons.rows_le
  have hcap : (tableReserveIfNeeded t).1.capacity ≤ 2 ^ 30 := by
    have hmax : ∀ k ≤ 26, (16 * 2 ^ k : Int) ≤ 2 ^ 30 := by decide
    rcases hc with hc | ⟨k, hk, hc⟩
    · omega
    · rw [hc]
      exact hmax k hk
  constructor
  · rintro ⟨hsuccess, -⟩
    have := hroom hsuccess
    omega
  · intro hlt
    exact ⟨hres (by omega), by unfold intMax; omega⟩

/-! ### Queries -/

lemma canUseIdIndex_isSome (h : Holds t r) (w : WhereClause) :
    (executorCanUseIdIndex t w).isSome = r.asksForId w := by
  have hroot : t.idIndex.root = none ↔ r.tuples = [] := by
    rw [h.storable.consistent.index, bptreeRun_root_eq_none_iff, ← List.length_eq_zero_iff,
      ← List.length_eq_zero_iff, ← h.length_tuples]
    simp [indexPairs, TableRuntime.ids]
  have hcolumn : (t.columns.getD t.idColumnIndex .empty).val = bytes "id" := by
    rw [h.columns, h.storable.id_first]
    rfl
  unfold executorCanUseIdIndex LogicalTable.asksForId
  simp only [h.storable.loaded, hroot, hcolumn, ne_eq, strcmp_eq_zero_iff]
  by_cases hempty : r.tuples = []
  · simp [hempty]
  by_cases hop : w.op.val = bytes "="
  · by_cases hint : utilsIsInteger w.value.val = true
    · by_cases hcol : utilsEqualsIgnoreCase (bytes "id") w.column.val = true
      · by_cases hrange : utilsParseInteger w.value.val < 0 ∨ utilsParseInteger w.value.val > intMax
        · have hnot : ¬ (0 ≤ utilsParseInteger w.value.val ∧
              utilsParseInteger w.value.val ≤ intMax) := by omega
          simp [hempty, hop, hint, hcol, hrange, hnot]
        · have hok : 0 ≤ utilsParseInteger w.value.val ∧
              utilsParseInteger w.value.val ≤ intMax := by omega
          simp [hempty, hop, hint, hcol, hrange, hok]
      · simp [hempty, hop, hint, hcol]
    · simp [hempty, hop, hint]
  · simp [hempty, hop]

/-- The projection is prepared when all columns are there, with the headers of the table. -/
lemma prepareProjection_eq (h : Holds t r) (stmt : SelectStatement) :
    (executorPrepareProjection stmt t).map Prod.snd =
      if ∀ c ∈ stmt.columns, r.Names c then
        some (if stmt.columns = [] then r.columns else stmt.columns.map r.header)
      else none := by
  rw [executorPrepareProjection, h.columns]
  by_cases hstar : stmt.columns = []
  · simp [hstar]
  · rw [if_neg (by simpa using hstar)]
    split_ifs with hnames
    · have hfound : ∀ c ∈ stmt.columns, storageFindColumnIndex r.columns c.val =
          some ((storageFindColumnIndex r.columns c.val).getD 0) := by
        intro c hc
        obtain ⟨i, hi⟩ := Option.ne_none_iff_exists'.mp (hnames c hc)
        rw [hi]
        rfl
      rw [mapM_eq_some hfound]
      simp [LogicalTable.header]
    · simp only [not_forall] at hnames
      obtain ⟨c, hc, hmissing⟩ := hnames
      have hnone : storageFindColumnIndex r.columns c.val = none := not_not.mp hmissing
      rw [mapM_eq_none hc hnone]
      rfl

/-- The rows are collected when the condition names a column of the table, or there are none. -/
lemma collectRows_eq (h : Holds t r) (stmt : SelectStatement) (indices : List Nat) :
    (executorCollectRows t stmt.whereClause indices).1 =
        (if r.tuples = [] ∨ ∀ w ∈ stmt.whereClause, r.Names w.column then
          some ((r.rows.filter fun row => stmt.whereClause.all fun w => w.holds r.columns row).map
            (executorCopyProjectedRow · indices))
        else none) ∧
      (executorCollectRows t stmt.whereClause indices).2 = stmt.whereClause.any r.asksForId := by
  have hl := h.storable.loaded
  have hempty : t.rows = [] ↔ r.tuples = [] := by
    rw [← List.length_eq_zero_iff, ← List.length_eq_zero_iff, h.length_tuples]
  cases hw : stmt.whereClause with
  | none => simp [executorCollectRows, executorCollectAllRows_eq hl, h.rows]
  | some w =>
    have hisSome := h.canUseIdIndex_isSome w
    simp only [executorCollectRows, Option.all_some, Option.any_some, Option.mem_def,
      Option.some.injEq, forall_eq', ← hisSome]
    cases huse : executorCanUseIdIndex t w with
    | some key =>
      obtain ⟨-, -, hcol, -⟩ := executorCanUseIdIndex_some huse
      have hnames : r.Names w.column := by
        have hid := h.storable.consistent.id_column
        rw [h.columns, h.storable.id_first] at hcol hid
        rw [LogicalTable.Names, ← storageFindColumnIndex_congr hcol]
        exact Option.ne_none_iff_exists'.mpr ⟨0, hid⟩
      rw [if_pos (Or.inr hnames)]
      refine ⟨?_, rfl⟩
      dsimp only
      rw [executorCollectRowsById_eq h.storable.consistent huse, h.rows, h.columns]
    | none =>
      refine ⟨?_, rfl⟩
      dsimp only
      by_cases hnames : r.Names w.column
      · rw [if_pos (Or.inr hnames), collectRowsByScan_found hl (by rw [h.columns]; exact hnames),
          h.rows, h.columns]
      · have hmissing : storageFindColumnIndex t.columns w.column.val = none := by
          rw [h.columns]
          exact not_not.mp hnames
        rw [executorCollectRowsByScan, tableLinearScanByField]
        by_cases hnil : r.tuples = []
        · rw [if_pos (Or.inr (by rw [hempty.mpr hnil]; rfl)), if_pos (Or.inl hnil)]
          simp [LogicalTable.rows, hnil, executorCollectRowsByIndices]
        · rw [if_neg (by simp [hl, hempty, hnil]), if_neg (not_or.mpr ⟨hnil, hnames⟩), hmissing]
          rfl

/-- `executor_execute_select` answers what the logical table answers. -/
lemma selectLoaded_eq (h : Holds t r) (stmt : SelectStatement) :
    executorSelectLoaded t stmt dbResultInit = (r.select stmt).result := by
  have hheaders := h.prepareProjection_eq stmt
  unfold executorSelectLoaded LogicalTable.select
  by_cases hnames : ∀ c ∈ stmt.columns, r.Names c
  · have hcount : (if stmt.columns = [] then r.columns else stmt.columns.map r.header).length ≤
        maxColumns := by
      split_ifs
      · rw [← h.columns]
        exact h.storable.consistent.columns_le
      · rw [List.length_map]
        exact stmt.columns_le
    obtain ⟨indices, headers, hproj, -, hcopy⟩ :=
      @executorPrepareProjection_some t stmt (by rw [h.columns]; exact hnames)
    obtain ⟨hrows, hid⟩ := h.collectRows_eq stmt indices
    rw [if_pos hnames, hproj, Option.map_some, Option.some.injEq] at hheaders
    rw [if_pos hnames, hproj]
    dsimp only at hheaders ⊢
    generalize executorCollectRows t stmt.whereClause indices = collected at hrows hid ⊢
    obtain ⟨rows, used⟩ := collected
    dsimp only at hrows hid
    rw [hrows, hid, ← hheaders]
    rw [← hheaders] at hcount
    by_cases hcond : r.tuples = [] ∨ ∀ w ∈ stmt.whereClause, r.Names w.column
    · have hproject : ∀ row ∈ r.rows.filter (fun row => stmt.whereClause.all fun w =>
          w.holds r.columns row), executorCopyProjectedRow row indices =
            projectRow r.columns stmt.columns row := by
        intro row hrow
        rw [← h.columns]
        refine hcopy row (h.storable.consistent.row_length row ?_)
        rw [h.rows]
        exact List.mem_of_mem_filter hrow
      rw [if_pos hcond, if_pos hcond, List.map_congr_left hproject]
      dsimp only
      rw [executorFinishSelect, executorCopyHeadersToResult, if_neg (by omega)]
      rfl
    · rw [if_neg hcond, if_neg hcond]
      rfl
  · rw [if_neg hnames, Option.map_eq_none_iff] at hheaders
    rw [if_neg hnames, hheaders]
    rfl

/-! ### Insertions -/

lemma accepts_iff (h : Holds t r) (stmt : InsertStatement) :
    r.Accepts stmt.columns ↔
      tableValidateInsertSchema t stmt = .success ∧ r.tuples.length < 2 ^ 30 := by
  have hnil : stmt.columns ≠ [] ↔ ¬ stmt.columns.length = 0 := List.length_eq_zero_iff.not.symm
  unfold LogicalTable.Accepts tableValidateInsertSchema
  rw [h.columns, hnil]
  simp only [LogicalTable.columns, List.drop_succ_cons, List.drop_zero, List.length_cons]
  split_ifs with hcount hall
  · refine iff_of_false (fun hacc => ?_) (by simp)
    omega
  · simp only [List.all_eq_true] at hall
    rw [not_or, not_not] at hcount
    simp only [true_and]
    exact ⟨fun hacc => hacc.2.2.2, fun hroom => ⟨hcount.1, by omega, hall, hroom⟩⟩
  · refine iff_of_false (fun hacc => hall ?_) (by simp)
    simp only [List.all_eq_true]
    exact hacc.2.2.1

end Holds

/-- A row that is the same in memory and in the file, whatever the table. -/
structure InsertStatement.Survives (stmt : InsertStatement) : Prop where
  no_line_break : ∀ v ∈ stmt.values, NoLineBreak v.val
  same_value : stmt.SameNameSameValue

/-- A single name is not given twice. -/
lemma InsertStatement.Survives.single {stmt : InsertStatement} (h : stmt.columns.length = 1)
    (hline : ∀ v ∈ stmt.values, NoLineBreak v.val) : stmt.Survives := by
  refine ⟨hline, fun i j n m hi hj _ => ?_⟩
  have hi' := (List.getElem?_eq_some_iff.mp hi).1
  have hj' := (List.getElem?_eq_some_iff.mp hj).1
  congr 1
  omega

/-- The values of the row. -/
def InsertStatement.cells (stmt : InsertStatement) : List CString := stmt.values.map CBuf.val

section Insert

variable {files : Files} {t : TableRuntime} {r : LogicalTable} {stmt : InsertStatement}

/-- A row that fits goes behind the others, in memory and in the file. -/
lemma Holds.insert_accepted (h : Holds t r)
    (hfile : files (tablePath t.tableName) = some t.fileText) (hacc : r.Accepts stmt.columns)
    (hsurvives : stmt.Survives) :
    ∃ t' slot, tableInsertLoaded files t stmt =
        (Function.update files (tablePath t.tableName) (some t'.fileText), t', some slot) ∧
      Holds t' (r.insert stmt.cells) ∧ t'.tableName = t.tableName := by
  obtain ⟨hval, hroom⟩ := (h.accepts_iff stmt).mp hacc
  obtain ⟨-, hlen, -⟩ := tableValidateInsertSchema_success hval
  have hstored := h.storable.storageInsert_eq hfile hval hsurvives.same_value
  have hok := h.reserve_iff.mpr hroom
  unfold tableInsertLoaded tablePrepareSchema
  simp only [h.storable.loaded, if_true, hval]
  rcases tableStoreRow_cases files h.storable.consistent.insert_nextId stmt with
    ⟨hfull, -⟩ | ⟨-, files', ⟨hst, heq⟩ | ⟨hst, heq⟩⟩
  · exact absurd hok hfull
  · rw [hstored] at hst
    cases hst
  · rw [hstored] at hst
    cases hst
    obtain ⟨hst', htext⟩ := h.storable.addRow hlen hsurvives.no_line_break hok.1 hok.2
    refine ⟨_, _, by rw [heq, htext], ⟨hst', h.columns, ?_⟩, rfl⟩
    rw [r.rows_insert, ← h.rows, ← h.nextId_eq]
    rfl

/-- A row that does not fit, or for which there is no room, changes nothing. -/
lemma Holds.insert_refused (h : Holds t r) (hnot : ¬ r.Accepts stmt.columns) :
    ∃ t', tableInsertLoaded files t stmt = (files, t', none) ∧ Holds t' r ∧
      t'.fileText = t.fileText ∧ t'.tableName = t.tableName := by
  unfold tableInsertLoaded tablePrepareSchema
  simp only [h.storable.loaded, if_true]
  cases hval : tableValidateInsertSchema t stmt with
  | failure => exact ⟨t, rfl, h, rfl, rfl⟩
  | success =>
    have hfull : ¬ r.tuples.length < 2 ^ 30 := fun hroom =>
      hnot ((h.accepts_iff stmt).mpr ⟨hval, hroom⟩)
    rcases tableStoreRow_cases files h.storable.consistent.insert_nextId stmt with
      ⟨-, heq⟩ | ⟨hok, -⟩
    · have hcons := h.storable.consistent
      obtain ⟨hc, hcrows, -, -⟩ := tableReserveIfNeeded_spec hcons.valid_capacity hcons.rows_le
      obtain ⟨hst', htext⟩ :=
        h.storable.congr (hcons.withCapacity hc hcrows) h.storable.loaded rfl rfl
      exact ⟨_, heq, ⟨hst', h.columns, h.rows⟩, htext, rfl⟩
    · exact absurd (h.reserve_iff.mp hok) hfull

lemma tableCopyInsertColumns_eq {names : List Identifier}
    (h : ∀ n ∈ names, utilsEqualsIgnoreCase n.val (bytes "id") = false) :
    tableCopyInsertColumns names = (names, .success) := by
  induction names with
  | nil => rfl
  | cons n names ih =>
    rw [List.forall_mem_cons] at h
    rw [tableCopyInsertColumns, if_neg (by rw [h.1]; exact Bool.false_ne_true), ih h.2]

/-- The schema is set exactly when the columns can be those of a table. -/
lemma tableInitializeSchema_iff (t : TableRuntime) (stmt : InsertStatement) :
    (tableInitializeSchema t stmt).2 = .success ↔ LogicalTable.Creatable stmt.columns := by
  have hnil : stmt.columns ≠ [] ↔ ¬ stmt.columns.length = 0 := List.length_eq_zero_iff.not.symm
  unfold tableInitializeSchema LogicalTable.Creatable
  rw [hnil]
  split_ifs with hcount
  · exact iff_of_false (by simp) (by omega)
  · rw [not_or] at hcount
    cases hcopy : tableCopyInsertColumns stmt.columns with
    | mk names st =>
      cases st with
      | success =>
        exact iff_of_true rfl ⟨hcount.1, by omega, (tableCopyInsertColumns_success hcopy).2⟩
      | failure =>
        refine iff_of_false (by simp) fun hcreatable => ?_
        rw [tableCopyInsertColumns_eq hcreatable.2.2] at hcopy
        cases hcopy

/-- The first row of a table. -/
lemma insert_created (hun : t.Unloaded) (hmissing : files (tablePath t.tableName) = none)
    (hcolumns : ∀ c ∈ stmt.columns, IsName c.val) (hcreatable : LogicalTable.Creatable stmt.columns)
    (hsurvives : stmt.Survives) :
    ∃ t' slot, tableInsertLoaded files t stmt =
        (Function.update files (tablePath t.tableName) (some t'.fileText), t', some slot) ∧
      Holds t' ⟨stmt.columns, [stmt.cells]⟩ ∧ t'.tableName = t.tableName := by
  have hst := (tableInitializeSchema_iff t stmt).mpr hcreatable
  unfold tableInsertLoaded tablePrepareSchema
  simp only [hun.loaded, Bool.false_eq_true, if_false]
  generalize hschema : tableInitializeSchema t stmt = prepared at hst ⊢
  obtain ⟨t₁, st⟩ := prepared
  obtain rfl : st = .success := hst
  obtain ⟨hst₁, htn, hrows, hcols, hnames, hcount⟩ := storable_of_schema hun hcolumns hschema
  have hholds : Holds t₁ ⟨stmt.columns, []⟩ := ⟨hst₁, hcols, hrows⟩
  have hstored := @storageInsert_new files t₁.tableName stmt (by rw [htn, hmissing]; rfl) hnames
    hcount
  have hok := hst₁.consistent.firstRow_fits hrows
  have hnext : t₁.nextId = 1 := hholds.nextId_eq
  have hlen : stmt.columns.length + 1 = t₁.columns.length := by
    rw [hcols]
    rfl
  dsimp only
  rcases tableStoreRow_cases files hst₁.consistent.insert_nextId stmt with
    ⟨hfull, -⟩ | ⟨-, files', ⟨hst, heq⟩ | ⟨hst, heq⟩⟩
  · exact absurd hok hfull
  · rw [hstored] at hst
    cases hst
  · rw [hstored] at hst
    cases hst
    obtain ⟨hst', htext⟩ := hst₁.addRow hlen hsurvives.no_line_break hok.1 hok.2
    have htext₁ : t₁.fileText = storageWriteCsvRow ((newColumns stmt).map CBuf.val) := by
      simp [TableRuntime.fileText, hrows, hcols]
    rw [htext₁, hnext] at htext
    rw [hnext] at heq hst'
    refine ⟨_, _, by rw [heq, htext, htn], ⟨hst', hcols, ?_⟩, htn⟩
    simp only [TableRuntime.addRow, hrows, List.nil_append]
    rfl

lemma insert_uncreated (hun : t.Unloaded) (hnot : ¬ LogicalTable.Creatable stmt.columns) :
    ∃ t', tableInsertLoaded files t stmt = (files, t', none) ∧ t'.Unloaded ∧
      t'.tableName = t.tableName := by
  have hst := mt (tableInitializeSchema_iff t stmt).mp hnot
  unfold tableInsertLoaded tablePrepareSchema
  simp only [hun.loaded, Bool.false_eq_true, if_false]
  rcases tableInitializeSchema_cases hun stmt with ⟨t', heq, hun', htn⟩ | ⟨t', heq, -⟩
  · exact ⟨t', by rw [heq], hun', htn⟩
  · rw [heq] at hst
    exact absurd rfl hst

end Insert

/-! ### One statement -/

/-- The files hold the tables of the catalog, and the active table is one of them or empty. -/
structure Coupled (names : Set Identifier) (store : Store) (c : Catalog) : Prop where
  stored : ∀ name r, c name = some r →
    ∃ t, Holds t r ∧ store.1 (tablePath name) = some t.fileText
  missing : ∀ name, c name = none → store.1 (tablePath name) = none
  active : ∀ t ∈ store.2, Current store.1 t
  named : ActiveNamed names store

/-- The text of a table determines what it holds. -/
lemma Holds.of_fileText {t t' : TableRuntime} {r : LogicalTable} (h : Holds t r)
    (h' : Storable t') (htext : t'.fileText = t.fileText) : Holds t' r := by
  obtain ⟨t₀, hfrom, hcols, hrows⟩ :=
    @Storable.reload (fun _ => some t.fileText) t h.storable .empty rfl
  obtain ⟨t₁, hfrom', hcols', hrows'⟩ :=
    @Storable.reload (fun _ => some t.fileText) t' h' .empty (by rw [htext])
  cases Option.some.inj (hfrom.symm.trans hfrom')
  exact ⟨h', (hcols'.symm.trans hcols).trans h.columns, (hrows'.symm.trans hrows).trans h.rows⟩

namespace Coupled

variable {names : Set Identifier} {store : Store} {c : Catalog}

lemma storeInv (h : Coupled names store c) : StoreInv store := by
  refine ⟨fun name content hfile => ?_, h.active⟩
  cases hc : c name with
  | none =>
    rw [h.missing name hc] at hfile
    cases hfile
  | some r =>
    obtain ⟨t, hholds, htext⟩ := h.stored name r hc
    exact ⟨t, hholds.storable, Option.some.inj (hfile.symm.trans htext)⟩

/-- The table that a statement finds is that of the catalog. -/
lemma fetch (h : Coupled names store c) (hone : OneSpelling names) {name : Identifier}
    (hname : name ∈ names) (hne : name.val ≠ []) :
    ∃ u t, tableGetOrLoad store.2 name.val = (u, .success) ∧
      tableLoadFromStorageIfNeeded store.1 u name.val = (t, .success) ∧ t.tableName = name ∧
      Current store.1 t ∧
      ((c name = none ∧ t.Unloaded ∧ store.1 (tablePath name) = none) ∨
        ∃ r, c name = some r ∧ Holds t r ∧ store.1 (tablePath name) = some t.fileText) := by
  obtain ⟨u, t, hget, hload, hcur, -⟩ := h.storeInv.fetch hne
  have htable : statementTable store.1 store.2 name = t := by rw [statementTable, hget, hload]
  have htn : t.tableName = name := htable ▸ statementTable_tableName hone h.named hname
  refine ⟨u, t, hget, hload, htn, hcur, ?_⟩
  have hstate := hcur.state
  rw [htn] at hstate
  cases hc : c name with
  | none =>
    have hmissing := h.missing name hc
    rcases hstate with ⟨-, hfile⟩ | ⟨hun, -⟩
    · cases hmissing.symm.trans hfile
    · exact Or.inl ⟨rfl, hun, hmissing⟩
  | some r =>
    obtain ⟨t', hholds, htext⟩ := h.stored name r hc
    rcases hstate with ⟨hst, hfile⟩ | ⟨-, hfile⟩
    · have hsame := Option.some.inj (hfile.symm.trans htext)
      exact Or.inr ⟨r, rfl, hholds.of_fileText hst hsame, hfile⟩
    · cases hfile.symm.trans htext

/-- The file and the table of a name are written together. -/
lemma update (h : Coupled names store c) {name : Identifier} {t : TableRuntime} {r : LogicalTable}
    (hname : name ∈ names) (hne : name.val ≠ []) (htn : t.tableName = name) (hholds : Holds t r) :
    Coupled names (Function.update store.1 (tablePath name) (some t.fileText), some t)
      (Function.update c name (some r)) := by
  constructor
  · intro name' r' hc
    by_cases hsame : name' = name
    · subst hsame
      rw [Function.update_self, Option.some.injEq] at hc
      exact ⟨t, hc ▸ hholds, Function.update_self _ _ _⟩
    · rw [Function.update_of_ne hsame] at hc
      obtain ⟨t', hholds', htext⟩ := h.stored name' r' hc
      exact ⟨t', hholds', (Function.update_of_ne
        (fun hpath => hsame (tablePath_injective hpath)) _ _).trans htext⟩
  · intro name' hc
    by_cases hsame : name' = name
    · subst hsame
      rw [Function.update_self] at hc
      cases hc
    · rw [Function.update_of_ne hsame] at hc
      exact (Function.update_of_ne
        (fun hpath => hsame (tablePath_injective hpath)) _ _).trans (h.missing name' hc)
  · rintro t' ⟨⟩
    exact ⟨htn ▸ hne, Or.inl ⟨hholds.storable, by rw [htn]; exact Function.update_self _ _ _⟩⟩
  · rintro t' ⟨⟩
    exact htn ▸ hname

/-- The active table changes, and no file. -/
lemma withActive (h : Coupled names store c) {t : TableRuntime} (hcur : Current store.1 t)
    (hname : t.tableName ∈ names) : Coupled names (store.1, some t) c := by
  refine ⟨h.stored, h.missing, ?_, ?_⟩
  · rintro t' ⟨⟩
    exact hcur
  · rintro t' ⟨⟩
    exact hname

lemma insert (h : Coupled names store c) (hone : OneSpelling names) {stmt : InsertStatement}
    (hwell : (SqlStatement.insert stmt).WellNamed) (hname : stmt.tableName ∈ names)
    (hsurvives : stmt.Survives) :
    Coupled names (executeStatement store (.insert stmt)).1 (c.insert stmt).1 ∧
      (executeStatement store (.insert stmt)).2 = (c.insert stmt).2.result := by
  have hne : stmt.tableName.val ≠ [] := hwell.tableName.1
  obtain ⟨u, t, hget, hload, htn, hcur, hcase⟩ := h.fetch hone hname hne
  have hself : utilsEqualsIgnoreCase t.tableName.val stmt.tableName.val = true := by
    rw [htn]
    exact utilsEqualsIgnoreCase_self _
  have hrow : tableInsertRow store.1 t stmt = tableInsertLoaded store.1 t stmt := by
    refine hcur.insertRow_eq hself fun hl => ?_
    rcases hcase with ⟨-, -, hfile⟩ | ⟨r, -, hholds, -⟩
    · exact hfile
    · cases hholds.storable.loaded.symm.trans hl
  -- the row goes to the table, and the result is finished already
  have hexecute : ∀ files' t' slot, tableInsertLoaded store.1 t stmt = (files', t', slot) →
      executeStatement store (.insert stmt) = ((files', some t'),
        if slot = none then dbResultSetError dbResultInit
            (bytes "Failed to insert row into " ++ stmt.tableName.val ++ bytes ".")
        else executorFinishInsert dbResultInit stmt.tableName.val) := by
    intro files' t' slot heq
    have hinsert : executorExecuteInsert store.1 store.2 stmt dbResultInit = (files', t',
        if slot = none then dbResultSetError dbResultInit
            (bytes "Failed to insert row into " ++ stmt.tableName.val ++ bytes ".")
        else executorFinishInsert dbResultInit stmt.tableName.val) := by
      unfold executorExecuteInsert
      simp only [hget, hload, hrow, heq]
      cases slot <;> rfl
    have hfinish := (concluded_insert store.1 store.2 hwell.tableName dbResultInit).finish
    rw [hinsert] at hfinish
    unfold executeStatement executorExecuteIntoResult
    simp only [hinsert]
    rw [hfinish]
  unfold Catalog.insert
  rcases hcase with ⟨hc, hun, hmissing⟩ | ⟨r, hc, hholds, hfile⟩
  · simp only [hc]
    by_cases hcreatable : LogicalTable.Creatable stmt.columns
    · obtain ⟨t', slot, heq, hholds, htn'⟩ := insert_created hun (by rw [htn]; exact hmissing)
        hwell.insertColumns hcreatable hsurvives
      rw [hexecute _ _ _ heq, if_pos hcreatable, htn]
      exact ⟨h.update hname hne (htn'.trans htn) hholds, rfl⟩
    · obtain ⟨t', heq, hun', htn'⟩ := @insert_uncreated store.1 t stmt hun hcreatable
      rw [hexecute _ _ _ heq, if_neg hcreatable]
      refine ⟨h.withActive ⟨?_, Or.inr ⟨hun', ?_⟩⟩ ?_, rfl⟩
      · rw [htn', htn]
        exact hne
      · rw [htn', htn]
        exact hmissing
      · rw [htn', htn]
        exact hname
  · simp only [hc]
    by_cases hacc : r.Accepts stmt.columns
    · obtain ⟨t', slot, heq, hholds', htn'⟩ :=
        hholds.insert_accepted (by rw [htn]; exact hfile) hacc hsurvives
      rw [hexecute _ _ _ heq, if_pos hacc, htn]
      exact ⟨h.update hname hne (htn'.trans htn) hholds', rfl⟩
    · obtain ⟨t', heq, hholds', htext, htn'⟩ := @Holds.insert_refused store.1 t r stmt hholds hacc
      rw [hexecute _ _ _ heq, if_neg hacc]
      refine ⟨h.withActive ⟨?_, Or.inl ⟨hholds'.storable, ?_⟩⟩ ?_, rfl⟩
      · rw [htn', htn]
        exact hne
      · rw [htn', htn, htext]
        exact hfile
      · rw [htn', htn]
        exact hname

lemma select (h : Coupled names store c) (hone : OneSpelling names) {stmt : SelectStatement}
    (hwell : (SqlStatement.select stmt).WellNamed) (hname : stmt.tableName ∈ names) :
    Coupled names (executeStatement store (.select stmt)).1 c ∧
      (executeStatement store (.select stmt)).2 = (c.select stmt).result := by
  have hne : stmt.tableName.val ≠ [] := hwell.tableName.1
  obtain ⟨u, t, hget, hload, htn, hcur, hcase⟩ := h.fetch hone hname hne
  have hselect : executorExecuteSelect store.1 store.2 stmt dbResultInit =
      (t, (c.select stmt).result) := by
    unfold executorExecuteSelect Catalog.select
    simp only [hget, hload]
    rcases hcase with ⟨hc, hun, -⟩ | ⟨r, hc, hholds, -⟩
    · simp only [hc, hun.loaded]
      rfl
    · simp only [hc, hholds.storable.loaded, hholds.selectLoaded_eq]
      rfl
  have hfinish := (concluded_select store.1 store.2 hwell.tableName dbResultInit).finish
  rw [hselect] at hfinish
  have hexecute : executeStatement store (.select stmt) =
      ((store.1, some t), (c.select stmt).result) := by
    unfold executeStatement executorExecuteIntoResult
    simp only [hselect]
    rw [hfinish]
  rw [hexecute]
  exact ⟨h.withActive hcur (htn ▸ hname), rfl⟩

/-- One text. -/
lemma query (h : Coupled names store c) (hone : OneSpelling names) {sql : CString}
    (hnames : ∀ stmt, statementOf sql = .ok stmt → stmt.tableName ∈ names)
    (hsurvives : ∀ stmt, statementOf sql = .ok (.insert stmt) → stmt.Survives) :
    Coupled names (executeText store sql).1 (c.query sql).1 ∧
      (executeText store sql).2 = (c.query sql).2.result := by
  unfold executeText Catalog.query
  cases hstmt : statementOf sql with
  | error message => exact ⟨h, rfl⟩
  | ok statement =>
    have hwell := statementOf_wellNamed hstmt
    have hname := hnames statement hstmt
    cases statement with
    | insert stmt => exact h.insert hone hwell hname (hsurvives stmt hstmt)
    | select stmt => exact h.select hone hwell hname
    | delete stmt => exact ⟨h, rfl⟩

end Coupled

/-! ### Whole histories -/

/-- The texts name tables in one spelling only, and every row that they insert survives. -/
structure Event.Plain (names : Set Identifier) (event : Event) : Prop where
  named : ∀ sql stmt, event = .query sql → statementOf sql = .ok stmt → stmt.tableName ∈ names
  survives : ∀ sql stmt, event = .query sql → statementOf sql = .ok (.insert stmt) → stmt.Survives

namespace Event.Plain

variable {names : Set Identifier} {sql : CString}

lemma restart : Event.restart.Plain names := by
  constructor <;> rintro _ _ ⟨⟩

lemma insert {stmt : InsertStatement} (h : statementOf sql = .ok (.insert stmt))
    (hname : stmt.tableName ∈ names) (hsurvives : stmt.Survives) :
    (Event.query sql).Plain names := by
  constructor
  · rintro _ s ⟨⟩ hs
    cases Except.ok.inj (h.symm.trans hs)
    exact hname
  · rintro _ s ⟨⟩ hs
    cases Except.ok.inj (h.symm.trans hs)
    exact hsurvives

lemma select {stmt : SelectStatement} (h : statementOf sql = .ok (.select stmt))
    (hname : stmt.tableName ∈ names) : (Event.query sql).Plain names := by
  constructor
  · rintro _ s ⟨⟩ hs
    cases Except.ok.inj (h.symm.trans hs)
    exact hname
  · rintro _ s ⟨⟩ hs
    cases Except.ok.inj (h.symm.trans hs)

end Event.Plain

section Run

variable {names : Set Identifier} {events : List Event}

/-- One text on a coupled database. -/
lemma Coupled.dbExecuteSql {db : Database} {c : Catalog} (hsound : db.cache.Sound)
    (h : Coupled names db.store c) (hone : OneSpelling names) {sql : CString}
    (hplain : (Event.query sql).Plain names) :
    Coupled names (dbExecuteSql dbEngineInit db sql).1.store (c.query sql).1 ∧
      (dbExecuteSql dbEngineInit db sql).2 = (c.query sql).2.result := by
  have hexec := (dbExecuteSql_eq hsound sql).2
  have hquery := h.query hone (fun stmt => hplain.named sql stmt rfl)
    (fun stmt => hplain.survives sql stmt rfl)
  rw [← hexec] at hquery
  exact hquery

lemma databaseRun_coupled (hone : OneSpelling names) (h : ∀ e ∈ events, e.Plain names) :
    (databaseRun events).cache.Sound ∧
      Coupled names (databaseRun events).store (catalogRun events) := by
  induction events using List.reverseRecOn with
  | nil =>
    refine ⟨TokenizerCache.sound_empty, ?_, fun name _ => rfl, ?_, ?_⟩
    · rintro name r ⟨⟩
    · rintro t ⟨⟩
    · rintro t ⟨⟩
  | append_singleton events event ih =>
    obtain ⟨hsound, hcoupled⟩ := ih fun e he => h e (List.mem_append_left _ he)
    have hplain := h event (by simp)
    rw [databaseRun_append, catalogRun_append]
    cases event with
    | query sql =>
      exact ⟨(dbExecuteSql_eq hsound sql).1, (hcoupled.dbExecuteSql hsound hone hplain).1⟩
    | restart =>
      refine ⟨TokenizerCache.sound_empty, hcoupled.stored, hcoupled.missing, ?_, ?_⟩
      · rintro t ⟨⟩
      · rintro t ⟨⟩

end Run

/-- From an empty directory, over any texts and restarts, `db_execute_sql` answers what the catalog
answers, as long as every table is named in one spelling, no value has a line break and no statement
gives a column that it names twice two values. -/
theorem databaseRun_refines (names : Set Identifier) (hone : OneSpelling names)
    (events : List Event) (h : ∀ e ∈ events, e.Plain names) (sql : CString)
    (hsql : (Event.query sql).Plain names) :
    (dbExecuteSql dbEngineInit (databaseRun events) sql).2 =
      ((catalogRun events).query sql).2.result := by
  obtain ⟨hsound, hcoupled⟩ := databaseRun_coupled hone h
  exact (hcoupled.dbExecuteSql hsound hone hsql).2

lemma oneSpelling_singleton (name : Identifier) : OneSpelling {name} :=
  fun _ hn _ hm _ => hn.trans hm.symm

/-- A row, a restart and the query for its id. -/
theorem databaseRun_refines_restarted :
    let events := [Event.query (bytes "INSERT INTO t (a) VALUES ('x')"), .restart]
    (dbExecuteSql dbEngineInit (databaseRun events) (bytes "SELECT a FROM t WHERE id = 1")).2 =
      (Answer.selected [identifier "a"] [[bytes "x"]] true).result := by
  intro events
  have hinsert : statementOf (bytes "INSERT INTO t (a) VALUES ('x')") =
      .ok (.insert ⟨identifier "t", [identifier "a"], [.truncate 255 (bytes "x")], by decide,
        by decide⟩) := by rfl
  have hselect : statementOf (bytes "SELECT a FROM t WHERE id = 1") =
      .ok (.select ⟨identifier "t", [identifier "a"],
        some ⟨identifier "id", .truncate 3 (bytes "="), .truncate 255 (bytes "1")⟩, by decide⟩) :=
    by rfl
  have hone := oneSpelling_singleton (identifier "t")
  have hplain : ∀ e ∈ events, e.Plain {identifier "t"} := by
    intro e he
    rcases List.mem_pair.mp he with rfl | rfl
    · exact .insert hinsert rfl (.single rfl (by decide))
    · exact .restart
  have hanswer : ((catalogRun events).query (bytes "SELECT a FROM t WHERE id = 1")).2 =
      .selected [identifier "a"] [[bytes "x"]] true := by decide +kernel
  rw [← hanswer]
  exact databaseRun_refines _ hone events hplain _ (.select hselect rfl)

end MiniDbms
