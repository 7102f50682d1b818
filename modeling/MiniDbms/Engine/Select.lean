import MiniDbms.Engine.Executor
import MiniDbms.Runtime.Reachable
import MiniDbms.Common.Comparison

/-!
# The meaning of SELECT

A query returns, in slot order, the projections of the rows that satisfy its condition. The lookup
in the id index and the scan of the table both compute this.
-/

namespace MiniDbms

/-! ### The meaning -/

/-- The comparison operators. -/
inductive CompareOp where
  | eq
  | ne
  | gt
  | ge
  | lt
  | le
  deriving DecidableEq, Repr

namespace CompareOp

def text : CompareOp → CString
  | eq => bytes "="
  | ne => bytes "!="
  | gt => bytes ">"
  | ge => bytes ">="
  | lt => bytes "<"
  | le => bytes "<="

/-- The operator holds of two values that compare as `comparison`. -/
def holds (comparison : Int) : CompareOp → Bool
  | eq => comparison = 0
  | ne => comparison ≠ 0
  | gt => 0 < comparison
  | ge => 0 ≤ comparison
  | lt => comparison < 0
  | le => comparison ≤ 0

/-- The operator that a text spells. -/
def ofText (op : CString) : Option CompareOp := [eq, ne, gt, ge, lt, le].find? (·.text = op)

end CompareOp

/-- The cell of a row in the first column of that name. -/
def cellOf (columns : List Identifier) (row : List CString) (name : Identifier) : CString :=
  match storageFindColumnIndex columns name.val with
  | none   => []
  | some i => row.getD i []

/-- The row satisfies the condition. -/
def WhereClause.holds (columns : List Identifier) (w : WhereClause) (row : List CString) : Bool :=
  (CompareOp.ofText w.op.val).any fun op =>
    op.holds (utilsCompareValues (cellOf columns row w.column) w.value.val)

/-- The projection of a row; no column stands for all of them. -/
def projectRow (columns : List Identifier) (selected : List Identifier) (row : List CString) :
    List CString :=
  if selected = [] then row else selected.map (cellOf columns row)

/-- The rows a query means. -/
def selectRows (t : TableRuntime) (stmt : SelectStatement) : List (List CString) :=
  (t.rows.filter fun row => stmt.whereClause.all fun w => w.holds t.columns row).map
    (projectRow t.columns stmt.columns)

/-- The query speaks only about columns of the table, and compares with a known operator. -/
structure WellFormedFor (columns : List Identifier) (stmt : SelectStatement) : Prop where
  selected : ∀ c ∈ stmt.columns, storageFindColumnIndex columns c.val ≠ none
  compared : ∀ w ∈ stmt.whereClause, storageFindColumnIndex columns w.column.val ≠ none ∧
    CompareOp.ofText w.op.val ≠ none

/-! ### Operators and columns -/

lemma CompareOp.ofText_some {op : CompareOp} {text : CString} (h : CompareOp.ofText text = some op) :
    text = op.text := by
  have := List.find?_some h
  simpa [eq_comm] using this

lemma tableWhereMatches_text (op : CompareOp) (comparison : Int) :
    tableWhereMatches comparison op.text = op.holds comparison := by
  cases op <;> rfl

/-- `table_where_matches` tests the operator. -/
lemma tableWhereMatches_of_ofText {text : CString} {op : CompareOp}
    (h : CompareOp.ofText text = some op) (comparison : Int) :
    tableWhereMatches comparison text = op.holds comparison := by
  rw [CompareOp.ofText_some h, tableWhereMatches_text]

/-! ### Projection -/

lemma mapM_eq_some {α β : Type} {f : α → Option β} {g : α → β} {l : List α}
    (h : ∀ a ∈ l, f a = some (g a)) : l.mapM f = some (l.map g) := by
  induction l with
  | nil => rfl
  | cons a l ih =>
    rw [List.mapM_cons, h a (by simp), ih fun b hb => h b (by simp [hb])]
    rfl

/-- The projection is prepared, and projects every row of the table. -/
lemma executorPrepareProjection_some {t : TableRuntime} {stmt : SelectStatement}
    (hcols : ∀ c ∈ stmt.columns, storageFindColumnIndex t.columns c.val ≠ none) :
    ∃ indices headers, executorPrepareProjection stmt t = some (indices, headers) ∧
      (headers.length = stmt.columns.length ∨ headers = t.columns) ∧
      ∀ row : List CString, row.length = t.columns.length →
        executorCopyProjectedRow row indices = projectRow t.columns stmt.columns row := by
  unfold executorPrepareProjection
  by_cases hstar : stmt.columns = []
  · rw [if_pos (by simp [hstar])]
    refine ⟨_, _, rfl, .inr rfl, ?_⟩
    intro row hlen
    rw [projectRow, if_pos hstar, executorCopyProjectedRow, ← hlen]
    apply List.ext_getElem
    · simp
    · intro i h₁ h₂
      simp [h₂]
  · rw [if_neg (by simpa using hstar)]
    have hfound : ∀ c ∈ stmt.columns, storageFindColumnIndex t.columns c.val =
        some ((storageFindColumnIndex t.columns c.val).getD 0) := by
      intro c hc
      obtain ⟨i, hi⟩ := Option.ne_none_iff_exists'.mp (hcols c hc)
      rw [hi]
      rfl
    rw [mapM_eq_some hfound]
    refine ⟨_, _, rfl, .inl (by simp), ?_⟩
    intro row _
    rw [projectRow, if_neg hstar, executorCopyProjectedRow, List.map_map]
    apply List.map_congr_left
    intro c hc
    simp only [Function.comp_apply, cellOf]
    rw [hfound c hc]
    rfl

/-! ### The scan -/

/-- Rows are collected in the order of their slots. -/
lemma executorCollectRowsByIndices_eq {t : TableRuntime} {slots : List (List CString × Nat)}
    (h : ∀ p ∈ slots, t.rows[p.2]? = some p.1) (indices : List Nat) :
    executorCollectRowsByIndices t indices (slots.map fun p => (p.2 : Int)) =
      some (slots.map fun p => executorCopyProjectedRow p.1 indices) := by
  unfold executorCollectRowsByIndices
  rw [List.mapM_map]
  apply mapM_eq_some
  intro p hp
  obtain ⟨hlt, hget⟩ := List.getElem?_eq_some_iff.mp (h p hp)
  simp [tableGetRowBySlot, hlt, hget]

lemma map_filter_zipIdx {α β : Type} (l : List α) (p : α → Bool) (f : α → β) :
    (l.zipIdx.filter fun x => p x.1).map (fun x => f x.1) = (l.filter p).map f := by
  conv_rhs => rw [← List.zipIdx_map_fst 0 l, List.filter_map, List.map_map]
  rfl

/-- The scan finds the slots of the rows that satisfy the condition. -/
lemma tableLinearScanByField_some {t : TableRuntime} (hl : t.loaded = true) {w : WhereClause}
    (hcol : storageFindColumnIndex t.columns w.column.val ≠ none)
    (hop : CompareOp.ofText w.op.val ≠ none) :
    tableLinearScanByField t (some w) =
      some ((t.rows.zipIdx.filter fun p => w.holds t.columns p.1).map fun p => (p.2 : Int)) := by
  obtain ⟨i, hi⟩ := Option.ne_none_iff_exists'.mp hcol
  obtain ⟨op, hop⟩ := Option.ne_none_iff_exists'.mp hop
  have hscan : tableLinearScanByField t (some w) = some (tableScanColumn t i w) := by
    unfold tableLinearScanByField
    split_ifs with hempty
    · have hrows : t.rows = [] := by simpa [hl] using hempty
      simp [tableScanColumn, hrows]
    · simp only [hi, Option.map_some]
  have hmatches : ∀ row : List CString,
      tableWhereMatches (utilsCompareValues (row.getD i []) w.value.val) w.op.val =
        w.holds t.columns row := by
    intro row
    rw [tableWhereMatches_of_ofText hop, WhereClause.holds, hop, cellOf, hi]
    rfl
  rw [hscan, tableScanColumn]
  simp only [hmatches]

/-- Without a condition it finds all slots. -/
lemma tableLinearScanByField_none {t : TableRuntime} (hl : t.loaded = true) :
    tableLinearScanByField t none = some (t.rows.zipIdx.map fun p => (p.2 : Int)) := by
  unfold tableLinearScanByField
  split_ifs with hempty
  · have hrows : t.rows = [] := by simpa [hl] using hempty
    simp [hrows]
  · rfl

/-- The scan returns the rows that satisfy the condition. -/
lemma executorCollectRowsByScan_eq {t : TableRuntime} (hl : t.loaded = true) {w : WhereClause}
    (hcol : storageFindColumnIndex t.columns w.column.val ≠ none)
    (hop : CompareOp.ofText w.op.val ≠ none) (indices : List Nat) :
    executorCollectRowsByScan t w indices =
      some ((t.rows.filter (w.holds t.columns)).map (executorCopyProjectedRow · indices)) := by
  rw [executorCollectRowsByScan, tableLinearScanByField_some hl hcol hop, Option.bind_eq_bind,
    Option.bind_some, executorCollectRowsByIndices_eq]
  · exact congrArg some
      (map_filter_zipIdx t.rows (w.holds t.columns) (executorCopyProjectedRow · indices))
  · intro p hp
    exact List.mem_zipIdx_iff_getElem?.mp (List.mem_of_mem_filter hp)

lemma executorCollectAllRows_eq {t : TableRuntime} (hl : t.loaded = true) (indices : List Nat) :
    executorCollectAllRows t indices = some (t.rows.map (executorCopyProjectedRow · indices)) := by
  rw [executorCollectAllRows, tableLinearScanByField_none hl, Option.bind_eq_bind, Option.bind_some,
    executorCollectRowsByIndices_eq fun p hp => List.mem_zipIdx_iff_getElem?.mp hp]
  congr 1
  conv_rhs => rw [← List.zipIdx_map_fst 0 t.rows, List.map_map]
  rfl

/-! ### The index -/

lemma filter_key_eq_singleton {α β : Type} [DecidableEq β] {f : α → β} {l : List α}
    (hnodup : (l.map f).Nodup) {a : α} (ha : a ∈ l) : (l.filter fun x => f x = f a) = [a] := by
  induction l with
  | nil => cases ha
  | cons b l ih =>
    rw [List.map_cons, List.nodup_cons] at hnodup
    obtain ⟨hb, hnodup⟩ := hnodup
    rcases List.mem_cons.mp ha with rfl | ha
    · have hnone : (l.filter fun x => f x = f a) = [] := by
        rw [List.filter_eq_nil_iff]
        intro x hx hfx
        exact hb (List.mem_map.mpr ⟨x, hx, by simpa using hfx⟩)
      rw [List.filter_cons_of_pos (by simp), hnone]
    · have hne : f b ≠ f a := fun h => hb (h ▸ List.mem_map.mpr ⟨a, ha, rfl⟩)
      rw [List.filter_cons_of_neg (by simpa using hne), ih hnodup ha]

/-- What `executor_can_use_id_index` has tested. -/
lemma executorCanUseIdIndex_some {t : TableRuntime} {w : WhereClause} {key : Int}
    (h : executorCanUseIdIndex t w = some key) :
    w.op.val = bytes "=" ∧ utilsIsInteger w.value.val = true ∧
      utilsEqualsIgnoreCase (t.columns.getD t.idColumnIndex .empty).val w.column.val = true ∧
      utilsParseInteger w.value.val = key := by
  unfold executorCanUseIdIndex at h
  dsimp only at h
  split_ifs at h with hroot hop hcol hrange
  cases h
  rw [not_or] at hop
  exact ⟨by simpa using hop.1, by simpa using hop.2, by simpa using hcol, rfl⟩

/-- When the index may be used, the condition asks for one id. -/
lemma WhereClause.holds_iff_id {t : TableRuntime} (h : t.Consistent) {w : WhereClause} {key : Int}
    (huse : executorCanUseIdIndex t w = some key) {row : List CString} (hrow : row ∈ t.rows) :
    w.holds t.columns row = true ↔ utilsParseInteger (t.idText row) = key := by
  obtain ⟨hop, hint, hcol, rfl⟩ := executorCanUseIdIndex_some huse
  have heq : CompareOp.ofText w.op.val = some .eq := by
    rw [hop]
    decide
  obtain ⟨hlt, hid, -⟩ := List.findIdx?_eq_some_iff_getElem.mp h.id_column
  have hname : utilsEqualsIgnoreCase w.column.val (bytes "id") = true := by
    rw [List.getD_eq_getElem?_getD, List.getElem?_eq_getElem hlt, Option.getD_some,
      utilsEqualsIgnoreCase_comm] at hcol
    exact utilsEqualsIgnoreCase_trans hcol hid
  have hcell : cellOf t.columns row w.column = t.idText row := by
    rw [cellOf, storageFindColumnIndex_congr hname, h.id_column]
    rfl
  rw [WhereClause.holds, heq, hcell, Option.any_some, CompareOp.holds, decide_eq_true_iff]
  exact utilsCompareValues_eq_zero_iff (h.id_integer row hrow) hint

/-- The index finds the rows that satisfy the condition. -/
lemma executorCollectRowsById_eq {t : TableRuntime} (h : t.Consistent) {w : WhereClause} {key : Int}
    (huse : executorCanUseIdIndex t w = some key) (indices : List Nat) :
    executorCollectRowsById t key indices =
      some ((t.rows.filter (w.holds t.columns)).map (executorCopyProjectedRow · indices)) := by
  have hfilter : t.rows.filter (w.holds t.columns) =
      t.rows.filter fun row => utilsParseInteger (t.idText row) = key := by
    apply List.filter_congr
    intro row hrow
    rw [Bool.eq_iff_iff, decide_eq_true_iff]
    exact WhereClause.holds_iff_id h huse hrow
  have hsearch : ∀ v, bptreeSearch t.idIndex key = some v ↔
      ∃ i : Nat, t.ids[i]? = some key ∧ v = i := by
    rw [h.index]
    exact search_indexPairs h.ids_nodup key
  rw [hfilter, executorCollectRowsById]
  cases hfound : bptreeSearch t.idIndex key with
  | none =>
    have hnone : (t.rows.filter fun row => utilsParseInteger (t.idText row) = key) = [] := by
      rw [List.filter_eq_nil_iff]
      intro row hrow hkey
      obtain ⟨i, hi⟩ := List.mem_iff_getElem?.mp hrow
      have hslot :=
        (hsearch i).mpr ⟨i, (t.ids_getElem? i key).mpr ⟨row, hi, by simpa using hkey⟩, rfl⟩
      rw [hfound] at hslot
      cases hslot
    rw [hnone]
    rfl
  | some v =>
    obtain ⟨i, hi, rfl⟩ := (hsearch v).mp hfound
    obtain ⟨row, hrow, rfl⟩ := (t.ids_getElem? i key).mp hi
    have hone := @executorCollectRowsByIndices_eq t [(row, i)] (by simpa using hrow) indices
    rw [filter_key_eq_singleton h.ids_nodup (List.mem_of_getElem? hrow)]
    exact hone

/-! ### Whole queries -/

/-- Whichever way is taken, the rows collected are those that satisfy the condition. -/
lemma executorCollectRows_eq {t : TableRuntime} (h : t.Consistent) (hl : t.loaded = true)
    {stmt : SelectStatement} (hwf : WellFormedFor t.columns stmt) (indices : List Nat) :
    (executorCollectRows t stmt.whereClause indices).1 =
      some ((t.rows.filter fun row => stmt.whereClause.all fun w => w.holds t.columns row).map
        (executorCopyProjectedRow · indices)) := by
  cases hw : stmt.whereClause with
  | none => simp [executorCollectRows, executorCollectAllRows_eq hl]
  | some w =>
    obtain ⟨hcol, hop⟩ := hwf.compared w hw
    simp only [executorCollectRows, Option.all_some]
    cases huse : executorCanUseIdIndex t w with
    | none => exact executorCollectRowsByScan_eq hl hcol hop indices
    | some key => exact executorCollectRowsById_eq h huse indices

lemma executorSelectLoaded_eq {t : TableRuntime} (h : t.Consistent) (hl : t.loaded = true)
    {stmt : SelectStatement} (hwf : WellFormedFor t.columns stmt) (result : DbResult) :
    ∃ r, executorSelectLoaded t stmt result = (r, .success) ∧ r.type = .select ∧
      r.success = true ∧ r.rows = selectRows t stmt := by
  obtain ⟨indices, headers, hproj, hheaders, hcopy⟩ := executorPrepareProjection_some hwf.selected
  have hrows := executorCollectRows_eq h hl hwf indices
  have hcount : ¬ headers.length > maxColumns := by
    rcases hheaders with hlen | rfl
    · have := stmt.columns_le
      omega
    · have := h.columns_le
      omega
  unfold executorSelectLoaded
  rw [hproj]
  dsimp only
  generalize executorCollectRows t stmt.whereClause indices = collected at hrows ⊢
  obtain ⟨rows, used⟩ := collected
  obtain rfl : rows = _ := hrows
  dsimp only
  unfold executorFinishSelect executorCopyHeadersToResult
  rw [if_neg hcount]
  refine ⟨_, rfl, rfl, rfl, ?_⟩
  apply List.map_congr_left
  intro row hrow
  exact hcopy row (h.row_length row (List.mem_of_mem_filter hrow))

/-- A table that is loaded in the end is consistent, and loading it was no failure. -/
lemma RuntimeInv.load_loaded {files : Files} {t : TableRuntime} (h : RuntimeInv files t)
    {name : CString} (hl : (tableLoadFromStorageIfNeeded files t name).1.loaded = true) :
    (tableLoadFromStorageIfNeeded files t name).1.Consistent ∧
      (tableLoadFromStorageIfNeeded files t name).2 = .success := by
  cases hloaded : t.loaded with
  | true =>
    have hsame : tableLoadFromStorageIfNeeded files t name = (t, .success) := by
      simp [tableLoadFromStorageIfNeeded, hloaded]
    rw [hsame]
    exact ⟨(h.loaded hloaded).1, rfl⟩
  | false =>
    have hun := h.unloaded hloaded
    have hnot : ∀ {t' : TableRuntime}, t'.Unloaded → t'.loaded = true → False := by
      intro t' h' hl'
      rw [h'.loaded] at hl'
      cases hl'
    rcases tableLoad_cases files hloaded name with
      ⟨-, hload⟩ | ⟨-, hname, ⟨-, hload⟩ | ⟨-, t', ht', hload⟩ | ⟨t', hfrom, hload⟩⟩
    · rw [hload] at hl
      exact (hnot (hun.nameFor name) hl).elim
    · rw [hload] at hl
      exact (hnot (hun.nameFor name) hl).elim
    · rw [hload] at hl
      rcases ht' with rfl | rfl
      · exact (hnot (hun.nameFor name) hl).elim
      · exact (hnot (TableRuntime.named_unloaded _) hl).elim
    · rw [hload]
      exact ⟨(tableFromStorage_some hfrom).1, rfl⟩

lemma executorExecuteSelect_eq {files : Files} {t : TableRuntime} (h : RuntimeInv files t)
    {stmt : SelectStatement} (hl : (statementTable files (some t) stmt.tableName).loaded = true)
    (result : DbResult) :
    (statementTable files (some t) stmt.tableName).Consistent ∧
      executorExecuteSelect files (some t) stmt result =
        (statementTable files (some t) stmt.tableName,
          executorSelectLoaded (statementTable files (some t) stmt.tableName) stmt result) := by
  have hget := tableGetOrLoad_success (some t) stmt.tableName
  obtain ⟨hcons, hst⟩ := (h.getOrLoad stmt.tableName.val).load_loaded hl
  refine ⟨hcons, ?_⟩
  unfold statementTable at hl ⊢
  unfold executorExecuteSelect
  generalize tableGetOrLoad (some t) stmt.tableName.val = got at *
  obtain ⟨t₁, st₁⟩ := got
  obtain rfl : st₁ = .success := hget
  dsimp only at *
  generalize tableLoadFromStorageIfNeeded files t₁ stmt.tableName.val = loaded at *
  obtain ⟨t₂, st₂⟩ := loaded
  obtain rfl : st₂ = .success := hst
  simp [show t₂.loaded = true from hl]

/-- The result is the meaning of the query. -/
def MeetsSelect (t : TableRuntime) (stmt : SelectStatement)
    (outcome : TableRuntime × DbResult × Status) : Prop :=
  outcome.1 = t ∧ outcome.2.2 = .success ∧ outcome.2.1.success = true ∧
    outcome.2.1.type = .select ∧ outcome.2.1.rows = selectRows t stmt

/-- After any calls that name their tables, a query about columns of a table that is loaded
succeeds and returns the rows it means, and the index gives what the scan gives. -/
theorem executorExecuteSelect_meets (files : Files) (ops : List TableOp)
    (hops : ∀ op ∈ ops, op.Named) (stmt : SelectStatement) (result : DbResult) (t : TableRuntime)
    (ht : statementTable (tableRun files ops).1 (some (tableRun files ops).2) stmt.tableName = t)
    (hl : t.loaded = true) (hwf : WellFormedFor t.columns stmt) :
    MeetsSelect t stmt
      (executorExecuteSelect (tableRun files ops).1 (some (tableRun files ops).2) stmt result) ∧
    ∀ w key indices, w ∈ stmt.whereClause → executorCanUseIdIndex t w = some key →
      executorCollectRowsById t key indices = executorCollectRowsByScan t w indices := by
  subst ht
  obtain ⟨hcons, heq⟩ := executorExecuteSelect_eq (tableRun_inv files hops) hl result
  obtain ⟨r, hr, htype, hok, hrows⟩ := executorSelectLoaded_eq hcons hl hwf result
  constructor
  · rw [heq, hr]
    exact ⟨rfl, rfl, hok, htype, hrows⟩
  · intro w key indices hw huse
    obtain ⟨hcol, hop⟩ := hwf.compared w hw
    rw [executorCollectRowsById_eq hcons huse, executorCollectRowsByScan_eq hl hcol hop]

/-- `SELECT * FROM <name> WHERE id = '<value>'` -/
def selectById (name : Identifier) (value : Value) : SelectStatement :=
  ⟨name, [], some ⟨identifier "id", .truncate 3 (bytes "="), value⟩, Nat.zero_le _⟩

/-- The id `007` of the file is found under the literal `+7`. -/
theorem executorExecuteSelect_meets_padded :
    let files := singleFile (bytes "data/t.csv") (bytes "ID,name\n007,bob\n8,amy\n")
    let stmt := selectById ⟨bytes "T", by decide⟩ ⟨bytes "+7", by decide⟩
    let ops : List TableOp := [.getOrLoad (bytes "t"), .load (bytes "t")]
    let t := (tableRun files ops).2
    selectRows t stmt = [[bytes "007", bytes "bob"]] ∧
      MeetsSelect t stmt (executorExecuteSelect (tableRun files ops).1 (some t) stmt
        dbResultInit) := by
  intro files stmt ops t
  have hops : ∀ op ∈ ops, op.Named := by
    simp only [ops, List.forall_mem_cons]
    exact ⟨trivial, (by decide : bytes "t" ≠ []), by simp⟩
  have hwf : WellFormedFor t.columns stmt := by
    refine ⟨by decide, ?_⟩
    rintro w ⟨⟩
    exact ⟨by decide, by decide⟩
  exact ⟨by decide, (executorExecuteSelect_meets files ops hops stmt dbResultInit t (by decide)
    (by decide) hwf).1⟩

/-- In the table that was loaded under the empty name and then renamed, the index finds a row
whose id cell is no number; the scan does not. -/
theorem executorExecuteSelect_fails_unnamed :
    ¬ ∀ (files : Files) (ops : List TableOp) (stmt : SelectStatement) (result : DbResult)
      (t : TableRuntime),
      statementTable (tableRun files ops).1 (some (tableRun files ops).2) stmt.tableName = t →
      t.loaded = true → WellFormedFor t.columns stmt →
        MeetsSelect t stmt
          (executorExecuteSelect (tableRun files ops).1 (some (tableRun files ops).2) stmt
            result) := by
  intro h
  have hmeets := h (singleFile (bytes "data/.csv") (bytes "name,id\nbob,5\n"))
    [.getOrLoad [], .load [], .insert ⟨⟨bytes "x", by decide⟩, [⟨bytes "id", by decide⟩],
      [⟨bytes "abc", by decide⟩], by decide, by decide⟩]
    (selectById ⟨bytes "x", by decide⟩ ⟨bytes "6", by decide⟩) dbResultInit _ rfl (by decide)
    ⟨by decide, by rintro w ⟨⟩; exact ⟨by decide, by decide⟩⟩
  obtain ⟨-, -, -, -, hrows⟩ := hmeets
  revert hrows
  decide

end MiniDbms
