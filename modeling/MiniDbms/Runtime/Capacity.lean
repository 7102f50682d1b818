import MiniDbms.Runtime.Reload

/-!
# The growth of the row array

The capacity of the row array is 0 or 16 times a power of two, and it is an `int`. Doubling it is
right up to 2^29; at 2^30 rows the product is no `int` any more.
-/

namespace MiniDbms

/-- `INT_MIN` -/
def intMin : Int := -2147483648

/-- The products of `int` values that `table_reserve_if_needed` takes, before they are brought back
into the range of an `int`. -/
def tableReserveProducts (table : TableRuntime) : List Int :=
  if (table.rows.length : Int) < table.capacity then []
  else if table.capacity = 0 then []
  else [table.capacity * 2]

/-- 0, or 16 times a power of two. -/
def IsDoubled (capacity : Int) : Prop := capacity = 0 ∨ ∃ k : Nat, capacity = 16 * 2 ^ k

/-- A call of `table_reserve_if_needed` does not overflow, makes room when it succeeds, and finds
and leaves a capacity that comes from doubling. -/
structure ReservesRow (table : TableRuntime) : Prop where
  no_overflow : ∀ n ∈ tableReserveProducts table, intMin ≤ n ∧ n ≤ intMax
  room : (tableReserveIfNeeded table).2 = .success →
    (table.rows.length : Int) < (tableReserveIfNeeded table).1.capacity
  doubled : IsDoubled table.capacity ∧ IsDoubled (tableReserveIfNeeded table).1.capacity

/-! ### The rows fit -/

/-- The capacity comes from doubling without overflow, and the rows fit into it. -/
structure RowsFit (table : TableRuntime) : Prop where
  valid_capacity : ValidCapacity table.capacity
  rows_le : (table.rows.length : Int) ≤ table.capacity

lemma ValidCapacity.isDoubled {c : Int} (h : ValidCapacity c) : IsDoubled c :=
  h.imp_right fun ⟨k, _, hk⟩ => ⟨k, hk⟩

lemma RowsFit.congr {t t' : TableRuntime} (h : RowsFit t) (hcapacity : t'.capacity = t.capacity)
    (hrows : t'.rows = t.rows) : RowsFit t' :=
  ⟨hcapacity ▸ h.valid_capacity, by rw [hcapacity, hrows]; exact h.rows_le⟩

lemma TableRuntime.Consistent.rowsFit {t : TableRuntime} (h : t.Consistent) : RowsFit t :=
  ⟨h.valid_capacity, h.rows_le⟩

lemma TableRuntime.Unloaded.rowsFit {t : TableRuntime} (h : t.Unloaded) : RowsFit t :=
  ⟨.inl h.capacity, by simp [h.rows, h.capacity]⟩

lemma RowsFit.nameFor {t : TableRuntime} (h : RowsFit t) (name : CString) :
    RowsFit (t.nameFor name) := by
  unfold TableRuntime.nameFor
  split_ifs
  · exact h.congr rfl rfl
  · exact h

lemma RowsFit.load {files : Files} {t : TableRuntime} (h : RowsFit t) (name : CString) :
    RowsFit (tableLoadFromStorageIfNeeded files t name).1 := by
  cases hl : t.loaded with
  | true => simpa [tableLoadFromStorageIfNeeded, hl] using h
  | false =>
    rcases tableLoad_cases files hl name with
      ⟨-, hload⟩ | ⟨-, hname, ⟨-, hload⟩ | ⟨-, t', ht', hload⟩ | ⟨t', hfrom, hload⟩⟩
    · rw [hload]
      exact h.nameFor name
    · rw [hload]
      exact h.nameFor name
    · rw [hload]
      rcases ht' with rfl | rfl
      · exact h.nameFor name
      · exact (TableRuntime.named_unloaded _).rowsFit
    · rw [hload]
      exact (tableFromStorage_some hfrom).1.rowsFit

lemma RowsFit.prepareSchema {t : TableRuntime} (h : RowsFit t) (stmt : InsertStatement) :
    RowsFit (tablePrepareSchema t stmt).1 := by
  unfold tablePrepareSchema
  split_ifs
  · exact h
  · unfold tableInitializeSchema
    split_ifs
    · exact h
    · obtain ⟨names, status⟩ := tableCopyInsertColumns stmt.columns
      cases status with
      | success => exact h.congr rfl rfl
      | failure => exact h.congr rfl rfl

lemma RowsFit.appendRow {t : TableRuntime} (h : RowsFit t) (stmt : InsertStatement) :
    RowsFit (tableAppendRow t stmt).1 := by
  obtain ⟨hvalid, hle, hroom, -⟩ := tableReserveIfNeeded_spec h.valid_capacity h.rows_le
  have hrows : (tableReserveIfNeeded t).1.rows = t.rows := by rw [tableReserveIfNeeded_fst]
  rw [← hrows] at hle hroom
  unfold tableAppendRow
  cases hreserve : tableReserveIfNeeded t with
  | mk t₁ status =>
    rw [hreserve] at hvalid hle hroom
    cases status with
    | failure => exact ⟨hvalid, hle⟩
    | success =>
      dsimp only
      split_ifs
      · exact ⟨hvalid, hle⟩
      · obtain ⟨idIndex, status⟩ := bptreeInsert t₁.idIndex t₁.nextId t₁.rows.length
        cases status with
        | failure => exact ⟨hvalid, hle⟩
        | success =>
          refine ⟨hvalid, ?_⟩
          have hlt : (t₁.rows.length : Int) < t₁.capacity := hroom rfl
          simp only [List.length_append, List.length_singleton]
          push_cast
          exact hlt

lemma RowsFit.insertLoaded {files : Files} {t : TableRuntime} (h : RowsFit t)
    (stmt : InsertStatement) : RowsFit (tableInsertLoaded files t stmt).2.1 := by
  have hschema := h.prepareSchema stmt
  unfold tableInsertLoaded
  cases hprepare : tablePrepareSchema t stmt with
  | mk t₁ status =>
    rw [hprepare] at hschema
    cases status with
    | failure => exact hschema
    | success =>
      have happend := RowsFit.appendRow hschema stmt
      dsimp only [tableStoreRow]
      cases hrow : tableAppendRow t₁ stmt with
      | mk t₂ status =>
        rw [hrow] at happend
        cases status with
        | failure => exact happend
        | success =>
          dsimp only
          obtain ⟨files', status⟩ := storageInsert files t₂.tableName.val stmt
          cases status with
          | success => exact happend
          | failure =>
            dsimp only
            rw [tableRollback_eq]
            exact (TableRuntime.named_unloaded _).rowsFit.load _

lemma RowsFit.insert {files : Files} {t : TableRuntime} (h : RowsFit t) (stmt : InsertStatement) :
    RowsFit (tableInsertRow files t stmt).2.1 := by
  have hload := @RowsFit.load files _ (h.nameFor stmt.tableName.val) stmt.tableName.val
  rw [tableInsertRow_eq]
  split_ifs
  · cases hres : tableLoadFromStorageIfNeeded files (t.nameFor stmt.tableName.val)
        stmt.tableName.val with
    | mk t' status =>
      rw [hres] at hload
      cases status with
      | failure => exact hload
      | success => exact RowsFit.insertLoaded hload stmt
  · exact h.nameFor _

/-- One call keeps the rows within the capacity. -/
lemma RowsFit.step {files : Files} {t : TableRuntime} (h : RowsFit t) (op : TableOp) :
    RowsFit (op.apply files t).2 := by
  cases op with
  | getOrLoad name =>
    simp only [TableOp.apply, tableGetOrLoad, Option.getD_some]
    split_ifs
    · exact h
    · exact tableInit_unloaded.rowsFit.congr rfl rfl
  | load name => exact h.load name
  | insert stmt => exact h.insert stmt
  | free => exact tableInit_unloaded.rowsFit
  | replaceFiles files' => exact h

lemma tableRun_rowsFit (files : Files) (ops : List TableOp) : RowsFit (tableRun files ops).2 := by
  induction ops using List.reverseRecOn with
  | nil => exact tableInit_unloaded.rowsFit
  | append_singleton ops op ih =>
    have hrun : tableRun files (ops ++ [op]) =
        op.apply (tableRun files ops).1 (tableRun files ops).2 := by
      simp [tableRun]
    rw [hrun]
    exact ih.step op

/-! ### When the array can grow -/

lemma ValidCapacity.le_max {c : Int} (h : ValidCapacity c) : 0 ≤ c ∧ c ≤ 2 ^ 30 := by
  have hmax : ∀ k ≤ 26, (0 : Int) ≤ 16 * 2 ^ k ∧ (16 * 2 ^ k : Int) ≤ 2 ^ 30 := by decide
  rcases h with rfl | ⟨k, hk, rfl⟩
  · decide
  · exact hmax k hk

lemma ValidCapacity.lt_of_lt {c : Int} (h : ValidCapacity c) (hlt : c < 2 ^ 30) : c ≤ 2 ^ 29 := by
  have hmax : ∀ k ≤ 26, (16 * 2 ^ k : Int) < 2 ^ 30 → (16 * 2 ^ k : Int) ≤ 2 ^ 29 := by decide
  rcases h with rfl | ⟨k, hk, rfl⟩
  · decide
  · exact hmax k hk hlt

lemma RowsFit.reservesRow_iff {t : TableRuntime} (h : RowsFit t) :
    ReservesRow t ↔ t.rows.length < 2 ^ 30 := by
  obtain ⟨hvalid, -, hroom, -⟩ := tableReserveIfNeeded_spec h.valid_capacity h.rows_le
  obtain ⟨hpos, hmax⟩ := h.valid_capacity.le_max
  have hle := h.rows_le
  constructor
  · intro hreserves
    by_contra hmany
    -- the array is full, and as large as it can get
    have hfull : t.capacity = 2 ^ 30 := by omega
    have hproduct : t.capacity * 2 ∈ tableReserveProducts t := by
      rw [tableReserveProducts, if_neg (by omega), if_neg (by omega)]
      exact List.mem_singleton_self _
    have hbound := (hreserves.no_overflow _ hproduct).2
    rw [hfull] at hbound
    exact absurd hbound (by decide)
  · intro hfew
    refine ⟨?_, hroom, h.valid_capacity.isDoubled, hvalid.isDoubled⟩
    intro n hn
    unfold tableReserveProducts at hn
    split_ifs at hn with hfree hzero
    · cases hn
    · cases hn
    · obtain rfl := List.mem_singleton.mp hn
      have hsmall := h.valid_capacity.lt_of_lt (by omega)
      unfold intMin intMax
      omega

/-- Whatever calls the table has seen, `table_reserve_if_needed` does its work up to 2^30 rows, and
overflows there. -/
theorem tableReserveIfNeeded_reserves_iff (files : Files) (ops : List TableOp) :
    ReservesRow (tableRun files ops).2 ↔ (tableRun files ops).2.rows.length < 2 ^ 30 :=
  (tableRun_rowsFit files ops).reservesRow_iff

/-! ### The full array -/

/-- What `n` insertions of one statement make of an empty directory. -/
structure Filled (stmt : InsertStatement) (n : Nat) (files : Files) (t : TableRuntime) : Prop where
  storable : Storable t
  table_name : t.tableName = stmt.tableName
  file : files (tablePath t.tableName) = some t.fileText
  schema : tableValidateInsertSchema t stmt = .success
  rows : t.rows.length = n
  next_id : t.nextId = n + 1

/-- One more insertion, up to 2^30 of them. -/
lemma Filled.step {stmt : InsertStatement} {n : Nat} {files : Files} {t : TableRuntime}
    (h : Filled stmt n files t) (hname : stmt.tableName.val ≠ [])
    (hvalues : ∀ v ∈ stmt.values, NoLineBreak v.val) (hsame : stmt.SameNameSameValue)
    (hn : n < 2 ^ 30) :
    Filled stmt (n + 1) (tableInsertRow files t stmt).1 (tableInsertRow files t stmt).2.1 := by
  have hcons := h.storable.consistent
  have hne : t.tableName.val ≠ [] := by rwa [h.table_name]
  have hinsert : tableInsertRow files t stmt = tableStoreRow files t stmt := by
    have hload : tableLoadFromStorageIfNeeded files t stmt.tableName.val = (t, .success) := by
      simp [tableLoadFromStorageIfNeeded, h.storable.loaded]
    have hmatch : utilsEqualsIgnoreCase t.tableName.val stmt.tableName.val = true := by
      rw [h.table_name]
      exact utilsEqualsIgnoreCase_self _
    rw [tableInsertRow_eq, TableRuntime.nameFor_of_nonempty hne, if_pos hmatch, hload]
    simp only [tableInsertLoaded, tablePrepareSchema, h.storable.loaded, if_true, h.schema]
  have hres : (tableReserveIfNeeded t).2 = .success :=
    (tableReserveIfNeeded_spec hcons.valid_capacity hcons.rows_le).2.2.2 (by rw [h.rows]; exact hn)
  have hmax : t.nextId ≤ intMax := by
    rw [h.next_id]
    unfold intMax
    omega
  have hstored := h.storable.storageInsert_eq h.file h.schema hsame
  rw [hinsert]
  rcases tableStoreRow_cases files hcons.insert_nextId stmt with
    ⟨hfull, -⟩ | ⟨-, files', ⟨hst, -⟩ | ⟨hst, heq⟩⟩
  · exact absurd ⟨hres, hmax⟩ hfull
  · rw [hstored] at hst
    cases hst
  · rw [hstored] at hst
    cases hst
    obtain ⟨-, hlen, -⟩ := tableValidateInsertSchema_success h.schema
    obtain ⟨hst', htext⟩ := h.storable.addRow hlen hvalues hres hmax
    rw [heq, ← htext]
    refine ⟨hst', h.table_name, Function.update_self _ _ _, h.schema, ?_, ?_⟩
    · simp [TableRuntime.addRow, h.rows]
    · have hadd : (t.addRow (tableReserveIfNeeded t).1.capacity (tableBuildRow stmt t.nextId)
          t.nextId).nextId = t.nextId + 1 := by
        simp [TableRuntime.addRow]
      rw [hadd, h.next_id]
      push_cast
      rfl

/-- `INSERT INTO t (n) VALUES ('')` -/
def insertEmpty : InsertStatement :=
  ⟨identifier "t", [identifier "n"], [.empty], by decide, rfl⟩

/-- The first insertion makes the file and the schema. -/
lemma insertEmpty_filled_one :
    Filled insertEmpty 1 (tableRun (fun _ => none) [.insert insertEmpty]).1
      (tableRun (fun _ => none) [.insert insertEmpty]).2 := by
  have hinv := @tableRun_inv (fun _ => none) [.insert insertEmpty]
    (by simp +decide [TableOp.Named])
  have hloaded : (tableRun (fun _ => none) [.insert insertEmpty]).2.loaded = true := by
    decide +kernel
  have hrows : (tableRun (fun _ => none) [.insert insertEmpty]).2.rows = [[bytes "1", []]] := by
    decide +kernel
  have hcells : ∀ cell ∈ [bytes "1", []], StorableCell cell := by
    intro cell hcell
    rcases List.mem_pair.mp hcell with rfl | rfl
    · exact ⟨by decide, by decide, by decide⟩
    · exact ⟨by decide, by decide, by decide⟩
  refine ⟨⟨(hinv.loaded hloaded).1, hloaded, ?_, ?_, ?_, ?_, ?_⟩, ?_, ?_, ?_, ?_, ?_⟩
  case refine_4 =>
    rw [hrows]
    exact List.forall_mem_singleton.mpr hcells
  all_goals decide +kernel

lemma insertEmpty_filled {n : Nat} (hpos : 1 ≤ n) (hn : n ≤ 2 ^ 30) :
    Filled insertEmpty n (tableRun (fun _ => none) (List.replicate n (.insert insertEmpty))).1
      (tableRun (fun _ => none) (List.replicate n (.insert insertEmpty))).2 := by
  induction n, hpos using Nat.le_induction with
  | base => exact insertEmpty_filled_one
  | succ n _ ih =>
    have hrun : tableRun (fun _ => none) (List.replicate (n + 1) (.insert insertEmpty)) =
        (TableOp.insert insertEmpty).apply
          (tableRun (fun _ => none) (List.replicate n (.insert insertEmpty))).1
          (tableRun (fun _ => none) (List.replicate n (.insert insertEmpty))).2 := by
      rw [List.replicate_succ', tableRun, List.foldl_append]
      rfl
    have hsame : insertEmpty.SameNameSameValue := by
      intro i j a b ha hb _
      have hi : i < 1 := (List.getElem?_eq_some_iff.mp ha).1
      have hj : j < 1 := (List.getElem?_eq_some_iff.mp hb).1
      interval_cases i
      interval_cases j
      rfl
    rw [hrun]
    exact (ih (by omega)).step (by decide) (by decide) hsame (by omega)

/-- After 2^30 insertions the capacity is doubled once too often. -/
theorem tableReserveIfNeeded_overflows :
    ¬ ∀ (files : Files) (stmts : List InsertStatement),
      ((tableRun files (stmts.map .insert)).2.rows.length : Int) < intMax →
        ReservesRow (tableRun files (stmts.map .insert)).2 := by
  intro h
  have hfilled := @insertEmpty_filled (2 ^ 30) (by norm_num) le_rfl
  have hreserves := h (fun _ => none) (List.replicate (2 ^ 30) insertEmpty)
  rw [List.map_replicate, hfilled.rows] at hreserves
  have hfew := (tableRun_rowsFit _ _).reservesRow_iff.mp (hreserves (by decide))
  rw [hfilled.rows] at hfew
  exact lt_irrefl _ hfew

end MiniDbms
