import MiniDbms.Runtime.Invariant

/-!
# What `table_load_from_storage_if_needed` does
-/

namespace MiniDbms

/-! ### Names -/

lemma toupper_eq_zero_iff {b : Byte} : toupper b = 0 ↔ b = 0 := by
  revert b
  apply forall_byte
  decide +kernel

/-- A name that a buffer holds up to case fits the buffer. -/
lemma utilsSafeStrcpy_of_equalsIgnoreCase {n : Nat} {b : CBuf n} {name : CString}
    (h : utilsEqualsIgnoreCase b.val name = true) :
    ∃ hname : name.length ≤ n ∧ 0 ∉ name, utilsSafeStrcpy n name = (⟨name, hname⟩, .success) := by
  rw [utilsEqualsIgnoreCase_iff] at h
  have hlen : name.length ≤ n := by
    have := congrArg List.length h
    simp only [List.length_map] at this
    rw [← this]
    exact b.2.1
  have hnul : 0 ∉ name := by
    intro hmem
    have hzero : (0 : Byte) ∈ b.val.map toupper := by
      rw [h]
      exact List.mem_map.mpr ⟨0, hmem, by decide⟩
    obtain ⟨c, hc, hc0⟩ := List.mem_map.mp hzero
    exact b.2.2 (toupper_eq_zero_iff.mp hc0 ▸ hc)
  exact ⟨⟨hlen, hnul⟩, utilsSafeStrcpy_val ⟨name, hlen, hnul⟩⟩

/-- An empty table with a name. -/
def TableRuntime.named (name : Identifier) : TableRuntime := { tableInit with tableName := name }

lemma TableRuntime.named_unloaded (name : Identifier) : (TableRuntime.named name).Unloaded :=
  ⟨rfl, rfl, rfl, rfl, rfl, rfl⟩

lemma TableRuntime.Unloaded.withName {t : TableRuntime} (h : t.Unloaded) (name : Identifier) :
    ({ t with tableName := name } : TableRuntime).Unloaded :=
  ⟨h.rows, h.capacity, h.idColumnIndex, h.nextId, h.idIndex, h.loaded⟩

/-- `table_free` followed by `table_set_active_name` for a name that fits. -/
lemma tableResetAsUnloaded_eq (t : TableRuntime) (name : Identifier) :
    tableResetAsUnloaded t name.val = (.named name, .success) := by
  simp [tableResetAsUnloaded, tableSetActiveName, tableFree, utilsSafeStrcpy_val,
    TableRuntime.named]

/-! ### The table a file loads to -/

/-- What a table file loads to, `none` when it is missing or rejected. -/
def tableFromStorage (files : Files) (name : Identifier) : Option TableRuntime := do
  let loaded ← storageLoadTable files name.val
  let table ← tableCopySchemaFromStorage (.named name) loaded
  tableLoadRows table loaded.rows

/-- The header of the table's file names the table's columns. -/
def HeaderMatches (files : Files) (t : TableRuntime) : Prop :=
  ∃ path content rest, storageBuildPath t.tableName.val = some path ∧
    files path = some content ∧ storageReadHeader content = some (t.columns, rest)

lemma storageLoadTable_some {files : Files} {name : CString} {data : TableData}
    (h : storageLoadTable files name = some data) :
    ∃ path content rest, storageBuildPath name = some path ∧ files path = some content ∧
      storageReadHeader content = some (data.columns, rest) ∧
      (∃ offset, storageLoadRows data.columns.length offset (storageLines rest) =
        some (data.rows, data.offsets)) := by
  obtain ⟨path, hpath, h⟩ := Option.bind_eq_some_iff.mp h
  obtain ⟨content, hcontent, h⟩ := Option.bind_eq_some_iff.mp h
  obtain ⟨rest, hheader, hrows, -⟩ := storageLoadTableFromFp_eq_some.mp h
  exact ⟨path, content, rest, hpath, hcontent, hheader, _, hrows⟩

/-- A table without rows is consistent as soon as it has an id column. -/
lemma consistent_of_schema {t : TableRuntime} (hrows : t.rows = []) (hcap : t.capacity = 0)
    (hnext : t.nextId = 1) (hindex : t.idIndex = .null) (hcols : t.columns.length ≤ maxColumns)
    (hid : storageFindColumnIndex t.columns (bytes "id") = some t.idColumnIndex) :
    t.Consistent := by
  have hids : t.ids = [] := by simp [TableRuntime.ids, hrows]
  constructor
  · exact hcols
  · exact hid
  · simp [hrows]
  · simp [hrows]
  · simp [hids]
  · simp [hids]
  · rw [hids, hnext]
    rfl
  · rw [hids, hindex]
    rfl
  · exact .inl hcap
  · simp [hrows, hcap]

lemma tableCopySchemaFromStorage_some {name : Identifier} {data : TableData} {t : TableRuntime}
    (h : tableCopySchemaFromStorage (.named name) data = some t) :
    t.Consistent ∧ t.tableName = name ∧ t.columns = data.columns ∧ t.rows = [] ∧
      t.loaded = true := by
  unfold tableCopySchemaFromStorage at h
  split_ifs at h with hcount
  split at h
  · cases h
  · rename_i index hindex
    cases h
    exact ⟨consistent_of_schema rfl rfl rfl rfl (by dsimp only; omega) hindex, rfl, rfl, rfl, rfl⟩

/-- A table that was loaded is consistent and holds what the file holds. -/
lemma tableFromStorage_some {files : Files} {name : Identifier} {t : TableRuntime}
    (h : tableFromStorage files name = some t) :
    t.Consistent ∧ t.tableName = name ∧ t.loaded = true ∧ HeaderMatches files t ∧
      ∃ data, storageLoadTable files name.val = some data ∧ t.columns = data.columns ∧
        t.rows = data.rows := by
  obtain ⟨data, hdata, h⟩ := Option.bind_eq_some_iff.mp h
  obtain ⟨t₀, hschema, h⟩ := Option.bind_eq_some_iff.mp h
  obtain ⟨h₀, hname, hcols, hrows, hloaded⟩ := tableCopySchemaFromStorage_some hschema
  obtain ⟨path, content, rest, hpath, hcontent, hheader, offset, hload⟩ :=
    storageLoadTable_some hdata
  have hlen : ∀ row ∈ data.rows, row.length = t₀.columns.length := by
    rw [hcols]
    exact storageLoadRows_length hload
  obtain ⟨hcons, hsame, hrows'⟩ := tableLoadRows_some h₀ hlen h
  have hcols' : t.columns = data.columns := hsame.2.1.trans hcols
  refine ⟨hcons, hsame.1.trans hname, hsame.2.2.2.trans hloaded,
    ⟨path, content, rest, ?_, hcontent, ?_⟩, data, hdata, hcols', ?_⟩
  · rw [hsame.1, hname]
    exact hpath
  · rw [hcols']
    exact hheader
  · rw [hrows', hrows, List.nil_append]

/-! ### The load step -/

/-- The table a load request works on: an unnamed table takes the requested name. -/
def TableRuntime.nameFor (t : TableRuntime) (name : CString) : TableRuntime :=
  if t.tableName.val.isEmpty then { t with tableName := (utilsSafeStrcpy 63 name).1 } else t

/-- The first step of a request for a name that fits. -/
lemma TableRuntime.nameFor_first (t : TableRuntime) (name : Identifier) :
    (if t.tableName.val.isEmpty then tableSetActiveName t name.val else (t, Status.success)) =
      (t.nameFor name.val, .success) := by
  unfold TableRuntime.nameFor tableSetActiveName
  split_ifs <;> simp [utilsSafeStrcpy_val]

/-- A request for a table of another name, or of a name that does not fit, is refused. -/
def TableRuntime.Accepts (t : TableRuntime) (name : CString) : Prop :=
  utilsEqualsIgnoreCase (t.nameFor name).tableName.val name = true ∧
    (t.tableName.val.isEmpty = true → (utilsSafeStrcpy 63 name).2 = .success)

lemma tableLoad_refused {files : Files} {t : TableRuntime} {name : CString}
    (hun : t.loaded = false) (h : ¬ t.Accepts name) :
    tableLoadFromStorageIfNeeded files t name = (t.nameFor name, .failure) := by
  unfold TableRuntime.Accepts at h
  unfold tableLoadFromStorageIfNeeded TableRuntime.nameFor at *
  rw [if_neg (by simp [hun])]
  by_cases hempty : t.tableName.val.isEmpty = true
  · by_cases hnamed : (utilsSafeStrcpy 63 name).2 = .failure
    · simp [hempty, tableSetActiveName, hnamed]
    · have hok : (utilsSafeStrcpy 63 name).2 = .success := by
        cases hst : (utilsSafeStrcpy 63 name).2 <;> simp_all
      simp_all [tableSetActiveName]
  · simp_all

lemma TableRuntime.Accepts.fits {t : TableRuntime} {name : CString} (h : t.Accepts name) :
    ∃ hname : name.length ≤ 63 ∧ 0 ∉ name,
      utilsSafeStrcpy 63 name = (⟨name, hname⟩, .success) :=
  utilsSafeStrcpy_of_equalsIgnoreCase h.1

/-- An accepted request leaves the table alone when there is no file, and otherwise loads it. -/
lemma tableLoad_accepted {files : Files} {t : TableRuntime} {name : Identifier}
    (hun : t.loaded = false) (h : t.Accepts name.val) :
    tableLoadFromStorageIfNeeded files t name.val =
      if storageTableExists files name.val then
        match tableFromStorage files name with
        | some t' => (t', .success)
        | none    => (if storageLoadTable files name.val = none then t.nameFor name.val
            else .named name, .failure)
      else (t.nameFor name.val, .success) := by
  have hreset := tableResetAsUnloaded_eq (t.nameFor name.val) name
  unfold tableLoadFromStorageIfNeeded
  rw [if_neg (by simp [hun]), t.nameFor_first]
  simp only [reduceCtorEq, if_false, h.1, Bool.not_true, Bool.false_eq_true]
  by_cases hexists : storageTableExists files name.val = true
  · simp only [hexists, Bool.not_true, Bool.false_eq_true, if_false, if_true]
    cases hdata : storageLoadTable files name.val with
    | none => simp [tableFromStorage, hdata]
    | some data =>
      have hfrom : tableFromStorage files name =
          (tableCopySchemaFromStorage (.named name) data).bind
            fun table => tableLoadRows table data.rows := by
        simp [tableFromStorage, hdata]
      simp only [hreset, hfrom, reduceCtorEq, if_false, tableResetAsUnloaded_eq]
      generalize (tableCopySchemaFromStorage (.named name) data).bind _ = result
      cases result <;> rfl
  · simp [hexists]

/-- Everything a load request to a table that is not loaded can do. -/
lemma tableLoad_cases (files : Files) {t : TableRuntime} (hun : t.loaded = false) (name : CString) :
    (¬ t.Accepts name ∧
      tableLoadFromStorageIfNeeded files t name = (t.nameFor name, .failure)) ∨
    (t.Accepts name ∧ ∃ hname : name.length ≤ 63 ∧ 0 ∉ name,
      (storageTableExists files name = false ∧
        tableLoadFromStorageIfNeeded files t name = (t.nameFor name, .success)) ∨
      (tableFromStorage files ⟨name, hname⟩ = none ∧ ∃ t',
        (t' = t.nameFor name ∨ t' = .named ⟨name, hname⟩) ∧
          tableLoadFromStorageIfNeeded files t name = (t', .failure)) ∨
      ∃ t', tableFromStorage files ⟨name, hname⟩ = some t' ∧
        tableLoadFromStorageIfNeeded files t name = (t', .success)) := by
  by_cases hacc : t.Accepts name
  · obtain ⟨hname, -⟩ := hacc.fits
    have hload := @tableLoad_accepted files t ⟨name, hname⟩ hun hacc
    refine .inr ⟨hacc, hname, ?_⟩
    by_cases hexists : storageTableExists files name = true
    · rw [if_pos hexists] at hload
      cases hfrom : tableFromStorage files ⟨name, hname⟩ with
      | some t' =>
        rw [hfrom] at hload
        exact .inr (.inr ⟨t', rfl, hload⟩)
      | none =>
        rw [hfrom] at hload
        refine .inr (.inl ⟨rfl, _, ?_, hload⟩)
        split_ifs
        · exact .inl rfl
        · exact .inr rfl
    · rw [if_neg hexists] at hload
      exact .inl ⟨by simpa using hexists, hload⟩
  · exact .inl ⟨hacc, tableLoad_refused hun hacc⟩

end MiniDbms
