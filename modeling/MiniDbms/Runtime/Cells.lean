import MiniDbms.Runtime.Basic
import MiniDbms.Storage.Delete

/-!
# The cells of the runtime table

Whatever the files hold, no cell of the table has a NUL byte: lines are read as C strings, and so are
the values of a statement. The cells of results therefore are C strings, too.
-/

namespace MiniDbms

/-- The cells are C strings. -/
def TableRuntime.Texts (t : TableRuntime) : Prop := ∀ row ∈ t.rows, ∀ v ∈ row, 0 ∉ v

variable {files : Files} {t : TableRuntime} {name : CString} {stmt : InsertStatement}

lemma texts_of_no_rows (h : t.rows = []) : t.Texts := by
  intro row hrow
  rw [h] at hrow
  cases hrow

lemma TableRuntime.Texts.congr {t' : TableRuntime} (h : t.Texts) (hrows : t'.rows = t.rows) :
    t'.Texts := by
  intro row hrow
  exact h row (hrows ▸ hrow)

lemma TableRuntime.Texts.append {t' : TableRuntime} {row : List CString} (h : t.Texts)
    (hrow : ∀ v ∈ row, 0 ∉ v) (hrows : t'.rows = t.rows ++ [row]) : t'.Texts := by
  intro row' hmem
  rw [hrows] at hmem
  rcases List.mem_append.mp hmem with hmem | hmem
  · exact h row' hmem
  · rw [List.mem_singleton.mp hmem]
    exact hrow

/-! ### Loading -/

lemma tableReserveIfNeeded_rows (t : TableRuntime) : (tableReserveIfNeeded t).1.rows = t.rows := by
  unfold tableReserveIfNeeded
  dsimp only
  split_ifs <;> rfl

lemma storageLoadTable_texts {data : TableData} (h : storageLoadTable files name = some data) :
    ∀ row ∈ data.rows, ∀ v ∈ row, 0 ∉ v := by
  simp only [storageLoadTable, Option.bind_eq_bind, Option.bind_eq_some_iff] at h
  obtain ⟨-, -, content, -, h⟩ := h
  obtain ⟨rest, -, hrows, -⟩ := storageLoadTableFromFp_eq_some.mp h
  exact fun row hrow v hv => ((storageLoadRows_clean hrows row hrow).2 v hv).2

lemma tableLoadRow_texts {t' : TableRuntime} {row : List CString} (h : t.Texts)
    (hrow : ∀ v ∈ row, 0 ∉ v) (hload : tableLoadRow t row = some t') : t'.Texts := by
  have hrows := tableReserveIfNeeded_rows t
  unfold tableLoadRow at hload
  generalize tableReserveIfNeeded t = reserved at hload hrows
  obtain ⟨t₁, st⟩ := reserved
  cases st with
  | failure => cases hload
  | success =>
    have hadded : t'.rows = t₁.rows ++ [row] := by
      dsimp only at hload
      generalize utilsParseInteger (t₁.idText row) = key at hload
      generalize bptreeInsert t₁.idIndex key t₁.rows.length = inserted at hload
      obtain ⟨index, st⟩ := inserted
      cases st with
      | failure => split_ifs at hload
      | success =>
        split_ifs at hload <;> cases hload <;> rfl
    exact h.append hrow (hadded.trans (by rw [hrows]))

lemma tableLoadRows_texts {t' : TableRuntime} {rows : List (List CString)} (h : t.Texts)
    (hrows : ∀ row ∈ rows, ∀ v ∈ row, 0 ∉ v) (hload : tableLoadRows t rows = some t') :
    t'.Texts := by
  induction rows generalizing t with
  | nil =>
    cases hload
    exact h
  | cons row rows ih =>
    obtain ⟨t₁, hrow, hrest⟩ := Option.bind_eq_some_iff.mp hload
    exact ih (tableLoadRow_texts h (hrows row List.mem_cons_self) hrow)
      (fun r hr => hrows r (List.mem_cons_of_mem row hr)) hrest

lemma tableCopySchemaFromStorage_rows {t' : TableRuntime} {data : TableData}
    (h : tableCopySchemaFromStorage t data = some t') : t'.rows = t.rows := by
  unfold tableCopySchemaFromStorage at h
  split_ifs at h
  generalize storageFindColumnIndex data.columns (bytes "id") = found at h
  cases found with
  | none => cases h
  | some index =>
    cases h
    rfl

/-- Naming a table that has no name yet. -/
lemma tableNamed_texts (h : t.Texts) : ((if t.tableName.val.isEmpty then tableSetActiveName t name
    else (t, .success)) : TableRuntime × Status).1.Texts := by
  split_ifs
  · exact h.congr rfl
  · exact h

lemma tableLoad_texts (h : t.Texts) :
    (tableLoadFromStorageIfNeeded files t name).1.Texts := by
  have hnamed := @tableNamed_texts t name h
  unfold tableLoadFromStorageIfNeeded
  by_cases hloaded : t.loaded = true
  · rw [if_pos hloaded]
    exact h
  rw [if_neg hloaded]
  generalize ((if t.tableName.val.isEmpty then tableSetActiveName t name
    else (t, .success)) : TableRuntime × Status) = named at hnamed
  obtain ⟨t₁, st⟩ := named
  have hreset : (tableResetAsUnloaded t₁ name).1.Texts := texts_of_no_rows rfl
  dsimp only
  cases hdata : storageLoadTable files name with
  | none => split_ifs <;> exact hnamed
  | some data =>
    split_ifs
    · exact hnamed
    · exact hnamed
    · exact hnamed
    · exact hreset
    cases hrows : (tableCopySchemaFromStorage (tableResetAsUnloaded t₁ name).1 data).bind
        fun table => tableLoadRows table data.rows with
    | none =>
      dsimp only
      rw [hrows]
      exact texts_of_no_rows rfl
    | some t₃ =>
      dsimp only
      rw [hrows]
      obtain ⟨t₂, hcopy, hload⟩ := Option.bind_eq_some_iff.mp hrows
      exact tableLoadRows_texts (hreset.congr (tableCopySchemaFromStorage_rows hcopy))
        (storageLoadTable_texts hdata) hload

lemma tableGetOrLoad_texts {active : Option TableRuntime} (h : ∀ t ∈ active, t.Texts) :
    (tableGetOrLoad active name).1.Texts := by
  unfold tableGetOrLoad
  dsimp only
  split_ifs
  · cases active with
    | none => exact texts_of_no_rows rfl
    | some t => exact h t rfl
  · exact texts_of_no_rows rfl

/-! ### Inserting -/

lemma tablePrepareSchema_rows (t : TableRuntime) (stmt : InsertStatement) :
    (tablePrepareSchema t stmt).1.rows = t.rows := by
  unfold tablePrepareSchema
  split_ifs
  · rfl
  · unfold tableInitializeSchema
    split_ifs
    · rfl
    · obtain ⟨names, st⟩ := tableCopyInsertColumns stmt.columns
      cases st <;> rfl

lemma tableAppendRow_texts (h : t.Texts) (stmt : InsertStatement) :
    (tableAppendRow t stmt).1.Texts := by
  have hrows := tableReserveIfNeeded_rows t
  unfold tableAppendRow
  generalize tableReserveIfNeeded t = reserved at hrows
  obtain ⟨t₁, st⟩ := reserved
  have h₁ : t₁.Texts := h.congr hrows
  cases st with
  | failure => exact h₁
  | success =>
    dsimp only
    split_ifs
    · exact h₁
    generalize bptreeInsert t₁.idIndex _ _ = inserted
    obtain ⟨index, st⟩ := inserted
    cases st with
    | failure => exact h₁.congr rfl
    | success =>
      refine h₁.append ?_ rfl
      intro v hv
      rcases List.mem_cons.mp hv with rfl | hv
      · exact nul_notMem_printInt _
      · exact nul_notMem_value v hv

lemma tableStoreRow_texts (h : t.Texts) (stmt : InsertStatement) :
    (tableStoreRow files t stmt).2.1.Texts := by
  have happend := tableAppendRow_texts h stmt
  unfold tableStoreRow
  generalize tableAppendRow t stmt = appended at happend
  obtain ⟨t₁, st⟩ := appended
  cases st with
  | failure => exact happend
  | success =>
    dsimp only
    obtain ⟨files', st⟩ := storageInsert files t₁.tableName.val stmt
    cases st with
    | failure => exact tableLoad_texts (texts_of_no_rows rfl)
    | success => exact happend

lemma tableInsertLoaded_texts (h : t.Texts) (stmt : InsertStatement) :
    (tableInsertLoaded files t stmt).2.1.Texts := by
  have hrows := tablePrepareSchema_rows t stmt
  unfold tableInsertLoaded
  generalize tablePrepareSchema t stmt = prepared at hrows
  obtain ⟨t₁, st⟩ := prepared
  have h₁ : t₁.Texts := h.congr hrows
  cases st with
  | failure => exact h₁
  | success => exact tableStoreRow_texts h₁ stmt

lemma tableInsertRow_texts (h : t.Texts) (stmt : InsertStatement) :
    (tableInsertRow files t stmt).2.1.Texts := by
  have hnamed := @tableNamed_texts t stmt.tableName.val h
  unfold tableInsertRow
  dsimp only
  generalize ((if t.tableName.val.isEmpty then tableSetActiveName t stmt.tableName.val
    else (t, .success)) : TableRuntime × Status) = named at hnamed
  obtain ⟨t₁, st⟩ := named
  dsimp only
  split_ifs
  · exact hnamed
  · exact hnamed
  have hload := @tableLoad_texts files t₁ stmt.tableName.val hnamed
  generalize tableLoadFromStorageIfNeeded files t₁ stmt.tableName.val = loaded at hload
  obtain ⟨t₂, st⟩ := loaded
  cases st with
  | failure => exact hload
  | success => exact tableInsertLoaded_texts hload stmt

end MiniDbms
