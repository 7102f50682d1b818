import MiniDbms.Engine.Facade
import MiniDbms.Runtime.Cells
import MiniDbms.Sql.Names

/-!
# The outcomes of statements

Every text that is executed ends in one of two ways: with an error and a message, or with the result
of an insertion or of a query. The messages are printable ASCII, because the only text of the client
in them is the name of a table. The cells are C strings.
-/

namespace MiniDbms

/-- Space and the visible characters of ASCII. -/
def isVisible (b : Byte) : Bool := 32 ≤ b && b < 127

/-- What a statement can end with. -/
structure Concluded (outcome : DbResult × Status) : Prop where
  visible : ∀ b ∈ outcome.1.message.val, isVisible b = true
  failure : outcome.2 = .failure →
    outcome.1.success = false ∧ outcome.1.type = .error ∧ outcome.1.message.val ≠ []
  success : outcome.2 = .success →
    outcome.1.success = true ∧ (outcome.1.type = .insert ∨ outcome.1.type = .select)

lemma isVisible_of_name {b : Byte} :
    (isWordByte b = true ∨ b = chr '*') → isVisible b = true := by
  revert b
  apply forall_byte
  decide +kernel

lemma isVisible_of_digit {b : Byte} : (isdigit b = true ∨ b = chr '-') → isVisible b = true := by
  revert b
  apply forall_byte
  decide +kernel

/-! ### Setting the message -/

/-- A message of visible characters keeps its first ones. -/
lemma visible_truncate {message : CString} (h : message.all isVisible = true) :
    (∀ b ∈ (CBuf.truncate 511 message).val, isVisible b = true) ∧
      (message ≠ [] → (CBuf.truncate 511 message).val ≠ []) := by
  have hall := List.all_eq_true.mp h
  have hnul : 0 ∉ message := fun h0 => absurd (hall 0 h0) (by decide)
  rw [CBuf.truncate]
  dsimp only
  rw [cView_eq_self hnul]
  refine ⟨fun b hb => hall b (List.mem_of_mem_take hb), fun hne => ?_⟩
  rw [Ne, List.take_eq_nil_iff, not_or]
  exact ⟨by omega, hne⟩

lemma concluded_error (result : DbResult) {message : CString} (h : message.all isVisible = true)
    (hne : message ≠ []) : Concluded (dbResultSetError result message) where
  visible := (visible_truncate h).1
  failure _ := ⟨rfl, rfl, (visible_truncate h).2 hne⟩
  success h := by cases h

lemma concluded_message {result : DbResult} {message : CString} (h : message.all isVisible = true)
    (hsuccess : result.success = true) (htype : result.type = .insert ∨ result.type = .select) :
    Concluded (dbResultSetMessage result message) where
  visible := (visible_truncate h).1
  failure h := by cases h
  success _ := ⟨hsuccess, htype⟩

/-! ### Statements -/

lemma IsName.visible {name : CString} (h : IsName name) : name.all isVisible = true := by
  rw [List.all_eq_true]
  exact fun b hb => isVisible_of_name (h.2 b hb)

lemma visible_selectMessage (n : Nat) : (selectMessage n).all isVisible = true := by
  have hdigits : (printInt n).all isVisible = true := by
    rw [List.all_eq_true, printInt, if_neg (by omega)]
    exact fun b hb => isVisible_of_digit (.inl (isdigit_of_mem_natDigits b hb))
  rw [selectMessage, List.all_append, List.all_append, List.all_append, hdigits]
  split_ifs <;> rfl

lemma concluded_selectLoaded (t : TableRuntime) (stmt : SelectStatement) (result : DbResult) :
    Concluded (executorSelectLoaded t stmt result) := by
  unfold executorSelectLoaded
  cases executorPrepareProjection stmt t with
  | none => exact concluded_error result rfl (by decide)
  | some projection =>
    obtain ⟨indices, headers⟩ := projection
    dsimp only
    obtain ⟨rows, used⟩ := executorCollectRows t stmt.whereClause indices
    cases rows with
    | none => exact concluded_error result rfl (by decide)
    | some rows =>
      dsimp only
      unfold executorFinishSelect executorCopyHeadersToResult
      by_cases hmany : headers.length > maxColumns
      · rw [if_pos hmany]
        exact concluded_error result rfl (by decide)
      · rw [if_neg hmany]
        exact concluded_message (visible_selectMessage _) rfl (.inr rfl)

lemma concluded_select (files : Files) (active : Option TableRuntime) {stmt : SelectStatement}
    (h : IsName stmt.tableName.val) (result : DbResult) :
    Concluded (executorExecuteSelect files active stmt result).2 := by
  unfold executorExecuteSelect
  obtain ⟨t, st⟩ := tableGetOrLoad active stmt.tableName.val
  cases st with
  | failure => exact concluded_error result rfl (by decide)
  | success =>
    dsimp only
    obtain ⟨t, st⟩ := tableLoadFromStorageIfNeeded files t stmt.tableName.val
    cases st with
    | failure => exact concluded_error result rfl (by decide)
    | success =>
      dsimp only
      split_ifs
      · apply concluded_error result
        · rw [List.all_append, List.all_append, h.visible]
          rfl
        · simp [bytes]
      · exact concluded_selectLoaded t stmt result

lemma concluded_insert (files : Files) (active : Option TableRuntime) {stmt : InsertStatement}
    (h : IsName stmt.tableName.val) (result : DbResult) :
    Concluded (executorExecuteInsert files active stmt result).2.2 := by
  unfold executorExecuteInsert
  obtain ⟨t, st⟩ := tableGetOrLoad active stmt.tableName.val
  cases st with
  | failure => exact concluded_error result rfl (by decide)
  | success =>
    dsimp only
    obtain ⟨t, st⟩ := tableLoadFromStorageIfNeeded files t stmt.tableName.val
    cases st with
    | failure => exact concluded_error result rfl (by decide)
    | success =>
      dsimp only
      obtain ⟨files, t, slot⟩ := tableInsertRow files t stmt
      cases slot with
      | none =>
        apply concluded_error result
        · rw [List.all_append, List.all_append, h.visible]
          rfl
        · simp [bytes]
      | some slot =>
        apply concluded_message _ rfl (.inl rfl)
        rw [List.all_append, List.all_append, h.visible]
        rfl

/-- A message that is there is kept. -/
lemma Concluded.finish {outcome : DbResult × Status} (h : Concluded outcome) :
    dbFinishExecution outcome.1 outcome.2 = outcome := by
  rw [dbFinishExecution, if_neg]
  rintro ⟨hfail, hempty⟩
  have hfailure : outcome.2 = .failure := by
    cases hst : outcome.2 with
    | failure => rfl
    | success => exact absurd hst hfail
  exact (h.failure hfailure).2.2 (List.isEmpty_iff.mp hempty)

lemma concluded_statement (store : Store) {stmt : SqlStatement} (h : stmt.WellNamed) :
    Concluded (executeStatement store stmt).2 := by
  have hname := h.tableName
  have hconcluded : Concluded (executorExecuteIntoResult store.1 store.2 stmt dbResultInit).2.2 := by
    cases stmt with
    | insert stmt => exact concluded_insert store.1 store.2 hname dbResultInit
    | select stmt => exact concluded_select store.1 store.2 hname dbResultInit
    | delete stmt => exact concluded_error dbResultInit rfl (by decide)
  unfold executeStatement
  generalize executorExecuteIntoResult store.1 store.2 stmt dbResultInit = outcome at hconcluded ⊢
  obtain ⟨files, active, result, status⟩ := outcome
  have hfinish : dbFinishExecution result status = (result, status) := hconcluded.finish
  dsimp only
  rw [hfinish]
  exact hconcluded

lemma concluded_error_statementOf {sql message : CString} (h : statementOf sql = .error message)
    (result : DbResult) : Concluded (dbResultSetError result message) := by
  unfold statementOf at h
  dsimp only at h
  split_ifs at h
  · cases h
    exact concluded_error result rfl (by decide)
  · cases htokens : tokensOf (utilsTrim sql) with
    | none =>
      rw [htokens] at h
      cases h
      exact concluded_error result rfl (by decide)
    | some tokens =>
      rw [htokens] at h
      dsimp only at h
      split_ifs at h
      · cases h
        exact concluded_error result rfl (by decide)
      · cases hparse : parserParse tokens with
        | none =>
          rw [hparse] at h
          cases h
          exact concluded_error result rfl (by decide)
        | some stmt =>
          rw [hparse] at h
          cases h

/-- Every text ends with an error and its message or with the result of a statement. -/
lemma concluded_text (store : Store) (sql : CString) : Concluded (executeText store sql).2 := by
  unfold executeText
  cases hstmt : statementOf sql with
  | error message => exact concluded_error_statementOf hstmt dbResultInit
  | ok stmt =>
    obtain ⟨tokens, htokens, hparse⟩ := statementOf_ok hstmt
    exact concluded_statement store (parserParse_wellNamed (tokensOf_names htokens) hparse)

/-! ### The cells of results -/

/-- The cells of the result are C strings. -/
def DbResult.Texts (result : DbResult) : Prop := ∀ row ∈ result.rows, ∀ v ∈ row, 0 ∉ v

lemma texts_of_no_cells {result : DbResult} (h : result.rows = []) : result.Texts := by
  intro row hrow
  rw [h] at hrow
  cases hrow

/-- What is collected for a list is collected for its items. -/
lemma exists_of_mapM_some {α β : Type} {f : α → Option β} {l : List α} {ys : List β}
    (h : l.mapM f = some ys) : ∀ y ∈ ys, ∃ x ∈ l, f x = some y := by
  induction l generalizing ys with
  | nil =>
    rw [List.mapM_nil] at h
    cases h
    simp
  | cons x l ih =>
    rw [List.mapM_cons, Option.bind_eq_bind, Option.bind_eq_some_iff] at h
    obtain ⟨y, hy, h⟩ := h
    obtain ⟨zs, hzs, ⟨⟩⟩ := Option.bind_eq_some_iff.mp h
    intro z hz
    rcases List.mem_cons.mp hz with rfl | hz
    · exact ⟨x, List.mem_cons_self, hy⟩
    · obtain ⟨w, hw, hfw⟩ := ih hzs z hz
      exact ⟨w, List.mem_cons_of_mem x hw, hfw⟩

lemma executorCollectRowsByIndices_texts {t : TableRuntime} (ht : t.Texts) {indices : List Nat}
    {slots : List Int} {rows : List (List CString)}
    (h : executorCollectRowsByIndices t indices slots = some rows) :
    ∀ row ∈ rows, ∀ v ∈ row, 0 ∉ v := by
  intro row hrow v hv
  obtain ⟨slot, -, hslot⟩ := exists_of_mapM_some h row hrow
  obtain ⟨source, hsource, rfl⟩ := Option.map_eq_some_iff.mp hslot
  have hmem : source ∈ t.rows := by
    unfold tableGetRowBySlot at hsource
    split_ifs at hsource
    exact List.mem_of_getElem? hsource
  obtain ⟨i, -, rfl⟩ := List.mem_map.mp hv
  rw [List.getD_eq_getElem?_getD]
  cases hcell : source[i]? with
  | none => exact List.not_mem_nil
  | some cell => exact ht source hmem cell (List.mem_of_getElem? hcell)

lemma executorCollectRows_texts {t : TableRuntime} (ht : t.Texts) {w : Option WhereClause}
    {indices : List Nat} {rows : List (List CString)} {used : Bool}
    (h : executorCollectRows t w indices = (some rows, used)) :
    ∀ row ∈ rows, ∀ v ∈ row, 0 ∉ v := by
  have hscan : ∀ w, (tableLinearScanByField t w).bind
      (executorCollectRowsByIndices t indices) = some rows → ∀ row ∈ rows, ∀ v ∈ row, 0 ∉ v := by
    intro w hw
    obtain ⟨slots, -, hslots⟩ := Option.bind_eq_some_iff.mp hw
    exact executorCollectRowsByIndices_texts ht hslots
  unfold executorCollectRows at h
  cases w with
  | none => exact hscan none (Prod.mk.inj h).1
  | some w =>
    dsimp only at h
    cases hkey : executorCanUseIdIndex t w with
    | none =>
      rw [hkey] at h
      exact hscan (some w) (Prod.mk.inj h).1
    | some key =>
      rw [hkey] at h
      have hfound := (Prod.mk.inj h).1
      unfold executorCollectRowsById at hfound
      cases hslot : bptreeSearch t.idIndex key with
      | none =>
        rw [hslot] at hfound
        cases hfound
        simp
      | some slot =>
        rw [hslot] at hfound
        exact executorCollectRowsByIndices_texts ht hfound

lemma executorSelectLoaded_texts {t : TableRuntime} (ht : t.Texts) (stmt : SelectStatement) :
    (executorSelectLoaded t stmt dbResultInit).1.Texts := by
  unfold executorSelectLoaded
  cases executorPrepareProjection stmt t with
  | none => exact texts_of_no_cells rfl
  | some projection =>
    obtain ⟨indices, headers⟩ := projection
    dsimp only
    cases hrows : executorCollectRows t stmt.whereClause indices with
    | mk rows used =>
      cases rows with
      | none => exact texts_of_no_cells rfl
      | some rows =>
        dsimp only
        unfold executorFinishSelect executorCopyHeadersToResult
        split_ifs
        · exact texts_of_no_cells rfl
        · exact executorCollectRows_texts ht hrows

lemma statementTable_texts {files : Files} {active : Option TableRuntime}
    (h : ∀ t ∈ active, t.Texts) (name : Identifier) : (statementTable files active name).Texts :=
  tableLoad_texts (tableGetOrLoad_texts h)

lemma executorExecuteSelect_texts {files : Files} {active : Option TableRuntime}
    (h : ∀ t ∈ active, t.Texts) (stmt : SelectStatement) :
    (executorExecuteSelect files active stmt dbResultInit).2.1.Texts := by
  have hget := @tableGetOrLoad_texts stmt.tableName.val active h
  unfold executorExecuteSelect
  generalize tableGetOrLoad active stmt.tableName.val = got at hget
  obtain ⟨t₁, st⟩ := got
  cases st with
  | failure => exact texts_of_no_cells rfl
  | success =>
    dsimp only at hget ⊢
    have hload := @tableLoad_texts files t₁ stmt.tableName.val hget
    generalize tableLoadFromStorageIfNeeded files t₁ stmt.tableName.val = loaded at hload
    obtain ⟨t₂, st⟩ := loaded
    cases st with
    | failure => exact texts_of_no_cells rfl
    | success =>
      dsimp only
      split_ifs
      · exact texts_of_no_cells rfl
      · exact executorSelectLoaded_texts hload stmt

lemma executorExecuteInsert_rows (files : Files) (active : Option TableRuntime)
    (stmt : InsertStatement) :
    (executorExecuteInsert files active stmt dbResultInit).2.2.1.rows = [] := by
  unfold executorExecuteInsert
  obtain ⟨t, st⟩ := tableGetOrLoad active stmt.tableName.val
  cases st with
  | failure => rfl
  | success =>
    dsimp only
    obtain ⟨t, st⟩ := tableLoadFromStorageIfNeeded files t stmt.tableName.val
    cases st with
    | failure => rfl
    | success =>
      dsimp only
      obtain ⟨files, t, slot⟩ := tableInsertRow files t stmt
      cases slot <;> rfl

lemma dbFinishExecution_texts {result : DbResult} (h : result.Texts) (status : Status) :
    (dbFinishExecution result status).1.Texts := by
  unfold dbFinishExecution
  split_ifs
  · exact texts_of_no_cells rfl
  · exact h

/-- The results of statements on a table of C strings, and the table after them. -/
lemma executeStatement_texts {store : Store} (h : ∀ t ∈ store.2, t.Texts) (stmt : SqlStatement) :
    (∀ t ∈ (executeStatement store stmt).1.2, t.Texts) ∧
      (executeStatement store stmt).2.1.Texts := by
  obtain ⟨files, active⟩ := store
  cases stmt with
  | select stmt =>
    refine ⟨?_, dbFinishExecution_texts (executorExecuteSelect_texts h stmt) _⟩
    rw [executeStatement_select]
    rintro t ⟨⟩
    exact statementTable_texts h stmt.tableName
  | insert stmt =>
    refine ⟨?_, dbFinishExecution_texts
      (texts_of_no_cells (executorExecuteInsert_rows files active stmt)) _⟩
    rintro t ⟨⟩
    have ht := @statementTable_texts files active h stmt.tableName
    rcases executorExecuteInsert_table files active stmt dbResultInit with ⟨-, htable⟩ | ⟨-, htable⟩
    · exact htable ▸ ht
    · exact htable ▸ tableInsertRow_texts ht stmt
  | delete stmt => exact ⟨h, dbFinishExecution_texts (texts_of_no_cells rfl) _⟩

/-- Every text leaves a table of C strings and returns cells that are C strings. -/
lemma executeText_texts {store : Store} (h : ∀ t ∈ store.2, t.Texts) (sql : CString) :
    (∀ t ∈ (executeText store sql).1.2, t.Texts) ∧ (executeText store sql).2.1.Texts := by
  unfold executeText
  cases statementOf sql with
  | error message => exact ⟨h, texts_of_no_cells rfl⟩
  | ok stmt => exact executeStatement_texts h stmt

end MiniDbms
