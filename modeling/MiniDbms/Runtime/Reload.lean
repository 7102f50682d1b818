import MiniDbms.Runtime.Agreement
import MiniDbms.Runtime.Rollback
import MiniDbms.Storage.TableText

/-!
# The text of a table file

A table whose id column is the first one is written line by line, and is read back as it was as
long as none of its cells holds a line break.
-/

namespace MiniDbms

/-- The file of a table: its header, then its rows. -/
def TableRuntime.fileText (t : TableRuntime) : CString :=
  storageWriteCsvRow (t.columns.map CBuf.val) ++ (t.rows.map storageWriteCsvRow).flatten

/-- A cell that survives being written and read back. -/
structure StorableCell (cell : CString) : Prop where
  no_line_break : NoLineBreak cell
  no_nul : 0 ∉ cell
  length_le : cell.length ≤ 255

lemma storableCell_natDigits {k : Nat} (hk : k < 10 ^ 10) : StorableCell (natDigits k) where
  no_line_break := ⟨fun hmem => (isdigit_facts (isdigit_of_mem_natDigits _ hmem)).2.2.2.2.1 rfl,
    fun hmem => (isdigit_facts (isdigit_of_mem_natDigits _ hmem)).2.2.2.2.2 rfl⟩
  no_nul := fun hmem => (isdigit_facts (isdigit_of_mem_natDigits _ hmem)).2.2.2.1 rfl
  length_le := (length_natDigits_le (by decide) hk).trans (by decide)

/-- A table that survives being written and read back. -/
structure Storable (t : TableRuntime) : Prop where
  consistent : t.Consistent
  loaded : t.loaded = true
  id_first : t.idColumnIndex = 0
  names : ∀ c ∈ t.columns, NoLineBreak c.val
  no_other_id : ∀ c ∈ t.columns.drop 1, utilsEqualsIgnoreCase c.val (bytes "id") = false
  cells : ∀ row ∈ t.rows, ∀ cell ∈ row, StorableCell cell
  ids_short : ∀ row ∈ t.rows, (t.idText row).length ≤ 10

/-! ### Reading the table back -/

namespace Storable

variable {t : TableRuntime}

/-- Every row starts with its id. -/
lemma row_cons (h : Storable t) {row : List CString} (hrow : row ∈ t.rows) :
    ∃ cells, row = t.idText row :: cells ∧ t.idText row ≠ [] ∧
      cells.length + 1 = t.columns.length := by
  have hint := h.consistent.id_integer row hrow
  have hlen := h.consistent.row_length row hrow
  obtain ⟨hlt, -⟩ := List.findIdx?_eq_some_iff_getElem.mp h.consistent.id_column
  obtain ⟨cell, cells, rfl⟩ : ∃ c cs, row = c :: cs :=
    List.exists_cons_of_length_pos (by omega)
  have hid : t.idText (cell :: cells) = cell := by
    rw [TableRuntime.idText, h.id_first]
    rfl
  rw [hid] at hint ⊢
  refine ⟨cells, rfl, ?_, by simpa using hlen⟩
  rintro rfl
  cases hint

/-- A row is written as one line that fits the line buffer. -/
lemma row_line (h : Storable t) {row : List CString} (hrow : row ∈ t.rows) :
    IsLine csvLineRoom (storageWriteCsvRow row) ∧
      storageParseRow t.columns.length (storageWriteCsvRow row) = some (some row) := by
  obtain ⟨cells, hrow', hne, hlen⟩ := h.row_cons hrow
  have hcells := h.cells row hrow
  have hshort := h.ids_short row hrow
  generalize t.idText row = cell at hrow' hne hshort
  subst hrow'
  constructor
  · apply isLine_storageWriteCsvRow fun v hv => (hcells v hv).no_line_break
    have hle : csvRowBound cells ≤ cells.length * (2 * 255 + 3) :=
      csvRowBound_le fun v hv => (hcells v (by simp [hv])).length_le
    have hmax := h.consistent.columns_le
    have hsum : csvRowBound (cell :: cells) = 2 * cell.length + 3 + csvRowBound cells := rfl
    rw [hsum]
    unfold csvLineRoom
    unfold maxColumns at hmax
    omega
  · have hrow : IsRow (cell :: cells) := ⟨List.cons_ne_nil _ _, fun v hv => (hcells v hv).no_nul⟩
    rw [← hlen]
    exact storageParseRow_row hrow (by simp [hne]) fun v hv => (hcells v hv).no_line_break

lemma columns_ne_nil (h : Storable t) : t.columns ≠ [] := by
  intro hnil
  have hcol := h.consistent.id_column
  rw [hnil] at hcol
  cases hcol

lemma readHeader (h : Storable t) :
    storageReadHeader t.fileText = some (t.columns, (t.rows.map storageWriteCsvRow).flatten) :=
  storageReadHeader_row h.columns_ne_nil h.consistent.columns_le h.names _

lemma loadRows (h : Storable t) (offset : Nat) :
    ∃ offsets, storageLoadRows t.columns.length offset
      (storageLines (t.rows.map storageWriteCsvRow).flatten) = some (t.rows, offsets) := by
  rw [storageLines_rows fun row hrow => (h.row_line hrow).1]
  exact storageLoadRows_rows (fun row hrow => (h.row_line hrow).2) offset

lemma holdsTable (h : Storable t) : HoldsTable t.fileText t.columns t.rows := by
  obtain ⟨offsets, hload⟩ := h.loadRows 0
  exact ⟨_, 0, offsets, h.readHeader, hload⟩

end Storable

/-- Rows with new ids can all be loaded, up to the largest capacity. -/
lemma tableLoadRows_complete {t : TableRuntime} (h : t.Consistent) {rows : List (List CString)}
    (hlen : ∀ row ∈ rows, row.length = t.columns.length)
    (hint : ∀ row ∈ rows, utilsIsInteger (t.idText row) = true)
    (hrange : ∀ row ∈ rows, 0 ≤ utilsParseInteger (t.idText row) ∧
      utilsParseInteger (t.idText row) ≤ intMax)
    (hnodup : (t.ids ++ rows.map fun row => utilsParseInteger (t.idText row)).Nodup)
    (hcount : t.rows.length + rows.length ≤ 2 ^ 30) :
    ∃ t', tableLoadRows t rows = some t' := by
  induction rows generalizing t with
  | nil => exact ⟨t, rfl⟩
  | cons row rows ih =>
    have hnew : utilsParseInteger (t.idText row) ∉ t.ids := by
      intro hmem
      have hdisjoint := (List.nodup_append.mp hnodup).2.2
      exact hdisjoint _ hmem _ (by simp) rfl
    have hloadable : LoadableRow t row :=
      ⟨hint row List.mem_cons_self, hrange row List.mem_cons_self, hnew⟩
    obtain ⟨t₁, hrow⟩ := Option.isSome_iff_exists.mp
      (tableLoadRow_loadable h hloadable (by simp at hcount; omega))
    obtain ⟨h₁, hschema, hrows⟩ := tableLoadRow_some h (hlen row List.mem_cons_self) hrow
    have htext : ∀ r, t₁.idText r = t.idText r := by
      intro r
      rw [TableRuntime.idText, hschema.2.2.1]
      rfl
    have hids : t₁.ids = t.ids ++ [utilsParseInteger (t.idText row)] := by
      simp only [TableRuntime.ids, hrows, htext, List.map_append, List.map_cons, List.map_nil]
    obtain ⟨t', hrest⟩ := ih h₁
      (fun r hr => by rw [hschema.2.1]; exact hlen r (by simp [hr]))
      (fun r hr => by rw [htext]; exact hint r (by simp [hr]))
      (fun r hr => by rw [htext]; exact hrange r (by simp [hr]))
      (by simpa only [hids, htext, List.append_assoc, List.singleton_append, List.map_cons]
        using hnodup)
      (by rw [hrows, List.length_append, List.length_singleton]; simp at hcount; omega)
    exact ⟨t', by rw [tableLoadRows, hrow]; exact hrest⟩

lemma TableRuntime.Consistent.rows_le_max {t : TableRuntime} (h : t.Consistent) :
    t.rows.length ≤ 2 ^ 30 := by
  have hrows := h.rows_le
  have hcap : t.capacity ≤ 2 ^ 30 := by
    have hmax : ∀ k ≤ 26, (16 * 2 ^ k : Int) ≤ 2 ^ 30 := by decide
    rcases h.valid_capacity with hc | ⟨k, hk, hc⟩
    · omega
    · rw [hc]
      exact hmax k hk
  omega

/-- What is read of a file loads if its ids are different keys, up to the largest capacity. -/
lemma tableFromStorage_of_load {files : Files} {name : Identifier} {columns : List Identifier}
    {rows : List (List CString)} {offsets : List Nat} {idIndex : Nat}
    (hdata : storageLoadTable files name.val = some ⟨columns, rows, offsets⟩)
    (hcolumns : columns.length ≤ maxColumns)
    (hid : storageFindColumnIndex columns (bytes "id") = some idIndex)
    (hlen : ∀ row ∈ rows, row.length = columns.length)
    (hint : ∀ row ∈ rows, utilsIsInteger (row.getD idIndex []) = true)
    (hrange : ∀ row ∈ rows, 0 ≤ utilsParseInteger (row.getD idIndex []) ∧
      utilsParseInteger (row.getD idIndex []) ≤ intMax)
    (hnodup : (rows.map fun row => utilsParseInteger (row.getD idIndex [])).Nodup)
    (hcount : rows.length ≤ 2 ^ 30) :
    ∃ t, tableFromStorage files name = some t ∧ t.columns = columns ∧ t.rows = rows ∧
      t.idColumnIndex = idIndex := by
  let t₀ : TableRuntime :=
    { TableRuntime.named name with columns := columns, idColumnIndex := idIndex, loaded := true }
  have hschema : tableCopySchemaFromStorage (.named name) ⟨columns, rows, offsets⟩ = some t₀ := by
    obtain ⟨hpos, -⟩ := List.findIdx?_eq_some_iff_getElem.mp hid
    rw [tableCopySchemaFromStorage, if_neg (by dsimp only; omega), hid]
  have hcons : t₀.Consistent := consistent_of_schema rfl rfl rfl rfl hcolumns hid
  obtain ⟨t, hload⟩ := @tableLoadRows_complete t₀ hcons rows hlen hint hrange hnodup
    (by simpa [t₀, TableRuntime.named, tableInit])
  obtain ⟨-, hsame, hrows⟩ := tableLoadRows_some hcons hlen hload
  refine ⟨t, ?_, hsame.2.1, hrows, hsame.2.2.1⟩
  simp [tableFromStorage, hdata, hschema, hload]

/-- The file of a storable table loads to that table. -/
lemma Storable.reload {files : Files} {t : TableRuntime} (h : Storable t) {name : Identifier}
    (hfile : files (tablePath name) = some t.fileText) :
    ∃ t₀, tableFromStorage files name = some t₀ ∧ t₀.columns = t.columns ∧ t₀.rows = t.rows := by
  have hcons := h.consistent
  obtain ⟨offsets, hload⟩ := h.loadRows
    (t.fileText.length - (t.rows.map storageWriteCsvRow).flatten.length)
  have hdata : storageLoadTable files name.val = some ⟨t.columns, t.rows, offsets⟩ := by
    simp only [storageLoadTable, storageBuildPath_val, hfile, Option.bind_eq_bind,
      Option.bind_some]
    exact storageLoadTableFromFp_eq_some.mpr ⟨_, h.readHeader, hload, hcons.rows_le_max⟩
  obtain ⟨t₀, hfrom, hcols, hrows, -⟩ := tableFromStorage_of_load hdata hcons.columns_le
    hcons.id_column hcons.row_length hcons.id_integer
    (fun row hrow => hcons.id_range _ (List.mem_map.mpr ⟨row, hrow, rfl⟩)) hcons.ids_nodup
    hcons.rows_le_max
  exact ⟨t₀, hfrom, hcols, hrows⟩

/-- Whatever has the columns and rows of a storable table is storable. -/
lemma Storable.congr {t t' : TableRuntime} (h : Storable t) (hcons : t'.Consistent)
    (hl : t'.loaded = true) (hcols : t'.columns = t.columns) (hrows : t'.rows = t.rows) :
    Storable t' ∧ t'.fileText = t.fileText := by
  have hid : t'.idColumnIndex = 0 := by
    have := hcons.id_column
    rw [hcols, h.consistent.id_column, Option.some.injEq] at this
    rw [← this, h.id_first]
  refine ⟨⟨hcons, hl, hid, ?_, ?_, ?_, ?_⟩, ?_⟩
  · rw [hcols]
    exact h.names
  · rw [hcols]
    exact h.no_other_id
  · rw [hrows]
    exact h.cells
  · intro row hrow
    rw [hrows] at hrow
    rw [TableRuntime.idText, hid, ← h.id_first]
    exact h.ids_short row hrow
  · rw [TableRuntime.fileText, hcols, hrows]
    rfl

/-! ### Storing a row -/

/-- The text of an id. -/
lemma storableCell_printInt {k : Int} (h0 : 0 ≤ k) (hmax : k ≤ intMax) :
    StorableCell (printInt k) ∧ (printInt k).length ≤ 10 := by
  have hshort : k.natAbs < 10 ^ 10 := by
    unfold intMax at hmax
    omega
  rw [printInt, if_neg (by omega)]
  exact ⟨storableCell_natDigits hshort, length_natDigits_le (by decide) hshort⟩

/-- A row that survives keeps a storable table storable, and appends a line to its text. -/
lemma Storable.addRow {t : TableRuntime} (h : Storable t) {stmt : InsertStatement}
    (hlen : stmt.columns.length + 1 = t.columns.length)
    (hvalues : ∀ v ∈ stmt.values, NoLineBreak v.val)
    (hres : (tableReserveIfNeeded t).2 = .success) (hmax : t.nextId ≤ intMax) :
    let t' := t.addRow (tableReserveIfNeeded t).1.capacity (tableBuildRow stmt t.nextId) t.nextId
    Storable t' ∧ t'.fileText = t.fileText ++ storageWriteCsvRow (tableBuildRow stmt t.nextId) := by
  intro t'
  have hnext : 0 ≤ t.nextId := by
    have := (lt_nextIdAfter t.ids).1
    rw [h.consistent.next_id]
    omega
  obtain ⟨hidCell, hidLen⟩ := storableCell_printInt hnext hmax
  have hrow : ∀ cell ∈ tableBuildRow stmt t.nextId, StorableCell cell := by
    intro cell hcell
    rcases List.mem_cons.mp hcell with rfl | hcell
    · exact hidCell
    · obtain ⟨v, hv, rfl⟩ := List.mem_map.mp hcell
      exact ⟨hvalues v hv, v.2.2, v.2.1⟩
  have hmem : ∀ {P : List CString → Prop}, (∀ r ∈ t.rows, P r) →
      P (tableBuildRow stmt t.nextId) → ∀ r ∈ t'.rows, P r := by
    intro P hold hnew r hr
    rcases List.mem_append.mp hr with hr | hr
    · exact hold r hr
    · obtain rfl : r = tableBuildRow stmt t.nextId := by simpa using hr
      exact hnew
  constructor
  · constructor
    · exact h.consistent.addBuiltRow h.id_first hlen hres hmax
    · exact h.loaded
    · exact h.id_first
    · exact h.names
    · exact h.no_other_id
    · exact hmem h.cells hrow
    · apply hmem h.ids_short
      rw [TableRuntime.idText, h.id_first]
      exact hidLen
  · simp [TableRuntime.fileText, t', TableRuntime.addRow]

/-- The row goes to the file as it goes to memory, unless a column that is named twice is given two
values. -/
lemma Storable.storageInsert_eq {files : Files} {t : TableRuntime} (h : Storable t)
    (hfile : files (tablePath t.tableName) = some t.fileText) {stmt : InsertStatement}
    (hval : tableValidateInsertSchema t stmt = .success) (hsame : stmt.SameNameSameValue) :
    storageInsert files t.tableName.val stmt =
      (Function.update files (tablePath t.tableName)
        (some (t.fileText ++ storageWriteCsvRow (tableBuildRow stmt t.nextId))), .success) := by
  obtain ⟨-, hlen, hmatch⟩ := tableValidateInsertSchema_success hval
  have hnames : ¬ stmt.NamesId := by
    rw [InsertStatement.NamesId, not_not, storageFindColumnIndex, List.findIdx?_eq_none_iff]
    intro n hn
    obtain ⟨i, hi⟩ := List.mem_iff_getElem?.mp hn
    have hlt : i + 1 < t.columns.length := by
      have := (List.getElem?_eq_some_iff.mp hi).1
      omega
    have hc := List.getElem?_eq_getElem hlt
    have hother := h.no_other_id t.columns[i + 1] (by
      rw [List.mem_iff_getElem?]
      exact ⟨i, by rw [List.getElem?_drop, Nat.add_comm]; exact hc⟩)
    by_contra hid
    rw [utilsEqualsIgnoreCase_trans (hmatch i _ n hc hi) (by simpa using hid)] at hother
    cases hother
  rw [storageInsert_accepts h.consistent hfile h.holdsTable hval hnames, storedRow_eq hval hsame]

end MiniDbms
