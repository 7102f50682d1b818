import MiniDbms.Storage.Loaded
import MiniDbms.Storage.Processes

/-!
# Rows under concurrent insertions and deletions

A row is kept until a later deletion matches it, if every lock is taken on the inode at the path. It
can be lost otherwise: an insertion that has opened the file before a deletion replaces it, and gets
the lock only afterwards, appends to a file that nobody can find anymore.
-/

namespace MiniDbms

variable {ι : Type} {call : ι → StorageCall}

/-! ### The rows that are left -/

/-- The event deletes the row. -/
def TableEvent.Removes (call : ι → StorageCall) (row : List CString) : TableEvent ι → Prop
  | inserted _ _      => False
  | deleted p columns => ∃ stmt, call p = .delete stmt ∧
      storageDeleteMatches stmt columns row = some true

/-- The row was inserted, and no deletion after that matches it. -/
def Survives (call : ι → StorageCall) (log : List (TableEvent ι)) (p : ι) (row : List CString) :
    Prop :=
  ∃ before after, log = before ++ .inserted p row :: after ∧
    ∀ e ∈ after, ¬ e.Removes call row

/-- What an event makes of the rows. -/
def TableEvent.apply (call : ι → StorageCall) (rows : List (ι × List CString)) :
    TableEvent ι → List (ι × List CString)
  | inserted p row    => rows ++ [(p, row)]
  | deleted p columns =>
    match call p with
    | .delete stmt => rows.filter fun r => storageDeleteMatches stmt columns r.2 ≠ some true
    | _            => rows

/-- The rows that are left of a history. -/
def survivors (call : ι → StorageCall) (log : List (TableEvent ι)) : List (ι × List CString) :=
  log.foldl (TableEvent.apply call) []

lemma survivors_append (log : List (TableEvent ι)) (e : TableEvent ι) :
    survivors call (log ++ [e]) = e.apply call (survivors call log) := by
  simp [survivors]

lemma survives_append {log : List (TableEvent ι)} {e : TableEvent ι} {p : ι} {row : List CString} :
    Survives call (log ++ [e]) p row ↔
      (Survives call log p row ∧ ¬ e.Removes call row) ∨ e = .inserted p row := by
  constructor
  · rintro ⟨before, after, heq, hafter⟩
    rcases List.eq_nil_or_concat after with rfl | ⟨after, e', rfl⟩
    · obtain ⟨-, he⟩ := List.append_inj' heq rfl
      exact .inr (by simpa using he)
    · rw [List.concat_eq_append, ← List.cons_append, ← List.append_assoc] at heq
      obtain ⟨rfl, he⟩ := List.append_inj' heq rfl
      obtain rfl : e = e' := by simpa using he
      refine .inl ⟨⟨before, after, rfl, fun e' he' => hafter e' (by simp [he'])⟩, ?_⟩
      exact hafter e (by simp)
  · rintro (⟨⟨before, after, rfl, hafter⟩, he⟩ | rfl)
    · refine ⟨before, after ++ [e], by simp, ?_⟩
      intro e' he'
      rcases List.mem_append.mp he' with he' | he'
      · exact hafter e' he'
      · rw [List.mem_singleton.mp he']
        exact he
    · exact ⟨log, [], rfl, by simp⟩

lemma TableEvent.mem_apply {rows : List (ι × List CString)} {e : TableEvent ι}
    {r : ι × List CString} :
    r ∈ e.apply call rows ↔ (r ∈ rows ∧ ¬ e.Removes call r.2) ∨ e = .inserted r.1 r.2 := by
  cases e with
  | inserted p row => simp [apply, Removes, Prod.ext_iff, eq_comm]
  | deleted p columns =>
    cases hcall : call p with
    | delete stmt => simp [apply, Removes, hcall]
    | insert stmt => simp [apply, Removes, hcall]
    | load => simp [apply, Removes, hcall]

lemma mem_survivors {log : List (TableEvent ι)} {p : ι} {row : List CString} :
    (p, row) ∈ survivors call log ↔ Survives call log p row := by
  induction log using List.reverseRecOn with
  | nil => simp [survivors, Survives]
  | append_singleton log e ih => rw [survivors_append, TableEvent.mem_apply, survives_append, ih]

lemma TableEvent.apply_sublist {rows : List (ι × List CString)} {processes : List ι}
    (h : (rows.map Prod.fst).Sublist processes) (e : TableEvent ι) :
    ((e.apply call rows).map Prod.fst).Sublist (processes ++ [e.process]) := by
  cases e with
  | inserted p row =>
    rw [apply, List.map_append]
    exact h.append (List.Sublist.refl _)
  | deleted p columns =>
    have hkeep := h.trans (List.sublist_append_left processes [p])
    rw [apply]
    cases call p with
    | delete stmt => exact (List.filter_sublist.map Prod.fst).trans hkeep
    | insert stmt => exact hkeep
    | load => exact hkeep

lemma survivors_sublist (log : List (TableEvent ι)) :
    ((survivors call log).map Prod.fst).Sublist (log.map TableEvent.process) := by
  induction log using List.reverseRecOn with
  | nil => exact List.Sublist.slnil
  | append_singleton log e ih =>
    rw [survivors_append, List.map_append]
    exact TableEvent.apply_sublist ih e

/-! ### Histories of calls one after the other -/

/-- Every event is one of its call. -/
lemma Sequential.event {initial : CString} {log : List (TableEvent ι)} {content : CString}
    (h : Sequential initial call log content) :
    (∀ p row, .inserted p row ∈ log → ∃ stmt, call p = .insert stmt) ∧
      ∀ p columns, .deleted p columns ∈ log → ∃ stmt, call p = .delete stmt := by
  induction h with
  | nil => exact ⟨by simp, by simp⟩
  | @insert log content text p stmt _ hcall _ _ ih =>
    constructor
    · intro q row hq
      rcases List.mem_append.mp hq with hq | hq
      · exact ih.1 q row hq
      · cases List.mem_singleton.mp hq
        exact ⟨stmt, hcall⟩
    · intro q columns hq
      rcases List.mem_append.mp hq with hq | hq
      · exact ih.2 q columns hq
      · cases List.mem_singleton.mp hq
  | @delete log content p stmt table text deletedCount _ hcall _ _ ih =>
    constructor
    · intro q row hq
      rcases List.mem_append.mp hq with hq | hq
      · exact ih.1 q row hq
      · cases List.mem_singleton.mp hq
    · intro q columns hq
      rcases List.mem_append.mp hq with hq | hq
      · exact ih.2 q columns hq
      · cases List.mem_singleton.mp hq
        exact ⟨stmt, hcall⟩

/-- The names of a table that a row of a single empty value, which is written as an empty line, does
not get into: an id is never empty, and a column without a name is named by no statement. -/
def TakesRows (call : ι → StorageCall) (names : List CString) : Prop :=
  names.length = 1 → HasId names ∨ names = [[]] ∨
    ∀ p stmt, call p = .insert stmt → ∀ v ∈ stmt.values, v.val ≠ []

/-- A file that rows can be put behind: its last line has been ended, and if it has just one column,
that is the id or no insertion has an empty value for it. -/
structure Appendable (call : ι → StorageCall) (content : CString) : Prop where
  ended : content = [] ∨ content.getLast? = some (chr '\n')
  names : ∀ columns stream, storageReadHeader content = some (columns, stream) →
    TakesRows call (columns.map CBuf.val)

/-- The rows of a file, if it loads. -/
def loadedRows (content : CString) : List (List CString) :=
  ((storageLoadTableFromFp content).map TableData.rows).getD []

/-- These are the rows of the file at the start that no deletion of a history matched; the row of a
single empty value may be missing. -/
structure OldRows (initial : CString) (call : ι → StorageCall) (log : List (TableEvent ι))
    (old : List (List CString)) : Prop where
  sublist : old.Sublist (loadedRows initial)
  spared : ∀ row ∈ old, ∀ e ∈ log, ¬ e.Removes call row
  count : ∀ row, row ≠ [[]] → (∀ e ∈ log, ¬ e.Removes call row) →
    old.count row = (loadedRows initial).count row

/-- What a history leaves of the file at its start: all of it, or, once rows were deleted or the
empty file has got its header, a header and the rows that no deletion matched. -/
def OldPart (initial : CString) (call : ι → StorageCall) (log : List (TableEvent ι))
    (base : CString) : Prop :=
  (base = initial ∧ ∀ p columns, .deleted p columns ∉ log) ∨
    ∃ names old, base = tableText names old ∧ IsRow names ∧ (∀ row ∈ old, IsRow row) ∧
      OldRows initial call log old

/-- The file has these rows behind what is left of the file at the start. -/
structure HoldsRows (call : ι → StorageCall) (content : CString) (rows : List (List CString))
    (base : CString) : Prop where
  content_eq : content = base ++ (rows.map storageWriteCsvRow).flatten
  empty : base = [] → rows = []
  ended : base = [] ∨ base.getLast? = some (chr '\n')
  rows_row : ∀ row ∈ rows, IsRow row ∧ row ≠ [[]]
  appendable : Appendable call content

lemma getLast?_storageWriteCsvRow (values : List CString) :
    (storageWriteCsvRow values).getLast? = some (chr '\n') := by
  rw [storageWriteCsvRow, List.getLast?_concat]

lemma getLast?_append_row (s : CString) (values : List CString) :
    (s ++ storageWriteCsvRow values).getLast? = some (chr '\n') := by
  rw [List.getLast?_append_of_ne_nil _ (by simp [storageWriteCsvRow]), getLast?_storageWriteCsvRow]

lemma getLast?_tableText (names : List CString) (rows : List (List CString)) :
    (tableText names rows).getLast? = some (chr '\n') := by
  induction rows using List.reverseRecOn with
  | nil => simp [tableText, getLast?_storageWriteCsvRow]
  | append_singleton rows row _ => rw [← tableText_append, getLast?_append_row]

/-- A written table is appendable if its names are. -/
lemma appendable_tableText {names : List CString} (hnames : IsRow names)
    (htakes : TakesRows call names) (rows : List (List CString)) :
    Appendable call (tableText names rows) where
  ended := .inr (getLast?_tableText names rows)
  names _ _ hheader := (storageReadHeader_written hnames hheader).1 ▸ htakes

lemma Appendable.append {content : CString} (h : Appendable call content) (hne : content ≠ [])
    (row : List CString) : Appendable call (content ++ storageWriteCsvRow row) where
  ended := .inr (getLast?_append_row content row)
  names := by
    intro columns stream hheader
    have hended := h.ended.resolve_left hne
    have hfgets := @fgets_append_ended csvLineRoom _ hended (storageWriteCsvRow row)
    rw [storageReadHeader_congr hne (by simp [hne]) (by rw [hfgets])] at hheader
    obtain ⟨⟨columns', stream'⟩, hbase, ⟨⟩⟩ := Option.map_eq_some_iff.mp hheader
    exact h.names columns' stream' hbase

/-- Without an id, the row of a single empty value has the value from the statement. -/
lemma exists_empty_value {stream text : CString} {existing : List Identifier}
    {stmt : InsertStatement} (h : storageInsertExisting stream existing stmt = some text)
    (hid : ¬ HasId (existing.map CBuf.val))
    (hblank : storageExistingValues stream existing stmt = [[]]) :
    ∃ v ∈ stmt.values, v.val = [] := by
  obtain ⟨-, -, -, hfound⟩ := storageInsertExisting_some h
  obtain ⟨c, rfl⟩ : ∃ c, existing = [c] := by
    apply List.length_eq_one_iff.mp
    simpa [storageExistingValues] using congrArg List.length hblank
  have hauto : storageAutoIndex [c] stmt ≠ some 0 := by
    intro hindex
    rw [storageAutoIndex] at hindex
    split_ifs at hindex
    exact hid (hasId_of_find hindex)
  obtain ⟨j, hj⟩ := Option.ne_none_iff_exists'.mp (hfound c 0 (by simp) hauto)
  obtain ⟨hlt, -⟩ := List.findIdx?_eq_some_iff_getElem.mp hj
  have hlt' : j < stmt.values.length := stmt.values_length ▸ hlt
  have hvalue : stmt.valueFor c = [] := by
    simpa [storageExistingValues, hauto] using hblank
  rw [InsertStatement.valueFor, hj] at hvalue
  dsimp only at hvalue
  rw [List.getD_eq_getElem _ _ (by simpa using hlt'), List.getElem_map] at hvalue
  exact ⟨_, List.getElem_mem hlt', hvalue⟩

/-- A row that is put behind a table whose names take rows is no empty line. -/
lemma Appendable.insert_row {content text : CString} (h : Appendable call content)
    (hne : content ≠ []) {p : ι} {stmt : InsertStatement} (hcall : call p = .insert stmt)
    (hnames : ∀ c ∈ stmt.columns, c.val ≠ [])
    (htext : storageInsertText content stmt = some text) :
    text = storageWriteCsvRow (storageInsertValues content stmt) ∧
      IsRow (storageInsertValues content stmt) ∧ storageInsertValues content stmt ≠ [[]] := by
  obtain ⟨existing, stream, hheader, hexisting, hinsert, hvalues⟩ := storageInsertText_some hne htext
  obtain ⟨htext', hrow, hid, hnone⟩ := storageInsertExisting_row hexisting hinsert
  rw [hvalues]
  refine ⟨htext', hrow, fun hblank => ?_⟩
  have hlength : (existing.map CBuf.val).length = 1 := by
    have hone := congrArg List.length hblank
    simpa [storageExistingValues] using hone
  by_cases hhas : HasId (existing.map CBuf.val)
  · exact hid hhas hblank
  rcases (h.names _ _ hheader hlength).resolve_left hhas with hempty | hvalue
  · obtain ⟨c, hc, hnil⟩ := hnone hempty
    exact hnames c hc hnil
  · obtain ⟨v, hv, hnil⟩ := exists_empty_value hinsert hhas hblank
    exact hvalue p stmt hcall v hv hnil

lemma HoldsRows.insert {content text base : CString} {rows : List (List CString)}
    (h : HoldsRows call content rows base) (hne : content ≠ []) {p : ι} {stmt : InsertStatement}
    (hcall : call p = .insert stmt) (hnames : ∀ c ∈ stmt.columns, c.val ≠ [])
    (htext : storageInsertText content stmt = some text) :
    HoldsRows call (content ++ text) (rows ++ [storageInsertValues content stmt]) base := by
  obtain ⟨rfl, hrow, hblank⟩ := h.appendable.insert_row hne hcall hnames htext
  refine ⟨?_, fun hbase => ?_, h.ended, ?_, h.appendable.append hne _⟩
  · rw [List.map_append, List.flatten_append, ← List.append_assoc, ← h.content_eq]
    simp
  · rw [h.content_eq, hbase, h.empty hbase] at hne
    exact absurd rfl hne
  · exact List.forall_mem_append.mpr ⟨h.rows_row, by simpa using ⟨hrow, hblank⟩⟩

lemma tableText_append_rows (names : List CString) (old rows : List (List CString)) :
    tableText names (old ++ rows) =
      tableText names old ++ (rows.map storageWriteCsvRow).flatten := by
  simp [tableText]

lemma HoldsRows.base_ne_nil {content base : CString} {rows : List (List CString)}
    (h : HoldsRows call content rows base) (hne : content ≠ []) : base ≠ [] := by
  intro hbase
  rw [h.content_eq, hbase, h.empty hbase] at hne
  exact hne rfl

lemma HoldsRows.of_nil {base : CString} {rows : List (List CString)}
    (h : HoldsRows call [] rows base) : base = [] ∧ rows = [] := by
  have hbase := (List.append_eq_nil_iff.mp h.content_eq.symm).1
  exact ⟨hbase, h.empty hbase⟩

/-- The first insertion into an empty file writes the header. -/
lemma HoldsRows.insert_nil {text : CString} {stmt : InsertStatement}
    (htext : storageInsertText [] stmt = some text) :
    ∃ names, IsRow names ∧
      HoldsRows call text [storageInsertValues [] stmt] (tableText names []) := by
  obtain ⟨rfl, hnames, hid, hrow, hblank⟩ := storageInsertText_nil htext
  refine ⟨_, hnames, tableText_append_rows _ [] _, ?_, .inr (getLast?_tableText _ _),
    by simpa using ⟨hrow, hblank⟩, appendable_tableText hnames (fun _ => .inl hid) _⟩
  simp [tableText, storageWriteCsvRow]

lemma not_removes_append {log : List (TableEvent ι)} {e' : TableEvent ι} {row : List CString} :
    (∀ e ∈ log ++ [e'], ¬ e.Removes call row) ↔
      (∀ e ∈ log, ¬ e.Removes call row) ∧ ¬ e'.Removes call row := by
  rw [List.forall_mem_append, List.forall_mem_singleton]

/-- A deletion takes the rows that it matches. -/
lemma OldRows.delete {initial : CString} {log : List (TableEvent ι)} {old : List (List CString)}
    (h : OldRows initial call log old) {p : ι} {stmt : DeleteStatement} (columns : List Identifier)
    (hcall : call p = .delete stmt) : OldRows initial call (log ++ [.deleted p columns])
      (old.filter fun row => storageDeleteMatches stmt columns row ≠ some true) := by
  have hremoves : ∀ row, TableEvent.Removes call row (.deleted p columns) ↔
      storageDeleteMatches stmt columns row = some true := by
    intro row
    simp [TableEvent.Removes, hcall]
  refine ⟨List.filter_sublist.trans h.sublist, fun row hrow => ?_, fun row hblank hspared => ?_⟩
  · obtain ⟨hmem, hkeep⟩ := List.mem_filter.mp hrow
    rw [not_removes_append, hremoves]
    exact ⟨h.spared row hmem, by simpa using hkeep⟩
  · rw [not_removes_append, hremoves] at hspared
    rw [List.count_filter (by simpa using hspared.2)]
    exact h.count row hblank hspared.1

lemma OldRows.insert {initial : CString} {log : List (TableEvent ι)} {old : List (List CString)}
    (h : OldRows initial call log old) (p : ι) (row : List CString) :
    OldRows initial call (log ++ [.inserted p row]) old where
  sublist := h.sublist
  spared r hr := not_removes_append.mpr ⟨h.spared r hr, id⟩
  count r hblank hspared := h.count r hblank (not_removes_append.mp hspared).1

lemma OldPart.insert {initial base : CString} {log : List (TableEvent ι)}
    (h : OldPart initial call log base) (p : ι) (row : List CString) :
    OldPart initial call (log ++ [.inserted p row]) base := by
  rcases h with ⟨rfl, hnone⟩ | ⟨names, old, rfl, hnames, hold, hrows⟩
  · exact .inl ⟨rfl, fun q columns => by simpa using hnone q columns⟩
  · exact .inr ⟨names, old, rfl, hnames, hold, hrows.insert p row⟩

/-- What is left of the file at the start loads as rows of it that no deletion matched. -/
lemma OldPart.load {initial base : CString} {log : List (TableEvent ι)}
    (h : OldPart initial call log base) {table : TableData}
    (hload : storageLoadTableFromFp base = some table) : OldRows initial call log table.rows := by
  rcases h with ⟨rfl, hnone⟩ | ⟨names, old, rfl, hnames, hold, hrows⟩
  · have hloaded : loadedRows base = table.rows := by
      rw [loadedRows, hload]
      rfl
    refine ⟨hloaded ▸ List.Sublist.refl _, fun row _ e he => ?_, fun row _ _ => by rw [hloaded]⟩
    cases e with
    | inserted p row => exact id
    | deleted p columns => exact absurd he (hnone p columns)
  · obtain ⟨-, hfilter⟩ := storageLoadTableFromFp_tableText hnames hold hload
    rw [hfilter]
    refine ⟨List.filter_sublist.trans hrows.sublist,
      fun row hrow => hrows.spared row (List.mem_of_mem_filter hrow), fun row hblank hspared => ?_⟩
    rw [List.count_filter (by simpa using hblank)]
    exact hrows.count row hblank hspared

/-- What is left after a deletion. -/
lemma HoldsRows.delete {content text base initial : CString} {rows : List (List CString)}
    {log : List (TableEvent ι)} (h : HoldsRows call content rows base)
    (hremains : OldPart initial call log base) {p : ι} {stmt : DeleteStatement} {table : TableData}
    {deletedCount : Int} (hcall : call p = .delete stmt)
    (hload : storageLoadTableFromFp content = some table)
    (htext : storageDeleteText stmt table = (text, deletedCount, .success)) :
    ∃ base', HoldsRows call text
        (rows.filter fun row => storageDeleteMatches stmt table.columns row ≠ some true) base' ∧
      OldPart initial call (log ++ [.deleted p table.columns]) base' := by
  have hwritten := storageDeleteText_success (by rw [htext] : (storageDeleteText stmt table).2.2 = _)
  rw [htext] at hwritten
  dsimp only at hwritten
  by_cases hne : content = []
  · -- the header of no columns is an empty line, which reads as one column without a name
    subst hne
    obtain ⟨rfl, rfl⟩ := h.of_nil
    obtain rfl : table = ⟨[], [], []⟩ := (Option.some.inj hload).symm
    have hnames : IsRow [[]] := ⟨by simp, by simp⟩
    have htext' : text = tableText [[]] [] := hwritten
    rw [htext']
    refine ⟨tableText [[]] [], ⟨tableText_append_rows _ [] [], fun _ => rfl,
      .inr (getLast?_tableText _ _), by simp,
      appendable_tableText hnames (fun _ => .inr (.inl rfl)) _⟩,
      .inr ⟨[[]], [], rfl, hnames, by simp, (hremains.load hload).delete [] hcall⟩⟩
  · obtain ⟨stream, hheader, -, -⟩ := storageLoadTableFromFp_eq_some.mp hload
    have hcolumns : table.columns ≠ [] := (storageReadHeader_nil_iff hheader).not.mpr hne
    have hnames : IsRow (table.columns.map CBuf.val) := by
      refine ⟨by simpa using hcolumns, fun v hv => ?_⟩
      obtain ⟨c, -, rfl⟩ := List.mem_map.mp hv
      exact c.property.2
    have hload' := hload
    rw [h.content_eq] at hload'
    obtain ⟨old, oldOffsets, hbase, hrows⟩ := storageLoadTableFromFp_append
      (h.ended.resolve_left (h.base_ne_nil hne)) h.rows_row hload'
    have hold := hremains.load hbase
    have hclean := storageLoadTableFromFp_clean hbase
    rw [hrows, List.filter_append, tableText_append_rows] at hwritten
    refine ⟨_, ⟨hwritten, ?_, .inr (getLast?_tableText _ _), ?_, ?_⟩,
      .inr ⟨_, _, rfl, hnames, ?_, hold.delete table.columns hcall⟩⟩
    · simp [tableText, storageWriteCsvRow]
    · exact fun row hrow => h.rows_row row (List.mem_of_mem_filter hrow)
    · rw [hwritten, ← tableText_append_rows]
      exact appendable_tableText hnames (h.appendable.names _ _ hheader) _
    · exact hclean.isRow List.filter_sublist.subset hcolumns

lemma Sequential.holdsRows {initial : CString} {log : List (TableEvent ι)} {content : CString}
    (hnames : ∀ p stmt, call p = .insert stmt → ∀ c ∈ stmt.columns, c.val ≠ [])
    (hinitial : Appendable call initial) (h : Sequential initial call log content) :
    ∃ base, HoldsRows call content ((survivors call log).map Prod.snd) base ∧
      OldPart initial call log base := by
  induction h with
  | nil =>
    exact ⟨initial, ⟨by simp [survivors], fun _ => rfl, hinitial.ended, by simp [survivors],
      hinitial⟩, .inl ⟨rfl, by simp⟩⟩
  | @insert log content text p stmt _ hcall htext _ ih =>
    obtain ⟨base, hholds, hremains⟩ := ih
    rw [survivors_append, TableEvent.apply, List.map_append]
    by_cases hne : content = []
    · subst hne
      obtain ⟨names, hnames', hnew⟩ := HoldsRows.insert_nil htext
      obtain ⟨rfl, hrows⟩ := hholds.of_nil
      have hold := @OldPart.load _ _ _ _ _ hremains ⟨[], [], []⟩ rfl
      rw [hrows]
      exact ⟨_, hnew, .inr ⟨names, [], rfl, hnames', by simp, hold.insert p _⟩⟩
    · exact ⟨base, hholds.insert hne hcall (hnames p stmt hcall) htext, hremains.insert p _⟩
  | @delete log content p stmt table text deletedCount _ hcall hload htext ih =>
    obtain ⟨base, hholds, hremains⟩ := ih
    obtain ⟨base', hholds', hremains'⟩ := hholds.delete hremains hcall hload htext
    rw [List.filter_map] at hholds'
    rw [survivors_append, TableEvent.apply, hcall]
    exact ⟨base', hholds', hremains'⟩

/-! ### Runs -/

/-- Every insertion that has returned `SUCCESS` has stored a row; the file at the path consists of
what is left of the file at the start, without rows that a deletion matched, and of the rows that
survive, each of them once, in lines of their own. -/
structure RowsKept (initial : CString) (call : ι → StorageCall) (s : StorageRun ι) : Prop where
  stored : ∀ p stmt, call p = .insert stmt → s.phase p = .returned .success →
    ∃ row, .inserted p row ∈ s.log
  kept : ∃ (base : CString) (rows : List (ι × List CString)),
    s.files.file = base ++ ((rows.map Prod.snd).map storageWriteCsvRow).flatten ∧
    (base = [] → rows = []) ∧ (base = [] ∨ base.getLast? = some (chr '\n')) ∧
    OldPart initial call s.log base ∧
    (rows.map Prod.fst).Nodup ∧ ∀ p row, (p, row) ∈ rows ↔ Survives call s.log p row

/-- If every lock is taken on the inode that is at the path, no row is lost and no deleted one comes
back. The parser gives every column a name. -/
theorem storage_keeps_rows [DecidableEq ι] {initial : Option CString} {s : StorageRun ι}
    (hnames : ∀ p stmt, call p = .insert stmt → ∀ c ∈ stmt.columns, c.val ≠ [])
    (hinitial : Appendable call (initial.getD [])) (h : s.ReachableCurrent initial call) :
    RowsKept (initial.getD []) call s := by
  have hinv := h.inv
  constructor
  · intro p stmt hcall hreturned
    have heff : StorageRun.Effective (call p) (s.phase p) :=
      ⟨by rw [hreturned]; rfl, StorageRun.not_shared_insert hcall⟩
    obtain ⟨e, he, hprocess⟩ := List.mem_map.mp ((hinv.logged p).mpr heff)
    cases e with
    | inserted q row =>
      obtain rfl : q = p := hprocess
      exact ⟨row, he⟩
    | deleted q columns =>
      obtain rfl : q = p := hprocess
      obtain ⟨stmt', hdelete⟩ := hinv.sequential.event.2 q columns he
      rw [hcall] at hdelete
      cases hdelete
  · obtain ⟨base, hholds, hremains⟩ := hinv.sequential.holdsRows hnames hinitial
    refine ⟨base, survivors call s.log, hholds.content_eq, ?_, hholds.ended, hremains,
      hinv.nodup.sublist (survivors_sublist s.log), fun p row => mem_survivors⟩
    exact fun hbase => List.map_eq_nil_iff.mp (hholds.empty hbase)

/-! ### Three calls -/

/-- `DELETE FROM t WHERE x = '<v>'` -/
def deleteX (v : String) : DeleteStatement :=
  ⟨identifier "t", some ⟨identifier "x", .truncate 3 (bytes "="), .truncate 255 (bytes v)⟩⟩

/-- Two insertions, and a deletion that matches none of their rows. -/
def overlappingCalls : Fin 3 → StorageCall
  | 0 => .insert (insertX "a")
  | 1 => .insert (insertX "b")
  | 2 => .delete (deleteX "c")

open StorageRun in
/-- An insertion and the deletion, one after the other, on a file that has a row. -/
theorem storage_keeps_rows_alone :
    ∃ s, s.ReachableCurrent (some (bytes "id,x\n5,z\n")) overlappingCalls ∧
      s.files.file = bytes "id,x\n5,z\n6,a\n" ∧
      RowsKept (bytes "id,x\n5,z\n") overlappingCalls s := by
  have hrun : ReachableCurrent (some (bytes "id,x\n5,z\n")) overlappingCalls
      (startWith (some (bytes "id,x\n5,z\n"))) := .refl
  have hrun := hrun.tail ⟨.openAppend (p := 0) rfl rfl rfl, locksCurrent_of_opens (by decide)⟩
  have hrun := hrun.tail
    ⟨.lock (p := 0) rfl (canLock_of_free (by decide)), locksCurrent_of_opens (by decide)⟩
  have hrun := hrun.tail ⟨.compute (p := 0) rfl rfl rfl, locksCurrent_of_opens (by decide)⟩
  have hrun := hrun.tail ⟨.buffer (p := 0) rfl, locksCurrent_of_opens (by decide)⟩
  have hrun := hrun.tail ⟨.flush (p := 0) rfl (by decide), locksCurrent_of_opens (by decide)⟩
  have hrun := hrun.tail ⟨.unlock (p := 0) rfl, locksCurrent_of_opens (by decide)⟩
  have hrun := hrun.tail ⟨.close (p := 0) rfl, locksCurrent_of_opens (by decide)⟩
  have hrun := hrun.tail
    ⟨.openRead (p := 2) rfl (by rintro stmt ⟨⟩) rfl, locksCurrent_of_opens (by decide)⟩
  have hrun := hrun.tail
    ⟨.lock (p := 2) rfl (canLock_of_free (by decide)), locksCurrent_of_opens (by decide)⟩
  have hrun := hrun.tail ⟨.load (p := 2) rfl rfl rfl, locksCurrent_of_opens (by decide)⟩
  have hrun := hrun.tail ⟨.openTemp (p := 2) rfl rfl, locksCurrent_of_opens (by decide)⟩
  have hrun := hrun.tail ⟨.copy (p := 2) rfl rfl rfl, locksCurrent_of_opens (by decide)⟩
  have hrun := hrun.tail ⟨.rename (p := 2) rfl rfl, locksCurrent_of_opens (by decide)⟩
  have hinitial : Appendable overlappingCalls ((some (bytes "id,x\n5,z\n")).getD []) := by
    refine ⟨.inr (by decide), fun columns stream hheader hlength => ?_⟩
    have hread := congrArg (Option.map fun p => p.1.length) hheader
    have hcolumns : 2 = columns.length := Option.some.inj (Eq.trans (by decide +kernel) hread)
    rw [List.length_map] at hlength
    omega
  refine ⟨_, hrun, by decide +kernel, storage_keeps_rows ?_ hinitial hrun⟩
  intro p stmt hcall c hc
  have hstmt : ∃ v, stmt = insertX v := by
    fin_cases p
    · exact ⟨"a", (StorageCall.insert.inj hcall).symm⟩
    · exact ⟨"b", (StorageCall.insert.inj hcall).symm⟩
    · cases hcall
  obtain ⟨v, rfl⟩ := hstmt
  obtain rfl := List.mem_singleton.mp hc
  decide

lemma infix_of_mem_rows {row : List CString} {rows : List (List CString)} (h : row ∈ rows)
    (base : CString) :
    storageWriteCsvRow row <:+: base ++ (rows.map storageWriteCsvRow).flatten := by
  obtain ⟨before, after, rfl⟩ := List.append_of_mem h
  refine ⟨base ++ (before.map storageWriteCsvRow).flatten,
    (after.map storageWriteCsvRow).flatten, ?_⟩
  simp

open StorageRun in
/-- The second insertion opens the file before the deletion replaces it, and locks it afterwards. -/
theorem storage_keeps_rows_fails :
    ¬ ∀ s : StorageRun (Fin 3), s.Reachable overlappingCalls → RowsKept [] overlappingCalls s := by
  intro h
  have hrun : Reachable overlappingCalls start := .refl
  have hrun := hrun.tail (.openAppend (p := 0) rfl rfl rfl)
  have hrun := hrun.tail (.lock (p := 0) rfl (canLock_of_free (by decide)))
  have hrun := hrun.tail (.compute (p := 0) rfl rfl rfl)
  have hrun := hrun.tail (.buffer (p := 0) rfl)
  have hrun := hrun.tail (.flush (p := 0) rfl (by decide))
  have hrun := hrun.tail (.unlock (p := 0) rfl)
  have hrun := hrun.tail (.close (p := 0) rfl)
  have hrun := hrun.tail (.openAppend (p := 1) rfl rfl rfl)
  have hrun := hrun.tail (.openRead (p := 2) rfl (by rintro stmt ⟨⟩) rfl)
  have hrun := hrun.tail (.lock (p := 2) rfl (canLock_of_free (by decide)))
  have hrun := hrun.tail (.load (p := 2) rfl rfl rfl)
  have hrun := hrun.tail (.openTemp (p := 2) rfl rfl)
  have hrun := hrun.tail (.copy (p := 2) rfl rfl rfl)
  have hrun := hrun.tail (.rename (p := 2) rfl rfl)
  have hrun := hrun.tail (.unlock (p := 2) rfl)
  have hrun := hrun.tail (.close (p := 2) rfl)
  have hrun := hrun.tail (.lock (p := 1) rfl (canLock_of_free (by decide)))
  have hrun := hrun.tail (.compute (p := 1) rfl rfl rfl)
  have hrun := hrun.tail (.buffer (p := 1) rfl)
  have hrun := hrun.tail (.flush (p := 1) rfl (by decide))
  have hrun := hrun.tail (.unlock (p := 1) rfl)
  have hrun := hrun.tail (.close (p := 1) rfl)
  obtain ⟨-, base, rows, hfile, -, -, -, -, hrows⟩ := h _ hrun
  have hrow : (1, [bytes "2", bytes "b"]) ∈ rows := by
    rw [hrows]
    exact ⟨[_, _], [], rfl, by simp⟩
  have hinfix := infix_of_mem_rows (List.mem_map_of_mem (f := Prod.snd) hrow) base
  rw [← hfile] at hinfix
  revert hinfix
  decide

end MiniDbms
