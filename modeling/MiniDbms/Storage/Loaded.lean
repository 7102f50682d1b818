import MiniDbms.Storage.TableText

/-!
# The rows that a file loads as

A row that was loaded has no line break and no NUL in it, and takes no more room when it is written
again than its line did. What the program has written is loaded as it was, but for the rows that are
written as an empty line.
-/

namespace MiniDbms

/-! ### The rows of a loaded table -/

lemma storageParseRow_clean {colCount : Nat} {raw : CString} {row : List CString}
    (h : storageParseRow colCount raw = some (some row)) :
    row.length = colCount ∧ ∀ v ∈ row, NoLineBreak v ∧ 0 ∉ v := by
  unfold storageParseRow at h
  dsimp only at h
  split_ifs at h
  · cases h
  · cases hparse : storageParseCsvLine (cView raw) with
    | none =>
      rw [hparse] at h
      cases h
    | some fields =>
      rw [hparse] at h
      dsimp only at h
      split_ifs at h with hcount
      obtain rfl := Option.some.inj (Option.some.inj h)
      refine ⟨not_ne_iff.mp hcount, fun v hv => ⟨storageParseCsvLine_noLineBreak hparse v hv, ?_⟩⟩
      exact storageParseCsvLine_noNul (nul_notMem_cView raw) hparse v hv

/-- A row that was read of a line fits into a line. -/
lemma storageParseRow_fits {colCount : Nat} {raw : CString} {row : List CString}
    (hroom : raw.length ≤ csvLineRoom) (h : storageParseRow colCount raw = some (some row)) :
    csvRowLength row ≤ csvLineRoom := by
  unfold storageParseRow at h
  dsimp only at h
  split_ifs at h with hlong
  · cases h
  · cases hparse : storageParseCsvLine (cView raw) with
    | none =>
      rw [hparse] at h
      cases h
    | some fields =>
      rw [hparse] at h
      dsimp only at h
      split_ifs at h
      obtain rfl := Option.some.inj (Option.some.inj h)
      refine storageParseCsvLine_length hroom ?_ hparse
      simp only [csvLineTooLong, feofAfter, Bool.and_eq_true, Bool.not_eq_true', not_and,
        Bool.not_eq_false, Bool.and_eq_true, decide_eq_true_eq] at hlong
      by_cases hmem : chr '\n' ∈ cView raw
      · exact .inl hmem
      · exact .inr (hlong (by simpa using hmem)).1

lemma storageLoadRows_clean {colCount offset : Nat} {lines : List CString}
    {rows : List (List CString)} {offsets : List Nat}
    (h : storageLoadRows colCount offset lines = some (rows, offsets)) :
    ∀ row ∈ rows, row.length = colCount ∧ ∀ v ∈ row, NoLineBreak v ∧ 0 ∉ v := by
  induction lines generalizing offset rows offsets with
  | nil =>
    cases h
    simp
  | cons raw lines ih =>
    rw [storageLoadRows, Option.bind_eq_bind, Option.bind_eq_some_iff] at h
    obtain ⟨parsed, hparsed, h⟩ := h
    cases parsed with
    | none => exact ih h
    | some fields =>
      obtain ⟨⟨rows', offsets'⟩, hrest, ⟨⟩⟩ := Option.bind_eq_some_iff.mp h
      exact List.forall_mem_cons.mpr ⟨storageParseRow_clean hparsed, ih hrest⟩

lemma storageLoadRows_fits {colCount offset : Nat} {lines : List CString}
    {rows : List (List CString)} {offsets : List Nat}
    (hroom : ∀ raw ∈ lines, raw.length ≤ csvLineRoom)
    (h : storageLoadRows colCount offset lines = some (rows, offsets)) :
    ∀ row ∈ rows, csvRowLength row ≤ csvLineRoom := by
  induction lines generalizing offset rows offsets with
  | nil =>
    cases h
    simp
  | cons raw lines ih =>
    rw [List.forall_mem_cons] at hroom
    rw [storageLoadRows, Option.bind_eq_bind, Option.bind_eq_some_iff] at h
    obtain ⟨parsed, hparsed, h⟩ := h
    cases parsed with
    | none => exact ih hroom.2 h
    | some fields =>
      obtain ⟨⟨rows', offsets'⟩, hrest, ⟨⟩⟩ := Option.bind_eq_some_iff.mp h
      exact List.forall_mem_cons.mpr ⟨storageParseRow_fits hroom.1 hparsed, ih hroom.2 hrest⟩

/-- The names and cells of a table that was loaded. -/
structure CleanTable (table : TableData) : Prop where
  columns_le : table.columns.length ≤ maxColumns
  names : ∀ c ∈ table.columns, NoLineBreak c.val
  rows : ∀ row ∈ table.rows, row.length = table.columns.length ∧ ∀ v ∈ row, NoLineBreak v ∧ 0 ∉ v
  fits : ∀ row ∈ table.rows, csvRowLength row ≤ csvLineRoom

lemma storageReadHeader_clean {content stream : CString} {columns : List Identifier}
    (h : storageReadHeader content = some (columns, stream)) :
    columns.length ≤ maxColumns ∧ ∀ c ∈ columns, NoLineBreak c.val := by
  rw [storageReadHeader] at h
  dsimp only at h
  split_ifs at h
  · cases h
    simp
  · obtain ⟨parsed, hparsed, h⟩ := Option.bind_eq_some_iff.mp h
    split_ifs at h with hmany
    obtain ⟨columns', hcopy, ⟨⟩⟩ := Option.bind_eq_some_iff.mp h
    have hnul := storageParseCsvLine_noNul (nul_notMem_cView _) hparsed
    have hnames := storageCopyColumns_some hnul hcopy
    refine ⟨?_, fun c hc => ?_⟩
    · rw [← List.length_map (f := CBuf.val), hnames]
      exact not_lt.mp hmany
    · refine storageParseCsvLine_noLineBreak hparsed c.val ?_
      rw [← hnames]
      exact List.mem_map_of_mem hc

lemma storageLoadTableFromFp_clean {content : CString} {table : TableData}
    (h : storageLoadTableFromFp content = some table) : CleanTable table := by
  obtain ⟨rest, hheader, hrows, -⟩ := storageLoadTableFromFp_eq_some.mp h
  obtain ⟨hle, hnames⟩ := storageReadHeader_clean hheader
  exact ⟨hle, hnames, storageLoadRows_clean hrows,
    storageLoadRows_fits (fun raw hraw => length_le_of_mem_readLines hraw) hrows⟩

namespace CleanTable

variable {table : TableData} {rows : List (List CString)}

lemma row_clean (h : CleanTable table) (hsub : rows ⊆ table.rows) :
    ∀ row ∈ rows, row.length = table.columns.length ∧ ∀ v ∈ row, NoLineBreak v :=
  fun row hr => ⟨(h.rows row (hsub hr)).1, fun v hv => ((h.rows row (hsub hr)).2 v hv).1⟩

lemma isRow (h : CleanTable table) (hsub : rows ⊆ table.rows) (hne : table.columns ≠ []) :
    ∀ row ∈ rows, IsRow row := by
  intro row hr
  refine ⟨?_, fun v hv => ((h.rows row (hsub hr)).2 v hv).2⟩
  rintro rfl
  exact hne (List.length_eq_zero_iff.mp (h.row_clean hsub [] hr).1.symm)

end CleanTable

/-! ### Rows that were written -/

/-- Rows that are written as empty lines are skipped. -/
lemma storageLoadRows_written {colCount offset : Nat} {rows rows' : List (List CString)}
    {offsets : List Nat} (hrows : ∀ row ∈ rows, IsRow row ∧ ∀ v ∈ row, NoLineBreak v)
    (h : storageLoadRows colCount offset (rows.map storageWriteCsvRow) = some (rows', offsets)) :
    rows' = rows.filter fun row => row ≠ [[]] := by
  induction rows generalizing offset rows' offsets with
  | nil =>
    cases h
    rfl
  | cons row rows ih =>
    obtain ⟨⟨hrow, hclean⟩, hrest⟩ := List.forall_mem_cons.mp hrows
    rw [List.map_cons, storageLoadRows, Option.bind_eq_bind, Option.bind_eq_some_iff] at h
    obtain ⟨parsed, hparsed, h⟩ := h
    by_cases hblank : row = [[]]
    · rw [List.filter_cons_of_neg (by simp [hblank])]
      have hskip : storageParseRow colCount (storageWriteCsvRow [[]]) = some none := by
        rfl
      rw [hblank, hskip] at hparsed
      cases hparsed
      exact ih hrest h
    · have hread := storageParseRow_some_of_ne_none hrow hblank hclean (by rw [hparsed]; simp)
      rw [hread] at hparsed
      cases hparsed
      obtain ⟨⟨rows'', offsets'⟩, hload, ⟨⟩⟩ := Option.bind_eq_some_iff.mp h
      rw [List.filter_cons_of_pos (by simp [hblank]), ih hrest hload]

/-- The lines of written rows load as the rows. -/
lemma storageLoadRows_writtenLines {colCount offset : Nat} {rows rows' : List (List CString)}
    {offsets : List Nat} (hrows : ∀ row ∈ rows, IsRow row)
    (h : storageLoadRows colCount offset (storageLines (rows.map storageWriteCsvRow).flatten) =
      some (rows', offsets)) : rows' = rows.filter fun row => row ≠ [[]] := by
  obtain ⟨hlines, hvalues⟩ := storageLines_written hrows (storageLoadRows_ne_none h)
  rw [hlines] at h
  exact storageLoadRows_written (fun row hr => ⟨hrows row hr, hvalues row hr⟩) h

lemma storageLoadRows_append {n offset : Nat} {lines more : List CString}
    {rows : List (List CString)} {offsets : List Nat}
    (h : storageLoadRows n offset (lines ++ more) = some (rows, offsets)) :
    ∃ old oldOffsets offset' rows' offsets',
      storageLoadRows n offset lines = some (old, oldOffsets) ∧
      storageLoadRows n offset' more = some (rows', offsets') ∧ rows = old ++ rows' := by
  induction lines generalizing offset rows offsets with
  | nil => exact ⟨[], [], offset, rows, offsets, rfl, h, rfl⟩
  | cons raw lines ih =>
    rw [List.cons_append, storageLoadRows, Option.bind_eq_bind, Option.bind_eq_some_iff] at h
    obtain ⟨parsed, hparsed, h⟩ := h
    cases parsed with
    | none =>
      obtain ⟨old, oldOffsets, offset', rows', offsets', hold, hmore, hall⟩ := ih h
      refine ⟨old, oldOffsets, offset', rows', offsets', ?_, hmore, hall⟩
      rw [storageLoadRows, hparsed]
      exact hold
    | some fields =>
      obtain ⟨⟨rest, restOffsets⟩, hrest, ⟨⟩⟩ := Option.bind_eq_some_iff.mp h
      obtain ⟨old, oldOffsets, offset', rows', offsets', hold, hmore, rfl⟩ := ih hrest
      refine ⟨fields :: old, offset :: oldOffsets, offset', rows', offsets', ?_, hmore, rfl⟩
      rw [storageLoadRows, hparsed, Option.bind_eq_bind, Option.bind_some]
      exact Option.bind_eq_some_iff.mpr ⟨_, hold, rfl⟩

/-- If a written table can be loaded, what is loaded is the table. -/
lemma storageLoadTableFromFp_tableText {names : List CString} (hnames : IsRow names)
    {rows : List (List CString)} (hrows : ∀ row ∈ rows, IsRow row) {table : TableData}
    (h : storageLoadTableFromFp (tableText names rows) = some table) :
    table.columns.map CBuf.val = names ∧ table.rows = rows.filter fun row => row ≠ [[]] := by
  obtain ⟨rest, hheader, hload, -⟩ := storageLoadTableFromFp_eq_some.mp h
  obtain ⟨hcolumns, rfl⟩ := storageReadHeader_written hnames hheader
  exact ⟨hcolumns, storageLoadRows_writtenLines hrows hload⟩

/-- Rows that are written behind the lines of a file are loaded behind its rows. -/
lemma storageLoadTableFromFp_append {base : CString} (hended : base.getLast? = some (chr '\n'))
    {rows : List (List CString)} (hrows : ∀ row ∈ rows, IsRow row ∧ row ≠ [[]]) {table : TableData}
    (h : storageLoadTableFromFp (base ++ (rows.map storageWriteCsvRow).flatten) = some table) :
    ∃ old oldOffsets, storageLoadTableFromFp base = some ⟨table.columns, old, oldOffsets⟩ ∧
      table.rows = old ++ rows := by
  have hne : base ≠ [] := by
    rintro rfl
    cases hended
  have hfgets := @fgets_append_ended csvLineRoom _ hended (rows.map storageWriteCsvRow).flatten
  obtain ⟨stream, hheader, hload, hroom⟩ := storageLoadTableFromFp_eq_some.mp h
  have hstream := storageReadHeader_rest (by simp [hne]) hheader
  rw [storageReadHeader_congr hne (by simp [hne]) (by rw [hfgets])] at hheader
  obtain ⟨⟨columns, rest⟩, hbase, hcolumns⟩ := Option.map_eq_some_iff.mp hheader
  obtain rfl : columns = table.columns := congrArg Prod.fst hcolumns
  have hrest := storageReadHeader_rest hne hbase
  rw [hfgets, ← hrest] at hstream
  rw [hstream, storageLines,
    readLines_append_ended csvLineRoom_pos (hrest ▸ fgets_rest_ended hended),
    List.length_append, List.length_append, Nat.add_sub_add_right] at hload
  obtain ⟨old, oldOffsets, offset', rows', offsets', hold, hmore, hall⟩ :=
    storageLoadRows_append hload
  have hrows' : rows' = rows := by
    rw [storageLoadRows_writtenLines (fun row hr => (hrows row hr).1) hmore, List.filter_eq_self]
    exact fun row hr => by simpa using (hrows row hr).2
  rw [hrows'] at hall
  refine ⟨old, oldOffsets, storageLoadTableFromFp_eq_some.mpr ⟨rest, hbase, hold, ?_⟩, hall⟩
  rw [hall, List.length_append] at hroom
  exact (Nat.le_add_right _ _).trans hroom

end MiniDbms
