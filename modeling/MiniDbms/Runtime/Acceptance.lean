import MiniDbms.Runtime.Reload
import MiniDbms.Common.Comparison

/-!
# The table files that load

The contents of a file that `table_load_from_storage_if_needed` accepts, in terms of its physical
lines, and the table that it makes of them. Everything else leaves the table unloaded, whatever
number of rows had been read before the fault was found.
-/

namespace MiniDbms

/-! ### Integer literals -/

/-- In the range of the keys the saturation does not show. -/
lemma utilsParseInteger_range {text : CString} (h : utilsIsInteger text = true) :
    (0 ≤ utilsParseInteger text ∧ utilsParseInteger text ≤ intMax ↔
      0 ≤ integerValue text ∧ integerValue text ≤ intMax) ∧
    (0 ≤ integerValue text ∧ integerValue text ≤ intMax →
      utilsParseInteger text = integerValue text) := by
  rw [utilsParseInteger_saturates h, saturateLongLong, intMax]
  omega

lemma nextIdAfter_eq_max (ids : List Int) :
    nextIdAfter ids = (ids.map (· + 1)).foldl max 1 := by
  induction ids using List.reverseRecOn with
  | nil => rfl
  | append_singleton ids k ih =>
    rw [nextIdAfter_append, ih, List.map_append, List.foldl_append]
    generalize (ids.map (· + 1)).foldl max 1 = n
    simp only [List.map_cons, List.map_nil, List.foldl_cons, List.foldl_nil]
    split_ifs <;> omega

/-! ### Accepted contents -/

/-- The lines that the loops over the rows skip. -/
def isSkippedLine (line : CString) : Bool :=
  line.head? == some (chr '\n') || line.head? == some (chr '\r')

/-- The content of a file is a header line with these columns, the id column being the one at
`idIndex`, followed by these rows. -/
structure AcceptedFile (content : CString) (columns : List Identifier)
    (rows : List (List CString)) (idIndex : Nat) : Prop where
  lines_short : ∀ line ∈ storageLines content, csvLineTooLong line = false
  lines_parse : ∃ header lines, storageLines content = header :: lines ∧
    storageParseCsvLine header = some (columns.map CBuf.val) ∧
    (lines.filter fun line => !isSkippedLine line).map storageParseCsvLine = rows.map some
  columns_pos : 1 ≤ columns.length
  columns_le : columns.length ≤ maxColumns
  id_column : storageFindColumnIndex columns (bytes "id") = some idIndex
  row_length : ∀ row ∈ rows, row.length = columns.length
  id_integer : ∀ row ∈ rows, utilsIsInteger (row.getD idIndex []) = true
  id_range : ∀ row ∈ rows, 0 ≤ integerValue (row.getD idIndex []) ∧
    integerValue (row.getD idIndex []) ≤ intMax
  ids_distinct : (rows.map fun row => integerValue (row.getD idIndex [])).Nodup

/-! ### Lines -/

lemma nul_notMem_line {content line : CString} (hnul : 0 ∉ content)
    (hline : line ∈ storageLines content) : 0 ∉ line :=
  fun hmem => hnul (readLines_subset hline hmem)

lemma storageLines_eq {content : CString} (hne : content ≠ []) :
    storageLines content =
      (fgets csvLineRoom content).1 :: storageLines (fgets csvLineRoom content).2 :=
  readLines_first csvLineRoom_pos hne

lemma storageCopyColumns_iff {names : List CString} {columns : List Identifier}
    (hnul : ∀ name ∈ names, 0 ∉ name) :
    storageCopyColumns names = some columns ↔ names = columns.map CBuf.val := by
  constructor
  · intro h
    induction names generalizing columns with
    | nil =>
      cases h
      rfl
    | cons name names ih =>
      rw [storageCopyColumns] at h
      split at h
      · rename_i dest hcopy
        obtain ⟨rest, hrest, rfl⟩ := Option.map_eq_some_iff.mp h
        rw [List.map_cons, utilsSafeStrcpy_success (hnul name List.mem_cons_self) hcopy,
          ← ih (fun n hn => hnul n (List.mem_cons_of_mem _ hn)) hrest]
      · cases h
  · rintro rfl
    exact storageCopyColumns_val columns

/-- The header is the first line. -/
lemma storageReadHeader_iff {content rest : CString} {columns : List Identifier}
    (hne : content ≠ []) (hnul : 0 ∉ content) :
    storageReadHeader content = some (columns, rest) ↔
      csvLineTooLong (fgets csvLineRoom content).1 = false ∧
      storageParseCsvLine (fgets csvLineRoom content).1 = some (columns.map CBuf.val) ∧
      columns.length ≤ maxColumns ∧ rest = (fgets csvLineRoom content).2 := by
  have hheader : 0 ∉ (fgets csvLineRoom content).1 := by
    intro hmem
    apply hnul
    rw [← fgets_append csvLineRoom content]
    exact List.mem_append_left _ hmem
  rw [storageReadHeader, if_neg (by simpa using hne)]
  generalize fgets csvLineRoom content = read at hheader ⊢
  obtain ⟨header, rest'⟩ := read
  dsimp only at hheader ⊢
  rw [cView_eq_self hheader]
  constructor
  · intro h
    split_ifs at h with hlong
    obtain ⟨parsed, hparse, h⟩ := Option.bind_eq_some_iff.mp h
    split_ifs at h with hcount
    obtain ⟨columns', hcopy, ⟨⟩⟩ := Option.bind_eq_some_iff.mp h
    have hparsed := (storageCopyColumns_iff (storageParseCsvLine_noNul hheader hparse)).mp hcopy
    refine ⟨by simpa using hlong, by rw [hparse, hparsed], ?_, rfl⟩
    rw [hparsed, List.length_map] at hcount
    omega
  · rintro ⟨hshort, hparse, hcount, rfl⟩
    rw [if_neg (by simp [hshort]), hparse]
    refine Option.bind_eq_some_iff.mpr ⟨_, rfl, ?_⟩
    rw [List.length_map, if_neg (by omega), storageCopyColumns_val]
    rfl

lemma storageParseRow_eq {colCount : Nat} {line : CString} (hnul : 0 ∉ line) :
    storageParseRow colCount line =
      if csvLineTooLong line then none
      else if isSkippedLine line then some none
      else (storageParseCsvLine line).bind fun fields =>
        if fields.length = colCount then some (some fields) else none := by
  have hskip : (line.head? = some (chr '\n') ∨ line.head? = some (chr '\r')) ↔
      isSkippedLine line = true := by simp [isSkippedLine]
  rw [storageParseRow, cView_eq_self hnul]
  simp only [hskip]
  cases storageParseCsvLine line with
  | none => rfl
  | some fields =>
    simp only [Option.bind_some, ne_eq, ite_not]

/-- The rows are the lines that are not skipped. -/
lemma storageLoadRows_iff {colCount offset : Nat} {lines : List CString}
    {rows : List (List CString)} (hnul : ∀ line ∈ lines, 0 ∉ line) :
    (∃ offsets, storageLoadRows colCount offset lines = some (rows, offsets)) ↔
      (∀ line ∈ lines, csvLineTooLong line = false) ∧
      (lines.filter fun line => !isSkippedLine line).map storageParseCsvLine = rows.map some ∧
      ∀ row ∈ rows, row.length = colCount := by
  induction lines generalizing offset rows with
  | nil =>
    constructor
    · rintro ⟨offsets, ⟨⟩⟩
      exact ⟨by simp, rfl, by simp⟩
    · rintro ⟨-, hrows, -⟩
      obtain rfl : rows = [] := by simpa using hrows
      exact ⟨[], rfl⟩
  | cons line lines ih =>
    have hrow := @storageParseRow_eq colCount line (hnul line List.mem_cons_self)
    have ih := fun {offset rows} =>
      @ih offset rows fun l hl => hnul l (List.mem_cons_of_mem _ hl)
    constructor
    · rintro ⟨offsets, h⟩
      rw [storageLoadRows, hrow] at h
      obtain ⟨parsed, hparsed, h⟩ := Option.bind_eq_some_iff.mp h
      split_ifs at hparsed with hlong hskip
      · cases hparsed
        obtain ⟨hshort, hrows, hlen⟩ := ih.mp ⟨offsets, h⟩
        refine ⟨List.forall_mem_cons.mpr ⟨by simpa using hlong, hshort⟩, ?_, hlen⟩
        rw [List.filter_cons_of_neg (by simp [hskip])]
        exact hrows
      · obtain ⟨fields, hparse, hfields⟩ := Option.bind_eq_some_iff.mp hparsed
        split_ifs at hfields with hcount
        cases hfields
        obtain ⟨⟨rows', offsets'⟩, hrest, ⟨⟩⟩ := Option.bind_eq_some_iff.mp h
        obtain ⟨hshort, hrows, hlen⟩ := ih.mp ⟨offsets', hrest⟩
        refine ⟨List.forall_mem_cons.mpr ⟨by simpa using hlong, hshort⟩, ?_,
          List.forall_mem_cons.mpr ⟨hcount, hlen⟩⟩
        rw [List.filter_cons_of_pos (by simp [hskip]), List.map_cons, List.map_cons, hparse, hrows]
    · rintro ⟨hshort, hrows, hlen⟩
      rw [List.forall_mem_cons] at hshort
      rw [if_neg (by simp [hshort.1])] at hrow
      cases hskip : isSkippedLine line with
      | true =>
        rw [List.filter_cons_of_neg (by simp [hskip])] at hrows
        rw [if_pos hskip] at hrow
        obtain ⟨offsets, hload⟩ := ih.mpr ⟨hshort.2, hrows, hlen⟩
        exact ⟨offsets, by rw [storageLoadRows, hrow]; exact hload⟩
      | false =>
        rw [List.filter_cons_of_pos (by simp [hskip])] at hrows
        rw [if_neg (by simp [hskip])] at hrow
        obtain ⟨fields, rows', rfl, hparse, hrest⟩ := List.map_eq_cons_iff.mp hrows.symm
        rw [List.forall_mem_cons] at hlen
        rw [← hparse, Option.bind_some, if_pos hlen.1] at hrow
        obtain ⟨offsets, hload⟩ := @ih (offset + line.length) rows' |>.mpr
          ⟨hshort.2, hrest.symm, hlen.2⟩
        exact ⟨offset :: offsets, by simp [storageLoadRows, hrow, hload]⟩

/-! ### The table of a file -/

section Content

variable {files : Files} {name : Identifier} {content : CString}

/-- What `storage_load_table` returns for a file that is not empty. -/
lemma storageLoadTable_iff (hfile : files (tablePath name) = some content) (hne : content ≠ [])
    (hnul : 0 ∉ content) {columns : List Identifier} {rows : List (List CString)} :
    (∃ offsets, storageLoadTable files name.val = some ⟨columns, rows, offsets⟩) ↔
      (∀ line ∈ storageLines content, csvLineTooLong line = false) ∧
      (∃ header lines, storageLines content = header :: lines ∧
        storageParseCsvLine header = some (columns.map CBuf.val) ∧
        (lines.filter fun line => !isSkippedLine line).map storageParseCsvLine = rows.map some) ∧
      columns.length ≤ maxColumns ∧ (∀ row ∈ rows, row.length = columns.length) ∧
      rows.length ≤ 2 ^ 30 := by
  have hlines := storageLines_eq hne
  have hload : storageLoadTable files name.val = storageLoadTableFromFp content := by
    simp [storageLoadTable, storageBuildPath_val, hfile]
  have hrest : ∀ line ∈ storageLines (fgets csvLineRoom content).2, 0 ∉ line := by
    intro line hline
    exact nul_notMem_line hnul (by rw [hlines]; exact List.mem_cons_of_mem _ hline)
  rw [hload, hlines]
  constructor
  · rintro ⟨offsets, h⟩
    obtain ⟨rest, hheader, hrows, hroom⟩ := storageLoadTableFromFp_eq_some.mp h
    obtain ⟨hshort, hparse, hcount, rfl⟩ := (storageReadHeader_iff hne hnul).mp hheader
    obtain ⟨hshorts, hparses, hlen⟩ := (storageLoadRows_iff hrest).mp ⟨_, hrows⟩
    exact ⟨List.forall_mem_cons.mpr ⟨hshort, hshorts⟩, ⟨_, _, rfl, hparse, hparses⟩, hcount, hlen,
      hroom⟩
  · rintro ⟨hshort, ⟨header, lines, heq, hparse, hparses⟩, hcount, hlen, hroom⟩
    cases heq
    rw [List.forall_mem_cons] at hshort
    have hheader := (storageReadHeader_iff hne hnul).mpr ⟨hshort.1, hparse, hcount, rfl⟩
    obtain ⟨offsets, hrows⟩ := (@storageLoadRows_iff columns.length
      (content.length - (fgets csvLineRoom content).2.length) _ rows hrest).mpr
        ⟨hshort.2, hparses, hlen⟩
    exact ⟨offsets, storageLoadTableFromFp_eq_some.mpr ⟨_, hheader, hrows, hroom⟩⟩

/-- A file that loads is accepted, and its rows fit the largest array. -/
lemma acceptedFile_of_tableFromStorage (hfile : files (tablePath name) = some content)
    (hnul : 0 ∉ content) {t : TableRuntime} (h : tableFromStorage files name = some t) :
    AcceptedFile content t.columns t.rows t.idColumnIndex ∧ t.rows.length ≤ 2 ^ 30 := by
  obtain ⟨hcons, -, -, -, data, hdata, hcols, hrows⟩ := tableFromStorage_some h
  have hpos : 1 ≤ t.columns.length := by
    obtain ⟨hlt, -⟩ := List.findIdx?_eq_some_iff_getElem.mp hcons.id_column
    omega
  have hne : content ≠ [] := by
    rintro rfl
    have hempty : storageLoadTable files name.val = some ⟨[], [], []⟩ := by
      simp only [storageLoadTable, storageBuildPath_val, hfile, Option.bind_eq_bind,
        Option.bind_some]
      rfl
    rw [hempty, Option.some.injEq] at hdata
    rw [hcols, ← hdata] at hpos
    cases hpos
  have hdata' : storageLoadTable files name.val = some ⟨t.columns, t.rows, data.offsets⟩ := by
    rw [hdata, hcols, hrows]
  obtain ⟨hshort, hparse, hcount, hlen, hroom⟩ :=
    (storageLoadTable_iff hfile hne hnul).mp ⟨_, hdata'⟩
  have hrange : ∀ row ∈ t.rows, 0 ≤ utilsParseInteger (t.idText row) ∧
      utilsParseInteger (t.idText row) ≤ intMax := by
    intro row hrow
    exact hcons.id_range _ (List.mem_map.mpr ⟨row, hrow, rfl⟩)
  have hvalue : ∀ row ∈ t.rows, utilsParseInteger (t.idText row) = integerValue (t.idText row) ∧
      0 ≤ integerValue (t.idText row) ∧ integerValue (t.idText row) ≤ intMax := by
    intro row hrow
    have hsat := utilsParseInteger_range (hcons.id_integer row hrow)
    have hin := hsat.1.mp (hrange row hrow)
    exact ⟨hsat.2 hin, hin⟩
  refine ⟨⟨hshort, hparse, hpos, hcount, hcons.id_column, hlen, hcons.id_integer,
    fun row hrow => (hvalue row hrow).2, ?_⟩, hroom⟩
  have hids : t.ids = t.rows.map fun row => integerValue (t.idText row) :=
    List.map_congr_left fun row hrow => (hvalue row hrow).1
  exact hids ▸ hcons.ids_nodup

/-- An accepted file whose rows fit the largest array loads. -/
lemma AcceptedFile.tableFromStorage (hfile : files (tablePath name) = some content)
    (hnul : 0 ∉ content) {columns : List Identifier} {rows : List (List CString)} {idIndex : Nat}
    (h : AcceptedFile content columns rows idIndex) (hcount : rows.length ≤ 2 ^ 30) :
    ∃ t, tableFromStorage files name = some t ∧ t.columns = columns ∧ t.rows = rows ∧
      t.idColumnIndex = idIndex := by
  have hne : content ≠ [] := by
    rintro rfl
    obtain ⟨header, lines, heq, -⟩ := h.lines_parse
    cases heq
  obtain ⟨offsets, hdata⟩ := (storageLoadTable_iff hfile hne hnul).mpr
    ⟨h.lines_short, h.lines_parse, h.columns_le, h.row_length, hcount⟩
  have hvalue : ∀ row ∈ rows,
      utilsParseInteger (row.getD idIndex []) = integerValue (row.getD idIndex []) :=
    fun row hrow => (utilsParseInteger_range (h.id_integer row hrow)).2 (h.id_range row hrow)
  have hids : (rows.map fun row => utilsParseInteger (row.getD idIndex [])) =
      rows.map fun row => integerValue (row.getD idIndex []) := List.map_congr_left hvalue
  exact tableFromStorage_of_load hdata h.columns_le h.id_column h.row_length h.id_integer
    (fun row hrow => (utilsParseInteger_range (h.id_integer row hrow)).1.mpr (h.id_range row hrow))
    (hids ▸ h.ids_distinct) hcount

end Content

/-- A file has one reading. -/
lemma AcceptedFile.unique {content : CString} {columns columns' : List Identifier}
    {rows rows' : List (List CString)} {idIndex idIndex' : Nat}
    (h : AcceptedFile content columns rows idIndex)
    (h' : AcceptedFile content columns' rows' idIndex') : rows = rows' := by
  obtain ⟨header, lines, hlines, -, hrows⟩ := h.lines_parse
  obtain ⟨header', lines', hlines', -, hrows'⟩ := h'.lines_parse
  rw [hlines] at hlines'
  cases hlines'
  exact List.map_injective_iff.mpr (Option.some_injective _) (hrows.symm.trans hrows')

/-- The next id is behind the ids of the file. -/
lemma AcceptedFile.nextId_eq {content : CString} {columns : List Identifier}
    {rows : List (List CString)} {idIndex : Nat} (h : AcceptedFile content columns rows idIndex)
    {t : TableRuntime} (hcons : t.Consistent) (hrows : t.rows = rows)
    (hid : t.idColumnIndex = idIndex) :
    t.nextId = (rows.map fun row => integerValue (row.getD idIndex []) + 1).foldl max 1 := by
  have hids : t.ids = rows.map fun row => integerValue (row.getD idIndex []) := by
    rw [TableRuntime.ids, hrows]
    apply List.map_congr_left
    intro row hrow
    rw [TableRuntime.idText, hid]
    exact (utilsParseInteger_range (h.id_integer row hrow)).2 (h.id_range row hrow)
  rw [hcons.next_id, nextIdAfter_eq_max, hids, List.map_map]
  rfl

/-- A file is loaded exactly when it is accepted and has at most 2^30 rows; the rows are then those
of the file. Every other request leaves the table unloaded. -/
theorem tableLoadFromStorageIfNeeded_accepts {files : Files} {t : TableRuntime}
    {name path content : CString} (hun : t.Unloaded) (hpath : storageBuildPath name = some path)
    (hfile : files path = some content) (hnul : 0 ∉ content) :
    ((tableLoadFromStorageIfNeeded files t name).2 = .success ∧
        (tableLoadFromStorageIfNeeded files t name).1.loaded = true ↔
      t.Accepts name ∧ ∃ columns rows idIndex, AcceptedFile content columns rows idIndex ∧
        rows.length ≤ 2 ^ 30) ∧
    (∀ columns rows idIndex, t.Accepts name → AcceptedFile content columns rows idIndex →
      rows.length ≤ 2 ^ 30 →
        (tableLoadFromStorageIfNeeded files t name).1.columns = columns ∧
        (tableLoadFromStorageIfNeeded files t name).1.rows = rows ∧
        (tableLoadFromStorageIfNeeded files t name).1.nextId =
          (rows.map fun row => integerValue (row.getD idIndex []) + 1).foldl max 1) ∧
    (¬ ((tableLoadFromStorageIfNeeded files t name).2 = .success ∧
        (tableLoadFromStorageIfNeeded files t name).1.loaded = true) →
      (tableLoadFromStorageIfNeeded files t name).2 = .failure ∧
      (tableLoadFromStorageIfNeeded files t name).1.Unloaded) := by
  have hnamed : (t.nameFor name).Unloaded := by
    rw [TableRuntime.nameFor]
    split_ifs
    · exact hun.withName _
    · exact hun
  rcases tableLoad_cases files hun.loaded name with ⟨hnot, hload⟩ | ⟨hacc, hfits, hload⟩
  · rw [hload]
    refine ⟨⟨?_, fun h => absurd h.1 hnot⟩, fun _ _ _ h => absurd h hnot, fun _ => ⟨rfl, hnamed⟩⟩
    rintro ⟨⟨⟩, -⟩
  · obtain rfl : tablePath ⟨name, hfits⟩ = path :=
      Option.some.inj ((storageBuildPath_val ⟨name, hfits⟩).symm.trans hpath)
    have hexists : storageTableExists files name = true := by
      simp [storageTableExists, hpath, hfile]
    rcases hload with ⟨hmissing, -⟩ | ⟨hnone, t', ht', hload⟩ | ⟨t', hsome, hload⟩
    · rw [hexists] at hmissing
      cases hmissing
    · have hrefused : ∀ columns rows idIndex, AcceptedFile content columns rows idIndex →
          ¬ rows.length ≤ 2 ^ 30 := by
        intro columns rows idIndex hfileOk hcount
        obtain ⟨t'', hfrom, -⟩ := hfileOk.tableFromStorage hfile hnul hcount
        rw [hnone] at hfrom
        cases hfrom
      have hunloaded : t'.Unloaded := by
        rcases ht' with rfl | rfl
        · exact hnamed
        · exact TableRuntime.named_unloaded _
      rw [hload]
      refine ⟨⟨?_, ?_⟩, ?_, fun _ => ⟨rfl, hunloaded⟩⟩
      · rintro ⟨⟨⟩, -⟩
      · rintro ⟨-, columns, rows, idIndex, hfileOk, hcount⟩
        exact absurd hcount (hrefused columns rows idIndex hfileOk)
      · intro columns rows idIndex _ hfileOk hcount
        exact absurd hcount (hrefused columns rows idIndex hfileOk)
    · obtain ⟨hfileOk, hcount⟩ := acceptedFile_of_tableFromStorage hfile hnul hsome
      obtain ⟨hcons, -, hloaded, -⟩ := tableFromStorage_some hsome
      rw [hload]
      refine ⟨⟨fun _ => ⟨hacc, _, _, _, hfileOk, hcount⟩, fun _ => ⟨rfl, hloaded⟩⟩, ?_,
        fun h => absurd ⟨rfl, hloaded⟩ h⟩
      intro columns rows idIndex _ hfileOk' hcount'
      obtain ⟨t'', hfrom, hcols, hrows, hid⟩ := hfileOk'.tableFromStorage hfile hnul hcount'
      obtain rfl : t' = t'' := Option.some.inj (hsome.symm.trans hfrom)
      exact ⟨hcols, hrows, hfileOk'.nextId_eq hcons hrows hid⟩

/-- The load succeeds exactly on the accepted contents and has their rows then; every other content
leaves the table unloaded. -/
structure LoadsAsAccepted (files : Files) (t : TableRuntime) (name content : CString) : Prop where
  success_iff : (tableLoadFromStorageIfNeeded files t name).2 = .success ∧
      (tableLoadFromStorageIfNeeded files t name).1.loaded = true ↔
    ∃ columns rows idIndex, AcceptedFile content columns rows idIndex
  accepted : ∀ columns rows idIndex, AcceptedFile content columns rows idIndex →
    (tableLoadFromStorageIfNeeded files t name).1.columns = columns ∧
    (tableLoadFromStorageIfNeeded files t name).1.rows = rows ∧
    (tableLoadFromStorageIfNeeded files t name).1.nextId =
      (rows.map fun row => integerValue (row.getD idIndex []) + 1).foldl max 1
  refused : (¬ ∃ columns rows idIndex, AcceptedFile content columns rows idIndex) →
    (tableLoadFromStorageIfNeeded files t name).2 = .failure ∧
    (tableLoadFromStorageIfNeeded files t name).1.Unloaded

/-- An accepted file is loaded when the runtime takes its name and the array of the rows can grow to
their number, and not otherwise. -/
theorem tableLoadFromStorageIfNeeded_accepts_iff {files : Files} {t : TableRuntime}
    {name path content : CString} (hun : t.Unloaded) (hpath : storageBuildPath name = some path)
    (hfile : files path = some content) (hnul : 0 ∉ content) :
    LoadsAsAccepted files t name content ↔
      ∀ columns rows idIndex, AcceptedFile content columns rows idIndex →
        t.Accepts name ∧ rows.length ≤ 2 ^ 30 := by
  obtain ⟨hsuccess, htable, hrefused⟩ :=
    tableLoadFromStorageIfNeeded_accepts hun hpath hfile hnul
  constructor
  · intro h columns rows idIndex hfileOk
    obtain ⟨hacc, columns', rows', idIndex', hfileOk', hcount⟩ :=
      hsuccess.mp (h.success_iff.mpr ⟨columns, rows, idIndex, hfileOk⟩)
    exact ⟨hacc, hfileOk.unique hfileOk' ▸ hcount⟩
  · intro h
    have hiff : (tableLoadFromStorageIfNeeded files t name).2 = .success ∧
        (tableLoadFromStorageIfNeeded files t name).1.loaded = true ↔
          ∃ columns rows idIndex, AcceptedFile content columns rows idIndex := by
      refine hsuccess.trans ⟨?_, ?_⟩
      · rintro ⟨-, columns, rows, idIndex, hfileOk, -⟩
        exact ⟨columns, rows, idIndex, hfileOk⟩
      · rintro ⟨columns, rows, idIndex, hfileOk⟩
        obtain ⟨hacc, hcount⟩ := h columns rows idIndex hfileOk
        exact ⟨hacc, columns, rows, idIndex, hfileOk, hcount⟩
    refine ⟨hiff, fun columns rows idIndex hfileOk => ?_, fun hnone => hrefused (mt hiff.mp hnone)⟩
    obtain ⟨hacc, hcount⟩ := h columns rows idIndex hfileOk
    exact htable columns rows idIndex hacc hfileOk hcount

/-- The id column need not be the first one, and an empty line is skipped. -/
theorem tableLoadFromStorageIfNeeded_accepts_skipped :
    LoadsAsAccepted (singleFile (bytes "data/t.csv") (bytes "x,ID\na,+7\n\nb,-0\n")) tableInit
        (bytes "t") (bytes "x,ID\na,+7\n\nb,-0\n") ∧
      AcceptedFile (bytes "x,ID\na,+7\n\nb,-0\n") [identifier "x", identifier "ID"]
        [[bytes "a", bytes "+7"], [bytes "b", bytes "-0"]] 1 := by
  have hfileOk : AcceptedFile (bytes "x,ID\na,+7\n\nb,-0\n") [identifier "x", identifier "ID"]
      [[bytes "a", bytes "+7"], [bytes "b", bytes "-0"]] 1 :=
    ⟨by decide, ⟨_, _, rfl, rfl, rfl⟩, by decide, by decide, rfl, by decide, by decide, by decide,
      by decide⟩
  refine ⟨(@tableLoadFromStorageIfNeeded_accepts_iff
    (singleFile (bytes "data/t.csv") (bytes "x,ID\na,+7\n\nb,-0\n")) tableInit (bytes "t")
    (bytes "data/t.csv") _ ⟨rfl, rfl, rfl, rfl, rfl, rfl⟩ rfl rfl (by decide)).mpr ?_, hfileOk⟩
  intro columns rows idIndex hfileOk'
  rw [← hfileOk.unique hfileOk']
  exact ⟨⟨by decide, fun _ => rfl⟩, by decide⟩

/-! ### A file with too many rows -/

/-- The rows of a table of `n` numbers. -/
def numberedRows (n : Nat) : List (List CString) := (List.range n).map fun k => [natDigits k]

/-- The file of a table of `n` numbers. -/
def numberedFile (n : Nat) : CString :=
  storageWriteCsvRow [bytes "id"] ++ ((numberedRows n).map storageWriteCsvRow).flatten

lemma integerValue_natDigits (k : Nat) : integerValue (natDigits k) = k := by
  obtain ⟨b, bs, hbs⟩ := List.exists_cons_of_ne_nil (natDigits_ne_nil k)
  have hb := isdigit_facts (isdigit_of_mem_natDigits b (hbs ▸ List.mem_cons_self))
  rw [hbs, integerValue, if_neg hb.2.1, if_neg hb.2.2.1, ← hbs, digitsValue_natDigits]

/-- A row of a number is one short line that is read back. -/
lemma numberedRow_line {k : Nat} (hk : k < 10 ^ 10) :
    IsLine csvLineRoom (storageWriteCsvRow [natDigits k]) ∧
      csvLineTooLong (storageWriteCsvRow [natDigits k]) = false ∧
      isSkippedLine (storageWriteCsvRow [natDigits k]) = false ∧
      storageParseCsvLine (storageWriteCsvRow [natDigits k]) = some [natDigits k] := by
  have hcell := storableCell_natDigits hk
  have hlines : ∀ v ∈ [natDigits k], NoLineBreak v := by simpa using hcell.no_line_break
  have hhead := @head_storageWriteCsvRow [natDigits k] (by simp) (by simp [natDigits_ne_nil k])
  refine ⟨isLine_storageWriteCsvRow hlines ?_, ?_, ?_, ?_⟩
  · have hlen := length_natDigits_le (by decide) hk
    simp only [csvRowBound, List.map_cons, List.map_nil, List.sum_cons, List.sum_nil, csvLineRoom]
    omega
  · exact (csvLineTooLong_row (by simpa using hcell.no_nul)).2
  · simpa [isSkippedLine] using hhead
  · exact storageParseCsvLine_writeCsvRow (by simp) hlines

lemma mem_numberedRows {n : Nat} (hn : n ≤ 2 ^ 31) {row : List CString}
    (h : row ∈ numberedRows n) :
    ∃ k : Nat, row = [natDigits k] ∧ k < 10 ^ 10 ∧ (k : Int) ≤ intMax := by
  obtain ⟨k, hk, rfl⟩ := List.mem_map.mp h
  have hlt := List.mem_range.mp hk
  refine ⟨k, rfl, by omega, ?_⟩
  rw [intMax]
  omega

lemma storageLines_numberedFile {n : Nat} (hn : n ≤ 2 ^ 31) : storageLines (numberedFile n) =
    storageWriteCsvRow [bytes "id"] :: (numberedRows n).map storageWriteCsvRow := by
  have hheader : IsLine csvLineRoom (storageWriteCsvRow [bytes "id"]) :=
    ⟨bytes "id", rfl, by decide, by decide⟩
  have hall : ∀ line ∈ (numberedRows n).map storageWriteCsvRow, IsLine csvLineRoom line := by
    intro line hline
    obtain ⟨row, hmem, rfl⟩ := List.mem_map.mp hline
    obtain ⟨k, rfl, hk, -⟩ := mem_numberedRows hn hmem
    exact (numberedRow_line hk).1
  rw [storageLines, numberedFile, readLines_line hheader]
  simpa [readLines] using readLines_flatten hall []

lemma numberedFile_accepted {n : Nat} (hn : n ≤ 2 ^ 31) :
    AcceptedFile (numberedFile n) [identifier "id"] (numberedRows n) 0 := by
  have hline : ∀ row ∈ numberedRows n, csvLineTooLong (storageWriteCsvRow row) = false ∧
      isSkippedLine (storageWriteCsvRow row) = false ∧
      storageParseCsvLine (storageWriteCsvRow row) = some row := by
    intro row hmem
    obtain ⟨k, rfl, hk, -⟩ := mem_numberedRows hn hmem
    exact (numberedRow_line hk).2
  have hlines := storageLines_numberedFile hn
  constructor
  · rw [hlines]
    refine List.forall_mem_cons.mpr ⟨by decide, List.forall_mem_map.mpr fun row hmem => ?_⟩
    exact (hline row hmem).1
  · refine ⟨_, _, hlines, by decide, ?_⟩
    rw [List.filter_eq_self.mpr, List.map_map]
    · exact List.map_congr_left fun row hmem => (hline row hmem).2.2
    · refine List.forall_mem_map.mpr fun row hmem => ?_
      simp [(hline row hmem).2.1]
  · exact le_rfl
  · decide
  · rfl
  · intro row hmem
    obtain ⟨k, rfl, -, hmax⟩ := mem_numberedRows hn hmem
    rfl
  · intro row hmem
    obtain ⟨k, rfl, -, hmax⟩ := mem_numberedRows hn hmem
    exact utilsIsInteger_printInt (Int.natCast_nonneg k)
  · intro row hmem
    obtain ⟨k, rfl, -, hmax⟩ := mem_numberedRows hn hmem
    rw [List.getD_cons_zero, integerValue_natDigits]
    exact ⟨Int.natCast_nonneg k, hmax⟩
  · have hids : ((numberedRows n).map fun row => integerValue (row.getD 0 [])) =
        (List.range n).map fun k : Nat => (k : Int) := by
      rw [numberedRows, List.map_map]
      exact List.map_congr_left fun k _ => integerValue_natDigits k
    rw [hids]
    exact List.nodup_range.map Nat.cast_injective

lemma nul_notMem_numberedFile {n : Nat} (hn : n ≤ 2 ^ 31) : 0 ∉ numberedFile n := by
  intro hmem
  rcases List.mem_append.mp hmem with hmem | hmem
  · revert hmem
    decide
  · obtain ⟨line, hline, hmem⟩ := List.mem_flatten.mp hmem
    obtain ⟨row, hrow, rfl⟩ := List.mem_map.mp hline
    obtain ⟨k, hk, rfl⟩ := List.mem_map.mp hrow
    have hlt := List.mem_range.mp hk
    have hnul := (@storableCell_natDigits k (by omega)).no_nul
    exact nul_notMem_storageWriteCsvRow (by simpa using hnul) hmem

/-- More rows than the array of the rows can hold: the file is refused. -/
lemma numberedFile_refused {n : Nat} (hn : n ≤ 2 ^ 31) (hmany : 2 ^ 30 < n) :
    (tableLoadFromStorageIfNeeded (singleFile (bytes "data/t.csv") (numberedFile n)) tableInit
      (bytes "t")).2 = .failure := by
  have hfile : singleFile (bytes "data/t.csv") (numberedFile n) (bytes "data/t.csv") =
      some (numberedFile n) := if_pos rfl
  have hexists : storageTableExists (singleFile (bytes "data/t.csv") (numberedFile n))
      (bytes "t") = true := congrArg Option.isSome hfile
  rcases tableLoad_cases (singleFile (bytes "data/t.csv") (numberedFile n)) (t := tableInit) rfl
    (bytes "t") with ⟨hnot, -⟩ | ⟨-, hfits, ⟨hmissing, -⟩ | ⟨-, t', -, hload⟩ | ⟨t', hsome, -⟩⟩
  · exact absurd ⟨by decide, fun _ => rfl⟩ hnot
  · rw [hexists] at hmissing
    cases hmissing
  · rw [hload]
  · obtain ⟨hfileOk, hcount⟩ := @acceptedFile_of_tableFromStorage _ ⟨bytes "t", hfits⟩ _ hfile
      (nul_notMem_numberedFile hn) _ hsome
    rw [hfileOk.unique (numberedFile_accepted hn), numberedRows, List.length_map,
      List.length_range] at hcount
    omega

/-- One row more than the array of the rows can hold. -/
theorem tableLoadFromStorageIfNeeded_refuses_numbered :
    AcceptedFile (numberedFile (2 ^ 30 + 1)) [identifier "id"] (numberedRows (2 ^ 30 + 1)) 0 ∧
      (tableLoadFromStorageIfNeeded
        (singleFile (bytes "data/t.csv") (numberedFile (2 ^ 30 + 1))) tableInit (bytes "t")).2 =
          .failure :=
  ⟨numberedFile_accepted (by omega), numberedFile_refused (by omega) (by omega)⟩

end MiniDbms
