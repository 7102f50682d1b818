import MiniDbms.Storage.Properties

/-!
# The text of a table

A table is written as its header and its rows, line by line. If the lines of such a text can be
read at all, they are the header and the rows again: a value with a line break in it, or a row too
long for the line buffer, makes the reading fail.
-/

namespace MiniDbms

/-- The text of a table with these names of columns and these rows. -/
def tableText (names : List CString) (rows : List (List CString)) : CString :=
  storageWriteCsvRow names ++ (rows.map storageWriteCsvRow).flatten

lemma tableText_append (names : List CString) (rows : List (List CString)) (row : List CString) :
    tableText names rows ++ storageWriteCsvRow row = tableText names (rows ++ [row]) := by
  simp [tableText]

/-- A row of C strings. -/
structure IsRow (row : List CString) : Prop where
  ne_nil : row ≠ []
  no_nul : ∀ v ∈ row, 0 ∉ v

/-! ### Lines that are read back -/

/-- A line with a newline in it is not too long. -/
lemma csvLineTooLong_row {values : List CString} (hnul : ∀ v ∈ values, 0 ∉ v) :
    cView (storageWriteCsvRow values) = storageWriteCsvRow values ∧
      csvLineTooLong (storageWriteCsvRow values) = false := by
  have hview := cView_eq_self (nul_notMem_storageWriteCsvRow hnul)
  refine ⟨hview, ?_⟩
  rw [csvLineTooLong, hview]
  simp [storageWriteCsvRow]

lemma storageCopyColumns_val (columns : List Identifier) :
    storageCopyColumns (columns.map CBuf.val) = some columns := by
  induction columns with
  | nil => rfl
  | cons c columns ih => simp [storageCopyColumns, utilsSafeStrcpy_val, ih]

/-- The header line is read back as the columns. -/
lemma storageReadHeader_row {columns : List Identifier} (hne : columns ≠ [])
    (hlen : columns.length ≤ maxColumns) (hnames : ∀ c ∈ columns, NoLineBreak c.val)
    (rest : CString) :
    storageReadHeader (storageWriteCsvRow (columns.map CBuf.val) ++ rest) = some (columns, rest) := by
  have hvalues : ∀ v ∈ columns.map CBuf.val, NoLineBreak v ∧ 0 ∉ v ∧ v.length ≤ 63 := by
    intro v hv
    obtain ⟨c, hc, rfl⟩ := List.mem_map.mp hv
    exact ⟨hnames c hc, c.2.2, c.2.1⟩
  have hbound : csvRowBound (columns.map CBuf.val) < csvLineRoom := by
    have hle := csvRowBound_le fun v hv => (hvalues v hv).2.2
    rw [List.length_map] at hle
    have hmax : columns.length * (2 * 63 + 3) ≤ maxColumns * (2 * 63 + 3) :=
      Nat.mul_le_mul_right _ hlen
    exact lt_of_le_of_lt (hle.trans hmax) (by decide)
  have hline := isLine_storageWriteCsvRow (fun v hv => (hvalues v hv).1) hbound
  obtain ⟨hview, hshort⟩ := csvLineTooLong_row fun v hv => (hvalues v hv).2.1
  have hparse := storageParseCsvLine_writeCsvRow (by simpa using hne)
    fun v hv => (hvalues v hv).1
  have hnonempty : (storageWriteCsvRow (columns.map CBuf.val) ++ rest).isEmpty = false := by
    simp [storageWriteCsvRow]
  unfold storageReadHeader
  simp only [hnonempty, Bool.false_eq_true, if_false, fgets_line hline, hshort, hview, hparse,
    Option.bind_eq_bind, Option.bind_some, List.length_map]
  rw [if_neg (by omega), storageCopyColumns_val]
  rfl

/-- Only a row with a single empty value is written as an empty line. -/
lemma head_storageWriteCsvRow {row : List CString} (hne : row ≠ []) (hblank : row ≠ [[]]) :
    (storageWriteCsvRow row).head? ≠ some (chr '\n') ∧
      (storageWriteCsvRow row).head? ≠ some (chr '\r') := by
  obtain ⟨cell, cells, rfl⟩ := List.exists_cons_of_ne_nil hne
  cases cell with
  | nil =>
    cases cells with
    | nil => exact absurd rfl hblank
    | cons c cs =>
      rw [storageWriteCsvRow, csvJoin, storageWriteCsvValue, if_neg (by simp [csvNeedsQuotes])]
      exact ⟨by simp +decide, by simp +decide⟩
  | cons b value =>
    have hhead : (storageWriteCsvRow ((b :: value) :: cells)).head? =
        (storageWriteCsvValue (b :: value)).head? := by
      obtain ⟨c, s, hs⟩ : ∃ c s, storageWriteCsvValue (b :: value) = c :: s := by
        unfold storageWriteCsvValue
        split_ifs
        · exact ⟨_, _, rfl⟩
        · exact ⟨_, _, rfl⟩
      cases cells with
      | nil => simp [storageWriteCsvRow, csvJoin, hs]
      | cons c cs => simp [storageWriteCsvRow, csvJoin, hs]
    rw [hhead, storageWriteCsvValue]
    split_ifs with hquotes
    · exact ⟨by simp +decide, by simp +decide⟩
    · simp only [csvNeedsQuotes, List.any_cons, Bool.or_eq_true, beq_iff_eq, not_or] at hquotes
      simp only [List.head?_cons, ne_eq, Option.some.injEq]
      exact ⟨hquotes.1.1.2, hquotes.1.2⟩

/-- A written row is read back. -/
lemma storageParseRow_row {row : List CString} (hrow : IsRow row) (hblank : row ≠ [[]])
    (hvalues : ∀ v ∈ row, NoLineBreak v) :
    storageParseRow row.length (storageWriteCsvRow row) = some (some row) := by
  obtain ⟨hview, hshort⟩ := csvLineTooLong_row hrow.no_nul
  have hparse := storageParseCsvLine_writeCsvRow hrow.ne_nil hvalues
  have hhead := head_storageWriteCsvRow hrow.ne_nil hblank
  unfold storageParseRow
  simp only [hview, hshort, hparse, hhead, Bool.false_eq_true, if_false, or_self]
  rw [if_neg (by simp)]

lemma storageLoadRows_rows {colCount : Nat} {rows : List (List CString)}
    (h : ∀ row ∈ rows, storageParseRow colCount (storageWriteCsvRow row) = some (some row))
    (offset : Nat) :
    ∃ offsets, storageLoadRows colCount offset (rows.map storageWriteCsvRow) =
      some (rows, offsets) := by
  induction rows generalizing offset with
  | nil => exact ⟨[], rfl⟩
  | cons row rows ih =>
    obtain ⟨offsets, hrest⟩ := ih (fun r hr => h r (by simp [hr]))
      (offset + (storageWriteCsvRow row).length)
    refine ⟨offset :: offsets, ?_⟩
    simp [storageLoadRows, h row List.mem_cons_self, hrest]

/-- Rows that are lines are read line by line. -/
lemma storageLines_rows {rows : List (List CString)}
    (h : ∀ row ∈ rows, IsLine csvLineRoom (storageWriteCsvRow row)) :
    storageLines (rows.map storageWriteCsvRow).flatten = rows.map storageWriteCsvRow := by
  have hlines := readLines_flatten (List.forall_mem_map.mpr h) []
  simpa [storageLines, readLines] using hlines

/-! ### Lines that are not -/

/-- What `fgets` reads of a written row, unless it is too long: the line of the row, or, if a value
holds a line break, a part of it that cannot be parsed. -/
lemma fgets_writtenRow {row : List CString} (hrow : IsRow row) {rest raw : CString}
    (hraw : raw = (fgets csvLineRoom (storageWriteCsvRow row ++ rest)).1)
    (hshort : csvLineTooLong raw = false) :
    (raw = storageWriteCsvRow row ∧ (∀ v ∈ row, NoLineBreak v) ∧ IsLine csvLineRoom raw) ∨
      (storageParseCsvLine (cView raw) = none ∧ (∃ v ∈ row, ¬ NoLineBreak v) ∧
        (cView raw).head? = (storageWriteCsvRow row).head?) := by
  have hstream : storageWriteCsvRow row ++ rest = csvJoin row ++ chr '\n' :: rest := by
    simp [storageWriteCsvRow]
  have hbegins : raw <+: csvJoin row ++ [chr '\n'] := by
    rw [hraw, hstream]
    exact fgets_prefix_newline _ _ _
  have hview : cView raw = raw :=
    cView_eq_self fun hmem => nul_notMem_storageWriteCsvRow hrow.no_nul (hbegins.subset hmem)
  -- the line is not too long, and the stream does have a newline
  have hnewline : chr '\n' ∈ raw := by
    by_contra hnot
    rw [csvLineTooLong, hview, feofAfter] at hshort
    have hlen : raw.length < csvLineRoom := by simpa [hnot] using hshort
    rw [hraw] at hnot hlen
    refine hnot ?_
    rw [fgets_all hnot hlen, hstream]
    simp
  have hline : IsLine csvLineRoom raw := by
    rw [hraw] at hnewline ⊢
    exact fgets_isLine hnewline
  by_cases hvalues : ∀ v ∈ row, NoLineBreak v
  · refine .inl ⟨?_, hvalues, hline⟩
    rcases List.prefix_concat_iff.mp hbegins with hall | hpart
    · exact hall
    · rcases mem_csvJoin (hpart.subset hnewline) with ⟨v, hv, hmem⟩ | hsep
      · exact absurd hmem (hvalues v hv).1
      · exact absurd hsep (by decide)
  · have hbreak : ∃ v ∈ row, ¬ NoLineBreak v := by simpa using hvalues
    obtain ⟨body, hbody, -, -⟩ := hline
    obtain ⟨more, hmore⟩ := hbegins
    rw [hview]
    refine .inr ⟨?_, hbreak, ?_⟩
    · have hread : storageParseCsvLine (storageWriteCsvRow row) = none :=
        csvScan_join_lineBreak hbreak
      rw [storageWriteCsvRow, ← hmore, hbody, List.append_assoc, List.singleton_append] at hread
      rw [hbody, storageParseCsvLine, ← csvScan_newline body more]
      exact hread
    · rw [storageWriteCsvRow, ← hmore, hbody]
      cases body <;> rfl

/-- If the line at the start of a written row is no error, it is the row. -/
lemma storageParseRow_written {row : List CString} (hrow : IsRow row) {rest : CString} {n : Nat}
    (h : storageParseRow n (fgets csvLineRoom (storageWriteCsvRow row ++ rest)).1 ≠ none) :
    (∀ v ∈ row, NoLineBreak v) ∧ IsLine csvLineRoom (storageWriteCsvRow row) := by
  generalize hraw : (fgets csvLineRoom (storageWriteCsvRow row ++ rest)).1 = raw at h
  unfold storageParseRow at h
  dsimp only at h
  split_ifs at h with hlong hhead
  · exact absurd rfl h
  · -- an empty line
    rcases fgets_writtenRow hrow hraw.symm (by simpa using hlong) with ⟨rfl, hall⟩ | ⟨-, hbreak, heq⟩
    · exact hall
    · rw [heq] at hhead
      have hblank : row = [[]] := by
        by_contra hblank
        have hhead' := head_storageWriteCsvRow hrow.ne_nil hblank
        exact hhead.elim hhead'.1 hhead'.2
      obtain ⟨v, hv, hbreak⟩ := hbreak
      rw [hblank, List.mem_singleton] at hv
      rw [hv] at hbreak
      exact absurd ⟨List.not_mem_nil, List.not_mem_nil⟩ hbreak
  · rcases fgets_writtenRow hrow hraw.symm (by simpa using hlong) with ⟨rfl, hall⟩ | ⟨hnone, -⟩
    · exact hall
    · rw [hnone] at h
      exact absurd rfl h

/-- If no line of the written rows is an error, the lines are the rows. -/
lemma storageLines_written {rows : List (List CString)} (hrows : ∀ row ∈ rows, IsRow row) {n : Nat}
    (h : ∀ raw ∈ storageLines (rows.map storageWriteCsvRow).flatten, storageParseRow n raw ≠ none) :
    storageLines (rows.map storageWriteCsvRow).flatten = rows.map storageWriteCsvRow ∧
      ∀ row ∈ rows, ∀ v ∈ row, NoLineBreak v := by
  induction rows with
  | nil => exact ⟨rfl, by simp⟩
  | cons row rows ih =>
    have hrow := hrows row List.mem_cons_self
    rw [List.map_cons, List.flatten_cons] at h ⊢
    -- the stream is not empty, so that there is a first line
    have hfirst : (fgets csvLineRoom (storageWriteCsvRow row ++
        (rows.map storageWriteCsvRow).flatten)).1 ∈
          storageLines (storageWriteCsvRow row ++ (rows.map storageWriteCsvRow).flatten) := by
      obtain ⟨b, s, hs⟩ : ∃ b s, storageWriteCsvRow row ++
          (rows.map storageWriteCsvRow).flatten = b :: s :=
        List.exists_cons_of_ne_nil (by simp [storageWriteCsvRow])
      rw [storageLines, hs, List.length_cons, readLines]
      exact List.mem_cons_self
    obtain ⟨hvalues, hline⟩ := storageParseRow_written hrow (h _ hfirst)
    have hlines := readLines_line hline (rows.map storageWriteCsvRow).flatten
    rw [storageLines, hlines] at h ⊢
    obtain ⟨hrest, hall⟩ := ih (fun r hr => hrows r (by simp [hr]))
      fun raw hmem => h raw (List.mem_cons_of_mem _ hmem)
    rw [storageLines] at hrest
    exact ⟨by rw [hrest], List.forall_mem_cons.mpr ⟨hvalues, hall⟩⟩

lemma storageCopyColumns_some {names : List CString} (hnames : ∀ v ∈ names, 0 ∉ v)
    {columns : List Identifier} (h : storageCopyColumns names = some columns) :
    columns.map CBuf.val = names := by
  induction names generalizing columns with
  | nil =>
    cases h
    rfl
  | cons name names ih =>
    rw [storageCopyColumns] at h
    cases hcopy : utilsSafeStrcpy 63 name with
    | mk dest st =>
      rw [hcopy] at h
      cases st with
      | failure => cases h
      | success =>
        obtain ⟨rest, hrest, rfl⟩ := Option.map_eq_some_iff.mp h
        rw [List.map_cons, ih (fun v hv => hnames v (by simp [hv])) hrest,
          utilsSafeStrcpy_success (hnames name List.mem_cons_self) hcopy]

/-- If the header of a written table can be read, it is the header that was written. -/
lemma storageReadHeader_written {names : List CString} (hnames : IsRow names)
    {rest stream : CString} {columns : List Identifier}
    (h : storageReadHeader (storageWriteCsvRow names ++ rest) = some (columns, stream)) :
    columns.map CBuf.val = names ∧ stream = rest := by
  have hnonempty : (storageWriteCsvRow names ++ rest).isEmpty = false := by
    simp [storageWriteCsvRow]
  rw [storageReadHeader, if_neg (by simp [hnonempty])] at h
  dsimp only at h
  split_ifs at h with hlong
  rw [Option.bind_eq_bind, Option.bind_eq_some_iff] at h
  obtain ⟨parsed, hparsed, h⟩ := h
  rcases fgets_writtenRow hnames rfl (by simpa using hlong) with ⟨hraw, hvalues, hline⟩ | ⟨hnone, -⟩
  · rw [hraw] at hline hparsed
    rw [fgets_line hline, (csvLineTooLong_row hnames.no_nul).1,
      storageParseCsvLine_writeCsvRow hnames.ne_nil hvalues] at *
    obtain rfl : names = parsed := Option.some.inj hparsed
    split_ifs at h
    rw [Option.bind_eq_bind, Option.bind_eq_some_iff] at h
    obtain ⟨columns', hcopy, ⟨⟩⟩ := h
    exact ⟨storageCopyColumns_some hnames.no_nul hcopy, rfl⟩
  · rw [hnone] at hparsed
    cases hparsed

/-- The loop over the rows only succeeds if no line is an error. -/
lemma storageLoadRows_ne_none {n offset : Nat} {lines : List CString}
    {rows : List (List CString)} {offsets : List Nat}
    (h : storageLoadRows n offset lines = some (rows, offsets)) :
    ∀ raw ∈ lines, storageParseRow n raw ≠ none := by
  induction lines generalizing offset rows offsets with
  | nil => simp
  | cons raw lines ih =>
    rw [storageLoadRows, Option.bind_eq_bind, Option.bind_eq_some_iff] at h
    obtain ⟨parsed, hparsed, h⟩ := h
    refine List.forall_mem_cons.mpr ⟨by simp [hparsed], ?_⟩
    cases parsed with
    | none => exact ih h
    | some fields =>
      obtain ⟨⟨rows', offsets'⟩, hrest, -⟩ := Option.bind_eq_some_iff.mp h
      exact ih hrest

/-- A row that is no empty line and can be read has the number of columns. -/
lemma storageParseRow_some_of_ne_none {n : Nat} {row : List CString} (hrow : IsRow row)
    (hblank : row ≠ [[]]) (hvalues : ∀ v ∈ row, NoLineBreak v)
    (h : storageParseRow n (storageWriteCsvRow row) ≠ none) :
    storageParseRow n (storageWriteCsvRow row) = some (some row) := by
  obtain ⟨hview, hshort⟩ := csvLineTooLong_row hrow.no_nul
  have hparse := storageParseCsvLine_writeCsvRow hrow.ne_nil hvalues
  have hhead := head_storageWriteCsvRow hrow.ne_nil hblank
  unfold storageParseRow at h ⊢
  simp only [hview, hshort, hparse, hhead, Bool.false_eq_true, if_false, or_self] at h ⊢
  split_ifs at h ⊢
  · exact absurd rfl h
  · rfl

end MiniDbms
