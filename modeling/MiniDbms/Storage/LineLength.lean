import MiniDbms.Storage.Effects
import MiniDbms.Storage.RowScan

/-!
# The length of a stored row

A quoted value takes two bytes more than its text, and each double quote in it one more. Rows of at
most 31 values fit into the line buffer of the readers whatever they hold; 32 values full of double
quotes do not.
-/

namespace MiniDbms

/-! ### The line that is appended -/

/-- What an insertion appends: the row, behind a header in an empty file. -/
lemma storageInsertText_row {content text : CString} {stmt : InsertStatement}
    (h : storageInsertText content stmt = some text) :
    storageInsertValues content stmt ≠ [] ∧
      text = (if content = [] then storageWriteCsvRow (storageNewNames stmt) else []) ++
        storageWriteCsvRow (storageInsertValues content stmt) := by
  by_cases hempty : content = []
  · subst hempty
    obtain ⟨htext, -, -, hrow, -⟩ := storageInsertText_nil h
    refine ⟨hrow.ne_nil, ?_⟩
    rw [if_pos rfl, htext, tableText]
    simp
  · obtain ⟨existing, stream, -, hne, h, hvalues⟩ := storageInsertText_some hempty h
    obtain ⟨htext, hrow, -, -⟩ := storageInsertExisting_row hne h
    rw [hvalues, if_neg hempty, htext]
    exact ⟨hrow.ne_nil, rfl⟩

lemma noLineBreak_printInt (n : Int) : NoLineBreak (printInt n) := by
  have hdigits : ∀ b ∈ natDigits n.natAbs, b ≠ chr '\n' ∧ b ≠ chr '\r' := by
    intro b hb
    exact (isdigit_facts (isdigit_of_mem_natDigits b hb)).2.2.2.2
  have hall : ∀ b ∈ printInt n, b ≠ chr '\n' ∧ b ≠ chr '\r' := by
    unfold printInt
    split_ifs
    · exact List.forall_mem_cons.mpr ⟨by decide, hdigits⟩
    · exact hdigits
  exact ⟨fun h => (hall _ h).1 rfl, fun h => (hall _ h).2 rfl⟩

/-- A column that the statement does not name gets no value. -/
lemma InsertStatement.valueFor_mem (stmt : InsertStatement) (c : Identifier) :
    stmt.valueFor c ∈ stmt.values.map CBuf.val ∨ stmt.valueFor c = [] := by
  unfold InsertStatement.valueFor
  split
  · exact .inr rfl
  · rw [List.getD_eq_getElem?_getD]
    rename_i j _
    cases hget : (stmt.values.map CBuf.val)[j]? with
    | none => exact .inr rfl
    | some w => exact .inl (List.mem_of_getElem? hget)

lemma InsertStatement.exists_value (stmt : InsertStatement) (c : Identifier) :
    ∃ v : Value, stmt.valueFor c = v.val := by
  rcases stmt.valueFor_mem c with h | h
  · obtain ⟨v, -, hv⟩ := List.mem_map.mp h
    exact ⟨v, hv.symm⟩
  · exact ⟨CBuf.empty, h⟩

/-- The row consists of values of the statement and numbers. -/
lemma mem_storageInsertValues {content : CString} {stmt : InsertStatement} {v : CString}
    (h : v ∈ storageInsertValues content stmt) :
    v ∈ stmt.values.map CBuf.val ∨ v = [] ∨ ∃ n, v = printInt n := by
  rw [storageInsertValues] at h
  split at h
  · cases h
  · split_ifs at h
    · rw [storageNewValues] at h
      split_ifs at h
      · rcases List.mem_cons.mp h with rfl | h
        · exact .inr (.inr ⟨1, rfl⟩)
        · exact .inl h
      · exact .inl h
    · obtain ⟨⟨c, i⟩, -, rfl⟩ := List.mem_map.mp h
      dsimp only
      split_ifs
      · cases hid : storageGetNextAutoId _ _ with
        | none => exact .inr (.inl rfl)
        | some autoId =>
          obtain ⟨_, n, -, -, rfl⟩ := storageGetNextAutoId_some hid
          exact .inr (.inr ⟨n, rfl⟩)
      · rcases stmt.valueFor_mem c with hc | hc
        · exact .inl hc
        · exact .inr (.inl hc)

lemma storageInsertValues_clean {content : CString} {stmt : InsertStatement}
    (hclean : ∀ v ∈ stmt.values, NoLineBreak v.val) :
    ∀ v ∈ storageInsertValues content stmt, NoLineBreak v ∧ 0 ∉ v := by
  intro v hv
  rcases mem_storageInsertValues hv with hv | rfl | ⟨n, rfl⟩
  · refine ⟨?_, nul_notMem_value v hv⟩
    obtain ⟨value, hvalue, rfl⟩ := List.mem_map.mp hv
    exact hclean value hvalue
  · exact ⟨⟨List.not_mem_nil, List.not_mem_nil⟩, List.not_mem_nil⟩
  · exact ⟨noLineBreak_printInt n, nul_notMem_printInt n⟩

/-- The file that a successful insertion leaves. -/
lemma storageInsert_success {files files' : Files} {tableName : CString} {stmt : InsertStatement}
    (h : storageInsert files tableName stmt = (files', .success)) :
    ∃ path text, storageBuildPath tableName = some path ∧
      storageInsertText ((files path).getD []) stmt = some text ∧
      files' = Function.update files path (some ((files path).getD [] ++ text)) := by
  cases hpath : storageBuildPath tableName with
  | none => simp [storageInsert, hpath] at h
  | some path =>
    rw [storageInsert_eq hpath] at h
    cases htext : storageInsertText ((files path).getD []) stmt with
    | none => simp [htext] at h
    | some text =>
      rw [htext] at h
      exact ⟨path, text, rfl, htext, (Prod.mk.inj h).1.symm⟩

lemma isLine_of_csvRowLength {row : List CString} (hne : row ≠ [])
    (hrow : ∀ v ∈ row, NoLineBreak v) (h : csvRowLength row ≤ csvLineRoom) :
    IsLine csvLineRoom (storageWriteCsvRow row) := by
  refine ⟨csvJoin row, rfl, fun hmem => ?_, length_storageWriteCsvRow hne ▸ h⟩
  rcases mem_csvJoin hmem with ⟨v, hv, hb⟩ | hb
  · exact (hrow v hv).1 hb
  · revert hb
    decide

/-! ### The line as a reader gets it -/

lemma csvLineTooLong_of_isLine {line : CString} (hline : IsLine csvLineRoom line) :
    csvLineTooLong line = true ↔ 0 ∈ line := by
  obtain ⟨body, rfl, hbody, -⟩ := hline
  have hfeof : feofAfter csvLineRoom (body ++ [chr '\n']) = false := by simp [feofAfter]
  rw [csvLineTooLong, hfeof, Bool.not_false, Bool.and_true]
  constructor
  · intro h
    by_contra hnul
    rw [cView_eq_self hnul] at h
    simp at h
  · intro hnul
    have hmem : 0 ∈ body := by simpa [chr] using hnul
    have hview : cView (body ++ [chr '\n']) = cView body := cView_append_of_mem hmem _
    rw [hview]
    simpa using fun h => hbody (cView_subset h)

lemma csvLineTooLong_of_notMem {line : CString} (h : chr '\n' ∉ line) :
    csvLineTooLong line = true ↔ csvLineRoom ≤ line.length := by
  have hview : chr '\n' ∉ cView line := fun hmem => h (cView_subset hmem)
  simp [csvLineTooLong, feofAfter, hview, h]

/-- A line that does not fit is cut before its newline. -/
lemma csvLineTooLong_cut {body : CString} (hbody : chr '\n' ∉ body)
    (hlong : csvLineRoom < body.length + 1) :
    csvLineTooLong (fgets csvLineRoom (body ++ [chr '\n'])).1 = true := by
  have hprefix := fgets_prefix_newline csvLineRoom body []
  have hle := fgets_length_le csvLineRoom (body ++ [chr '\n'])
  have hpart : (fgets csvLineRoom (body ++ [chr '\n'])).1 <+: body := by
    refine (List.prefix_concat_iff.mp hprefix).resolve_left fun hall => ?_
    rw [hall, List.length_append, List.length_singleton] at hle
    omega
  have hnot : chr '\n' ∉ (fgets csvLineRoom (body ++ [chr '\n'])).1 :=
    fun hmem => hbody (hpart.subset hmem)
  rw [csvLineTooLong_of_notMem hnot]
  by_contra hshort
  have hall := fgets_all hnot (by omega)
  exact hnot (by rw [hall]; simp)

/-- What is behind the last newline of a stream: its last line, if it has not been ended. -/
def unfinishedLine (stream : CString) : CString :=
  match (storageLines stream).getLast? with
  | none      => []
  | some line => if chr '\n' ∈ line then [] else line

/-- A line behind a stream is found too long if the stream has a line that is, or if its last line
has not been ended and the two together are. -/
lemma storageScanFault_appendLine {stream line : CString} (hline : IsLine csvLineRoom line)
    (hnul : 0 ∉ line) (scan : RowScan) (colCount : Nat) :
    storageScanFault scan colCount 0 (storageLines (stream ++ line)) ≠ some .tooLong ↔
      storageScanFault scan colCount 0 (storageLines stream) ≠ some .tooLong ∧
      (storageScanFault scan colCount 0 (storageLines stream).dropLast = none →
        0 ∉ unfinishedLine stream ∧
        (unfinishedLine stream).length + line.length ≤ csvLineRoom) := by
  have hread : storageLines line = [line] := by
    simpa [storageLines, readLines] using readLines_line hline []
  have hshort : csvLineTooLong line = false := by
    rw [← Bool.not_eq_true, csvLineTooLong_of_isLine hline]
    exact hnul
  have hlen : line.length ≤ csvLineRoom := hline.choose_spec.2.2
  by_cases hstream : stream = []
  · subst hstream
    rw [List.nil_append, hread]
    have hempty : storageLines [] = [] := rfl
    have hone : storageScanFault scan colCount 0 [line] ≠ some .tooLong := by
      rw [Ne, storageScanFault_singleton, hshort]
      simp
    have hnone : storageScanFault scan colCount 0 [] = none := rfl
    simp [hempty, hone, hnone, unfinishedLine, hlen]
  obtain ⟨before, last, hlines, happend⟩ := readLines_append csvLineRoom_pos hstream
  have hlines' : storageLines stream = before ++ [last] := hlines
  have hnew : storageLines (stream ++ line) = before ++ storageLines (last ++ line) :=
    happend line
  have hunfinished : unfinishedLine stream = if chr '\n' ∈ last then [] else last := by
    rw [unfinishedLine, hlines', List.getLast?_concat]
  rw [hnew, hlines', List.dropLast_concat, hunfinished]
  rcases storageScanFault_append scan colCount 0 before with ⟨fault, hfault⟩ | ⟨hnone, count, hmore⟩
  · -- no loop comes to the last line
    have hbefore := hfault []
    rw [List.append_nil] at hbefore
    rw [hfault, hfault, hbefore]
    simp
  rw [hmore, hmore, hnone]
  by_cases hended : chr '\n' ∈ last
  · -- the line behind it is read by itself
    have hmem : last ∈ readLines csvLineRoom stream.length stream := by simp [hlines]
    have hboth : storageLines (last ++ line) = [last, line] := by
      rw [storageLines, readLines_line (isLine_of_mem_readLines hmem hended), ← storageLines, hread]
    rw [if_pos hended, hboth]
    have htwo : storageScanFault scan colCount count [last, line] ≠ some .tooLong ↔
        storageScanFault scan colCount count [last] ≠ some .tooLong := by
      rw [not_iff_not]
      rcases storageScanFault_append scan colCount count [last] with
        ⟨fault, hfault⟩ | ⟨hnone, count', hmore⟩
      · have hlast := hfault []
        have hmore := hfault [line]
        rw [List.append_nil] at hlast
        rw [List.singleton_append] at hmore
        rw [hlast, hmore]
      · have hmore := hmore [line]
        rw [List.singleton_append] at hmore
        rw [hnone, hmore, storageScanFault_singleton, hshort]
        simp
    rw [htwo]
    simp [hlen]
  · -- the two are read as one line
    obtain ⟨body, rfl, hbody, -⟩ := hline
    have hlonger : chr '\n' ∉ last ++ body := by simp [hended, hbody]
    have hone : storageScanFault scan colCount count [last] ≠ some .tooLong ↔
        ¬ csvLineTooLong last = true := not_congr storageScanFault_singleton
    rw [if_neg hended, ← List.append_assoc, hone]
    by_cases hfits : last.length + (body ++ [chr '\n']).length ≤ csvLineRoom
    · have hone : IsLine csvLineRoom (last ++ body ++ [chr '\n']) :=
        ⟨last ++ body, rfl, hlonger, by simpa [Nat.add_assoc] using hfits⟩
      have hlines : storageLines (last ++ body ++ [chr '\n']) = [last ++ body ++ [chr '\n']] := by
        simpa [storageLines, readLines] using readLines_line hone []
      have hlast : ¬ csvLineTooLong last = true := by
        rw [csvLineTooLong_of_notMem hended]
        rw [List.length_append, List.length_singleton] at hfits
        omega
      rw [hlines, Ne, storageScanFault_singleton, csvLineTooLong_of_isLine hone, List.append_assoc,
        List.mem_append]
      exact ⟨fun h => ⟨hlast, fun _ => ⟨fun hmem => h (.inl hmem), hfits⟩⟩,
        fun h hmem => hmem.elim (h.2 rfl).1 hnul⟩
    · have hcut : storageScanFault scan colCount count
          (storageLines (last ++ body ++ [chr '\n'])) = some .tooLong := by
        rw [storageLines, readLines_first csvLineRoom_pos (by simp)]
        refine storageScanFault_tooLong (csvLineTooLong_cut hlonger ?_)
        rw [List.length_append, List.length_singleton] at hfits
        rw [List.length_append]
        omega
      exact iff_of_false (fun h => h hcut) fun h => hfits (h.2 rfl).2

/-! ### The file with the line -/

/-- A stream of no line or of one that fits has none that is too long. -/
lemma not_rejectsLongRow_of_rest {content line : CString} (hline : IsLine csvLineRoom line)
    (hnul : 0 ∉ line) (h : ∀ columns stream, storageReadHeader content = some (columns, stream) →
      stream = [] ∨ stream = line) : ¬ RejectsLongRow content := by
  rintro ⟨columns, stream, scan, hheader, -, hlong⟩
  rcases h columns stream hheader with rfl | rfl
  · cases hlong
  · refine ((@storageScanFault_appendLine [] stream hline hnul scan columns.length).mpr
      ⟨?_, fun _ => ⟨?_, ?_⟩⟩) hlong
    · simp [storageLines, readLines, storageScanFault]
    · exact List.not_mem_nil
    · exact (Nat.zero_add _).le.trans hline.choose_spec.2.2

/-- In a file with an id column an insertion goes over all rows, to find the next id or to check the
new one. -/
lemma exists_scan_of_insert {content stream text : CString} {columns : List Identifier}
    {stmt : InsertStatement} {idIndex : Nat}
    (hheader : storageReadHeader content = some (columns, stream))
    (hid : storageFindColumnIndex columns (bytes "id") = some idIndex)
    (h : storageInsertText content stmt = some text) :
    ∃ scan, RowScan.On columns scan ∧
      storageScanFault scan columns.length 0 (storageLines stream) = none := by
  have hne : columns ≠ [] := by
    rintro rfl
    cases hid
  rw [storageInsertText, hheader, Option.bind_eq_bind, Option.bind_some] at h
  dsimp only at h
  rw [if_neg (by simpa using hne)] at h
  obtain ⟨-, hauto, hvalid, -⟩ := storageInsertExisting_some h
  by_cases hindex : storageAutoIndex columns stmt = none
  · obtain ⟨hlt, -⟩ := List.findIdx?_eq_some_iff_getElem.mp hid
    obtain ⟨v, hvalue⟩ := stmt.exists_value columns[idIndex]
    have hv : (storageExistingValues stream columns stmt).getD idIndex [] = v.val := by
      rw [List.getD_eq_getElem _ _ (by simpa [storageExistingValues] using hlt), ← hvalue]
      simp [storageExistingValues, hindex]
    have hvalid := hvalid hindex
    have hnonempty := storageValidatePrimaryKey_success hvalid hid
    rw [storageValidatePrimaryKey, hid] at hvalid
    dsimp only at hvalid
    rw [if_neg (by simpa using hnonempty), hv] at hvalid
    exact ⟨.unique idIndex v, ⟨hid, hv ▸ hnonempty⟩, storageCheckUnique_success_iff.mp hvalid⟩
  · have hnext := hauto hindex
    rw [storageGetNextAutoId, hid, Option.isSome_map] at hnext
    exact ⟨.nextId idIndex, hid, storageNextId_isSome_iff.mp hnext⟩

/-- A file has room for a row: the row fits into a line, together with the last line if that has not
been ended, and no row is rejected for its length already. -/
structure RoomForRow (content : CString) (row : List CString) : Prop where
  length : csvRowLength row ≤ csvLineRoom
  rows : ¬ RejectsLongRow content
  last : ∀ columns stream scan, storageReadHeader content = some (columns, stream) →
    RowScan.On columns scan →
    storageScanFault scan columns.length 0 (storageLines stream).dropLast = none →
    0 ∉ unfinishedLine stream ∧ (unfinishedLine stream).length + csvRowLength row ≤ csvLineRoom

/-- The line of a row in a file takes no more than the line buffer holds, and no reader of the file
rejects a row for its length. -/
structure LineFits (content : CString) (row : List CString) : Prop where
  length : (storageWriteCsvRow row).length ≤ csvLineRoom
  rows : ¬ RejectsLongRow content

lemma roomForRow_nil {row : List CString} (h : csvRowLength row ≤ csvLineRoom) :
    RoomForRow [] row where
  length := h
  rows := by
    rintro ⟨columns, stream, scan, ⟨⟩, -, hlong⟩
    cases hlong
  last := by
    rintro columns stream scan ⟨⟩ - -
    exact ⟨List.not_mem_nil, (Nat.zero_add _).le.trans h⟩

/-- A row behind the lines of a file that has a header. -/
lemma rejectsLongRow_append {content : CString} {row : List CString} (hne : content ≠ [])
    (hheader : storageReadHeader content ≠ none)
    (hline : IsLine csvLineRoom (storageWriteCsvRow row)) (hnul : 0 ∉ storageWriteCsvRow row)
    (hlen : (storageWriteCsvRow row).length = csvRowLength row) :
    ¬ RejectsLongRow (content ++ storageWriteCsvRow row) ↔ RoomForRow content row := by
  obtain ⟨⟨columns, stream⟩, hheader⟩ := Option.ne_none_iff_exists'.mp hheader
  have hfits : csvRowLength row ≤ csvLineRoom := hlen ▸ hline.choose_spec.2.2
  have hstream := storageReadHeader_rest hne hheader
  by_cases hrest : stream = []
  · -- there are no rows: the line is the only one, or part of the header
    subst hrest
    have hroom : RoomForRow content row := by
      refine ⟨hfits, ?_, ?_⟩
      · rintro ⟨columns', stream', scan, hheader', -, hlong⟩
        obtain ⟨rfl, rfl⟩ := Prod.mk.inj (Option.some.inj (hheader.symm.trans hheader'))
        cases hlong
      · rintro columns' stream' scan hheader' - -
        obtain ⟨rfl, rfl⟩ := Prod.mk.inj (Option.some.inj (hheader.symm.trans hheader'))
        exact ⟨List.not_mem_nil, (Nat.zero_add _).le.trans hfits⟩
    refine iff_of_true (not_rejectsLongRow_of_rest hline hnul fun columns' stream' hnew => ?_) hroom
    rw [storageReadHeader_rest (by simp [hne]) hnew]
    have hall := fgets_append csvLineRoom content
    rw [← hstream, List.append_nil] at hall
    by_cases hended : chr '\n' ∈ content
    · rw [fgets_line (hall ▸ fgets_isLine (hall.symm ▸ hended))]
      exact .inr rfl
    · obtain ⟨body, hbody, hnot, -⟩ := hline
      have hlonger : chr '\n' ∉ content ++ body := by simp [hended, hnot]
      have hshort := storageReadHeader_short (by simp [hne]) (hnew ▸ Option.some_ne_none _)
      rw [hbody, ← List.append_assoc] at hshort ⊢
      by_cases hfits : (content ++ body).length + 1 ≤ csvLineRoom
      · have hone : IsLine csvLineRoom (content ++ body ++ [chr '\n']) :=
          ⟨_, rfl, hlonger, by rw [List.length_append, List.length_singleton]; exact hfits⟩
        have hread := fgets_line hone []
        rw [List.append_nil] at hread
        exact .inl (congrArg Prod.snd hread)
      · rw [csvLineTooLong_cut hlonger (by omega)] at hshort
        cases hshort
  · have happend := fgets_append_of_rest (hstream ▸ hrest) (storageWriteCsvRow row)
    have hnew : storageReadHeader (content ++ storageWriteCsvRow row) =
        some (columns, stream ++ storageWriteCsvRow row) := by
      rw [storageReadHeader_congr hne (by simp [hne]) (by rw [happend]), hheader, happend, hstream]
      rfl
    rw [not_rejectsLongRow_iff hnew]
    constructor
    · intro h
      have happended := fun scan hon =>
        (storageScanFault_appendLine hline hnul scan columns.length).mp (h scan hon)
      refine ⟨hfits, (not_rejectsLongRow_iff hheader).mpr fun scan hon => (happended scan hon).1, ?_⟩
      intro columns' stream' scan hheader' hon hreached
      obtain ⟨rfl, rfl⟩ := Prod.mk.inj (Option.some.inj (hheader.symm.trans hheader'))
      exact hlen ▸ (happended scan hon).2 hreached
    · intro h scan hon
      refine (storageScanFault_appendLine hline hnul scan columns.length).mpr ⟨?_, ?_⟩
      · exact (not_rejectsLongRow_iff hheader).mp h.rows scan hon
      · exact fun hreached => hlen.symm ▸ h.last columns stream scan hheader hon hreached

/-- The rows of a file with an id column are read by the insertion itself: only the last line is left
to look at. -/
lemma roomForRow_iff_of_id {content stream text : CString} {columns : List Identifier}
    {stmt : InsertStatement} {idIndex : Nat}
    (hheader : storageReadHeader content = some (columns, stream))
    (hid : storageFindColumnIndex columns (bytes "id") = some idIndex)
    (h : storageInsertText content stmt = some text) (row : List CString) :
    RoomForRow content row ↔ csvRowLength row ≤ csvLineRoom ∧ 0 ∉ unfinishedLine stream ∧
      (unfinishedLine stream).length + csvRowLength row ≤ csvLineRoom := by
  obtain ⟨scan, hon, hnone⟩ := exists_scan_of_insert hheader hid h
  constructor
  · intro hroom
    exact ⟨hroom.length,
      hroom.last columns stream scan hheader hon (storageScanFault_dropLast hnone)⟩
  · rintro ⟨hfits, hlast⟩
    refine ⟨hfits, (not_rejectsLongRow_iff hheader).mpr fun scan' _ => ?_, ?_⟩
    · exact storageScanFault_ne_tooLong (csvLineTooLong_of_scanFault hnone)
    · intro columns' stream' scan' hheader' _ _
      obtain ⟨rfl, rfl⟩ := Prod.mk.inj (Option.some.inj (hheader.symm.trans hheader'))
      exact hlast

/-- The line of the row that an insertion stores fits, and no later load, search for the next id or
check of a new id rejects the table for the length of a row, exactly when the file had room for the
row: the row's values, the double quotes counted twice and two bytes more for each that is quoted,
with a separator behind each, and the last line of the file if it has not been ended. -/
theorem storageInsert_lineFits_iff {files files' : Files} {tableName : CString}
    {stmt : InsertStatement} (hclean : ∀ v ∈ stmt.values, NoLineBreak v.val)
    (h : storageInsert files tableName stmt = (files', .success)) :
    ∃ path content' header row, storageBuildPath tableName = some path ∧
      files' path = some content' ∧
      row = storageInsertValues ((files path).getD []) stmt ∧
      content' = (files path).getD [] ++ header ++ storageWriteCsvRow row ∧
      (LineFits content' row ↔ RoomForRow ((files path).getD []) row) := by
  obtain ⟨path, text, hpath, htext, rfl⟩ := storageInsert_success h
  obtain ⟨hne, rfl⟩ := storageInsertText_row htext
  refine ⟨path, _, if (files path).getD [] = [] then storageWriteCsvRow (storageNewNames stmt)
    else [], _, hpath, Function.update_self .., rfl, (List.append_assoc ..).symm, ?_⟩
  rw [← List.append_assoc]
  have hclean' := @storageInsertValues_clean ((files path).getD []) _ hclean
  generalize (files path).getD [] = content at htext hne hclean' ⊢
  generalize storageInsertValues content stmt = row at hne hclean' ⊢
  have hlen := length_storageWriteCsvRow hne
  by_cases hfits : csvRowLength row ≤ csvLineRoom
  · have hline := isLine_of_csvRowLength hne (fun v hv => (hclean' v hv).1) hfits
    have hnul := nul_notMem_storageWriteCsvRow fun v hv => (hclean' v hv).2
    have hrows : ¬ RejectsLongRow (content ++
        (if content = [] then storageWriteCsvRow (storageNewNames stmt) else []) ++
          storageWriteCsvRow row) ↔ RoomForRow content row := by
      by_cases hempty : content = []
      · subst hempty
        obtain ⟨-, hnames, -, -, -⟩ := storageInsertText_nil htext
        rw [if_pos rfl, List.nil_append]
        refine iff_of_true (not_rejectsLongRow_of_rest hline hnul fun columns stream hheader => ?_)
          (roomForRow_nil hfits)
        exact .inr (storageReadHeader_written hnames hheader).2
      · have hheader : storageReadHeader content ≠ none := by
          intro hnone
          rw [storageInsertText, hnone] at htext
          cases htext
        rw [if_neg hempty, List.append_nil]
        exact rejectsLongRow_append hempty hheader hline hnul hlen
    exact ⟨fun h => hrows.mp h.rows, fun h => ⟨hlen ▸ hfits, hrows.mpr h⟩⟩
  · exact iff_of_false (fun h => hfits (hlen ▸ h.length)) fun h => hfits h.length


/-- The longest value of double quotes. -/
def quotesValue : Value := .truncate 255 (List.replicate 255 (chr '"'))

/-- An id and 31 more columns, all values full of double quotes. -/
def insertQuotes : InsertStatement where
  tableName := identifier "t"
  columns := identifier "id" ::
    (List.range 31).map fun i => .truncate 63 (chr 'c' :: natDigits i)
  values := List.replicate 32 quotesValue
  columns_le := by simp [maxColumns]
  values_length := by simp

/-- An insertion of an id and a quote fits. -/
def insertQuote : InsertStatement :=
  ⟨identifier "t", [identifier "id", identifier "a"], [.truncate 255 (bytes "7"),
    .truncate 255 (bytes "\"")], by decide, rfl⟩

theorem storageInsert_lineFits_quote :
    LineFits (bytes "id,a\n7,\"\"\"\"\n") [bytes "7", bytes "\""] := by
  have hclean : ∀ v ∈ insertQuote.values, NoLineBreak v.val := by
    unfold NoLineBreak
    decide
  have hsuccess : storageInsert (fun _ => none) (bytes "t") insertQuote =
      ((storageInsert (fun _ => none) (bytes "t") insertQuote).1, .success) :=
    Prod.ext rfl (by decide +kernel)
  obtain ⟨path, content', header, row, hpath, hcontent', rfl, -, hfits⟩ :=
    storageInsert_lineFits_iff hclean hsuccess
  obtain rfl : bytes "data/t.csv" = path := Option.some.inj hpath
  have hcontent : content' = bytes "id,a\n7,\"\"\"\"\n" :=
    Option.some.inj (hcontent'.symm.trans (by decide +kernel))
  have hrow : storageInsertValues [] insertQuote = [bytes "7", bytes "\""] := by decide +kernel
  have hroom : RoomForRow [] (storageInsertValues [] insertQuote) :=
    roomForRow_nil (by decide +kernel)
  rw [← hcontent, ← hrow]
  exact hfits.mpr hroom

/-- A row of 32 values full of double quotes takes 16416 bytes. -/
theorem storageInsert_lineFits_quotes :
    ¬ ∀ (files files' : Files) (tableName : CString) (stmt : InsertStatement),
      (∀ v ∈ stmt.values, NoLineBreak v.val) →
      storageInsert files tableName stmt = (files', .success) →
      ∀ path, storageBuildPath tableName = some path →
        LineFits ((files' path).getD []) (storageInsertValues ((files path).getD []) stmt) := by
  intro h
  have hclean : ∀ v ∈ insertQuotes.values, NoLineBreak v.val := by
    intro v hv
    obtain rfl := List.eq_of_mem_replicate hv
    unfold NoLineBreak
    decide +kernel
  have hfits := h (fun _ => none) _ (bytes "t") insertQuotes hclean
    (Prod.ext rfl (by decide +kernel)) _ rfl
  have hlength := hfits.1
  rw [length_storageWriteCsvRow (by decide +kernel)] at hlength
  exact absurd hlength (by decide +kernel)

end MiniDbms
