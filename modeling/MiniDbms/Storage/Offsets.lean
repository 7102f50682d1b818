import MiniDbms.Storage.Basic

/-!
# Rows by their offsets

The loader keeps the offset at which it began to read every row, blank lines being passed over, and
a row is read back from its offset without the header and the lines before it.
-/

namespace MiniDbms

/-- `storage_read_row_at_offset`. A seek to a negative offset fails; one beyond the end of the file
does not, but then there is nothing to read. -/
def storageReadRowAtOffset (files : Files) (tableName : CString)
    (offset expectedColCount : Int) : Option (List CString) := do
  let path ← storageBuildPath tableName
  let content ← files path
  if offset < 0 then none
  else
    let stream := content.drop offset.toNat
    if stream.isEmpty then none
    else do
      let parsed ← storageParseCsvLine (cView (fgets csvLineRoom stream).1)
      if expectedColCount ≥ 0 ∧ (parsed.length : Int) ≠ expectedColCount then none
      else return parsed

/-! ### Where the rows begin -/

/-- At this offset of the file there is a line that holds the row. -/
structure RowAt (content : CString) (colCount offset : Nat) (row : List CString) : Prop where
  not_end : content.drop offset ≠ []
  line : storageParseRow colCount (fgets csvLineRoom (content.drop offset)).1 = some (some row)

lemma storageParseRow_some {colCount : Nat} {raw : CString} {row : List CString}
    (h : storageParseRow colCount raw = some (some row)) :
    storageParseCsvLine (cView raw) = some row ∧ row.length = colCount := by
  unfold storageParseRow at h
  dsimp only at h
  split_ifs at h
  · cases h
  · cases hparse : storageParseCsvLine (cView raw) with
    | none =>
      rw [hparse] at h
      cases h
    | some fields =>
      rw [hparse] at h
      dsimp only at h
      split_ifs at h with hcount
      cases h
      exact ⟨rfl, not_not.mp hcount⟩

/-- Of the lines of what is left of a file, every row that is kept has its own offset. -/
lemma storageLoadRows_rowAt {content rest : CString} {colCount fuel offset : Nat}
    {rows : List (List CString)} {offsets : List Nat} (hrest : content.drop offset = rest)
    (h : storageLoadRows colCount offset (readLines csvLineRoom fuel rest) =
      some (rows, offsets)) :
    List.Forall₂ (RowAt content colCount) offsets rows := by
  induction fuel generalizing offset rest rows offsets with
  | zero =>
    have hlines : readLines csvLineRoom 0 rest = [] := by cases rest <;> rfl
    rw [hlines] at h
    cases h
    exact .nil
  | succ fuel ih =>
    cases rest with
    | nil =>
      cases h
      exact .nil
    | cons b s =>
      rw [readLines, storageLoadRows, Option.bind_eq_bind, Option.bind_eq_some_iff] at h
      obtain ⟨parsed, hparsed, h⟩ := h
      -- the next line begins behind this one
      have hnext : content.drop (offset + (fgets csvLineRoom (b :: s)).1.length) =
          (fgets csvLineRoom (b :: s)).2 := by
        rw [fgets_rest, ← hrest, List.drop_drop]
      cases parsed with
      | none => exact ih hnext h
      | some row =>
        obtain ⟨⟨rows', offsets'⟩, hmore, ⟨⟩⟩ := Option.bind_eq_some_iff.mp h
        refine .cons ⟨?_, ?_⟩ (ih hnext hmore)
        · rw [hrest]
          exact List.cons_ne_nil b s
        · rw [hrest]
          exact hparsed

/-- The rows begin behind the header. -/
lemma storageReadHeader_drop {content rest : CString} {columns : List Identifier}
    (h : storageReadHeader content = some (columns, rest)) :
    content.drop (content.length - rest.length) = rest := by
  unfold storageReadHeader at h
  split_ifs at h with hempty
  · cases h
    simp
  · dsimp only at h
    split_ifs at h
    obtain ⟨parsed, -, h⟩ := Option.bind_eq_some_iff.mp h
    split_ifs at h
    obtain ⟨columns', -, ⟨⟩⟩ := Option.bind_eq_some_iff.mp h
    have hlength := congrArg List.length (fgets_append csvLineRoom content)
    rw [List.length_append] at hlength
    have hline : content.length - (fgets csvLineRoom content).2.length =
        (fgets csvLineRoom content).1.length := by omega
    rw [hline, fgets_rest]

lemma storageLoadTableFromFp_rowAt {content : CString} {table : TableData}
    (h : storageLoadTableFromFp content = some table) :
    List.Forall₂ (RowAt content table.columns.length) table.offsets table.rows := by
  obtain ⟨rest, hheader, hrows, -⟩ := storageLoadTableFromFp_eq_some.mp h
  exact storageLoadRows_rowAt (storageReadHeader_drop hheader) hrows

/-- Such a line is read back. -/
lemma RowAt.read {files : Files} {tableName path content : CString} {colCount offset : Nat}
    {row : List CString} (h : RowAt content colCount offset row)
    (hpath : storageBuildPath tableName = some path) (hfile : files path = some content) :
    storageReadRowAtOffset files tableName offset colCount = some row := by
  obtain ⟨hparse, hcount⟩ := storageParseRow_some h.line
  have hoffset : ¬ (offset : Int) < 0 := by omega
  have hsame : ¬ ((colCount : Int) ≥ 0 ∧ (row.length : Int) ≠ colCount) := by simp [hcount]
  have hempty : ¬ (content.drop offset).isEmpty = true := by simpa using h.not_end
  rw [storageReadRowAtOffset, hpath, Option.bind_eq_bind, Option.bind_some, hfile,
    Option.bind_some, if_neg hoffset]
  dsimp only
  rw [Int.toNat_natCast, if_neg hempty, hparse, Option.bind_eq_bind, Option.bind_some,
    if_neg hsame]
  rfl

/-- Every row that is loaded is read back from its offset. -/
theorem storageReadRowAtOffset_loaded {files : Files} {tableName : CString} {table : TableData}
    (h : storageLoadTable files tableName = some table) :
    table.offsets.length = table.rows.length ∧
      ∀ (i : Nat) row, table.rows[i]? = some row → ∃ offset, table.offsets[i]? = some offset ∧
        storageReadRowAtOffset files tableName offset table.columns.length = some row := by
  obtain ⟨path, hpath, h⟩ := Option.bind_eq_some_iff.mp h
  obtain ⟨content, hfile, h⟩ := Option.bind_eq_some_iff.mp h
  have hrows := storageLoadTableFromFp_rowAt h
  refine ⟨hrows.length_eq, fun i row hrow => ?_⟩
  obtain ⟨hi, rfl⟩ := List.getElem?_eq_some_iff.mp hrow
  have hi' : i < table.offsets.length := hrows.length_eq ▸ hi
  exact ⟨_, List.getElem?_eq_getElem hi', (hrows.get hi' hi).read hpath hfile⟩

/-- Behind a blank line, and on a last line without a newline. -/
theorem storageReadRowAtOffset_loaded_two :
    let files : Files := fun _ => some (bytes "x,y\n\n1,a\r\n2,\"b,c\"")
    storageLoadTable files (bytes "t") = some
      ⟨[identifier "x", identifier "y"],
        [[bytes "1", bytes "a"], [bytes "2", bytes "b,c"]], [5, 10]⟩ ∧
    storageReadRowAtOffset files (bytes "t") 5 2 = some [bytes "1", bytes "a"] ∧
    storageReadRowAtOffset files (bytes "t") 10 2 = some [bytes "2", bytes "b,c"] := by
  intro files
  have hload : storageLoadTable files (bytes "t") = some
      ⟨[identifier "x", identifier "y"],
        [[bytes "1", bytes "a"], [bytes "2", bytes "b,c"]], [5, 10]⟩ := by
    decide +kernel
  obtain ⟨-, hread⟩ := storageReadRowAtOffset_loaded hload
  obtain ⟨_, ⟨⟩, hfirst⟩ := hread 0 _ rfl
  obtain ⟨_, ⟨⟩, hsecond⟩ := hread 1 _ rfl
  exact ⟨hload, hfirst, hsecond⟩

end MiniDbms
