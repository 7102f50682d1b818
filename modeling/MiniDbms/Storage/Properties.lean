import MiniDbms.Storage.Basic

/-!
# What a table file loads to
-/

namespace MiniDbms

lemma storageParseRow_length {colCount : Nat} {raw : CString} {fields : List CString}
    (h : storageParseRow colCount raw = some (some fields)) : fields.length = colCount := by
  unfold storageParseRow at h
  dsimp only at h
  split_ifs at h
  · cases h
  · split at h
    · cases h
    · split_ifs at h with hcount
      cases h
      simpa using hcount

lemma storageLoadRows_length {colCount offset : Nat} {lines : List CString}
    {rows : List (List CString)} {offsets : List Nat}
    (h : storageLoadRows colCount offset lines = some (rows, offsets)) :
    ∀ row ∈ rows, row.length = colCount := by
  induction lines generalizing offset rows offsets with
  | nil =>
    cases h
    simp
  | cons raw lines ih =>
    rw [storageLoadRows, Option.bind_eq_bind, Option.bind_eq_some_iff] at h
    obtain ⟨parsed, hparsed, h⟩ := h
    cases parsed with
    | none => exact ih h
    | some fields =>
      obtain ⟨⟨rows', offsets'⟩, hrest, ⟨⟩⟩ := Option.bind_eq_some_iff.mp h
      intro row hrow
      rcases List.mem_cons.mp hrow with rfl | hrow
      · exact storageParseRow_length hparsed
      · exact ih hrest row hrow

lemma storageCopyColumns_length {names : List CString} {columns : List Identifier}
    (h : storageCopyColumns names = some columns) : columns.length = names.length := by
  induction names generalizing columns with
  | nil =>
    cases h
    rfl
  | cons name names ih =>
    rw [storageCopyColumns] at h
    split at h
    · obtain ⟨rest, hrest, rfl⟩ := Option.map_eq_some_iff.mp h
      simp [ih hrest]
    · cases h

/-- The header is read from the first line alone. -/
lemma storageReadHeader_congr {content content' : CString} (hne : content ≠ [])
    (hne' : content' ≠ [])
    (h : (fgets csvLineRoom content').1 = (fgets csvLineRoom content).1) :
    storageReadHeader content' =
      (storageReadHeader content).map fun p => (p.1, (fgets csvLineRoom content').2) := by
  rw [storageReadHeader, storageReadHeader, if_neg (by simpa using hne'),
    if_neg (by simpa using hne)]
  dsimp only
  rw [h]
  split_ifs
  · rfl
  · cases storageParseCsvLine (cView (fgets csvLineRoom content).1) with
    | none => rfl
    | some parsed =>
      rw [Option.bind_eq_bind, Option.bind_some, Option.bind_eq_bind, Option.bind_some]
      split_ifs
      · rfl
      · cases storageCopyColumns parsed with
        | none => rfl
        | some columns => rfl

lemma storageReadHeader_short {content : CString} (hne : content ≠ [])
    (h : storageReadHeader content ≠ none) :
    csvLineTooLong (fgets csvLineRoom content).1 = false := by
  by_contra hlong
  rw [storageReadHeader, if_neg (by simpa using hne)] at h
  exact h (if_pos (by simpa using hlong))

lemma storageReadHeader_rest {content stream : CString} {columns : List Identifier}
    (hne : content ≠ []) (h : storageReadHeader content = some (columns, stream)) :
    stream = (fgets csvLineRoom content).2 := by
  have hself := storageReadHeader_congr hne hne rfl
  rw [h] at hself
  exact congrArg Prod.snd (Option.some.inj hself)

end MiniDbms
