import MiniDbms.Storage.TableText

/-!
# The diagnostics of the loops over the rows

Three loops read the rows of a file line by line: the load, the search for the next id and the check
of a new id. They find the same faults with a line, in the same order, and each one more with a row
that the line gives; the first fault ends the loop with its message.
-/

namespace MiniDbms

/-- What ends a loop over the rows. -/
inductive RowFault
  /-- `CSV row is too long.` -/
  | tooLong
  /-- `Malformed CSV line.` -/
  | malformed
  /-- `Corrupted row in table '%s'.` -/
  | corrupted
  /-- `Failed to allocate memory.` -/
  | noMemory
  /-- `Auto-increment requires integer values in column 'id'.` -/
  | noInteger
  /-- `Duplicate primary key value '%s' for column 'id'.` -/
  | duplicate
  deriving DecidableEq, Repr

/-- The loops of `storage_load_table_from_fp`, `storage_get_next_auto_id` and, for a new id,
`storage_validate_primary_key`. -/
inductive RowScan
  | load
  | nextId (idIndex : Nat)
  | unique (idIndex : Nat) (id : Value)

/-- The fault that a loop finds with a row, `count` rows having been read before. -/
def RowScan.rowFault : RowScan → (count : Nat) → (fields : List CString) → Option RowFault
  | .load, count, _              => if rowArrayHolds (count + 1) then none else some .noMemory
  | .nextId idIndex, _, fields   =>
    if utilsIsInteger (fields.getD idIndex []) then none else some .noInteger
  | .unique idIndex id, _, fields =>
    if strcmp (fields.getD idIndex []) id.val = 0 then some .duplicate else none

/-- The fault that ends a loop over these lines, `count` rows having been read before. -/
def storageScanFault (scan : RowScan) (colCount : Nat) :
    (count : Nat) → List CString → Option RowFault
  | _, []               => none
  | count, raw :: lines =>
    let line := cView raw
    if csvLineTooLong raw then some .tooLong
    else if line.head? = some (chr '\n') ∨ line.head? = some (chr '\r') then
      storageScanFault scan colCount count lines
    else
      match storageParseCsvLine line with
      | none        => some .malformed
      | some fields =>
        if fields.length ≠ colCount then some .corrupted
        else
          match scan.rowFault count fields with
          | some fault => some fault
          | none       => storageScanFault scan colCount (count + 1) lines

/-- The loops that go over the rows of a file with these columns. -/
def RowScan.On (columns : List Identifier) : RowScan → Prop
  | .load              => True
  | .nextId idIndex    => storageFindColumnIndex columns (bytes "id") = some idIndex
  | .unique idIndex id =>
    storageFindColumnIndex columns (bytes "id") = some idIndex ∧ id.val ≠ []

/-- Some loop ends with the message that a row is too long. -/
def RejectsLongRow (content : CString) : Prop :=
  ∃ columns stream scan, storageReadHeader content = some (columns, stream) ∧
    RowScan.On columns scan ∧
    storageScanFault scan columns.length 0 (storageLines stream) = some .tooLong

lemma not_rejectsLongRow_iff {content stream : CString} {columns : List Identifier}
    (h : storageReadHeader content = some (columns, stream)) :
    ¬ RejectsLongRow content ↔ ∀ scan, RowScan.On columns scan →
      storageScanFault scan columns.length 0 (storageLines stream) ≠ some .tooLong := by
  constructor
  · intro hnot scan hon hlong
    exact hnot ⟨columns, stream, scan, h, hon, hlong⟩
  · rintro hall ⟨columns', stream', scan, h', hon, hlong⟩
    obtain ⟨rfl, rfl⟩ := Prod.mk.inj (Option.some.inj (h.symm.trans h'))
    exact hall scan hon hlong

/-! ### One line -/

section Line

variable {scan : RowScan} {colCount count : Nat} {raw : CString} {lines : List CString}

lemma RowScan.rowFault_ne_tooLong (scan : RowScan) (count : Nat) (fields : List CString) :
    scan.rowFault count fields ≠ some .tooLong := by
  cases scan <;> (simp only [RowScan.rowFault]; split_ifs <;> simp)

/-- A loop ends with a line that it finds too long, finds another fault with the line, or goes on. -/
lemma storageScanFault_cons (scan : RowScan) (colCount count : Nat) (raw : CString) :
    (csvLineTooLong raw = true ∧
        ∀ lines, storageScanFault scan colCount count (raw :: lines) = some .tooLong) ∨
      (csvLineTooLong raw = false ∧ ∃ fault, fault ≠ .tooLong ∧
        ∀ lines, storageScanFault scan colCount count (raw :: lines) = some fault) ∨
      (csvLineTooLong raw = false ∧ ∃ count', ∀ lines,
        storageScanFault scan colCount count (raw :: lines) =
          storageScanFault scan colCount count' lines) := by
  cases hlong : csvLineTooLong raw with
  | true => exact .inl ⟨rfl, fun lines => by rw [storageScanFault, if_pos hlong]⟩
  | false =>
    right
    by_cases hskip : (cView raw).head? = some (chr '\n') ∨ (cView raw).head? = some (chr '\r')
    · refine .inr ⟨rfl, count, fun lines => ?_⟩
      rw [storageScanFault, if_neg (by simp [hlong]), if_pos hskip]
    cases hparse : storageParseCsvLine (cView raw) with
    | none =>
      refine .inl ⟨rfl, .malformed, by simp, fun lines => ?_⟩
      simp [storageScanFault, hlong, hskip, hparse]
    | some fields =>
      by_cases hcount : fields.length = colCount
      · cases hrow : scan.rowFault count fields with
        | none =>
          refine .inr ⟨rfl, count + 1, fun lines => ?_⟩
          simp [storageScanFault, hlong, hskip, hparse, hcount, hrow]
        | some fault =>
          refine .inl ⟨rfl, fault, fun hfault => ?_, fun lines => ?_⟩
          · exact scan.rowFault_ne_tooLong count fields (hfault ▸ hrow)
          · simp [storageScanFault, hlong, hskip, hparse, hcount, hrow]
      · refine .inl ⟨rfl, .corrupted, by simp, fun lines => ?_⟩
        simp [storageScanFault, hlong, hskip, hparse, hcount]

lemma storageScanFault_tooLong (hlong : csvLineTooLong raw = true) :
    storageScanFault scan colCount count (raw :: lines) = some .tooLong := by
  rw [storageScanFault, if_pos hlong]

/-- Lines that are short enough are never found too long. -/
lemma storageScanFault_ne_tooLong (h : ∀ raw ∈ lines, csvLineTooLong raw = false) :
    storageScanFault scan colCount count lines ≠ some .tooLong := by
  induction lines generalizing count with
  | nil => simp [storageScanFault]
  | cons raw lines ih =>
    rw [List.forall_mem_cons] at h
    rcases storageScanFault_cons scan colCount count raw with
      ⟨hlong, -⟩ | ⟨-, fault, hfault, heq⟩ | ⟨-, count', heq⟩
    · rw [h.1] at hlong
      cases hlong
    · rw [heq]
      simpa using hfault
    · rw [heq]
      exact ih h.2

lemma storageScanFault_singleton :
    storageScanFault scan colCount count [raw] = some .tooLong ↔ csvLineTooLong raw = true := by
  constructor
  · intro h
    by_contra hshort
    exact storageScanFault_ne_tooLong (by simpa using hshort) h
  · exact storageScanFault_tooLong

/-- A loop that has not ended with the first lines goes on with the others, from a number of rows
that does not depend on them. -/
lemma storageScanFault_append (scan : RowScan) (colCount count : Nat) (lines : List CString) :
    (∃ fault, ∀ more, storageScanFault scan colCount count (lines ++ more) = some fault) ∨
      storageScanFault scan colCount count lines = none ∧ ∃ count', ∀ more,
        storageScanFault scan colCount count (lines ++ more) =
          storageScanFault scan colCount count' more := by
  induction lines generalizing count with
  | nil => exact .inr ⟨rfl, count, fun more => rfl⟩
  | cons raw lines ih =>
    rcases storageScanFault_cons scan colCount count raw with
      ⟨-, heq⟩ | ⟨-, fault, -, heq⟩ | ⟨-, count', heq⟩
    · exact .inl ⟨_, fun more => heq (lines ++ more)⟩
    · exact .inl ⟨_, fun more => heq (lines ++ more)⟩
    · rcases ih count' with ⟨fault, hfault⟩ | ⟨hnone, count'', hmore⟩
      · exact .inl ⟨fault, fun more => (heq (lines ++ more)).trans (hfault more)⟩
      · exact .inr ⟨(heq lines).trans hnone, count'',
          fun more => (heq (lines ++ more)).trans (hmore more)⟩

/-- A loop that ends without a fault has found no line too long. -/
lemma csvLineTooLong_of_scanFault (h : storageScanFault scan colCount count lines = none) :
    ∀ raw ∈ lines, csvLineTooLong raw = false := by
  induction lines generalizing count with
  | nil => simp
  | cons raw lines ih =>
    rcases storageScanFault_cons scan colCount count raw with
      ⟨-, heq⟩ | ⟨-, fault, -, heq⟩ | ⟨hshort, count', heq⟩
    · rw [heq] at h
      cases h
    · rw [heq] at h
      cases h
    · rw [heq] at h
      exact List.forall_mem_cons.mpr ⟨hshort, ih h⟩

lemma storageScanFault_dropLast (h : storageScanFault scan colCount count lines = none) :
    storageScanFault scan colCount count lines.dropLast = none := by
  rcases storageScanFault_append scan colCount count lines.dropLast with ⟨fault, hfault⟩ | ⟨hnone, -⟩
  · rcases List.eq_nil_or_concat lines with rfl | ⟨before, last, rfl⟩
    · exact h
    · rw [List.concat_eq_append, List.dropLast_concat] at hfault ⊢
      rw [List.concat_eq_append, hfault] at h
      cases h
  · exact hnone

end Line

/-! ### The three loops -/

section Loops

variable {colCount : Nat} {lines : List CString}

/-- The search for the next id fails with one of the faults. -/
lemma storageNextId_isSome_iff {idIndex count : Nat} {nextId : Int} :
    (storageNextId colCount idIndex nextId lines).isSome = true ↔
      storageScanFault (.nextId idIndex) colCount count lines = none := by
  induction lines generalizing nextId count with
  | nil => simp [storageNextId, storageScanFault]
  | cons raw lines ih =>
    rw [storageNextId, storageScanFault, storageParseRow]
    dsimp only
    split_ifs with hlong hskip
    · simp
    · exact ih
    · cases storageParseCsvLine (cView raw) with
      | none => simp
      | some fields =>
        by_cases hcount : fields.length = colCount
        · simp only [hcount, ne_eq, not_true_eq_false, if_false, RowScan.rowFault]
          by_cases hint : utilsIsInteger (fields.getD idIndex []) = true
          · rw [if_pos hint, if_pos hint]
            exact ih
          · rw [if_neg hint, if_neg hint]
            simp
        · simp [hcount]

/-- The check of a new id fails with one of the faults. -/
lemma storageCheckUnique_success_iff {idIndex count : Nat} {id : Value} :
    storageCheckUnique colCount idIndex id.val lines = .success ↔
      storageScanFault (.unique idIndex id) colCount count lines = none := by
  induction lines generalizing count with
  | nil => simp [storageCheckUnique, storageScanFault]
  | cons raw lines ih =>
    simp only [storageCheckUnique, storageScanFault, storageParseRow]
    split_ifs with hlong hskip
    · simp
    · exact ih
    · cases storageParseCsvLine (cView raw) with
      | none => simp
      | some fields =>
        by_cases hcount : fields.length = colCount
        · simp only [hcount, ne_eq, not_true_eq_false, if_false, RowScan.rowFault]
          by_cases hsame : strcmp (fields.getD idIndex []) id.val = 0
          · rw [if_pos hsame, if_pos hsame]
            simp
          · rw [if_neg hsame, if_neg hsame]
            exact ih
        · simp [hcount]

/-- The loop of the load fails with one of the faults. -/
lemma storageLoadRows_isSome_iff {offset count : Nat} (hcount : count ≤ 2 ^ 30) :
    (∃ rows offsets, storageLoadRows colCount offset lines = some (rows, offsets) ∧
        count + rows.length ≤ 2 ^ 30) ↔
      storageScanFault .load colCount count lines = none := by
  induction lines generalizing offset count with
  | nil => simpa [storageLoadRows, storageScanFault] using hcount
  | cons raw lines ih =>
    rw [storageLoadRows, storageScanFault, storageParseRow]
    dsimp only
    split_ifs with hlong hskip
    · simp
    · exact ih hcount
    · cases storageParseCsvLine (cView raw) with
      | none => simp
      | some fields =>
        by_cases hlength : fields.length = colCount
        · simp only [hlength, ne_eq, not_true_eq_false, if_false, RowScan.rowFault,
            Option.bind_eq_bind, Option.bind_some]
          by_cases hroom : rowArrayHolds (count + 1) = true
          · rw [if_pos hroom, ← ih (rowArrayHolds_iff.mp hroom)]
            constructor
            · rintro ⟨rows, offsets, hload, hle⟩
              obtain ⟨⟨rows', offsets'⟩, hrest, ⟨⟩⟩ := Option.bind_eq_some_iff.mp hload
              refine ⟨rows', offsets', hrest, ?_⟩
              simp only [List.length_cons] at hle
              omega
            · rintro ⟨rows, offsets, hload, hle⟩
              refine ⟨_, _, Option.bind_eq_some_iff.mpr ⟨_, hload, rfl⟩, ?_⟩
              simp only [List.length_cons]
              omega
          · rw [if_neg hroom]
            rw [rowArrayHolds_iff] at hroom
            constructor
            · rintro ⟨rows, offsets, hload, hle⟩
              obtain ⟨⟨rows', offsets'⟩, hrest, ⟨⟩⟩ := Option.bind_eq_some_iff.mp hload
              rw [List.length_cons] at hle
              omega
            · simp
        · simp [hlength]

end Loops

/-- A file loads if its header is read and the loop finds no fault. -/
lemma storageLoadTableFromFp_isSome_iff {content : CString} :
    (storageLoadTableFromFp content).isSome = true ↔ ∃ columns stream,
      storageReadHeader content = some (columns, stream) ∧
      storageScanFault .load columns.length 0 (storageLines stream) = none := by
  rw [Option.isSome_iff_exists]
  constructor
  · rintro ⟨table, htable⟩
    obtain ⟨stream, hheader, hload, hroom⟩ := storageLoadTableFromFp_eq_some.mp htable
    refine ⟨_, stream, hheader, (storageLoadRows_isSome_iff (Nat.zero_le _)).mp ⟨_, _, hload, ?_⟩⟩
    rwa [Nat.zero_add]
  · rintro ⟨columns, stream, hheader, hnone⟩
    obtain ⟨rows, offsets, hload, hroom⟩ :=
      (@storageLoadRows_isSome_iff _ _ (content.length - stream.length) _ (Nat.zero_le _)).mpr hnone
    rw [Nat.zero_add] at hroom
    exact ⟨⟨columns, rows, offsets⟩,
      storageLoadTableFromFp_eq_some.mpr ⟨stream, hheader, hload, hroom⟩⟩

/-- A file that loads has no row that a loop rejects for its length. -/
lemma not_rejectsLongRow_of_load {content : CString}
    (h : (storageLoadTableFromFp content).isSome = true) : ¬ RejectsLongRow content := by
  obtain ⟨columns, stream, hheader, hnone⟩ := storageLoadTableFromFp_isSome_iff.mp h
  rw [not_rejectsLongRow_iff hheader]
  exact fun scan _ => storageScanFault_ne_tooLong (csvLineTooLong_of_scanFault hnone)

end MiniDbms
