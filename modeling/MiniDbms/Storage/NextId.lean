import MiniDbms.Common.Comparison
import MiniDbms.Storage.Effects

/-!
# The next id

`storage_get_next_auto_id` keeps its next id above every id it has read. The sum that does this does
not fit into a `long long` when it has read the greatest one, which also stands for every id beyond.
-/

namespace MiniDbms

/-- The ids in the rows of some lines. -/
def storageIds (colCount idIndex : Nat) (lines : List CString) : List CString :=
  lines.filterMap fun raw => (storageParseRow colCount raw).join.map fun row => row.getD idIndex []

/-- The sums `current_id + 1` that the loop of `storage_get_next_auto_id` computes, before they are
stored in a `long long`. -/
def storageNextIdSums (colCount idIndex : Nat) (nextId : Int) : List CString → List Int
  | []           => []
  | raw :: lines =>
    match storageParseRow colCount raw with
    | none               => []
    | some none          => storageNextIdSums colCount idIndex nextId lines
    | some (some fields) =>
      let id := fields.getD idIndex []
      if utilsIsInteger id then
        let currentId := utilsParseInteger id
        if currentId ≥ nextId then
          (currentId + 1) ::
            storageNextIdSums colCount idIndex (wrapLongLong (currentId + 1)) lines
        else storageNextIdSums colCount idIndex nextId lines
      else []

/-- The sums of a whole call. -/
def storageAutoIdSums (stream : CString) (columns : List Identifier) : List Int :=
  match storageFindColumnIndex columns (bytes "id") with
  | none         => []
  | some idIndex => storageNextIdSums columns.length idIndex 1 (storageLines stream)

/-- The ids in the rows of a stream. -/
def storageStreamIds (stream : CString) (columns : List Identifier) : List CString :=
  match storageFindColumnIndex columns (bytes "id") with
  | none         => []
  | some idIndex => storageIds columns.length idIndex (storageLines stream)

/-! ### Numbers -/

lemma wrapLongLong_le (n : Int) : wrapLongLong n ≤ llongMax := by
  rw [wrapLongLong, Int.bmod_def, llongMax]
  split_ifs <;> omega

lemma wrapLongLong_eq {n : Int} (hmin : llongMin ≤ n) (hmax : n ≤ llongMax) :
    wrapLongLong n = n := by
  rw [llongMin] at hmin
  rw [llongMax] at hmax
  rw [wrapLongLong, Int.bmod_def]
  split_ifs <;> omega

/-- Below the greatest `long long`, what is parsed is not below the integer. -/
lemma literalValue_le_parse {id : CString} (hint : utilsIsInteger id = true)
    (hmax : literalValue id < llongMax) :
    literalValue id ≤ utilsParseInteger id ∧ utilsParseInteger id < llongMax := by
  rw [utilsParseInteger_eq hint]
  unfold llongMax at hmax ⊢
  unfold saturateLongLong
  omega

lemma utilsParseInteger_max {id : CString} (hint : utilsIsInteger id = true)
    (hmax : llongMax ≤ literalValue id) : utilsParseInteger id = llongMax := by
  rw [utilsParseInteger_eq hint]
  unfold llongMax at hmax ⊢
  unfold saturateLongLong
  omega

lemma literalValue_printInt {n : Int} (h : 0 ≤ n) : literalValue (printInt n) = n := by
  obtain ⟨b, bs, hbs⟩ := List.exists_cons_of_ne_nil (natDigits_ne_nil n.natAbs)
  have hdigits : ∀ c ∈ b :: bs, isdigit c = true := hbs ▸ isdigit_of_mem_natDigits
  have hb := isdigit_facts (hdigits b List.mem_cons_self)
  have hvalue := digitsValue_natDigits n.natAbs
  rw [hbs, digitsValue_eq (List.all_eq_true.mpr hdigits)] at hvalue
  rw [printInt, if_neg (by omega), hbs, literalValue, if_neg hb.2.1, if_neg hb.2.2.1, hvalue]
  omega

/-! ### The loop -/

variable {n i : Nat} {next r : Int} {raw : CString} {lines : List CString}

/-- A line that is read without error is skipped, or adds an id. -/
lemma storageNextId_cons (h : storageNextId n i next (raw :: lines) = some r) :
    (storageIds n i (raw :: lines) = storageIds n i lines ∧
      storageNextIdSums n i next (raw :: lines) = storageNextIdSums n i next lines ∧
      storageNextId n i next lines = some r) ∨
    ∃ id, utilsIsInteger id = true ∧ storageIds n i (raw :: lines) = id :: storageIds n i lines ∧
      ((utilsParseInteger id < next ∧ storageNextId n i next lines = some r ∧
        storageNextIdSums n i next (raw :: lines) = storageNextIdSums n i next lines) ∨
      (next ≤ utilsParseInteger id ∧
        storageNextId n i (wrapLongLong (utilsParseInteger id + 1)) lines = some r ∧
        storageNextIdSums n i next (raw :: lines) = (utilsParseInteger id + 1) ::
          storageNextIdSums n i (wrapLongLong (utilsParseInteger id + 1)) lines)) := by
  rw [storageNextId] at h
  cases hparse : storageParseRow n raw with
  | none => simp [hparse] at h
  | some parsed =>
    cases parsed with
    | none =>
      rw [hparse] at h
      exact .inl ⟨by simp [storageIds, hparse], by simp [storageNextIdSums, hparse], h⟩
    | some fields =>
      simp only [hparse] at h
      by_cases hint : utilsIsInteger (fields.getD i []) = true
      · rw [if_pos hint] at h
        refine .inr ⟨fields.getD i [], hint, by simp [storageIds, hparse], ?_⟩
        by_cases hge : utilsParseInteger (fields.getD i []) ≥ next
        · rw [if_pos hge] at h
          refine .inr ⟨hge, h, ?_⟩
          rw [storageNextIdSums, hparse]
          dsimp only
          rw [if_pos hint, if_pos hge]
        · rw [if_neg hge] at h
          refine .inl ⟨not_le.mp hge, h, ?_⟩
          rw [storageNextIdSums, hparse]
          dsimp only
          rw [if_pos hint, if_neg hge]
      · rw [if_neg hint] at h
        cases h

/-- Ids below the greatest `long long` leave the next one above them, and no sum overflows. -/
lemma storageNextId_fresh (h : storageNextId n i next lines = some r)
    (hids : ∀ id ∈ storageIds n i lines, literalValue id < llongMax) (hpos : 0 < next) :
    next ≤ r ∧ (∀ id ∈ storageIds n i lines, literalValue id < r) ∧
      ∀ m ∈ storageNextIdSums n i next lines, llongMin ≤ m ∧ m ≤ llongMax := by
  induction lines generalizing next with
  | nil =>
    cases h
    simp [storageIds, storageNextIdSums]
  | cons raw lines ih =>
    obtain ⟨heq, hsums, hrest⟩ | ⟨id, hint, heq, hrest⟩ := storageNextId_cons h
    · rw [heq, hsums]
      exact ih hrest (heq ▸ hids) hpos
    · rw [heq] at hids ⊢
      obtain ⟨hid, hids⟩ := List.forall_mem_cons.mp hids
      obtain ⟨hle, hlt⟩ := literalValue_le_parse hint hid
      obtain ⟨hbelow, hrest, hsums⟩ | ⟨habove, hrest, hsums⟩ := hrest
      · obtain ⟨hnext, hfresh, hsum⟩ := ih hrest hids hpos
        rw [hsums]
        exact ⟨hnext, List.forall_mem_cons.mpr ⟨by omega, hfresh⟩, hsum⟩
      · have hmin : llongMin ≤ utilsParseInteger id + 1 := by
          unfold llongMin
          omega
        rw [wrapLongLong_eq hmin hlt] at hrest hsums
        obtain ⟨hnext, hfresh, hsum⟩ := ih hrest hids (by omega)
        rw [hsums]
        exact ⟨by omega, List.forall_mem_cons.mpr ⟨by omega, hfresh⟩,
          List.forall_mem_cons.mpr ⟨⟨hmin, hlt⟩, hsum⟩⟩

/-- An id at or beyond the greatest `long long` makes a sum overflow, wherever it stands. -/
lemma storageNextId_overflow (h : storageNextId n i next lines = some r) (hnext : next ≤ llongMax)
    {id : CString} (hid : id ∈ storageIds n i lines) (hmax : llongMax ≤ literalValue id) :
    ∃ m ∈ storageNextIdSums n i next lines, llongMax < m := by
  induction lines generalizing next with
  | nil => simp [storageIds] at hid
  | cons raw lines ih =>
    obtain ⟨heq, hsums, hrest⟩ | ⟨id', hint, heq, hrest⟩ := storageNextId_cons h
    · rw [hsums]
      exact ih hrest hnext (heq ▸ hid)
    · rw [heq] at hid
      obtain ⟨hbelow, hrest, hsums⟩ | ⟨habove, hrest, hsums⟩ := hrest
      · rw [hsums]
        rcases List.mem_cons.mp hid with rfl | hid
        · have := utilsParseInteger_max hint hmax
          omega
        · exact ih hrest hnext hid
      · rw [hsums]
        rcases List.mem_cons.mp hid with rfl | hid
        · refine ⟨_, List.mem_cons_self, ?_⟩
          rw [utilsParseInteger_max hint hmax]
          exact lt_add_one llongMax
        · obtain ⟨m, hm, hlt⟩ := ih hrest (wrapLongLong_le _) hid
          exact ⟨m, List.mem_cons_of_mem _ hm, hlt⟩

/-- No sum overflows and the id is new, above every id in the file, unless the file has an id at or
beyond the greatest `long long`. -/
theorem storageGetNextAutoId_fresh_iff {stream autoId : CString} {columns : List Identifier}
    (h : storageGetNextAutoId stream columns = some autoId) :
    ((∀ m ∈ storageAutoIdSums stream columns, llongMin ≤ m ∧ m ≤ llongMax) ∧
        0 < literalValue autoId ∧
        ∀ id ∈ storageStreamIds stream columns, literalValue id < literalValue autoId) ↔
      ∀ id ∈ storageStreamIds stream columns, literalValue id < llongMax := by
  obtain ⟨i, r, hfind, hnext, rfl⟩ := storageGetNextAutoId_some h
  simp only [storageAutoIdSums, storageStreamIds, hfind]
  constructor
  · rintro ⟨hsums, -, -⟩ id hid
    by_contra hmax
    obtain ⟨m, hm, hlt⟩ := storageNextId_overflow hnext (by decide) hid (not_lt.mp hmax)
    exact absurd (hsums m hm).2 (not_le.mpr hlt)
  · intro hids
    obtain ⟨hle, hfresh, hsums⟩ := storageNextId_fresh hnext hids zero_lt_one
    rw [literalValue_printInt (by omega)]
    exact ⟨hsums, by omega, hfresh⟩

/-- The ids 7 and -3 are followed by 8. -/
theorem storageGetNextAutoId_fresh_eight :
    (∀ m ∈ storageAutoIdSums (bytes "7\n-3\n") [identifier "id"], llongMin ≤ m ∧ m ≤ llongMax) ∧
      0 < literalValue (bytes "8") ∧
      ∀ id ∈ storageStreamIds (bytes "7\n-3\n") [identifier "id"],
        literalValue id < literalValue (bytes "8") :=
  (storageGetNextAutoId_fresh_iff (by decide +kernel)).mpr (by decide +kernel)

/-- The greatest `long long` is followed by the least one. -/
theorem storageGetNextAutoId_fresh_max :
    ¬ ∀ (stream autoId : CString) (columns : List Identifier),
      storageGetNextAutoId stream columns = some autoId →
        (∀ m ∈ storageAutoIdSums stream columns, llongMin ≤ m ∧ m ≤ llongMax) ∧
          0 < literalValue autoId ∧
          ∀ id ∈ storageStreamIds stream columns, literalValue id < literalValue autoId := by
  intro h
  have hpos := (h (bytes "9223372036854775807\n") (bytes "-9223372036854775808")
    [identifier "id"] (by decide +kernel)).2.1
  exact absurd hpos (by decide +kernel)

end MiniDbms
