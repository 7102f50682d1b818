import MiniDbms.Library.Stdio
import MiniDbms.Common.Utils

/-!
# The CSV rows of `storage.c`

Writing a row quotes the values that hold a comma, a quote or a line break. Reading it back takes
one physical line at a time, so that a value with a line break does not survive; every other row
does.
-/

namespace MiniDbms

/-- `MAX_CSV_LINE_LENGTH` less the terminating NUL: the bytes `fgets` may store. -/
def csvLineRoom : Nat := 16383

lemma csvLineRoom_pos : 0 < csvLineRoom := by decide

/-! ### Writing -/

/-- The test `needs_quotes` of `storage_write_csv_value`. -/
def csvNeedsQuotes (value : CString) : Bool :=
  value.any fun b => b == chr ',' || b == chr '"' || b == chr '\n' || b == chr '\r'

/-- The loop that writes a quoted value: quotes are doubled. -/
def csvQuoteBody : CString → CString
  | []         => []
  | b :: value => if b = chr '"' then chr '"' :: chr '"' :: csvQuoteBody value
    else b :: csvQuoteBody value

/-- `storage_write_csv_value` -/
def storageWriteCsvValue (value : CString) : CString :=
  if csvNeedsQuotes value then chr '"' :: (csvQuoteBody value ++ [chr '"']) else value

/-- The loop of `storage_write_csv_row`, with the comma before every value but the first. -/
def csvJoin : List CString → CString
  | []           => []
  | [v]          => storageWriteCsvValue v
  | v :: v' :: vs => storageWriteCsvValue v ++ chr ',' :: csvJoin (v' :: vs)

/-- `storage_write_csv_row` -/
def storageWriteCsvRow (values : List CString) : CString := csvJoin values ++ [chr '\n']

/-! ### Reading -/

/-- The loop of `storage_parse_csv_line`: the fields read so far, the field being read, and
whether it is inside quotes. -/
def csvScan (fields : List CString) (current : CString) : (inQuotes : Bool) → CString →
    Option (List CString)
  | true, []             => none
  | true, [b]            => if b = chr '"' then some (fields ++ [current]) else none
  | true, b :: c :: line =>
    if b = chr '"' then
      if c = chr '"' then csvScan fields (current ++ [chr '"']) true line
      else csvScan fields current false (c :: line)
    else if b = chr '\n' ∨ b = chr '\r' then none
    else csvScan fields (current ++ [b]) true (c :: line)
  | false, []            => some (fields ++ [current])
  | false, b :: line     =>
    if b = chr '"' then csvScan fields current true line
    else if b = chr ',' then csvScan (fields ++ [current]) [] false line
    else if b = chr '\n' ∨ b = chr '\r' then some (fields ++ [current])
    else csvScan fields (current ++ [b]) false line

/-- `storage_parse_csv_line`, `none` being `FAILURE`. -/
def storageParseCsvLine (line : CString) : Option (List CString) := csvScan [] [] false line

/-- A line has at least one field. -/
lemma csvScan_ne_nil {fields fs : List CString} {current line : CString} {inQuotes : Bool}
    (h : csvScan fields current inQuotes line = some fs) : fs ≠ [] := by
  fun_induction csvScan fields current inQuotes line
  case case2 | case8 | case11 =>
    cases h
    simp
  all_goals simp_all

/-! ### Reading back a row -/

/-- The bytes that no value may hold to survive. -/
def NoLineBreak (value : CString) : Prop := chr '\n' ∉ value ∧ chr '\r' ∉ value

instance (value : CString) : Decidable (NoLineBreak value) := by
  unfold NoLineBreak
  infer_instance

lemma csvScan_quoted {fields : List CString} {current value rest : CString}
    (hvalue : NoLineBreak value) (hrest : ∀ b ∈ rest.head?, b ≠ chr '"') :
    csvScan fields current true (csvQuoteBody value ++ chr '"' :: rest) =
      csvScan fields (current ++ value) false rest := by
  induction value generalizing current with
  | nil =>
    cases rest with
    | nil => simp [csvQuoteBody, csvScan]
    | cons b rest =>
      have hb : b ≠ chr '"' := hrest b rfl
      rw [csvQuoteBody, List.nil_append, csvScan, if_pos rfl, if_neg hb, List.append_nil]
  | cons b value ih =>
    have hvalue' : NoLineBreak value :=
      ⟨fun h => hvalue.1 (by simp [h]), fun h => hvalue.2 (by simp [h])⟩
    have hn : b ≠ chr '\n' := fun h => hvalue.1 (by simp [h])
    have hr : b ≠ chr '\r' := fun h => hvalue.2 (by simp [h])
    have htail := @ih (current ++ [b]) hvalue'
    by_cases hb : b = chr '"'
    · subst hb
      rw [csvQuoteBody, if_pos rfl, List.cons_append, List.cons_append, csvScan, if_pos rfl,
        if_pos rfl, htail, List.append_assoc, List.singleton_append]
    · -- the closing quote is still to come, so that the scan looks one byte ahead
      obtain ⟨c, text, hc⟩ : ∃ c text, csvQuoteBody value ++ chr '"' :: rest = c :: text :=
        List.exists_cons_of_ne_nil (by simp)
      rw [csvQuoteBody, if_neg hb, List.cons_append, hc, csvScan, if_neg hb,
        if_neg (by simp [hn, hr]), ← hc, htail, List.append_assoc, List.singleton_append]

lemma csvScan_plain {fields : List CString} {current value rest : CString}
    (hvalue : csvNeedsQuotes value = false) :
    csvScan fields current false (value ++ rest) =
      csvScan fields (current ++ value) false rest := by
  induction value generalizing current with
  | nil => simp
  | cons b value ih =>
    simp only [csvNeedsQuotes, List.any_cons, Bool.or_eq_false_iff, beq_eq_false_iff_ne] at hvalue
    obtain ⟨⟨⟨⟨hcomma, hquote⟩, hn⟩, hr⟩, hvalue⟩ := hvalue
    rw [List.cons_append, csvScan, if_neg hquote, if_neg hcomma, if_neg (by simp [hn, hr]),
      ih hvalue, List.append_assoc, List.singleton_append]

/-- A written value is read into the current field. -/
lemma csvScan_value {fields : List CString} {value rest : CString} (hvalue : NoLineBreak value)
    (hrest : ∀ b ∈ rest.head?, b ≠ chr '"') :
    csvScan fields [] false (storageWriteCsvValue value ++ rest) =
      csvScan fields value false rest := by
  unfold storageWriteCsvValue
  split_ifs with hquotes
  · rw [List.cons_append, csvScan, if_pos rfl, List.append_assoc, List.singleton_append,
      csvScan_quoted hvalue hrest, List.nil_append]
  · rw [csvScan_plain (by simpa using hquotes), List.nil_append]

lemma csvScan_join {fields : List CString} {values : List CString} (hne : values ≠ [])
    (hvalues : ∀ v ∈ values, NoLineBreak v) :
    csvScan fields [] false (csvJoin values ++ [chr '\n']) = some (fields ++ values) := by
  have hnewline : ∀ b ∈ [chr '\n'].head?, b ≠ chr '"' := by
    rintro _ ⟨⟩
    decide
  induction values generalizing fields with
  | nil => exact absurd rfl hne
  | cons v vs ih =>
    have hv : NoLineBreak v := hvalues v (by simp)
    cases vs with
    | nil =>
      rw [csvJoin, csvScan_value hv hnewline]
      simp +decide [csvScan]
    | cons v' vs =>
      have hcomma : ∀ b ∈ (chr ',' :: (csvJoin (v' :: vs) ++ [chr '\n'])).head?, b ≠ chr '"' := by
        rintro b ⟨⟩
        decide
      rw [csvJoin, List.append_assoc, List.cons_append, csvScan_value hv hcomma, csvScan,
        if_neg (by decide), if_pos rfl, ih (by simp) fun w hw => hvalues w (by simp [hw]),
        List.append_assoc, List.singleton_append]

/-- What `storage_write_csv_row` writes, `storage_parse_csv_line` reads back. -/
lemma storageParseCsvLine_writeCsvRow {values : List CString} (hne : values ≠ [])
    (hvalues : ∀ v ∈ values, NoLineBreak v) :
    storageParseCsvLine (storageWriteCsvRow values) = some values :=
  csvScan_join hne hvalues

/-! ### Rows that cannot be read back -/

/-- A line break inside quotes ends the scan. -/
lemma csvScan_quoted_lineBreak {fields : List CString} {current value rest : CString}
    (hvalue : ¬ NoLineBreak value) :
    csvScan fields current true (csvQuoteBody value ++ chr '"' :: rest) = none := by
  induction value generalizing current with
  | nil => exact absurd ⟨List.not_mem_nil, List.not_mem_nil⟩ hvalue
  | cons b value ih =>
    by_cases hquote : b = chr '"'
    · have hvalue' : ¬ NoLineBreak value := by
        intro h
        refine hvalue ⟨?_, ?_⟩
        · simpa +decide [hquote] using h.1
        · simpa +decide [hquote] using h.2
      subst hquote
      rw [csvQuoteBody, if_pos rfl, List.cons_append, List.cons_append, csvScan, if_pos rfl,
        if_pos rfl]
      exact ih hvalue'
    · obtain ⟨c, text, hc⟩ : ∃ c text, csvQuoteBody value ++ chr '"' :: rest = c :: text :=
        List.exists_cons_of_ne_nil (by simp)
      rw [csvQuoteBody, if_neg hquote, List.cons_append, hc, csvScan, if_neg hquote]
      by_cases hbreak : b = chr '\n' ∨ b = chr '\r'
      · exact if_pos hbreak
      · rw [if_neg hbreak, ← hc]
        rw [not_or] at hbreak
        apply ih
        intro h
        refine hvalue ⟨?_, ?_⟩
        · simpa [Ne.symm hbreak.1] using h.1
        · simpa [Ne.symm hbreak.2] using h.2

lemma csvNeedsQuotes_of_lineBreak {value : CString} (hvalue : ¬ NoLineBreak value) :
    csvNeedsQuotes value = true := by
  by_contra hquotes
  refine hvalue ⟨?_, ?_⟩
  all_goals
    intro hmem
    exact hquotes (List.any_eq_true.mpr ⟨_, hmem, by decide⟩)

lemma csvScan_value_lineBreak {fields : List CString} {value rest : CString}
    (hvalue : ¬ NoLineBreak value) :
    csvScan fields [] false (storageWriteCsvValue value ++ rest) = none := by
  rw [storageWriteCsvValue, if_pos (csvNeedsQuotes_of_lineBreak hvalue), List.cons_append, csvScan,
    if_pos rfl, List.append_assoc]
  exact csvScan_quoted_lineBreak hvalue

lemma csvScan_join_lineBreak {fields : List CString} {values : List CString}
    (hvalues : ∃ v ∈ values, ¬ NoLineBreak v) :
    csvScan fields [] false (csvJoin values ++ [chr '\n']) = none := by
  induction values generalizing fields with
  | nil =>
    obtain ⟨v, hv, -⟩ := hvalues
    cases hv
  | cons v vs ih =>
    cases vs with
    | nil =>
      have hv : ¬ NoLineBreak v := by simpa using hvalues
      exact csvScan_value_lineBreak hv
    | cons v' vs =>
      rw [csvJoin, List.append_assoc, List.cons_append]
      by_cases hv : NoLineBreak v
      · -- the first value is read, and the line break is in a later one
        have hlater : ∃ w ∈ v' :: vs, ¬ NoLineBreak w := by
          obtain ⟨w, hw, hbreak⟩ := hvalues
          rcases List.mem_cons.mp hw with rfl | hw
          · exact absurd hv hbreak
          · exact ⟨w, hw, hbreak⟩
        have hcomma : ∀ b ∈ (chr ',' :: (csvJoin (v' :: vs) ++ [chr '\n'])).head?,
            b ≠ chr '"' := by
          rintro b ⟨⟩
          decide
        rw [csvScan_value hv hcomma, csvScan, if_neg (by decide), if_pos rfl]
        exact ih hlater
      · exact csvScan_value_lineBreak hv

/-- A written row is read back exactly when no value holds a line break, and then the fields are
the values. -/
theorem storageParseCsvLine_writeCsvRow_iff {values : List CString} (hne : values ≠ []) :
    ((storageParseCsvLine (storageWriteCsvRow values)).isSome = true ↔
      ∀ v ∈ values, chr '\r' ∉ v ∧ chr '\n' ∉ v) ∧
    ∀ fields, storageParseCsvLine (storageWriteCsvRow values) = some fields → fields = values := by
  by_cases hvalues : ∀ v ∈ values, NoLineBreak v
  · have hread := storageParseCsvLine_writeCsvRow hne hvalues
    rw [hread]
    constructor
    · simpa using fun v hv => (hvalues v hv).symm
    · rintro fields ⟨⟩
      rfl
  · have hbreak : ∃ v ∈ values, ¬ NoLineBreak v := by simpa using hvalues
    have hread : storageParseCsvLine (storageWriteCsvRow values) = none :=
      csvScan_join_lineBreak hbreak
    rw [hread]
    constructor
    · constructor
      · rintro ⟨⟩
      · intro hfree
        obtain ⟨v, hv, hbreak⟩ := hbreak
        exact absurd (hfree v hv).symm hbreak
    · rintro fields ⟨⟩

/-- Quotes, commas, spaces and an empty value next to a separator. -/
theorem storageParseCsvLine_writeCsvRow_quoted :
    storageParseCsvLine (storageWriteCsvRow [bytes "\"a\",", [], bytes " b "]) =
      some [bytes "\"a\",", [], bytes " b "] := by
  have h := @storageParseCsvLine_writeCsvRow_iff [bytes "\"a\",", [], bytes " b "] (by simp)
  obtain ⟨fields, hfields⟩ := Option.isSome_iff_exists.mp (h.1.mpr (by decide))
  rw [hfields, h.2 fields hfields]

/-- What stands behind a newline does not matter. -/
lemma csvScan_newline {fields : List CString} {current : CString} {inQuotes : Bool}
    (body rest : CString) :
    csvScan fields current inQuotes (body ++ chr '\n' :: rest) =
      csvScan fields current inQuotes (body ++ [chr '\n']) := by
  have hquote : chr '\n' ≠ chr '"' := by decide
  induction hn : body.length using Nat.strong_induction_on
    generalizing fields current inQuotes body with
  | _ n ih =>
    cases inQuotes with
    | false =>
      cases body with
      | nil => rw [List.nil_append, List.nil_append, csvScan, csvScan]; simp +decide
      | cons b body =>
        have hlt : body.length < n := by rw [← hn]; simp
        rw [List.cons_append, List.cons_append, csvScan, csvScan]
        split_ifs
        · exact ih _ hlt body rfl
        · exact ih _ hlt body rfl
        · rfl
        · exact ih _ hlt body rfl
    | true =>
      cases body with
      | nil =>
        rw [List.nil_append, List.nil_append, csvScan, if_neg hquote]
        cases rest with
        | nil => rw [csvScan, if_neg hquote]
        | cons c rest => rw [csvScan, if_neg hquote, if_pos (.inl rfl)]
      | cons b body =>
        have hlt : body.length < n := by rw [← hn]; simp
        have hstep : ∀ s, csvScan fields current true (b :: (body ++ chr '\n' :: s)) =
            if b = chr '"' then
              if (body ++ [chr '\n']).head? = some (chr '"') then
                csvScan fields (current ++ [chr '"']) true ((body ++ chr '\n' :: s).tail)
              else csvScan fields current false (body ++ chr '\n' :: s)
            else if b = chr '\n' ∨ b = chr '\r' then none
            else csvScan fields (current ++ [b]) true (body ++ chr '\n' :: s) := by
          intro s
          cases body with
          | nil => simp [csvScan]
          | cons c body => simp [csvScan]
        rw [List.cons_append, List.cons_append, hstep rest, hstep []]
        split_ifs with hb hhead
        · cases body with
          | nil => exact absurd (Option.some.inj hhead) hquote
          | cons c body => exact ih body.length (by simp at hlt; omega) body rfl
        · exact ih _ hlt body rfl
        · rfl
        · exact ih _ hlt body rfl

/-! ### Different rows are written differently -/

/-- A text that cannot continue a value. -/
def EndsValue (rest : CString) : Prop := ∃ s, rest = chr ',' :: s ∨ rest = chr '\n' :: s

lemma EndsValue.ne_quote {s : CString} : ¬ EndsValue (chr '"' :: s) := by
  rintro ⟨s', h | h⟩
  all_goals
    have hhead := (List.cons_eq_cons.mp h).1
    revert hhead
    decide

lemma csvQuoteBody_inj {v w rest rest' : CString} (hrest : EndsValue rest)
    (hrest' : EndsValue rest')
    (h : csvQuoteBody v ++ chr '"' :: rest = csvQuoteBody w ++ chr '"' :: rest') :
    v = w ∧ rest = rest' := by
  induction v generalizing w with
  | nil =>
    cases w with
    | nil => exact ⟨rfl, (List.cons_eq_cons.mp h).2⟩
    | cons c w =>
      rw [csvQuoteBody, csvQuoteBody] at h
      split_ifs at h with hc
      · rw [(List.cons_eq_cons.mp h).2] at hrest
        exact absurd hrest EndsValue.ne_quote
      · exact absurd (List.cons_eq_cons.mp h).1.symm hc
  | cons b v ih =>
    cases w with
    | nil =>
      rw [csvQuoteBody, csvQuoteBody] at h
      split_ifs at h with hb
      · rw [← (List.cons_eq_cons.mp h).2] at hrest'
        exact absurd hrest' EndsValue.ne_quote
      · exact absurd (List.cons_eq_cons.mp h).1 hb
    | cons c w =>
      rw [csvQuoteBody, csvQuoteBody] at h
      split_ifs at h with hb hc hc
      · obtain ⟨rfl, hrest⟩ := ih (List.cons_eq_cons.mp (List.cons_eq_cons.mp h).2).2
        exact ⟨by rw [hb, hc], hrest⟩
      · exact absurd (List.cons_eq_cons.mp h).1.symm hc
      · exact absurd (List.cons_eq_cons.mp h).1 hb
      · obtain ⟨rfl, htail⟩ := List.cons_eq_cons.mp h
        obtain ⟨rfl, hrest⟩ := ih htail
        exact ⟨rfl, hrest⟩

/-- A byte of a value written without quotes. -/
lemma csvNeedsQuotes_cons {b : Byte} {v : CString} (h : csvNeedsQuotes (b :: v) = false) :
    b ≠ chr ',' ∧ b ≠ chr '"' ∧ b ≠ chr '\n' ∧ csvNeedsQuotes v = false := by
  simp only [csvNeedsQuotes, List.any_cons, Bool.or_eq_false_iff, beq_eq_false_iff_ne] at h ⊢
  exact ⟨h.1.1.1.1, h.1.1.1.2, h.1.1.2, h.2⟩

lemma EndsValue.ne_plain {b : Byte} {v s : CString} (h : csvNeedsQuotes (b :: v) = false) :
    ¬ EndsValue (b :: s) := by
  obtain ⟨hcomma, -, hnewline, -⟩ := csvNeedsQuotes_cons h
  rintro ⟨s', h | h⟩
  · exact hcomma (List.cons_eq_cons.mp h).1
  · exact hnewline (List.cons_eq_cons.mp h).1

lemma csvPlain_inj {v w rest rest' : CString} (hv : csvNeedsQuotes v = false)
    (hw : csvNeedsQuotes w = false) (hrest : EndsValue rest) (hrest' : EndsValue rest')
    (h : v ++ rest = w ++ rest') : v = w ∧ rest = rest' := by
  induction v generalizing w with
  | nil =>
    cases w with
    | nil => exact ⟨rfl, h⟩
    | cons c w =>
      rw [List.nil_append] at h
      rw [h] at hrest
      exact absurd hrest (EndsValue.ne_plain hw)
  | cons b v ih =>
    cases w with
    | nil =>
      rw [List.nil_append] at h
      rw [← h] at hrest'
      exact absurd hrest' (EndsValue.ne_plain hv)
    | cons c w =>
      obtain ⟨rfl, htail⟩ := List.cons_eq_cons.mp h
      obtain ⟨rfl, hrest⟩ :=
        ih (csvNeedsQuotes_cons hv).2.2.2 (csvNeedsQuotes_cons hw).2.2.2 htail
      exact ⟨rfl, hrest⟩

/-- A quoted text is no text without quotes. -/
lemma csvPlain_ne_quoted {v rest s : CString} (hv : csvNeedsQuotes v = false)
    (hrest : EndsValue rest) : v ++ rest ≠ chr '"' :: s := by
  intro h
  cases v with
  | nil =>
    rw [List.nil_append] at h
    rw [h] at hrest
    exact EndsValue.ne_quote hrest
  | cons b v => exact (csvNeedsQuotes_cons hv).2.1 (List.cons_eq_cons.mp h).1

lemma storageWriteCsvValue_inj {v w rest rest' : CString} (hrest : EndsValue rest)
    (hrest' : EndsValue rest')
    (h : storageWriteCsvValue v ++ rest = storageWriteCsvValue w ++ rest') :
    v = w ∧ rest = rest' := by
  rw [storageWriteCsvValue, storageWriteCsvValue] at h
  split_ifs at h with hv hw hw
  · simp only [List.cons_append, List.append_assoc, List.nil_append] at h
    exact csvQuoteBody_inj hrest hrest' (List.cons_eq_cons.mp h).2
  · exact absurd h.symm (csvPlain_ne_quoted (by simpa using hw) hrest')
  · exact absurd h (csvPlain_ne_quoted (by simpa using hv) hrest)
  · exact csvPlain_inj (by simpa using hv) (by simpa using hw) hrest hrest' h

/-- A row is its first value and a text that ends it. -/
lemma storageWriteCsvRow_cons (v : CString) (vs : List CString) :
    ∃ rest, EndsValue rest ∧ storageWriteCsvRow (v :: vs) = storageWriteCsvValue v ++ rest ∧
      (vs = [] → rest = [chr '\n']) ∧ (vs ≠ [] → rest = chr ',' :: storageWriteCsvRow vs) := by
  cases vs with
  | nil => exact ⟨[chr '\n'], ⟨[], .inr rfl⟩, rfl, fun _ => rfl, fun h => absurd rfl h⟩
  | cons w vs =>
    refine ⟨chr ',' :: storageWriteCsvRow (w :: vs), ⟨_, .inl rfl⟩, ?_, by simp, fun _ => rfl⟩
    rw [storageWriteCsvRow, csvJoin, List.append_assoc]
    rfl

/-- Two rows with values that are written alike are alike. -/
lemma storageWriteCsvRow_inj {vs ws : List CString} (hvs : vs ≠ []) (hws : ws ≠ [])
    (h : storageWriteCsvRow vs = storageWriteCsvRow ws) : vs = ws := by
  have hsep : chr ',' ≠ chr '\n' := by decide
  induction vs generalizing ws with
  | nil => exact absurd rfl hvs
  | cons v vs ih =>
    cases ws with
    | nil => exact absurd rfl hws
    | cons w ws =>
      obtain ⟨rest, hrest, heq, hlast, hmore⟩ := storageWriteCsvRow_cons v vs
      obtain ⟨rest', hrest', heq', hlast', hmore'⟩ := storageWriteCsvRow_cons w ws
      rw [heq, heq'] at h
      obtain ⟨rfl, rfl⟩ := storageWriteCsvValue_inj hrest hrest' h
      by_cases hv : vs = []
      · by_cases hw : ws = []
        · rw [hv, hw]
        · rw [hlast hv] at hmore'
          exact absurd (List.cons_eq_cons.mp (hmore' hw)).1.symm hsep
      · by_cases hw : ws = []
        · rw [hlast' hw] at hmore
          exact absurd (List.cons_eq_cons.mp (hmore hv)).1.symm hsep
        · have htail := (hmore hv).symm.trans (hmore' hw)
          rw [ih hv hw (List.cons_eq_cons.mp htail).2]

/-! ### The bytes of the fields -/

/-- What holds of every byte of a line but the line breaks, and of quotes, holds in every field. -/
lemma csvScan_forall {p : Byte → Prop} (hquote : p (chr '"')) {fields fs : List CString}
    {current line : CString} {inQuotes : Bool} (hfields : ∀ f ∈ fields, ∀ b ∈ f, p b)
    (hcurrent : ∀ b ∈ current, p b)
    (hline : ∀ b ∈ line, ¬ (b = chr '\n' ∨ b = chr '\r') → p b)
    (h : csvScan fields current inQuotes line = some fs) : ∀ f ∈ fs, ∀ b ∈ f, p b := by
  have hend : ∀ {fields : List CString} {current : CString}, (∀ f ∈ fields, ∀ b ∈ f, p b) →
      (∀ b ∈ current, p b) → ∀ f ∈ fields ++ [current], ∀ b ∈ f, p b :=
    fun hfields hcurrent => List.forall_mem_append.mpr ⟨hfields, by simpa using hcurrent⟩
  have happend : ∀ {current : CString} {b : Byte}, (∀ c ∈ current, p c) → p b →
      ∀ c ∈ current ++ [b], p c :=
    fun hcurrent hb => List.forall_mem_append.mpr ⟨hcurrent, by simpa using hb⟩
  fun_induction csvScan fields current inQuotes line with
  | case1 => cases h
  | case2 =>
    cases h
    exact hend hfields hcurrent
  | case3 => cases h
  | case4 fields current line ih =>
    exact ih hfields (happend hcurrent hquote)
      (fun b hb => hline b (List.mem_cons_of_mem _ (List.mem_cons_of_mem _ hb))) h
  | case5 fields current c line hc ih =>
    exact ih hfields hcurrent (List.forall_mem_cons.mp hline).2 h
  | case6 => cases h
  | case7 fields current b c line hb hbreak ih =>
    obtain ⟨hhead, htail⟩ := List.forall_mem_cons.mp hline
    exact ih hfields (happend hcurrent (hhead hbreak)) htail h
  | case8 =>
    cases h
    exact hend hfields hcurrent
  | case9 fields current line ih =>
    exact ih hfields hcurrent (List.forall_mem_cons.mp hline).2 h
  | case10 fields current line _ ih =>
    exact ih (hend hfields hcurrent) (by simp) (List.forall_mem_cons.mp hline).2 h
  | case11 =>
    cases h
    exact hend hfields hcurrent
  | case12 fields current b line hb hcomma hbreak ih =>
    obtain ⟨hhead, htail⟩ := List.forall_mem_cons.mp hline
    exact ih hfields (happend hcurrent (hhead hbreak)) htail h

lemma storageParseCsvLine_noNul {line : CString} {fields : List CString} (hline : 0 ∉ line)
    (h : storageParseCsvLine line = some fields) : ∀ f ∈ fields, 0 ∉ f := by
  have hbytes := @csvScan_forall (fun b => b ≠ 0) (by decide) _ _ _ _ _ (by simp) (by simp)
    (fun b hb _ => ne_of_mem_of_not_mem hb hline) h
  exact fun f hf hmem => hbytes f hf 0 hmem rfl

/-- No field has a line break. -/
lemma storageParseCsvLine_noLineBreak {line : CString} {fields : List CString}
    (h : storageParseCsvLine line = some fields) : ∀ f ∈ fields, NoLineBreak f := by
  have hbytes := @csvScan_forall (fun b => b ≠ chr '\n' ∧ b ≠ chr '\r') (by decide) _ _ _ _ _
    (by simp) (by simp) (fun b _ hbreak => not_or.mp hbreak) h
  exact fun f hf => ⟨fun hmem => (hbytes f hf _ hmem).1 rfl, fun hmem => (hbytes f hf _ hmem).2 rfl⟩

/-! ### The written row is one line -/

lemma mem_csvQuoteBody {b : Byte} {value : CString} :
    b ∈ csvQuoteBody value → b ∈ value := by
  induction value with
  | nil => exact id
  | cons c value ih =>
    rw [csvQuoteBody]
    split_ifs with hc
    · intro h
      rcases List.mem_cons.mp h with rfl | h
      · simp [hc]
      · rcases List.mem_cons.mp h with rfl | h
        · simp [hc]
        · exact List.mem_cons_of_mem _ (ih h)
    · intro h
      rcases List.mem_cons.mp h with rfl | h
      · exact List.mem_cons_self
      · exact List.mem_cons_of_mem _ (ih h)

lemma length_csvQuoteBody_le (value : CString) :
    (csvQuoteBody value).length ≤ 2 * value.length := by
  induction value with
  | nil => simp [csvQuoteBody]
  | cons b value ih =>
    rw [csvQuoteBody]
    split_ifs <;> simp <;> omega

lemma mem_storageWriteCsvValue {b : Byte} {value : CString} (h : b ∈ storageWriteCsvValue value) :
    b ∈ value ∨ b = chr '"' := by
  unfold storageWriteCsvValue at h
  split_ifs at h
  · simp only [List.mem_cons, List.mem_append, List.not_mem_nil, or_false] at h
    rcases h with h | h | h
    · exact .inr h
    · exact .inl (mem_csvQuoteBody h)
    · exact .inr h
  · exact .inl h

lemma length_storageWriteCsvValue_le (value : CString) :
    (storageWriteCsvValue value).length ≤ 2 * value.length + 2 := by
  have hbody := length_csvQuoteBody_le value
  unfold storageWriteCsvValue
  split_ifs <;> simp <;> omega

lemma mem_csvJoin {b : Byte} {values : List CString} (h : b ∈ csvJoin values) :
    (∃ v ∈ values, b ∈ v) ∨ b = chr '"' ∨ b = chr ',' := by
  fun_induction csvJoin values with
  | case1 => cases h
  | case2 v =>
    rcases mem_storageWriteCsvValue h with h | h
    · exact .inl ⟨v, by simp, h⟩
    · exact .inr (.inl h)
  | case3 v v' vs ih =>
    simp only [List.mem_append, List.mem_cons] at h
    rcases h with h | h | h
    · rcases mem_storageWriteCsvValue h with h | h
      · exact .inl ⟨v, by simp, h⟩
      · exact .inr (.inl h)
    · exact .inr (.inr h)
    · rcases ih h with ⟨w, hw, hb⟩ | h
      · exact .inl ⟨w, List.mem_cons_of_mem _ hw, hb⟩
      · exact .inr h

/-- A bound on the length of a written row. -/
def csvRowBound (values : List CString) : Nat := (values.map fun v => 2 * v.length + 3).sum

lemma length_csvJoin_le (values : List CString) : (csvJoin values).length ≤ csvRowBound values := by
  fun_induction csvJoin values with
  | case1 => simp
  | case2 v =>
    have hv := length_storageWriteCsvValue_le v
    simp [csvRowBound]
    omega
  | case3 v v' vs ih =>
    have hv := length_storageWriteCsvValue_le v
    have hsum : csvRowBound (v :: v' :: vs) = 2 * v.length + 3 + csvRowBound (v' :: vs) := rfl
    rw [List.length_append, List.length_cons, hsum]
    omega

lemma csvRowBound_le {values : List CString} {n : Nat} (h : ∀ v ∈ values, v.length ≤ n) :
    csvRowBound values ≤ values.length * (2 * n + 3) := by
  induction values with
  | nil => simp [csvRowBound]
  | cons v vs ih =>
    have hv := h v (by simp)
    have hvs := ih fun w hw => h w (by simp [hw])
    have hsum : csvRowBound (v :: vs) = 2 * v.length + 3 + csvRowBound vs := rfl
    rw [hsum, List.length_cons, Nat.add_one_mul vs.length]
    omega

lemma isLine_storageWriteCsvRow {values : List CString} (hvalues : ∀ v ∈ values, NoLineBreak v)
    (hbound : csvRowBound values < csvLineRoom) :
    IsLine csvLineRoom (storageWriteCsvRow values) := by
  refine ⟨csvJoin values, rfl, ?_, ?_⟩
  · intro h
    rcases mem_csvJoin h with ⟨v, hv, hb⟩ | h
    · exact (hvalues v hv).1 hb
    · revert h
      decide
  · have hlen := length_csvJoin_le values
    rw [storageWriteCsvRow, List.length_append, List.length_singleton]
    omega

lemma nul_notMem_storageWriteCsvRow {values : List CString} (hvalues : ∀ v ∈ values, 0 ∉ v) :
    0 ∉ storageWriteCsvRow values := by
  rw [storageWriteCsvRow, List.mem_append, not_or]
  constructor
  · intro h
    rcases mem_csvJoin h with ⟨v, hv, hb⟩ | h
    · exact hvalues v hv hb
    · revert h
      decide
  · decide

/-! ### The length of a line -/

/-- The bytes a value takes in a line: the double quotes count twice. -/
def csvValueLength (value : CString) : Nat :=
  value.length + if csvNeedsQuotes value then value.count (chr '"') + 2 else 0

/-- The bytes the values of a row take, a separator behind each. -/
def csvRowLength (values : List CString) : Nat := (values.map csvValueLength).sum + values.length

lemma length_csvQuoteBody (value : CString) :
    (csvQuoteBody value).length = value.length + value.count (chr '"') := by
  induction value with
  | nil => rfl
  | cons b value ih =>
    rw [csvQuoteBody, List.count_cons]
    by_cases hb : b = chr '"'
    · simp [hb, ih]
      omega
    · simp [hb, ih]
      omega

lemma length_storageWriteCsvValue (value : CString) :
    (storageWriteCsvValue value).length = csvValueLength value := by
  rw [storageWriteCsvValue, csvValueLength]
  by_cases h : csvNeedsQuotes value = true
  · rw [if_pos h, if_pos h]
    simp [length_csvQuoteBody]
    omega
  · rw [if_neg h, if_neg h]
    rfl

lemma length_csvJoin (v : CString) (vs : List CString) :
    (csvJoin (v :: vs)).length + 1 = csvRowLength (v :: vs) := by
  induction vs generalizing v with
  | nil => simp [csvJoin, csvRowLength, length_storageWriteCsvValue]
  | cons v' vs ih =>
    have hrest := ih v'
    simp only [csvRowLength, List.map_cons, List.sum_cons, List.length_cons] at hrest ⊢
    rw [csvJoin, List.length_append, List.length_cons, length_storageWriteCsvValue]
    omega

/-- A row takes the bytes of its values and a separator for each, the newline behind the last. -/
lemma length_storageWriteCsvRow {values : List CString} (hne : values ≠ []) :
    (storageWriteCsvRow values).length = csvRowLength values := by
  obtain ⟨v, vs, rfl⟩ := List.exists_cons_of_ne_nil hne
  rw [← length_csvJoin, storageWriteCsvRow, List.length_append, List.length_singleton]

lemma csvValueLength_le {value : CString} (h : value.length ≤ 255) : csvValueLength value ≤ 512 := by
  have hcount : value.count (chr '"') ≤ value.length := List.count_le_length
  rw [csvValueLength]
  split_ifs <;> omega

/-- Rows of at most 31 values fit. -/
lemma csvRowLength_le {values : List CString} (hcount : values.length ≤ 31)
    (hvalues : ∀ v ∈ values, v.length ≤ 255) : csvRowLength values ≤ csvLineRoom := by
  have hsum : (values.map csvValueLength).sum ≤ values.length * 512 := by
    have hle := List.sum_le_card_nsmul (values.map csvValueLength) 512 (by
      intro n hn
      obtain ⟨v, hv, rfl⟩ := List.mem_map.mp hn
      exact csvValueLength_le (hvalues v hv))
    simpa using hle
  rw [csvRowLength, csvLineRoom]
  omega

/-- The bytes that a field in progress has taken, in quotes or outside. -/
def csvOpenLength (inQuotes : Bool) (current : CString) : Nat :=
  if inQuotes then current.length + current.count (chr '"') + 1 else csvValueLength current

lemma csvOpenLength_quote (current : CString) :
    csvOpenLength true current ≤ csvOpenLength false current + 1 ∧
      csvOpenLength false current ≤ csvOpenLength true current + 1 := by
  have hplain : csvNeedsQuotes current = false → current.count (chr '"') = 0 := by
    intro h
    rw [csvNeedsQuotes, List.any_eq_false] at h
    refine List.count_eq_zero_of_not_mem fun hmem => ?_
    exact h _ hmem (by simp)
  simp only [csvOpenLength, csvValueLength, if_true, Bool.false_eq_true, if_false]
  cases hquotes : csvNeedsQuotes current with
  | true => simp only [if_true]; omega
  | false =>
    rw [hplain hquotes]
    simp only [Bool.false_eq_true, if_false]
    omega

lemma csvOpenLength_plain {b : Byte} (hquote : b ≠ chr '"') (hcomma : b ≠ chr ',')
    (hbreak : ¬ (b = chr '\n' ∨ b = chr '\r')) (current : CString) :
    csvOpenLength false (current ++ [b]) = csvOpenLength false current + 1 := by
  rw [not_or] at hbreak
  have hneeds : csvNeedsQuotes (current ++ [b]) = csvNeedsQuotes current := by
    simp [csvNeedsQuotes, hquote, hcomma, hbreak.1, hbreak.2]
  have hcount : (current ++ [b]).count (chr '"') = current.count (chr '"') := by
    simp [List.count_append, hquote]
  simp only [csvOpenLength, csvValueLength, hneeds, hcount, List.length_append,
    List.length_singleton, Bool.false_eq_true, if_false]
  omega

/-- A row that was read takes no more than its line when it is written again, but for the newline
if the line has none. -/
lemma csvScan_length {fields fs : List CString} {current line : CString} {inQuotes : Bool}
    (h : csvScan fields current inQuotes line = some fs) :
    csvRowLength fs ≤ csvRowLength fields + csvOpenLength inQuotes current + line.length +
      if chr '\n' ∈ line then 0 else 1 := by
  have hend : ∀ (fields : List CString) (current : CString), csvRowLength (fields ++ [current]) =
      csvRowLength fields + csvOpenLength false current + 1 := by
    intro fields current
    simp only [csvRowLength, csvOpenLength, List.map_append, List.map_singleton, List.sum_append,
      List.sum_singleton, List.length_append, List.length_singleton, Bool.false_eq_true, if_false]
    omega
  have hskip : ∀ (b : Byte) (line : CString), b ≠ chr '\n' →
      (if chr '\n' ∈ b :: line then 0 else 1) = if chr '\n' ∈ line then 0 else 1 := by
    intro b line hb
    simp [Ne.symm hb]
  have hquote : chr '"' ≠ chr '\n' := by decide
  have hinside : ∀ (b : Byte) (current : CString), csvOpenLength true (current ++ [b]) ≤
      csvOpenLength true current + 1 + if b = chr '"' then 1 else 0 := by
    intro b current
    simp only [csvOpenLength, if_true, List.length_append, List.length_singleton, List.count_append,
      List.count_singleton, beq_iff_eq]
    omega
  fun_induction csvScan fields current inQuotes line with
  | case1 => cases h
  | case2 fields current =>
    cases h
    have hclose := (csvOpenLength_quote current).2
    rw [hend, if_neg (by decide), List.length_singleton]
    omega
  | case3 => cases h
  | case4 fields current line ih =>
    have hread := ih h
    have hdouble := hinside (chr '"') current
    rw [if_pos rfl] at hdouble
    rw [hskip _ _ hquote, hskip _ _ hquote, List.length_cons, List.length_cons]
    omega
  | case5 fields current c line hc ih =>
    have hread := ih h
    have hclose := (csvOpenLength_quote current).2
    rw [hskip _ _ hquote, List.length_cons]
    omega
  | case6 => cases h
  | case7 fields current b c line hb hbreak ih =>
    have hread := ih h
    have hmore := hinside b current
    rw [if_neg hb] at hmore
    rw [hskip _ _ (not_or.mp hbreak).1, List.length_cons]
    omega
  | case8 fields current =>
    cases h
    rw [hend, if_neg List.not_mem_nil, List.length_nil]
  | case9 fields current line ih =>
    have hread := ih h
    have hopen := (csvOpenLength_quote current).1
    rw [hskip _ _ hquote, List.length_cons]
    omega
  | case10 fields current line _ ih =>
    have hread := ih h
    have hempty : csvOpenLength false [] = 0 := rfl
    rw [hend, hempty] at hread
    rw [hskip _ _ (by decide), List.length_cons]
    omega
  | case11 fields current b line =>
    cases h
    rw [hend, List.length_cons]
    omega
  | case12 fields current b line hb hcomma hbreak ih =>
    have hread := ih h
    rw [csvOpenLength_plain hb hcomma hbreak] at hread
    rw [hskip _ _ (not_or.mp hbreak).1, List.length_cons]
    omega

/-- What is read of a line that is not too long fits into a line again. -/
lemma storageParseCsvLine_length {raw : CString} {fields : List CString}
    (hroom : raw.length ≤ csvLineRoom)
    (hline : chr '\n' ∈ cView raw ∨ raw.length < csvLineRoom)
    (h : storageParseCsvLine (cView raw) = some fields) : csvRowLength fields ≤ csvLineRoom := by
  have hread := csvScan_length h
  have hview : (cView raw).length ≤ raw.length := (List.takeWhile_prefix _).length_le
  have hzero : csvRowLength [] + csvOpenLength false [] = 0 := rfl
  rw [hzero] at hread
  split_ifs at hread with hmem
  · omega
  · have hlt := hline.resolve_left hmem
    omega

end MiniDbms
