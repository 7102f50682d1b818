import MiniDbms.Cli.Main
import MiniDbms.Library.QuotedSplit
import MiniDbms.Sql.Spelling

/-!
# Statement splitting and the tokenizer

`utils_find_statement_terminator` cuts a text behind its first semicolon outside quotes. The rounds
of the tokenizer keep in step with it: each consumes a text that closes the quotes it opens.
-/

namespace MiniDbms

/-- The text up to its first semicolon outside quotes, and what follows it. -/
def cutStatement (text : CString) : Option (CString × CString) :=
  cutQuoted (chr '\'') (chr ';') false text

/-! ### The terminator -/

/-- The length of a piece to which `n` bytes are added in front. -/
lemma cutQuoted_position {inside : Bool} {text : CString} (i n : Nat) {f : CString → CString}
    (hf : ∀ p, (f p).length = n + p.length) :
    ((cutQuoted (chr '\'') (chr ';') inside text).map fun (p, _) => i + n + (p.length - 1)) =
      (cutQuoted (chr '\'') (chr ';') inside text).map fun (p, _) => i + ((f p).length - 1) := by
  apply Option.map_congr
  rintro ⟨p, rest⟩ hcut
  obtain ⟨-, -, body, rfl, -⟩ := cutQuoted_some hcut
  simp only [hf, List.length_append, List.length_singleton]
  omega

lemma statementTerminatorLoop_eq (inQuotes : Bool) (i : Nat) (text : CString) :
    statementTerminatorLoop inQuotes i text =
      (cutQuoted (chr '\'') (chr ';') inQuotes text).map fun (p, _) => i + (p.length - 1) := by
  fun_induction statementTerminatorLoop inQuotes i text with
  | case1 => rfl
  | case2 inQuotes i b hb =>
    obtain ⟨rfl, rfl⟩ := hb
    rfl
  | case3 inQuotes i b hb =>
    by_cases hq : b = chr '\''
    · simp [cutQuoted, hq]
    · simp [cutQuoted, hq, hb]
  | case4 inQuotes i c text hquotes ih =>
    -- two quotes inside quotes turn the flag over twice
    obtain ⟨rfl, rfl⟩ := hquotes
    rw [ih, cutQuoted_position i 2 (f := fun p => chr '\'' :: chr '\'' :: p)
      (fun p => by simp; omega)]
    simp [cutQuoted, Option.map_map, Function.comp_def]
  | case5 inQuotes i c text hquotes ih =>
    rw [ih, cutQuoted_position i 1 (f := fun p => chr '\'' :: p) (fun p => by simp; omega)]
    rw [cutQuoted_quote inQuotes, Option.map_map]
    rfl
  | case6 inQuotes i b c text hb hend =>
    obtain ⟨rfl, rfl⟩ := hend
    rfl
  | case7 inQuotes i b c text hb hend ih =>
    rw [ih, cutQuoted_position i 1 (f := fun p => b :: p) (fun p => by simp; omega)]
    rw [cutQuoted_other hb hend, Option.map_map]
    rfl

lemma utilsFindStatementTerminator_none {text : CString} {start : Nat}
    (h : cutStatement (text.drop start) = none) : utilsFindStatementTerminator text start = -1 := by
  have hloop : statementTerminatorLoop false start (text.drop start) = none := by
    rw [statementTerminatorLoop_eq, Option.map_eq_none_iff]
    exact h
  rw [utilsFindStatementTerminator, hloop]

lemma utilsFindStatementTerminator_some {text p rest : CString} {start : Nat}
    (h : cutStatement (text.drop start) = some (p, rest)) :
    utilsFindStatementTerminator text start = toInt ((start + (p.length - 1) : Nat) : Int) := by
  have hloop : statementTerminatorLoop false start (text.drop start) =
      some (start + (p.length - 1)) := by
    rw [statementTerminatorLoop_eq, Option.map_eq_some_iff]
    exact ⟨_, h, rfl⟩
  rw [utilsFindStatementTerminator, hloop]

lemma toInt_eq {n : Nat} (h : n < 2 ^ 31) : toInt n = n := by
  rw [toInt, Int.bmod_eq_of_le] <;> omega

/-! ### Chunks that close their quotes -/

/-- The body of a literal is passed over inside quotes. -/
lemma quoteBody_closed (v : CString) :
    cutQuoted (chr '\'') (chr ';') true (quoteBody v) = none ∧
      quoteFlag (chr '\'') true (quoteBody v) = true := by
  induction v with
  | nil => exact ⟨rfl, rfl⟩
  | cons b v ih =>
    by_cases hb : b = chr '\''
    · simp [quoteBody, hb, cutQuoted, quoteFlag, ih]
    · simp [quoteBody, hb, cutQuoted, quoteFlag, ih]

lemma QuoteClosed.quoted (v : CString) : QuoteClosed (chr '\'') (chr ';') (quoted v) where
  uncut := by
    rw [MiniDbms.quoted, cutQuoted_quote]
    simp [cutQuoted_append_none (quoteBody_closed v).1, cutQuoted]
  closed := by
    rw [MiniDbms.quoted, quoteFlag, quoteFlag_append]
    simp [(quoteBody_closed v).2, quoteFlag]

/-- Bytes that are neither a quote nor a semicolon. -/
lemma plain_facts {b : Byte} : (isspace b = true ∨ isdigit b = true ∨ isWordByte b = true ∨
    b ∈ bytes "(),*!<>=+-") → b ≠ chr '\'' ∧ b ≠ chr ';' := by
  revert b
  apply forall_byte
  decide +kernel

lemma plain_of_forall {s : CString} (h : ∀ b ∈ s, isspace b = true ∨ isdigit b = true ∨
    isWordByte b = true ∨ b ∈ bytes "(),*!<>=+-") : QuoteClosed (chr '\'') (chr ';') s :=
  .of_plain fun b hb => plain_facts (h b hb)

lemma Blank.closed {s : CString} (h : Blank s) : QuoteClosed (chr '\'') (chr ';') s :=
  plain_of_forall fun b hb => .inl (h b hb)

/-- The spelling of a token is a semicolon, or closes the quotes it opens. -/
lemma Spelled.closed {chunk : CString} {t : Token} (h : Spelled chunk t) :
    (chunk = [chr ';'] ∧ t.type = .semicolon) ∨
      (QuoteClosed (chr '\'') (chr ';') chunk ∧ t.type ≠ .semicolon) := by
  cases h with
  | @punctuation b type hmem =>
    simp only [MiniDbms.punctuation, List.mem_cons, List.not_mem_nil, or_false,
      Prod.mk.injEq] at hmem
    rcases hmem with ⟨rfl, rfl⟩ | ⟨rfl, rfl⟩ | ⟨rfl, rfl⟩ | ⟨rfl, rfl⟩ | ⟨rfl, rfl⟩
    · exact .inr ⟨⟨rfl, rfl⟩, by decide⟩
    · exact .inr ⟨⟨rfl, rfl⟩, by decide⟩
    · exact .inr ⟨⟨rfl, rfl⟩, by decide⟩
    · exact .inl ⟨rfl, rfl⟩
    · exact .inr ⟨⟨rfl, rfl⟩, by decide⟩
  | literal v => exact .inr ⟨.quoted v.val, by simp⟩
  | @operator op hmem =>
    simp only [operatorTexts, List.mem_cons, List.not_mem_nil, or_false] at hmem
    right
    rcases hmem with rfl | rfl | rfl | rfl | rfl | rfl | rfl <;>
      exact ⟨⟨rfl, rfl⟩, by decide⟩
  | number hnumber hlen =>
    obtain ⟨sign, digits, rfl, hsign, -, hdigits⟩ := hnumber
    refine .inr ⟨plain_of_forall fun b hb => ?_, by simp⟩
    rcases List.mem_append.mp hb with hb | hb
    · rcases hsign with rfl | rfl | rfl
      · cases hb
      · obtain rfl := List.mem_singleton.mp hb
        exact .inr (.inr (.inr (by decide)))
      · obtain rfl := List.mem_singleton.mp hb
        exact .inr (.inr (.inr (by decide)))
    · exact .inr (.inl (hdigits b hb))
  | @word b w t hb hw hlen ht =>
    refine .inr ⟨plain_of_forall fun c hc => .inr (.inr (.inl ?_)), ?_⟩
    · rcases List.mem_cons.mp hc with rfl | hc
      · exact (wordStart_facts hb).2.2.1
      · exact hw c hc
    · rw [tokenizerWordToken] at ht
      split_ifs at ht
      · obtain ⟨upper, -, hmake⟩ := Option.bind_eq_some_iff.mp ht
        rw [(tokenizerMakeToken_some hmake).1]
        decide
      · rw [(tokenizerMakeToken_some ht).1]
        decide
  | @unknown b hother =>
    have hpunct := hother.2.1
    refine .inr ⟨.of_plain fun c hc => ?_, by simp⟩
    obtain rfl := List.mem_singleton.mp hc
    exact ⟨fun h => hpunct (h ▸ by decide), fun h => hpunct (h ▸ by decide)⟩

/-! ### Rounds that fail -/

/-- A token at the start of `b :: sql` that a reader with room for the whole text reads, and that
is longer than a token may be. -/
def LongTokenAt (b : Byte) (sql : CString) : Prop :=
  ∃ value rest, maxTokenValue ≤ value.length ∧
    ((b = chr '\'' ∧ tokenizerReadString (sql.length + 2) 0 sql = some (value, rest)) ∨
      (tokenizerIsNumericStart b sql = true ∧
        tokenizerReadNumber (sql.length + 2) b sql = some (value, rest)) ∨
      ((isalpha b = true ∨ b = chr '_') ∧
        tokenizerReadWord (sql.length + 2) (b :: sql) = some (value, rest)))

/-- `Remains text sql`: rounds of the scan lead from `text` to `sql`. -/
inductive Remains : CString → CString → Prop
  | refl (text : CString) : Remains text text
  | round {b : Byte} {sql rest left : CString} {ts : List Token}
      (h : tokenizerStep b sql = some (ts, rest)) (hmore : Remains rest left) :
      Remains (b :: sql) left

/-- The scan comes to a token that is longer than a token may be. -/
def TokenTooLong (text : CString) : Prop :=
  ∃ b sql, Remains text (b :: sql) ∧ LongTokenAt b sql

/-- A buffer larger than the text is large enough. -/
lemma tokenizerReadWhile_total (p : Byte → Bool) {m length : Nat} {sql : CString}
    (hm : length + sql.length < m) :
    ∃ w rest, tokenizerReadWhile p m length sql = some (w, rest) ∧
      ∀ b ∈ rest.head?, p b = false := by
  induction sql generalizing length with
  | nil => exact ⟨[], [], rfl, by rintro b ⟨⟩⟩
  | cons b sql ih =>
    rw [List.length_cons] at hm
    by_cases hb : p b = true
    · obtain ⟨w, rest, hread, hrest⟩ := @ih (length + 1) (by omega)
      refine ⟨b :: w, rest, ?_, hrest⟩
      rw [tokenizerReadWhile, if_pos hb, if_neg (by omega), hread]
      rfl
    · refine ⟨[], b :: sql, by rw [tokenizerReadWhile, if_neg hb], ?_⟩
      rintro c ⟨⟩
      simpa using hb

/-- A buffer larger than the text is large enough for a literal that is closed. -/
lemma tokenizerReadString_total {m length : Nat} {sql : CString} (hm : length + sql.length < m) :
    (cutQuoted (chr '\'') (chr ';') true sql = none) ∨
      ∃ s rest, tokenizerReadString m length sql = some (s, rest) ∧
        ∀ b ∈ rest.head?, b ≠ chr '\'' := by
  fun_induction tokenizerReadString m length sql with
  | case1 => exact .inl rfl
  | case2 => exact .inr ⟨[], [], rfl, by rintro b ⟨⟩⟩
  | case3 length b hb =>
    left
    rw [cutQuoted_other hb (by simp)]
    rfl
  | case4 length sql hroom =>
    simp only [List.length_cons] at hm
    omega
  | case5 length sql hroom ih =>
    rcases ih (by simp only [List.length_cons] at hm; omega) with hnone | ⟨s, rest, hread, hrest⟩
    · left
      simp [cutQuoted, hnone]
    · exact .inr ⟨_, _, by rw [hread]; rfl, hrest⟩
  | case6 length c sql hc =>
    refine .inr ⟨_, _, rfl, ?_⟩
    rintro b ⟨⟩
    exact hc
  | case7 length b c sql hb hroom =>
    simp only [List.length_cons] at hm
    omega
  | case8 length b c sql hb hroom ih =>
    rcases ih (by simp only [List.length_cons] at hm ⊢; omega) with
      hnone | ⟨s, rest, hread, hrest⟩
    · left
      rw [cutQuoted_other hb (by simp), hnone]
      rfl
    · exact .inr ⟨_, _, by rw [hread]; rfl, hrest⟩

/-- A word or a number that does not fit is longer than a token may be. -/
lemma tokenizerReadWhile_none {p : Byte → Bool} {m length : Nat} {sql : CString}
    (hm : length + sql.length < m)
    (h : tokenizerReadWhile p maxTokenValue length sql = none) :
    ∃ w rest, tokenizerReadWhile p m length sql = some (w, rest) ∧
      maxTokenValue ≤ length + w.length := by
  obtain ⟨w, rest, hread, hrest⟩ := tokenizerReadWhile_total p hm
  refine ⟨w, rest, hread, ?_⟩
  by_contra hshort
  obtain ⟨rfl, -⟩ := tokenizerReadWhile_split (by omega) hread
  rw [tokenizerReadWhile_append (tokenizerReadWhile_all hread) (by omega) hrest] at h
  cases h

lemma tokenizerReadNumber_none {b : Byte} {sql : CString}
    (h : tokenizerReadNumber maxTokenValue b sql = none) :
    ∃ w rest, tokenizerReadNumber (sql.length + 2) b sql = some (w, rest) ∧
      maxTokenValue ≤ w.length := by
  rw [tokenizerReadNumber] at h
  by_cases hsign : b = chr '-' ∨ b = chr '+'
  · rw [if_pos hsign, if_neg (by decide), Option.map_eq_none_iff] at h
    obtain ⟨w, rest, hread, hlen⟩ :=
      tokenizerReadWhile_none (m := sql.length + 2) (by omega) h
    refine ⟨b :: w, rest, ?_, by rw [List.length_cons]; omega⟩
    rw [tokenizerReadNumber, if_pos hsign, if_neg (by omega), hread]
    rfl
  · rw [if_neg hsign] at h
    obtain ⟨w, rest, hread, hlen⟩ :=
      tokenizerReadWhile_none (m := sql.length + 2) (by simp) h
    exact ⟨w, rest, by rw [tokenizerReadNumber, if_neg hsign, hread], by omega⟩

lemma toupper_ne_zero {b : Byte} : b ≠ 0 → toupper b ≠ 0 := by
  revert b
  apply forall_byte
  decide +kernel

lemma tokenizerWordToken_some {word : CString} (hlen : word.length ≤ 255) (hnul : 0 ∉ word) :
    ∃ t, tokenizerWordToken word = some t := by
  rw [tokenizerWordToken]
  by_cases hkey : utilsIsSqlKeyword word = true
  · have hsize : word.length < maxTokenValue := Nat.lt_succ_of_le hlen
    rw [if_pos hkey, utilsToUpperCopy, if_pos hsize, Option.bind_some]
    refine ⟨_, tokenizerMakeToken_eq .keyword (by simpa using hlen) ?_⟩
    intro hmem
    obtain ⟨b, hb, hzero⟩ := List.mem_map.mp hmem
    exact toupper_ne_zero (fun h => hnul (h ▸ hb)) hzero
  · rw [if_neg hkey]
    exact ⟨_, tokenizerMakeToken_eq .identifier hlen hnul⟩

/-- A round fails at a literal that is not closed, or at a token that is too long. -/
lemma tokenizerStep_none {b : Byte} {sql : CString} (hnul : 0 ∉ b :: sql)
    (h : tokenizerStep b sql = none) :
    cutStatement (b :: sql) = none ∨ LongTokenAt b sql := by
  by_cases hspace : isspace b = true
  · rw [tokenizerStep_space hspace] at h
    cases h
  by_cases hpunct : ∃ type, (b, type) ∈ punctuation
  · obtain ⟨type, hmem⟩ := hpunct
    rw [tokenizerStep_punctuation hmem] at h
    cases h
  by_cases hquote : b = chr '\''
  · subst hquote
    have hm : 0 + sql.length < sql.length + 2 := by omega
    rcases tokenizerReadString_total hm with hnone | ⟨s, rest, hread, hrest⟩
    · left
      rw [cutStatement, cutQuoted_quote, Bool.not_false, hnone]
      rfl
    · refine .inr ⟨s, rest, ?_, .inl ⟨rfl, hread⟩⟩
      by_contra hshort
      rw [not_le] at hshort
      obtain ⟨rfl, -⟩ := tokenizerReadString_split (by omega) hread
      have hs : s.length ≤ 255 ∧ 0 ∉ s := by
        refine ⟨Nat.le_of_lt_succ hshort, quoteBody_nul fun hmem => hnul ?_⟩
        simp [hmem]
      rw [tokenizerStep_quote, tokenizerReadString_quoteBody (by omega) hrest] at h
      simp [tokenizerMakeToken_eq .strLiteral hs.1 hs.2] at h
  by_cases hop : b ∈ bytes "!<>="
  · rw [tokenizerStep_operatorText hop] at h
    cases h
  by_cases hnum : tokenizerIsNumericStart b sql = true
  · right
    rw [tokenizerStep_number hnum] at h
    cases hread : tokenizerReadNumber maxTokenValue b sql with
    | none =>
      obtain ⟨w, rest, hlong, hlen⟩ := tokenizerReadNumber_none hread
      exact ⟨w, rest, hlen, .inr (.inl ⟨hnum, hlong⟩)⟩
    | some result =>
      obtain ⟨w, rest⟩ := result
      obtain ⟨hsplit, -, hlen⟩ := tokenizerReadNumber_split hnum hread
      have hw : 0 ∉ w := fun hmem => hnul (by simp [hsplit, hmem])
      simp [hread, tokenizerMakeToken_eq .intLiteral hlen hw] at h
  by_cases hword : isalpha b = true ∨ b = chr '_'
  · right
    rw [tokenizerStep_word hword] at h
    cases hread : tokenizerReadWord maxTokenValue (b :: sql) with
    | none =>
      obtain ⟨w, rest, hlong, hlen⟩ :=
        tokenizerReadWhile_none (m := sql.length + 2) (by rw [List.length_cons]; omega) hread
      exact ⟨w, rest, by omega, .inr (.inr ⟨hword, hlong⟩)⟩
    | some result =>
      obtain ⟨w, rest⟩ := result
      obtain ⟨hsplit, hlen⟩ := tokenizerReadWhile_split (by decide) hread
      obtain ⟨t, ht⟩ := @tokenizerWordToken_some w (by simp only [maxTokenValue] at hlen; omega)
        fun hmem => hnul (by simp [hsplit, hmem])
      simp [hread, ht] at h
  · have hother : IsOther b := IsOther.of_branches hnul hspace hpunct hquote hop hnum hword
    rw [tokenizerStep_other hother (by simpa using hnum)] at h
    cases h

/-! ### Tokens that are too long -/

/-- What a small buffer has room for, a larger one has room for too. -/
lemma tokenizerReadWhile_mono {p : Byte → Bool} {m n length : Nat} {sql w rest : CString}
    (hmn : m ≤ n) (h : tokenizerReadWhile p m length sql = some (w, rest)) :
    tokenizerReadWhile p n length sql = some (w, rest) := by
  induction sql generalizing length w with
  | nil => exact h
  | cons b sql ih =>
    rw [tokenizerReadWhile] at h ⊢
    split_ifs at h ⊢ with hb hroom hroom'
    · omega
    · obtain ⟨⟨w', rest'⟩, hread, ⟨⟩⟩ := Option.map_eq_some_iff.mp h
      rw [ih hread]
      rfl
    · exact h

lemma tokenizerReadString_mono {m n length : Nat} {sql s rest : CString} (hmn : m ≤ n)
    (h : tokenizerReadString m length sql = some (s, rest)) :
    tokenizerReadString n length sql = some (s, rest) := by
  fun_induction tokenizerReadString m length sql generalizing s rest with
  | case1 => cases h
  | case2 => simpa [tokenizerReadString] using h
  | case3 => cases h
  | case4 => cases h
  | case5 length sql hroom ih =>
    obtain ⟨⟨s', rest'⟩, hread, ⟨⟩⟩ := Option.map_eq_some_iff.mp h
    rw [tokenizerReadString, if_pos rfl, if_pos rfl, if_neg (by omega), ih hread]
    rfl
  | case6 length c sql hc =>
    rw [tokenizerReadString, if_pos rfl, if_neg hc]
    exact h
  | case7 => cases h
  | case8 length b c sql hb hroom ih =>
    obtain ⟨⟨s', rest'⟩, hread, ⟨⟩⟩ := Option.map_eq_some_iff.mp h
    rw [tokenizerReadString, if_neg hb, if_neg (by omega), ih hread]
    rfl

lemma tokenizerReadNumber_mono {m n : Nat} {b : Byte} {sql w rest : CString} (hmn : m ≤ n)
    (h : tokenizerReadNumber m b sql = some (w, rest)) :
    tokenizerReadNumber n b sql = some (w, rest) := by
  rw [tokenizerReadNumber] at h ⊢
  split_ifs at h ⊢ with hsign hroom hroom'
  · omega
  · obtain ⟨⟨w', rest'⟩, hread, ⟨⟩⟩ := Option.map_eq_some_iff.mp h
    rw [tokenizerReadWhile_mono hmn hread]
    rfl
  · exact tokenizerReadWhile_mono hmn h

/-- Two reads of one text that agree whenever one buffer is no larger than the other find the same
token. -/
lemma read_unique {read : Nat → Option (CString × CString)} {m n : Nat}
    {found found' : CString × CString}
    (hmono : ∀ {m n : Nat} {w rest : CString}, m ≤ n → read m = some (w, rest) →
      read n = some (w, rest)) (h : read m = some found) (h' : read n = some found') :
    found = found' := by
  rcases Nat.le_total m n with hle | hle
  · exact Option.some.inj ((hmono hle h).symm.trans h')
  · exact Option.some.inj (h.symm.trans (hmono hle h'))

/-- A round fails at a token that is too long. -/
lemma LongTokenAt.step {b : Byte} {sql : CString} (h : LongTokenAt b sql) :
    tokenizerStep b sql = none := by
  obtain ⟨value, rest, hlong, hkind⟩ := h
  -- what the buffer of a token has room for is shorter
  have hshort : ∀ {w rest' : CString}, w.length < maxTokenValue → (value, rest) ≠ (w, rest') := by
    rintro w rest' hlen ⟨⟩
    omega
  rcases hkind with ⟨rfl, hlarge⟩ | ⟨hnum, hlarge⟩ | ⟨hword, hlarge⟩
  · rw [tokenizerStep_quote]
    cases hread : tokenizerReadString maxTokenValue 0 sql with
    | none => rfl
    | some result =>
      obtain ⟨w, rest'⟩ := result
      have hlen := (tokenizerReadString_split (by decide) hread).2
      exact absurd (read_unique tokenizerReadString_mono hlarge hread) (hshort (by omega))
  · rw [tokenizerStep_number hnum]
    cases hread : tokenizerReadNumber maxTokenValue b sql with
    | none => rfl
    | some result =>
      obtain ⟨w, rest'⟩ := result
      have hlen := (tokenizerReadNumber_split hnum hread).2.2
      exact absurd (read_unique tokenizerReadNumber_mono hlarge hread)
        (hshort (Nat.lt_succ_of_le hlen))
  · rw [tokenizerStep_word hword]
    cases hread : tokenizerReadWord maxTokenValue (b :: sql) with
    | none => rfl
    | some result =>
      obtain ⟨w, rest'⟩ := result
      have hlen := (tokenizerReadWhile_split (by decide) hread).2
      exact absurd (read_unique tokenizerReadWhile_mono hlarge hread) (hshort (by omega))

lemma TokenTooLong.loop {text : CString} (h : TokenTooLong text) :
    tokenizerLoop text.length text = none := by
  obtain ⟨b, sql, hremains, hlong⟩ := h
  generalize hleft : b :: sql = left at hremains
  induction hremains with
  | refl text =>
    subst hleft
    simp [tokenizerLoop, hlong.step]
  | round hstep _ ih => rw [tokenizerLoop_step hstep, ih hleft, Option.map_none]

/-- A scan finds what the loop returns. -/
lemma TokenizerScan.eq_loop {sql : CString} {found : Option (List Token)}
    (h : TokenizerScan sql found) : tokenizerLoop sql.length sql = found := by
  induction h with
  | done => rfl
  | fail hstep => simp [tokenizerLoop, hstep]
  | round hstep _ ih => rw [tokenizerLoop_step hstep, ih]

/-! ### The scan of a piece -/

/-- The tokens of a complete statement: the last one is its only semicolon. -/
def StatementTokens (tokens : List Token) : Prop :=
  ∃ before semicolon, tokens = before ++ [semicolon] ∧ semicolon.type = .semicolon ∧
    ∀ t ∈ before, t.type ≠ .semicolon

/-- A piece that is one statement, unless a token is too long. -/
def TokenizesAsStatement (piece : CString) : Prop :=
  (tokenizerTokenizeSql piece = none ∧ TokenTooLong piece) ∨
    ∃ tokens, tokenizerTokenizeSql piece = some tokens ∧ StatementTokens tokens

/-- The tokens that the rounds read of a text are not more than the array can be grown for. -/
def TokensFit (text : CString) : Prop :=
  ∀ tokens, TokenizerScan text (some tokens) → tokens.length ≤ 2 ^ 30

/-- A text that fails to tokenize, or yields no semicolon. -/
def HoldsNoTerminator (text : CString) : Prop :=
  ∀ tokens, tokenizerTokenizeSql text = some tokens → ∀ t ∈ tokens, t.type ≠ .semicolon

lemma StatementTokens.cons {tokens : List Token} {t : Token} (ht : t.type ≠ .semicolon)
    (h : StatementTokens tokens) : StatementTokens (t :: tokens) := by
  obtain ⟨before, semicolon, rfl, hlast, hbefore⟩ := h
  refine ⟨t :: before, semicolon, rfl, hlast, fun t' ht' => ?_⟩
  rcases List.mem_cons.mp ht' with rfl | ht'
  · exact ht
  · exact hbefore t' ht'

/-- A round on a text leaves the cut where it is, or has read the terminator. -/
lemma tokenizerStep_cut {b : Byte} {sql rest : CString} {ts : List Token} (hnul : 0 ∉ b :: sql)
    (h : tokenizerStep b sql = some (ts, rest)) :
    (∃ chunk, b :: sql = chunk ++ rest ∧ QuoteClosed (chr '\'') (chr ';') chunk ∧
        ∀ t ∈ ts, t.type ≠ .semicolon) ∨
      (b = chr ';' ∧ sql = rest ∧ ∃ t, ts = [t] ∧ t.type = .semicolon) := by
  rcases tokenizerStep_spelled hnul h with ⟨hspace, rfl, rfl⟩ | ⟨chunk, t, hsplit, rfl, ht⟩
  · left
    exact ⟨[b], rfl, Blank.closed (by simpa [Blank] using hspace), by simp⟩
  · rcases ht.closed with ⟨rfl, htype⟩ | ⟨hclosed, htype⟩
    · cases hsplit
      exact .inr ⟨rfl, rfl, t, rfl, htype⟩
    · exact .inl ⟨chunk, hsplit, hclosed, by simpa using htype⟩

lemma tokenizerLoop_none {b : Byte} {sql : CString} (h : tokenizerStep b sql = none) :
    tokenizerLoop (b :: sql).length (b :: sql) = none := by
  simp [tokenizerLoop, h]

/-- The scan of a piece that is cut off at its end. -/
lemma tokenizerLoop_piece {piece : CString} (hnul : 0 ∉ piece)
    (hcut : cutStatement piece = some (piece, [])) :
    (tokenizerLoop piece.length piece = none ∧ TokenTooLong piece) ∨
      ∃ tokens, tokenizerLoop piece.length piece = some tokens ∧ StatementTokens tokens := by
  induction hn : piece.length using Nat.strong_induction_on generalizing piece with
  | _ n ih =>
    subst hn
    cases piece with
    | nil => cases hcut
    | cons b sql =>
      cases hstep : tokenizerStep b sql with
      | none =>
        rcases tokenizerStep_none hnul hstep with hnone | hlong
        · rw [hnone] at hcut
          cases hcut
        · exact .inl ⟨tokenizerLoop_none hstep, b, sql, .refl _, hlong⟩
      | some result =>
        obtain ⟨ts, rest⟩ := result
        rw [tokenizerLoop_step hstep]
        rcases tokenizerStep_cut hnul hstep with ⟨chunk, hsplit, hclosed, hts⟩ | hsemi
        · -- the terminator is in what the round leaves
          have hrest : cutStatement rest = some (rest, []) := by
            rw [hsplit, cutStatement, hclosed.cutQuoted_append, Option.map_eq_some_iff] at hcut
            obtain ⟨⟨p, r⟩, hcut, heq⟩ := hcut
            simp only [Prod.mk.injEq, List.append_cancel_left_eq] at heq
            obtain ⟨rfl, rfl⟩ := heq
            exact hcut
          have hnul' : 0 ∉ rest := fun hmem => hnul (by simp [hsplit, hmem])
          have hlen : rest.length < (b :: sql).length :=
            Nat.lt_succ_of_le (tokenizerStep_length hstep)
          rcases ih _ hlen hnul' hrest rfl with ⟨hnone, b', sql', hremains, hlong⟩ |
            ⟨tokens, hsome, htokens⟩
          · rw [hnone]
            exact .inl ⟨rfl, b', sql', .round hstep hremains, hlong⟩
          · rw [hsome]
            refine .inr ⟨ts ++ tokens, rfl, ?_⟩
            clear hstep
            induction ts with
            | nil => exact htokens
            | cons t ts iht =>
              exact (iht fun t' ht' => hts t' (List.mem_cons_of_mem _ ht')).cons
                (hts t List.mem_cons_self)
        · -- the round has read the terminator, which ends the piece
          obtain ⟨rfl, rfl, t, rfl, htype⟩ := hsemi
          rw [cutStatement, cutQuoted_separator (by decide)] at hcut
          cases hcut
          exact .inr ⟨[t], rfl, [], t, rfl, htype, by simp⟩

/-- The scan of a text without a terminator. -/
lemma tokenizerLoop_leftover {fuel : Nat} {text : CString} {tokens : List Token}
    (hnul : 0 ∉ text) (hcut : cutStatement text = none)
    (h : tokenizerLoop fuel text = some tokens) : ∀ t ∈ tokens, t.type ≠ .semicolon := by
  induction fuel generalizing text tokens with
  | zero =>
    cases text with
    | nil =>
      cases h
      simp
    | cons b sql => cases h
  | succ fuel ih =>
    cases text with
    | nil =>
      cases h
      simp
    | cons b sql =>
      obtain ⟨⟨ts, rest⟩, hstep, hloop⟩ := Option.bind_eq_some_iff.mp h
      obtain ⟨more, hmore, ⟨⟩⟩ := Option.bind_eq_some_iff.mp hloop
      rcases tokenizerStep_cut hnul hstep with ⟨chunk, hsplit, hclosed, hts⟩ | ⟨rfl, rfl, -⟩
      · have hrest : cutStatement rest = none := by
          rw [hsplit, cutStatement, hclosed.cutQuoted_append, Option.map_eq_none_iff] at hcut
          exact hcut
        have hmore' := ih (fun hmem => hnul (by simp [hsplit, hmem])) hrest hmore
        intro t ht
        rcases List.mem_append.mp ht with ht | ht
        · exact hts t ht
        · exact hmore' t ht
      · rw [cutStatement, cutQuoted_separator (by decide)] at hcut
        cases hcut

/-- A piece is one statement for the tokenizer exactly if its tokens fit. -/
lemma tokenizesAsStatement_iff {piece : CString} (hnul : 0 ∉ piece)
    (hcut : cutStatement piece = some (piece, [])) :
    TokenizesAsStatement piece ↔ TokensFit piece := by
  rcases tokenizerLoop_piece hnul hcut with ⟨hnone, hlong⟩ | ⟨tokens, hsome, htokens⟩
  · have hvacuous : TokensFit piece := by
      intro tokens hscan
      cases hnone.symm.trans hscan.eq_loop
    exact iff_of_true (.inl ⟨by rw [tokenizerTokenizeSql, hnone], hlong⟩) hvacuous
  · have hscan : TokenizerScan piece (some tokens) := hsome ▸ tokenizerScan_loop piece
    constructor
    · rintro (⟨-, hlong⟩ | ⟨tokens', hsql, -⟩)
      · cases hlong.loop.symm.trans hsome
      · obtain ⟨hloop, -, hroom⟩ := tokenizerTokenizeSql_eq_some.mp hsql
        intro tokens'' hscan'
        cases hloop.symm.trans hscan'.eq_loop
        exact hroom
    · intro hfit
      refine .inr ⟨tokens, tokenizerTokenizeSql_eq_some.mpr ⟨hsome, ?_, hfit tokens hscan⟩, htokens⟩
      obtain ⟨before, semicolon, rfl, -⟩ := htokens
      simp

lemma holdsNoTerminator_of_cut {text : CString} (hnul : 0 ∉ text)
    (hcut : cutStatement text = none) : HoldsNoTerminator text := by
  intro tokens h
  exact tokenizerLoop_leftover hnul hcut (tokenizerTokenizeSql_eq_some.mp h).1

/-- A text with a terminator yields a semicolon, if it tokenizes. -/
lemma tokenizerLoop_terminator {fuel : Nat} {text p rest : CString} {tokens : List Token}
    (hnul : 0 ∉ text) (hcut : cutStatement text = some (p, rest))
    (h : tokenizerLoop fuel text = some tokens) : ∃ t ∈ tokens, t.type = .semicolon := by
  induction fuel generalizing text p tokens with
  | zero =>
    cases text with
    | nil => cases hcut
    | cons b sql => cases h
  | succ fuel ih =>
    cases text with
    | nil => cases hcut
    | cons b sql =>
      obtain ⟨⟨ts, left⟩, hstep, hloop⟩ := Option.bind_eq_some_iff.mp h
      obtain ⟨more, hmore, ⟨⟩⟩ := Option.bind_eq_some_iff.mp hloop
      rcases tokenizerStep_cut hnul hstep with ⟨chunk, hsplit, hclosed, -⟩ |
        ⟨-, -, t, rfl, htype⟩
      · rw [hsplit, cutStatement, hclosed.cutQuoted_append, Option.map_eq_some_iff] at hcut
        obtain ⟨⟨p', r⟩, hcut, heq⟩ := hcut
        simp only [Prod.mk.injEq] at heq
        obtain ⟨-, rfl⟩ := heq
        obtain ⟨t, ht, htype⟩ := ih (fun hmem => hnul (by simp [hsplit, hmem])) hcut hmore
        exact ⟨t, List.mem_append_right _ ht, htype⟩
      · exact ⟨t, by simp, htype⟩

/-! ### Splitting at an index -/

/-- What the callers of `utils_find_statement_terminator` rely on: the text up to the terminator is
a statement, and without a terminator nothing is left to run. -/
def SplitsAt (text : CString) (start : Nat) : Prop :=
  let terminatorIndex := utilsFindStatementTerminator text start
  if terminatorIndex = -1 then HoldsNoTerminator (text.drop start)
  else ∃ piece, utilsSubstring text start (toSizeT (terminatorIndex - start + 1)) = some piece ∧
    TokenizesAsStatement piece

/-- The index of the first terminator, if there is one, is the value of an `int`. -/
def TerminatorFits (text : CString) (start : Nat) : Prop :=
  ∀ piece rest, cutStatement (text.drop start) = some (piece, rest) → start + piece.length ≤ 2 ^ 31

/-- The tokens of the first statement, if there is one, fit. -/
def StatementFits (text : CString) (start : Nat) : Prop :=
  ∀ piece rest, cutStatement (text.drop start) = some (piece, rest) → TokensFit piece

lemma toSizeT_eq {n : Nat} (h : n < 2 ^ 64) : toSizeT n = n := by
  rw [toSizeT, Int.emod_eq_of_lt] <;> omega

/-- The substring up to the terminator. -/
lemma utilsSubstring_piece {text piece rest : CString} {start : Nat}
    (hcut : cutStatement (text.drop start) = some (piece, rest))
    (hfits : start + piece.length ≤ 2 ^ 31) :
    utilsFindStatementTerminator text start ≠ -1 ∧
      toSizeT (utilsFindStatementTerminator text start + 1) = start + piece.length ∧
      utilsSubstring text start (toSizeT (utilsFindStatementTerminator text start - start + 1)) =
        some piece := by
  obtain ⟨hsplit, -, body, hbody, -⟩ := cutQuoted_some hcut
  have hpos : 0 < piece.length := by simp [hbody]
  rw [utilsFindStatementTerminator_some hcut, toInt_eq (by omega)]
  have hlength : ((start + (piece.length - 1) : Nat) : Int) - start + 1 = (piece.length : Nat) := by
    omega
  have hnext : ((start + (piece.length - 1) : Nat) : Int) + 1 = (start + piece.length : Nat) := by
    omega
  rw [hlength, hnext, toSizeT_eq (by omega), toSizeT_eq (by omega)]
  refine ⟨by omega, rfl, ?_⟩
  have htotal := congrArg List.length hsplit
  rw [List.length_drop, List.length_append] at htotal
  rw [utilsSubstring, if_pos (by omega), hsplit, List.take_left]

lemma splitsAt_iff {text : CString} {start : Nat} (hnul : 0 ∉ text)
    (hfits : TerminatorFits text start) : SplitsAt text start ↔ StatementFits text start := by
  have hnul' : 0 ∉ text.drop start := fun hmem => hnul (List.mem_of_mem_drop hmem)
  rw [SplitsAt]
  cases hcut : cutStatement (text.drop start) with
  | none =>
    rw [utilsFindStatementTerminator_none hcut, if_pos rfl]
    refine iff_of_true (holdsNoTerminator_of_cut hnul' hcut) fun piece rest hsome => ?_
    cases hcut.symm.trans hsome
  | some cut =>
    obtain ⟨piece, rest⟩ := cut
    obtain ⟨hne, -, hpiece⟩ := utilsSubstring_piece hcut (hfits piece rest hcut)
    obtain ⟨hsplit, -⟩ := cutQuoted_some hcut
    have hstatement := tokenizesAsStatement_iff (fun hmem => hnul' (by simp [hsplit, hmem]))
      (cutQuoted_piece hcut)
    rw [if_neg hne]
    constructor
    · rintro ⟨piece', hsub, htokens⟩ piece'' rest' hcut'
      cases hpiece.symm.trans hsub
      cases hcut.symm.trans hcut'
      exact hstatement.mp htokens
    · intro h
      exact ⟨piece, hpiece, hstatement.mpr (h piece rest hcut)⟩

/-- Beyond `INT_MAX` the index comes back negative. -/
lemma toInt_wrapped {n : Nat} (hlow : 2 ^ 31 ≤ n) (hhigh : n < 2 ^ 32) :
    toInt n = (n : Int) - 2 ^ 32 := by
  rw [toInt, Int.bmod_def]
  omega

lemma fits_of_splitsAt {text : CString} {start : Nat} (hnul : 0 ∉ text)
    (hsize : text.length ≤ 2 ^ 32) (hsome : tokenizerTokenizeSql (text.drop start) ≠ none)
    (h : SplitsAt text start) : TerminatorFits text start := by
  intro piece rest hcut
  by_contra hbeyond
  obtain ⟨hsplit, -, body, hbody, -⟩ := cutQuoted_some hcut
  have hpos : 0 < piece.length := by simp [hbody]
  have htotal := congrArg List.length hsplit
  rw [List.length_drop, List.length_append] at htotal
  rw [SplitsAt, utilsFindStatementTerminator_some hcut,
    toInt_wrapped (by omega) (by omega)] at h
  by_cases hlast : start + (piece.length - 1) = 2 ^ 32 - 1
  · -- the index is taken for `FAILURE`, but the rest holds a terminator
    rw [if_pos (by omega)] at h
    obtain ⟨tokens, htokens⟩ := Option.ne_none_iff_exists'.mp hsome
    obtain ⟨t, ht, htype⟩ := tokenizerLoop_terminator
      (fun hmem => hnul (List.mem_of_mem_drop hmem)) hcut
      (tokenizerTokenizeSql_eq_some.mp htokens).1
    exact h tokens htokens t ht htype
  · -- the length of the statement has wrapped, and nothing is cut out
    rw [if_neg (by omega)] at h
    obtain ⟨piece', hpiece, -⟩ := h
    rw [utilsSubstring, if_neg] at hpiece
    · cases hpiece
    · rw [toSizeT]
      omega

/-- A round reads at most one token. -/
lemma tokenizerStep_count {b : Byte} {sql rest : CString} {ts : List Token}
    (h : tokenizerStep b sql = some (ts, rest)) : ts.length + rest.length ≤ (b :: sql).length := by
  have hrest := tokenizerStep_length h
  have hts : ts.length ≤ 1 := by
    cases TokenizerRound.of_step h <;> simp
  rw [List.length_cons]
  omega

lemma TokenizerScan.count {sql : CString} {found : Option (List Token)}
    (h : TokenizerScan sql found) : ∀ tokens ∈ found, tokens.length ≤ sql.length := by
  induction h with
  | done => simp
  | fail => simp
  | round hstep _ ih =>
    rintro tokens htokens
    obtain ⟨more, hmore, rfl⟩ := Option.map_eq_some_iff.mp htokens
    have hcount := tokenizerStep_count hstep
    have hrest := ih more hmore
    rw [List.length_append]
    omega

/-- A text of at most 1 GiB has no more tokens than fit. -/
lemma tokensFit_of_length {text : CString} (h : text.length ≤ 2 ^ 30) : TokensFit text :=
  fun tokens hscan => (hscan.count tokens rfl).trans h

/-! ### File mode -/

/-- `SplitInto text pieces left`: the text is the pieces with white space before them, each ending
at its first semicolon outside quotes, and `left`, which holds no such semicolon. -/
inductive SplitInto : CString → List CString → CString → Prop
  | left {text : CString} (hcut : cutStatement text = none) (hleft : HoldsNoTerminator text) :
      SplitInto text [] text
  | piece {gap piece rest left : CString} {pieces : List CString} (hgap : Blank gap)
      (hcut : cutStatement piece = some (piece, []))
      (hpiece : TokenizesAsStatement piece ↔ TokensFit piece) (hmore : SplitInto rest pieces left) :
      SplitInto (gap ++ (piece ++ rest)) (piece :: pieces) left

/-- The bytes of a text up to its last terminator. -/
def completeLength (text : CString) : Nat :=
  (splitQuoted (chr '\'') (chr ';') false text).1.flatten.length

lemma completeLength_some {text p rest : CString} (h : cutStatement text = some (p, rest)) :
    completeLength text = p.length + completeLength rest := by
  rw [completeLength, splitQuoted_some h, List.flatten_cons, List.length_append, completeLength]

lemma blank_takeWhile (text : CString) : Blank (text.takeWhile isspace) :=
  fun _ hb => List.mem_takeWhile_imp hb

lemma cutStatement_dropWhile (text : CString) : cutStatement text =
    (cutStatement (text.dropWhile isspace)).map fun (p, rest) =>
      (text.takeWhile isspace ++ p, rest) := by
  have hsplit := (blank_takeWhile text).closed.cutQuoted_append (text.dropWhile isspace)
  rw [List.takeWhile_append_dropWhile] at hsplit
  exact hsplit

lemma drop_mainSkipWhitespace (content : CString) (start : Nat) :
    content.drop (mainSkipWhitespace content start) = (content.drop start).dropWhile isspace := by
  have hskip : ∀ text : CString,
      text.drop (text.takeWhile isspace).length = text.dropWhile isspace := by
    intro text
    calc text.drop (text.takeWhile isspace).length
        = (text.takeWhile isspace ++ text.dropWhile isspace).drop
            (text.takeWhile isspace).length := by rw [List.takeWhile_append_dropWhile]
      _ = text.dropWhile isspace := List.drop_left
  rw [mainSkipWhitespace, ← List.drop_drop, hskip]

/-- A statement is passed to the engine without the white space before it. -/
lemma mainProcessSqlStatement_eq {σ : Type} (execute : σ → CString → σ) (engine : σ)
    {text p rest : CString} (hcut : cutStatement text = some (p, rest)) :
    mainProcessSqlStatement execute engine p = execute engine (p.dropWhile isspace) := by
  obtain ⟨-, -, body, rfl, -⟩ := cutQuoted_some hcut
  have htrim : utilsTrim (body ++ [chr ';']) = (body ++ [chr ';']).dropWhile isspace := by
    rw [utilsTrim, List.rdropWhile_concat_neg _ _ _ (by decide)]
  have hne : ¬ ((body ++ [chr ';']).dropWhile isspace).isEmpty = true := by
    intro hempty
    have hspace := List.dropWhile_eq_nil_iff.mp (List.isEmpty_iff.mp hempty) (chr ';') (by simp)
    exact absurd hspace (by decide)
  rw [mainProcessSqlStatement, htrim, if_neg hne]

/-- A piece that follows skipped white space begins with no further white space. -/
lemma dropWhile_piece {text piece rest : CString}
    (hcut : cutStatement (text.dropWhile isspace) = some (piece, rest)) :
    piece.dropWhile isspace = piece := by
  obtain ⟨hsplit, -, body, hbody, -⟩ := cutQuoted_some hcut
  obtain ⟨c, piece, rfl⟩ := List.exists_cons_of_ne_nil (show piece ≠ [] by simp [hbody])
  have hc : isspace c = false := by
    have hhead := List.head?_dropWhile_not isspace text
    rw [hsplit] at hhead
    simpa using hhead
  rw [List.dropWhile_cons_of_neg (by simp [hc])]

/-- One round of file mode: the white space is skipped and the piece behind it is run. -/
lemma mainFileLoop_round {σ : Type} (execute : σ → CString → σ) {content : CString} {start : Nat}
    {piece rest : CString}
    (hpiece : cutStatement ((content.drop start).dropWhile isspace) = some (piece, rest))
    (hfits : mainSkipWhitespace content start + piece.length ≤ 2 ^ 31) (fuel : Nat) (engine : σ) :
    mainFileLoop execute (fuel + 1) content engine start =
      mainFileLoop execute fuel content (execute engine piece)
        (mainSkipWhitespace content start + piece.length) := by
  have hskip := drop_mainSkipWhitespace content start
  obtain ⟨hsplit, -, body, hbody, -⟩ := cutQuoted_some hpiece
  obtain ⟨hne, hnext, hsub⟩ := utilsSubstring_piece (hskip ▸ hpiece) hfits
  have hsecond : ¬ (content.drop (mainSkipWhitespace content start)).isEmpty = true := by
    rw [hskip, hsplit]
    simp [hbody]
  have hfirst : ¬ (content.drop start).isEmpty = true := by
    intro hempty
    rw [hskip, List.isEmpty_iff.mp hempty] at hsecond
    exact hsecond rfl
  simp only [mainFileLoop]
  rw [if_neg hfirst, if_neg hsecond, if_neg hne, hsub, hnext]
  dsimp only
  rw [mainProcessSqlStatement_eq execute engine hpiece, dropWhile_piece hpiece]

lemma mainFileLoop_splitInto {fuel : Nat} {content : CString} {start : Nat} (hnul : 0 ∉ content)
    (hfuel : (content.drop start).length ≤ fuel)
    (hfits : start + completeLength (content.drop start) ≤ 2 ^ 31) :
    ∃ pieces left, SplitInto (content.drop start) pieces left ∧
      pieces = (splitQuoted (chr '\'') (chr ';') false (content.drop start)).1.map
        (List.dropWhile isspace) ∧
      ∀ (σ : Type) (execute : σ → CString → σ) (engine : σ),
        mainFileLoop execute fuel content engine start =
          (pieces.foldl execute engine, .success) := by
  induction fuel generalizing start with
  | zero =>
    have hempty : content.drop start = [] := List.length_eq_zero_iff.mp (Nat.le_zero.mp hfuel)
    rw [hempty]
    exact ⟨[], [], .left rfl (holdsNoTerminator_of_cut (by simp) rfl), rfl, fun _ _ _ => rfl⟩
  | succ fuel ih =>
    have hnul' : 0 ∉ content.drop start := fun hmem => hnul (List.mem_of_mem_drop hmem)
    have hskip := drop_mainSkipWhitespace content start
    have hcut := cutStatement_dropWhile (content.drop start)
    cases hpiece : cutStatement ((content.drop start).dropWhile isspace) with
    | none =>
      -- no statement is left
      rw [hpiece, Option.map_none] at hcut
      refine ⟨[], _, .left hcut (holdsNoTerminator_of_cut hnul' hcut), ?_,
        fun σ execute engine => ?_⟩
      · rw [splitQuoted_none hcut]
        rfl
      · have hnone := utilsFindStatementTerminator_none (hskip ▸ hpiece)
        simp only [mainFileLoop, hnone, if_true]
        split_ifs <;> rfl
    | some cut =>
      obtain ⟨piece, rest⟩ := cut
      rw [hpiece, Option.map_some] at hcut
      obtain ⟨hsplit, -, body, hbody, -⟩ := cutQuoted_some hpiece
      have hwhole := List.takeWhile_append_dropWhile (p := isspace) (l := content.drop start)
      rw [hsplit] at hwhole
      rw [completeLength_some hcut, List.length_append] at hfits
      have hstart : mainSkipWhitespace content start =
          start + ((content.drop start).takeWhile isspace).length := rfl
      have hdrop : content.drop (mainSkipWhitespace content start + piece.length) = rest := by
        rw [← List.drop_drop, hskip, hsplit, List.drop_left]
      have hlength := congrArg List.length hwhole
      simp only [List.length_append] at hlength
      have hpos : 0 < piece.length := by simp [hbody]
      obtain ⟨pieces, left, hmore, hpieces, hrun⟩ :=
        @ih (mainSkipWhitespace content start + piece.length) (by rw [hdrop]; omega)
          (by rw [hdrop]; omega)
      rw [hdrop] at hmore hpieces
      refine ⟨piece :: pieces, left, ?_, ?_, fun σ execute engine => ?_⟩
      · rw [← hwhole] at hnul' ⊢
        refine .piece (blank_takeWhile _) (cutQuoted_piece hpiece)
          (tokenizesAsStatement_iff ?_ (cutQuoted_piece hpiece)) hmore
        exact fun hmem => hnul' (by simp [hmem])
      · rw [splitQuoted_some hcut, List.map_cons, List.dropWhile_append_of_pos (blank_takeWhile _),
          dropWhile_piece hpiece, hpieces]
      · rw [mainFileLoop_round execute hpiece (by omega), hrun]
        rfl

/-- Where the terminator's index is the value of an `int`, statement splitting agrees with the
tokenizer exactly if the tokens up to it fit into their array; in a text of at most 4 GiB whose rest
tokenizes it agrees nowhere else. A file whose terminators have such indices is run statement by
statement. -/
theorem statementSplitting (text : CString) (hnul : 0 ∉ text) :
    (∀ start, TerminatorFits text start → (SplitsAt text start ↔ StatementFits text start)) ∧
    (text.length ≤ 2 ^ 32 → ∀ start, tokenizerTokenizeSql (text.drop start) ≠ none →
      (SplitsAt text start ↔ TerminatorFits text start ∧ StatementFits text start)) ∧
    (completeLength text ≤ 2 ^ 31 → ∃ pieces left, SplitInto text pieces left ∧
      ∀ (σ : Type) (execute : σ → CString → σ) (engine : σ),
        mainRunFileMode execute engine text = (pieces.foldl execute engine, .success)) := by
  refine ⟨fun start hfits => splitsAt_iff hnul hfits, ?_, ?_⟩
  · intro hsize start hsome
    constructor
    · intro hsplits
      have hfits := fits_of_splitsAt hnul hsize hsome hsplits
      exact ⟨hfits, (splitsAt_iff hnul hfits).mp hsplits⟩
    · rintro ⟨hfits, htokens⟩
      exact (splitsAt_iff hnul hfits).mpr htokens
  · intro hfits
    obtain ⟨pieces, left, hsplit, -, hrun⟩ :=
      @mainFileLoop_splitInto text.length text 0 hnul le_rfl (by simpa using hfits)
    refine ⟨pieces, left, hsplit, fun σ execute engine => ?_⟩
    rw [mainRunFileMode, cView_eq_self hnul]
    exact hrun σ execute engine

theorem statementSplitting_insert :
    SplitsAt (bytes " INSERT INTO t VALUES (';''');x") 0 ∧
      ∃ pieces left, SplitInto (bytes " INSERT INTO t VALUES (';''');x") pieces left ∧
        mainRunFileMode recordCall [] (bytes " INSERT INTO t VALUES (';''');x") =
          (pieces.foldl recordCall [], .success) := by
  have h := statementSplitting (bytes " INSERT INTO t VALUES (';''');x") (by decide)
  refine ⟨(h.1 0 ?_).mpr ?_, ?_⟩
  · rintro piece rest ⟨⟩
    decide
  · rintro piece rest ⟨⟩
    exact tokensFit_of_length (by decide)
  · obtain ⟨pieces, left, hsplit, hrun⟩ := h.2.2 (by decide)
    exact ⟨pieces, left, hsplit, hrun _ recordCall []⟩

/-- Spaces and a semicolon behind them. -/
def farTerminator (n : Nat) : CString := List.replicate n (chr ' ') ++ [chr ';']

lemma blank_replicate (n : Nat) : Blank (List.replicate n (chr ' ')) := by
  intro b hb
  rw [List.eq_of_mem_replicate hb]
  rfl

lemma cutStatement_farTerminator (n : Nat) :
    cutStatement (farTerminator n) = some (farTerminator n, []) := by
  rw [farTerminator, cutStatement, (blank_replicate n).closed.cutQuoted_append,
    cutQuoted_separator (by decide)]
  rfl

lemma farTerminator_scans (n : Nat) :
    0 ∉ farTerminator n ∧ utilsFindStatementTerminator (farTerminator n) 0 = toInt n ∧
      tokenizerTokenizeSql (farTerminator n) = some [⟨.semicolon, .truncate 255 (bytes ";")⟩] := by
  refine ⟨?_, ?_, ?_⟩
  · intro hmem
    rcases List.mem_append.mp hmem with hmem | hmem
    · exact absurd (List.eq_of_mem_replicate hmem) (by decide)
    · exact absurd (List.mem_singleton.mp hmem) (by decide)
  · have hcut : cutStatement ((farTerminator n).drop 0) = some (farTerminator n, []) :=
      cutStatement_farTerminator n
    rw [utilsFindStatementTerminator_some hcut]
    simp [farTerminator]
  · rw [tokenizerTokenizeSql_eq_some, farTerminator, tokenizerLoop_blank (blank_replicate n)]
    exact ⟨rfl, by simp, by simp⟩

/-- A terminator at index 4294967295 is taken for none. -/
theorem farTerminator_missed :
    0 ∉ farTerminator 4294967295 ∧
      utilsFindStatementTerminator (farTerminator 4294967295) 0 = -1 ∧
      tokenizerTokenizeSql (farTerminator 4294967295) =
        some [⟨.semicolon, .truncate 255 (bytes ";")⟩] := by
  obtain ⟨hnul, hindex, htokens⟩ := farTerminator_scans 4294967295
  exact ⟨hnul, hindex.trans (by decide), htokens⟩

/-- Commas and a semicolon behind them. -/
def commas (n : Nat) : CString := List.replicate n (chr ',') ++ [chr ';']

lemma commas_scan (n : Nat) : TokenizerScan (commas n)
    (some (List.replicate n ⟨.comma, .truncate 255 (bytes ",")⟩ ++
      [⟨.semicolon, .truncate 255 (bytes ";")⟩])) := by
  induction n with
  | zero =>
    have hstep := tokenizerStep_punctuation (show (chr ';', .semicolon) ∈ punctuation by decide) []
    exact .round hstep .done
  | succ n ih =>
    have hstep := tokenizerStep_punctuation (show (chr ',', .comma) ∈ punctuation by decide)
      (commas n)
    exact .round hstep ih

lemma cutStatement_commas (n : Nat) : cutStatement (commas n) = some (commas n, []) := by
  have hclosed : QuoteClosed (chr '\'') (chr ';') (List.replicate n (chr ',')) := by
    refine .of_plain fun b hb => ?_
    rw [List.eq_of_mem_replicate hb]
    decide
  rw [commas, cutStatement, hclosed.cutQuoted_append, cutQuoted_separator (by decide)]
  rfl

/-- From 2^30 commas on, the tokens do not fit: the terminator is found, but no token array comes of
the statement, although none of its tokens is too long. -/
theorem commas_refused {n : Nat} (hmany : 2 ^ 30 ≤ n) (hint : n < 2 ^ 31) :
    ¬ SplitsAt (commas n) 0 := by
  have hnul : 0 ∉ commas n := by
    intro hmem
    rcases List.mem_append.mp hmem with hmem | hmem
    · exact absurd (List.eq_of_mem_replicate hmem) (by decide)
    · exact absurd (List.mem_singleton.mp hmem) (by decide)
  have hcut : cutStatement ((commas n).drop 0) = some (commas n, []) := cutStatement_commas n
  have hfits : TerminatorFits (commas n) 0 := by
    intro piece rest hsome
    cases hcut.symm.trans hsome
    simp only [commas, List.length_append, List.length_replicate, List.length_singleton]
    omega
  rw [splitsAt_iff hnul hfits]
  intro h
  have hcount := h _ _ hcut _ (commas_scan n)
  simp only [List.length_append, List.length_replicate, List.length_singleton] at hcount
  omega

end MiniDbms
