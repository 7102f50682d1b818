import MiniDbms.Sql.Names
import MiniDbms.Sql.RoundTrip

/-!
# The spelling of tokens

A round of the tokenizer consumes the spelling of one token, or a space. From the spellings
follows that a list of tokens can be written out and read back, whatever text it came from.
-/

namespace MiniDbms

/-! ### Spellings -/

/-- The tokens of one byte that have a type of their own, and the star. -/
def punctuation : List (Byte × TokenType) :=
  [(chr '(', .lparen), (chr ')', .rparen), (chr ',', .comma), (chr ';', .semicolon),
    (chr '*', .identifier)]

/-- The texts of operator tokens. -/
def operatorTexts : List CString :=
  [bytes "!", bytes "<", bytes ">", bytes "=", bytes "!=", bytes "<=", bytes ">="]

/-- `[+-]?[0-9]+` -/
def IsNumber (w : CString) : Prop :=
  ∃ sign digits, w = sign ++ digits ∧ (sign = [] ∨ sign = [chr '-'] ∨ sign = [chr '+']) ∧
    digits ≠ [] ∧ ∀ b ∈ digits, isdigit b = true

/-- A byte that starts no token but an unknown one; a sign starts a number before a digit. -/
def IsOther (b : Byte) : Prop :=
  isspace b = false ∧ b ∉ bytes "(),;*'!<>=" ∧ isdigit b = false ∧ isalpha b = false ∧
    b ≠ chr '_' ∧ b ≠ 0

/-- A literal between quotes. -/
def quoted (v : CString) : CString := chr '\'' :: (quoteBody v ++ [chr '\''])

/-- `Spelled chunk t`: the bytes that a round consumes for the token `t`. -/
inductive Spelled : CString → Token → Prop
  | punctuation {b : Byte} {type : TokenType} (h : (b, type) ∈ MiniDbms.punctuation) :
      Spelled [b] ⟨type, .truncate 255 [b]⟩
  | literal (v : CBuf 255) : Spelled (quoted v.val) ⟨.strLiteral, v⟩
  | operator {op : CString} (h : op ∈ operatorTexts) : Spelled op ⟨.operator, .truncate 255 op⟩
  | number {w : CString} (h : IsNumber w) (hlen : w.length ≤ 255) :
      Spelled w ⟨.intLiteral, .truncate 255 w⟩
  | word {b : Byte} {w : CString} {t : Token} (hb : isalpha b = true ∨ b = chr '_')
      (hw : ∀ c ∈ w, isWordByte c = true) (hlen : (b :: w).length ≤ 255)
      (ht : tokenizerWordToken (b :: w) = some t) : Spelled (b :: w) t
  | unknown {b : Byte} (h : IsOther b) : Spelled [b] ⟨.unknown, .truncate 255 [b]⟩

/-! ### The branches of a round -/

lemma tokenizerStep_space {b : Byte} (h : isspace b = true) (sql : CString) :
    tokenizerStep b sql = some ([], sql) := by
  simp [tokenizerStep, h]

lemma tokenizerStep_punctuation {b : Byte} {type : TokenType} (h : (b, type) ∈ punctuation)
    (sql : CString) : tokenizerStep b sql = some ([⟨type, .truncate 255 [b]⟩], sql) := by
  simp only [punctuation, List.mem_cons, List.not_mem_nil, or_false, Prod.mk.injEq] at h
  rcases h with ⟨rfl, rfl⟩ | ⟨rfl, rfl⟩ | ⟨rfl, rfl⟩ | ⟨rfl, rfl⟩ | ⟨rfl, rfl⟩ <;> rfl

lemma tokenizerStep_quote (sql : CString) :
    tokenizerStep (chr '\'') sql = (do
      let (s, rest) ← tokenizerReadString maxTokenValue 0 sql
      let t ← tokenizerMakeToken .strLiteral s
      return ([t], rest)) := by
  simp +decide [tokenizerStep]

lemma tokenizerReadOperator_text {b : Byte} (h : b ∈ bytes "!<>=") (sql : CString) :
    (tokenizerReadOperator b sql).1 ∈ operatorTexts ∧
      b :: sql = (tokenizerReadOperator b sql).1 ++ (tokenizerReadOperator b sql).2 := by
  simp only [bytes, String.reduceToList, List.map_cons, List.map_nil, List.mem_cons,
    List.not_mem_nil, or_false] at h
  cases sql with
  | nil => rcases h with rfl | rfl | rfl | rfl <;> exact ⟨by decide, rfl⟩
  | cons c sql =>
    by_cases hc : c = chr '='
    · subst hc
      rcases h with rfl | rfl | rfl | rfl <;> simp +decide [tokenizerReadOperator]
    · rcases h with rfl | rfl | rfl | rfl <;> simp +decide [tokenizerReadOperator, hc]

lemma tokenizerStep_operatorText {b : Byte} (h : b ∈ bytes "!<>=") (sql : CString) :
    tokenizerStep b sql =
      some ([⟨.operator, .truncate 255 (tokenizerReadOperator b sql).1⟩],
        (tokenizerReadOperator b sql).2) := by
  have htext : ∀ op ∈ operatorTexts, op.length ≤ 255 ∧ 0 ∉ op := by
    intro op hop
    simp only [operatorTexts, List.mem_cons, List.not_mem_nil, or_false] at hop
    rcases hop with rfl | rfl | rfl | rfl | rfl | rfl | rfl <;> exact ⟨by decide, by decide⟩
  obtain ⟨hlen, hnul⟩ := htext _ (tokenizerReadOperator_text h sql).1
  have hmake := tokenizerMakeToken_eq .operator hlen hnul
  simp only [bytes, String.reduceToList, List.map_cons, List.map_nil, List.mem_cons,
    List.not_mem_nil, or_false] at h
  rcases h with rfl | rfl | rfl | rfl <;> simp +decide [tokenizerStep, hmake]

lemma numericStart_facts {b : Byte} : (isdigit b = true ∨ b = chr '-' ∨ b = chr '+') →
    isspace b = false ∧ b ≠ 0 ∧ b ∉ bytes "(),;*'!<>=" := by
  revert b
  apply forall_byte
  decide +kernel

lemma numericStart_of {b : Byte} {sql : CString} (h : tokenizerIsNumericStart b sql = true) :
    isdigit b = true ∨ b = chr '-' ∨ b = chr '+' := by
  simp only [tokenizerIsNumericStart, Bool.or_eq_true, Bool.and_eq_true, beq_iff_eq] at h
  rcases h with hdigit | ⟨hsign, -⟩
  · exact .inl hdigit
  · exact .inr hsign

lemma tokenizerStep_number {b : Byte} {sql : CString} (h : tokenizerIsNumericStart b sql = true) :
    tokenizerStep b sql = (do
      let (s, rest) ← tokenizerReadNumber maxTokenValue b sql
      let t ← tokenizerMakeToken .intLiteral s
      return ([t], rest)) := by
  obtain ⟨hspace, -, hpunct⟩ := numericStart_facts (numericStart_of h)
  simp only [bytes, String.reduceToList, List.map_cons, List.map_nil, List.mem_cons,
    List.not_mem_nil, or_false, not_or] at hpunct
  simp [tokenizerStep, hspace, hpunct, h]

lemma tokenizerStep_other {b : Byte} {sql : CString} (h : IsOther b)
    (hnum : tokenizerIsNumericStart b sql = false) :
    tokenizerStep b sql = some ([⟨.unknown, .truncate 255 [b]⟩], sql) := by
  obtain ⟨hspace, hpunct, -, halpha, hscore, hnul⟩ := h
  have hmake : tokenizerMakeToken .unknown [b] = some ⟨.unknown, .truncate 255 [b]⟩ :=
    tokenizerMakeToken_eq .unknown (by simp) (by simpa using hnul.symm)
  simp only [bytes, String.reduceToList, List.map_cons, List.map_nil, List.mem_cons,
    List.not_mem_nil, or_false, not_or] at hpunct
  simp [tokenizerStep, hspace, hpunct, hnum, halpha, hscore, hmake]

/-! ### What the readers consume -/

lemma tokenizerReadWhile_split {p : Byte → Bool} {n length : Nat} {sql w rest : CString}
    (hlength : length < n) (h : tokenizerReadWhile p n length sql = some (w, rest)) :
    sql = w ++ rest ∧ length + w.length < n := by
  induction sql generalizing length w with
  | nil =>
    cases h
    exact ⟨rfl, hlength⟩
  | cons b sql ih =>
    simp only [tokenizerReadWhile] at h
    split_ifs at h with hb hroom
    · obtain ⟨⟨w', rest'⟩, hread, ⟨⟩⟩ := Option.map_eq_some_iff.mp h
      obtain ⟨hsplit, hlen⟩ := ih (Nat.lt_of_not_ge hroom) hread
      refine ⟨by rw [hsplit, List.cons_append], ?_⟩
      show length + (w'.length + 1) < n
      omega
    · cases h
      exact ⟨rfl, hlength⟩

lemma tokenizerReadString_split {n length : Nat} {sql s rest : CString}
    (hlength : length < n) (h : tokenizerReadString n length sql = some (s, rest)) :
    sql = quoteBody s ++ chr '\'' :: rest ∧ length + s.length < n := by
  fun_induction tokenizerReadString n length sql generalizing s rest with
  | case1 => cases h
  | case2 =>
    cases h
    exact ⟨rfl, hlength⟩
  | case3 => cases h
  | case4 => cases h
  | case5 length sql hroom ih =>
    obtain ⟨⟨s', rest'⟩, hread, ⟨⟩⟩ := Option.map_eq_some_iff.mp h
    obtain ⟨hsplit, hlen⟩ := ih (Nat.lt_of_not_ge hroom) hread
    refine ⟨by simp [quoteBody, ← hsplit], ?_⟩
    show length + (s'.length + 1) < n
    omega
  | case6 =>
    cases h
    exact ⟨rfl, hlength⟩
  | case7 => cases h
  | case8 length b c sql hb hroom ih =>
    obtain ⟨⟨s', rest'⟩, hread, ⟨⟩⟩ := Option.map_eq_some_iff.mp h
    obtain ⟨hsplit, hlen⟩ := ih (Nat.lt_of_not_ge hroom) hread
    refine ⟨by simp [quoteBody, hb, ← hsplit], ?_⟩
    show length + (s'.length + 1) < n
    omega

lemma tokenizerReadNumber_split {b : Byte} {sql w rest : CString}
    (hstart : tokenizerIsNumericStart b sql = true)
    (h : tokenizerReadNumber maxTokenValue b sql = some (w, rest)) :
    b :: sql = w ++ rest ∧ IsNumber w ∧ w.length ≤ 255 := by
  rw [tokenizerReadNumber] at h
  by_cases hsign : b = chr '-' ∨ b = chr '+'
  · rw [if_pos hsign, if_neg (by decide)] at h
    obtain ⟨⟨digits, rest'⟩, hread, ⟨⟩⟩ := Option.map_eq_some_iff.mp h
    obtain ⟨hsplit, hlen⟩ := tokenizerReadWhile_split (by decide) hread
    have hdigit : sql.head?.any isdigit = true := by
      have hb : isdigit b = false := by rcases hsign with rfl | rfl <;> rfl
      simp only [tokenizerIsNumericStart, hb, Bool.false_or, Bool.and_eq_true] at hstart
      exact hstart.2
    refine ⟨by rw [hsplit, List.cons_append], ⟨[b], digits, rfl, by simpa using hsign, ?_,
      tokenizerReadWhile_all hread⟩, ?_⟩
    · -- the digit that the reader was called for is read
      rintro rfl
      cases sql with
      | nil => simp at hdigit
      | cons c sql =>
        have hc : isdigit c = true := by simpa using hdigit
        simp only [tokenizerReadWhile, hc, if_true] at hread
        split_ifs at hread
        simp at hread
    · rw [List.length_cons]
      simp only [maxTokenValue] at hlen
      omega
  · rw [if_neg hsign] at h
    obtain ⟨hsplit, hlen⟩ := tokenizerReadWhile_split (by decide) h
    have hdigit : isdigit b = true := by
      rw [not_or] at hsign
      simpa [tokenizerIsNumericStart, hsign] using hstart
    refine ⟨hsplit, ⟨[], w, rfl, .inl rfl, ?_, tokenizerReadWhile_all h⟩, ?_⟩
    · rintro rfl
      simp only [tokenizerReadWhile, hdigit, if_true] at h
      split_ifs at h
      simp at h
    · simp only [maxTokenValue] at hlen
      omega

lemma quoteBody_nul {s : CString} (h : 0 ∉ quoteBody s) : 0 ∉ s := by
  induction s with
  | nil => simp
  | cons b s ih =>
    by_cases hb : b = chr '\''
    · simp only [quoteBody, hb, if_true, List.mem_cons, not_or] at h
      simp only [hb, List.mem_cons, not_or]
      exact ⟨by decide, ih h.2.2⟩
    · simp only [quoteBody, hb, if_false, List.mem_cons, not_or] at h
      simp only [List.mem_cons, not_or]
      exact ⟨h.1, ih h.2⟩

/-- The byte of a round that takes none of the other branches. -/
lemma IsOther.of_branches {b : Byte} {sql : CString} (hnul : 0 ∉ b :: sql)
    (hspace : ¬ isspace b = true) (hpunct : ¬ ∃ type, (b, type) ∈ punctuation)
    (hquote : b ≠ chr '\'') (hop : b ∉ bytes "!<>=")
    (hnum : ¬ tokenizerIsNumericStart b sql = true)
    (hword : ¬ (isalpha b = true ∨ b = chr '_')) : IsOther b := by
  rw [not_or] at hword
  refine ⟨by simpa using hspace, ?_, ?_, by simpa using hword.1, hword.2, ?_⟩
  · intro hmem
    have hcases := forall_mem_of_all (p := fun c => c ∈ punctuation.map Prod.fst ∨
      c = chr '\'' ∨ c ∈ bytes "!<>=") (s := bytes "(),;*'!<>=") rfl b hmem
    rcases hcases with hfirst | hb | hb
    · obtain ⟨⟨c, type⟩, hp, rfl⟩ := List.mem_map.mp hfirst
      exact hpunct ⟨type, hp⟩
    · exact hquote hb
    · exact hop hb
  · simp only [tokenizerIsNumericStart, Bool.or_eq_true, not_or] at hnum
    simpa using hnum.1
  · rintro rfl
    exact hnul List.mem_cons_self

/-- A round consumes a space, or the spelling of the token it appends. -/
lemma tokenizerStep_spelled {b : Byte} {sql rest : CString} {ts : List Token}
    (hnul : 0 ∉ b :: sql) (h : tokenizerStep b sql = some (ts, rest)) :
    (isspace b = true ∧ ts = [] ∧ rest = sql) ∨
      ∃ chunk t, b :: sql = chunk ++ rest ∧ ts = [t] ∧ Spelled chunk t := by
  by_cases hspace : isspace b = true
  · rw [tokenizerStep_space hspace] at h
    cases h
    exact .inl ⟨hspace, rfl, rfl⟩
  right
  by_cases hpunct : ∃ type, (b, type) ∈ punctuation
  · obtain ⟨type, hmem⟩ := hpunct
    rw [tokenizerStep_punctuation hmem] at h
    cases h
    exact ⟨[b], _, rfl, rfl, .punctuation hmem⟩
  by_cases hquote : b = chr '\''
  · subst hquote
    rw [tokenizerStep_quote] at h
    obtain ⟨⟨s, rest'⟩, hread, ht⟩ := Option.bind_eq_some_iff.mp h
    obtain ⟨hsplit, hlen⟩ := tokenizerReadString_split (by decide) hread
    have hs : s.length ≤ 255 ∧ 0 ∉ s := by
      refine ⟨?_, quoteBody_nul fun hmem => hnul ?_⟩
      · simp only [maxTokenValue] at hlen
        omega
      · simp [hsplit, hmem]
    dsimp only at ht
    rw [tokenizerMakeToken_eq .strLiteral hs.1 hs.2, CBuf.truncate_eq hs.1 hs.2] at ht
    cases ht
    exact ⟨quoted s, _, by simp [quoted, hsplit], rfl, .literal ⟨s, hs⟩⟩
  by_cases hop : b ∈ bytes "!<>="
  · rw [tokenizerStep_operatorText hop] at h
    cases h
    obtain ⟨hmem, hsplit⟩ := tokenizerReadOperator_text hop sql
    exact ⟨_, _, hsplit, rfl, .operator hmem⟩
  by_cases hnum : tokenizerIsNumericStart b sql = true
  · rw [tokenizerStep_number hnum] at h
    obtain ⟨⟨w, rest'⟩, hread, ht⟩ := Option.bind_eq_some_iff.mp h
    obtain ⟨hsplit, hnumber, hlen⟩ := tokenizerReadNumber_split hnum hread
    dsimp only at ht
    rw [tokenizerMakeToken_eq .intLiteral hlen fun hmem => hnul (by simp [hsplit, hmem])] at ht
    cases ht
    exact ⟨w, _, hsplit, rfl, .number hnumber hlen⟩
  by_cases hword : isalpha b = true ∨ b = chr '_'
  · rw [tokenizerStep_word hword] at h
    obtain ⟨⟨w, rest'⟩, hread, ht⟩ := Option.bind_eq_some_iff.mp h
    obtain ⟨t, htoken, ⟨⟩⟩ := Option.bind_eq_some_iff.mp ht
    obtain ⟨w', rfl⟩ := tokenizerReadWord_cons (wordStart_facts hword).2.2.1 hread
    obtain ⟨hsplit, hlen⟩ := tokenizerReadWhile_split (by decide) hread
    have hall := tokenizerReadWhile_all hread
    refine ⟨b :: w', t, hsplit, rfl, .word hword (fun c hc => hall c (by simp [hc])) ?_ htoken⟩
    simp only [maxTokenValue] at hlen
    omega
  · have hother : IsOther b := .of_branches hnul hspace hpunct hquote hop hnum hword
    rw [tokenizerStep_other hother (by simpa using hnum)] at h
    cases h
    exact ⟨[b], _, rfl, rfl, .unknown hother⟩

/-! ### Writing tokens out -/

/-- A string literal between quotes, every other token by its value. -/
def Token.render (t : Token) : CString :=
  match t.type with
  | .strLiteral => quoted t.value.val
  | _           => t.value.val

/-- The tokens separated by single spaces. -/
def renderTokens (tokens : List Token) : CString :=
  [chr ' '].intercalate (tokens.map Token.render)

/-- The text is at its end, or at a space. -/
def AtGap (rest : CString) : Prop := ∀ b ∈ rest.head?, b = chr ' '

lemma AtGap.forall {rest : CString} (h : AtGap rest) {p : Byte → Prop} (hp : p (chr ' ')) :
    ∀ b ∈ rest.head?, p b := by
  intro b hb
  rw [h b hb]
  exact hp

/-- A keyword is written in upper case, and read as the same keyword again. -/
lemma tokenizerWordToken_render {b : Byte} {w : CString} {t : Token}
    (hb : isalpha b = true ∨ b = chr '_') (hw : ∀ c ∈ w, isWordByte c = true)
    (hlen : (b :: w).length ≤ 255) (ht : tokenizerWordToken (b :: w) = some t) :
    ∃ b' w', t.render = b' :: w' ∧ (isalpha b' = true ∨ b' = chr '_') ∧
      (∀ c ∈ w', isWordByte c = true) ∧ (b' :: w').length ≤ 255 ∧
        tokenizerWordToken (b' :: w') = some t := by
  by_cases hkey : utilsIsSqlKeyword (b :: w) = true
  · obtain ⟨k, hk, hequals⟩ := List.any_eq_true.mp hkey
    obtain ⟨-, hklen, hknul, hupper, -⟩ := sqlKeywords_facts k hk
    have hmap : (b :: w).map toupper = k := by
      rw [utilsEqualsIgnoreCase_iff.mp hequals, hupper]
    have hsize : (b :: w).length < maxTokenValue := Nat.lt_succ_of_le hlen
    rw [tokenizerWordToken, if_pos hkey, utilsToUpperCopy, if_pos hsize, hmap, Option.bind_some,
      tokenizerMakeToken_eq _ hklen hknul] at ht
    cases ht
    obtain ⟨b', w', rfl, hb', hw', hlen', htoken⟩ :=
      Lexeme.Spells.word (l := .keyword k) rfl hk hupper
    exact ⟨b', w', by rw [Token.render, CBuf.truncate_eq hklen hknul], hb', hw', hlen', htoken⟩
  · have hnul : 0 ∉ b :: w := by
      intro hmem
      rcases List.mem_cons.mp hmem with rfl | hmem
      · exact (isWordByte_facts (wordStart_facts hb).2.2.1).2.1 rfl
      · exact (isWordByte_facts (hw 0 hmem)).2.1 rfl
    have htoken := ht
    rw [tokenizerWordToken, if_neg hkey, tokenizerMakeToken_eq _ hlen hnul] at ht
    cases ht
    exact ⟨b, w, by rw [Token.render, CBuf.truncate_eq hlen hnul], hb, hw, hlen, htoken⟩

lemma tokenizerStep_numberText {w rest : CString} (hnumber : IsNumber w) (hlen : w.length ≤ 255)
    (hrest : ∀ b ∈ rest.head?, isdigit b = false) :
    0 ∉ w ∧ ∃ b s, w = b :: s ∧
      tokenizerStep b (s ++ rest) = some ([⟨.intLiteral, .truncate 255 w⟩], rest) := by
  obtain ⟨sign, digits, rfl, hsign, hne, hdigits⟩ := hnumber
  obtain ⟨d, ds, rfl⟩ := List.exists_cons_of_ne_nil hne
  have hd : isdigit d = true := hdigits d List.mem_cons_self
  have hnul : 0 ∉ sign ++ d :: ds := by
    intro hmem
    rcases List.mem_append.mp hmem with hmem | hmem
    · rcases hsign with rfl | rfl | rfl <;> simp +decide at hmem
    · exact (isdigit_facts (hdigits 0 hmem)).2.2.2.1 rfl
  have hmake := tokenizerMakeToken_eq .intLiteral hlen hnul
  refine ⟨hnul, ?_⟩
  rw [List.length_append] at hlen
  have hread := tokenizerReadWhile_append (n := sign.length) hdigits
    (Nat.lt_succ_of_le hlen) hrest
  rcases hsign with rfl | hsign
  · refine ⟨d, ds, rfl, ?_⟩
    have hstart : tokenizerIsNumericStart d (ds ++ rest) = true := by
      simp [tokenizerIsNumericStart, hd]
    have hplain : ¬ (d = chr '-' ∨ d = chr '+') := by
      have hfacts := isdigit_facts hd
      simp [hfacts.2.1, hfacts.2.2.1]
    rw [tokenizerStep_number hstart, tokenizerReadNumber, if_neg hplain]
    rw [List.length_nil, List.cons_append] at hread
    rw [List.nil_append] at hmake
    simp [hread, hmake]
  · obtain ⟨c, hc, rfl⟩ : ∃ c, (c = chr '-' ∨ c = chr '+') ∧ sign = [c] := by
      rcases hsign with rfl | rfl
      · exact ⟨chr '-', .inl rfl, rfl⟩
      · exact ⟨chr '+', .inr rfl, rfl⟩
    refine ⟨c, d :: ds, rfl, ?_⟩
    have hstart : tokenizerIsNumericStart c (d :: ds ++ rest) = true := by
      simp [tokenizerIsNumericStart, hd, hc]
    rw [tokenizerStep_number hstart, tokenizerReadNumber, if_pos hc, if_neg (by decide)]
    rw [List.length_singleton] at hread
    simp only [hread, Option.map_some, Option.bind_eq_bind, Option.bind_some]
    rw [List.singleton_append] at hmake
    simp [hmake]

/-- A token written before a gap is read as itself. -/
lemma Spelled.reread {chunk : CString} {t : Token} (h : Spelled chunk t) {rest : CString}
    (hrest : AtGap rest) :
    ∃ b s, t.render = b :: s ∧ tokenizerStep b (s ++ rest) = some ([t], rest) := by
  cases h with
  | @punctuation b type hmem =>
    have hstep := tokenizerStep_punctuation hmem rest
    simp only [MiniDbms.punctuation, List.mem_cons, List.not_mem_nil, or_false,
      Prod.mk.injEq] at hmem
    rcases hmem with ⟨rfl, rfl⟩ | ⟨rfl, rfl⟩ | ⟨rfl, rfl⟩ | ⟨rfl, rfl⟩ | ⟨rfl, rfl⟩ <;>
      exact ⟨_, [], rfl, hstep⟩
  | literal v =>
    refine ⟨chr '\'', quoteBody v.val ++ [chr '\''], rfl, ?_⟩
    have hread := tokenizerReadString_quoteBody (n := 0) (v := v.val)
      (Nat.lt_succ_of_le (by simpa using v.2.1)) (hrest.forall (by decide))
    have hmake := tokenizerMakeToken_eq .strLiteral v.2.1 v.2.2
    rw [tokenizerStep_quote]
    simp [hread, hmake]
  | @operator op hmem =>
    have hne : rest.head? ≠ some (chr '=') := fun h => absurd (hrest _ h) (by decide)
    simp only [operatorTexts, List.mem_cons, List.not_mem_nil, or_false] at hmem
    rcases hmem with rfl | rfl | rfl | rfl | rfl | rfl | rfl <;>
      exact ⟨_, _, rfl, by simp +decide [tokenizerStep, tokenizerReadOperator, hne]; rfl⟩
  | @number w hnumber hlen =>
    obtain ⟨hnul, b, s, rfl, hstep⟩ :=
      tokenizerStep_numberText hnumber hlen (hrest.forall (by decide))
    exact ⟨b, s, by rw [Token.render, CBuf.truncate_eq hlen hnul], hstep⟩
  | @word b w t hb hw hlen ht =>
    obtain ⟨b', w', hrender, hb', hw', hlen', ht'⟩ := tokenizerWordToken_render hb hw hlen ht
    exact ⟨b', w', hrender, tokenizerStep_eq_word hb' hw' hlen' (hrest.forall (by decide)) ht'⟩
  | @unknown b hother =>
    have hnul : 0 ∉ [b] := by simpa using hother.2.2.2.2.2.symm
    refine ⟨b, [], by rw [Token.render, CBuf.truncate_eq (by simp) hnul], ?_⟩
    apply tokenizerStep_other hother
    simp only [tokenizerIsNumericStart, hother.2.2.1, Bool.false_or, Bool.and_eq_false_iff]
    right
    cases rest with
    | nil => rfl
    | cons c rest =>
      rw [hrest c rfl]
      rfl

/-! ### Reading back what was written -/

lemma tokenizerLoop_spelled {fuel : Nat} {sql : CString} {ts : List Token} (hnul : 0 ∉ sql)
    (h : tokenizerLoop fuel sql = some ts) : ∀ t ∈ ts, ∃ chunk, Spelled chunk t := by
  induction fuel generalizing sql ts with
  | zero =>
    cases sql with
    | nil =>
      cases h
      simp
    | cons b sql => cases h
  | succ fuel ih =>
    cases sql with
    | nil =>
      cases h
      simp
    | cons b sql =>
      obtain ⟨⟨ts', rest⟩, hstep, hloop⟩ := Option.bind_eq_some_iff.mp h
      obtain ⟨more, hmore, ⟨⟩⟩ := Option.bind_eq_some_iff.mp hloop
      rcases tokenizerStep_spelled hnul hstep with ⟨-, rfl, rfl⟩ | ⟨chunk, t, hsplit, rfl, ht⟩
      · exact ih (fun hmem => hnul (List.mem_cons_of_mem _ hmem)) hmore
      · have hmore' := ih (fun hmem => hnul (by simp [hsplit, hmem])) hmore
        intro t' ht'
        rcases List.mem_cons.mp ht' with rfl | ht'
        · exact ⟨chunk, ht⟩
        · exact hmore' t' ht'

lemma renderTokens_cons_cons (t t' : Token) (ts : List Token) :
    renderTokens (t :: t' :: ts) = t.render ++ chr ' ' :: renderTokens (t' :: ts) := by
  simp [renderTokens, List.intercalate]

lemma tokenizerLoop_renderTokens {ts : List Token} (h : ∀ t ∈ ts, ∃ chunk, Spelled chunk t) :
    tokenizerLoop (renderTokens ts).length (renderTokens ts) = some ts := by
  induction ts with
  | nil => rfl
  | cons t ts ih =>
    obtain ⟨chunk, ht⟩ := h t List.mem_cons_self
    cases ts with
    | nil =>
      obtain ⟨b, s, hrender, hstep⟩ := @Spelled.reread chunk t ht [] (by rintro b ⟨⟩)
      have htext : renderTokens [t] = b :: s := by simp [renderTokens, List.intercalate, hrender]
      rw [List.append_nil] at hstep
      rw [htext, tokenizerLoop_step hstep]
      rfl
    | cons t' ts =>
      obtain ⟨b, s, hrender, hstep⟩ :=
        @Spelled.reread chunk t ht (chr ' ' :: renderTokens (t' :: ts)) (by rintro b ⟨⟩; rfl)
      rw [renderTokens_cons_cons, hrender, List.cons_append, tokenizerLoop_step hstep,
        tokenizerLoop_step (tokenizerStep_space (by decide) _),
        ih fun t'' ht'' => h t'' (List.mem_cons_of_mem _ ht'')]
      rfl

/-- The scan of a text round by round, without fuel: `none` when a round fails. -/
inductive TokenizerScan : CString → Option (List Token) → Prop
  | done : TokenizerScan [] (some [])
  | fail {b : Byte} {sql : CString} (h : tokenizerStep b sql = none) :
      TokenizerScan (b :: sql) none
  | round {b : Byte} {sql rest : CString} {ts : List Token} {more : Option (List Token)}
      (h : tokenizerStep b sql = some (ts, rest)) (hmore : TokenizerScan rest more) :
      TokenizerScan (b :: sql) (more.map (ts ++ ·))

/-- Every scan comes to an end, with what the loop returns. -/
lemma tokenizerScan_loop (sql : CString) : TokenizerScan sql (tokenizerLoop sql.length sql) := by
  induction hn : sql.length using Nat.strong_induction_on generalizing sql with
  | _ n ih =>
    subst hn
    cases sql with
    | nil => exact .done
    | cons b sql =>
      cases hstep : tokenizerStep b sql with
      | none =>
        have hloop : tokenizerLoop (b :: sql).length (b :: sql) = none := by
          simp [tokenizerLoop, hstep]
        rw [hloop]
        exact .fail hstep
      | some result =>
        obtain ⟨ts, rest⟩ := result
        rw [tokenizerLoop_step hstep]
        exact .round hstep (ih _ (Nat.lt_succ_of_le (tokenizerStep_length hstep)) rest rfl)

/-- A text without NUL that tokenizes is read back from its written tokens; the scan of any text
ends, every round consuming at least one byte. -/
theorem tokenizerTokenizeSql_renderTokens (sql : CString) :
    (∀ tokens, 0 ∉ sql → tokenizerTokenizeSql sql = some tokens →
      tokenizerTokenizeSql (renderTokens tokens) = some tokens) ∧
    TokenizerScan sql (tokenizerLoop sql.length sql) ∧
    ∀ (b : Byte) (rest rest' : CString) (ts : List Token),
      tokenizerStep b rest = some (ts, rest') → rest'.length < (b :: rest).length := by
  refine ⟨?_, tokenizerScan_loop sql, ?_⟩
  · intro tokens hnul h
    obtain ⟨hloop, hne, hroom⟩ := tokenizerTokenizeSql_eq_some.mp h
    have hback := tokenizerLoop_renderTokens (tokenizerLoop_spelled hnul hloop)
    exact tokenizerTokenizeSql_eq_some.mpr ⟨hback, hne, hroom⟩
  · intro b rest rest' ts hstep
    exact Nat.lt_succ_of_le (tokenizerStep_length hstep)

theorem tokenizerTokenizeSql_renderTokens_select :
    tokenizerTokenizeSql (renderTokens
      [⟨.keyword, .truncate 255 (bytes "SELECT")⟩, ⟨.strLiteral, .truncate 255 (bytes "it's")⟩,
        ⟨.operator, .truncate 255 (bytes "!=")⟩, ⟨.intLiteral, .truncate 255 (bytes "-5")⟩]) =
      some
      [⟨.keyword, .truncate 255 (bytes "SELECT")⟩, ⟨.strLiteral, .truncate 255 (bytes "it's")⟩,
        ⟨.operator, .truncate 255 (bytes "!=")⟩, ⟨.intLiteral, .truncate 255 (bytes "-5")⟩] :=
  (tokenizerTokenizeSql_renderTokens (bytes "select'it''s'!=-5")).1 _ (by decide) rfl

end MiniDbms
