import MiniDbms.Common.Utils
import MiniDbms.Library.Doubling

/-!
# The tokenizer of `tokenizer.c`

The text still to be read takes the place of the index into `sql`: `sql[index]` is its head, and
its end is the terminating NUL. `none` stands for `FAILURE` and for a `NULL` token array.
-/

namespace MiniDbms

inductive TokenType where
  | keyword
  | identifier
  | intLiteral
  | strLiteral
  | operator
  | lparen
  | rparen
  | comma
  | semicolon
  | unknown
  deriving DecidableEq, Repr

/-- `MAX_TOKEN_VALUE` -/
def maxTokenValue : Nat := 256

structure Token where
  type : TokenType
  value : CBuf 255
  deriving DecidableEq, Repr

/-! ### Reading one token -/

/-- The copy into `Token.value` in `tokenizer_append_token`. -/
def tokenizerMakeToken (type : TokenType) (value : CString) : Option Token :=
  match utilsSafeStrcpy 255 value with
  | (v, .success) => some ⟨type, v⟩
  | (_, .failure) => none

/-- The bytes `tokenizer_read_word` accepts. -/
def isWordByte (b : Byte) : Bool := isalnum b || b == chr '_'

/-- The loop that `tokenizer_read_word` and `tokenizer_read_number` share, `length` bytes being in
the buffer: the bytes it reads and the text after them. -/
def tokenizerReadWhile (p : Byte → Bool) (bufferSize : Nat) (length : Nat) :
    CString → Option (CString × CString)
  | []       => some ([], [])
  | b :: sql =>
    if p b then
      if length + 1 ≥ bufferSize then none
      else (tokenizerReadWhile p bufferSize (length + 1) sql).map fun (w, rest) => (b :: w, rest)
    else some ([], b :: sql)

/-- `tokenizer_read_word` -/
def tokenizerReadWord (bufferSize : Nat) (sql : CString) : Option (CString × CString) :=
  tokenizerReadWhile isWordByte bufferSize 0 sql

/-- The loop of `tokenizer_read_string`, after the opening quote. -/
def tokenizerReadString (bufferSize : Nat) (length : Nat) : CString → Option (CString × CString)
  | []            => none
  | [b]           => if b = chr '\'' then some ([], []) else none
  | b :: c :: sql =>
    if b = chr '\'' then
      if c = chr '\'' then
        if length + 1 ≥ bufferSize then none
        else (tokenizerReadString bufferSize (length + 1) sql).map fun (s, rest) =>
          (chr '\'' :: s, rest)
      else some ([], c :: sql)
    else if length + 1 ≥ bufferSize then none
    else (tokenizerReadString bufferSize (length + 1) (c :: sql)).map fun (s, rest) =>
      (b :: s, rest)

/-- `tokenizer_read_number` -/
def tokenizerReadNumber (bufferSize : Nat) (b : Byte) (sql : CString) :
    Option (CString × CString) :=
  if b = chr '-' ∨ b = chr '+' then
    if 1 ≥ bufferSize then none
    else (tokenizerReadWhile isdigit bufferSize 1 sql).map fun (w, rest) => (b :: w, rest)
  else tokenizerReadWhile isdigit bufferSize 0 (b :: sql)

/-- `tokenizer_is_numeric_start` -/
def tokenizerIsNumericStart (b : Byte) (sql : CString) : Bool :=
  isdigit b || ((b == chr '-' || b == chr '+') && sql.head?.any isdigit)

/-- The text of the operator at the start of `b :: sql`, and what follows it. -/
def tokenizerReadOperator (b : Byte) (sql : CString) : CString × CString :=
  if (b = chr '!' ∨ b = chr '<' ∨ b = chr '>') ∧ sql.head? = some (chr '=') then
    ([b, chr '='], sql.tail)
  else ([b], sql)

/-- The token of a word: keywords are stored in upper case. -/
def tokenizerWordToken (word : CString) : Option Token :=
  if utilsIsSqlKeyword word then
    (utilsToUpperCopy word maxTokenValue).bind (tokenizerMakeToken .keyword)
  else tokenizerMakeToken .identifier word

/-- One round of the loop of `tokenizer_tokenize_sql` on `b :: sql`: the tokens it appends (one,
or none for a space) and the text it leaves. -/
def tokenizerStep (b : Byte) (sql : CString) : Option (List Token × CString) :=
  if isspace b then some ([], sql)
  else if b = chr '(' then (tokenizerMakeToken .lparen (bytes "(")).map fun t => ([t], sql)
  else if b = chr ')' then (tokenizerMakeToken .rparen (bytes ")")).map fun t => ([t], sql)
  else if b = chr ',' then (tokenizerMakeToken .comma (bytes ",")).map fun t => ([t], sql)
  else if b = chr ';' then (tokenizerMakeToken .semicolon (bytes ";")).map fun t => ([t], sql)
  else if b = chr '*' then (tokenizerMakeToken .identifier (bytes "*")).map fun t => ([t], sql)
  else if b = chr '\'' then do
    let (s, rest) ← tokenizerReadString maxTokenValue 0 sql
    let t ← tokenizerMakeToken .strLiteral s
    return ([t], rest)
  else if b = chr '!' ∨ b = chr '<' ∨ b = chr '>' ∨ b = chr '=' then do
    let t ← tokenizerMakeToken .operator (tokenizerReadOperator b sql).1
    return ([t], (tokenizerReadOperator b sql).2)
  else if tokenizerIsNumericStart b sql then do
    let (s, rest) ← tokenizerReadNumber maxTokenValue b sql
    let t ← tokenizerMakeToken .intLiteral s
    return ([t], rest)
  else if isalpha b || b == chr '_' then do
    let (w, rest) ← tokenizerReadWord maxTokenValue (b :: sql)
    let t ← tokenizerWordToken w
    return ([t], rest)
  else (tokenizerMakeToken .unknown [b]).map fun t => ([t], sql)

/-- `sizeof(Token)` -/
def tokenSize : Nat := 260

/-- `tokenizer_append_token` finds or makes room in the array for each of `count` tokens. -/
def tokenArrayHolds (count : Nat) : Bool := (reserveSlots tokenSize 0 initialCapacity count).isSome

/-- The loop of `tokenizer_tokenize_sql`, the growth of the array apart. Each round consumes a byte,
so that the length of the text is fuel enough. -/
def tokenizerLoop : Nat → CString → Option (List Token)
  | _, []             => some []
  | 0, _ :: _         => none
  | fuel + 1, b :: sql => do
    let (ts, rest) ← tokenizerStep b sql
    let more ← tokenizerLoop fuel rest
    return ts ++ more

/-- `tokenizer_tokenize_sql`; without a token the array is still `NULL`. A token that finds no room
ends the loop as a round that fails does, so that the room may be looked at afterwards. -/
def tokenizerTokenizeSql (sql : CString) : Option (List Token) :=
  match tokenizerLoop sql.length sql with
  | some []        => none
  | some (t :: ts) => if tokenArrayHolds (t :: ts).length then some (t :: ts) else none
  | none           => none

lemma tokenArrayHolds_iff {count : Nat} : tokenArrayHolds count = true ↔ count ≤ 2 ^ 30 := by
  rw [tokenArrayHolds, Option.isSome_iff_ne_none]
  exact reserveSlots_empty_iff (by decide) (by decide) count

lemma tokenizerTokenizeSql_eq_some {sql : CString} {tokens : List Token} :
    tokenizerTokenizeSql sql = some tokens ↔
      tokenizerLoop sql.length sql = some tokens ∧ tokens ≠ [] ∧ tokens.length ≤ 2 ^ 30 := by
  rw [tokenizerTokenizeSql, ← tokenArrayHolds_iff]
  cases tokenizerLoop sql.length sql with
  | none => simp
  | some ts =>
    cases ts with
    | nil => grind
    | cons t ts => grind

/-! ### Every round consumes a byte -/

lemma tokenizerReadWhile_length {p : Byte → Bool} {n length : Nat} {sql w rest : CString}
    (h : tokenizerReadWhile p n length sql = some (w, rest)) : rest.length ≤ sql.length := by
  induction sql generalizing length w rest with
  | nil =>
    simp only [tokenizerReadWhile, Option.some.injEq, Prod.mk.injEq] at h
    simp [← h.2]
  | cons b sql ih =>
    simp only [tokenizerReadWhile] at h
    split_ifs at h with hb hroom
    · obtain ⟨⟨w', rest'⟩, hread, ⟨⟩⟩ := Option.map_eq_some_iff.mp h
      exact (ih hread).trans (Nat.le_succ _)
    · cases h
      exact le_rfl

lemma tokenizerReadString_length {n length : Nat} {sql s rest : CString}
    (h : tokenizerReadString n length sql = some (s, rest)) : rest.length ≤ sql.length := by
  fun_induction tokenizerReadString n length sql generalizing s rest with
  | case1 => cases h
  | case2 => grind
  | case3 => cases h
  | case4 => cases h
  | case5 length sql hroom ih =>
    obtain ⟨⟨s', rest'⟩, hread, ⟨⟩⟩ := Option.map_eq_some_iff.mp h
    exact (ih hread).trans (by simp; omega)
  | case6 => grind
  | case7 => cases h
  | case8 length b c sql hb hroom ih =>
    obtain ⟨⟨s', rest'⟩, hread, ⟨⟩⟩ := Option.map_eq_some_iff.mp h
    exact (ih hread).trans (Nat.le_succ _)

lemma tokenizerReadNumber_length {n : Nat} {b : Byte} {sql w rest : CString}
    (hb : tokenizerIsNumericStart b sql = true)
    (h : tokenizerReadNumber n b sql = some (w, rest)) : rest.length ≤ sql.length := by
  unfold tokenizerReadNumber at h
  split_ifs at h with hsign hroom
  · obtain ⟨⟨w', rest'⟩, hread, ⟨⟩⟩ := Option.map_eq_some_iff.mp h
    exact tokenizerReadWhile_length hread
  · have hdigit : isdigit b = true := by
      simp only [not_or] at hsign
      simpa [tokenizerIsNumericStart, hsign] using hb
    simp only [tokenizerReadWhile, hdigit, if_true] at h
    split_ifs at h
    obtain ⟨⟨w', rest'⟩, hread, ⟨⟩⟩ := Option.map_eq_some_iff.mp h
    exact tokenizerReadWhile_length hread

/-- What a round of the loop can do. -/
inductive TokenizerRound (b : Byte) (sql : CString) : List Token → CString → Prop
  | space (h : isspace b = true) : TokenizerRound b sql [] sql
  | single {type : TokenType} {value : CString} {t : Token}
      (hmake : tokenizerMakeToken type value = some t)
      (hstar : type = .identifier → value = bytes "*") : TokenizerRound b sql [t] sql
  | string {s rest : CString} {t : Token}
      (hread : tokenizerReadString maxTokenValue 0 sql = some (s, rest))
      (hmake : tokenizerMakeToken .strLiteral s = some t) : TokenizerRound b sql [t] rest
  | operator {t : Token}
      (hmake : tokenizerMakeToken .operator (tokenizerReadOperator b sql).1 = some t) :
      TokenizerRound b sql [t] (tokenizerReadOperator b sql).2
  | number {s rest : CString} {t : Token} (hstart : tokenizerIsNumericStart b sql = true)
      (hread : tokenizerReadNumber maxTokenValue b sql = some (s, rest))
      (hmake : tokenizerMakeToken .intLiteral s = some t) : TokenizerRound b sql [t] rest
  | word {w rest : CString} {t : Token} (hstart : (isalpha b || b == chr '_') = true)
      (hread : tokenizerReadWord maxTokenValue (b :: sql) = some (w, rest))
      (hmake : tokenizerWordToken w = some t) : TokenizerRound b sql [t] rest

/-- A byte that can start a word can go on with it. -/
lemma isWordByte_of_start {b : Byte} (h : (isalpha b || b == chr '_') = true) :
    isWordByte b = true := by
  rw [isWordByte, isalnum]
  rcases Bool.or_eq_true_iff.mp h with halpha | hscore
  · simp [halpha]
  · simp [hscore]

lemma TokenizerRound.of_step {b : Byte} {sql rest : CString} {ts : List Token}
    (h : tokenizerStep b sql = some (ts, rest)) : TokenizerRound b sql ts rest := by
  have hsingle : ∀ {type : TokenType} {value : CString},
      (tokenizerMakeToken type value).map (fun t => ([t], sql)) = some (ts, rest) →
        (type = .identifier → value = bytes "*") → TokenizerRound b sql ts rest := by
    intro type value ho hstar
    obtain ⟨t, hmake, ⟨⟩⟩ := Option.map_eq_some_iff.mp ho
    exact .single hmake hstar
  unfold tokenizerStep at h
  by_cases hspace : isspace b = true
  · rw [if_pos hspace] at h
    cases h
    exact .space hspace
  rw [if_neg hspace] at h
  by_cases hlparen : b = chr '('
  · rw [if_pos hlparen] at h
    exact hsingle h (by rintro ⟨⟩)
  rw [if_neg hlparen] at h
  by_cases hrparen : b = chr ')'
  · rw [if_pos hrparen] at h
    exact hsingle h (by rintro ⟨⟩)
  rw [if_neg hrparen] at h
  by_cases hcomma : b = chr ','
  · rw [if_pos hcomma] at h
    exact hsingle h (by rintro ⟨⟩)
  rw [if_neg hcomma] at h
  by_cases hsemicolon : b = chr ';'
  · rw [if_pos hsemicolon] at h
    exact hsingle h (by rintro ⟨⟩)
  rw [if_neg hsemicolon] at h
  by_cases hstar : b = chr '*'
  · rw [if_pos hstar] at h
    exact hsingle h fun _ => rfl
  rw [if_neg hstar] at h
  by_cases hquote : b = chr '\''
  · rw [if_pos hquote] at h
    obtain ⟨⟨s, rest'⟩, hread, ht⟩ := Option.bind_eq_some_iff.mp h
    obtain ⟨t, hmake, ⟨⟩⟩ := Option.bind_eq_some_iff.mp ht
    exact .string hread hmake
  rw [if_neg hquote] at h
  by_cases hop : b = chr '!' ∨ b = chr '<' ∨ b = chr '>' ∨ b = chr '='
  · rw [if_pos hop] at h
    obtain ⟨t, hmake, ⟨⟩⟩ := Option.bind_eq_some_iff.mp h
    exact .operator hmake
  rw [if_neg hop] at h
  by_cases hnum : tokenizerIsNumericStart b sql = true
  · rw [if_pos hnum] at h
    obtain ⟨⟨s, rest'⟩, hread, ht⟩ := Option.bind_eq_some_iff.mp h
    obtain ⟨t, hmake, ⟨⟩⟩ := Option.bind_eq_some_iff.mp ht
    exact .number hnum hread hmake
  rw [if_neg hnum] at h
  by_cases hword : (isalpha b || b == chr '_') = true
  · rw [if_pos hword] at h
    obtain ⟨⟨w, rest'⟩, hread, ht⟩ := Option.bind_eq_some_iff.mp h
    obtain ⟨t, hmake, ⟨⟩⟩ := Option.bind_eq_some_iff.mp ht
    exact .word hword hread hmake
  · rw [if_neg hword] at h
    exact hsingle h (by rintro ⟨⟩)

lemma tokenizerStep_length {b : Byte} {sql rest : CString} {ts : List Token}
    (h : tokenizerStep b sql = some (ts, rest)) : rest.length ≤ sql.length := by
  cases TokenizerRound.of_step h with
  | space => exact le_rfl
  | single => exact le_rfl
  | string hread => exact tokenizerReadString_length hread
  | operator =>
    unfold tokenizerReadOperator
    split_ifs <;> simp
  | number hstart hread => exact tokenizerReadNumber_length hstart hread
  | word hstart hread =>
    -- the first byte is part of the word, so that the loop leaves at most what follows it
    simp only [tokenizerReadWord, tokenizerReadWhile, isWordByte_of_start hstart, if_true] at hread
    split_ifs at hread
    obtain ⟨⟨w', rest''⟩, hread', ⟨⟩⟩ := Option.map_eq_some_iff.mp hread
    exact tokenizerReadWhile_length hread'

/-- Fuel beyond the length of the text changes nothing. -/
lemma tokenizerLoop_fuel {fuel : Nat} {sql : CString} (h : sql.length ≤ fuel) :
    tokenizerLoop fuel sql = tokenizerLoop sql.length sql := by
  induction fuel using Nat.strong_induction_on generalizing sql with
  | _ fuel ih =>
    cases sql with
    | nil => simp [tokenizerLoop]
    | cons b sql =>
      obtain ⟨fuel, rfl⟩ : ∃ n, fuel = n + 1 := ⟨fuel - 1, by simp at h; omega⟩
      rw [List.length_cons, Nat.add_le_add_iff_right] at h
      simp only [tokenizerLoop, List.length_cons, Option.bind_eq_bind]
      apply Option.bind_congr
      rintro ⟨ts, rest⟩ hstep
      have hlen := tokenizerStep_length hstep
      rw [ih fuel (Nat.lt_succ_self _) (hlen.trans h)]
      rcases Nat.lt_or_ge sql.length (fuel + 1) with hlt | hge
      · rw [ih sql.length hlt hlen]
      · omega

/-- One round of the loop, without fuel. -/
lemma tokenizerLoop_step {b : Byte} {sql rest : CString} {ts : List Token}
    (h : tokenizerStep b sql = some (ts, rest)) :
    tokenizerLoop (b :: sql).length (b :: sql) =
      (tokenizerLoop rest.length rest).map (ts ++ ·) := by
  have hfuel := tokenizerLoop_fuel (tokenizerStep_length h)
  simp only [List.length_cons, tokenizerLoop, h, Option.bind_eq_bind, Option.bind_some, hfuel]
  cases tokenizerLoop rest.length rest <;> rfl

/-! ### The cache -/

/-- `SOFT_PARSER_CACHE_LIMIT` -/
def softParserCacheLimit : Nat := 64

structure SoftParserCacheEntry where
  sql : CString
  tokens : List Token
  deriving DecidableEq, Repr

/-- The list from `tokenizer_cache_head` on, and the two counters; the limit keeps the first one
small, while the second one is an `int` that nothing bounds. -/
structure TokenizerCache where
  entries : List SoftParserCacheEntry
  entryCount : Nat
  hitCount : Int
  deriving DecidableEq, Repr

def TokenizerCache.empty : TokenizerCache := ⟨[], 0, 0⟩

/-- `tokenizer_lookup_cache`: a hit moves its entry to the head of the list. -/
def tokenizerLookupCache (cache : TokenizerCache) (sql : CString) :
    TokenizerCache × Option (List Token) :=
  match cache.entries.find? (fun e => strcmp e.sql sql == 0) with
  | none   => (cache, none)
  | some e =>
    let moved :=
      { cache with entries := e :: cache.entries.eraseP (fun e => strcmp e.sql sql == 0) }
    match e.tokens with
    | []     => (moved, none)
    | _ :: _ => ({ moved with hitCount := wrapInt (moved.hitCount + 1) }, some e.tokens)

/-- `tokenizer_evict_oldest_cache_entry` -/
def tokenizerEvictOldestCacheEntry (cache : TokenizerCache) : TokenizerCache :=
  match cache.entries with
  | []     => cache
  | _ :: _ =>
    { cache with entries := cache.entries.dropLast, entryCount := cache.entryCount - 1 }

/-- `tokenizer_store_cache` -/
def tokenizerStoreCache (cache : TokenizerCache) (sql : CString) (tokens : List Token) :
    TokenizerCache × Status :=
  match tokens with
  | []     => (cache, .failure)
  | _ :: _ =>
    let stored := { cache with
      entries := ⟨sql, tokens⟩ :: cache.entries, entryCount := cache.entryCount + 1 }
    if stored.entryCount > softParserCacheLimit then
      (tokenizerEvictOldestCacheEntry stored, .success)
    else (stored, .success)

/-- `tokenizer_tokenize` -/
def tokenizerTokenize (cache : TokenizerCache) (sql : CString) :
    TokenizerCache × Option (List Token) :=
  let working := utilsTrim sql
  if working.isEmpty then (cache, none)
  else
    match tokenizerLookupCache cache working with
    | (cache, some tokens) => (cache, some tokens)
    | (cache, none)        =>
      match tokenizerTokenizeSql working with
      | none        => (cache, none)
      | some tokens => ((tokenizerStoreCache cache working tokens).1, some tokens)

/-- `tokenizer_cleanup_cache` -/
def tokenizerCleanupCache (_ : TokenizerCache) : TokenizerCache := .empty

end MiniDbms
