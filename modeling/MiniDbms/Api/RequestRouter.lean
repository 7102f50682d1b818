import MiniDbms.Api.ResponseBuilder
import MiniDbms.Common.Buffer
import MiniDbms.Library.Search

/-!
# The request body of `request_router.c`

The position in the body is the text from `cursor` on. Memory does not run out.
-/

namespace MiniDbms

/-- `request_router_skip_spaces` -/
def requestRouterSkipSpaces (cursor : CString) : CString := cursor.dropWhile isspace

/-- `request_router_append_json_char`, `none` being the `NULL` buffer. -/
def requestRouterAppendJsonChar (buffer : Option CString) (value : Byte) : Option CString :=
  some (utilsAppendBuffer (buffer.getD []) [value])

/-- What is appended for the character behind a backslash; other characters are refused. -/
def jsonEscapeValue (b : Byte) : Option Byte :=
  if b = chr '"' ∨ b = chr '\\' ∨ b = chr '/' then some b
  else if b = chr 'n' then some (chr '\n')
  else if b = chr 'r' then some (chr '\r')
  else if b = chr 't' then some (chr '\t')
  else none

/-- The loop of `extract_sql_from_json`, behind the opening quote. -/
def extractSqlLoop (sql : Option CString) : CString → Option (Option CString)
  | []               => none
  | [b]              => if b = chr '"' then some sql else none
  | b :: c :: cursor =>
    if b = chr '"' then some sql
    else if b = chr '\\' then
      match jsonEscapeValue c with
      | some value => extractSqlLoop (requestRouterAppendJsonChar sql value) cursor
      | none       => none
    else extractSqlLoop (requestRouterAppendJsonChar sql b) (c :: cursor)

/-- `extract_sql_from_json`: `none` is `FAILURE`; an empty string leaves `*out_sql` at `NULL`. -/
def extractSqlFromJson (body : CString) : Option (Option CString) :=
  match strstr body (bytes "\"sql\"") with
  | none        => none
  | some cursor =>
    match requestRouterSkipSpaces (cursor.drop 5) with
    | []          => none
    | b :: cursor =>
      if b ≠ chr ':' then none
      else
        match requestRouterSkipSpaces cursor with
        | []          => none
        | q :: cursor => if q ≠ chr '"' then none else extractSqlLoop none cursor

/-! ### The loop -/

lemma extractSqlLoop_quote (sql : Option CString) (cursor : CString) :
    extractSqlLoop sql (chr '"' :: cursor) = some sql := by
  cases cursor <;> rfl

lemma extractSqlLoop_plain {b : Byte} (hquote : b ≠ chr '"') (hbackslash : b ≠ chr '\\')
    (sql : Option CString) (cursor : CString) :
    extractSqlLoop sql (b :: cursor) =
      extractSqlLoop (requestRouterAppendJsonChar sql b) cursor := by
  cases cursor with
  | nil =>
    show (if b = chr '"' then some sql else none) = none
    rw [if_neg hquote]
  | cons c cursor => rw [extractSqlLoop, if_neg hquote, if_neg hbackslash]

lemma extractSqlLoop_escape (c : Byte) (sql : Option CString) (cursor : CString) :
    extractSqlLoop sql (chr '\\' :: c :: cursor) = (jsonEscapeValue c).bind fun value =>
      extractSqlLoop (requestRouterAppendJsonChar sql value) cursor := by
  rw [extractSqlLoop, if_neg (by decide), if_pos rfl]
  cases jsonEscapeValue c <;> rfl

/-- The bytes appended one by one. -/
lemma foldl_requestRouterAppendJsonChar (sql : Option CString) {s : CString} (hs : s ≠ []) :
    s.foldl requestRouterAppendJsonChar sql = some (sql.getD [] ++ s) := by
  induction s generalizing sql with
  | nil => exact absurd rfl hs
  | cons b s ih =>
    rw [List.foldl_cons]
    cases s with
    | nil => rfl
    | cons c s =>
      rw [ih _ (by simp), requestRouterAppendJsonChar, utilsAppendBuffer, Option.getD_some,
        List.append_assoc, List.singleton_append]

/-- A body with the key `sql` in front of everything else. -/
lemma extractSqlFromJson_key {before colon value cursor : CString}
    (hbefore : ∀ b ∈ before, b ≠ chr '"') (hcolon : ∀ b ∈ colon, isspace b = true)
    (hvalue : ∀ b ∈ value, isspace b = true) :
    extractSqlFromJson (before ++ (bytes "\"sql\"" ++ (colon ++ chr ':' ::
      (value ++ chr '"' :: cursor)))) = extractSqlLoop none cursor := by
  have hkey : strstr (before ++ (bytes "\"sql\"" ++ (colon ++ chr ':' ::
      (value ++ chr '"' :: cursor)))) (bytes "\"sql\"") =
        some (bytes "\"sql\"" ++ (colon ++ chr ':' :: (value ++ chr '"' :: cursor))) := by
    rw [show bytes "\"sql\"" = chr '"' :: bytes "sql\"" from rfl, strstr_skip hbefore]
    exact strstr_of_begins (List.prefix_append _ _)
  have hskip : ∀ (gap : CString) (b : Byte) (rest : CString), (∀ c ∈ gap, isspace c = true) →
      isspace b = false → requestRouterSkipSpaces (gap ++ b :: rest) = b :: rest := by
    intro gap b rest hgap hb
    rw [requestRouterSkipSpaces, List.dropWhile_append_of_pos hgap,
      List.dropWhile_cons_of_neg (by simp [hb])]
  rw [extractSqlFromJson, hkey]
  dsimp only
  rw [show (bytes "\"sql\"" ++ (colon ++ chr ':' :: (value ++ chr '"' :: cursor))).drop 5 =
    colon ++ chr ':' :: (value ++ chr '"' :: cursor) from rfl, hskip _ _ _ hcolon (by decide)]
  dsimp only
  rw [if_neg (by simp), hskip _ _ _ hvalue (by decide)]
  dsimp only
  rw [if_neg (by simp)]

/-! ### Reading back what the server writes -/

lemma extractSqlLoop_responseBuilderEscape (b : Byte) (sql : Option CString) (cursor : CString) :
    extractSqlLoop sql (responseBuilderEscape b ++ cursor) =
      extractSqlLoop (requestRouterAppendJsonChar sql b) cursor := by
  rw [responseBuilderEscape]
  split_ifs with h₁ h₂ h₃ h₄ h₅
  · rw [h₁]
    exact extractSqlLoop_escape (chr '\\') sql cursor
  · rw [h₂]
    exact extractSqlLoop_escape (chr '"') sql cursor
  · rw [h₃]
    exact extractSqlLoop_escape (chr 'n') sql cursor
  · rw [h₄]
    exact extractSqlLoop_escape (chr 'r') sql cursor
  · rw [h₅]
    exact extractSqlLoop_escape (chr 't') sql cursor
  · exact extractSqlLoop_plain h₂ h₁ sql cursor

lemma extractSqlLoop_jsonString (s : CString) (sql : Option CString) (cursor : CString) :
    extractSqlLoop sql (s.flatMap responseBuilderEscape ++ chr '"' :: cursor) =
      some (s.foldl requestRouterAppendJsonChar sql) := by
  induction s generalizing sql with
  | nil => exact extractSqlLoop_quote sql cursor
  | cons b s ih =>
    rw [List.flatMap_cons, List.append_assoc, extractSqlLoop_responseBuilderEscape, ih,
      List.foldl_cons]

/-- The appends of `response_builder_append_json_string`, in order. -/
def jsonStringSuffixes (s : CString) : List CString :=
  bytes "\"" :: s.map responseBuilderEscape ++ [bytes "\""]

lemma jsonStringSuffixes_append (s : CString) :
    (jsonStringSuffixes s).foldl utilsAppendBuffer [] = responseBuilderAppendJsonString [] s := by
  have hmap : (s.map responseBuilderEscape).foldl utilsAppendBuffer (bytes "\"") =
      s.foldl (fun buffer b => utilsAppendBuffer buffer (responseBuilderEscape b)) (bytes "\"") :=
    List.foldl_map
  rw [jsonStringSuffixes, List.cons_append, List.foldl_cons, List.foldl_append]
  show utilsAppendBuffer (List.foldl utilsAppendBuffer (bytes "\"") _) (bytes "\"") = _
  rw [hmap]
  rfl

/-- A string that the server writes is read back as itself, and no byte of it is lost in the blocks
of memory in which it is built. -/
theorem extractSqlFromJson_responseBuilder (s : CString) (hne : s ≠ []) :
    extractSqlFromJson
      (bytes "\x7b\"sql\":" ++ responseBuilderAppendJsonString [] s ++ bytes "\x7d") =
        some (some s) ∧
    ∀ fresh : Nat → Byte, bufferText ((jsonStringSuffixes s).foldl (fun buffer suffix =>
      some (utilsAppendBufferBlock fresh buffer suffix)) none) =
        responseBuilderAppendJsonString [] s := by
  constructor
  · have hbody : bytes "\x7b\"sql\":" ++ responseBuilderAppendJsonString [] s ++ bytes "\x7d" =
        bytes "\x7b" ++ (bytes "\"sql\"" ++ ([] ++ chr ':' :: ([] ++ chr '"' ::
          (s.flatMap responseBuilderEscape ++ chr '"' :: bytes "\x7d")))) := by
      rw [responseBuilderAppendJsonString_eq, jsonString]
      simp [bytes]
    rw [hbody, extractSqlFromJson_key (forall_mem_of_all rfl) (by simp) (by simp),
      extractSqlLoop_jsonString, foldl_requestRouterAppendJsonChar none hne]
    rfl
  · intro fresh
    rw [utilsAppendBufferBlock_run, jsonStringSuffixes_append]

theorem extractSqlFromJson_responseBuilder_quote :
    extractSqlFromJson (bytes "\x7b\"sql\":" ++
      responseBuilderAppendJsonString [] (bytes "SELECT '\\\"\n'") ++ bytes "\x7d") =
        some (some (bytes "SELECT '\\\"\n'")) :=
  (extractSqlFromJson_responseBuilder (bytes "SELECT '\\\"\n'") (by decide)).1

/-! ### Reading JSON strings -/

/-- Every backslash stands before one of the characters `"`, `\`, `/`, `n`, `r` and `t`. -/
def supportedEscapes : CString → Bool
  | []          => true
  | [b]         => b != chr '\\'
  | b :: c :: s =>
    if b = chr '\\' then (bytes "\"\\/nrt").contains c && supportedEscapes s
    else supportedEscapes (c :: s)

lemma supportedEscapes_plain {l : CString} (h : ∀ b ∈ l, b ≠ chr '\\') (s : CString) :
    supportedEscapes (l ++ s) = supportedEscapes s := by
  induction l with
  | nil => rfl
  | cons b l ih =>
    have hb := h b List.mem_cons_self
    have hrest := ih fun c hc => h c (List.mem_cons_of_mem b hc)
    cases hl : l ++ s with
    | nil =>
      rw [hl] at hrest
      rw [List.cons_append, hl, ← hrest]
      show (b != chr '\\') = true
      simpa using hb
    | cons c t => rw [List.cons_append, hl, supportedEscapes, if_neg hb, ← hl, hrest]

lemma extractSqlLoop_plain_append {l : CString}
    (h : ∀ b ∈ l, b ≠ chr '"' ∧ b ≠ chr '\\') (sql : Option CString) (cursor : CString) :
    extractSqlLoop sql (l ++ cursor) =
      extractSqlLoop (l.foldl requestRouterAppendJsonChar sql) cursor := by
  induction l generalizing sql with
  | nil => rfl
  | cons b l ih =>
    obtain ⟨hquote, hbackslash⟩ := h b List.mem_cons_self
    rw [List.cons_append, extractSqlLoop_plain hquote hbackslash,
      ih fun c hc => h c (List.mem_cons_of_mem b hc), List.foldl_cons]

/-- The value of an escape of two characters that is supported, or the refusal of another one. -/
lemma jsonEscapeValue_escapeUnit {b : Byte} {n : Nat} (h : Json.escapeUnit b = some n) :
    if (bytes "\"\\/nrt").contains b = true then
      ∃ v : Byte, v < 128 ∧ v.toNat = n ∧ jsonEscapeValue b = some v
    else jsonEscapeValue b = none := by
  rw [Json.escapeUnit] at h
  split_ifs at h with h₁ h₂ h₃ h₄ h₅ h₆ h₇ h₈ <;> cases h
  · rw [h₁, if_pos (by decide)]
    exact ⟨chr '"', by decide, rfl, rfl⟩
  · rw [h₂, if_pos (by decide)]
    exact ⟨chr '\\', by decide, rfl, rfl⟩
  · rw [h₃, if_pos (by decide)]
    exact ⟨chr '/', by decide, rfl, rfl⟩
  · rw [h₄, if_neg (by decide)]
    rfl
  · rw [h₅, if_neg (by decide)]
    rfl
  · rw [h₆, if_pos (by decide)]
    exact ⟨chr '\n', by decide, rfl, rfl⟩
  · rw [h₇, if_pos (by decide)]
    exact ⟨chr '\r', by decide, rfl, rfl⟩
  · rw [h₈, if_pos (by decide)]
    exact ⟨chr '\t', by decide, rfl, rfl⟩

/-- A literal with supported escapes only is read as the characters that it denotes; at the first
other escape the reader gives up. -/
lemma extractSqlLoop_chars {s : CString} {u : List Nat} (h : Json.IsChars s u)
    (sql : Option CString) (cursor : CString) :
    (supportedEscapes s = true → ∃ cs, u = Json.utf16 cs ∧
      extractSqlLoop sql (s ++ chr '"' :: cursor) =
        some ((Json.utf8 cs).foldl requestRouterAppendJsonChar sql)) ∧
    (supportedEscapes s = false → extractSqlLoop sql (s ++ chr '"' :: cursor) = none) := by
  induction h generalizing sql with
  | nil =>
    refine ⟨fun _ => ⟨[], rfl, extractSqlLoop_quote sql cursor⟩, fun hrefused => ?_⟩
    cases hrefused
  | @unescaped s u c hc hquote hbackslash _ ih =>
    have hbytes : ∀ b ∈ String.utf8EncodeChar c, b ≠ chr '"' ∧ b ≠ chr '\\' := fun b hb =>
      (Json.encode_unescaped hc hquote hbackslash b hb).2
    rw [supportedEscapes_plain (fun b hb => (hbytes b hb).2), List.append_assoc,
      extractSqlLoop_plain_append hbytes]
    obtain ⟨hsome, hnone⟩ := ih ((String.utf8EncodeChar c).foldl requestRouterAppendJsonChar sql)
    refine ⟨fun hsupported => ?_, hnone⟩
    obtain ⟨cs, rfl, hloop⟩ := hsome hsupported
    refine ⟨c :: cs, rfl, ?_⟩
    rw [hloop, ← List.foldl_append]
    rfl
  | @escape s u b n hb _ ih =>
    have hvalue := jsonEscapeValue_escapeUnit hb
    rw [supportedEscapes, if_pos rfl, List.cons_append, List.cons_append, extractSqlLoop_escape]
    by_cases hknown : (bytes "\"\\/nrt").contains b = true
    · rw [if_pos hknown] at hvalue
      obtain ⟨v, hascii, rfl, hv⟩ := hvalue
      rw [hknown, hv, Option.bind_some, Bool.true_and]
      obtain ⟨hsome, hnone⟩ := ih (requestRouterAppendJsonChar sql v)
      refine ⟨fun hsupported => ?_, hnone⟩
      obtain ⟨cs, rfl, hloop⟩ := hsome hsupported
      refine ⟨Char.ofNat v.toNat :: cs, ?_, ?_⟩
      · show _ = Json.utf16Char (Char.ofNat v.toNat) ++ Json.utf16 cs
        rw [Json.utf16Char_ascii hascii]
        rfl
      · have hutf8 : Json.utf8 (Char.ofNat v.toNat :: cs) = v :: Json.utf8 cs := by
          rw [Json.utf8, List.flatMap_cons, Json.utf8EncodeChar_ascii hascii]
          rfl
        rw [hloop, hutf8, List.foldl_cons]
    · rw [if_neg hknown] at hvalue
      rw [hvalue]
      refine ⟨fun hsupported => ?_, fun _ => rfl⟩
      rw [Bool.and_eq_true] at hsupported
      exact absurd hsupported.1 hknown
  | unicode =>
    refine ⟨fun hsupported => ?_, fun _ => extractSqlLoop_escape _ _ _⟩
    exact absurd (show false = true from hsupported) Bool.false_ne_true

lemma isspace_of_isWhitespace {w : CString} (h : Json.IsWhitespace w) :
    ∀ b ∈ w, isspace b = true := by
  intro b hb
  rcases h b hb with rfl | rfl | rfl | rfl <;> rfl

lemma quote_of_isspace {b : Byte} (h : isspace b = true) : b ≠ chr '"' := by
  rintro rfl
  cases h

/-- The documented body with a literal that denotes a text: the text is returned if every escape in
the literal is a supported one, and the body is refused otherwise. -/
theorem extractSqlFromJson_literal (w₀ w₁ w₂ w₃ w₄ w₅ s : CString) (cs : List Char)
    (hw₀ : Json.IsWhitespace w₀) (hw₁ : Json.IsWhitespace w₁) (hw₂ : Json.IsWhitespace w₂)
    (hw₃ : Json.IsWhitespace w₃) (hs : Json.IsChars s (Json.utf16 cs)) (hne : cs ≠ []) :
    extractSqlFromJson (w₀ ++ chr '\x7b' :: (w₁ ++ (bytes "\"sql\"" ++ (w₂ ++ chr ':' ::
        (w₃ ++ chr '"' :: (s ++ chr '"' :: (w₄ ++ chr '\x7d' :: w₅))))))) =
      if supportedEscapes s = true then some (some (Json.utf8 cs)) else none := by
  have hbefore : ∀ b ∈ w₀ ++ chr '\x7b' :: w₁, b ≠ chr '"' := by
    intro b hb
    rcases List.mem_append.mp hb with hb | hb
    · exact quote_of_isspace (isspace_of_isWhitespace hw₀ b hb)
    · rcases List.mem_cons.mp hb with rfl | hb
      · decide
      · exact quote_of_isspace (isspace_of_isWhitespace hw₁ b hb)
  have hkey := @extractSqlFromJson_key (w₀ ++ chr '\x7b' :: w₁) w₂ w₃
    (s ++ chr '"' :: (w₄ ++ chr '\x7d' :: w₅)) hbefore (isspace_of_isWhitespace hw₂)
    (isspace_of_isWhitespace hw₃)
  rw [List.append_assoc, List.cons_append] at hkey
  rw [hkey]
  obtain ⟨hsome, hnone⟩ := extractSqlLoop_chars hs none (w₄ ++ chr '\x7d' :: w₅)
  split_ifs with hsupported
  · obtain ⟨ds, hds, hloop⟩ := hsome hsupported
    obtain rfl := Json.utf16_injective hds
    have hbytes : Json.utf8 cs ≠ [] := by
      obtain ⟨c, cs, rfl⟩ := List.exists_cons_of_ne_nil hne
      rw [Json.utf8, List.flatMap_cons]
      exact fun hnil => String.utf8EncodeChar_ne_nil (List.append_eq_nil_iff.mp hnil).1
    rw [hloop, foldl_requestRouterAppendJsonChar none hbytes]
    rfl
  · exact hnone (by simpa using hsupported)

theorem extractSqlFromJson_literal_newline :
    extractSqlFromJson (bytes "\x7b \"sql\": \"a\\n\"\x7d\n") = some (some (bytes "a\n")) :=
  extractSqlFromJson_literal [] (bytes " ") [] (bytes " ") [] (bytes "\n") (bytes "a\\n") ['a', '\n']
    (by simp [Json.IsWhitespace]) (by simp [Json.IsWhitespace, bytes])
    (by simp [Json.IsWhitespace]) (by simp [Json.IsWhitespace, bytes])
    (.unescaped 'a' (by decide) (by decide) (by decide) (.escape rfl .nil)) (by simp)

/-- The letter `A` written as `\u0041` is refused. -/
theorem extractSqlFromJson_unicode :
    Json.IsString (bytes "\"\\u0041\"") (Json.utf16 ['A']) ∧
      extractSqlFromJson (bytes "\x7b\"sql\": \"\\u0041\"\x7d") = none := by
  have hchars : Json.IsChars (bytes "\\u0041") [0x41] :=
    @Json.IsChars.unicode [] [] (chr '0') (chr '0') (chr '4') (chr '1') 0 0 4 1 rfl rfl rfl rfl .nil
  exact ⟨.quoted hchars, rfl⟩

end MiniDbms
