import MiniDbms.Engine.Facade
import MiniDbms.Library.Json

/-!
# The responses of `response_builder.c`

Memory does not run out, so that building a response does not fail.
-/

namespace MiniDbms

/-! ### Building the body -/

/-- `response_builder_append_char` -/
def responseBuilderAppendChar (buffer : CString) (value : Byte) : CString :=
  utilsAppendBuffer buffer [value]

/-- What `response_builder_append_json_string` writes for one character. -/
def responseBuilderEscape (b : Byte) : CString :=
  if b = chr '\\' then bytes "\\\\"
  else if b = chr '"' then bytes "\\\""
  else if b = chr '\n' then bytes "\\n"
  else if b = chr '\r' then bytes "\\r"
  else if b = chr '\t' then bytes "\\t"
  else [b]

/-- `response_builder_append_json_string` -/
def responseBuilderAppendJsonString (buffer text : CString) : CString :=
  let buffer := responseBuilderAppendChar buffer (chr '"')
  let buffer :=
    text.foldl (fun buffer b => utilsAppendBuffer buffer (responseBuilderEscape b)) buffer
  responseBuilderAppendChar buffer (chr '"')

/-- `response_builder_result_type_name` -/
def responseBuilderResultTypeName : DbResultType → CString
  | .insert => bytes "insert"
  | .select => bytes "select"
  | .delete => bytes "delete"
  | _       => bytes "unknown"

/-- The loops over columns, rows and cells, from the `i`-th item on: a comma before every item but
the first. -/
def responseBuilderAppendItems {α : Type} (append : CString → α → CString) :
    (i : Nat) → CString → List α → CString
  | _, buffer, []          => buffer
  | i, buffer, item :: items =>
    let buffer := if i > 0 then responseBuilderAppendChar buffer (chr ',') else buffer
    responseBuilderAppendItems append (i + 1) (append buffer item) items

/-- The inner loop over the cells of a row, with its brackets. -/
def responseBuilderAppendRow (columnCount : Nat) (buffer : CString) (row : List CString) :
    CString :=
  let buffer := responseBuilderAppendChar buffer (chr '[')
  let buffer := responseBuilderAppendItems responseBuilderAppendJsonString 0 buffer
    (row.take columnCount)
  responseBuilderAppendChar buffer (chr ']')

/-- `build_query_json_response`: the status code and the body. -/
def buildQueryJsonResponse (result : DbResult) : Int × CString :=
  let buffer := utilsAppendBuffer [] (bytes "\x7b\"ok\":true,\"type\":")
  let buffer := responseBuilderAppendJsonString buffer (responseBuilderResultTypeName result.type)
  let buffer := utilsAppendBuffer buffer (bytes ",\"message\":")
  let buffer := responseBuilderAppendJsonString buffer result.message.val
  match result.type with
  | .insert =>
    let numberBuffer := CBuf.truncate 63
      (bytes ",\"rows_affected\":" ++ printInt (toInt result.rowsAffected) ++ bytes "\x7d")
    (200, utilsAppendBuffer buffer numberBuffer.val)
  | .select =>
    let numberBuffer := CBuf.truncate 63
      (bytes ",\"used_id_index\":" ++ bytes (if result.usedIdIndex then "true" else "false") ++
        bytes ",\"row_count\":" ++ printInt (toInt result.rows.length) ++ bytes ",\"columns\":[")
    let buffer := utilsAppendBuffer buffer numberBuffer.val
    let buffer := responseBuilderAppendItems responseBuilderAppendJsonString 0 buffer
      (result.columns.map CBuf.val)
    let buffer := utilsAppendBuffer buffer (bytes "],\"rows\":[")
    let buffer := responseBuilderAppendItems (responseBuilderAppendRow result.columns.length) 0
      buffer result.rows
    (200, responseBuilderAppendChar buffer (chr '}'))
  | _       => (200, responseBuilderAppendChar buffer (chr '}'))

/-! ### The texts that are appended -/

/-- The literal that `response_builder_append_json_string` appends. -/
def jsonString (text : CString) : CString :=
  chr '"' :: text.flatMap responseBuilderEscape ++ [chr '"']

lemma responseBuilderAppendJsonString_eq (buffer text : CString) :
    responseBuilderAppendJsonString buffer text = buffer ++ jsonString text := by
  simp [responseBuilderAppendJsonString, responseBuilderAppendChar, utilsAppendBuffer, jsonString,
    List.foldl_append_eq_append, List.flatMap_def]

/-- The items with commas between them. -/
def separated (items : List CString) : CString := List.intercalate [chr ','] items

lemma separated_cons (item : CString) (items : List CString) :
    separated (item :: items) = item ++ items.flatMap (chr ',' :: ·) := by
  induction items generalizing item with
  | nil => simp [separated]
  | cons next items ih =>
    rw [separated, List.intercalate_cons_cons]
    change item ++ [chr ','] ++ separated (next :: items) = _
    rw [ih]
    simp

lemma responseBuilderAppendItems_eq {α : Type} {append : CString → α → CString}
    {text : α → CString} (h : ∀ buffer item, append buffer item = buffer ++ text item)
    (buffer : CString) (items : List α) :
    responseBuilderAppendItems append 0 buffer items = buffer ++ separated (items.map text) := by
  have hrest : ∀ (items : List α) (i : Nat) (buffer : CString), 0 < i →
      responseBuilderAppendItems append i buffer items =
        buffer ++ (items.map text).flatMap (chr ',' :: ·) := by
    intro items
    induction items with
    | nil => simp [responseBuilderAppendItems]
    | cons item items ih =>
      intro i buffer hi
      rw [responseBuilderAppendItems, ih (i + 1) _ (by omega)]
      simp [hi, h, responseBuilderAppendChar, utilsAppendBuffer]
  cases items with
  | nil => simp [responseBuilderAppendItems, separated]
  | cons item items =>
    rw [responseBuilderAppendItems, hrest items 1 _ (by omega), h, List.map_cons, separated_cons]
    simp

/-- The array that is appended for a row. -/
def jsonRow (row : List CString) : CString :=
  chr '[' :: separated (row.map jsonString) ++ [chr ']']

lemma responseBuilderAppendRow_eq (columnCount : Nat) (buffer : CString) (row : List CString) :
    responseBuilderAppendRow columnCount buffer row =
      buffer ++ jsonRow (row.take columnCount) := by
  simp only [responseBuilderAppendRow,
    responseBuilderAppendItems_eq responseBuilderAppendJsonString_eq, responseBuilderAppendChar,
    utilsAppendBuffer, jsonRow]
  simp

/-! ### The body as a text -/

lemma printInt_toInt (n : Int) :
    (printInt (toInt n)).length ≤ 11 ∧ 0 ∉ printInt (toInt n) := by
  have hlow : -(2 ^ 32 / 2) ≤ toInt n := Int.le_bmod (by decide)
  have hhigh : toInt n < (2 ^ 32 + 1) / 2 := Int.bmod_lt (by decide)
  have hlen : (natDigits (toInt n).natAbs).length ≤ 10 :=
    length_natDigits_le (by decide) (by omega)
  have hnul : 0 ∉ natDigits (toInt n).natAbs := by
    intro h0
    exact absurd (isdigit_of_mem_natDigits 0 h0) (by decide)
  rw [printInt]
  split_ifs
  · refine ⟨by rw [List.length_cons]; omega, ?_⟩
    rw [List.mem_cons, not_or]
    exact ⟨by decide, hnul⟩
  · exact ⟨by omega, hnul⟩

/-- The buffer for a number has room for the text around it. -/
lemma numberBuffer_val (n : Int) {before after : CString}
    (hlen : before.length + after.length ≤ 52) (hbefore : 0 ∉ before) (hafter : 0 ∉ after) :
    (CBuf.truncate 63 (before ++ printInt (toInt n) ++ after)).val =
      before ++ printInt (toInt n) ++ after := by
  obtain ⟨hnumber, hnul⟩ := printInt_toInt n
  rw [CBuf.truncate_eq]
  · simp only [List.length_append]
    omega
  · simp only [List.mem_append, not_or]
    exact ⟨⟨hbefore, hnul⟩, hafter⟩

/-- The members that every response begins with. -/
def queryHead (result : DbResult) : CString :=
  bytes "\"ok\":true,\"type\":" ++ jsonString (responseBuilderResultTypeName result.type) ++
    bytes ",\"message\":" ++ jsonString result.message.val

lemma buildQueryJsonResponse_insert {result : DbResult} (h : result.type = .insert) :
    (buildQueryJsonResponse result).2 = chr '{' :: (queryHead result ++
      bytes ",\"rows_affected\":" ++ printInt (toInt result.rowsAffected)) ++ [chr '}'] := by
  have hbuffer := @numberBuffer_val result.rowsAffected (bytes ",\"rows_affected\":")
    (bytes "\x7d") (by decide) (by decide) (by decide)
  simp only [buildQueryJsonResponse, h, hbuffer, responseBuilderAppendJsonString_eq,
    utilsAppendBuffer, queryHead]
  simp
  rfl

/-- The members of a query's response up to the opening bracket of its rows. -/
def responseHead (result : DbResult) : CString :=
  queryHead result ++ bytes ",\"used_id_index\":" ++
    bytes (if result.usedIdIndex then "true" else "false") ++ bytes ",\"row_count\":" ++
    printInt (toInt result.rows.length) ++ bytes ",\"columns\":" ++
    jsonRow (result.columns.map CBuf.val) ++ bytes ",\"rows\":"

/-- The rows of a query's response. -/
def responseRows (result : DbResult) : List CString :=
  result.rows.map fun row => jsonRow (row.take result.columns.length)

/-- The bracket of the rows does not close. -/
lemma buildQueryJsonResponse_select {result : DbResult} (h : result.type = .select) :
    (buildQueryJsonResponse result).2 =
      chr '{' :: responseHead result ++ chr '[' :: separated (responseRows result) ++ [chr '}'] := by
  have hbuffer := @numberBuffer_val result.rows.length (bytes ",\"used_id_index\":" ++
    bytes (if result.usedIdIndex then "true" else "false") ++ bytes ",\"row_count\":")
    (bytes ",\"columns\":[") (by cases result.usedIdIndex <;> decide)
    (by cases result.usedIdIndex <;> decide) (by decide)
  simp only [buildQueryJsonResponse, h, hbuffer, responseBuilderAppendJsonString_eq,
    responseBuilderAppendItems_eq responseBuilderAppendJsonString_eq,
    responseBuilderAppendItems_eq (responseBuilderAppendRow_eq result.columns.length),
    utilsAppendBuffer, responseBuilderAppendChar, responseHead, queryHead, responseRows, jsonRow]
  have h₁ : bytes ",\"columns\":[" = bytes ",\"columns\":" ++ [chr '['] := rfl
  have h₂ : bytes "],\"rows\":[" = chr ']' :: (bytes ",\"rows\":" ++ [chr '[']) := rfl
  have h₃ : bytes "\x7b\"ok\":true,\"type\":" = chr '{' :: bytes "\"ok\":true,\"type\":" := rfl
  simp only [h₁, h₂, h₃]
  simp [List.append_assoc]

/-! ### Escaping -/

/-- The bytes for which the literal is right: control characters other than the three that are
escaped have no place in a string. -/
def isPrintable (b : Byte) : Bool := 32 ≤ b || b == chr '\n' || b == chr '\r' || b == chr '\t'

lemma isEscaping_responseBuilderEscape : Json.IsEscaping responseBuilderEscape := by
  have hascii : ∀ b : Byte, b < 128 → responseBuilderEscape b ≠ [] ∧
      (responseBuilderEscape b).all (fun a => decide (a < 128)) = true := by
    apply forall_byte
    decide +kernel
  constructor
  · intro b hb
    exact ⟨(hascii b hb).1, forall_mem_of_all (hascii b hb).2⟩
  · apply forall_byte
    decide +kernel

/-- The scanner stops at a byte that should have been escaped. -/
lemma scan_responseBuilderEscape (closers : List Byte) (b : Byte) :
    Json.scan ⟨closers, .string⟩ (responseBuilderEscape b) =
      if isPrintable b then some ⟨closers, .string⟩ else none := by
  by_cases h₁ : b = chr '\\'
  · rw [h₁]
    rfl
  by_cases h₂ : b = chr '"'
  · rw [h₂]
    rfl
  by_cases h₃ : b = chr '\n'
  · rw [h₃]
    rfl
  by_cases h₄ : b = chr '\r'
  · rw [h₄]
    rfl
  by_cases h₅ : b = chr '\t'
  · rw [h₅]
    rfl
  simp only [responseBuilderEscape, h₁, h₂, h₃, h₄, h₅, if_false, Json.scan_cons]
  by_cases hlow : 32 ≤ b
  · rw [Json.scanByte_unescaped hlow h₂ h₁]
    simp [isPrintable, hlow]
  · simp [Json.scanByte, isPrintable, hlow, UInt8.not_le.mp hlow, h₃, h₄, h₅]

lemma scan_escaped (closers : List Byte) (text : CString) :
    Json.scan ⟨closers, .string⟩ (text.flatMap responseBuilderEscape) =
      if text.all isPrintable then some ⟨closers, .string⟩ else none := by
  induction text with
  | nil => rfl
  | cons b text ih =>
    rw [List.flatMap_cons, Json.scan_append, scan_responseBuilderEscape, List.all_cons]
    cases isPrintable b with
    | false => rfl
    | true => exact ih

lemma scan_jsonString (closers : List Byte) (text : CString) :
    Json.scan ⟨closers, .text⟩ (jsonString text) =
      if text.all isPrintable then some ⟨closers, .text⟩ else none := by
  rw [jsonString, List.cons_append, Json.scan_cons]
  change Json.scan ⟨closers, .string⟩ (text.flatMap responseBuilderEscape ++ [chr '"']) = _
  rw [Json.scan_append, scan_escaped]
  cases text.all isPrintable <;> rfl

lemma neutral_jsonString (text : CString) : Json.Neutral (jsonString text) := by
  intro closers st h
  rw [scan_jsonString] at h
  split_ifs at h
  exact (Option.some.inj h).symm

lemma neutral_separated {items : List CString} (h : ∀ item ∈ items, Json.Neutral item) :
    Json.Neutral (separated items) := by
  have hcomma : Json.Neutral [chr ','] := Json.neutral_of_scan fun _ => rfl
  cases items with
  | nil => exact Json.neutral_of_scan fun _ => rfl
  | cons item items =>
    rw [separated_cons]
    refine (h item List.mem_cons_self).append ?_
    have hitems : ∀ next ∈ items, Json.Neutral next := fun next hn => h next (.tail _ hn)
    clear h
    induction items with
    | nil => exact Json.neutral_of_scan fun _ => rfl
    | cons next items ih =>
      rw [List.flatMap_cons]
      exact (hcomma.append (hitems next List.mem_cons_self)).append
        (ih fun n hn => hitems n (.tail _ hn))

lemma neutral_jsonRow (row : List CString) : Json.Neutral (jsonRow row) := by
  apply Json.Neutral.bracket
  apply neutral_separated
  intro item hitem
  obtain ⟨text, -, rfl⟩ := List.mem_map.mp hitem
  exact neutral_jsonString text

lemma neutral_queryHead (result : DbResult) : Json.Neutral (queryHead result) :=
  (((Json.neutral_of_scan fun _ => rfl).append (neutral_jsonString _)).append
    (Json.neutral_of_scan fun _ => rfl)).append (neutral_jsonString _)

/-- No response to a query is a JSON text. -/
lemma not_isText_select {result : DbResult} (h : result.type = .select) (v : Json.Value) :
    ¬ Json.IsText (buildQueryJsonResponse result).2 v := by
  intro htext
  have hscan := htext.scan
  rw [buildQueryJsonResponse_select h, Json.scan_unclosed] at hscan
  · cases hscan
  · have hnumber : Json.Neutral (printInt (toInt result.rows.length)) :=
      Json.neutral_of_scan (Json.isNumber_printInt _).complete.scan
    have hflag : Json.Neutral (bytes (if result.usedIdIndex then "true" else "false")) := by
      cases result.usedIdIndex <;> exact Json.neutral_of_scan fun _ => rfl
    refine ((((((neutral_queryHead result).append ?_).append hflag).append ?_).append
      hnumber).append ?_).append (neutral_jsonRow _) |>.append ?_
    all_goals exact Json.neutral_of_scan fun _ => rfl
  · apply neutral_separated
    intro item hitem
    obtain ⟨row, -, rfl⟩ := List.mem_map.mp hitem
    exact neutral_jsonRow _

/-! ### The literals are strings -/

/-- A text whose literal is a JSON string. -/
def Presentable (text : CString) : Prop := Json.IsUtf8 text ∧ text.all isPrintable = true

/-- The literal of one character that is escaped. -/
lemma isChars_escape {c : Char} {s : CString} {u : List Nat} (e : Byte) (n : Nat)
    (hc : String.utf8EncodeChar c = [chr c])
    (hescape : responseBuilderEscape (chr c) = [chr '\\', e])
    (hunit : Json.escapeUnit e = some n) (hutf : Json.utf16Char c = [n]) (h : Json.IsChars s u) :
    Json.IsChars ((String.utf8EncodeChar c).flatMap responseBuilderEscape ++ s)
      (Json.utf16Char c ++ u) := by
  rw [hc, List.flatMap_singleton, hescape, hutf]
  exact .escape hunit h

/-- The literal of one character. -/
lemma isChars_encode {c : Char} {s : CString} {u : List Nat}
    (hc : (String.utf8EncodeChar c).all isPrintable = true) (h : Json.IsChars s u) :
    Json.IsChars ((String.utf8EncodeChar c).flatMap responseBuilderEscape ++ s)
      (Json.utf16Char c ++ u) := by
  by_cases h₁ : c = '\\'
  · subst h₁
    exact isChars_escape (chr '\\') 0x5C rfl rfl rfl rfl h
  by_cases h₂ : c = '"'
  · subst h₂
    exact isChars_escape (chr '"') 0x22 rfl rfl rfl rfl h
  by_cases h₃ : c = '\n'
  · subst h₃
    exact isChars_escape (chr 'n') 0x0A rfl rfl rfl rfl h
  by_cases h₄ : c = '\r'
  · subst h₄
    exact isChars_escape (chr 'r') 0x0D rfl rfl rfl rfl h
  by_cases h₅ : c = '\t'
  · subst h₅
    exact isChars_escape (chr 't') 0x09 rfl rfl rfl rfl h
  -- every other character stands for itself
  rcases Json.utf8EncodeChar_cases c with ⟨hascii, heq⟩ | ⟨hhigh, hbytes⟩
  · have hne : ∀ d : Char, d.toNat < 128 → c ≠ d → chr c ≠ chr d :=
      fun d hd hcd hchr => hcd (chr_injective hascii hd hchr)
    have hself : responseBuilderEscape (chr c) = [chr c] := by
      rw [responseBuilderEscape, if_neg (hne _ (by decide) h₁), if_neg (hne _ (by decide) h₂),
        if_neg (hne _ (by decide) h₃), if_neg (hne _ (by decide) h₄), if_neg (hne _ (by decide) h₅)]
    have hlow : 0x20 ≤ c.toNat := by
      have hprintable : isPrintable (chr c) = true := by simpa [heq] using hc
      simp only [isPrintable, Bool.or_eq_true, beq_iff_eq, hne _ (by decide) h₃,
        hne _ (by decide) h₄, hne _ (by decide) h₅, or_false, decide_eq_true_eq,
        UInt8.le_iff_toNat_le, toNat_chr hascii] at hprintable
      exact hprintable
    have hstep := Json.IsChars.unescaped c hlow h₂ h₁ h
    rw [heq] at hstep ⊢
    rw [List.flatMap_singleton, hself]
    exact hstep
  · rw [isEscaping_responseBuilderEscape.flatMap_high hbytes]
    exact .unescaped c (by omega) h₂ h₁ h

lemma isString_jsonString {cs : List Char} (h : (Json.utf8 cs).all isPrintable = true) :
    Json.IsString (jsonString (Json.utf8 cs)) (Json.utf16 cs) := by
  apply Json.IsString.quoted
  induction cs with
  | nil => exact .nil
  | cons c cs ih =>
    have hsplit : Json.utf8 (c :: cs) = String.utf8EncodeChar c ++ Json.utf8 cs := rfl
    rw [hsplit, List.all_append, Bool.and_eq_true] at h
    rw [hsplit, List.flatMap_append]
    exact isChars_encode h.1 (ih h.2)

lemma Presentable.isString {text : CString} (h : Presentable text) :
    ∃ u, Json.IsString (jsonString text) u := by
  obtain ⟨⟨cs, rfl⟩, hprintable⟩ := h
  exact ⟨_, isString_jsonString hprintable⟩

/-! ### Which responses are JSON -/

/-- The name of a member. -/
def memberName (name : String) : List Nat := Json.utf16 name.toList

/-- The body is a JSON text, and for a query the columns and rows in it are those of the result. -/
def CarriesResult (result : DbResult) (body : CString) : Prop :=
  ∃ v, Json.IsText body v ∧ (result.type = .select →
    (∃ names, v.member (memberName "columns") = some (.array names) ∧
      List.Forall₂ Json.Value.Denotes names (result.columns.map CBuf.val)) ∧
    ∃ rows, v.member (memberName "rows") = some (.array rows) ∧
      List.Forall₂ (fun row cells => ∃ vs, row = .array vs ∧
        List.Forall₂ Json.Value.Denotes vs cells) rows result.rows)

/-- A literal in a JSON text is a string. -/
lemma presentable_of_isText {p rest text : CString} {closers : List Byte} {v : Json.Value}
    (hp : ∀ b ∈ p, b < 128) (hscan : Json.scan ⟨[], .text⟩ p = some ⟨closers, .text⟩)
    (h : Json.IsText (p ++ jsonString text ++ rest) v) : Presentable text := by
  rw [List.append_assoc] at h
  constructor
  · have hliteral := h.complete.utf8.of_ascii_append hp
    have hsplit : jsonString text ++ rest =
        [chr '"'] ++ (text.flatMap responseBuilderEscape ++ chr '"' :: rest) := by simp [jsonString]
    rw [hsplit] at hliteral
    exact isEscaping_responseBuilderEscape.isUtf8_of (by decide)
      (hliteral.of_ascii_append (forall_mem_of_all rfl))
  · have htext := h.scan
    rw [Json.scan_append_of hscan, Json.scan_append, scan_jsonString] at htext
    by_contra hnot
    rw [if_neg hnot] at htext
    cases htext

lemma presentable_iff (text : CString) : Presentable text ↔
    Json.IsUtf8 text ∧ ∀ b ∈ text, 32 ≤ b ∨ b = chr '\n' ∨ b = chr '\r' ∨ b = chr '\t' := by
  simp [Presentable, isPrintable, or_assoc]

/-- The members that every response begins with, before others. -/
lemma derives_queryHead {result : DbResult} {t : CString} {ms : List (List Nat × Json.Value)}
    {kind : List Char} (hkind : responseBuilderResultTypeName result.type = Json.utf8 kind)
    (hprintable : (Json.utf8 kind).all isPrintable = true) {u : List Nat}
    (hmessage : Json.IsString (jsonString result.message.val) u)
    (h : Json.Derives (.members ms) t) :
    Json.Derives (.members ((memberName "ok", .bool true) ::
      (memberName "type", .string (Json.utf16 kind)) :: (memberName "message", .string u) :: ms))
      (queryHead result ++ chr ',' :: t) := by
  have hok := (@isString_jsonString "ok".toList rfl).derives_member .true
  have htype := (@isString_jsonString "type".toList rfl).derives_member
    (.string (isString_jsonString hprintable))
  have hmess := (@isString_jsonString "message".toList rfl).derives_member (.string hmessage)
  have hall := hok.moreMembers (htype.moreMembers (hmess.moreMembers h))
  have h₁ : bytes "\"ok\":true,\"type\":" = jsonString (Json.utf8 "ok".toList) ++ chr ':' ::
    bytes "true" ++ chr ',' :: jsonString (Json.utf8 "type".toList) ++ [chr ':'] := rfl
  have h₂ : bytes ",\"message\":" =
    chr ',' :: jsonString (Json.utf8 "message".toList) ++ [chr ':'] := rfl
  rw [queryHead, hkind, h₁, h₂]
  simp only [List.append_assoc, List.cons_append, List.nil_append] at hall ⊢
  exact hall

/-- The members of an insertion's response. -/
lemma isText_insert {result : DbResult} (h : result.type = .insert)
    (hmessage : Presentable result.message.val) :
    ∃ v, Json.IsText (buildQueryJsonResponse result).2 v := by
  obtain ⟨u, hu⟩ := hmessage.isString
  have hrows := (@isString_jsonString "rows_affected".toList rfl).derives_member
    (.number (Json.isNumber_printInt (toInt result.rowsAffected)))
  have hkind : responseBuilderResultTypeName result.type = Json.utf8 "insert".toList := by
    rw [h]
    rfl
  have hall := (derives_queryHead hkind rfl hu hrows).object.element_tight
  have htext : bytes ",\"rows_affected\":" =
    chr ',' :: jsonString (Json.utf8 "rows_affected".toList) ++ [chr ':'] := rfl
  rw [buildQueryJsonResponse_insert h, htext]
  simp only [List.append_assoc, List.cons_append, List.nil_append] at hall ⊢
  exact ⟨_, hall⟩

/-- A response carries its result exactly if it is the one to an insertion, whose message is UTF-8
without control characters other than line feed, carriage return and tabulator. -/
theorem buildQueryJsonResponse_carriesResult_iff (result : DbResult)
    (htype : result.type = .insert ∨ result.type = .select) :
    CarriesResult result (buildQueryJsonResponse result).2 ↔
      result.type = .insert ∧ Json.IsUtf8 result.message.val ∧
        ∀ b ∈ result.message.val, 32 ≤ b ∨ b = chr '\n' ∨ b = chr '\r' ∨ b = chr '\t' := by
  rw [← presentable_iff]
  constructor
  · rintro ⟨v, hv, -⟩
    rcases htype with hinsert | hselect
    · refine ⟨hinsert, ?_⟩
      have hbody : ∃ rest, (buildQueryJsonResponse result).2 =
          bytes "\x7b\"ok\":true,\"type\":\"insert\",\"message\":" ++
            jsonString result.message.val ++ rest := by
        rw [buildQueryJsonResponse_insert hinsert, queryHead, hinsert]
        exact ⟨_, by simp only [List.append_assoc, List.cons_append]; rfl⟩
      obtain ⟨rest, hrest⟩ := hbody
      rw [hrest] at hv
      exact presentable_of_isText (forall_mem_of_all rfl) rfl hv
    · exact absurd hv (not_isText_select hselect v)
  · rintro ⟨hinsert, hmessage⟩
    obtain ⟨v, hv⟩ := isText_insert hinsert hmessage
    refine ⟨v, hv, ?_⟩
    intro hselect
    rw [hinsert] at hselect
    cases hselect

/-- The response to the first insertion. -/
theorem buildQueryJsonResponse_carriesResult_inserted :
    let result := (dbExecuteSql dbEngineInit (.fresh emptyDirectory)
      (bytes "INSERT INTO t (a) VALUES (1)")).2.1
    result.success = true ∧ CarriesResult result (buildQueryJsonResponse result).2 := by
  refine ⟨by decide, (buildQueryJsonResponse_carriesResult_iff _ (.inl (by decide))).mpr ?_⟩
  exact ⟨by decide, Json.isUtf8_of_ascii (forall_mem_of_all rfl), forall_mem_of_all rfl⟩

/-- The result of a query that returns one row. -/
def oneRowSelected : DbResult :=
  ⟨.select, true, [identifier "a"], [[bytes "1"]], 1, false, .truncate 511 (bytes "1 row selected.")⟩

/-- The response to a query that returns one row. -/
theorem buildQueryJsonResponse_carriesResult_fails :
    let db := dbRun emptyDirectory [bytes "INSERT INTO t (a) VALUES (1)"]
    let result := (dbExecuteSql dbEngineInit db (bytes "SELECT a FROM t")).2.1
    result.type = .select ∧ result.success = true ∧ result.rows = [[bytes "1"]] ∧
      (buildQueryJsonResponse result).2 = bytes ("\x7b\"ok\":true,\"type\":\"select\"," ++
        "\"message\":\"1 row selected.\",\"used_id_index\":false,\"row_count\":1," ++
        "\"columns\":[\"a\"],\"rows\":[[\"1\"]\x7d") ∧
      ¬ CarriesResult result (buildQueryJsonResponse result).2 := by
  intro db result
  have hresult : result = oneRowSelected := by decide +kernel
  rw [hresult]
  refine ⟨rfl, rfl, rfl, by decide +kernel, ?_⟩
  rintro ⟨v, hv, -⟩
  exact not_isText_select rfl v hv

/-! ### With the bracket -/

/-- An array of items. -/
lemma derives_array {α : Type} {items : List α} {text : α → CString} {P : Json.Value → α → Prop}
    (h : ∀ item ∈ items, ∃ v, Json.Derives (.value v) (text item) ∧ P v item) :
    ∃ vs, Json.Derives (.value (.array vs))
      (chr '[' :: separated (items.map text) ++ [chr ']']) ∧ List.Forall₂ P vs items := by
  cases items with
  | nil => exact ⟨[], .emptyArray Json.isWhitespace_nil, .nil⟩
  | cons item items =>
    have helements : ∃ vs, Json.Derives (.elements vs) (separated ((item :: items).map text)) ∧
        List.Forall₂ P vs (item :: items) := by
      induction items generalizing item with
      | nil =>
        obtain ⟨v, hv, hP⟩ := h item List.mem_cons_self
        exact ⟨[v], by simpa [separated] using hv.element_tight, .cons hP .nil⟩
      | cons next items ih =>
        obtain ⟨v, hv, hP⟩ := h item List.mem_cons_self
        obtain ⟨vs, hvs, hPs⟩ := ih next fun i hi => h i (.tail _ hi)
        refine ⟨v :: vs, ?_, .cons hP hPs⟩
        have hmore := hv.element_tight.moreElements hvs
        rw [List.map_cons, separated_cons] at hmore ⊢
        simpa using hmore
    obtain ⟨vs, hvs, hPs⟩ := helements
    exact ⟨vs, hvs.array, hPs⟩

lemma Presentable.denotes {text : CString} (h : Presentable text) :
    ∃ v, Json.Derives (.value v) (jsonString text) ∧ v.Denotes text := by
  obtain ⟨⟨cs, rfl⟩, hprintable⟩ := h
  exact ⟨_, .string (isString_jsonString hprintable), cs, rfl, rfl⟩

lemma derives_jsonRow {cells : List CString} (h : ∀ cell ∈ cells, Presentable cell) :
    ∃ vs, Json.Derives (.value (.array vs)) (jsonRow cells) ∧
      List.Forall₂ Json.Value.Denotes vs cells :=
  derives_array fun cell hcell => (h cell hcell).denotes

/-- The missing bracket is all that is wrong with the response to a query: with it, the response
carries the result if no text in it has a control character that is not escaped. -/
theorem buildQueryJsonResponse_select_closed {result : DbResult} (h : result.type = .select)
    (hmessage : Presentable result.message.val)
    (hcolumns : ∀ column ∈ result.columns, Presentable column.val)
    (hrows : ∀ row ∈ result.rows, row.length = result.columns.length ∧
      ∀ cell ∈ row, Presentable cell) :
    CarriesResult result ((buildQueryJsonResponse result).2.dropLast ++ bytes "]\x7d") := by
  obtain ⟨u, hu⟩ := hmessage.isString
  obtain ⟨names, hnames, hdenotes⟩ := @derives_jsonRow (result.columns.map CBuf.val) (by
    intro name hname
    obtain ⟨column, hcolumn, rfl⟩ := List.mem_map.mp hname
    exact hcolumns column hcolumn)
  obtain ⟨rows, hderives, hcells⟩ := @derives_array _ result.rows
    (fun row => jsonRow (row.take result.columns.length)) (fun v cells => ∃ vs, v = .array vs ∧
      List.Forall₂ Json.Value.Denotes vs cells) (by
    intro row hrow
    obtain ⟨hlen, hcells⟩ := hrows row hrow
    obtain ⟨vs, hvs, hdenotes⟩ := derives_jsonRow hcells
    refine ⟨.array vs, ?_, vs, rfl, hdenotes⟩
    rw [List.take_of_length_le hlen.le]
    exact hvs)
  have hflag : Json.Derives (.value (.bool result.usedIdIndex))
      (bytes (if result.usedIdIndex then "true" else "false")) := by
    cases result.usedIdIndex with
    | false => exact .false
    | true => exact .true
  have hkind : responseBuilderResultTypeName result.type = Json.utf8 "select".toList := by
    rw [h]
    rfl
  have hmembers := ((@isString_jsonString "used_id_index".toList rfl).derives_member
    hflag).moreMembers (((@isString_jsonString "row_count".toList rfl).derives_member
      (.number (Json.isNumber_printInt (toInt result.rows.length)))).moreMembers
      (((@isString_jsonString "columns".toList rfl).derives_member hnames).moreMembers
        ((@isString_jsonString "rows".toList rfl).derives_member hderives)))
  have hall := (derives_queryHead hkind rfl hu hmembers).object.element_tight
  have h₁ : bytes ",\"used_id_index\":" =
    chr ',' :: jsonString (Json.utf8 "used_id_index".toList) ++ [chr ':'] := rfl
  have h₂ : bytes ",\"row_count\":" =
    chr ',' :: jsonString (Json.utf8 "row_count".toList) ++ [chr ':'] := rfl
  have h₃ : bytes ",\"columns\":" =
    chr ',' :: jsonString (Json.utf8 "columns".toList) ++ [chr ':'] := rfl
  have h₄ : bytes ",\"rows\":" =
    chr ',' :: jsonString (Json.utf8 "rows".toList) ++ [chr ':'] := rfl
  have h₅ : bytes "]\x7d" = [chr ']', chr '}'] := rfl
  have hnest : ∀ a k₁ f k₂ n k₃ c k₄ r : CString,
      chr '{' :: (a ++ (chr ',' :: k₁ ++ [chr ':']) ++ f ++ (chr ',' :: k₂ ++ [chr ':']) ++ n ++
        (chr ',' :: k₃ ++ [chr ':']) ++ c ++ (chr ',' :: k₄ ++ [chr ':'])) ++ chr '[' :: r ++
        [chr ']', chr '}'] =
      chr '{' :: (a ++ chr ',' :: (k₁ ++ chr ':' :: f ++ chr ',' :: (k₂ ++ chr ':' :: n ++
        chr ',' :: (k₃ ++ chr ':' :: c ++ chr ',' :: (k₄ ++ chr ':' ::
          (chr '[' :: r ++ [chr ']'])))))) ++ [chr '}'] := by
    intros
    simp
  rw [buildQueryJsonResponse_select h, List.dropLast_concat, responseHead, responseRows, h₁, h₂, h₃,
    h₄, h₅, hnest]
  refine ⟨_, hall, fun _ => ⟨⟨names, ?_, hdenotes⟩, rows, ?_, hcells⟩⟩
  · iterate 5 rw [Json.Value.member_cons_of_ne (by decide)]
    exact Json.Value.member_cons_self
  · iterate 6 rw [Json.Value.member_cons_of_ne (by decide)]
    exact Json.Value.member_cons_self

end MiniDbms
