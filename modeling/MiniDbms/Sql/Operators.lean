import MiniDbms.Engine.Executor
import MiniDbms.Sql.Spelling
import MiniDbms.Storage.Effects

/-!
# The operators that get through

The tokenizer also makes an operator of an exclamation mark that no equals sign follows, and the
parser takes every operator. On any other text the operator of a condition is a comparison operator,
which the two evaluators treat alike.
-/

namespace MiniDbms

/-- Outside quotes there is an exclamation mark that no equals sign follows. -/
def hasLoneBang : (inQuotes : Bool) → CString → Bool
  | _, []               => false
  | inQuotes, b :: text =>
    if b = chr '\'' then hasLoneBang (!inQuotes) text
    else (!inQuotes && b == chr '!' && text.head? != some (chr '=')) || hasLoneBang inQuotes text

/-- The operator token of a lone exclamation mark. -/
def Token.isBang (t : Token) : Bool := t.type == .operator && t.value.val == bytes "!"

/-! ### Tokens -/

lemma hasLoneBang_quoted (v rest : CString) :
    hasLoneBang false (quoted v ++ rest) = hasLoneBang false rest := by
  have hbody : ∀ v : CString, hasLoneBang true (quoteBody v ++ chr '\'' :: rest) =
      hasLoneBang false rest := by
    intro v
    induction v with
    | nil => simp [quoteBody, hasLoneBang]
    | cons b v ih =>
      by_cases hb : b = chr '\''
      · simp [quoteBody, hasLoneBang, hb, ih]
      · simp [quoteBody, hasLoneBang, hb, ih]
  simpa [quoted, hasLoneBang] using hbody v

/-- Bytes that are neither a quote nor an exclamation mark make no difference. -/
lemma hasLoneBang_append {w : CString} (h : ∀ b ∈ w, b ≠ chr '\'' ∧ b ≠ chr '!') (rest : CString) :
    hasLoneBang false (w ++ rest) = hasLoneBang false rest := by
  induction w with
  | nil => rfl
  | cons b w ih =>
    obtain ⟨⟨hquote, hbang⟩, hw⟩ := List.forall_mem_cons.mp h
    simp [hasLoneBang, hquote, hbang, ih hw]

lemma ne_of_isdigit {b : Byte} : isdigit b = true ∨ b = chr '-' ∨ b = chr '+' →
    b ≠ chr '\'' ∧ b ≠ chr '!' := by
  revert b
  apply forall_byte
  decide +kernel

lemma ne_of_isWordByte {b : Byte} : isWordByte b = true → b ≠ chr '\'' ∧ b ≠ chr '!' := by
  revert b
  apply forall_byte
  decide +kernel

lemma ne_of_isspace {b : Byte} : isspace b = true → b ≠ chr '\'' ∧ b ≠ chr '!' := by
  revert b
  apply forall_byte
  decide +kernel

/-- The token of a spelling that is no operator is no lone exclamation mark. -/
lemma Spelled.hasLoneBang {chunk : CString} {t : Token} (h : Spelled chunk t)
    (hop : ∀ op rest, op ∈ operatorTexts → chunk ≠ op ++ rest) (rest : CString) :
    t.isBang = false ∧
      MiniDbms.hasLoneBang false (chunk ++ rest) = MiniDbms.hasLoneBang false rest := by
  have htype : ∀ {t : Token}, t.type ≠ .operator → t.isBang = false := by
    intro t ht
    simp [Token.isBang, ht]
  cases h with
  | @punctuation b type hmem =>
    simp only [MiniDbms.punctuation, List.mem_cons, List.not_mem_nil, or_false,
      Prod.mk.injEq] at hmem
    have hb : type ≠ .operator ∧ b ≠ chr '\'' ∧ b ≠ chr '!' := by
      rcases hmem with ⟨rfl, rfl⟩ | ⟨rfl, rfl⟩ | ⟨rfl, rfl⟩ | ⟨rfl, rfl⟩ | ⟨rfl, rfl⟩ <;> decide
    exact ⟨htype hb.1, hasLoneBang_append (by simpa using hb.2) rest⟩
  | literal v => exact ⟨htype (by simp), hasLoneBang_quoted v.val rest⟩
  | operator hmem => exact absurd (List.append_nil _).symm (hop _ [] hmem)
  | number hnumber hlen =>
    refine ⟨htype (by simp), hasLoneBang_append (fun c hc => ne_of_isdigit ?_) rest⟩
    obtain ⟨sign, digits, rfl, hsign, -, hdigits⟩ := hnumber
    rcases List.mem_append.mp hc with hc | hc
    · rcases hsign with rfl | rfl | rfl
      · cases hc
      · exact .inr (.inl (List.mem_singleton.mp hc))
      · exact .inr (.inr (List.mem_singleton.mp hc))
    · exact .inl (hdigits c hc)
  | @word b w t hb hw hlen ht =>
    refine ⟨htype ?_, hasLoneBang_append (fun c hc => ne_of_isWordByte ?_) rest⟩
    · unfold tokenizerWordToken at ht
      split_ifs at ht
      · obtain ⟨v, -, hmake⟩ := Option.bind_eq_some_iff.mp ht
        simp [(tokenizerMakeToken_some hmake).1]
      · simp [(tokenizerMakeToken_some ht).1]
    · rcases List.mem_cons.mp hc with rfl | hc
      · exact isWordByte_of_start (by simpa using hb)
      · exact hw c hc
  | @unknown b hother =>
    refine ⟨htype (by simp), hasLoneBang_append (fun c hc => ?_) rest⟩
    obtain rfl := List.mem_singleton.mp hc
    constructor
    · rintro rfl
      exact hother.2.1 (by decide)
    · rintro rfl
      exact hother.2.1 (by decide)

lemma tokenizerReadOperator_hasLoneBang {b : Byte} (hquote : b ≠ chr '\'') (sql : CString) :
    hasLoneBang false (b :: sql) =
      ((tokenizerReadOperator b sql).1 == bytes "!" ||
        hasLoneBang false (tokenizerReadOperator b sql).2) := by
  by_cases hdouble : (b = chr '!' ∨ b = chr '<' ∨ b = chr '>') ∧ sql.head? = some (chr '=')
  · obtain ⟨sql, rfl⟩ : ∃ tail, sql = chr '=' :: tail := by
      obtain ⟨tail, htail⟩ := List.head?_eq_some_iff.mp hdouble.2
      exact ⟨tail, htail⟩
    have heq : chr '=' ≠ chr '\'' ∧ chr '=' ≠ chr '!' := by decide
    rw [tokenizerReadOperator, if_pos hdouble]
    simp [hasLoneBang, hquote, heq, bytes]
  · rw [tokenizerReadOperator, if_neg hdouble]
    by_cases hbang : b = chr '!'
    · have hhead : sql.head? ≠ some (chr '=') := fun h => hdouble ⟨.inl hbang, h⟩
      rw [hbang] at hquote ⊢
      simp [hasLoneBang, hquote, hhead, bytes]
    · have hother : (b == chr '!') = false := by simpa using hbang
      simp [hasLoneBang, hquote, hother, bytes]

lemma isBang_operator {op : CString} (h : op ∈ operatorTexts) :
    Token.isBang ⟨.operator, .truncate 255 op⟩ = (op == bytes "!") := by
  simp only [operatorTexts, List.mem_cons, List.not_mem_nil, or_false] at h
  rcases h with rfl | rfl | rfl | rfl | rfl | rfl | rfl <;> decide

lemma Spelled.operatorText {chunk : CString} {t : Token} (h : Spelled chunk t)
    (ht : t.type = .operator) : t.value.val ∈ operatorTexts := by
  cases h with
  | punctuation hmem =>
    simp only [MiniDbms.punctuation, List.mem_cons, List.not_mem_nil, or_false,
      Prod.mk.injEq] at hmem
    subst ht
    rcases hmem with ⟨-, h⟩ | ⟨-, h⟩ | ⟨-, h⟩ | ⟨-, h⟩ | ⟨-, h⟩ <;> cases h
  | literal v => cases ht
  | operator hmem =>
    have hval : ∀ op ∈ operatorTexts, (CBuf.truncate 255 op).val ∈ operatorTexts := by decide
    exact hval _ hmem
  | number => cases ht
  | @word b w t _ _ _ hword =>
    unfold tokenizerWordToken at hword
    split_ifs at hword
    · obtain ⟨v, -, hmake⟩ := Option.bind_eq_some_iff.mp hword
      rw [(tokenizerMakeToken_some hmake).1] at ht
      cases ht
    · rw [(tokenizerMakeToken_some hword).1] at ht
      cases ht
  | unknown => cases ht

/-- A round takes a lone exclamation mark from the text and makes a token of it, or neither. -/
lemma tokenizerStep_hasLoneBang {b : Byte} {sql rest : CString} {ts : List Token}
    (hnul : 0 ∉ b :: sql) (h : tokenizerStep b sql = some (ts, rest)) :
    hasLoneBang false (b :: sql) = (ts.any Token.isBang || hasLoneBang false rest) := by
  by_cases hop : b ∈ bytes "!<>="
  · rw [tokenizerStep_operatorText hop] at h
    cases h
    have hquote : b ≠ chr '\'' := by
      rintro rfl
      exact absurd hop (by decide)
    rw [tokenizerReadOperator_hasLoneBang hquote, List.any_cons, List.any_nil, Bool.or_false,
      isBang_operator (tokenizerReadOperator_text hop sql).1]
  · rcases tokenizerStep_spelled hnul h with ⟨hspace, rfl, rfl⟩ | ⟨chunk, t, hsplit, rfl, ht⟩
    · have hb := ne_of_isspace hspace
      simp [hasLoneBang, hb]
    · have hnone : ∀ op more, op ∈ operatorTexts → chunk ≠ op ++ more := by
        rintro op more hmem rfl
        simp only [operatorTexts, List.mem_cons, List.not_mem_nil, or_false] at hmem
        rcases hmem with rfl | rfl | rfl | rfl | rfl | rfl | rfl <;>
          rw [(List.cons_eq_cons.mp hsplit).1] at hop <;> exact hop (by decide)
      obtain ⟨hbang, hrest⟩ := ht.hasLoneBang hnone rest
      simp [hsplit, hrest, hbang]

lemma tokenizerLoop_hasLoneBang {fuel : Nat} {sql : CString} {ts : List Token} (hnul : 0 ∉ sql)
    (h : tokenizerLoop fuel sql = some ts) : ts.any Token.isBang = hasLoneBang false sql := by
  induction fuel generalizing sql ts with
  | zero =>
    cases sql with
    | nil =>
      cases h
      rfl
    | cons b sql => cases h
  | succ fuel ih =>
    cases sql with
    | nil =>
      cases h
      rfl
    | cons b sql =>
      obtain ⟨⟨ts', rest⟩, hstep, hloop⟩ := Option.bind_eq_some_iff.mp h
      obtain ⟨more, hmore, ⟨⟩⟩ := Option.bind_eq_some_iff.mp hloop
      have hrest : 0 ∉ rest := by
        rcases tokenizerStep_spelled hnul hstep with ⟨-, -, rfl⟩ | ⟨chunk, t, hsplit, -, -⟩
        · exact fun hmem => hnul (List.mem_cons_of_mem _ hmem)
        · exact fun hmem => hnul (by simp [hsplit, hmem])
      rw [List.any_append, ih hrest hmore, tokenizerStep_hasLoneBang hnul hstep]

/-! ### Statements -/

/-- The condition of a statement. -/
def SqlStatement.whereClause : SqlStatement → Option WhereClause
  | .insert _    => none
  | .select stmt => stmt.whereClause
  | .delete stmt => stmt.whereClause

lemma Token.Is.not_isBang {t : Token} {type : TokenType} {value : CString} (h : t.Is type value)
    (htype : type ≠ .operator) : t.isBang = false := by
  simp [Token.isBang, h.1, htype]

lemma CommaList.not_isBang {α : Type} {item : Token → α → Prop} {as : List α} {ts : List Token}
    (h : CommaList item as ts) (hitem : ∀ {t a}, item t a → t.isBang = false) :
    ts.any Token.isBang = false := by
  induction h with
  | single ht => simp [hitem ht]
  | cons ht hcomma _ ih => simp [hitem ht, hcomma.not_isBang (by decide), ih]

lemma SelectList.not_isBang {columns : List Identifier} {ts : List Token}
    (h : SelectList columns ts) : ts.any Token.isBang = false := by
  cases h with
  | star ht => simp [ht.not_isBang (by decide)]
  | names _ hlist => exact hlist.not_isBang fun ht => ht.not_isBang (by decide)

lemma Semicolon.not_isBang {ts : List Token} (h : Semicolon ts) :
    ts.any Token.isBang = false := by
  cases h with
  | absent => rfl
  | present ht => simp [ht.not_isBang (by decide)]

/-- The tokens of a condition have its operator. -/
lemma WherePhrase.operator {w : WhereClause} {ts : List Token} (h : WherePhrase (some w) ts) :
    ts.any Token.isBang = (w.op.val == bytes "!") ∧ ∃ t ∈ ts, t.IsOperator w.op := by
  cases h with
  | @present _ kw column op value hkw hcolumn hop hvalue =>
    have hliteral : value.isBang = false := by
      rcases hvalue with hvalue | hvalue <;> exact hvalue.not_isBang (by decide)
    have hbang : op.isBang = (w.op.val == bytes "!") := by
      simp [Token.isBang, hop.1, hop.2]
    refine ⟨?_, op, by simp, hop⟩
    simp [hkw.not_isBang (by decide), hcolumn.not_isBang (by decide), hliteral, hbang]

/-- The only operator among the tokens of a statement is that of its condition. -/
lemma parserParse_operator {ts : List Token} {stmt : SqlStatement} {w : WhereClause}
    (h : parserParse ts = some stmt) (hw : stmt.whereClause = some w) :
    ts.any Token.isBang = (w.op.val == bytes "!") ∧ ∃ t ∈ ts, t.IsOperator w.op := by
  cases parserParse_sound h with
  | insert => cases hw
  | select hselect hcolumns hfrom hname hwhere hsemicolon =>
    rw [SqlStatement.whereClause] at hw
    rw [hw] at hwhere
    obtain ⟨hbang, t, ht, hop⟩ := hwhere.operator
    refine ⟨?_, t, by simp [ht], hop⟩
    simp [hselect.not_isBang (by decide), hcolumns.not_isBang, hfrom.not_isBang (by decide),
      hname.not_isBang (by decide), hbang, hsemicolon.not_isBang]
  | delete hdelete hfrom hname hwhere hsemicolon =>
    rw [SqlStatement.whereClause] at hw
    rw [hw] at hwhere
    obtain ⟨hbang, t, ht, hop⟩ := hwhere.operator
    refine ⟨?_, t, by simp [ht], hop⟩
    simp [hdelete.not_isBang (by decide), hfrom.not_isBang (by decide),
      hname.not_isBang (by decide), hbang, hsemicolon.not_isBang]

/-! ### The evaluators -/

/-- On a comparison operator both evaluators give the same answer. -/
lemma storageCompareWithOperator_eq {op : CString} (hop : op ∈ comparisonOperators)
    (cell value : CString) :
    storageCompareWithOperator cell op value =
      some (tableWhereMatches (utilsCompareValues cell value) op) := by
  simp only [comparisonOperators, List.mem_cons, List.not_mem_nil, or_false] at hop
  rcases hop with rfl | rfl | rfl | rfl | rfl | rfl <;> rfl

lemma mem_of_mem_utilsTrim {b : Byte} {text : CString} (h : b ∈ utilsTrim text) : b ∈ text :=
  (List.rdropWhile_prefix isspace text).subset ((List.dropWhile_suffix isspace).subset h)

/-- Every operator that gets through is a comparison operator, on which the two evaluators agree,
unless the text has a lone exclamation mark. -/
theorem whereOperator_supported_iff {history : List CString} {sql : CString} {tokens : List Token}
    {stmt : SqlStatement} {w : WhereClause} (hnul : 0 ∉ sql)
    (htokens : (tokenizerTokenize (tokenizerRun history) sql).2 = some tokens)
    (hparse : parserParse tokens = some stmt) (hw : stmt.whereClause = some w) :
    (w.op.val ∈ comparisonOperators ∧
        ∀ cell, storageCompareWithOperator cell w.op.val w.value.val =
          some (tableWhereMatches (utilsCompareValues cell w.value.val) w.op.val)) ↔
      hasLoneBang false (utilsTrim sql) = false := by
  rw [((tokenizerRun_sound history).tokenize sql).2, tokensOf] at htokens
  split_ifs at htokens
  obtain ⟨hloop, -⟩ := tokenizerTokenizeSql_eq_some.mp htokens
  have htrim : 0 ∉ utilsTrim sql := fun hmem => hnul (mem_of_mem_utilsTrim hmem)
  obtain ⟨hbang, t, ht, hop⟩ := parserParse_operator hparse hw
  rw [tokenizerLoop_hasLoneBang htrim hloop] at hbang
  rw [hbang]
  -- the operator is one of those that the tokenizer makes
  obtain ⟨chunk, hspelled⟩ := tokenizerLoop_spelled htrim hloop t ht
  have htext : w.op.val ∈ operatorTexts := by
    rw [← hop.2]
    exact hspelled.operatorText hop.1
  constructor
  · rintro ⟨hmem, -⟩
    rw [beq_eq_false_iff_ne]
    intro heq
    rw [heq] at hmem
    exact absurd hmem (by decide)
  · intro hne
    have hmem : w.op.val ∈ comparisonOperators := by
      rw [beq_eq_false_iff_ne] at hne
      simp only [operatorTexts, comparisonOperators, List.mem_cons, List.not_mem_nil, or_false] at *
      tauto
    exact ⟨hmem, fun cell => storageCompareWithOperator_eq hmem cell w.value.val⟩

/-- An inequality is supported. -/
theorem whereOperator_supported_ne :
    bytes "!=" ∈ comparisonOperators ∧ ∀ cell,
      storageCompareWithOperator cell (bytes "!=") (bytes "1") =
        some (tableWhereMatches (utilsCompareValues cell (bytes "1")) (bytes "!=")) := by
  have hstmt : ∃ tokens stmt w, (tokenizerTokenize (tokenizerRun [])
      (bytes "DELETE FROM t WHERE a!=1")).2 = some tokens ∧ parserParse tokens = some stmt ∧
      stmt.whereClause = some w ∧ w.op.val = bytes "!=" ∧ w.value.val = bytes "1" :=
    ⟨_, .delete ⟨identifier "t", some ⟨identifier "a", .truncate 3 (bytes "!="),
      .truncate 255 (bytes "1")⟩⟩, _, rfl, rfl, rfl, rfl, rfl⟩
  obtain ⟨tokens, stmt, w, htokens, hparse, hw, hop, hvalue⟩ := hstmt
  rw [← hop, ← hvalue]
  exact (whereOperator_supported_iff (by decide) htokens hparse hw).mpr (by decide)

/-- A lone exclamation mark gets through, and only the storage refuses it. -/
theorem whereOperator_supported_bang :
    ¬ ∀ (history : List CString) (sql : CString) (tokens : List Token) (stmt : SqlStatement)
      (w : WhereClause), 0 ∉ sql → (tokenizerTokenize (tokenizerRun history) sql).2 = some tokens →
      parserParse tokens = some stmt → stmt.whereClause = some w →
        w.op.val ∈ comparisonOperators ∧
          ∀ cell, storageCompareWithOperator cell w.op.val w.value.val =
            some (tableWhereMatches (utilsCompareValues cell w.value.val) w.op.val) := by
  intro h
  have hmem := (h [] (bytes "DELETE FROM t WHERE a ! 1") _ (.delete ⟨identifier "t",
    some ⟨identifier "a", .truncate 3 (bytes "!"), .truncate 255 (bytes "1")⟩⟩) _ (by decide)
    rfl rfl rfl).1
  exact absurd hmem (by decide)

end MiniDbms
