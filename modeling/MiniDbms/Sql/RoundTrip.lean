import MiniDbms.Sql.Parser
import MiniDbms.Sql.TokenizerCache

/-!
# Writing statements as SQL and reading them back

A statement is written as a list of lexemes with white space between them. Only the grammar of
the written form is fixed here: the case of the keywords, the white space and the final
semicolon are free.
-/

namespace MiniDbms

/-! ### The written form -/

inductive Lexeme where
  | keyword (k : CString)
  | name (n : Identifier)
  | star
  | literal (v : Value)
  | operator (op : CBuf 3)
  | lparen
  | rparen
  | comma
  | semicolon
  deriving DecidableEq, Repr

/-- The body of a quoted literal: every quote doubled. -/
def quoteBody : CString → CString
  | []     => []
  | b :: v => if b = chr '\'' then chr '\'' :: chr '\'' :: quoteBody v else b :: quoteBody v

/-- The texts that spell a lexeme; a keyword may be in any letter case. -/
def Lexeme.Spells : Lexeme → CString → Prop
  | keyword k, s   => s.map toupper = k
  | name n, s      => s = n.val
  | star, s        => s = [chr '*']
  | literal v, s   => s = chr '\'' :: (quoteBody v.val ++ [chr '\''])
  | operator op, s => s = op.val
  | lparen, s      => s = [chr '(']
  | rparen, s      => s = [chr ')']
  | comma, s       => s = [chr ',']
  | semicolon, s   => s = [chr ';']

def Lexeme.isWord : Lexeme → Bool
  | keyword _ => true
  | name _    => true
  | _         => false

/-- Lexemes that would run together: two words. Two literals or two operators would as well, but
no statement has them side by side. -/
def Lexeme.needsGap : Lexeme → Lexeme → Bool
  | literal _, literal _   => true
  | operator _, operator _ => true
  | a, b                   => a.isWord && b.isWord

def Blank (s : CString) : Prop := ∀ b ∈ s, isspace b = true

/-- `Written ls s`: the text `s` is the lexemes `ls` with white space between them. -/
inductive Written : List Lexeme → CString → Prop
  | single {l : Lexeme} {s : CString} : l.Spells s → Written [l] s
  | cons {l l' : Lexeme} {ls : List Lexeme} {s gap rest : CString} :
      l.Spells s → Blank gap → (l.needsGap l' = true → gap ≠ []) → Written (l' :: ls) rest →
        Written (l :: l' :: ls) (s ++ gap ++ rest)

/-- The lexemes of a list, with commas between them. -/
def commaSeparated : List Lexeme → List Lexeme
  | []           => []
  | [l]          => [l]
  | l :: l' :: ls => l :: .comma :: commaSeparated (l' :: ls)

def whereLexemes : Option WhereClause → List Lexeme
  | none   => []
  | some w => [.keyword (bytes "WHERE"), .name w.column, .operator w.op, .literal w.value]

def SqlStatement.lexemes : SqlStatement → List Lexeme
  | .insert stmt =>
    [.keyword (bytes "INSERT"), .keyword (bytes "INTO"), .name stmt.tableName, .lparen] ++
      commaSeparated (stmt.columns.map .name) ++
      [.rparen, .keyword (bytes "VALUES"), .lparen] ++
      commaSeparated (stmt.values.map .literal) ++ [.rparen]
  | .select stmt =>
    [.keyword (bytes "SELECT")] ++
      (if stmt.columns.isEmpty then [.star] else commaSeparated (stmt.columns.map .name)) ++
      [.keyword (bytes "FROM"), .name stmt.tableName] ++ whereLexemes stmt.whereClause
  | .delete stmt =>
    [.keyword (bytes "DELETE"), .keyword (bytes "FROM"), .name stmt.tableName] ++
      whereLexemes stmt.whereClause

/-- `sql` is the statement written as SQL, with or without the final semicolon. -/
def Renders (stmt : SqlStatement) (sql : CString) : Prop :=
  ∃ lead core trail, sql = lead ++ core ++ trail ∧ Blank lead ∧ Blank trail ∧
    (Written stmt.lexemes core ∨ Written (stmt.lexemes ++ [.semicolon]) core)

/-- `[A-Za-z_][A-Za-z0-9_]*`, and no keyword. -/
def ValidName (n : Identifier) : Prop :=
  (∃ b s, n.val = b :: s ∧ (isalpha b = true ∨ b = chr '_') ∧ ∀ c ∈ s, isWordByte c = true) ∧
    utilsIsSqlKeyword n.val = false

/-- The comparison operators. -/
def comparisonOperators : List CString :=
  [bytes "=", bytes "!=", bytes "<", bytes "<=", bytes ">", bytes ">="]

def WhereClause.Printable (w : WhereClause) : Prop :=
  ValidName w.column ∧ w.op.val ∈ comparisonOperators

def SqlStatement.Printable : SqlStatement → Prop
  | .insert stmt => ValidName stmt.tableName ∧ stmt.columns ≠ [] ∧ ∀ n ∈ stmt.columns, ValidName n
  | .select stmt => ValidName stmt.tableName ∧ (∀ n ∈ stmt.columns, ValidName n) ∧
      ∀ w ∈ stmt.whereClause, w.Printable
  | .delete stmt => ValidName stmt.tableName ∧ ∀ w ∈ stmt.whereClause, w.Printable

/-! ### Tokens of lexemes -/

def Lexeme.token : Lexeme → Token
  | keyword k   => ⟨.keyword, .truncate 255 k⟩
  | name n      => ⟨.identifier, .truncate 255 n.val⟩
  | star        => ⟨.identifier, .truncate 255 (bytes "*")⟩
  | literal v   => ⟨.strLiteral, v⟩
  | operator op => ⟨.operator, .truncate 255 op.val⟩
  | lparen      => ⟨.lparen, .truncate 255 (bytes "(")⟩
  | rparen      => ⟨.rparen, .truncate 255 (bytes ")")⟩
  | comma       => ⟨.comma, .truncate 255 (bytes ",")⟩
  | semicolon   => ⟨.semicolon, .truncate 255 (bytes ";")⟩

def Lexeme.Ok : Lexeme → Prop
  | keyword k   => k ∈ sqlKeywords
  | name n      => ValidName n
  | operator op => op.val ∈ comparisonOperators
  | _           => True

/-- The text after a lexeme does not prolong it. -/
def Lexeme.EndsBefore (l : Lexeme) (rest : CString) : Prop :=
  ∀ b ∈ rest.head?, match l with
    | keyword _  => isWordByte b = false
    | name _     => isWordByte b = false
    | literal _  => b ≠ chr '\''
    | operator _ => b ≠ chr '='
    | _          => True

lemma wordStart_facts {b : Byte} : (isalpha b = true ∨ b = chr '_') →
    isspace b = false ∧ isdigit b = false ∧ isWordByte b = true ∧
      b ∉ bytes "(),;*'!<>=-+" := by
  revert b
  apply forall_byte
  decide +kernel

lemma isWordByte_facts {b : Byte} : isWordByte b = true →
    isspace b = false ∧ b ≠ 0 ∧ b ≠ chr '\'' ∧ b ≠ chr '=' := by
  revert b
  apply forall_byte
  decide +kernel

lemma isspace_facts {b : Byte} : isspace b = true →
    isWordByte b = false ∧ b ≠ chr '\'' ∧ b ≠ chr '=' := by
  revert b
  apply forall_byte
  decide +kernel

lemma isalpha_of_toupper {b : Byte} : isupper (toupper b) = true → isalpha b = true := by
  revert b
  apply forall_byte
  decide +kernel

lemma tokenizerMakeToken_eq (type : TokenType) {s : CString} (hlen : s.length ≤ 255)
    (hnul : 0 ∉ s) : tokenizerMakeToken type s = some ⟨type, .truncate 255 s⟩ := by
  simp [tokenizerMakeToken, utilsSafeStrcpy, cView_eq_self hnul, hlen]

lemma tokenizerReadWhile_append {p : Byte → Bool} {n : Nat} {w rest : CString}
    (hw : ∀ b ∈ w, p b = true) (hlen : n + w.length < maxTokenValue)
    (hrest : ∀ b ∈ rest.head?, p b = false) :
    tokenizerReadWhile p maxTokenValue n (w ++ rest) = some (w, rest) := by
  induction w generalizing n with
  | nil =>
    cases rest with
    | nil => rfl
    | cons b rest =>
      have hb : p b = false := hrest b rfl
      simp [tokenizerReadWhile, hb]
  | cons b w ih =>
    have hb : p b = true := hw b (by simp)
    rw [List.length_cons] at hlen
    have hroom : ¬ n + 1 ≥ maxTokenValue := by omega
    have htail := @ih (n + 1) (fun c hc => hw c (by simp [hc])) (by omega)
    simp [tokenizerReadWhile, hb, hroom, htail]

lemma tokenizerReadString_quoteBody {n : Nat} {v rest : CString}
    (hlen : n + v.length < maxTokenValue) (hrest : ∀ b ∈ rest.head?, b ≠ chr '\'') :
    tokenizerReadString maxTokenValue n (quoteBody v ++ chr '\'' :: rest) = some (v, rest) := by
  induction v generalizing n with
  | nil =>
    cases rest with
    | nil => simp [quoteBody, tokenizerReadString]
    | cons b rest =>
      have hb : b ≠ chr '\'' := hrest b rfl
      simp [quoteBody, tokenizerReadString, hb]
  | cons b v ih =>
    rw [List.length_cons] at hlen
    have hroom : ¬ n + 1 ≥ maxTokenValue := by omega
    have htail := @ih (n + 1) (by omega)
    by_cases hb : b = chr '\''
    · simp [quoteBody, tokenizerReadString, hb, hroom, htail]
    · -- the rest of the body, which the reader looks at one byte ahead, is not empty
      obtain ⟨c, text, hc⟩ : ∃ c text, quoteBody v ++ chr '\'' :: rest = c :: text :=
        List.exists_cons_of_ne_nil (by simp)
      rw [hc] at htail
      simp [quoteBody, tokenizerReadString, hb, hroom, hc, htail]

lemma tokenizerStep_word {b : Byte} (hb : isalpha b = true ∨ b = chr '_') (sql : CString) :
    tokenizerStep b sql = (do
      let (w, rest) ← tokenizerReadWord maxTokenValue (b :: sql)
      let t ← tokenizerWordToken w
      return ([t], rest)) := by
  obtain ⟨hspace, hdigit, -, hpunct⟩ := wordStart_facts hb
  simp only [bytes, String.reduceToList, List.map_cons, List.map_nil, List.mem_cons,
    not_or] at hpunct
  simp [tokenizerStep, tokenizerIsNumericStart, hspace, hdigit, hpunct, hb]

lemma tokenizerStep_eq_word {b : Byte} {w rest : CString} {t : Token}
    (hb : isalpha b = true ∨ b = chr '_') (hw : ∀ c ∈ w, isWordByte c = true)
    (hlen : (b :: w).length ≤ 255) (hrest : ∀ c ∈ rest.head?, isWordByte c = false)
    (ht : tokenizerWordToken (b :: w) = some t) :
    tokenizerStep b (w ++ rest) = some ([t], rest) := by
  have hall : ∀ c ∈ b :: w, isWordByte c = true := by
    intro c hc
    rcases List.mem_cons.mp hc with rfl | hc
    · exact (wordStart_facts hb).2.2.1
    · exact hw c hc
  have hread := tokenizerReadWhile_append (n := 0) hall (by simp [maxTokenValue] at *; omega) hrest
  rw [List.cons_append] at hread
  rw [tokenizerStep_word hb, tokenizerReadWord, hread]
  simp [ht]

lemma sqlKeywords_facts : ∀ k ∈ sqlKeywords, k ≠ [] ∧ k.length ≤ 255 ∧ 0 ∉ k ∧
    k.map toupper = k ∧ ∀ b ∈ k, isupper b = true := by
  intro k hk
  simp only [sqlKeywords, List.mem_cons, List.not_mem_nil, or_false] at hk
  rcases hk with rfl | rfl | rfl | rfl | rfl | rfl | rfl <;>
    exact ⟨by decide, by decide, by decide, rfl, forall_mem_of_all rfl⟩

/-- The bytes of a word: a start byte and word bytes. -/
lemma Lexeme.Spells.word {l : Lexeme} {s : CString} (hl : l.isWord = true) (hok : l.Ok)
    (hs : l.Spells s) : ∃ b w, s = b :: w ∧ (isalpha b = true ∨ b = chr '_') ∧
      (∀ c ∈ w, isWordByte c = true) ∧ s.length ≤ 255 ∧ tokenizerWordToken s = some l.token := by
  cases l with
  | keyword k =>
    obtain ⟨hne, hlen, hnul, hupper, halpha⟩ := sqlKeywords_facts k hok
    have hs' : s.map toupper = k := hs
    have hall : ∀ b ∈ s, isalpha b = true := fun b hb =>
      isalpha_of_toupper (halpha _ (hs' ▸ List.mem_map_of_mem hb))
    have hslen : s.length ≤ 255 := by simpa [← hs'] using hlen
    have hkey : utilsIsSqlKeyword s = true := by
      rw [utilsIsSqlKeyword, List.any_eq_true]
      exact ⟨k, hok, utilsEqualsIgnoreCase_iff.mpr (hs'.trans hupper.symm)⟩
    obtain ⟨b, w, rfl⟩ : ∃ b w, s = b :: w := by
      apply List.exists_cons_of_ne_nil
      rintro rfl
      exact hne hs'.symm
    refine ⟨b, w, rfl, .inl (hall b (by simp)), fun c hc => ?_, hslen, ?_⟩
    · simp [isWordByte, isalnum, hall c (by simp [hc])]
    · have hsize : (b :: w).length < maxTokenValue := Nat.lt_succ_of_le hslen
      rw [tokenizerWordToken, if_pos hkey, utilsToUpperCopy, if_pos hsize, hs']
      exact tokenizerMakeToken_eq _ hlen hnul
  | name n =>
    obtain ⟨⟨b, w, hn, hb, hw⟩, hkey⟩ := hok
    obtain rfl : s = n.val := hs
    have hlen : n.val.length ≤ 255 := n.2.1.trans (by decide)
    refine ⟨b, w, hn, hb, hw, hlen, ?_⟩
    simp [tokenizerWordToken, hkey, Lexeme.token, tokenizerMakeToken_eq _ hlen n.2.2]
  | _ => cases hl

lemma tokenizerStep_operator {op : CString} (hop : op ∈ comparisonOperators) {rest : CString}
    (hrest : ∀ b ∈ rest.head?, b ≠ chr '=') :
    ∃ b s, op = b :: s ∧ isspace b = false ∧
      tokenizerStep b (s ++ rest) = some ([⟨.operator, .truncate 255 op⟩], rest) := by
  have hne : rest.head? ≠ some (chr '=') := fun h => hrest _ h rfl
  simp only [comparisonOperators, List.mem_cons, List.not_mem_nil, or_false] at hop
  rcases hop with rfl | rfl | rfl | rfl | rfl | rfl <;>
    exact ⟨_, _, rfl, by decide, by simp +decide [tokenizerStep, tokenizerReadOperator, hne]; rfl⟩

/-- A lexeme followed by a text that does not prolong it is read as its token. -/
lemma Lexeme.Spells.step {l : Lexeme} {s : CString} (hs : l.Spells s) (hok : l.Ok)
    (rest : CString) (hrest : l.EndsBefore rest) : ∃ b s', s = b :: s' ∧ isspace b = false ∧
      tokenizerStep b (s' ++ rest) = some ([l.token], rest) := by
  by_cases hl : l.isWord = true
  · obtain ⟨b, w, rfl, hb, hw, hlen, ht⟩ := hs.word hl hok
    have hrest' : ∀ c ∈ rest.head?, isWordByte c = false := by
      intro c hc
      cases l with
      | keyword k => exact hrest c hc
      | name n => exact hrest c hc
      | _ => cases hl
    exact ⟨b, w, rfl, (wordStart_facts hb).1, tokenizerStep_eq_word hb hw hlen hrest' ht⟩
  · cases l with
    | keyword k => exact absurd rfl hl
    | name n => exact absurd rfl hl
    | literal v =>
      obtain rfl : s = _ := hs
      refine ⟨_, _, rfl, by decide, ?_⟩
      have hread := tokenizerReadString_quoteBody (n := 0) (v := v.val)
        (by have := v.2.1; simp [maxTokenValue]; omega) hrest
      have hmake := tokenizerMakeToken_eq .strLiteral v.2.1 v.2.2
      simp +decide [tokenizerStep, hread, hmake, Lexeme.token]
    | operator op =>
      obtain rfl : s = op.val := hs
      exact tokenizerStep_operator hok hrest
    | _ =>
      obtain rfl : s = _ := hs
      exact ⟨_, _, rfl, by decide, by simp +decide [tokenizerStep, Lexeme.token]⟩

/-! ### Tokenizing a written statement -/

lemma tokenizerLoop_blank {gap : CString} (hgap : Blank gap) (rest : CString) :
    tokenizerLoop (gap ++ rest).length (gap ++ rest) = tokenizerLoop rest.length rest := by
  induction gap with
  | nil => rfl
  | cons b gap ih =>
    have hb : isspace b = true := hgap b (by simp)
    have hstep : tokenizerStep b (gap ++ rest) = some ([], gap ++ rest) := by
      simp [tokenizerStep, hb]
    rw [List.cons_append, tokenizerLoop_step hstep, ih fun c hc => hgap c (by simp [hc])]
    simp

/-- The first byte of a lexeme does not prolong the lexeme before it. -/
lemma Lexeme.Spells.endsBefore {l l' : Lexeme} {s : CString} (hok : l'.Ok) (hs : l'.Spells s)
    (hgap : l.needsGap l' = false) (rest : CString) : l.EndsBefore (s ++ rest) := by
  intro c hc
  by_cases hword : l'.isWord = true
  · obtain ⟨b, w, rfl, hb, -⟩ := hs.word hword hok
    obtain rfl : c = b := by simpa using hc.symm
    obtain ⟨-, -, -, hpunct⟩ := wordStart_facts hb
    cases l with
    | keyword k => cases l' <;> simp_all [Lexeme.needsGap, Lexeme.isWord]
    | name n => cases l' <;> simp_all [Lexeme.needsGap, Lexeme.isWord]
    | literal v => exact fun h => hpunct (h ▸ by decide)
    | operator op => exact fun h => hpunct (h ▸ by decide)
    | _ => trivial
  · have hfirst : ∀ {x : Byte} {t : CString}, s = x :: t → c = x := by
      rintro x t rfl
      simpa using hc.symm
    cases l' with
    | keyword k => exact absurd rfl hword
    | name n => exact absurd rfl hword
    | operator op =>
      obtain rfl : s = op.val := hs
      have hop : ∀ o ∈ comparisonOperators, o ≠ [] ∧ ∀ x ∈ o.head?,
          isWordByte x = false ∧ x ≠ chr '\'' := by
        intro o ho
        simp only [comparisonOperators, List.mem_cons, List.not_mem_nil, or_false] at ho
        rcases ho with rfl | rfl | rfl | rfl | rfl | rfl <;>
          exact ⟨by decide, by rintro _ ⟨⟩; decide⟩
      obtain ⟨hne, hhead⟩ := hop _ hok
      obtain ⟨x, t, ht⟩ := List.exists_cons_of_ne_nil hne
      obtain rfl := hfirst ht
      have hx := hhead c (by simp [ht])
      cases l with
      | operator op' => simp [Lexeme.needsGap] at hgap
      | keyword k => exact hx.1
      | name n => exact hx.1
      | literal v => exact hx.2
      | _ => trivial
    | literal v =>
      obtain rfl := hfirst hs
      cases l with
      | literal v' => simp [Lexeme.needsGap] at hgap
      | _ => simp +decide
    | _ =>
      obtain rfl := hfirst hs
      cases l <;> simp +decide

lemma Lexeme.endsBefore_blank {l : Lexeme} {gap : CString} (hgap : Blank gap) (hne : gap ≠ [])
    (rest : CString) : l.EndsBefore (gap ++ rest) := by
  obtain ⟨b, g, rfl⟩ := List.exists_cons_of_ne_nil hne
  intro c hc
  obtain rfl : c = b := by simpa using hc.symm
  have hspace := isspace_facts (hgap c (by simp))
  cases l with
  | keyword k => exact hspace.1
  | name n => exact hspace.1
  | literal v => exact hspace.2.1
  | operator op => exact hspace.2.2
  | _ => trivial

/-- A written list of lexemes is read as the list of their tokens. -/
lemma Written.tokenizerLoop {ls : List Lexeme} {s : CString} (h : Written ls s)
    (hok : ∀ l ∈ ls, l.Ok) : tokenizerLoop s.length s = some (ls.map Lexeme.token) := by
  induction h with
  | @single l s hs =>
    obtain ⟨b, s', rfl, -, hstep⟩ := hs.step (hok l (by simp)) [] (by intro c hc; cases hc)
    rw [List.append_nil] at hstep
    rw [tokenizerLoop_step hstep]
    rfl
  | @cons l l' ls s gap rest hs hblank hgap hw ih =>
    have hend : l.EndsBefore (gap ++ rest) := by
      by_cases hne : gap = []
      · subst hne
        have hno : l.needsGap l' = false := by
          by_contra hneed
          exact hgap (by simpa using hneed) rfl
        have hok' : l'.Ok := hok l' (by simp)
        cases hw with
        | single hs' => simpa using hs'.endsBefore hok' hno []
        | cons hs' => simpa [List.append_assoc] using hs'.endsBefore hok' hno _
      · exact Lexeme.endsBefore_blank hblank hne rest
    obtain ⟨b, s', rfl, -, hstep⟩ := hs.step (hok l (by simp)) _ hend
    rw [List.append_assoc, List.cons_append, tokenizerLoop_step hstep, tokenizerLoop_blank hblank,
      ih fun l'' hl => hok l'' (by simp [hl])]
    rfl

/-! ### Trimming -/

lemma Lexeme.Spells.last {l : Lexeme} {s : CString} (hok : l.Ok) (hs : l.Spells s) :
    ∃ b, s.getLast? = some b ∧ isspace b = false := by
  by_cases hword : l.isWord = true
  · obtain ⟨b, w, rfl, hb, hw, -⟩ := hs.word hword hok
    refine ⟨(b :: w).getLast (by simp), List.getLast?_eq_some_getLast _, ?_⟩
    rcases List.mem_cons.mp (List.getLast_mem (l := b :: w) (by simp)) with hlast | hlast
    · rw [hlast]
      exact (wordStart_facts hb).1
    · exact (isWordByte_facts (hw _ hlast)).1
  · cases l with
    | keyword k => exact absurd rfl hword
    | name n => exact absurd rfl hword
    | operator op =>
      obtain rfl : s = op.val := hs
      have hop : ∀ o ∈ comparisonOperators, ∃ b, o.getLast? = some b ∧ isspace b = false := by
        simp only [comparisonOperators, List.mem_cons, List.not_mem_nil, or_false]
        rintro o (rfl | rfl | rfl | rfl | rfl | rfl) <;> exact ⟨_, rfl, by decide⟩
      exact hop _ hok
    | literal v =>
      obtain rfl : s = _ := hs
      exact ⟨chr '\'', by simp [List.getLast?_cons], by decide⟩
    | _ =>
      obtain rfl : s = _ := hs
      exact ⟨_, rfl, by decide⟩

lemma Written.ends {ls : List Lexeme} {s : CString} (h : Written ls s) (hok : ∀ l ∈ ls, l.Ok) :
    (∃ b, s.head? = some b ∧ isspace b = false) ∧
      ∃ b, s.getLast? = some b ∧ isspace b = false := by
  have hfirst : ∀ {l : Lexeme} {s : CString}, l.Ok → l.Spells s →
      ∃ b, s.head? = some b ∧ isspace b = false := by
    intro l s hl hs
    obtain ⟨b, s', rfl, hb, -⟩ := hs.step hl [] (by intro c hc; cases hc)
    exact ⟨b, rfl, hb⟩
  induction h with
  | single hs => exact ⟨hfirst (hok _ (by simp)) hs, hs.last (hok _ (by simp))⟩
  | cons hs _ _ _ ih =>
    obtain ⟨b, hb, hspace⟩ := hfirst (hok _ (by simp)) hs
    obtain ⟨-, c, hc, hspace'⟩ := ih fun l hl => hok l (by simp [hl])
    exact ⟨⟨b, by simp [List.head?_append, hb], hspace⟩,
      ⟨c, by simp [List.getLast?_append, hc], hspace'⟩⟩

lemma utilsTrim_eq {lead core trail : CString} (hlead : Blank lead) (htrail : Blank trail)
    (hhead : ∃ b, core.head? = some b ∧ isspace b = false)
    (hlast : ∃ b, core.getLast? = some b ∧ isspace b = false) :
    utilsTrim (lead ++ core ++ trail) = core := by
  obtain ⟨b, hb, hbspace⟩ := hhead
  obtain ⟨c, hc, hcspace⟩ := hlast
  have hright : (lead ++ core ++ trail).rdropWhile isspace = lead ++ core := by
    rw [List.rdropWhile, List.reverse_append, List.dropWhile_append_of_pos,
      List.dropWhile_eq_self_iff.mpr]
    · exact List.reverse_reverse _
    · intro hlen
      have hget : (lead ++ core).reverse[0] = c := by
        have hl : (lead ++ core).getLast? = some c := by simp [List.getLast?_append, hc]
        rw [← List.head?_reverse, List.head?_eq_getElem?, List.getElem?_eq_getElem hlen] at hl
        exact Option.some.inj hl
      rw [hget]
      simp [hcspace]
    · intro x hx
      exact htrail x (List.mem_reverse.mp hx)
  rw [utilsTrim, hright, List.dropWhile_append_of_pos hlead]
  cases core with
  | nil => cases hb
  | cons x core =>
    obtain rfl : x = b := by simpa using hb
    simp [hbspace]

/-! ### Parsing the tokens -/

lemma parserExpectKeyword_token {k : CString} (hk : k ∈ sqlKeywords) (ts : List Token) :
    parserExpectKeyword ((Lexeme.keyword k).token :: ts) k = some ts := by
  obtain ⟨-, hlen, hnul, -⟩ := sqlKeywords_facts k hk
  simp [parserExpectKeyword, parserSkip, parserIsToken, Lexeme.token, CBuf.truncate_eq hlen hnul]

lemma parserExpectIdentifier_token (n : Identifier) (ts : List Token) :
    parserExpectIdentifier ((Lexeme.name n).token :: ts) = some (n, ts) := by
  have hval : (CBuf.truncate 255 n.val).val = n.val := by
    rw [CBuf.truncate_eq (n.2.1.trans (by decide)) n.2.2]
  simp [parserExpectIdentifier, Lexeme.token, parserCopy, hval, utilsSafeStrcpy_val]

lemma parserExpectLiteral_token (v : Value) (ts : List Token) :
    parserExpectLiteral ((Lexeme.literal v).token :: ts) = some (v, ts) := by
  simp [parserExpectLiteral, Lexeme.token, parserCopy, utilsSafeStrcpy_val]

/-- A comma-separated list of at most `room` items is read up to the first token after it. -/
lemma parserParseList_commaSeparated {α : Type} {expect : List Token → Option (α × List Token)}
    {lex : α → Lexeme} (hexpect : ∀ x ts, expect ((lex x).token :: ts) = some (x, ts))
    {xs : List α} {room : Nat} (hne : xs ≠ []) (hroom : xs.length ≤ room) {rest : List Token}
    (hrest : parserIsToken rest .comma (some (bytes ",")) = false) :
    parserParseList expect room ((commaSeparated (xs.map lex)).map Lexeme.token ++ rest) =
      some (⟨xs, hroom⟩, rest) := by
  induction xs generalizing room with
  | nil => exact absurd rfl hne
  | cons x xs ih =>
    obtain ⟨room, rfl⟩ : ∃ n, room = n + 1 := ⟨room - 1, by simp at hroom; omega⟩
    cases xs with
    | nil => simp [commaSeparated, parserParseList, hexpect, hrest, Slots.nil, Slots.cons]
    | cons y ys =>
      have htail := @ih room (by simp) (by simpa using hroom)
      have hcomma : ∀ ts, parserIsToken (Lexeme.comma.token :: ts) .comma (some (bytes ",")) = true :=
        fun ts => by simp +decide [parserIsToken, Lexeme.token]
      rw [List.map_cons] at htail
      simp [commaSeparated, parserParseList, hexpect, hcomma, htail, Slots.cons]

lemma parserIsToken_type {t : Token} {ts : List Token} {type : TokenType} {value : Option CString}
    (h : t.type ≠ type) : parserIsToken (t :: ts) type value = false := by
  simp [parserIsToken, h]

/-- The tokens that may end a statement. -/
def semicolonTokens (b : Bool) : List Token := if b then [Lexeme.semicolon.token] else []

lemma parserConsumeOptionalSemicolon_tokens (b : Bool) :
    parserConsumeOptionalSemicolon (semicolonTokens b) = .success := by
  cases b <;> decide

lemma parserCopy_operator {op : CBuf 3} :
    parserCopy 3 (Lexeme.operator op).token = some op := by
  have hval : (CBuf.truncate 255 op.val).val = op.val := by
    rw [CBuf.truncate_eq (op.2.1.trans (by decide)) op.2.2]
  simp [parserCopy, Lexeme.token, hval, utilsSafeStrcpy_val]

lemma parserParseOptionalWhere_tokens (w : Option WhereClause) (b : Bool) :
    parserParseOptionalWhere ((whereLexemes w).map Lexeme.token ++ semicolonTokens b) =
      some (w, semicolonTokens b) := by
  cases w with
  | none => cases b <;> rfl
  | some w =>
    have hwhere : ∀ ts, parserIsToken ((Lexeme.keyword (bytes "WHERE")).token :: ts) .keyword
        (some (bytes "WHERE")) = true := fun ts => by simp +decide [parserIsToken, Lexeme.token]
    simp [whereLexemes, parserParseOptionalWhere, hwhere, parserParseWhere,
      parserExpectIdentifier_token, parserCopy_operator, parserExpectLiteral_token]
    rfl

lemma parserParse_keyword {k : CString} {ts : List Token} :
    parserParse ((Lexeme.keyword k).token :: ts) =
      if (CBuf.truncate 255 k).val = bytes "INSERT" then
        parserParseInsert ((Lexeme.keyword k).token :: ts)
      else if (CBuf.truncate 255 k).val = bytes "SELECT" then
        parserParseSelect ((Lexeme.keyword k).token :: ts)
      else if (CBuf.truncate 255 k).val = bytes "DELETE" then
        parserParseDelete ((Lexeme.keyword k).token :: ts)
      else none := by
  simp [parserParse, parserIsToken, Lexeme.token]

lemma parserSkip_lparen (ts : List Token) :
    parserSkip (Lexeme.lparen.token :: ts) .lparen (bytes "(") = some ts := by
  simp +decide [parserSkip, parserIsToken, Lexeme.token]

lemma parserSkip_rparen (ts : List Token) :
    parserSkip (Lexeme.rparen.token :: ts) .rparen (bytes ")") = some ts := by
  simp +decide [parserSkip, parserIsToken, Lexeme.token]

lemma parserParse_insert {stmt : InsertStatement} (h : stmt.columns ≠ []) (b : Bool) :
    parserParse ((SqlStatement.insert stmt).lexemes.map Lexeme.token ++ semicolonTokens b) =
      some (.insert stmt) := by
  obtain ⟨tableName, columns, values, hcols, hvals⟩ := stmt
  have hvalues : values ≠ [] := by
    rintro rfl
    exact h (List.length_eq_zero_iff.mp hvals.symm)
  have hlist : ∀ ts, parserParseInsertColumns
      ((commaSeparated (columns.map .name)).map Lexeme.token ++ Lexeme.rparen.token :: ts) =
        some (⟨columns, hcols⟩, Lexeme.rparen.token :: ts) := fun ts =>
    parserParseList_commaSeparated parserExpectIdentifier_token h hcols
      (parserIsToken_type (by simp [Lexeme.token]))
  have hlist' : ∀ ts, parserParseInsertValues
      ((commaSeparated (values.map .literal)).map Lexeme.token ++ Lexeme.rparen.token :: ts) =
        some (⟨values, hvals ▸ hcols⟩, Lexeme.rparen.token :: ts) := fun ts =>
    parserParseList_commaSeparated parserExpectLiteral_token hvalues (hvals ▸ hcols)
      (parserIsToken_type (by simp [Lexeme.token]))
  simp only [SqlStatement.lexemes, List.map_append, List.map_cons, List.map_nil,
    List.append_assoc, List.cons_append, List.nil_append]
  rw [parserParse_keyword, if_pos (by decide), parserParseInsert]
  simp only [parserExpectKeyword_token (show bytes "INSERT" ∈ sqlKeywords by decide),
    parserExpectKeyword_token (show bytes "INTO" ∈ sqlKeywords by decide),
    parserExpectKeyword_token (show bytes "VALUES" ∈ sqlKeywords by decide),
    parserExpectIdentifier_token, parserSkip_lparen, parserSkip_rparen, hlist, hlist',
    parserConsumeOptionalSemicolon_tokens, Option.bind_eq_bind, Option.bind_some, hvals,
    dite_true, if_true]

lemma parserParseSelectColumns_tokens {columns : List Identifier}
    (hcols : columns.length ≤ maxColumns) (hvalid : ∀ n ∈ columns, ValidName n) (ts : List Token) :
    parserParseSelectColumns ((if columns.isEmpty then [Lexeme.star]
        else commaSeparated (columns.map .name)).map Lexeme.token ++
          (Lexeme.keyword (bytes "FROM")).token :: ts) =
      some (⟨columns, hcols⟩, (Lexeme.keyword (bytes "FROM")).token :: ts) := by
  cases columns with
  | nil => simp +decide [parserParseSelectColumns, parserIsToken, Lexeme.token, Slots.nil]
  | cons n ns =>
    have hstar : n.val ≠ bytes "*" := by
      obtain ⟨⟨b, s, hn, hb, -⟩, -⟩ := hvalid n (by simp)
      intro h
      obtain rfl : b = chr '*' := by
        rw [hn] at h
        exact (List.cons.inj h).1
      revert hb
      decide
    have hval : (CBuf.truncate 255 n.val).val = n.val := by
      rw [CBuf.truncate_eq (n.2.1.trans (by decide)) n.2.2]
    have hfirst : parserIsToken ((commaSeparated ((n :: ns).map .name)).map Lexeme.token ++
        (Lexeme.keyword (bytes "FROM")).token :: ts) .identifier (some (bytes "*")) = false := by
      cases ns <;> simp [commaSeparated, parserIsToken, Lexeme.token, hval, hstar]
    simp only [List.isEmpty_cons, Bool.false_eq_true, if_false, parserParseSelectColumns, hfirst]
    exact parserParseList_commaSeparated parserExpectIdentifier_token (by simp) hcols
      (parserIsToken_type (by simp [Lexeme.token]))

lemma parserParse_select {stmt : SelectStatement} (h : ∀ n ∈ stmt.columns, ValidName n)
    (b : Bool) :
    parserParse ((SqlStatement.select stmt).lexemes.map Lexeme.token ++ semicolonTokens b) =
      some (.select stmt) := by
  obtain ⟨tableName, columns, w, hcols⟩ := stmt
  simp only [SqlStatement.lexemes, List.map_append, List.map_cons, List.append_assoc,
    List.cons_append, List.nil_append]
  rw [parserParse_keyword, if_neg (by decide), if_pos (by decide), parserParseSelect]
  simp only [parserExpectKeyword_token (show bytes "SELECT" ∈ sqlKeywords by decide),
    parserExpectKeyword_token (show bytes "FROM" ∈ sqlKeywords by decide),
    parserExpectIdentifier_token, parserParseSelectColumns_tokens hcols h,
    parserParseOptionalWhere_tokens,
    parserConsumeOptionalSemicolon_tokens, Option.bind_eq_bind, Option.bind_some,
    if_true]

lemma parserParse_delete (stmt : DeleteStatement) (b : Bool) :
    parserParse ((SqlStatement.delete stmt).lexemes.map Lexeme.token ++ semicolonTokens b) =
      some (.delete stmt) := by
  simp only [SqlStatement.lexemes, List.map_cons, List.cons_append, List.nil_append]
  rw [parserParse_keyword, if_neg (by decide), if_neg (by decide), if_pos (by decide),
    parserParseDelete]
  simp only [parserExpectKeyword_token (show bytes "DELETE" ∈ sqlKeywords by decide),
    parserExpectKeyword_token (show bytes "FROM" ∈ sqlKeywords by decide),
    parserExpectIdentifier_token, parserParseOptionalWhere_tokens,
    parserConsumeOptionalSemicolon_tokens, Option.bind_eq_bind, Option.bind_some,
    if_true]
lemma parserParse_lexemes {stmt : SqlStatement} (h : stmt.Printable) (b : Bool) :
    parserParse (stmt.lexemes.map Lexeme.token ++ semicolonTokens b) = some stmt := by
  cases stmt with
  | insert stmt => exact parserParse_insert h.2.1 b
  | select stmt => exact parserParse_select h.2.1 b
  | delete stmt => exact parserParse_delete stmt b

/-! ### The round trip -/

lemma commaSeparated_ok {ls : List Lexeme} (h : ∀ l ∈ ls, l.Ok) : ∀ l ∈ commaSeparated ls, l.Ok := by
  fun_induction commaSeparated ls with
  | case1 => simp
  | case2 => exact h
  | case3 l l' ls ih =>
    intro x hx
    rcases List.mem_cons.mp hx with rfl | hx
    · exact h x (by simp)
    · rcases List.mem_cons.mp hx with rfl | hx
      · trivial
      · exact ih (fun y hy => h y (by simp [hy])) x hx

lemma whereLexemes_ok {w : Option WhereClause} (h : ∀ c ∈ w, c.Printable) :
    ∀ l ∈ whereLexemes w, l.Ok := by
  cases w with
  | none => simp [whereLexemes]
  | some w =>
    obtain ⟨hname, hop⟩ := h w rfl
    have hkey : bytes "WHERE" ∈ sqlKeywords := by decide
    simpa [whereLexemes, Lexeme.Ok] using ⟨hkey, hname, hop⟩

lemma nameList_ok {ns : List Identifier} (h : ∀ n ∈ ns, ValidName n) :
    ∀ l ∈ commaSeparated (ns.map .name), l.Ok := by
  apply commaSeparated_ok
  simpa [Lexeme.Ok] using h

lemma SqlStatement.Printable.ok {stmt : SqlStatement} (h : stmt.Printable) :
    ∀ l ∈ stmt.lexemes, l.Ok := by
  have hkey : ∀ k ∈ sqlKeywords, (Lexeme.keyword k).Ok := fun _ hk => hk
  cases stmt with
  | insert stmt =>
    obtain ⟨htable, -, hcols⟩ := h
    have hlit : ∀ l ∈ commaSeparated (stmt.values.map .literal), l.Ok :=
      commaSeparated_ok (by simp [Lexeme.Ok])
    simp only [SqlStatement.lexemes, List.forall_mem_append, List.forall_mem_cons]
    exact ⟨⟨⟨⟨⟨hkey _ (by decide), hkey _ (by decide), htable, trivial, by simp⟩,
      nameList_ok hcols⟩, trivial, hkey _ (by decide), trivial, by simp⟩, hlit⟩, trivial, by simp⟩
  | select stmt =>
    obtain ⟨htable, hcols, hw⟩ := h
    simp only [SqlStatement.lexemes, List.forall_mem_append, List.forall_mem_cons]
    refine ⟨⟨⟨⟨hkey _ (by decide), by simp⟩, ?_⟩, hkey _ (by decide), htable, by simp⟩,
      whereLexemes_ok hw⟩
    split_ifs
    · simp [Lexeme.Ok]
    · exact nameList_ok hcols
  | delete stmt =>
    obtain ⟨htable, hw⟩ := h
    simp only [SqlStatement.lexemes, List.forall_mem_append, List.forall_mem_cons]
    exact ⟨⟨hkey _ (by decide), hkey _ (by decide), htable, by simp⟩, whereLexemes_ok hw⟩

lemma commaSeparated_length (ls : List Lexeme) :
    (commaSeparated ls).length ≤ 2 * ls.length := by
  fun_induction commaSeparated ls with
  | case1 => simp
  | case2 => simp
  | case3 l l' ls ih =>
    simp only [List.length_cons] at ih ⊢
    omega

/-- A statement has far fewer lexemes than the array of the tokens has room for. -/
lemma SqlStatement.lexemes_length (stmt : SqlStatement) : stmt.lexemes.length < 2 ^ 30 := by
  have hwhere : ∀ w, (whereLexemes w).length ≤ 4 := by
    rintro (_ | w) <;> simp [whereLexemes]
  have hlist : ∀ {ls : List Lexeme}, ls.length ≤ maxColumns → (commaSeparated ls).length ≤ 64 :=
    fun {ls} hle => (commaSeparated_length ls).trans (by rw [maxColumns] at hle; omega)
  cases stmt with
  | insert stmt =>
    have hcols := @hlist (stmt.columns.map .name) (by simpa using stmt.columns_le)
    have hvalues := @hlist (stmt.values.map .literal)
      (by simpa [stmt.values_length] using stmt.columns_le)
    simp only [lexemes, List.length_append, List.length_cons, List.length_nil]
    omega
  | select stmt =>
    have hcols := @hlist (stmt.columns.map .name) (by simpa using stmt.columns_le)
    have hw := hwhere stmt.whereClause
    simp only [lexemes]
    split_ifs <;> simp only [List.length_append, List.length_cons, List.length_nil] <;> omega
  | delete stmt =>
    have hw := hwhere stmt.whereClause
    simp only [lexemes, List.length_append, List.length_cons, List.length_nil]
    omega

lemma tokensOf_renders {stmt : SqlStatement} {sql : CString} (hstmt : stmt.Printable)
    (h : Renders stmt sql) :
    ∃ b, tokensOf sql = some (stmt.lexemes.map Lexeme.token ++ semicolonTokens b) := by
  obtain ⟨lead, core, trail, rfl, hlead, htrail, hw⟩ := h
  have hlength := stmt.lexemes_length
  have hread : ∀ {ls : List Lexeme}, Written ls core → (∀ l ∈ ls, l.Ok) → ls.length ≤ 2 ^ 30 →
      tokensOf (lead ++ core ++ trail) = some (ls.map Lexeme.token) := by
    intro ls hw hok hroom
    obtain ⟨hhead, hlast⟩ := hw.ends hok
    have hloop := hw.tokenizerLoop hok
    have hne : core.isEmpty = false := by
      obtain ⟨b, hb, -⟩ := hhead
      cases core with
      | nil => cases hb
      | cons x core => rfl
    rw [tokensOf, utilsTrim_eq hlead htrail hhead hlast, hne, if_neg (by simp),
      tokenizerTokenizeSql_eq_some]
    refine ⟨hloop, ?_, by simpa using hroom⟩
    cases hw <;> simp
  rcases hw with hw | hw
  · exact ⟨false, by simpa [semicolonTokens] using hread hw hstmt.ok hlength.le⟩
  · refine ⟨true, ?_⟩
    have hok : ∀ l ∈ stmt.lexemes ++ [.semicolon], l.Ok := by
      simp only [List.forall_mem_append]
      exact ⟨hstmt.ok, by simp [Lexeme.Ok]⟩
    simpa [semicolonTokens] using hread hw hok (by simpa using hlength)

/-- Every way of writing a statement as SQL is read back as that statement, whatever was tokenized
before. -/
theorem parse_tokenize_of_renders (stmt : SqlStatement) (hstmt : stmt.Printable) (sql : CString)
    (hsql : Renders stmt sql) (history : List CString) :
    (tokenizerTokenize (tokenizerRun history) sql).2.bind parserParse = some stmt := by
  obtain ⟨b, htokens⟩ := tokensOf_renders hstmt hsql
  rw [((tokenizerRun_sound history).tokenize sql).2, htokens, Option.bind_some,
    parserParse_lexemes hstmt]

/-- The statement `DELETE FROM t WHERE a = 'i''s'`. -/
def deleteQuoted : SqlStatement :=
  .delete ⟨⟨bytes "t", by decide⟩,
    some ⟨⟨bytes "a", by decide⟩, ⟨bytes "=", by decide⟩, ⟨bytes "i's", by decide⟩⟩⟩

theorem parse_tokenize_deleteQuoted : deleteQuoted.Printable ∧
    Renders deleteQuoted (bytes " delete From t where a='i''s' ; ") ∧
    (tokenizerTokenize (tokenizerRun [bytes "x"])
      (bytes " delete From t where a='i''s' ; ")).2.bind parserParse = some deleteQuoted := by
  have hname : ∀ (c : Byte) (h : [c].length ≤ 63 ∧ 0 ∉ [c]), isalpha c = true →
      utilsIsSqlKeyword [c] = false → ValidName ⟨[c], h⟩ :=
    fun c _ hc hkey => ⟨⟨c, [], rfl, .inl hc, by simp⟩, hkey⟩
  have hprint : deleteQuoted.Printable := by
    refine ⟨hname _ _ (by decide) (by decide), ?_⟩
    rintro w ⟨⟩
    exact ⟨hname _ _ (by decide) (by decide), by decide⟩
  have hsql : Renders deleteQuoted (bytes " delete From t where a='i''s' ; ") := by
    have hspace : Blank [chr ' '] := forall_mem_of_all rfl
    have hnone : Blank [] := forall_mem_of_all rfl
    refine ⟨[chr ' '], _, [chr ' '], ?_, hspace, hspace, .inr
      (.cons (s := bytes "delete") rfl hspace (by simp)
      (.cons (s := bytes "From") rfl hspace (by simp)
      (.cons (s := bytes "t") rfl hspace (by simp)
      (.cons (s := bytes "where") rfl hspace (by simp)
      (.cons (s := bytes "a") rfl hnone (by decide)
      (.cons (s := bytes "=") rfl hnone (by decide)
      (.cons (s := bytes "'i''s'") rfl hspace (by simp)
      (.single (s := bytes ";") rfl))))))))⟩
    decide
  exact ⟨hprint, hsql, parse_tokenize_of_renders deleteQuoted hprint _ hsql [bytes "x"]⟩

end MiniDbms
