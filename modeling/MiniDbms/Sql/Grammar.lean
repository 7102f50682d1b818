import MiniDbms.Sql.Parser

/-!
# The grammar that `parser.c` accepts

The forms of the three statements as relations between a statement and a list of tokens, for any
list of tokens and not only for those the tokenizer produces, and the theorem that
`parser_parse` accepts exactly these forms.
-/

namespace MiniDbms

/-! ### Terminals -/

namespace Token

/-- A token of a fixed type and text. -/
def Is (t : Token) (type : TokenType) (value : CString) : Prop :=
  t.type = type ∧ t.value.val = value

/-- An identifier token with a text of at most 63 bytes. -/
def IsIdentifier (t : Token) (name : Identifier) : Prop := t.Is .identifier name.val

/-- A literal token with a text of at most 255 bytes. -/
def IsLiteral (t : Token) (value : Value) : Prop :=
  t.Is .intLiteral value.val ∨ t.Is .strLiteral value.val

/-- An operator token with a text of at most 3 bytes. -/
def IsOperator (t : Token) (op : CBuf 3) : Prop := t.Is .operator op.val

end Token

/-! ### Phrases -/

/-- `item {, item}` -/
inductive CommaList {α : Type} (item : Token → α → Prop) : List α → List Token → Prop
  | single {a : α} {t : Token} : item t a → CommaList item [a] [t]
  | cons {a : α} {as : List α} {t comma : Token} {ts : List Token} :
      item t a → comma.Is .comma (bytes ",") → CommaList item as ts →
        CommaList item (a :: as) (t :: comma :: ts)

/-- `[WHERE id op lit]` -/
inductive WherePhrase : Option WhereClause → List Token → Prop
  | absent : WherePhrase none []
  | present {w : WhereClause} {kw column op value : Token} :
      kw.Is .keyword (bytes "WHERE") → column.IsIdentifier w.column → op.IsOperator w.op →
        value.IsLiteral w.value → WherePhrase (some w) [kw, column, op, value]

/-- `[;]` -/
inductive Semicolon : List Token → Prop
  | absent : Semicolon []
  | present {t : Token} : t.Is .semicolon (bytes ";") → Semicolon [t]

/-- `* | id {, id}`, where `*` is an identifier token like any other. -/
inductive StarOrNames : List Identifier → List Token → Prop
  | star {t : Token} : t.Is .identifier (bytes "*") → StarOrNames [] [t]
  | names {columns : List Identifier} {ts : List Token} :
      CommaList Token.IsIdentifier columns ts → StarOrNames columns ts

/-- The list of a `SELECT`: `*` alone, or names of which the first is not `*`. -/
inductive SelectList : List Identifier → List Token → Prop
  | star {t : Token} : t.Is .identifier (bytes "*") → SelectList [] [t]
  | names {column : Identifier} {columns : List Identifier} {ts : List Token} :
      column.val ≠ bytes "*" → CommaList Token.IsIdentifier (column :: columns) ts →
        SelectList (column :: columns) ts

/-! ### Statements -/

/-- The tokens of a statement, for a given form of the list of a `SELECT`. -/
inductive Statement (selectList : List Identifier → List Token → Prop) :
    SqlStatement → List Token → Prop
  | insert {stmt : InsertStatement} {insert into name lpar rpar values lpar' rpar' : Token}
      {columns literals semicolon : List Token} :
      insert.Is .keyword (bytes "INSERT") → into.Is .keyword (bytes "INTO") →
      name.IsIdentifier stmt.tableName → lpar.Is .lparen (bytes "(") →
      CommaList Token.IsIdentifier stmt.columns columns → rpar.Is .rparen (bytes ")") →
      values.Is .keyword (bytes "VALUES") → lpar'.Is .lparen (bytes "(") →
      CommaList Token.IsLiteral stmt.values literals → rpar'.Is .rparen (bytes ")") →
      Semicolon semicolon →
        Statement selectList (.insert stmt)
          (insert :: into :: name :: lpar :: (columns ++ rpar :: values :: lpar' ::
            (literals ++ rpar' :: semicolon)))
  | select {stmt : SelectStatement} {select from_ name : Token}
      {columns where_ semicolon : List Token} :
      select.Is .keyword (bytes "SELECT") → selectList stmt.columns columns →
      from_.Is .keyword (bytes "FROM") → name.IsIdentifier stmt.tableName →
      WherePhrase stmt.whereClause where_ → Semicolon semicolon →
        Statement selectList (.select stmt)
          (select :: (columns ++ from_ :: name :: (where_ ++ semicolon)))
  | delete {stmt : DeleteStatement} {delete from_ name : Token} {where_ semicolon : List Token} :
      delete.Is .keyword (bytes "DELETE") → from_.Is .keyword (bytes "FROM") →
      name.IsIdentifier stmt.tableName → WherePhrase stmt.whereClause where_ →
      Semicolon semicolon →
        Statement selectList (.delete stmt) (delete :: from_ :: name :: (where_ ++ semicolon))

/-! ### The parser on terminals -/

lemma parserIsToken_iff {ts : List Token} {type : TokenType} {value : CString} :
    parserIsToken ts type (some value) = true ↔ ∃ t rest, ts = t :: rest ∧ t.Is type value := by
  cases ts with
  | nil => simp [parserIsToken]
  | cons t ts => simp [parserIsToken, Token.Is]

lemma parserSkip_iff {ts rest : List Token} {type : TokenType} {value : CString} :
    parserSkip ts type value = some rest ↔ ∃ t, t.Is type value ∧ ts = t :: rest := by
  rw [parserSkip]
  constructor
  · intro h
    split_ifs at h with htoken
    obtain ⟨t, rest', rfl, ht⟩ := parserIsToken_iff.mp htoken
    cases h
    exact ⟨t, ht, rfl⟩
  · rintro ⟨t, ht, rfl⟩
    rw [if_pos (parserIsToken_iff.mpr ⟨t, rest, rfl, ht⟩)]
    rfl

/-- A copy succeeds when the text fits, and the copy is the text. -/
lemma parserCopy_iff {n : Nat} {t : Token} {dest : CBuf n} :
    parserCopy n t = some dest ↔ t.value.val = dest.val := by
  rw [parserCopy]
  constructor
  · intro h
    split at h
    · rename_i dest' hcopy
      cases h
      exact (utilsSafeStrcpy_success t.value.2.2 hcopy).symm
    · cases h
  · intro h
    rw [h, utilsSafeStrcpy_val]

lemma parserExpectIdentifier_iff {ts rest : List Token} {name : Identifier} :
    parserExpectIdentifier ts = some (name, rest) ↔
      ∃ t, t.IsIdentifier name ∧ ts = t :: rest := by
  cases ts with
  | nil => simp [parserExpectIdentifier]
  | cons t ts =>
    rw [parserExpectIdentifier]
    constructor
    · intro h
      split_ifs at h with htype
      obtain ⟨dest, hcopy, ⟨⟩⟩ := Option.map_eq_some_iff.mp h
      exact ⟨t, ⟨htype, parserCopy_iff.mp hcopy⟩, rfl⟩
    · rintro ⟨t, ⟨htype, hval⟩, ⟨⟩⟩
      rw [if_pos htype, parserCopy_iff.mpr hval]
      rfl

lemma parserExpectLiteral_iff {ts rest : List Token} {value : Value} :
    parserExpectLiteral ts = some (value, rest) ↔ ∃ t, t.IsLiteral value ∧ ts = t :: rest := by
  cases ts with
  | nil => simp [parserExpectLiteral]
  | cons t ts =>
    rw [parserExpectLiteral]
    constructor
    · intro h
      split_ifs at h with htype
      obtain ⟨dest, hcopy, ⟨⟩⟩ := Option.map_eq_some_iff.mp h
      have hval := parserCopy_iff.mp hcopy
      by_cases hint : t.type = .intLiteral
      · exact ⟨t, Or.inl ⟨hint, hval⟩, rfl⟩
      · have hstr : t.type = .strLiteral := by_contra fun hstr => htype ⟨hint, hstr⟩
        exact ⟨t, Or.inr ⟨hstr, hval⟩, rfl⟩
    · rintro ⟨t, ⟨htype, hval⟩ | ⟨htype, hval⟩, ⟨⟩⟩
      all_goals
        rw [if_neg (by simp [htype]), parserCopy_iff.mpr hval]
        rfl

lemma parserConsumeOptionalSemicolon_iff {ts : List Token} :
    parserConsumeOptionalSemicolon ts = .success ↔ Semicolon ts := by
  rw [parserConsumeOptionalSemicolon]
  constructor
  · intro h
    split_ifs at h with hsemi hempty hempty
    · obtain ⟨t, rest, rfl, ht⟩ := parserIsToken_iff.mp hsemi
      obtain rfl : rest = [] := by simpa using hempty
      exact .present ht
    · obtain rfl : ts = [] := by simpa using hempty
      exact .absent
  · intro h
    cases h with
    | absent => rfl
    | present ht => rw [if_pos (parserIsToken_iff.mpr ⟨_, [], rfl, ht⟩)]; rfl

/-! ### The parser on lists -/

section Lists

variable {α : Type} {expect : List Token → Option (α × List Token)} {item : Token → α → Prop}

/-- What the loop returns is a list of the grammar, unless the tokens ran out. -/
lemma parserParseList_sound
    (hexpect : ∀ {ts rest a}, expect ts = some (a, rest) ↔ ∃ t, item t a ∧ ts = t :: rest)
    {room : Nat} {ts rest : List Token} {items : Slots α room}
    (h : parserParseList expect room ts = some (items, rest)) (hrest : rest ≠ []) :
    ∃ used, CommaList item items.val used ∧ ts = used ++ rest := by
  induction room generalizing ts with
  | zero =>
    cases ts with
    | nil => cases h; exact absurd rfl hrest
    | cons t ts => cases h
  | succ room ih =>
    cases ts with
    | nil => cases h; exact absurd rfl hrest
    | cons t ts =>
      rw [parserParseList] at h
      obtain ⟨⟨a, rest₁⟩, hitem, h⟩ := Option.bind_eq_some_iff.mp h
      obtain ⟨t, ht, ⟨⟩⟩ := hexpect.mp hitem
      dsimp only at h
      split_ifs at h with hcomma
      · obtain ⟨comma, rest₂, rfl, hc⟩ := parserIsToken_iff.mp hcomma
        obtain ⟨⟨items₁, rest₃⟩, hmore, ⟨⟩⟩ := Option.bind_eq_some_iff.mp h
        obtain ⟨used, hused, heq⟩ := ih hmore
        refine ⟨t :: comma :: used, .cons ht hc hused, ?_⟩
        rw [List.tail_cons] at heq
        simp [heq]
      · cases h
        exact ⟨[t], .single ht, rfl⟩

/-- A list of the grammar that fits the array is read to its end. -/
lemma parserParseList_complete
    (hexpect : ∀ {ts rest a}, expect ts = some (a, rest) ↔ ∃ t, item t a ∧ ts = t :: rest)
    {room : Nat} {used rest : List Token} {items : List α} (h : CommaList item items used)
    (hroom : items.length ≤ room)
    (hrest : parserIsToken rest .comma (some (bytes ",")) = false) :
    parserParseList expect room (used ++ rest) = some (⟨items, hroom⟩, rest) := by
  induction h generalizing room with
  | @single a t ht =>
    cases room with
    | zero => cases hroom
    | succ room =>
      have hitem : expect (t :: rest) = some (a, rest) := hexpect.mpr ⟨t, ht, rfl⟩
      simp [parserParseList, hitem, hrest, Slots.cons, Slots.nil]
  | @cons a as t comma ts ht hc hlist ih =>
    cases room with
    | zero => cases hroom
    | succ room =>
      have hitem : expect (t :: comma :: (ts ++ rest)) = some (a, comma :: (ts ++ rest)) :=
        hexpect.mpr ⟨t, ht, rfl⟩
      have hcomma : parserIsToken (comma :: (ts ++ rest)) .comma (some (bytes ",")) = true :=
        parserIsToken_iff.mpr ⟨comma, ts ++ rest, rfl, hc⟩
      have hmore := ih (Nat.le_of_succ_le_succ hroom)
      simp [parserParseList, hitem, hcomma, hmore, Slots.cons]

/-- Before a token that is no comma, the loop reads exactly the lists of the grammar. -/
lemma parserParseList_iff
    (hexpect : ∀ {ts rest a}, expect ts = some (a, rest) ↔ ∃ t, item t a ∧ ts = t :: rest)
    {room : Nat} {ts rest : List Token} {next : Token} {items : Slots α room}
    (hnext : next.type ≠ .comma) :
    parserParseList expect room ts = some (items, next :: rest) ↔
      ∃ used, CommaList item items.val used ∧ ts = used ++ next :: rest := by
  constructor
  · intro h
    exact parserParseList_sound hexpect h (by simp)
  · rintro ⟨used, hused, rfl⟩
    exact parserParseList_complete hexpect hused items.2 (by simp [parserIsToken, hnext])

end Lists

lemma parserParseInsertColumns_iff {ts rest : List Token} {next : Token}
    {columns : Slots Identifier maxColumns} (hnext : next.type ≠ .comma) :
    parserParseInsertColumns ts = some (columns, next :: rest) ↔
      ∃ used, CommaList Token.IsIdentifier columns.val used ∧ ts = used ++ next :: rest :=
  parserParseList_iff parserExpectIdentifier_iff hnext

lemma parserParseInsertValues_iff {ts rest : List Token} {next : Token}
    {values : Slots Value maxColumns} (hnext : next.type ≠ .comma) :
    parserParseInsertValues ts = some (values, next :: rest) ↔
      ∃ used, CommaList Token.IsLiteral values.val used ∧ ts = used ++ next :: rest :=
  parserParseList_iff parserExpectLiteral_iff hnext

/-- A list of names begins with the token of its first name. -/
lemma CommaList.head {α : Type} {item : Token → α → Prop} {a : α} {as : List α} {ts : List Token}
    (h : CommaList item (a :: as) ts) : ∃ t rest, ts = t :: rest ∧ item t a := by
  cases h with
  | single ht => exact ⟨_, _, rfl, ht⟩
  | cons ht _ _ => exact ⟨_, _, rfl, ht⟩

lemma CommaList.ne_nil {α : Type} {item : Token → α → Prop} {as : List α} {ts : List Token}
    (h : CommaList item as ts) : as ≠ [] := by
  cases h <;> simp

lemma parserParseSelectColumns_iff {ts rest : List Token} {next : Token}
    {columns : Slots Identifier maxColumns} (hnext : next.type ≠ .comma) :
    parserParseSelectColumns ts = some (columns, next :: rest) ↔
      ∃ used, SelectList columns.val used ∧ ts = used ++ next :: rest := by
  rw [parserParseSelectColumns]
  constructor
  · intro h
    split_ifs at h with hstar
    · obtain ⟨t, rest', rfl, ht⟩ := parserIsToken_iff.mp hstar
      cases h
      exact ⟨[t], .star ht, rfl⟩
    · obtain ⟨used, hused, rfl⟩ := (parserParseList_iff parserExpectIdentifier_iff hnext).mp h
      obtain ⟨column, cs, hcs⟩ := List.exists_cons_of_ne_nil hused.ne_nil
      rw [hcs] at hused
      obtain ⟨t, used', rfl, ht⟩ := hused.head
      refine ⟨t :: used', ?_, rfl⟩
      rw [hcs]
      refine .names ?_ hused
      intro hname
      exact hstar (parserIsToken_iff.mpr ⟨t, _, rfl, ht.1, ht.2.trans hname⟩)
  · rintro ⟨used, hused, rfl⟩
    obtain ⟨columns, hle⟩ := columns
    cases hused with
    | @star t ht => exact if_pos (parserIsToken_iff.mpr ⟨t, next :: rest, rfl, ht⟩)
    | names hname hlist =>
      refine (if_neg ?_).trans
        ((parserParseList_iff parserExpectIdentifier_iff hnext).mpr ⟨used, hlist, rfl⟩)
      intro hstar
      obtain ⟨t, used', rfl, ht⟩ := hlist.head
      obtain ⟨t', rest', heq, hstar⟩ := parserIsToken_iff.mp hstar
      cases heq
      exact hname (ht.2.symm.trans hstar.2)

/-! ### The parser on statements -/

lemma parserParseWhere_iff {ts rest : List Token} {w : WhereClause} :
    parserParseWhere ts = some (w, rest) ↔
      ∃ column op value, column.IsIdentifier w.column ∧ op.IsOperator w.op ∧
        value.IsLiteral w.value ∧ ts = column :: op :: value :: rest := by
  rw [parserParseWhere]
  constructor
  · intro h
    obtain ⟨⟨name, ts₁⟩, hname, hop⟩ := Option.bind_eq_some_iff.mp h
    obtain ⟨column, hcolumn, rfl⟩ := parserExpectIdentifier_iff.mp hname
    cases ts₁ with
    | nil => cases hop
    | cons op ts₁ =>
      dsimp only at hop
      split_ifs at hop with htype
      obtain ⟨dest, hcopy, hvalue⟩ := Option.bind_eq_some_iff.mp hop
      obtain ⟨⟨v, ts₂⟩, hlit, ⟨⟩⟩ := Option.bind_eq_some_iff.mp hvalue
      obtain ⟨value, hval, rfl⟩ := parserExpectLiteral_iff.mp hlit
      exact ⟨column, op, value, hcolumn, ⟨htype, parserCopy_iff.mp hcopy⟩, hval, rfl⟩
  · rintro ⟨column, op, value, hcolumn, hop, hvalue, rfl⟩
    rw [parserExpectIdentifier_iff.mpr ⟨column, hcolumn, rfl⟩]
    simp [hop.1, parserCopy_iff.mpr hop.2, parserExpectLiteral_iff.mpr ⟨value, hvalue, rfl⟩]

lemma parserParseOptionalWhere_iff {ts rest : List Token} {w : Option WhereClause}
    (hrest : Semicolon rest) :
    parserParseOptionalWhere ts = some (w, rest) ↔
      ∃ used, WherePhrase w used ∧ ts = used ++ rest := by
  rw [parserParseOptionalWhere]
  constructor
  · intro h
    split_ifs at h with hwhere
    · obtain ⟨kw, ts, rfl, hkw⟩ := parserIsToken_iff.mp hwhere
      obtain ⟨⟨w, rest⟩, hw, ⟨⟩⟩ := Option.map_eq_some_iff.mp h
      obtain ⟨column, op, value, hcolumn, hop, hvalue, heq⟩ := parserParseWhere_iff.mp hw
      rw [List.tail_cons] at heq
      exact ⟨[kw, column, op, value], .present hkw hcolumn hop hvalue, by simp [heq]⟩
    · cases h
      exact ⟨[], .absent, rfl⟩
  · rintro ⟨used, hused, rfl⟩
    cases hused with
    | absent =>
      rw [if_neg]
      · rfl
      · cases hrest with
        | absent => exact Bool.false_ne_true
        | present ht => simp [parserIsToken, ht.1]
    | @present w kw column op value hkw hcolumn hop hvalue =>
      refine (if_pos (parserIsToken_iff.mpr ⟨kw, _, rfl, hkw⟩)).trans ?_
      refine Option.map_eq_some_iff.mpr ⟨(w, rest), ?_, rfl⟩
      exact parserParseWhere_iff.mpr ⟨column, op, value, hcolumn, hop, hvalue, rfl⟩

/-! ### What the parser accepts -/

lemma parserParseInsert_sound {selectList : List Identifier → List Token → Prop}
    {ts : List Token} {stmt : SqlStatement} (h : parserParseInsert ts = some stmt) :
    Statement selectList stmt ts := by
  rw [parserParseInsert] at h
  obtain ⟨ts₁, h₁, h⟩ := Option.bind_eq_some_iff.mp h
  obtain ⟨ts₂, h₂, h⟩ := Option.bind_eq_some_iff.mp h
  obtain ⟨⟨name, ts₃⟩, h₃, h⟩ := Option.bind_eq_some_iff.mp h
  obtain ⟨ts₄, h₄, h⟩ := Option.bind_eq_some_iff.mp h
  obtain ⟨⟨columns, ts₅⟩, h₅, h⟩ := Option.bind_eq_some_iff.mp h
  obtain ⟨ts₆, h₆, h⟩ := Option.bind_eq_some_iff.mp h
  obtain ⟨ts₇, h₇, h⟩ := Option.bind_eq_some_iff.mp h
  obtain ⟨ts₈, h₈, h⟩ := Option.bind_eq_some_iff.mp h
  obtain ⟨⟨values, ts₉⟩, h₉, h⟩ := Option.bind_eq_some_iff.mp h
  obtain ⟨ts₁₀, h₁₀, h⟩ := Option.bind_eq_some_iff.mp h
  split_ifs at h with hlength hsemicolon
  cases h
  obtain ⟨insert, hinsert, rfl⟩ := parserSkip_iff.mp h₁
  obtain ⟨into, hinto, rfl⟩ := parserSkip_iff.mp h₂
  obtain ⟨t, hname, rfl⟩ := parserExpectIdentifier_iff.mp h₃
  obtain ⟨lpar, hlpar, rfl⟩ := parserSkip_iff.mp h₄
  obtain ⟨rpar, hrpar, rfl⟩ := parserSkip_iff.mp h₆
  obtain ⟨kw, hvalues, rfl⟩ := parserSkip_iff.mp h₇
  obtain ⟨lpar', hlpar', rfl⟩ := parserSkip_iff.mp h₈
  obtain ⟨rpar', hrpar', rfl⟩ := parserSkip_iff.mp h₁₀
  obtain ⟨cs, hcs, rfl⟩ := (parserParseInsertColumns_iff (by simp [hrpar.1])).mp h₅
  obtain ⟨vs, hvs, rfl⟩ := (parserParseInsertValues_iff (by simp [hrpar'.1])).mp h₉
  exact .insert hinsert hinto hname hlpar hcs hrpar hvalues hlpar' hvs hrpar'
    (parserConsumeOptionalSemicolon_iff.mp hsemicolon)

lemma parserParseInsert_complete {selectList : List Identifier → List Token → Prop}
    {ts : List Token} {stmt : InsertStatement} (h : Statement selectList (.insert stmt) ts) :
    parserParseInsert ts = some (.insert stmt) := by
  rw [parserParseInsert]
  cases h with
  | @insert _ insert into name lpar rpar kw lpar' rpar' cs vs semicolon hinsert hinto hname
      hlpar hcs hrpar hvalues hlpar' hvs hrpar' hsemicolon =>
    obtain ⟨tableName, columns, values, hle, hlength⟩ := stmt
    rw [parserExpectKeyword, parserSkip_iff.mpr ⟨insert, hinsert, rfl⟩]
    refine Option.bind_eq_some_iff.mpr ⟨_, rfl, ?_⟩
    refine Option.bind_eq_some_iff.mpr ⟨_, parserSkip_iff.mpr ⟨into, hinto, rfl⟩, ?_⟩
    refine Option.bind_eq_some_iff.mpr
      ⟨_, parserExpectIdentifier_iff.mpr ⟨name, hname, rfl⟩, ?_⟩
    refine Option.bind_eq_some_iff.mpr ⟨_, parserSkip_iff.mpr ⟨lpar, hlpar, rfl⟩, ?_⟩
    refine Option.bind_eq_some_iff.mpr ⟨(⟨columns, hle⟩, _),
      (parserParseInsertColumns_iff (by simp [hrpar.1])).mpr ⟨cs, hcs, rfl⟩, ?_⟩
    refine Option.bind_eq_some_iff.mpr ⟨_, parserSkip_iff.mpr ⟨rpar, hrpar, rfl⟩, ?_⟩
    refine Option.bind_eq_some_iff.mpr ⟨_, parserSkip_iff.mpr ⟨kw, hvalues, rfl⟩, ?_⟩
    refine Option.bind_eq_some_iff.mpr ⟨_, parserSkip_iff.mpr ⟨lpar', hlpar', rfl⟩, ?_⟩
    refine Option.bind_eq_some_iff.mpr ⟨(⟨values, hlength ▸ hle⟩, _),
      (parserParseInsertValues_iff (by simp [hrpar'.1])).mpr ⟨vs, hvs, rfl⟩, ?_⟩
    refine Option.bind_eq_some_iff.mpr ⟨_, parserSkip_iff.mpr ⟨rpar', hrpar', rfl⟩, ?_⟩
    rw [dif_pos hlength, if_pos (parserConsumeOptionalSemicolon_iff.mpr hsemicolon)]

lemma parserParseSelect_sound {ts : List Token}
    {stmt : SqlStatement} (h : parserParseSelect ts = some stmt) : Statement SelectList stmt ts := by
  rw [parserParseSelect] at h
  obtain ⟨ts₁, h₁, h⟩ := Option.bind_eq_some_iff.mp h
  obtain ⟨⟨columns, ts₂⟩, h₂, h⟩ := Option.bind_eq_some_iff.mp h
  obtain ⟨ts₃, h₃, h⟩ := Option.bind_eq_some_iff.mp h
  obtain ⟨⟨name, ts₄⟩, h₄, h⟩ := Option.bind_eq_some_iff.mp h
  obtain ⟨⟨w, ts₅⟩, h₅, h⟩ := Option.bind_eq_some_iff.mp h
  dsimp only at h
  split_ifs at h with hsemicolon
  cases h
  have hend := parserConsumeOptionalSemicolon_iff.mp hsemicolon
  obtain ⟨select, hselect, rfl⟩ := parserSkip_iff.mp h₁
  obtain ⟨kw, hfrom, rfl⟩ := parserSkip_iff.mp h₃
  obtain ⟨t, hname, rfl⟩ := parserExpectIdentifier_iff.mp h₄
  obtain ⟨ws, hws, rfl⟩ := (parserParseOptionalWhere_iff hend).mp h₅
  obtain ⟨cs, hcs, rfl⟩ := (parserParseSelectColumns_iff (by simp [hfrom.1])).mp h₂
  exact .select hselect hcs hfrom hname hws hend

lemma parserParseSelect_complete {ts : List Token}
    {stmt : SelectStatement} (h : Statement SelectList (.select stmt) ts) :
    parserParseSelect ts = some (.select stmt) := by
  rw [parserParseSelect]
  cases h with
  | @select _ select kw name cs ws semicolon hselect hcs hfrom hname hws hsemicolon =>
    obtain ⟨tableName, columns, w, hle⟩ := stmt
    refine Option.bind_eq_some_iff.mpr ⟨_, parserSkip_iff.mpr ⟨select, hselect, rfl⟩, ?_⟩
    refine Option.bind_eq_some_iff.mpr ⟨(⟨columns, hle⟩, _),
      (parserParseSelectColumns_iff (by simp [hfrom.1])).mpr ⟨cs, hcs, rfl⟩, ?_⟩
    refine Option.bind_eq_some_iff.mpr ⟨_, parserSkip_iff.mpr ⟨kw, hfrom, rfl⟩, ?_⟩
    refine Option.bind_eq_some_iff.mpr
      ⟨_, parserExpectIdentifier_iff.mpr ⟨name, hname, rfl⟩, ?_⟩
    refine Option.bind_eq_some_iff.mpr
      ⟨_, (parserParseOptionalWhere_iff hsemicolon).mpr ⟨ws, hws, rfl⟩, ?_⟩
    exact if_pos (parserConsumeOptionalSemicolon_iff.mpr hsemicolon)

lemma parserParseDelete_sound {selectList : List Identifier → List Token → Prop}
    {ts : List Token} {stmt : SqlStatement} (h : parserParseDelete ts = some stmt) :
    Statement selectList stmt ts := by
  rw [parserParseDelete] at h
  obtain ⟨ts₁, h₁, h⟩ := Option.bind_eq_some_iff.mp h
  obtain ⟨ts₂, h₂, h⟩ := Option.bind_eq_some_iff.mp h
  obtain ⟨⟨name, ts₃⟩, h₃, h⟩ := Option.bind_eq_some_iff.mp h
  obtain ⟨⟨w, ts₄⟩, h₄, h⟩ := Option.bind_eq_some_iff.mp h
  dsimp only at h
  split_ifs at h with hsemicolon
  cases h
  have hend := parserConsumeOptionalSemicolon_iff.mp hsemicolon
  obtain ⟨delete, hdelete, rfl⟩ := parserSkip_iff.mp h₁
  obtain ⟨kw, hfrom, rfl⟩ := parserSkip_iff.mp h₂
  obtain ⟨t, hname, rfl⟩ := parserExpectIdentifier_iff.mp h₃
  obtain ⟨ws, hws, rfl⟩ := (parserParseOptionalWhere_iff hend).mp h₄
  exact .delete hdelete hfrom hname hws hend

lemma parserParseDelete_complete {selectList : List Identifier → List Token → Prop}
    {ts : List Token} {stmt : DeleteStatement} (h : Statement selectList (.delete stmt) ts) :
    parserParseDelete ts = some (.delete stmt) := by
  rw [parserParseDelete]
  cases h with
  | @delete _ delete kw name ws semicolon hdelete hfrom hname hws hsemicolon =>
    obtain ⟨tableName, w⟩ := stmt
    refine Option.bind_eq_some_iff.mpr ⟨_, parserSkip_iff.mpr ⟨delete, hdelete, rfl⟩, ?_⟩
    refine Option.bind_eq_some_iff.mpr ⟨_, parserSkip_iff.mpr ⟨kw, hfrom, rfl⟩, ?_⟩
    refine Option.bind_eq_some_iff.mpr
      ⟨_, parserExpectIdentifier_iff.mpr ⟨name, hname, rfl⟩, ?_⟩
    refine Option.bind_eq_some_iff.mpr
      ⟨_, (parserParseOptionalWhere_iff hsemicolon).mpr ⟨ws, hws, rfl⟩, ?_⟩
    exact if_pos (parserConsumeOptionalSemicolon_iff.mpr hsemicolon)

lemma Token.Is.not_isToken {t : Token} {ts : List Token} {type : TokenType} {v v' : CString}
    (h : t.Is type v) (hne : v ≠ v') : ¬ parserIsToken (t :: ts) type (some v') = true := by
  intro htoken
  obtain ⟨t', ts', heq, ht'⟩ := parserIsToken_iff.mp htoken
  cases heq
  exact hne (h.2.symm.trans ht'.2)

lemma parserParse_sound {ts : List Token} {stmt : SqlStatement} (h : parserParse ts = some stmt) :
    Statement SelectList stmt ts := by
  rw [parserParse] at h
  split_ifs at h
  · exact parserParseInsert_sound h
  · exact parserParseSelect_sound h
  · exact parserParseDelete_sound h

lemma parserParse_complete {ts : List Token} {stmt : SqlStatement}
    (h : Statement SelectList stmt ts) : parserParse ts = some stmt := by
  have hform := h
  rw [parserParse]
  cases hform with
  | insert hinsert =>
    rw [if_pos (parserIsToken_iff.mpr ⟨_, _, rfl, hinsert⟩)]
    exact parserParseInsert_complete h
  | select hselect =>
    rw [if_neg (hselect.not_isToken (by decide)),
      if_pos (parserIsToken_iff.mpr ⟨_, _, rfl, hselect⟩)]
    exact parserParseSelect_complete h
  | delete hdelete =>
    rw [if_neg (hdelete.not_isToken (by decide)), if_neg (hdelete.not_isToken (by decide)),
      if_pos (parserIsToken_iff.mpr ⟨_, _, rfl, hdelete⟩)]
    exact parserParseDelete_complete h

/-- `parser_parse` accepts exactly the statements of the grammar, and the statement it fills in is
the one the tokens spell. -/
theorem parserParse_iff_statement (tokens : List Token) (stmt : SqlStatement) :
    parserParse tokens = some stmt ↔ Statement SelectList stmt tokens :=
  ⟨parserParse_sound, parserParse_complete⟩

/-- The tokens of `SELECT first, second FROM t`. -/
def selectTwo (first second : String) : List Token :=
  [⟨.keyword, .truncate 255 (bytes "SELECT")⟩, ⟨.identifier, .truncate 255 (bytes first)⟩,
    ⟨.comma, .truncate 255 (bytes ",")⟩, ⟨.identifier, .truncate 255 (bytes second)⟩,
    ⟨.keyword, .truncate 255 (bytes "FROM")⟩, ⟨.identifier, .truncate 255 (bytes "t")⟩]

/-- `SELECT *, a FROM t` is refused although `*` is an identifier token, as `SELECT a, * FROM t`,
which is accepted, shows. -/
theorem parserParse_starFirst :
    (∃ stmt, Statement StarOrNames stmt (selectTwo "*" "a")) ∧
      parserParse (selectTwo "*" "a") = none ∧ (parserParse (selectTwo "a" "*")).isSome = true := by
  have hlist : StarOrNames [identifier "*", identifier "a"] ((selectTwo "*" "a").extract 1 4) :=
    .names (.cons ⟨rfl, rfl⟩ ⟨rfl, rfl⟩ (.single ⟨rfl, rfl⟩))
  have hstmt : Statement StarOrNames
      (.select ⟨identifier "t", [identifier "*", identifier "a"], none, by decide⟩)
      (selectTwo "*" "a") :=
    @Statement.select _ ⟨identifier "t", [identifier "*", identifier "a"], none, _⟩ _ _ _ _ _ _
      ⟨rfl, rfl⟩ hlist ⟨rfl, rfl⟩ ⟨rfl, rfl⟩ .absent .absent
  exact ⟨⟨_, hstmt⟩, by decide, by decide⟩

end MiniDbms
