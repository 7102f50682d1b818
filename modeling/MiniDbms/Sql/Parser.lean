import MiniDbms.Sql.Tokenizer

/-!
# The parser of `parser.c`

The tokens still to be read take the place of `index`; `none` stands for `FAILURE`. The lists of
columns and values are the used parts of the arrays of `MAX_COLUMNS` slots.
-/

namespace MiniDbms

/-- The used part of an array of `n` slots. -/
abbrev Slots (α : Type) (n : Nat) := { l : List α // l.length ≤ n }

namespace Slots

variable {α : Type} {n : Nat}

def nil : Slots α n := ⟨[], Nat.zero_le n⟩

def cons (a : α) (s : Slots α n) : Slots α (n + 1) := ⟨a :: s.val, Nat.succ_le_succ s.2⟩

end Slots

structure InsertStatement where
  tableName : Identifier
  columns : List Identifier
  values : List Value
  columns_le : columns.length ≤ maxColumns
  values_length : values.length = columns.length
  deriving DecidableEq, Repr

structure WhereClause where
  column : Identifier
  op : CBuf 3
  value : Value
  deriving DecidableEq, Repr

/-- No column stands for `SELECT *`; `whereClause` is present when `has_where` is set. -/
structure SelectStatement where
  tableName : Identifier
  columns : List Identifier
  whereClause : Option WhereClause
  columns_le : columns.length ≤ maxColumns
  deriving DecidableEq, Repr

structure DeleteStatement where
  tableName : Identifier
  whereClause : Option WhereClause
  deriving DecidableEq, Repr

inductive SqlStatement where
  | insert (stmt : InsertStatement)
  | select (stmt : SelectStatement)
  | delete (stmt : DeleteStatement)
  deriving DecidableEq, Repr

/-! ### Single tokens -/

/-- `parser_is_token` at the head of the remaining tokens; `none` is a `NULL` value. -/
def parserIsToken (tokens : List Token) (type : TokenType) (value : Option CString) : Bool :=
  match tokens with
  | []     => false
  | t :: _ => t.type == type && value.all fun v => strcmp t.value.val v == 0

/-- A step over one required token. -/
def parserSkip (tokens : List Token) (type : TokenType) (value : CString) :
    Option (List Token) :=
  if parserIsToken tokens type (some value) then some tokens.tail else none

/-- `parser_expect_keyword` -/
def parserExpectKeyword (tokens : List Token) (keyword : CString) : Option (List Token) :=
  parserSkip tokens .keyword keyword

/-- `utils_safe_strcpy` from a token into a parse result. -/
def parserCopy (n : Nat) (t : Token) : Option (CBuf n) :=
  match utilsSafeStrcpy n t.value.val with
  | (dest, .success) => some dest
  | (_, .failure)    => none

/-- `parser_expect_identifier` -/
def parserExpectIdentifier : List Token → Option (Identifier × List Token)
  | []          => none
  | t :: tokens =>
    if t.type = .identifier then (parserCopy 63 t).map fun dest => (dest, tokens) else none

/-- `parser_expect_literal` -/
def parserExpectLiteral : List Token → Option (Value × List Token)
  | []          => none
  | t :: tokens =>
    if t.type ≠ .intLiteral ∧ t.type ≠ .strLiteral then none
    else (parserCopy 255 t).map fun dest => (dest, tokens)

/-- `parser_consume_optional_semicolon` -/
def parserConsumeOptionalSemicolon (tokens : List Token) : Status :=
  let tokens :=
    if parserIsToken tokens .semicolon (some (bytes ";")) then tokens.tail else tokens
  if tokens.isEmpty then .success else .failure

/-! ### Lists -/

/-- The loop over a comma-separated list, with `room` free slots in the array it fills. -/
def parserParseList {α : Type} (expect : List Token → Option (α × List Token)) :
    (room : Nat) → List Token → Option (Slots α room × List Token)
  | _, []                   => some (Slots.nil, [])
  | 0, _ :: _               => none
  | room + 1, t :: tokens   => do
    let (item, rest) ← expect (t :: tokens)
    if parserIsToken rest .comma (some (bytes ",")) then
      let (items, rest) ← parserParseList expect room rest.tail
      return (items.cons item, rest)
    else return (Slots.nil.cons item, rest)

/-- The column list of `parser_parse_insert`. -/
def parserParseInsertColumns (tokens : List Token) :
    Option (Slots Identifier maxColumns × List Token) :=
  parserParseList parserExpectIdentifier maxColumns tokens

/-- The `VALUES` list of `parser_parse_insert`. -/
def parserParseInsertValues (tokens : List Token) :
    Option (Slots Value maxColumns × List Token) :=
  parserParseList parserExpectLiteral maxColumns tokens

/-- `parser_parse_select_columns` -/
def parserParseSelectColumns (tokens : List Token) :
    Option (Slots Identifier maxColumns × List Token) :=
  if parserIsToken tokens .identifier (some (bytes "*")) then some (Slots.nil, tokens.tail)
  else parserParseList parserExpectIdentifier maxColumns tokens

/-! ### Statements -/

/-- `parser_parse_where` -/
def parserParseWhere (tokens : List Token) : Option (WhereClause × List Token) := do
  let (column, tokens) ← parserExpectIdentifier tokens
  match tokens with
  | []          => none
  | t :: tokens =>
    if t.type = .operator then
      let op ← parserCopy 3 t
      let (value, tokens) ← parserExpectLiteral tokens
      return (⟨column, op, value⟩, tokens)
    else none

/-- The optional `WHERE` of `parser_parse_select` and `parser_parse_delete`. -/
def parserParseOptionalWhere (tokens : List Token) :
    Option (Option WhereClause × List Token) :=
  if parserIsToken tokens .keyword (some (bytes "WHERE")) then
    (parserParseWhere tokens.tail).map fun (w, rest) => (some w, rest)
  else some (none, tokens)

/-- `parser_parse_insert` -/
def parserParseInsert (tokens : List Token) : Option SqlStatement := do
  let tokens ← parserExpectKeyword tokens (bytes "INSERT")
  let tokens ← parserExpectKeyword tokens (bytes "INTO")
  let (tableName, tokens) ← parserExpectIdentifier tokens
  let tokens ← parserSkip tokens .lparen (bytes "(")
  let (columns, tokens) ← parserParseInsertColumns tokens
  let tokens ← parserSkip tokens .rparen (bytes ")")
  let tokens ← parserExpectKeyword tokens (bytes "VALUES")
  let tokens ← parserSkip tokens .lparen (bytes "(")
  let (values, tokens) ← parserParseInsertValues tokens
  let tokens ← parserSkip tokens .rparen (bytes ")")
  if h : values.val.length = columns.val.length then
    if parserConsumeOptionalSemicolon tokens = .success then
      some (.insert ⟨tableName, columns.val, values.val, columns.2, h⟩)
    else none
  else none

/-- `parser_parse_select` -/
def parserParseSelect (tokens : List Token) : Option SqlStatement := do
  let tokens ← parserExpectKeyword tokens (bytes "SELECT")
  let (columns, tokens) ← parserParseSelectColumns tokens
  let tokens ← parserExpectKeyword tokens (bytes "FROM")
  let (tableName, tokens) ← parserExpectIdentifier tokens
  let (w, tokens) ← parserParseOptionalWhere tokens
  if parserConsumeOptionalSemicolon tokens = .success then
    some (.select ⟨tableName, columns.val, w, columns.2⟩)
  else none

/-- `parser_parse_delete` -/
def parserParseDelete (tokens : List Token) : Option SqlStatement := do
  let tokens ← parserExpectKeyword tokens (bytes "DELETE")
  let tokens ← parserExpectKeyword tokens (bytes "FROM")
  let (tableName, tokens) ← parserExpectIdentifier tokens
  let (w, tokens) ← parserParseOptionalWhere tokens
  if parserConsumeOptionalSemicolon tokens = .success then some (.delete ⟨tableName, w⟩)
  else none

/-- `parser_parse` -/
def parserParse (tokens : List Token) : Option SqlStatement :=
  if parserIsToken tokens .keyword (some (bytes "INSERT")) then parserParseInsert tokens
  else if parserIsToken tokens .keyword (some (bytes "SELECT")) then parserParseSelect tokens
  else if parserIsToken tokens .keyword (some (bytes "DELETE")) then parserParseDelete tokens
  else none

end MiniDbms
