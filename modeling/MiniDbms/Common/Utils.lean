import MiniDbms.Library.CString

/-!
# The string helpers of `utils.c`

Pointers passed by the callers are never `NULL`, so the guards against it have no counterpart.
-/

namespace MiniDbms

/-- The return codes `SUCCESS` and `FAILURE`. -/
inductive Status where
  | success
  | failure
  deriving DecidableEq, Repr

lemma Status.eq_success {status : Status} (h : status ≠ .failure) : status = .success := by
  cases status with
  | success => rfl
  | failure => exact absurd rfl h

/-- `MAX_COLUMNS` -/
def maxColumns : Nat := 32

/-- The content of a `char[MAX_IDENTIFIER_LEN]`. -/
abbrev Identifier := CBuf 63

/-- The identifier that is written so. -/
def identifier (name : String) : Identifier := .truncate 63 (bytes name)

/-- The content of a `char[MAX_VALUE_LEN]`. -/
abbrev Value := CBuf 255

/-- `utils_safe_strcpy`: the destination holds the truncated text even on failure. -/
def utilsSafeStrcpy (n : Nat) (src : CString) : CBuf n × Status :=
  (CBuf.truncate n src, if (cView src).length ≤ n then .success else .failure)

/-- `utils_trim` -/
def utilsTrim (text : CString) : CString := (text.rdropWhile isspace).dropWhile isspace

/-- `utils_to_upper_copy`, `none` being `FAILURE`. -/
def utilsToUpperCopy (src : CString) (destSize : Nat) : Option CString :=
  if src.length < destSize then some (src.map toupper) else none

/-- `utils_equals_ignore_case` -/
def utilsEqualsIgnoreCase : CString → CString → Bool
  | [], []           => true
  | a :: as, b :: bs => if toupper a ≠ toupper b then false else utilsEqualsIgnoreCase as bs
  | _, _             => false

/-- The table `keywords` of `utils_is_sql_keyword`. -/
def sqlKeywords : List CString :=
  [bytes "INSERT", bytes "SELECT", bytes "DELETE", bytes "INTO", bytes "FROM", bytes "WHERE",
    bytes "VALUES"]

/-- `utils_is_sql_keyword` -/
def utilsIsSqlKeyword (text : CString) : Bool := sqlKeywords.any (utilsEqualsIgnoreCase text)

/-- `utils_is_integer` -/
def utilsIsInteger : CString → Bool
  | []        => false
  | b :: text =>
    if b = chr '-' ∨ b = chr '+' then !text.isEmpty && text.all isdigit
    else (b :: text).all isdigit

/-- `utils_parse_integer` -/
def utilsParseInteger (text : CString) : Int := strtoll text

/-- `utils_compare_values` -/
def utilsCompareValues (lhs rhs : CString) : Int :=
  if utilsIsInteger lhs && utilsIsInteger rhs then
    let leftNumber := utilsParseInteger lhs
    let rightNumber := utilsParseInteger rhs
    if leftNumber < rightNumber then -1 else if leftNumber > rightNumber then 1 else 0
  else strcmp lhs rhs

/-- `utils_append_buffer`: the buffer grows as needed. -/
def utilsAppendBuffer (buffer suffix : CString) : CString := buffer ++ suffix

/-- The loop of `utils_find_statement_terminator`, `text` being what is left from index `i` on. -/
def statementTerminatorLoop : (inQuotes : Bool) → (i : Nat) → CString → Option Nat
  | _, _, []                    => none
  | inQuotes, i, [b]            => if inQuotes = false ∧ b = chr ';' then some i else none
  | inQuotes, i, b :: c :: text =>
    if b = chr '\'' then
      -- a doubled quote inside quotes is skipped whole
      if inQuotes = true ∧ c = chr '\'' then statementTerminatorLoop inQuotes (i + 2) text
      else statementTerminatorLoop (!inQuotes) (i + 1) (c :: text)
    else if inQuotes = false ∧ b = chr ';' then some i
    else statementTerminatorLoop inQuotes (i + 1) (c :: text)

/-- `utils_find_statement_terminator`: the index found is returned as an `int`, `FAILURE` is -1. -/
def utilsFindStatementTerminator (text : CString) (startIndex : Nat) : Int :=
  match statementTerminatorLoop false startIndex (text.drop startIndex) with
  | some i => toInt i
  | none   => -1

/-- `utils_substring`. A length beyond the text can only be a wrapped one, close to `2 ^ 64`, that
no allocation satisfies. -/
def utilsSubstring (text : CString) (start length : Nat) : Option CString :=
  if start + length ≤ text.length then some ((text.drop start).take length) else none

/-! ### Copying -/

lemma utilsSafeStrcpy_val {n : Nat} (b : CBuf n) : utilsSafeStrcpy n b.val = (b, .success) := by
  simp [utilsSafeStrcpy, cView_eq_self b.2.2, b.2.1]

lemma utilsSafeStrcpy_success {n : Nat} {src : CString} {dest : CBuf n} (hnul : 0 ∉ src)
    (h : utilsSafeStrcpy n src = (dest, .success)) : dest.val = src := by
  simp only [utilsSafeStrcpy, cView_eq_self hnul, Prod.mk.injEq] at h
  obtain ⟨rfl, hlen⟩ := h
  have hle : src.length ≤ n := by
    by_contra hgt
    simp [hgt] at hlen
  rw [CBuf.truncate_eq hle hnul]

/-! ### Comparison without regard to case -/

lemma utilsEqualsIgnoreCase_iff {s t : CString} :
    utilsEqualsIgnoreCase s t = true ↔ s.map toupper = t.map toupper := by
  induction s generalizing t with
  | nil => cases t <;> simp [utilsEqualsIgnoreCase]
  | cons a s ih =>
    cases t with
    | nil => simp [utilsEqualsIgnoreCase]
    | cons b t =>
      by_cases hab : toupper a = toupper b
      · simp [utilsEqualsIgnoreCase, hab, ih]
      · simp [utilsEqualsIgnoreCase, hab]

@[simp]
lemma utilsEqualsIgnoreCase_self (s : CString) : utilsEqualsIgnoreCase s s = true :=
  utilsEqualsIgnoreCase_iff.mpr rfl

lemma utilsEqualsIgnoreCase_comm (s t : CString) :
    utilsEqualsIgnoreCase s t = utilsEqualsIgnoreCase t s := by
  rw [Bool.eq_iff_iff, utilsEqualsIgnoreCase_iff, utilsEqualsIgnoreCase_iff, eq_comm]

lemma utilsEqualsIgnoreCase_trans {s t u : CString} (h₁ : utilsEqualsIgnoreCase s t = true)
    (h₂ : utilsEqualsIgnoreCase t u = true) : utilsEqualsIgnoreCase s u = true := by
  rw [utilsEqualsIgnoreCase_iff] at *
  exact h₁.trans h₂

/-! ### Integers -/

lemma utilsIsInteger_printInt {n : Int} (h : 0 ≤ n) : utilsIsInteger (printInt n) = true := by
  obtain ⟨b, bs, hbs⟩ := List.exists_cons_of_ne_nil (natDigits_ne_nil n.natAbs)
  have hdigits : ∀ c ∈ b :: bs, isdigit c = true := hbs ▸ isdigit_of_mem_natDigits
  have hb := isdigit_facts (hdigits b List.mem_cons_self)
  rw [printInt, if_neg (by omega), hbs, utilsIsInteger, if_neg (by simp [hb.2.1, hb.2.2.1]),
    List.all_eq_true]
  exact hdigits

end MiniDbms
