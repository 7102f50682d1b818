import MiniDbms.Sql.Grammar
import MiniDbms.Sql.TokenizerCache

/-!
# The names in parsed statements

Identifiers come from the words of the text and from the asterisk, so that the names of tables and
columns in a statement are never empty and hold no bytes but those of a word.
-/

namespace MiniDbms

/-- A text that can stand for a name. -/
def IsName (s : CString) : Prop := s ≠ [] ∧ ∀ b ∈ s, isWordByte b = true ∨ b = chr '*'

/-- A text that an identifier token can have: `*`, or a word. -/
def IsSqlName (s : CString) : Prop :=
  s = bytes "*" ∨ ∃ b w, s = b :: w ∧ (isalpha b = true ∨ b = chr '_') ∧
    ∀ c ∈ w, isWordByte c = true

lemma IsSqlName.isName {s : CString} (h : IsSqlName s) : IsName s := by
  rcases h with rfl | ⟨b, w, rfl, hb, hw⟩
  · exact ⟨by decide, forall_mem_of_all rfl⟩
  · refine ⟨List.cons_ne_nil b w, List.forall_mem_cons.mpr ⟨.inl ?_, fun c hc => .inl (hw c hc)⟩⟩
    exact isWordByte_of_start (by simpa using hb)

/-- The table that a statement names. -/
def SqlStatement.tableName : SqlStatement → Identifier
  | insert stmt => stmt.tableName
  | select stmt => stmt.tableName
  | delete stmt => stmt.tableName

/-- The columns that an insertion fills. -/
def SqlStatement.insertColumns : SqlStatement → List Identifier
  | insert stmt => stmt.columns
  | _           => []

/-- The identifier tokens are names. -/
def NameTokens (tokens : List Token) : Prop :=
  ∀ t ∈ tokens, t.type = .identifier → IsName t.value.val

/-- The identifier tokens are words or the asterisk. -/
def SqlNameTokens (tokens : List Token) : Prop :=
  ∀ t ∈ tokens, t.type = .identifier → IsSqlName t.value.val

/-! ### Tokens -/

lemma tokenizerMakeToken_some {type : TokenType} {value : CString} {t : Token}
    (h : tokenizerMakeToken type value = some t) :
    t.type = type ∧ (0 ∉ value → t.value.val = value) := by
  unfold tokenizerMakeToken at h
  split at h
  · rename_i v hcopy
    cases h
    exact ⟨rfl, fun hnul => utilsSafeStrcpy_success hnul hcopy⟩
  · cases h

lemma isWordByte_zero : isWordByte 0 = false := by decide

lemma tokenizerReadWhile_all {p : Byte → Bool} {n length : Nat} {sql w rest : CString}
    (h : tokenizerReadWhile p n length sql = some (w, rest)) : ∀ b ∈ w, p b = true := by
  induction sql generalizing length w with
  | nil =>
    cases h
    simp
  | cons b sql ih =>
    simp only [tokenizerReadWhile] at h
    split_ifs at h with hb hroom
    · obtain ⟨⟨w', rest'⟩, hread, ⟨⟩⟩ := Option.map_eq_some_iff.mp h
      intro c hc
      rcases List.mem_cons.mp hc with rfl | hc
      · exact hb
      · exact ih hread c hc
    · cases h
      simp

/-- A word begins with the byte it was recognised by. -/
lemma tokenizerReadWord_cons {b : Byte} {n : Nat} {sql w rest : CString}
    (hb : isWordByte b = true) (h : tokenizerReadWord n (b :: sql) = some (w, rest)) :
    ∃ w', w = b :: w' := by
  simp only [tokenizerReadWord, tokenizerReadWhile, hb, if_true] at h
  split_ifs at h
  obtain ⟨⟨w', rest'⟩, -, ⟨⟩⟩ := Option.map_eq_some_iff.mp h
  exact ⟨w', rfl⟩

namespace SqlNameTokens

lemma singleton {t : Token} (h : t.type = .identifier → IsSqlName t.value.val) :
    SqlNameTokens [t] := by
  intro t' ht'
  obtain rfl : t' = t := by simpa using ht'
  exact h

/-- A token of another kind is no name to check. -/
lemma of_type {type : TokenType} {value : CString} {t : Token}
    (h : tokenizerMakeToken type value = some t) (htype : type ≠ .identifier) :
    SqlNameTokens [t] :=
  .singleton fun ht => absurd ((tokenizerMakeToken_some h).1.symm.trans ht) htype

lemma of_word {b : Byte} {w : CString} {t : Token} (hb : (isalpha b || b == chr '_') = true)
    (hw : ∀ c ∈ b :: w, isWordByte c = true) (h : tokenizerWordToken (b :: w) = some t) :
    SqlNameTokens [t] := by
  have hnul : 0 ∉ b :: w := by
    intro hmem
    have hzero := hw 0 hmem
    rw [isWordByte_zero] at hzero
    cases hzero
  unfold tokenizerWordToken at h
  split_ifs at h
  · obtain ⟨upper, -, hmake⟩ := Option.bind_eq_some_iff.mp h
    exact .of_type hmake (by decide)
  · apply SqlNameTokens.singleton
    intro _
    rw [(tokenizerMakeToken_some h).2 hnul]
    exact .inr ⟨b, w, rfl, by simpa using hb, fun c hc => hw c (List.mem_cons_of_mem _ hc)⟩

lemma append {ts ts' : List Token} (h : SqlNameTokens ts) (h' : SqlNameTokens ts') :
    SqlNameTokens (ts ++ ts') := by
  intro t ht
  rcases List.mem_append.mp ht with ht | ht
  · exact h t ht
  · exact h' t ht

end SqlNameTokens

lemma tokenizerStep_sqlNames {b : Byte} {sql rest : CString} {ts : List Token}
    (h : tokenizerStep b sql = some (ts, rest)) : SqlNameTokens ts := by
  cases TokenizerRound.of_step h with
  | space =>
    intro t ht
    cases ht
  | @single type value t hmake hstar =>
    by_cases htype : type = .identifier
    · -- the star of a query without columns
      apply SqlNameTokens.singleton
      intro _
      subst htype
      rw [(tokenizerMakeToken_some hmake).2 (by rw [hstar rfl]; decide), hstar rfl]
      exact .inl rfl
    · exact .of_type hmake htype
  | string hread hmake => exact .of_type hmake (by decide)
  | operator hmake => exact .of_type hmake (by decide)
  | number hstart hread hmake => exact .of_type hmake (by decide)
  | word hstart hread hmake =>
    obtain ⟨w', rfl⟩ := tokenizerReadWord_cons (isWordByte_of_start hstart) hread
    exact .of_word hstart (tokenizerReadWhile_all hread) hmake

lemma tokenizerLoop_sqlNames {fuel : Nat} {sql : CString} {ts : List Token}
    (h : tokenizerLoop fuel sql = some ts) : SqlNameTokens ts := by
  induction fuel generalizing sql ts with
  | zero =>
    cases sql with
    | nil =>
      cases h
      intro t ht
      cases ht
    | cons b sql => cases h
  | succ fuel ih =>
    cases sql with
    | nil =>
      cases h
      intro t ht
      cases ht
    | cons b sql =>
      obtain ⟨⟨ts₁, rest⟩, hstep, h⟩ := Option.bind_eq_some_iff.mp h
      obtain ⟨ts₂, hmore, ⟨⟩⟩ := Option.bind_eq_some_iff.mp h
      exact (tokenizerStep_sqlNames hstep).append (ih hmore)

lemma tokensOf_sqlNames {sql : CString} {ts : List Token} (h : tokensOf sql = some ts) :
    SqlNameTokens ts := by
  unfold tokensOf at h
  split_ifs at h
  exact tokenizerLoop_sqlNames (tokenizerTokenizeSql_eq_some.mp h).1

lemma tokensOf_names {sql : CString} {ts : List Token} (h : tokensOf sql = some ts) :
    NameTokens ts :=
  fun t ht htype => (tokensOf_sqlNames h t ht htype).isName

/-! ### Statements -/

/-- Every item of a list has its token. -/
lemma CommaList.exists_token {α : Type} {item : Token → α → Prop} {as : List α} {ts : List Token}
    (h : CommaList item as ts) : ∀ a ∈ as, ∃ t ∈ ts, item t a := by
  induction h with
  | @single a t ht =>
    intro a' ha'
    obtain rfl := List.mem_singleton.mp ha'
    exact ⟨t, List.mem_cons_self, ht⟩
  | @cons a as t comma ts ht _ _ ih =>
    intro a' ha'
    rcases List.mem_cons.mp ha' with rfl | ha'
    · exact ⟨t, List.mem_cons_self, ht⟩
    · obtain ⟨t', hmem, ht'⟩ := ih a' ha'
      exact ⟨t', List.mem_cons_of_mem _ (List.mem_cons_of_mem _ hmem), ht'⟩

/-- The names of a statement are the texts of identifier tokens. -/
lemma parserParse_identifiers {P : CString → Prop} {ts : List Token} {stmt : SqlStatement}
    (hts : ∀ t ∈ ts, t.type = .identifier → P t.value.val) (h : parserParse ts = some stmt) :
    P stmt.tableName.val ∧ ∀ c ∈ stmt.insertColumns, P c.val := by
  have hname : ∀ {t : Token} {n : Identifier}, t ∈ ts → t.IsIdentifier n → P n.val := by
    intro t n hmem ht
    rw [← ht.2]
    exact hts t hmem ht.1
  cases parserParse_sound h with
  | @insert stmt _ _ name _ _ _ _ _ columns _ _ _ _ ht _ hcolumns =>
    refine ⟨hname (by simp) ht, ?_⟩
    intro c hc
    obtain ⟨t, hmem, ht⟩ := hcolumns.exists_token c hc
    exact hname (by simp [hmem]) ht
  | select _ _ _ ht =>
    refine ⟨hname (by simp) ht, ?_⟩
    rintro c ⟨⟩
  | delete _ _ ht =>
    refine ⟨hname (by simp) ht, ?_⟩
    rintro c ⟨⟩

/-- The names of the statement are names. -/
structure SqlStatement.WellNamed (stmt : SqlStatement) : Prop where
  tableName : IsName stmt.tableName.val
  insertColumns : ∀ c ∈ stmt.insertColumns, IsName c.val

/-- What the parser returns is well named. -/
lemma parserParse_wellNamed {ts : List Token} {stmt : SqlStatement} (hts : NameTokens ts)
    (h : parserParse ts = some stmt) : stmt.WellNamed := by
  obtain ⟨htable, hcolumns⟩ := parserParse_identifiers hts h
  exact ⟨htable, hcolumns⟩

end MiniDbms
