import MiniDbms.Library.CString

/-!
# JSON texts

The grammar of RFC 8259 on bytes, with the values that its texts denote. A text is UTF-8. Strings
denote sequences of UTF-16 code units, because an escape may be half of a surrogate pair.

A scanner that knows only strings and brackets accepts every text of the grammar. What it refuses
is not JSON.
-/

namespace MiniDbms.Json

/-! ### Characters -/

/-- The UTF-8 encoding of a sequence of characters. -/
def utf8 (cs : List Char) : CString := cs.flatMap String.utf8EncodeChar

def IsUtf8 (s : CString) : Prop := ∃ cs, s = utf8 cs

/-- The UTF-16 code units of a character. -/
def utf16Char (c : Char) : List Nat :=
  if c.toNat < 0x10000 then [c.toNat]
  else [0xD800 + (c.toNat - 0x10000) / 0x400, 0xDC00 + (c.toNat - 0x10000) % 0x400]

def utf16 (cs : List Char) : List Nat := cs.flatMap utf16Char

/-! ### Grammar -/

/-- `ws` -/
def IsWhitespace (s : CString) : Prop :=
  ∀ b ∈ s, b = chr ' ' ∨ b = chr '\t' ∨ b = chr '\n' ∨ b = chr '\r'

/-- What stands behind the backslash of an escape with two characters. -/
def escapeUnit (b : Byte) : Option Nat :=
  if b = chr '"' then some 0x22
  else if b = chr '\\' then some 0x5C
  else if b = chr '/' then some 0x2F
  else if b = chr 'b' then some 0x08
  else if b = chr 'f' then some 0x0C
  else if b = chr 'n' then some 0x0A
  else if b = chr 'r' then some 0x0D
  else if b = chr 't' then some 0x09
  else none

/-- `HEXDIG` -/
def hexDigit (b : Byte) : Option Nat :=
  if isdigit b then some (b.toNat - 48)
  else if 97 ≤ b ∧ b ≤ 102 then some (b.toNat - 87)
  else if 65 ≤ b ∧ b ≤ 70 then some (b.toNat - 55)
  else none

/-- `*char` with the code units that it denotes. -/
inductive IsChars : CString → List Nat → Prop
  | nil : IsChars [] []
  | unescaped {s : CString} {u : List Nat} (c : Char) (hc : 0x20 ≤ c.toNat) (hquote : c ≠ '"')
      (hbackslash : c ≠ '\\') (h : IsChars s u) :
      IsChars (String.utf8EncodeChar c ++ s) (utf16Char c ++ u)
  | escape {s : CString} {u : List Nat} {b : Byte} {n : Nat} (hb : escapeUnit b = some n)
      (h : IsChars s u) : IsChars (chr '\\' :: b :: s) (n :: u)
  | unicode {s : CString} {u : List Nat} {b₁ b₂ b₃ b₄ : Byte} {n₁ n₂ n₃ n₄ : Nat}
      (h₁ : hexDigit b₁ = some n₁) (h₂ : hexDigit b₂ = some n₂) (h₃ : hexDigit b₃ = some n₃)
      (h₄ : hexDigit b₄ = some n₄) (h : IsChars s u) :
      IsChars (chr '\\' :: chr 'u' :: b₁ :: b₂ :: b₃ :: b₄ :: s)
        ((((n₁ * 16 + n₂) * 16 + n₃) * 16 + n₄) :: u)

/-- `string` -/
inductive IsString : CString → List Nat → Prop
  | quoted {s : CString} {u : List Nat} (h : IsChars s u) :
      IsString (chr '"' :: s ++ [chr '"']) u

def IsDigits (s : CString) : Prop := s ≠ [] ∧ ∀ b ∈ s, isdigit b = true

/-- `int` -/
def IsInteger (s : CString) : Prop := s = [chr '0'] ∨ (IsDigits s ∧ s.head? ≠ some (chr '0'))

/-- `[ frac ]` -/
def IsFraction (s : CString) : Prop := s = [] ∨ ∃ d, IsDigits d ∧ s = chr '.' :: d

/-- `[ exp ]` -/
def IsExponent (s : CString) : Prop :=
  s = [] ∨ ∃ e sign d, (e = chr 'e' ∨ e = chr 'E') ∧
    (sign = [] ∨ sign = [chr '+'] ∨ sign = [chr '-']) ∧ IsDigits d ∧ s = e :: (sign ++ d)

/-- `number` -/
def IsNumber (s : CString) : Prop :=
  ∃ minus int frac exp, (minus = [] ∨ minus = [chr '-']) ∧ IsInteger int ∧ IsFraction frac ∧
    IsExponent exp ∧ s = minus ++ int ++ frac ++ exp

/-- What a text denotes; a number is kept as it is written. -/
inductive Value where
  | null
  | bool (b : Bool)
  | number (text : CString)
  | string (units : List Nat)
  | array (elements : List Value)
  | object (members : List (List Nat × Value))

/-- The member with this name. -/
def Value.member (name : List Nat) : Value → Option Value
  | object members => (members.find? (fun m => m.1 == name)).map Prod.snd
  | _              => none

/-- The string denotes the characters of this UTF-8 text. -/
def Value.Denotes (v : Value) (s : CString) : Prop := ∃ cs, s = utf8 cs ∧ v = .string (utf16 cs)

/-- What the rules of the grammar derive. -/
inductive Phrase where
  | value (v : Value)
  | elements (vs : List Value)
  | members (ms : List (List Nat × Value))

/-- The rules for values. The whitespace around a structural character stands with the value, the
element or the member next to it. -/
inductive Derives : Phrase → CString → Prop
  | null : Derives (.value .null) (bytes "null")
  | true : Derives (.value (.bool true)) (bytes "true")
  | false : Derives (.value (.bool false)) (bytes "false")
  | number {s : CString} (h : IsNumber s) : Derives (.value (.number s)) s
  | string {s : CString} {u : List Nat} (h : IsString s u) : Derives (.value (.string u)) s
  | emptyArray {w : CString} (hw : IsWhitespace w) :
      Derives (.value (.array [])) (chr '[' :: w ++ [chr ']'])
  | array {s : CString} {vs : List Value} (h : Derives (.elements vs) s) :
      Derives (.value (.array vs)) (chr '[' :: s ++ [chr ']'])
  | emptyObject {w : CString} (hw : IsWhitespace w) :
      Derives (.value (.object [])) (chr '{' :: w ++ [chr '}'])
  | object {s : CString} {ms : List (List Nat × Value)} (h : Derives (.members ms) s) :
      Derives (.value (.object ms)) (chr '{' :: s ++ [chr '}'])
  | element {w s w' : CString} {v : Value} (hw : IsWhitespace w) (h : Derives (.value v) s)
      (hw' : IsWhitespace w') : Derives (.elements [v]) (w ++ s ++ w')
  | moreElements {s t : CString} {v : Value} {vs : List Value} (h : Derives (.elements [v]) s)
      (hs : Derives (.elements vs) t) : Derives (.elements (v :: vs)) (s ++ chr ',' :: t)
  | member {w k w' s : CString} {u : List Nat} {v : Value} (hw : IsWhitespace w)
      (hk : IsString k u) (hw' : IsWhitespace w') (h : Derives (.elements [v]) s) :
      Derives (.members [(u, v)]) (w ++ k ++ w' ++ chr ':' :: s)
  | moreMembers {s t : CString} {m : List Nat × Value} {ms : List (List Nat × Value)}
      (h : Derives (.members [m]) s) (hs : Derives (.members ms) t) :
      Derives (.members (m :: ms)) (s ++ chr ',' :: t)

/-- `JSON-text` -/
def IsText (s : CString) (v : Value) : Prop := Derives (.elements [v]) s

lemma isWhitespace_nil : IsWhitespace [] := by
  intro b hb
  cases hb

/-- A value without whitespace around it. -/
lemma Derives.element_tight {s : CString} {v : Value} (h : Derives (.value v) s) :
    Derives (.elements [v]) s := by
  simpa using Derives.element isWhitespace_nil h isWhitespace_nil

/-- A member without whitespace. -/
lemma IsString.derives_member {k s : CString} {u : List Nat} {v : Value} (hk : IsString k u)
    (h : Derives (.value v) s) : Derives (.members [(u, v)]) (k ++ chr ':' :: s) := by
  simpa using Derives.member isWhitespace_nil hk isWhitespace_nil h.element_tight

lemma Value.member_cons_self {name : List Nat} {v : Value} {ms : List (List Nat × Value)} :
    (object ((name, v) :: ms)).member name = some v := by
  simp [member]

lemma Value.member_cons_of_ne {k name : List Nat} {v : Value} {ms : List (List Nat × Value)}
    (h : k ≠ name) : (object ((k, v) :: ms)).member name = (object ms).member name := by
  simp [member, h]

/-! ### UTF-8 -/

lemma utf8_append (cs ds : List Char) : utf8 (cs ++ ds) = utf8 cs ++ utf8 ds :=
  List.flatMap_append

lemma IsUtf8.append {s t : CString} (hs : IsUtf8 s) (ht : IsUtf8 t) : IsUtf8 (s ++ t) := by
  obtain ⟨cs, rfl⟩ := hs
  obtain ⟨ds, rfl⟩ := ht
  exact ⟨cs ++ ds, (utf8_append cs ds).symm⟩

lemma isUtf8_nil : IsUtf8 [] := ⟨[], rfl⟩

/-- An ASCII character is one byte, and no byte of another character is ASCII. -/
lemma utf8EncodeChar_cases (c : Char) :
    (c.toNat < 128 ∧ String.utf8EncodeChar c = [chr c]) ∨
      (128 ≤ c.toNat ∧ ∀ b ∈ String.utf8EncodeChar c, 128 ≤ b) := by
  have hv : c.val.toNat = c.toNat := rfl
  unfold String.utf8EncodeChar
  dsimp only
  rw [hv]
  split_ifs with h₁ h₂ h₃
  · exact .inl ⟨by omega, rfl⟩
  all_goals
    refine .inr ⟨by omega, ?_⟩
    intro b hb
    simp only [List.mem_cons, List.not_mem_nil, or_false] at hb
    rw [UInt8.le_iff_toNat_le]
    rcases hb with rfl | rfl | rfl | rfl <;> rw [UInt8.toNat_ofNat'] <;>
      change 128 ≤ _ <;> omega

lemma utf8EncodeChar_ascii {b : Byte} :
    b < 128 → String.utf8EncodeChar (Char.ofNat b.toNat) = [b] := by
  revert b
  apply forall_byte
  decide +kernel

lemma isUtf8_of_ascii {s : CString} (h : ∀ b ∈ s, b < 128) : IsUtf8 s := by
  induction s with
  | nil => exact isUtf8_nil
  | cons b s ih =>
    have hb : IsUtf8 [b] :=
      ⟨[Char.ofNat b.toNat], by simp [utf8, utf8EncodeChar_ascii (h b List.mem_cons_self)]⟩
    exact hb.append (ih fun b' hb' => h b' (List.mem_cons_of_mem b hb'))

/-- The first character of a text: an ASCII byte, or a sequence of bytes that are not ASCII. -/
lemma IsUtf8.cases_cons {b : Byte} {s : CString} (h : IsUtf8 (b :: s)) :
    (b < 128 ∧ IsUtf8 s) ∨ ∃ l t, l ≠ [] ∧ (∀ a ∈ l, 128 ≤ a) ∧ IsUtf8 l ∧ IsUtf8 t ∧
      b :: s = l ++ t := by
  obtain ⟨cs, hcs⟩ := h
  cases cs with
  | nil => cases hcs
  | cons c cs =>
    have hsplit : b :: s = String.utf8EncodeChar c ++ utf8 cs := hcs
    rcases utf8EncodeChar_cases c with ⟨hascii, heq⟩ | ⟨-, hhigh⟩
    · rw [heq, List.singleton_append, List.cons.injEq] at hsplit
      refine .inl ⟨?_, cs, hsplit.2⟩
      rw [hsplit.1, UInt8.lt_iff_toNat_lt, toNat_chr hascii]
      exact hascii
    · refine .inr ⟨_, _, String.utf8EncodeChar_ne_nil, hhigh, ⟨[c], ?_⟩, ⟨cs, rfl⟩, hsplit⟩
      simp [utf8]

lemma IsUtf8.of_ascii_append {p s : CString} (hp : ∀ b ∈ p, b < 128) (h : IsUtf8 (p ++ s)) :
    IsUtf8 s := by
  induction p with
  | nil => exact h
  | cons b p ih =>
    have hb := hp b List.mem_cons_self
    rcases h.cases_cons with ⟨-, hrest⟩ | ⟨l, t, hne, hhigh, -, -, heq⟩
    · exact ih (fun b' hb' => hp b' (List.mem_cons_of_mem b hb')) hrest
    · obtain ⟨a, l, rfl⟩ := List.exists_cons_of_ne_nil hne
      obtain ⟨rfl, -⟩ := List.cons.inj heq
      exact absurd hb (UInt8.not_lt.mpr (hhigh b List.mem_cons_self))

lemma utf16Char_ascii {b : Byte} : b < 128 → utf16Char (Char.ofNat b.toNat) = [b.toNat] := by
  revert b
  apply forall_byte
  decide +kernel

/-- The code units of a character are not the beginning of those of another one. -/
lemma utf16Char_cancel {c d : Char} {u v : List Nat} (h : utf16Char c ++ u = utf16Char d ++ v) :
    c = d ∧ u = v := by
  have hvalid : ∀ e : Char, e.toNat < 0xD800 ∨ 0xDFFF < e.toNat ∧ e.toNat < 0x110000 :=
    fun e => e.valid
  have hc := hvalid c
  have hd := hvalid d
  simp only [utf16Char] at h
  split_ifs at h with hlow hlow' hlow'
  · simp only [List.cons_append, List.nil_append, List.cons.injEq] at h
    exact ⟨Char.toNat_inj.mp h.1, h.2⟩
  · simp only [List.cons_append, List.nil_append, List.cons.injEq] at h
    omega
  · simp only [List.cons_append, List.nil_append, List.cons.injEq] at h
    omega
  · simp only [List.cons_append, List.nil_append, List.cons.injEq] at h
    exact ⟨Char.toNat_inj.mp (by omega), h.2.2⟩

lemma utf16_injective {cs ds : List Char} (h : utf16 cs = utf16 ds) : cs = ds := by
  have hne : ∀ c, utf16Char c ≠ [] := by
    intro c
    rw [utf16Char]
    split_ifs <;> simp
  induction cs generalizing ds with
  | nil =>
    cases ds with
    | nil => rfl
    | cons d ds => exact absurd (List.append_eq_nil_iff.mp h.symm).1 (hne d)
  | cons c cs ih =>
    cases ds with
    | nil => exact absurd (List.append_eq_nil_iff.mp h).1 (hne c)
    | cons d ds =>
      obtain ⟨rfl, hrest⟩ := utf16Char_cancel h
      rw [ih hrest]

/-- An escaping of bytes that replaces ASCII bytes by ASCII text and keeps all others. -/
structure IsEscaping (f : Byte → CString) : Prop where
  ascii : ∀ b, b < 128 → f b ≠ [] ∧ ∀ a ∈ f b, a < 128
  high : ∀ b, 128 ≤ b → f b = [b]

lemma IsEscaping.flatMap_high {f : Byte → CString} (hf : IsEscaping f) {l : CString}
    (hl : ∀ b ∈ l, 128 ≤ b) : l.flatMap f = l := by
  rw [List.flatMap_congr fun b hb => hf.high b (hl b hb), List.flatMap_singleton']

/-- A run of bytes that are not ASCII was there before the escaping. -/
lemma IsEscaping.of_high_append {f : Byte → CString} (hf : IsEscaping f) {m t l r : CString}
    {b : Byte} (hb : b < 128) (hl : ∀ a ∈ l, 128 ≤ a) (h : m.flatMap f ++ b :: t = l ++ r) :
    ∃ m', m = l ++ m' ∧ r = m'.flatMap f ++ b :: t := by
  induction l generalizing m with
  | nil => exact ⟨m, rfl, h.symm⟩
  | cons a l ih =>
    have ha := hl a List.mem_cons_self
    cases m with
    | nil =>
      obtain ⟨rfl, -⟩ := List.cons.inj h
      exact absurd hb (UInt8.not_lt.mpr ha)
    | cons d m =>
      rw [List.flatMap_cons, List.append_assoc] at h
      by_cases hd : d < 128
      · obtain ⟨hne, hascii⟩ := hf.ascii d hd
        obtain ⟨e, es, hes⟩ := List.exists_cons_of_ne_nil hne
        rw [hes] at h hascii
        obtain ⟨rfl, -⟩ := List.cons.inj h
        exact absurd (hascii e List.mem_cons_self) (UInt8.not_lt.mpr ha)
      · rw [hf.high d (UInt8.not_lt.mp hd)] at h
        obtain ⟨rfl, hrest⟩ := List.cons.inj h
        obtain ⟨m', rfl, hr⟩ := ih (fun a' ha' => hl a' (List.mem_cons_of_mem _ ha')) hrest
        exact ⟨m', rfl, hr⟩

/-- What was escaped is UTF-8 if the escaped text is. -/
lemma IsEscaping.isUtf8_of {f : Byte → CString} (hf : IsEscaping f) {m t : CString} {b : Byte}
    (hb : b < 128) (h : IsUtf8 (m.flatMap f ++ b :: t)) : IsUtf8 m := by
  -- a character may take several bytes of `m`
  induction hlen : m.length using Nat.strong_induction_on generalizing m with
  | _ n ih =>
    cases m with
    | nil => exact isUtf8_nil
    | cons d m =>
      by_cases hd : d < 128
      · have hone : IsUtf8 [d] := isUtf8_of_ascii (by simpa using hd)
        rw [List.flatMap_cons, List.append_assoc] at h
        exact hone.append (ih m.length (by simp at hlen; omega) (h.of_ascii_append (hf.ascii d hd).2)
          rfl)
      · have hhead : (d :: m).flatMap f ++ b :: t = d :: (m.flatMap f ++ b :: t) := by
          rw [List.flatMap_cons, hf.high d (UInt8.not_lt.mp hd)]
          rfl
        rw [hhead] at h
        rcases h.cases_cons with ⟨hascii, -⟩ | ⟨l, r, hne, hhigh, hl, hr, heq⟩
        · exact absurd hascii hd
        · rw [← hhead] at heq
          obtain ⟨m', hm, rfl⟩ := hf.of_high_append hb hhigh heq
          rw [hm] at hlen ⊢
          have hpos := List.length_pos_of_ne_nil hne
          rw [List.length_append] at hlen
          exact hl.append (ih m'.length (by omega) hr rfl)

/-! ### The scanner -/

/-- Where the scanner is: in the text, in a string, or behind a backslash. -/
inductive Mode where
  | text
  | string
  | escape
  deriving DecidableEq, Repr

/-- The brackets that must still close, and the mode. -/
structure Scan where
  closers : List Byte
  mode : Mode
  deriving DecidableEq, Repr

/-- One byte; `none` when it cannot stand there. -/
def scanByte (st : Scan) (b : Byte) : Option Scan :=
  match st.mode with
  | .text   =>
    if b = chr '"' then some ⟨st.closers, .string⟩
    else if b = chr '[' then some ⟨chr ']' :: st.closers, .text⟩
    else if b = chr '{' then some ⟨chr '}' :: st.closers, .text⟩
    else if b = chr ']' ∨ b = chr '}' then
      match st.closers with
      | []           => none
      | c :: closers => if b = c then some ⟨closers, .text⟩ else none
    else some st
  | .string =>
    if b < 32 then none
    else if b = chr '"' then some ⟨st.closers, .text⟩
    else if b = chr '\\' then some ⟨st.closers, .escape⟩
    else some st
  | .escape => if b < 32 then none else some ⟨st.closers, .string⟩

def scan (st : Scan) (s : CString) : Option Scan := s.foldlM scanByte st

variable {st st' : Scan} {s t : CString} {closers : List Byte}

@[simp]
lemma scan_nil : scan st [] = some st := rfl

lemma scan_cons (b : Byte) (s : CString) : scan st (b :: s) = (scanByte st b).bind (scan · s) := by
  simp only [scan, List.foldlM_cons]
  rfl

lemma scan_append (s t : CString) : scan st (s ++ t) = (scan st s).bind (scan · t) := by
  simp only [scan, List.foldlM_append]
  rfl

lemma scan_append_of (hs : scan st s = some st') : scan st (s ++ t) = scan st' t := by
  rw [scan_append, hs]
  rfl

/-- The bytes that stand for themselves outside strings. -/
def isPlain (b : Byte) : Bool :=
  b < 128 && b != chr '"' && b != chr '[' && b != chr ']' && b != chr '{' && b != chr '}'

lemma scan_plain (h : ∀ b ∈ s, isPlain b = true) :
    scan ⟨closers, .text⟩ s = some ⟨closers, .text⟩ := by
  induction s with
  | nil => rfl
  | cons b s ih =>
    have hb := h b List.mem_cons_self
    simp only [isPlain, Bool.and_eq_true, bne_iff_ne] at hb
    obtain ⟨⟨⟨⟨⟨-, h₁⟩, h₂⟩, h₃⟩, h₄⟩, h₅⟩ := hb
    rw [scan_cons, scanByte]
    simp only [h₁, h₂, h₃, h₄, h₅, if_false, or_self]
    exact ih fun b' hb' => h b' (List.mem_cons_of_mem b hb')

/-- The bytes of an unescaped character. -/
lemma scanByte_unescaped {b : Byte} (h : 32 ≤ b) (hquote : b ≠ chr '"') (hbackslash : b ≠ chr '\\') :
    scanByte ⟨closers, .string⟩ b = some ⟨closers, .string⟩ := by
  rw [scanByte]
  simp only [hquote, hbackslash, if_false, UInt8.not_lt.mpr h]

lemma scan_unescaped (h : ∀ b ∈ s, 32 ≤ b ∧ b ≠ chr '"' ∧ b ≠ chr '\\') :
    scan ⟨closers, .string⟩ s = some ⟨closers, .string⟩ := by
  induction s with
  | nil => rfl
  | cons b s ih =>
    obtain ⟨hlow, hquote, hbackslash⟩ := h b List.mem_cons_self
    rw [scan_cons, scanByte_unescaped hlow hquote hbackslash]
    exact ih fun b' hb' => h b' (List.mem_cons_of_mem b hb')

lemma hexDigit_facts {b : Byte} : (hexDigit b).isSome = true →
    b < 128 ∧ 32 ≤ b ∧ b ≠ chr '"' ∧ b ≠ chr '\\' := by
  revert b
  apply forall_byte
  decide +kernel

lemma escapeUnit_facts {b : Byte} : (escapeUnit b).isSome = true → b < 128 ∧ 32 ≤ b := by
  revert b
  apply forall_byte
  decide +kernel

/-- The encoding of an unescaped character. -/
lemma encode_unescaped {c : Char} (hc : 0x20 ≤ c.toNat) (hquote : c ≠ '"') (hbackslash : c ≠ '\\') :
    ∀ b ∈ String.utf8EncodeChar c, 32 ≤ b ∧ b ≠ chr '"' ∧ b ≠ chr '\\' := by
  intro b hb
  rcases utf8EncodeChar_cases c with ⟨hascii, heq⟩ | ⟨-, hhigh⟩
  · rw [heq, List.mem_singleton] at hb
    subst hb
    refine ⟨?_, fun h => hquote (chr_injective hascii (by decide) h),
      fun h => hbackslash (chr_injective hascii (by decide) h)⟩
    rw [UInt8.le_iff_toNat_le, toNat_chr hascii]
    exact hc
  · have hb := hhigh b hb
    refine ⟨UInt8.le_trans (by decide) hb, ?_, ?_⟩
    · rintro rfl
      exact absurd hb (by decide)
    · rintro rfl
      exact absurd hb (by decide)

lemma IsChars.scan {u : List Nat} (h : IsChars s u) :
    Json.scan ⟨closers, .string⟩ s = some ⟨closers, .string⟩ := by
  induction h with
  | nil => rfl
  | unescaped c hc hquote hbackslash _ ih =>
    rw [scan_append_of (scan_unescaped (encode_unescaped hc hquote hbackslash))]
    exact ih
  | escape hb _ ih =>
    have hlow := (escapeUnit_facts (by rw [hb]; rfl)).2
    rw [scan_cons, show scanByte ⟨closers, .string⟩ (chr '\\') = some ⟨closers, .escape⟩ from rfl]
    simp only [Option.bind_some, scan_cons, scanByte, UInt8.not_lt.mpr hlow, if_false]
    exact ih
  | @unicode s u b₁ b₂ b₃ b₄ _ _ _ _ h₁ h₂ h₃ h₄ _ ih =>
    have hdigits : ∀ b ∈ [b₁, b₂, b₃, b₄], 32 ≤ b ∧ b ≠ chr '"' ∧ b ≠ chr '\\' := by
      intro b hb
      simp only [List.mem_cons, List.not_mem_nil, or_false] at hb
      apply And.right
      apply hexDigit_facts
      rcases hb with rfl | rfl | rfl | rfl
      · rw [h₁]; rfl
      · rw [h₂]; rfl
      · rw [h₃]; rfl
      · rw [h₄]; rfl
    have hstart : Json.scan ⟨closers, .string⟩ [chr '\\', chr 'u'] = some ⟨closers, .string⟩ := rfl
    have hprefix := (scan_append_of hstart).trans (@scan_unescaped _ closers hdigits)
    exact (@scan_append_of _ _ _ s hprefix).trans ih

/-- A complete piece of a text: the scanner passes over it, and it is UTF-8. -/
structure Complete (s : CString) : Prop where
  scan : ∀ closers, Json.scan ⟨closers, .text⟩ s = some ⟨closers, .text⟩
  utf8 : IsUtf8 s

lemma Complete.append (hs : Complete s) (ht : Complete t) : Complete (s ++ t) := by
  refine ⟨?_, hs.utf8.append ht.utf8⟩
  intro closers
  rw [scan_append_of (hs.scan closers)]
  exact ht.scan closers

lemma complete_plain (h : ∀ b ∈ s, isPlain b = true) : Complete s := by
  refine ⟨fun _ => scan_plain h, isUtf8_of_ascii ?_⟩
  intro b hb
  have hplain := h b hb
  simp only [isPlain, Bool.and_eq_true, decide_eq_true_eq] at hplain
  exact hplain.1.1.1.1.1

/-- If the scanner gets over the piece, it is where it was. -/
def Neutral (s : CString) : Prop :=
  ∀ closers st, scan ⟨closers, .text⟩ s = some st → st = ⟨closers, .text⟩

lemma Neutral.append (hs : Neutral s) (ht : Neutral t) : Neutral (s ++ t) := by
  intro closers st h
  rw [scan_append] at h
  obtain ⟨st', hst', h⟩ := Option.bind_eq_some_iff.mp h
  rw [hs closers st' hst'] at h
  exact ht closers st h

lemma neutral_of_scan (h : ∀ closers, scan ⟨closers, .text⟩ s = some ⟨closers, .text⟩) :
    Neutral s := by
  intro closers st hst
  rw [h closers] at hst
  exact (Option.some.inj hst).symm

/-- A pair of brackets around a piece. -/
lemma Neutral.bracket (hs : Neutral s) : Neutral (chr '[' :: s ++ [chr ']']) := by
  intro closers st h
  rw [List.cons_append, scan_cons] at h
  change scan ⟨chr ']' :: closers, .text⟩ (s ++ [chr ']']) = some st at h
  rw [scan_append] at h
  obtain ⟨st', hst', h⟩ := Option.bind_eq_some_iff.mp h
  rw [hs _ st' hst'] at h
  exact (Option.some.inj h).symm

/-- The array is still open where the object closes. -/
lemma scan_unclosed (hs : Neutral s) (ht : Neutral t) :
    scan ⟨[], .text⟩ (chr '{' :: s ++ chr '[' :: t ++ [chr '}']) = none := by
  rw [Option.eq_none_iff_forall_ne_some]
  intro st h
  rw [scan_append] at h
  obtain ⟨st₂, h₂, h⟩ := Option.bind_eq_some_iff.mp h
  rw [List.cons_append, scan_cons] at h₂
  change scan ⟨[chr '}'], .text⟩ (s ++ chr '[' :: t) = some st₂ at h₂
  rw [scan_append] at h₂
  obtain ⟨st₁, h₁, h₂⟩ := Option.bind_eq_some_iff.mp h₂
  rw [hs _ st₁ h₁, scan_cons] at h₂
  rw [ht _ st₂ h₂] at h
  cases h

/-! ### Every text is complete -/

lemma IsChars.utf8 {u : List Nat} (h : IsChars s u) : IsUtf8 s := by
  induction h with
  | nil => exact isUtf8_nil
  | unescaped c _ _ _ _ ih =>
    have hc : IsUtf8 (String.utf8EncodeChar c) := ⟨[c], by simp [Json.utf8]⟩
    exact hc.append ih
  | @escape s u b n hb _ ih =>
    have hascii := (escapeUnit_facts (by rw [hb]; rfl)).1
    have hpair : IsUtf8 [chr '\\', b] := isUtf8_of_ascii (by simp [hascii]; decide)
    exact hpair.append ih
  | @unicode s u b₁ b₂ b₃ b₄ _ _ _ _ h₁ h₂ h₃ h₄ _ ih =>
    have hascii : ∀ b n, hexDigit b = some n → b < 128 := by
      intro b n hb
      exact (hexDigit_facts (by rw [hb]; rfl)).1
    have hescape : IsUtf8 [chr '\\', chr 'u', b₁, b₂, b₃, b₄] := isUtf8_of_ascii (by
      simp [hascii _ _ h₁, hascii _ _ h₂, hascii _ _ h₃, hascii _ _ h₄]
      decide)
    exact hescape.append ih

lemma IsString.complete {u : List Nat} (h : IsString s u) : Complete s := by
  cases h with
  | @quoted s _ h =>
    have hquote : IsUtf8 [chr '"'] := isUtf8_of_ascii (forall_mem_of_all rfl)
    refine ⟨?_, (hquote.append h.utf8).append hquote⟩
    intro closers
    rw [List.cons_append, scan_cons]
    change scan ⟨closers, .string⟩ (s ++ [chr '"']) = _
    rw [scan_append_of h.scan]
    rfl

/-- A pair of brackets around a complete piece. -/
lemma Complete.bracket (hs : Complete s) {opener closer : Byte}
    (hpair : (opener = chr '[' ∧ closer = chr ']') ∨ (opener = chr '{' ∧ closer = chr '}')) :
    Complete (opener :: s ++ [closer]) := by
  have hascii : IsUtf8 [opener] ∧ IsUtf8 [closer] := by
    rcases hpair with ⟨rfl, rfl⟩ | ⟨rfl, rfl⟩ <;>
      exact ⟨isUtf8_of_ascii (forall_mem_of_all rfl), isUtf8_of_ascii (forall_mem_of_all rfl)⟩
  refine ⟨?_, (hascii.1.append hs.utf8).append hascii.2⟩
  intro closers
  have hopen : scanByte ⟨closers, .text⟩ opener = some ⟨closer :: closers, .text⟩ := by
    rcases hpair with ⟨rfl, rfl⟩ | ⟨rfl, rfl⟩ <;> rfl
  rw [List.cons_append, scan_cons, hopen, Option.bind_some, scan_append_of (hs.scan _)]
  rcases hpair with ⟨rfl, rfl⟩ | ⟨rfl, rfl⟩ <;> rfl

lemma IsWhitespace.complete (h : IsWhitespace s) : Complete s := by
  apply complete_plain
  intro b hb
  rcases h b hb with rfl | rfl | rfl | rfl <;> rfl

lemma isPlain_of_isdigit {b : Byte} : isdigit b = true → isPlain b = true := by
  revert b
  apply forall_byte
  decide +kernel

lemma IsDigits.complete (h : IsDigits s) : Complete s :=
  complete_plain fun b hb => isPlain_of_isdigit (h.2 b hb)

lemma IsNumber.complete (h : IsNumber s) : Complete s := by
  obtain ⟨minus, int, frac, exp, hminus, hint, hfrac, hexp, rfl⟩ := h
  have hnil : Complete [] := complete_plain (by simp)
  have hone : ∀ b, isPlain b = true → Complete [b] := by
    intro b hb
    exact complete_plain (by simpa using hb)
  refine ((Complete.append ?_ ?_).append ?_).append ?_
  · rcases hminus with rfl | rfl
    · exact hnil
    · exact hone _ rfl
  · rcases hint with rfl | ⟨hdigits, -⟩
    · exact hone _ rfl
    · exact hdigits.complete
  · rcases hfrac with rfl | ⟨d, hd, rfl⟩
    · exact hnil
    · exact (hone (chr '.') rfl).append hd.complete
  · rcases hexp with rfl | ⟨e, sign, d, he, hsign, hd, rfl⟩
    · exact hnil
    · have hsign' : Complete sign := by
        rcases hsign with rfl | rfl | rfl
        · exact hnil
        · exact hone _ rfl
        · exact hone _ rfl
      refine (hone e ?_).append (hsign'.append hd.complete)
      rcases he with rfl | rfl <;> rfl

/-- The scanner passes over every phrase of the grammar. -/
lemma Derives.complete {p : Phrase} (h : Derives p s) : Complete s := by
  have hcomma : Complete [chr ','] := complete_plain (forall_mem_of_all rfl)
  have hcolon : Complete [chr ':'] := complete_plain (forall_mem_of_all rfl)
  induction h with
  | null => exact complete_plain (forall_mem_of_all rfl)
  | true => exact complete_plain (forall_mem_of_all rfl)
  | false => exact complete_plain (forall_mem_of_all rfl)
  | number h => exact h.complete
  | string h => exact h.complete
  | emptyArray hw => exact hw.complete.bracket (.inl ⟨rfl, rfl⟩)
  | array _ ih => exact ih.bracket (.inl ⟨rfl, rfl⟩)
  | emptyObject hw => exact hw.complete.bracket (.inr ⟨rfl, rfl⟩)
  | object _ ih => exact ih.bracket (.inr ⟨rfl, rfl⟩)
  | element hw _ hw' ih => exact (hw.complete.append ih).append hw'.complete
  | moreElements _ _ ih ih' => exact ih.append (hcomma.append ih')
  | member hw hk hw' _ ih =>
    exact ((hw.complete.append hk.complete).append hw'.complete).append (hcolon.append ih)
  | moreMembers _ _ ih ih' => exact ih.append (hcomma.append ih')

lemma IsText.scan {v : Value} (h : IsText s v) :
    Json.scan ⟨[], .text⟩ s = some ⟨[], .text⟩ := h.complete.scan []

/-! ### Decimal numbers -/

lemma natDigits_head {n : Nat} (h : 0 < n) : (natDigits n).head? ≠ some (chr '0') := by
  induction n using Nat.strong_induction_on with
  | _ n ih =>
    by_cases hn : n < 10
    · have hdigit : ∀ d : Fin 10, 0 < d.val → chr d.val.digitChar ≠ chr '0' := by decide
      rw [natDigits, Nat.toDigits_of_lt_base hn]
      simpa using hdigit ⟨n, hn⟩ h
    · have hstep : natDigits n = natDigits (n / 10) ++ [chr (n % 10).digitChar] := by
        simp [natDigits, Nat.toDigits_of_base_le (by decide : 1 < 10) (by omega : 10 ≤ n)]
      rw [hstep, List.head?_append_of_ne_nil _ (natDigits_ne_nil _)]
      exact ih (n / 10) (by omega) (by omega)

/-- What `printf` writes for an integer is a number. -/
lemma isNumber_printInt (n : Int) : IsNumber (printInt n) := by
  have hint : IsInteger (natDigits n.natAbs) := by
    rcases Nat.eq_zero_or_pos n.natAbs with h0 | hpos
    · rw [h0]
      exact .inl rfl
    · exact .inr ⟨⟨natDigits_ne_nil _, isdigit_of_mem_natDigits⟩, natDigits_head hpos⟩
  by_cases hn : n < 0
  · exact ⟨[chr '-'], _, [], [], .inr rfl, hint, .inl rfl, .inl rfl, by simp [printInt, hn]⟩
  · exact ⟨[], _, [], [], .inl rfl, hint, .inl rfl, .inl rfl, by simp [printInt, hn]⟩

end MiniDbms.Json
