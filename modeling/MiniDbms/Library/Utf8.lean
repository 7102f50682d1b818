import Mathlib

/-!
# Well-formed UTF-8

The byte sequences that encode a scalar value, by their lead and continuation bytes: no overlong
sequences, no surrogates, nothing above U+10FFFF.
-/

namespace MiniDbms

/-- `Encodes bs n`: the bytes are well-formed and stand for the scalar value `n`. -/
inductive Encodes : List UInt8 → Nat → Prop
  | one {a : UInt8} {n : Nat} (ha : a.toNat < 0x80) (hn : n = a.toNat) : Encodes [a] n
  | two {a b : UInt8} {n : Nat} (ha : 0xC2 ≤ a.toNat ∧ a.toNat ≤ 0xDF)
      (hb : 0x80 ≤ b.toNat ∧ b.toNat ≤ 0xBF)
      (hn : n = (a.toNat - 0xC0) * 64 + (b.toNat - 0x80)) : Encodes [a, b] n
  | three {a b c : UInt8} {n : Nat} (ha : 0xE0 ≤ a.toNat ∧ a.toNat ≤ 0xEF)
      (hb : 0x80 ≤ b.toNat ∧ b.toNat ≤ 0xBF) (hc : 0x80 ≤ c.toNat ∧ c.toNat ≤ 0xBF)
      (hshortest : a.toNat = 0xE0 → 0xA0 ≤ b.toNat) (hsurrogate : a.toNat = 0xED → b.toNat < 0xA0)
      (hn : n = (a.toNat - 0xE0) * 4096 + (b.toNat - 0x80) * 64 + (c.toNat - 0x80)) :
      Encodes [a, b, c] n
  | four {a b c d : UInt8} {n : Nat} (ha : 0xF0 ≤ a.toNat ∧ a.toNat ≤ 0xF4)
      (hb : 0x80 ≤ b.toNat ∧ b.toNat ≤ 0xBF) (hc : 0x80 ≤ c.toNat ∧ c.toNat ≤ 0xBF)
      (hd : 0x80 ≤ d.toNat ∧ d.toNat ≤ 0xBF)
      (hshortest : a.toNat = 0xF0 → 0x90 ≤ b.toNat) (hlargest : a.toNat = 0xF4 → b.toNat < 0x90)
      (hn : n = (a.toNat - 0xF0) * 262144 + (b.toNat - 0x80) * 4096 + (c.toNat - 0x80) * 64 +
        (d.toNat - 0x80)) :
      Encodes [a, b, c, d] n

namespace Encodes

/-- A character with a given scalar value. -/
lemma exists_char {n : Nat} (h : n < 0xD800 ∨ 0xDFFF < n ∧ n < 0x110000) :
    ∃ c : Char, c.toNat = n :=
  have hsize : n < UInt32.size := by
    unfold UInt32.size
    omega
  ⟨⟨UInt32.ofNatLT n hsize, by simpa [UInt32.isValidChar, Nat.isValidChar] using h⟩, rfl⟩

lemma ofNat_eq {n : Nat} {b : UInt8} (h : n = b.toNat) : UInt8.ofNat n = b := by
  rw [h, UInt8.ofNat_toNat]

lemma toNat_ofNat {n : Nat} (h : n < 256) : (UInt8.ofNat n).toNat = n := by
  simpa using h

lemma exists_encode {bs : List UInt8} {n : Nat} (h : Encodes bs n) :
    ∃ c : Char, bs = String.utf8EncodeChar c ∧ c.toNat = n := by
  cases h with
  | @one a _ ha hn =>
    obtain ⟨x, hx⟩ := @exists_char n (by omega)
    refine ⟨x, ?_, hx⟩
    rw [String.utf8EncodeChar, Char.toNat_val, hx, if_pos (by omega), ofNat_eq hn]
  | @two a b _ ha hb hn =>
    obtain ⟨x, hx⟩ := @exists_char n (by omega)
    refine ⟨x, ?_, hx⟩
    rw [String.utf8EncodeChar, Char.toNat_val, hx, if_neg (by omega), if_pos (by omega),
      @ofNat_eq _ a (by omega), @ofNat_eq _ b (by omega)]
  | @three a b c _ ha hb hc hshortest hsurrogate hn =>
    obtain ⟨x, hx⟩ := @exists_char n (by omega)
    refine ⟨x, ?_, hx⟩
    rw [String.utf8EncodeChar, Char.toNat_val, hx, if_neg (by omega), if_neg (by omega),
      if_pos (by omega), @ofNat_eq _ a (by omega), @ofNat_eq _ b (by omega),
      @ofNat_eq _ c (by omega)]
  | @four a b c d _ ha hb hc hd hshortest hlargest hn =>
    obtain ⟨x, hx⟩ := @exists_char n (by omega)
    refine ⟨x, ?_, hx⟩
    rw [String.utf8EncodeChar, Char.toNat_val, hx, if_neg (by omega), if_neg (by omega),
      if_neg (by omega), @ofNat_eq _ a (by omega), @ofNat_eq _ b (by omega),
      @ofNat_eq _ c (by omega), @ofNat_eq _ d (by omega)]

lemma of_char (c : Char) : Encodes (String.utf8EncodeChar c) c.toNat := by
  have hvalid : c.toNat < 0xD800 ∨ 0xDFFF < c.toNat ∧ c.toNat < 0x110000 := c.valid
  rw [String.utf8EncodeChar, Char.toNat_val]
  generalize c.toNat = n at hvalid ⊢
  split_ifs with hone htwo hthree
  · have ha := @toNat_ofNat n (by omega)
    exact .one (by omega) (by omega)
  · have ha := @toNat_ofNat (n / 64 % 32 + 192) (by omega)
    have hb := @toNat_ofNat (n % 64 + 128) (by omega)
    exact .two (by omega) (by omega) (by omega)
  · have ha := @toNat_ofNat (n / 4096 % 16 + 224) (by omega)
    have hb := @toNat_ofNat (n / 64 % 64 + 128) (by omega)
    have hc := @toNat_ofNat (n % 64 + 128) (by omega)
    exact .three (by omega) (by omega) (by omega) (by omega) (by omega) (by omega)
  · have ha := @toNat_ofNat (n / 262144 % 8 + 240) (by omega)
    have hb := @toNat_ofNat (n / 4096 % 64 + 128) (by omega)
    have hc := @toNat_ofNat (n / 64 % 64 + 128) (by omega)
    have hd := @toNat_ofNat (n % 64 + 128) (by omega)
    exact .four (by omega) (by omega) (by omega) (by omega) (by omega) (by omega) (by omega)

lemma cons {bs : List UInt8} {n : Nat} (h : Encodes bs n) (hn : n ≠ 0) :
    ∃ a bs', bs = a :: bs' ∧ a ≠ 0 := by
  cases h with
  | @one a _ ha hn' =>
    refine ⟨a, [], rfl, ?_⟩
    rintro rfl
    exact hn hn'
  | @two a b _ ha => exact ⟨a, [b], rfl, by rintro rfl; simp at ha⟩
  | @three a b c _ ha => exact ⟨a, [b, c], rfl, by rintro rfl; simp at ha⟩
  | @four a b c d _ ha => exact ⟨a, [b, c, d], rfl, by rintro rfl; simp at ha⟩

/-- No text begins with two different sequences: the lead byte says how long the sequence is. -/
lemma unique {bs bs' left left' : List UInt8} {n n' : Nat} (h : Encodes bs n)
    (h' : Encodes bs' n') (happend : bs ++ left = bs' ++ left') : bs = bs' ∧ n = n' := by
  cases h <;> cases h' <;> cases happend <;> first | exact ⟨rfl, by omega⟩ | omega

end Encodes

/-- The well-formed sequences are the encodings of the scalar values. -/
theorem encodes_iff {bs : List UInt8} {n : Nat} :
    Encodes bs n ↔ ∃ c : Char, bs = String.utf8EncodeChar c ∧ c.toNat = n := by
  constructor
  · exact Encodes.exists_encode
  · rintro ⟨c, rfl, rfl⟩
    exact .of_char c

/-! ### Prefixes -/

/-- The first `n` bytes are there and are continuation bytes. -/
def Continues (rest : List UInt8) (n : Nat) : Prop :=
  n ≤ rest.length ∧ ∀ b ∈ rest.take n, 0x80 ≤ b.toNat ∧ b.toNat ≤ 0xBF

instance (rest : List UInt8) (n : Nat) : Decidable (Continues rest n) :=
  inferInstanceAs (Decidable (_ ∧ _))

lemma continues_cons {b : UInt8} {rest : List UInt8} {n : Nat} :
    Continues (b :: rest) (n + 1) ↔ (0x80 ≤ b.toNat ∧ b.toNat ≤ 0xBF) ∧ Continues rest n := by
  rw [Continues, Continues, List.length_cons, List.take_succ_cons, List.forall_mem_cons,
    Nat.add_le_add_iff_right]
  exact and_left_comm

lemma Continues.exists_cons {rest : List UInt8} {n : Nat} (h : Continues rest (n + 1)) :
    ∃ b left, rest = b :: left ∧ (0x80 ≤ b.toNat ∧ b.toNat ≤ 0xBF) ∧ Continues left n := by
  obtain ⟨b, left, rfl⟩ := List.exists_cons_of_length_pos ((Nat.succ_pos n).trans_le h.1)
  exact ⟨b, left, rfl, continues_cons.mp h⟩

/-- What holds of a text that begins with a well-formed sequence. -/
lemma encodes_prefix {a : UInt8} {rest bs left : List UInt8} {n : Nat} (h : Encodes bs n)
    (htext : a :: rest = bs ++ left) :
    a.toNat < 0x80 ∨ ((0xC2 ≤ a.toNat ∧ a.toNat ≤ 0xDF) ∧ Continues rest 1) ∨
    ((0xE0 ≤ a.toNat ∧ a.toNat ≤ 0xEF) ∧ Continues rest 2 ∧ ∀ b ∈ rest.head?,
      (a.toNat = 0xE0 → 0xA0 ≤ b.toNat) ∧ (a.toNat = 0xED → b.toNat < 0xA0)) ∨
    ((0xF0 ≤ a.toNat ∧ a.toNat ≤ 0xF4) ∧ Continues rest 3 ∧ ∀ b ∈ rest.head?,
      (a.toNat = 0xF0 → 0x90 ≤ b.toNat) ∧ (a.toNat = 0xF4 → b.toNat < 0x90)) := by
  cases h with
  | one ha =>
    cases htext
    exact .inl ha
  | two ha hb =>
    cases htext
    exact .inr (.inl ⟨ha, by simp [Continues, hb]⟩)
  | three ha hb hc hshortest hsurrogate =>
    cases htext
    refine .inr (.inr (.inl ⟨ha, by simp [Continues, hb, hc], ?_⟩))
    rintro _ ⟨⟩
    exact ⟨hshortest, hsurrogate⟩
  | four ha hb hc hd hshortest hlargest =>
    cases htext
    refine .inr (.inr (.inr ⟨ha, by simp [Continues, hb, hc, hd], ?_⟩))
    rintro _ ⟨⟩
    exact ⟨hshortest, hlargest⟩

end MiniDbms
