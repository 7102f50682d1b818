import MiniDbms.Library.CString
import MiniDbms.Library.Utf8

/-!
# Display width in `utils.c`

A read of a string is `none` behind its terminator, so that a run that gives a value has stayed
within the string. Well-formed UTF-8 is decoded as it should be, and the width is right as long as
it is an `int`.
-/

namespace MiniDbms

/-! ### The functions -/

/-- `text[i]`, the terminator included. -/
def byteAt (text : CString) (i : Nat) : Option Byte := (text ++ [0])[i]?

/-- `(text[i] & 0xC0U) == 0x80U` for `n` indices from `i` on, the first that fails being the last
that is read. -/
def areContinuations (text : CString) : (i n : Nat) → Option Bool
  | _, 0     => some true
  | i, n + 1 => do
    let b ← byteAt text i
    if b &&& 0xC0 = 0x80 then areContinuations text (i + 1) n else some false

/-- `utils_utf8_decode`: the bytes consumed and the code point, or `none` for `FAILURE`. The lead
bytes of the branches differ, so that no later branch is taken when the continuation bytes fail. -/
def utilsUtf8Decode (text : CString) : Option (Option (Nat × Nat)) := do
  let first ← byteAt text 0
  if first = 0 then some (some (0, 0))
  else if first < 0x80 then some (some (1, first.toNat))
  else if 0xC2 ≤ first ∧ first ≤ 0xDF then
    if ← areContinuations text 1 1 then
      let second ← byteAt text 1
      some (some (2, (first &&& 0x1F).toNat <<< 6 ||| (second &&& 0x3F).toNat))
    else some none
  else if 0xE0 ≤ first ∧ first ≤ 0xEF then
    if ← areContinuations text 1 2 then
      let second ← byteAt text 1
      let third ← byteAt text 2
      if (first = 0xE0 ∧ second < 0xA0) ∨ (first = 0xED ∧ 0xA0 ≤ second) then some none
      else
        some (some (3, (first &&& 0x0F).toNat <<< 12 ||| (second &&& 0x3F).toNat <<< 6 |||
          (third &&& 0x3F).toNat))
    else some none
  else if 0xF0 ≤ first ∧ first ≤ 0xF4 then
    if ← areContinuations text 1 3 then
      let second ← byteAt text 1
      let third ← byteAt text 2
      let fourth ← byteAt text 3
      if (first = 0xF0 ∧ second < 0x90) ∨ (first = 0xF4 ∧ 0x90 ≤ second) then some none
      else
        some (some (4, (first &&& 0x07).toNat <<< 18 ||| (second &&& 0x3F).toNat <<< 12 |||
          (third &&& 0x3F).toNat <<< 6 ||| (fourth &&& 0x3F).toNat))
    else some none
  else some none

/-- `utils_is_zero_width_codepoint` -/
def utilsIsZeroWidthCodepoint (codepoint : Nat) : Bool :=
  (0x0300 ≤ codepoint && codepoint ≤ 0x036F) ||
  (0x1AB0 ≤ codepoint && codepoint ≤ 0x1AFF) ||
  (0x1DC0 ≤ codepoint && codepoint ≤ 0x1DFF) ||
  (0x20D0 ≤ codepoint && codepoint ≤ 0x20FF) ||
  (0xFE20 ≤ codepoint && codepoint ≤ 0xFE2F)

/-- `utils_is_wide_codepoint` -/
def utilsIsWideCodepoint (codepoint : Nat) : Bool :=
  codepoint == 0x2329 || codepoint == 0x232A ||
  (0x1100 ≤ codepoint &&
    (codepoint ≤ 0x115F ||
     codepoint == 0x303F ||
     (0x2E80 ≤ codepoint && codepoint ≤ 0xA4CF) ||
     (0xAC00 ≤ codepoint && codepoint ≤ 0xD7A3) ||
     (0xF900 ≤ codepoint && codepoint ≤ 0xFAFF) ||
     (0xFE10 ≤ codepoint && codepoint ≤ 0xFE19) ||
     (0xFE30 ≤ codepoint && codepoint ≤ 0xFE6F) ||
     (0xFF00 ≤ codepoint && codepoint ≤ 0xFF60) ||
     (0xFFE0 ≤ codepoint && codepoint ≤ 0xFFE6) ||
     (0x1F300 ≤ codepoint && codepoint ≤ 0x1FAFF) ||
     (0x20000 ≤ codepoint && codepoint ≤ 0x3FFFD)))

/-- What the loop of `utils_display_width` adds for a code point. -/
def codepointWidth (codepoint : Nat) : Int :=
  if codepoint = 9 then 4
  else if codepoint < 0x20 ∨ (0x7F ≤ codepoint ∧ codepoint < 0xA0) then 0
  else if utilsIsZeroWidthCodepoint codepoint then 0
  else if utilsIsWideCodepoint codepoint then 2
  else 1

/-- A decoded code point, or the next byte as it is where there is none. -/
def codepointOr (b : Byte) : Option (Nat × Nat) → Nat × Nat
  | some (consumed + 1, codepoint) => (consumed + 1, codepoint)
  | _                              => (1, b.toNat)

/-- The loop of `utils_display_width`; `none` stands for a read behind the terminator, or for more
rounds than the fuel admits. -/
def displayWidthLoop : (fuel : Nat) → (cursor : CString) → (width : Int) → Option Int
  | 0, _, _                  => none
  | fuel + 1, cursor, width => do
    let b ← byteAt cursor 0
    if b = 0 then some width
    else
      let decoded ← utilsUtf8Decode cursor
      let (consumed, codepoint) := codepointOr b decoded
      if cursor.length < consumed then none
      else displayWidthLoop fuel (cursor.drop consumed) (toInt (width + codepointWidth codepoint))

/-- `utils_display_width` -/
def utilsDisplayWidth (text : CString) : Option Int := displayWidthLoop (text.length + 1) text 0

/-! ### The widths of the scalar values -/

/-- The ranges of combining characters that take no cell. -/
def combiningRanges : List (Nat × Nat) :=
  [(0x0300, 0x036F), (0x1AB0, 0x1AFF), (0x1DC0, 0x1DFF), (0x20D0, 0x20FF), (0xFE20, 0xFE2F)]

/-- The ranges of characters that take two cells. -/
def wideRanges : List (Nat × Nat) :=
  [(0x1100, 0x115F), (0x2329, 0x232A), (0x2E80, 0xA4CF), (0xAC00, 0xD7A3), (0xF900, 0xFAFF),
    (0xFE10, 0xFE19), (0xFE30, 0xFE6F), (0xFF00, 0xFF60), (0xFFE0, 0xFFE6), (0x1F300, 0x1FAFF),
    (0x20000, 0x3FFFD)]

def InRanges (ranges : List (Nat × Nat)) (n : Nat) : Prop := ∃ r ∈ ranges, r.1 ≤ n ∧ n ≤ r.2

instance (ranges : List (Nat × Nat)) (n : Nat) : Decidable (InRanges ranges n) :=
  inferInstanceAs (Decidable (∃ r ∈ ranges, r.1 ≤ n ∧ n ≤ r.2))

/-- The cells of a character. -/
def scalarWidth (c : Char) : Int :=
  if c = '\t' then 4
  else if c.toNat < 0x20 ∨ InRanges [(0x7F, 0x9F)] c.toNat ∨ InRanges combiningRanges c.toNat then 0
  else if InRanges wideRanges c.toNat then 2
  else 1

lemma utilsIsZeroWidthCodepoint_iff (n : Nat) :
    utilsIsZeroWidthCodepoint n = true ↔ InRanges combiningRanges n := by
  simp [utilsIsZeroWidthCodepoint, InRanges, combiningRanges, or_assoc]

/-- U+303F is in one of the ranges, and all of them lie above U+1100. -/
lemma utilsIsWideCodepoint_iff (n : Nat) :
    utilsIsWideCodepoint n = true ↔ InRanges wideRanges n := by
  simp only [utilsIsWideCodepoint, InRanges, wideRanges, List.mem_cons, List.not_mem_nil,
    Bool.or_eq_true, Bool.and_eq_true, decide_eq_true_eq, beq_iff_eq, or_false, exists_eq_or_imp,
    exists_eq_left]
  omega

lemma codepointWidth_toNat (c : Char) : codepointWidth c.toNat = scalarWidth c := by
  have htab : c.toNat = 9 ↔ c = '\t' := by
    rw [← Char.toNat_inj]
    rfl
  have hcontrol : InRanges [(0x7F, 0x9F)] c.toNat ↔ 0x7F ≤ c.toNat ∧ c.toNat < 0xA0 := by
    simp [InRanges]
    omega
  simp only [codepointWidth, scalarWidth, htab, hcontrol, utilsIsZeroWidthCodepoint_iff,
    utilsIsWideCodepoint_iff]
  grind

/-! ### Decoding -/

lemma isContinuation_iff (b : Byte) : b &&& 0xC0 = 0x80 ↔ 0x80 ≤ b.toNat ∧ b.toNat ≤ 0xBF := by
  revert b
  apply forall_byte
  decide +kernel

/-- The bits of a lead byte and of a continuation byte. -/
lemma low_bits (b : Byte) : (b &&& 0x1F).toNat = b.toNat % 32 ∧ (b &&& 0x0F).toNat = b.toNat % 16 ∧
    (b &&& 0x07).toNat = b.toNat % 8 ∧ (b &&& 0x3F).toNat = b.toNat % 64 := by
  revert b
  apply forall_byte
  decide +kernel

lemma shiftLeft_or {high low i : Nat} (h : low < 2 ^ i) :
    high <<< i ||| low = high * 2 ^ i + low := by
  rw [← Nat.shiftLeft_add_eq_or_of_lt h, Nat.shiftLeft_eq]

lemma areContinuations_cons (a : Byte) (rest : CString) (i n : Nat) :
    areContinuations (a :: rest) (i + 1) n = areContinuations rest i n := by
  induction n generalizing i with
  | zero => rfl
  | succ n ih =>
    have hbyte : byteAt (a :: rest) (i + 1) = byteAt rest i := rfl
    rw [areContinuations, areContinuations, hbyte]
    simp only [ih]

/-- The check fails at the terminator at the latest. -/
lemma areContinuations_eq (a : Byte) (rest : CString) (n : Nat) :
    areContinuations (a :: rest) 1 n = some (decide (Continues rest n)) := by
  rw [areContinuations_cons]
  induction n generalizing rest with
  | zero => simp [areContinuations, Continues]
  | succ n ih =>
    cases rest with
    | nil => simp +decide [areContinuations, byteAt, Continues]
    | cons b rest =>
      have hbyte : byteAt (b :: rest) 0 = some b := rfl
      rw [areContinuations, hbyte]
      simp only [isContinuation_iff, Option.bind_eq_bind, Option.bind_some, continues_cons]
      split_ifs with hb
      · rw [areContinuations_cons, ih]
        simp only [hb, and_self, true_and]
      · simp only [hb, false_and, decide_false]

/-- What a text begins with, and what the decoder makes of it. -/
inductive Decodes (text : CString) : Prop
  | success {bs left : CString} {n : Nat} (htext : text = bs ++ left) (hencodes : Encodes bs n)
      (hdecode : utilsUtf8Decode text = some (some (bs.length, n)))
  | failure (hmalformed : ∀ bs left n, text = bs ++ left → ¬ Encodes bs n)
      (hdecode : utilsUtf8Decode text = some none)

section

variable {a : Byte} (rest : CString) (hzero : a ≠ 0) (hone : ¬ a < 0x80)

include hzero hone

lemma decodes_two (htwo : 0xC2 ≤ a ∧ a ≤ 0xDF) : Decodes (a :: rest) := by
  have hfirst : byteAt (a :: rest) 0 = some a := rfl
  have hlead : 0xC2 ≤ a.toNat ∧ a.toNat ≤ 0xDF := by
    simpa [UInt8.le_iff_toNat_le] using htwo
  by_cases hc : Continues rest 1
  · obtain ⟨b, left, rfl, hb, -⟩ := hc.exists_cons
    refine @Decodes.success _ [a, b] left _ rfl (.two hlead hb rfl) ?_
    have hsecond : byteAt (a :: b :: left) 1 = some b := rfl
    have hvalue : (a &&& 0x1F).toNat <<< 6 ||| (b &&& 0x3F).toNat =
        (a.toNat - 0xC0) * 64 + (b.toNat - 0x80) := by
      rw [(low_bits a).1, (low_bits b).2.2.2, shiftLeft_or (by omega)]
      omega
    simp only [utilsUtf8Decode, hfirst, hzero, hone, htwo, areContinuations_eq, hc, hsecond,
      hvalue, Option.bind_eq_bind, Option.bind_some, if_false, if_true, and_self, decide_true]
    rfl
  · refine .failure ?_ ?_
    · intro bs left n htext hencodes
      rcases encodes_prefix hencodes htext with h | ⟨-, h⟩ | ⟨h, -⟩ | ⟨h, -⟩
      · omega
      · exact hc h
      · omega
      · omega
    · simp [utilsUtf8Decode, hfirst, hzero, hone, htwo, areContinuations_eq, hc]

lemma decodes_three (htwo : ¬ (0xC2 ≤ a ∧ a ≤ 0xDF)) (hthree : 0xE0 ≤ a ∧ a ≤ 0xEF) :
    Decodes (a :: rest) := by
  have hfirst : byteAt (a :: rest) 0 = some a := rfl
  have hlead : 0xE0 ≤ a.toNat ∧ a.toNat ≤ 0xEF := by
    simpa [UInt8.le_iff_toNat_le] using hthree
  by_cases hc : Continues rest 2
  · obtain ⟨b, rest, rfl, hb, hrest⟩ := hc.exists_cons
    obtain ⟨c, left, rfl, hc', -⟩ := hrest.exists_cons
    have hsecond : byteAt (a :: b :: c :: left) 1 = some b := rfl
    have hthird : byteAt (a :: b :: c :: left) 2 = some c := rfl
    have hnumbers : (a = 0xE0 ∧ b < 0xA0) ∨ (a = 0xED ∧ 0xA0 ≤ b) ↔
        (a.toNat = 0xE0 ∧ b.toNat < 0xA0) ∨ (a.toNat = 0xED ∧ 0xA0 ≤ b.toNat) := by
      simp [UInt8.le_iff_toNat_le, UInt8.lt_iff_toNat_lt, ← UInt8.toNat_inj]
    by_cases hbad : (a = 0xE0 ∧ b < 0xA0) ∨ (a = 0xED ∧ 0xA0 ≤ b)
    · rw [hnumbers] at hbad
      refine .failure ?_ ?_
      · intro bs left' n htext hencodes
        rcases encodes_prefix hencodes htext with h | ⟨h, -⟩ | ⟨-, -, h⟩ | ⟨h, -⟩
        · omega
        · omega
        · have := h b rfl
          omega
        · omega
      · simp only [utilsUtf8Decode, hfirst, hzero, hone, htwo, hthree, areContinuations_eq, hc,
          hsecond, hthird, hnumbers, hbad, Option.bind_eq_bind, Option.bind_some, if_false, if_true,
          and_self, decide_true]
    · have hvalue : (a &&& 0x0F).toNat <<< 12 ||| (b &&& 0x3F).toNat <<< 6 ||| (c &&& 0x3F).toNat =
          (a.toNat - 0xE0) * 4096 + (b.toNat - 0x80) * 64 + (c.toNat - 0x80) := by
        rw [(low_bits a).2.1, (low_bits b).2.2.2, (low_bits c).2.2.2, Nat.or_assoc,
          @shiftLeft_or _ _ 6 (by omega), shiftLeft_or (by omega)]
        omega
      rw [hnumbers] at hbad
      refine @Decodes.success _ [a, b, c] left _ rfl
        (.three hlead hb hc' (by omega) (by omega) rfl) ?_
      simp only [utilsUtf8Decode, hfirst, hzero, hone, htwo, hthree, areContinuations_eq, hc,
        hsecond, hthird, hnumbers, hbad, hvalue, Option.bind_eq_bind, Option.bind_some, if_false,
        if_true, and_self, decide_true]
      rfl
  · refine .failure ?_ ?_
    · intro bs left n htext hencodes
      rcases encodes_prefix hencodes htext with h | ⟨h, -⟩ | ⟨-, h, -⟩ | ⟨h, -⟩
      · omega
      · omega
      · exact hc h
      · omega
    · simp [utilsUtf8Decode, hfirst, hzero, hone, htwo, hthree, areContinuations_eq, hc]

lemma decodes_four (htwo : ¬ (0xC2 ≤ a ∧ a ≤ 0xDF)) (hthree : ¬ (0xE0 ≤ a ∧ a ≤ 0xEF))
    (hfour : 0xF0 ≤ a ∧ a ≤ 0xF4) : Decodes (a :: rest) := by
  have hfirst : byteAt (a :: rest) 0 = some a := rfl
  have hlead : 0xF0 ≤ a.toNat ∧ a.toNat ≤ 0xF4 := by
    simpa [UInt8.le_iff_toNat_le] using hfour
  by_cases hc : Continues rest 3
  · obtain ⟨b, rest, rfl, hb, hrest⟩ := hc.exists_cons
    obtain ⟨c, rest, rfl, hc', hrest⟩ := hrest.exists_cons
    obtain ⟨d, left, rfl, hd, -⟩ := hrest.exists_cons
    have hsecond : byteAt (a :: b :: c :: d :: left) 1 = some b := rfl
    have hthird : byteAt (a :: b :: c :: d :: left) 2 = some c := rfl
    have hfourth : byteAt (a :: b :: c :: d :: left) 3 = some d := rfl
    have hnumbers : (a = 0xF0 ∧ b < 0x90) ∨ (a = 0xF4 ∧ 0x90 ≤ b) ↔
        (a.toNat = 0xF0 ∧ b.toNat < 0x90) ∨ (a.toNat = 0xF4 ∧ 0x90 ≤ b.toNat) := by
      simp [UInt8.le_iff_toNat_le, UInt8.lt_iff_toNat_lt, ← UInt8.toNat_inj]
    by_cases hbad : (a = 0xF0 ∧ b < 0x90) ∨ (a = 0xF4 ∧ 0x90 ≤ b)
    · rw [hnumbers] at hbad
      refine .failure ?_ ?_
      · intro bs left' n htext hencodes
        rcases encodes_prefix hencodes htext with h | ⟨h, -⟩ | ⟨h, -⟩ | ⟨-, -, h⟩
        · omega
        · omega
        · omega
        · have := h b rfl
          omega
      · simp only [utilsUtf8Decode, hfirst, hzero, hone, htwo, hthree, hfour, areContinuations_eq,
          hc, hsecond, hthird, hfourth, hnumbers, hbad, Option.bind_eq_bind, Option.bind_some,
          if_false, if_true, and_self, decide_true]
    · have hvalue : (a &&& 0x07).toNat <<< 18 ||| (b &&& 0x3F).toNat <<< 12 |||
          (c &&& 0x3F).toNat <<< 6 ||| (d &&& 0x3F).toNat =
          (a.toNat - 0xF0) * 262144 + (b.toNat - 0x80) * 4096 + (c.toNat - 0x80) * 64 +
            (d.toNat - 0x80) := by
        rw [(low_bits a).2.2.1, (low_bits b).2.2.2, (low_bits c).2.2.2, (low_bits d).2.2.2,
          Nat.or_assoc, Nat.or_assoc, @shiftLeft_or _ _ 6 (by omega),
          @shiftLeft_or _ _ 12 (by omega), shiftLeft_or (by omega)]
        omega
      rw [hnumbers] at hbad
      refine @Decodes.success _ [a, b, c, d] left _ rfl
        (.four hlead hb hc' hd (by omega) (by omega) rfl) ?_
      simp only [utilsUtf8Decode, hfirst, hzero, hone, htwo, hthree, hfour, areContinuations_eq, hc,
        hsecond, hthird, hfourth, hnumbers, hbad, hvalue, Option.bind_eq_bind, Option.bind_some,
        if_false, if_true, and_self, decide_true]
      rfl
  · refine .failure ?_ ?_
    · intro bs left n htext hencodes
      rcases encodes_prefix hencodes htext with h | ⟨h, -⟩ | ⟨h, -⟩ | ⟨-, h, -⟩
      · omega
      · omega
      · omega
      · exact hc h
    · simp [utilsUtf8Decode, hfirst, hzero, hone, htwo, hthree, areContinuations_eq, hc]

end

lemma utilsUtf8Decode_decodes {a : Byte} (rest : CString) (hzero : a ≠ 0) :
    Decodes (a :: rest) := by
  have hfirst : byteAt (a :: rest) 0 = some a := rfl
  by_cases hone : a < 0x80
  · refine @Decodes.success _ [a] rest a.toNat rfl (.one ?_ rfl) ?_
    · exact UInt8.lt_iff_toNat_lt.mp hone
    · simp [utilsUtf8Decode, hfirst, hzero, hone]
  by_cases htwo : 0xC2 ≤ a ∧ a ≤ 0xDF
  · exact decodes_two rest hzero hone htwo
  by_cases hthree : 0xE0 ≤ a ∧ a ≤ 0xEF
  · exact decodes_three rest hzero hone htwo hthree
  by_cases hfour : 0xF0 ≤ a ∧ a ≤ 0xF4
  · exact decodes_four rest hzero hone htwo hthree hfour
  refine .failure ?_ ?_
  · intro bs left n htext hencodes
    simp only [UInt8.le_iff_toNat_le, UInt8.lt_iff_toNat_lt] at hone htwo hthree hfour
    rcases encodes_prefix hencodes htext with h | ⟨h, -⟩ | ⟨h, -⟩ | ⟨h, -⟩
    · exact hone h
    · exact htwo h
    · exact hthree h
    · exact hfour h
  · simp [utilsUtf8Decode, hfirst, hzero, hone, htwo, hthree, hfour]

/-- Decoding succeeds exactly where a well-formed sequence begins, with its scalar value. -/
lemma utilsUtf8Decode_iff {a : Byte} (rest : CString) (hzero : a ≠ 0) :
    ∃ decoded, utilsUtf8Decode (a :: rest) = some decoded ∧ ∀ consumed codepoint,
      decoded = some (consumed, codepoint) ↔ ∃ bs left,
        a :: rest = bs ++ left ∧ Encodes bs codepoint ∧ consumed = bs.length := by
  rcases utilsUtf8Decode_decodes rest hzero with
    ⟨htext, hencodes, hdecode⟩ | ⟨hmalformed, hdecode⟩
  · refine ⟨_, hdecode, fun consumed codepoint => ⟨?_, ?_⟩⟩
    · rintro ⟨⟩
      exact ⟨_, _, htext, hencodes, rfl⟩
    · rintro ⟨bs', left', htext', hencodes', rfl⟩
      obtain ⟨rfl, rfl⟩ := hencodes.unique hencodes' (htext.symm.trans htext')
      rfl
  · refine ⟨_, hdecode, fun consumed codepoint => ⟨by rintro ⟨⟩, ?_⟩⟩
    rintro ⟨bs, left, htext, hencodes, -⟩
    exact absurd hencodes (hmalformed bs left _ htext)

/-! ### The loop -/

/-- A round of the loop consumes something, and not more than there is. -/
lemma displayWidthLoop_round {a : Byte} (rest : CString) (hzero : a ≠ 0) :
    ∃ bs left codepoint, a :: rest = bs ++ left ∧ bs ≠ [] ∧
      (∀ bs' left' n, a :: rest = bs' ++ left' → Encodes bs' n → bs = bs' ∧ codepoint = n) ∧
      ∀ fuel width, displayWidthLoop (fuel + 1) (a :: rest) width =
        displayWidthLoop fuel left (toInt (width + codepointWidth codepoint)) := by
  have hfirst : byteAt (a :: rest) 0 = some a := rfl
  rcases utilsUtf8Decode_decodes rest hzero with
    @⟨bs, left, n, htext, hencodes, hdecode⟩ | ⟨hmalformed, hdecode⟩
  · have hne : bs ≠ [] := by
      rintro rfl
      cases hencodes
    refine ⟨bs, left, n, htext, hne, ?_, fun fuel width => ?_⟩
    · intro bs' left' n' htext' hencodes'
      exact hencodes.unique hencodes' (htext.symm.trans htext')
    · obtain ⟨k, hk⟩ := Nat.exists_eq_succ_of_ne_zero
        (fun h => hne (List.length_eq_zero_iff.mp h))
      have hfits : ¬ (a :: rest).length < k + 1 := by
        rw [htext, List.length_append, hk]
        omega
      have hleft : (a :: rest).drop (k + 1) = left := by
        rw [htext, ← Nat.succ_eq_add_one, ← hk, List.drop_left]
      simp only [displayWidthLoop, hfirst, hzero, hdecode, hk, Nat.succ_eq_add_one, codepointOr,
        hfits, hleft, Option.bind_eq_bind, Option.bind_some, if_false]
  · refine ⟨[a], rest, a.toNat, rfl, List.cons_ne_nil _ _, ?_, fun fuel width => ?_⟩
    · intro bs' left' n htext hencodes
      exact absurd hencodes (hmalformed bs' left' n htext)
    · have hfits : ¬ (a :: rest).length < 1 := by simp
      simp only [displayWidthLoop, hfirst, hzero, hdecode, codepointOr, hfits, List.drop_succ_cons,
        List.drop_zero, Option.bind_eq_bind, Option.bind_some, if_false]

/-- The loop comes to the terminator, whatever the bytes are. -/
lemma displayWidthLoop_total {fuel : Nat} {text : CString} (hfuel : text.length < fuel)
    (width : Int) : ∃ result, displayWidthLoop fuel text width = some result := by
  induction fuel generalizing text width with
  | zero => cases hfuel
  | succ fuel ih =>
    cases text with
    | nil => exact ⟨width, rfl⟩
    | cons a rest =>
      by_cases hzero : a = 0
      · exact ⟨width, by simp [displayWidthLoop, byteAt, hzero]⟩
      · obtain ⟨bs, left, n, htext, hne, -, hround⟩ := displayWidthLoop_round rest hzero
        rw [hround]
        apply ih
        have hlength := congrArg List.length htext
        have hpos := List.length_pos_of_ne_nil hne
        rw [List.length_append] at hlength
        omega

lemma toInt_add (x y : Int) : toInt (toInt x + y) = toInt (x + y) := Int.bmod_add_bmod

/-- On well-formed text the loop adds up the widths of the characters. -/
lemma displayWidthLoop_utf8 {cs : List Char} (hnul : '\x00' ∉ cs) {fuel : Nat}
    (hfuel : (cs.flatMap String.utf8EncodeChar).length < fuel) (width : Int) :
    displayWidthLoop fuel (cs.flatMap String.utf8EncodeChar) (toInt width) =
      some (toInt (width + (cs.map scalarWidth).sum)) := by
  induction cs generalizing fuel width with
  | nil =>
    obtain ⟨fuel, rfl⟩ := Nat.exists_eq_add_of_lt hfuel
    simp [displayWidthLoop, byteAt]
  | cons c cs ih =>
    rw [List.mem_cons, not_or] at hnul
    have hscalar : c.toNat ≠ 0 := fun h => hnul.1 (Char.toNat_inj.mp h.symm)
    obtain ⟨a, bs, hbs, hzero⟩ := (Encodes.of_char c).cons hscalar
    have htext : (c :: cs).flatMap String.utf8EncodeChar =
        a :: (bs ++ cs.flatMap String.utf8EncodeChar) := by
      rw [List.flatMap_cons, hbs]
      rfl
    obtain ⟨bs', left, n, hsplit, -, hencoded, hround⟩ := displayWidthLoop_round
      (bs ++ cs.flatMap String.utf8EncodeChar) hzero
    obtain ⟨rfl, rfl⟩ := hencoded (a :: bs) _ c.toNat rfl (hbs ▸ Encodes.of_char c)
    obtain rfl : cs.flatMap String.utf8EncodeChar = left := by
      simpa using hsplit
    obtain ⟨fuel, rfl⟩ : ∃ k, fuel = k + 1 := ⟨fuel - 1, by omega⟩
    rw [htext] at hfuel ⊢
    simp only [List.length_cons, List.length_append] at hfuel
    rw [hround, toInt_add, ih hnul.2 (by omega), codepointWidth_toNat, List.map_cons,
      List.sum_cons, Int.add_assoc]

lemma utilsDisplayWidth_eq {cs : List Char} (hnul : '\x00' ∉ cs) :
    utilsDisplayWidth (cs.flatMap String.utf8EncodeChar) =
      some (toInt (cs.map scalarWidth).sum) := by
  have hloop := displayWidthLoop_utf8 hnul (Nat.lt_succ_self _) 0
  rw [Int.zero_add] at hloop
  exact hloop

lemma scalarWidth_nonneg (c : Char) : 0 ≤ scalarWidth c := by
  unfold scalarWidth
  split_ifs <;> decide

lemma utilsDisplayWidth_iff {cs : List Char} (hnul : '\x00' ∉ cs) :
    utilsDisplayWidth (cs.flatMap String.utf8EncodeChar) = some (cs.map scalarWidth).sum ↔
      (cs.map scalarWidth).sum < 2 ^ 31 := by
  have hpos : 0 ≤ (cs.map scalarWidth).sum := List.sum_nonneg (by simp [scalarWidth_nonneg])
  rw [utilsDisplayWidth_eq hnul, Option.some.injEq, toInt]
  generalize (cs.map scalarWidth).sum = width at hpos
  constructor
  · intro h
    rw [← h]
    exact Int.bmod_lt (by decide)
  · intro h
    exact Int.bmod_eq_of_le (by omega) (by omega)

/-- The display width of a text is the sum of the widths of its characters, if and only if that sum
is an `int`. On any bytes the loop ends without a read behind the terminator, and the decoder takes
exactly the well-formed sequences. -/
theorem utilsDisplayWidth_correct (cs : List Char) (hcs : '\x00' ∉ cs) (text : CString)
    (hnul : 0 ∉ text) :
    (utilsDisplayWidth (cs.flatMap String.utf8EncodeChar) = some (cs.map scalarWidth).sum ↔
      (cs.map scalarWidth).sum < 2 ^ 31) ∧
    (∃ width, utilsDisplayWidth text = some width) ∧
    (text ≠ [] → ∃ decoded, utilsUtf8Decode text = some decoded ∧ ∀ consumed codepoint,
      decoded = some (consumed, codepoint) ↔ ∃ c left, text = String.utf8EncodeChar c ++ left ∧
        consumed = (String.utf8EncodeChar c).length ∧ codepoint = c.toNat) := by
  refine ⟨utilsDisplayWidth_iff hcs, ?_, fun hne => ?_⟩
  · exact displayWidthLoop_total (Nat.lt_succ_self _) 0
  · obtain ⟨a, rest, rfl⟩ := List.exists_cons_of_ne_nil hne
    have hzero : a ≠ 0 := fun h => hnul (by simp [h])
    obtain ⟨decoded, hdecode, hiff⟩ := utilsUtf8Decode_iff rest hzero
    refine ⟨decoded, hdecode, fun consumed codepoint => ?_⟩
    rw [hiff]
    constructor
    · rintro ⟨bs, left, htext, hencodes, rfl⟩
      obtain ⟨c, rfl, rfl⟩ := encodes_iff.mp hencodes
      exact ⟨c, left, htext, rfl, rfl⟩
    · rintro ⟨c, left, htext, rfl, rfl⟩
      exact ⟨_, left, htext, .of_char c, rfl⟩

/-- A tab, a letter with an accent of its own and a wide character; and a surrogate. -/
theorem utilsDisplayWidth_mixed :
    utilsDisplayWidth (['\t', 'e', '\u0301', '가'].flatMap String.utf8EncodeChar) = some 7 ∧
      (∃ width, utilsDisplayWidth [0xED, 0xA0, 0x80] = some width) ∧
      ∀ c, String.utf8EncodeChar c ≠ [0xED, 0xA0, 0x80] := by
  obtain ⟨hwidth, htotal, hdecode⟩ := utilsDisplayWidth_correct ['\t', 'e', '\u0301', '가']
    (by decide) [0xED, 0xA0, 0x80] (by decide)
  obtain ⟨decoded, hdecoded, hiff⟩ := hdecode (List.cons_ne_nil _ _)
  obtain rfl : decoded = none := by
    have hnone : utilsUtf8Decode [0xED, 0xA0, 0x80] = some none := by decide
    exact Option.some.inj (hdecoded.symm.trans hnone)
  refine ⟨hwidth.mpr (by decide), htotal, fun c hc => ?_⟩
  have hsome := (hiff _ _).mpr ⟨c, [], by simp [hc], rfl, rfl⟩
  cases hsome

/-- 2^29 tabs: the width wraps around. -/
theorem utilsDisplayWidth_tabs :
    ¬ ∀ cs : List Char, '\x00' ∉ cs →
      utilsDisplayWidth (cs.flatMap String.utf8EncodeChar) = some (cs.map scalarWidth).sum := by
  intro h
  have hnul : '\x00' ∉ List.replicate (2 ^ 29) '\t' := fun hmem =>
    absurd (List.eq_of_mem_replicate hmem) (by decide)
  have hwidth := (utilsDisplayWidth_iff hnul).mp (h _ hnul)
  rw [List.map_replicate, List.sum_replicate] at hwidth
  revert hwidth
  decide

end MiniDbms
