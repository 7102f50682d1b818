import MiniDbms.Common.Utils
import MiniDbms.Library.Comparator

/-!
# The order of values

`utils_compare_values` compares two integers by number and everything else by bytes. The two orders
disagree, so that a mixture of integers and other strings need not be in any order at all, and the
numbers are saturated to `long long`.
-/

namespace MiniDbms

/-! ### The comparison of two values -/

lemma utilsCompareValues_integers {a b : CString} (ha : utilsIsInteger a = true)
    (hb : utilsIsInteger b = true) :
    utilsCompareValues a b = (utilsParseInteger a - utilsParseInteger b).sign := by
  rw [utilsCompareValues, ha, hb, Bool.and_self, if_pos rfl]
  dsimp only
  rcases lt_trichotomy (utilsParseInteger a) (utilsParseInteger b) with h | h | h
  · rw [if_pos h, Int.sign_eq_neg_one_of_neg (sub_neg.mpr h)]
  · rw [h, if_neg (lt_irrefl _), if_neg (lt_irrefl _), sub_self, Int.sign_zero]
  · rw [if_neg (not_lt_of_gt h), if_pos h, Int.sign_eq_one_of_pos (sub_pos.mpr h)]

/-- Numbers compare equal when the same integer is parsed. -/
lemma utilsCompareValues_eq_zero_iff {a b : CString} (ha : utilsIsInteger a = true)
    (hb : utilsIsInteger b = true) :
    utilsCompareValues a b = 0 ↔ utilsParseInteger a = utilsParseInteger b := by
  rw [utilsCompareValues_integers ha hb, Int.sign_eq_zero_iff_zero, sub_eq_zero]

lemma utilsCompareValues_texts {a b : CString}
    (h : utilsIsInteger a = false ∨ utilsIsInteger b = false) :
    utilsCompareValues a b = strcmp a b := by
  rw [utilsCompareValues, if_neg]
  rcases h with h | h <;> simp [h]

lemma utilsCompareValues_swap (a b : CString) :
    utilsCompareValues a b = -utilsCompareValues b a := by
  by_cases h : utilsIsInteger a = true ∧ utilsIsInteger b = true
  · rw [utilsCompareValues_integers h.1 h.2, utilsCompareValues_integers h.2 h.1, ← Int.sign_neg,
      neg_sub]
  · have htext : utilsIsInteger a = false ∨ utilsIsInteger b = false := by
      simpa [Classical.or_iff_not_imp_left] using h
    rw [utilsCompareValues_texts htext, utilsCompareValues_texts htext.symm, strcmp_swap]

@[simp]
lemma utilsCompareValues_self (a : CString) : utilsCompareValues a a = 0 := by
  have := utilsCompareValues_swap a a
  omega

lemma utilsCompareValues_integers_nonpos {a b : CString} (ha : utilsIsInteger a = true)
    (hb : utilsIsInteger b = true) :
    utilsCompareValues a b ≤ 0 ↔ utilsParseInteger a ≤ utilsParseInteger b := by
  rw [utilsCompareValues_integers ha hb, Int.sign_nonpos_iff, sub_nonpos]

/-! ### Transitivity -/

/-- The string `z`, which is no integer, stands between the integers `x` and `y` in the order of
the bytes, and the number of `y` is not above that of `x`. -/
def Straddles (z x y : CString) : Prop :=
  utilsIsInteger x = true ∧ utilsIsInteger y = true ∧ utilsIsInteger z = false ∧
    strcmp x z < 0 ∧ strcmp z y < 0 ∧ utilsParseInteger y ≤ utilsParseInteger x

instance (z x y : CString) : Decidable (Straddles z x y) := by
  unfold Straddles
  infer_instance

lemma Straddles.lt {z x y : CString} (h : Straddles z x y) : strcmp x y < 0 := by
  obtain ⟨-, -, -, hxz, hzy, -⟩ := h
  rw [strcmp_neg_iff] at *
  exact hxz.trans hzy

/-- An integer and a string that is none differ, so that they are never equal in byte order. -/
lemma strcmp_neg_of_nonpos {a b : CString} (hne : utilsIsInteger a ≠ utilsIsInteger b)
    (h : strcmp a b ≤ 0) : strcmp a b < 0 := by
  refine lt_of_le_of_ne h fun heq => hne ?_
  rw [strcmp_eq_zero_iff.mp heq]

/-- A comparison of `a` with `b` and of `b` with `c` carries over to `a` and `c` unless one of the
three straddles the other two. -/
lemma utilsCompareValues_trans_iff (a b c : CString) :
    (utilsCompareValues a b ≤ 0 → utilsCompareValues b c ≤ 0 → utilsCompareValues a c ≤ 0) ↔
      ¬ (Straddles b a c ∧ utilsParseInteger c ≠ utilsParseInteger a) ∧
        ¬ Straddles c b a ∧ ¬ Straddles a c b := by
  have htrans : ∀ {x y z : CString}, strcmp x y ≤ 0 → strcmp y z ≤ 0 → strcmp x z ≤ 0 := by
    intro x y z hxy hyz
    exact (strcmp_consistent Set.univ).trans x trivial y trivial z trivial hxy hyz
  have hswap : ∀ {x y : CString}, ¬ strcmp x y ≤ 0 ↔ strcmp y x < 0 := by
    intro x y
    have := strcmp_swap x y
    omega
  cases ha : utilsIsInteger a <;> cases hb : utilsIsInteger b <;> cases hc : utilsIsInteger c
  case true.true.true =>
    simp only [utilsCompareValues_integers_nonpos, Straddles, ha, hb, hc]
    have := @le_trans Int _ (utilsParseInteger a) (utilsParseInteger b) (utilsParseInteger c)
    simpa using this
  case true.true.false =>
    -- `c` may straddle `b` and `a`
    rw [utilsCompareValues_integers_nonpos ha hb, utilsCompareValues_texts (.inr hc),
      utilsCompareValues_texts (.inr hc)]
    simp only [Straddles, ha, hb, hc]
    grind [strcmp_neg_of_nonpos]
  case true.false.true =>
    rw [utilsCompareValues_integers_nonpos ha hc, utilsCompareValues_texts (.inr hb),
      utilsCompareValues_texts (.inl hb)]
    simp only [Straddles, ha, hb, hc]
    grind [strcmp_neg_of_nonpos]
  case false.true.true =>
    rw [utilsCompareValues_integers_nonpos hb hc, utilsCompareValues_texts (.inl ha),
      utilsCompareValues_texts (.inl ha)]
    simp only [Straddles, ha, hb, hc]
    grind [strcmp_neg_of_nonpos]
  all_goals
    rw [utilsCompareValues_texts (by simp [*]), utilsCompareValues_texts (by simp [*]),
      utilsCompareValues_texts (by simp [*])]
    simpa [Straddles, ha, hb, hc] using htrans

/-- The values of a set are ordered unless one of them straddles two others. -/
theorem utilsCompareValues_consistent_iff (s : Set CString) :
    IsConsistent utilsCompareValues s ↔ ∀ x ∈ s, ∀ y ∈ s, ∀ z ∈ s, ¬ Straddles z x y := by
  constructor
  · rintro h x hx y hy z hz hstraddles
    obtain ⟨hxint, hyint, hzint, hxz, hzy, hle⟩ := id hstraddles
    -- `y` is not above `x` and `x` is below `z`, so that `y` is not above `z`
    have hyx := (utilsCompareValues_integers_nonpos hyint hxint).mpr hle
    have hxz' : utilsCompareValues x z ≤ 0 := by
      rw [utilsCompareValues_texts (.inr hzint)]
      exact hxz.le
    have hyz := h.trans y hy x hx z hz hyx hxz'
    rw [utilsCompareValues_texts (.inr hzint), strcmp_swap] at hyz
    omega
  · intro h
    refine ⟨fun a _ b _ => ?_, fun a ha b hb c hc => ?_⟩
    · rw [utilsCompareValues_swap, Int.sign_neg]
    · exact (utilsCompareValues_trans_iff a b c).mpr
        ⟨fun hs => h a ha c hc b hb hs.1, h b hb a ha c hc, h c hc b hb a ha⟩

/-- Swapping the operands turns the sign around and a value equals itself; the order is transitive
unless one of the three values straddles the other two. -/
theorem utilsCompareValues_preorder_iff (a b c : CString) :
    ((utilsCompareValues a b).sign = -(utilsCompareValues b a).sign ∧
        utilsCompareValues a a = 0 ∧
        (utilsCompareValues a b ≤ 0 → utilsCompareValues b c ≤ 0 →
          utilsCompareValues a c ≤ 0)) ↔
      ¬ (Straddles b a c ∧ utilsParseInteger c ≠ utilsParseInteger a) ∧
        ¬ Straddles c b a ∧ ¬ Straddles a c b := by
  rw [← utilsCompareValues_trans_iff, utilsCompareValues_swap a b, Int.sign_neg]
  simp

/-- In the order of bytes `1a` stands between `10` and `9`. -/
theorem utilsCompareValues_preorder_mixed :
    ¬ ∀ a b c : CString, 0 ∉ a → 0 ∉ b → 0 ∉ c →
      (utilsCompareValues a b).sign = -(utilsCompareValues b a).sign ∧
        utilsCompareValues a a = 0 ∧
        (utilsCompareValues a b ≤ 0 → utilsCompareValues b c ≤ 0 →
          utilsCompareValues a c ≤ 0) := by
  intro h
  have hle := (h (bytes "10") (bytes "1a") (bytes "9") (by decide) (by decide) (by decide)).2.2
  exact absurd (hle (by decide +kernel) (by decide +kernel)) (by decide +kernel)

/-! ### Integers of any size -/

/-- The number that decimal digits denote. -/
def decimalValue (digits : CString) : Nat :=
  Nat.ofDigits 10 (digits.reverse.map fun b => b.toNat - 48)

/-- The integer that a literal denotes: digits after an optional sign. -/
def literalValue : CString → Int
  | []          => 0
  | b :: digits =>
    if b = chr '-' then -decimalValue digits
    else if b = chr '+' then decimalValue digits
    else decimalValue (b :: digits)

/-- The least and the greatest `long long`. -/
def llongMin : Int := -(2 ^ 63)

def llongMax : Int := 2 ^ 63 - 1

lemma digitsValue_decimal (acc : Nat) {digits : CString} (h : digits.all isdigit = true) :
    digitsValue acc digits = acc * 10 ^ digits.length + decimalValue digits := by
  induction digits generalizing acc with
  | nil => simp [digitsValue, decimalValue]
  | cons b digits ih =>
    obtain ⟨hb, hdigits⟩ := Bool.and_eq_true_iff.mp (List.all_cons ▸ h)
    rw [digitsValue, if_pos hb, ih _ hdigits]
    simp only [decimalValue, List.reverse_cons, List.map_append, List.map_cons, List.map_nil,
      Nat.ofDigits_append, Nat.ofDigits_singleton, List.length_map, List.length_reverse,
      List.length_cons, pow_succ]
    ring

lemma digitsValue_eq {digits : CString} (h : digits.all isdigit = true) :
    digitsValue 0 digits = decimalValue digits := by
  simp [digitsValue_decimal 0 h]

/-- The value of an optional sign and decimal digits, without bounds. -/
def integerValue : CString → Int
  | []        => 0
  | b :: text =>
    if b = chr '-' then -(digitsValue 0 text : Int)
    else if b = chr '+' then digitsValue 0 text
    else digitsValue 0 (b :: text)

/-- `utils_parse_integer` saturates. -/
lemma utilsParseInteger_saturates {text : CString} (h : utilsIsInteger text = true) :
    utilsParseInteger text = saturateLongLong (integerValue text) := by
  cases text with
  | nil => cases h
  | cons b text =>
    have hspace : isspace b = false := by
      rw [utilsIsInteger] at h
      split_ifs at h with hsign
      · rcases hsign with rfl | rfl <;> rfl
      · exact (isdigit_facts (Bool.and_eq_true_iff.mp (List.all_cons ▸ h)).1).1
    rw [utilsParseInteger, strtoll, List.dropWhile_cons_of_neg (by simp [hspace]), integerValue,
      apply_ite saturateLongLong, apply_ite saturateLongLong]

lemma integerValue_eq {text : CString} (h : utilsIsInteger text = true) :
    integerValue text = literalValue text := by
  cases text with
  | nil => cases h
  | cons b digits =>
    rw [utilsIsInteger] at h
    rw [integerValue, literalValue]
    by_cases hminus : b = chr '-'
    · rw [if_pos (.inl hminus)] at h
      rw [if_pos hminus, if_pos hminus, digitsValue_eq (Bool.and_eq_true_iff.mp h).2]
    · rw [if_neg hminus, if_neg hminus]
      by_cases hplus : b = chr '+'
      · rw [if_pos (.inr hplus)] at h
        rw [if_pos hplus, if_pos hplus, digitsValue_eq (Bool.and_eq_true_iff.mp h).2]
      · rw [if_neg (by simp [hminus, hplus])] at h
        rw [if_neg hplus, if_neg hplus, digitsValue_eq h]

/-- What is parsed is the integer, saturated. -/
lemma utilsParseInteger_eq {a : CString} (h : utilsIsInteger a = true) :
    utilsParseInteger a = saturateLongLong (literalValue a) := by
  rw [utilsParseInteger_saturates h, integerValue_eq h]

/-- Saturation keeps the order of two different numbers unless both are beyond the same end. -/
lemma sign_saturateLongLong_iff (m n : Int) :
    (saturateLongLong m - saturateLongLong n).sign = (m - n).sign ↔
      ¬ (m ≠ n ∧ (llongMax ≤ m ∧ llongMax ≤ n ∨ m ≤ llongMin ∧ n ≤ llongMin)) := by
  unfold saturateLongLong llongMin llongMax
  rcases lt_trichotomy m n with h | rfl | h
  · rw [Int.sign_eq_neg_one_of_neg (sub_neg.mpr h), Int.sign_eq_neg_one_iff_neg]
    omega
  · simp
  · rw [Int.sign_eq_one_of_pos (sub_pos.mpr h), Int.sign_eq_one_iff_pos]
    omega

/-- Two integers compare as the numbers they denote unless both lie at or beyond the same end of
`long long`. -/
theorem utilsCompareValues_exact_iff {a b : CString} (ha : utilsIsInteger a = true)
    (hb : utilsIsInteger b = true) :
    (utilsCompareValues a b).sign = (literalValue a - literalValue b).sign ↔
      ¬ (literalValue a ≠ literalValue b ∧
        (llongMax ≤ literalValue a ∧ llongMax ≤ literalValue b ∨
          literalValue a ≤ llongMin ∧ literalValue b ≤ llongMin)) := by
  rw [← sign_saturateLongLong_iff, utilsCompareValues_integers ha hb, Int.sign_sign,
    utilsParseInteger_eq ha, utilsParseInteger_eq hb]

theorem utilsCompareValues_exact_leadingZero :
    (utilsCompareValues (bytes "-007") (bytes "+3")).sign =
      (literalValue (bytes "-007") - literalValue (bytes "+3")).sign :=
  (utilsCompareValues_exact_iff (by decide) (by decide)).mpr (by decide +kernel)

/-- Numbers of twenty digits are all equal. -/
theorem utilsCompareValues_exact_saturated :
    ¬ ∀ a b : CString, utilsIsInteger a = true → utilsIsInteger b = true → a.length ≤ 255 →
      b.length ≤ 255 → (utilsCompareValues a b).sign = (literalValue a - literalValue b).sign := by
  intro h
  have hsign := h (bytes "10000000000000000000") (bytes "20000000000000000000") (by decide)
    (by decide) (by decide) (by decide)
  exact absurd hsign (by decide +kernel)

end MiniDbms
