import MiniDbms.Common.Display

/-!
# Cells

How many cells of the terminal a text takes, before the count is forced into an `int`. The count is
additive where a one-byte character begins, whatever the bytes before it are: a sequence that was
cut off there is decoded byte by byte, as at the end of a text.
-/

namespace MiniDbms

/-- `Spans text n`: decoded as `utils_display_width` decodes it, the text takes `n` cells. -/
inductive Spans : CString → Int → Prop
  | nil : Spans [] 0
  | round {a : Byte} {rest : CString} {decoded : Option (Nat × Nat)} {n : Int} (hzero : a ≠ 0)
      (hdecode : utilsUtf8Decode (a :: rest) = some decoded)
      (hleft : Spans ((a :: rest).drop (codepointOr a decoded).1) n) :
      Spans (a :: rest) (codepointWidth (codepointOr a decoded).2 + n)

lemma codepointWidth_range (codepoint : Nat) :
    0 ≤ codepointWidth codepoint ∧ codepointWidth codepoint ≤ 4 := by
  unfold codepointWidth
  split_ifs <;> decide

/-- A round takes at least one byte and not more than there are. -/
lemma consumed_range {a : Byte} {rest : CString} {decoded : Option (Nat × Nat)} (hzero : a ≠ 0)
    (hdecode : utilsUtf8Decode (a :: rest) = some decoded) :
    0 < (codepointOr a decoded).1 ∧ (codepointOr a decoded).1 ≤ (a :: rest).length := by
  rcases utilsUtf8Decode_decodes rest hzero with ⟨htext, hencodes, hsome⟩ | ⟨-, hsome⟩
  · cases Option.some.inj (hdecode.symm.trans hsome)
    rw [htext, List.length_append]
    cases hencodes <;> simp [codepointOr]
  · cases Option.some.inj (hdecode.symm.trans hsome)
    simp [codepointOr]

namespace Spans

variable {text xs ys : CString} {n m : Int} {b : Byte}

lemma exists_of_no_nul (hnul : 0 ∉ text) : ∃ n, Spans text n ∧ 0 ≤ n ∧ n ≤ 4 * text.length := by
  induction hlen : text.length using Nat.strong_induction_on generalizing text with
  | _ k ih =>
    cases text with
    | nil => exact ⟨0, .nil, le_rfl, by simp [← hlen]⟩
    | cons a rest =>
      have hzero : a ≠ 0 := fun h => hnul (by simp [h])
      obtain ⟨decoded, hdecode, -⟩ := utilsUtf8Decode_iff rest hzero
      obtain ⟨hpos, hle⟩ := consumed_range hzero hdecode
      have hlength : ((a :: rest).drop (codepointOr a decoded).1).length =
          k - (codepointOr a decoded).1 := by rw [List.length_drop, hlen]
      obtain ⟨n, hspans, hn, hmax⟩ := ih _ (by omega)
        (fun hmem => hnul (List.mem_of_mem_drop hmem)) hlength
      have hwidth := codepointWidth_range (codepointOr a decoded).2
      exact ⟨_, .round hzero hdecode hspans, by omega, by omega⟩

/-- The loop of `utils_display_width` adds up the cells, as an `int`. -/
lemma loop (h : Spans text n) {fuel : Nat} (hfuel : text.length < fuel) (width : Int) :
    displayWidthLoop fuel text (toInt width) = some (toInt (width + n)) := by
  induction h generalizing fuel width with
  | nil =>
    obtain ⟨fuel, rfl⟩ := Nat.exists_eq_add_of_lt hfuel
    simp [displayWidthLoop, byteAt]
  | @round a rest decoded n hzero hdecode hleft ih =>
    obtain ⟨fuel, rfl⟩ : ∃ k, fuel = k + 1 := ⟨fuel - 1, by omega⟩
    obtain ⟨hpos, hle⟩ := consumed_range hzero hdecode
    have hfirst : byteAt (a :: rest) 0 = some a := rfl
    have hmore : ((a :: rest).drop (codepointOr a decoded).1).length < fuel := by
      rw [List.length_drop]
      omega
    simp only [displayWidthLoop, hfirst, hzero, hdecode, hle.not_gt, Option.bind_eq_bind,
      Option.bind_some, if_false]
    rw [toInt_add, ih hmore, Int.add_assoc]

lemma displayWidth (h : Spans text n) (hn : 0 ≤ n) (hmax : n < 2 ^ 31) :
    utilsDisplayWidth text = some n := by
  have hloop := h.loop (Nat.lt_succ_self _) 0
  have hint : toInt n = n := Int.bmod_eq_of_le (by omega) (by omega)
  rw [Int.zero_add, hint] at hloop
  exact hloop

/-! ### Concatenation -/

lemma encodes_tail {bs : CString} {n : Nat} (h : Encodes bs n) : ∀ b ∈ bs.tail, 0x80 ≤ b.toNat := by
  cases h <;> simp_all

/-- No sequence reaches over a one-byte character. -/
lemma encodes_append {a : Byte} {rest bs left : CString} {n : Nat} (h : Encodes bs n)
    (hb : b.toNat < 0x80) (htext : a :: rest ++ b :: ys = bs ++ left) :
    ∃ left', a :: rest = bs ++ left' := by
  rcases List.append_eq_append_iff.mp htext with ⟨more, rfl, hmore⟩ | ⟨left', heq, -⟩
  · cases more with
    | nil => exact ⟨[], by simp⟩
    | cons c more =>
      obtain rfl := (List.cons_eq_cons.mp hmore).1
      have := encodes_tail h b (by simp)
      omega
  · exact ⟨left', heq⟩

lemma decode_append {a : Byte} {rest : CString} (hzero : a ≠ 0) (hb : b.toNat < 0x80) :
    utilsUtf8Decode (a :: rest ++ b :: ys) = utilsUtf8Decode (a :: rest) := by
  obtain ⟨decoded, hdecode, hiff⟩ := utilsUtf8Decode_iff rest hzero
  obtain ⟨decoded', hdecode', hiff'⟩ := utilsUtf8Decode_iff (rest ++ b :: ys) hzero
  rw [List.cons_append, hdecode, hdecode']
  congr 1
  ext ⟨consumed, codepoint⟩
  rw [hiff, hiff']
  constructor
  · rintro ⟨bs, left, htext, hencodes, hlen⟩
    obtain ⟨left', hleft⟩ := encodes_append hencodes hb htext
    exact ⟨bs, left', hleft, hencodes, hlen⟩
  · rintro ⟨bs, left, htext, hencodes, hlen⟩
    refine ⟨bs, left ++ b :: ys, ?_, hencodes, hlen⟩
    rw [← List.append_assoc, ← htext, List.cons_append]

lemma append_cons (h : Spans xs n) (hb : b.toNat < 0x80) (h' : Spans (b :: ys) m) :
    Spans (xs ++ b :: ys) (n + m) := by
  induction h with
  | nil => simpa using h'
  | @round a rest decoded n hzero hdecode hleft ih =>
    have hle := (consumed_range hzero hdecode).2
    rw [Int.add_assoc, List.cons_append]
    refine .round hzero ?_ ?_
    · rw [← hdecode]
      exact decode_append hzero hb
    · rw [← List.cons_append, List.drop_append_of_le_length hle]
      exact ih

lemma append (h : Spans xs n) (h' : Spans ys m) (hys : ∀ b ∈ ys.head?, b.toNat < 0x80) :
    Spans (xs ++ ys) (n + m) := by
  cases ys with
  | nil =>
    cases h'
    simpa using h
  | cons b ys => exact h.append_cons (hys b rfl) h'

/-! ### Printable characters of one byte -/

lemma cons (hb : 0x20 ≤ b.toNat ∧ b.toNat < 0x7F) (h : Spans ys n) : Spans (b :: ys) (1 + n) := by
  have hzero : b ≠ 0 := by
    rintro rfl
    simp at hb
  have hdecode : utilsUtf8Decode (b :: ys) = some (some (1, b.toNat)) := by
    have hone : b < 0x80 := UInt8.lt_iff_toNat_lt.mpr (by simp; omega)
    simp [utilsUtf8Decode, byteAt, hzero, hone]
  have hwidth : codepointWidth b.toNat = 1 := by
    have hrange := hb
    unfold codepointWidth utilsIsZeroWidthCodepoint utilsIsWideCodepoint
    rw [if_neg (by omega), if_neg (by omega), if_neg (by simp; omega), if_neg (by simp; omega)]
  have hround := Spans.round hzero hdecode (n := n) h
  rw [codepointOr, hwidth] at hround
  exact hround

lemma replicate (hb : 0x20 ≤ b.toNat ∧ b.toNat < 0x7F) (h : Spans ys n) (k : Nat) :
    Spans (List.replicate k b ++ ys) (k + n) := by
  induction k with
  | zero => simpa using h
  | succ k ih =>
    have hcons := ih.cons hb
    rw [List.replicate_succ, List.cons_append]
    convert hcons using 1
    push_cast
    ring

end Spans

end MiniDbms
