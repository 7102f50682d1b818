import Mathlib

/-!
# Splitting at a separator outside quotes

A text with a quote `q` is read with a flag that every quote turns over: the flag tells whether the
next symbol is inside quotes. The text is cut behind the first separator `s` that is outside.
-/

namespace MiniDbms

variable {α : Type} [DecidableEq α] (q s : α)

/-- The flag after a text. -/
def quoteFlag : Bool → List α → Bool
  | inside, []        => inside
  | inside, b :: text => quoteFlag (if b = q then !inside else inside) text

/-- The text up to its first separator outside quotes, and what follows it. -/
def cutQuoted : Bool → List α → Option (List α × List α)
  | _, []             => none
  | inside, b :: text =>
    if b = q then (cutQuoted (!inside) text).map fun (p, rest) => (b :: p, rest)
    else if inside = false ∧ b = s then some ([b], text)
    else (cutQuoted inside text).map fun (p, rest) => (b :: p, rest)

/-- All the pieces that end with a separator outside quotes, and what is left behind them. -/
def splitQuoted : Bool → List α → List (List α) × List α
  | _, []             => ([], [])
  | inside, b :: text =>
    if inside = false ∧ b = s ∧ b ≠ q then
      ([b] :: (splitQuoted false text).1, (splitQuoted false text).2)
    else
      match splitQuoted (if b = q then !inside else inside) text with
      | ([], left)      => ([], b :: left)
      | (p :: ps, left) => ((b :: p) :: ps, left)

/-- A text that holds no separator outside quotes and closes the quotes it opens. -/
structure QuoteClosed (a : List α) : Prop where
  uncut : cutQuoted q s false a = none
  closed : quoteFlag q false a = false

variable {q s}

/-! ### One cut -/

lemma quoteFlag_append (inside : Bool) (a b : List α) :
    quoteFlag q inside (a ++ b) = quoteFlag q (quoteFlag q inside a) b := by
  induction a generalizing inside with
  | nil => rfl
  | cons c a ih =>
    rw [List.cons_append, quoteFlag, quoteFlag, ih]

/-- A quote turns the flag over. -/
lemma cutQuoted_quote (inside : Bool) (text : List α) : cutQuoted q s inside (q :: text) =
    (cutQuoted q s (!inside) text).map fun (p, rest) => (q :: p, rest) := by
  rw [cutQuoted, if_pos rfl]

/-- Other symbols are passed over. -/
lemma cutQuoted_other {inside : Bool} {b : α} (hq : b ≠ q) (hs : ¬ (inside = false ∧ b = s))
    (text : List α) : cutQuoted q s inside (b :: text) =
      (cutQuoted q s inside text).map fun (p, rest) => (b :: p, rest) := by
  rw [cutQuoted, if_neg hq, if_neg hs]

/-- A text without a cut is passed over. -/
lemma cutQuoted_append_none {inside : Bool} {a : List α} (h : cutQuoted q s inside a = none)
    (b : List α) : cutQuoted q s inside (a ++ b) =
      (cutQuoted q s (quoteFlag q inside a) b).map fun (p, rest) => (a ++ p, rest) := by
  induction a generalizing inside with
  | nil => simp [quoteFlag]
  | cons c a ih =>
    rw [cutQuoted] at h
    rw [List.cons_append, cutQuoted, quoteFlag]
    by_cases hc : c = q
    · rw [if_pos hc, Option.map_eq_none_iff] at h
      rw [if_pos hc, if_pos hc, ih h, Option.map_map]
      rfl
    · rw [if_neg hc] at h
      rw [if_neg hc, if_neg hc]
      by_cases hs : inside = false ∧ c = s
      · rw [if_pos hs] at h
        cases h
      · rw [if_neg hs, Option.map_eq_none_iff] at h
        rw [if_neg hs, ih h, Option.map_map]
        rfl

/-- The first cut does not depend on what follows it. -/
lemma cutQuoted_append_some {inside : Bool} {a p rest : List α}
    (h : cutQuoted q s inside a = some (p, rest)) (b : List α) :
    cutQuoted q s inside (a ++ b) = some (p, rest ++ b) := by
  induction a generalizing inside p with
  | nil => cases h
  | cons c a ih =>
    rw [cutQuoted] at h
    rw [List.cons_append, cutQuoted]
    by_cases hc : c = q
    · rw [if_pos hc] at h ⊢
      obtain ⟨⟨p', rest'⟩, hcut, ⟨⟩⟩ := Option.map_eq_some_iff.mp h
      rw [ih hcut]
      rfl
    · rw [if_neg hc] at h ⊢
      by_cases hs : inside = false ∧ c = s
      · rw [if_pos hs] at h ⊢
        cases h
        rfl
      · rw [if_neg hs] at h ⊢
        obtain ⟨⟨p', rest'⟩, hcut, ⟨⟩⟩ := Option.map_eq_some_iff.mp h
        rw [ih hcut]
        rfl

/-- The piece that is cut off ends with its only separator outside quotes. -/
lemma cutQuoted_some {inside : Bool} {text p rest : List α}
    (h : cutQuoted q s inside text = some (p, rest)) :
    text = p ++ rest ∧ s ≠ q ∧ ∃ body, p = body ++ [s] ∧ cutQuoted q s inside body = none ∧
      quoteFlag q inside body = false := by
  induction text generalizing inside p with
  | nil => cases h
  | cons c text ih =>
    rw [cutQuoted] at h
    by_cases hc : c = q
    · rw [if_pos hc] at h
      obtain ⟨⟨p', rest'⟩, hcut, ⟨⟩⟩ := Option.map_eq_some_iff.mp h
      obtain ⟨hsplit, hne, body, hbody, hnone, hflag⟩ := ih hcut
      refine ⟨by rw [hsplit]; rfl, hne, c :: body, by rw [hbody]; rfl, ?_, ?_⟩
      · rw [cutQuoted, if_pos hc, hnone]
        rfl
      · rw [quoteFlag, if_pos hc, hflag]
    · rw [if_neg hc] at h
      by_cases hs : inside = false ∧ c = s
      · rw [if_pos hs] at h
        cases h
        obtain ⟨rfl, rfl⟩ := hs
        exact ⟨rfl, hc, [], rfl, rfl, rfl⟩
      · rw [if_neg hs] at h
        obtain ⟨⟨p', rest'⟩, hcut, ⟨⟩⟩ := Option.map_eq_some_iff.mp h
        obtain ⟨hsplit, hne, body, hbody, hnone, hflag⟩ := ih hcut
        refine ⟨by rw [hsplit]; rfl, hne, c :: body, by rw [hbody]; rfl, ?_, ?_⟩
        · rw [cutQuoted, if_neg hc, if_neg hs, hnone]
          rfl
        · rw [quoteFlag, if_neg hc, hflag]

lemma cutQuoted_separator (hne : s ≠ q) (text : List α) :
    cutQuoted q s false (s :: text) = some ([s], text) := by
  rw [cutQuoted, if_neg hne, if_pos ⟨rfl, rfl⟩]

/-- The piece that was cut off is cut off by itself. -/
lemma cutQuoted_piece {inside : Bool} {text p rest : List α}
    (h : cutQuoted q s inside text = some (p, rest)) : cutQuoted q s inside p = some (p, []) := by
  obtain ⟨-, hne, body, rfl, hnone, hflag⟩ := cutQuoted_some h
  rw [cutQuoted_append_none hnone, hflag, cutQuoted_separator hne]
  rfl

lemma QuoteClosed.cutQuoted_append {a : List α} (h : QuoteClosed q s a) (b : List α) :
    cutQuoted q s false (a ++ b) =
      (cutQuoted q s false b).map fun (p, rest) => (a ++ p, rest) := by
  rw [cutQuoted_append_none h.uncut, h.closed]

lemma QuoteClosed.append {a b : List α} (ha : QuoteClosed q s a) (hb : QuoteClosed q s b) :
    QuoteClosed q s (a ++ b) where
  uncut := by rw [ha.cutQuoted_append, hb.uncut]; rfl
  closed := by rw [quoteFlag_append, ha.closed, hb.closed]

/-- Symbols other than the quote and the separator change nothing. -/
lemma cutQuoted_plain {a : List α} (h : ∀ b ∈ a, b ≠ q ∧ b ≠ s) (inside : Bool) :
    cutQuoted q s inside a = none ∧ quoteFlag q inside a = inside := by
  induction a with
  | nil => exact ⟨rfl, rfl⟩
  | cons c a ih =>
    obtain ⟨hq, hs⟩ := h c List.mem_cons_self
    obtain ⟨hnone, hflag⟩ := ih fun b hb => h b (List.mem_cons_of_mem _ hb)
    constructor
    · rw [cutQuoted, if_neg hq, if_neg fun hboth => hs hboth.2, hnone]
      rfl
    · rw [quoteFlag, if_neg hq, hflag]

lemma QuoteClosed.of_plain {a : List α} (h : ∀ b ∈ a, b ≠ q ∧ b ≠ s) : QuoteClosed q s a :=
  ⟨(cutQuoted_plain h false).1, (cutQuoted_plain h false).2⟩

/-! ### All cuts -/

lemma splitQuoted_none {inside : Bool} {text : List α} (h : cutQuoted q s inside text = none) :
    splitQuoted q s inside text = ([], text) := by
  induction text generalizing inside with
  | nil => rfl
  | cons c text ih =>
    rw [cutQuoted] at h
    by_cases hc : c = q
    · rw [if_pos hc, Option.map_eq_none_iff] at h
      simp [splitQuoted, hc, ih h]
    · rw [if_neg hc] at h
      by_cases hs : inside = false ∧ c = s
      · rw [if_pos hs] at h
        cases h
      · rw [if_neg hs, Option.map_eq_none_iff] at h
        simp [splitQuoted, hc, hs, ih h]

lemma splitQuoted_some {inside : Bool} {text p rest : List α}
    (h : cutQuoted q s inside text = some (p, rest)) : splitQuoted q s inside text =
      (p :: (splitQuoted q s false rest).1, (splitQuoted q s false rest).2) := by
  induction text generalizing inside p with
  | nil => cases h
  | cons c text ih =>
    rw [cutQuoted] at h
    by_cases hc : c = q
    · rw [if_pos hc] at h
      obtain ⟨⟨p', rest'⟩, hcut, ⟨⟩⟩ := Option.map_eq_some_iff.mp h
      simp [splitQuoted, hc, ih hcut]
    · rw [if_neg hc] at h
      by_cases hs : inside = false ∧ c = s
      · rw [if_pos hs] at h
        cases h
        rw [splitQuoted, if_pos ⟨hs.1, hs.2, hc⟩]
      · rw [if_neg hs] at h
        obtain ⟨⟨p', rest'⟩, hcut, ⟨⟩⟩ := Option.map_eq_some_iff.mp h
        simp [splitQuoted, hc, hs, ih hcut]

/-- A text is cut by pieces: one case for a text without a separator outside quotes, one for the
first piece and what follows it. -/
lemma cutQuoted_induction {motive : List α → Prop}
    (uncut : ∀ text, cutQuoted q s false text = none → motive text)
    (piece : ∀ text p rest, cutQuoted q s false text = some (p, rest) → text = p ++ rest →
      motive rest → motive text) (text : List α) : motive text := by
  induction hn : text.length using Nat.strong_induction_on generalizing text with
  | _ n ih =>
    subst hn
    cases hcut : cutQuoted q s false text with
    | none => exact uncut text hcut
    | some cut =>
      obtain ⟨p, rest⟩ := cut
      obtain ⟨hsplit, -, body, hbody, -⟩ := cutQuoted_some hcut
      refine piece text p rest hcut hsplit (ih rest.length ?_ rest rfl)
      rw [hsplit, hbody]
      simp only [List.length_append, List.length_singleton]
      omega

variable (q s) in
/-- The pieces and what is left behind them are the text. -/
lemma splitQuoted_flatten (text : List α) :
    (splitQuoted q s false text).1.flatten ++ (splitQuoted q s false text).2 = text := by
  induction text using cutQuoted_induction (q := q) (s := s) with
  | uncut text hcut => simp [splitQuoted_none hcut]
  | piece text p rest hcut hsplit ih =>
    rw [splitQuoted_some hcut, List.flatten_cons, List.append_assoc, ih, hsplit]

variable (q s) in
/-- What is left holds no separator outside quotes. -/
lemma splitQuoted_left (text : List α) :
    cutQuoted q s false (splitQuoted q s false text).2 = none := by
  induction text using cutQuoted_induction (q := q) (s := s) with
  | uncut text hcut => rw [splitQuoted_none hcut, hcut]
  | piece text p rest hcut hsplit ih => rw [splitQuoted_some hcut, ih]

variable (q s) in
/-- A text that follows is joined to what is left. -/
lemma splitQuoted_append (a b : List α) : splitQuoted q s false (a ++ b) =
    ((splitQuoted q s false a).1 ++ (splitQuoted q s false ((splitQuoted q s false a).2 ++ b)).1,
      (splitQuoted q s false ((splitQuoted q s false a).2 ++ b)).2) := by
  induction a using cutQuoted_induction (q := q) (s := s) with
  | uncut a hcut =>
    rw [splitQuoted_none hcut]
    rfl
  | piece a p rest hcut hsplit ih =>
    rw [splitQuoted_some hcut, splitQuoted_some (cutQuoted_append_some hcut b), ih]
    rfl

variable (q s) in
/-- The pieces by themselves leave nothing. -/
lemma splitQuoted_pieces (text : List α) :
    splitQuoted q s false (splitQuoted q s false text).1.flatten =
      ((splitQuoted q s false text).1, []) := by
  induction text using cutQuoted_induction (q := q) (s := s) with
  | uncut text hcut =>
    rw [splitQuoted_none hcut]
    rfl
  | piece text p rest hcut hsplit ih =>
    have hpiece := cutQuoted_append_some (cutQuoted_piece hcut)
      (splitQuoted q s false rest).1.flatten
    rw [splitQuoted_some hcut, List.flatten_cons, splitQuoted_some hpiece, List.nil_append, ih]

end MiniDbms
