import Mathlib

/-!
# Separator chains

An internal node of a search tree with separators `s₁ < … < sₙ` and children `c₀, …, cₙ`
keeps child `cᵢ` within the half-open interval `[sᵢ, sᵢ₊₁)`, the outermost bounds being those
of the node itself. `Chain P lo seps children hi` states this for an arbitrary property
`P lo hi c` of a child relative to its bounds; a missing bound is `none`.

The rule that an insertion needs is `chain_route`: it finds the child responsible for a key, and
lets that child be exchanged for any chain over the same bounds.
-/

namespace MiniDbms

variable {K C : Type}

/-! ### Chains -/

def Chain (P : Option K → Option K → C → Prop) :
    Option K → List K → List C → Option K → Prop
  | lo, [], [c], hi          => P lo hi c
  | lo, s :: ss, c :: cs, hi => P lo (some s) c ∧ Chain P (some s) ss cs hi
  | _, _, _, _               => False

variable {P : Option K → Option K → C → Prop}

@[simp] lemma chain_nil_iff {lo hi : Option K} {cs : List C} :
    Chain P lo [] cs hi ↔ ∃ c, cs = [c] ∧ P lo hi c := by
  constructor
  · intro h
    cases cs with
    | nil => cases h
    | cons c cs =>
      cases cs with
      | nil => exact ⟨c, rfl, h⟩
      | cons c' cs => cases h
  · rintro ⟨c, rfl, h⟩
    exact h

@[simp] lemma chain_cons_iff {lo hi : Option K} {s : K} {ss : List K} {cs : List C} :
    Chain P lo (s :: ss) cs hi ↔
      ∃ c cs', cs = c :: cs' ∧ P lo (some s) c ∧ Chain P (some s) ss cs' hi := by
  constructor
  · intro h
    cases cs with
    | nil => cases h
    | cons c cs' => exact ⟨c, cs', rfl, h⟩
  · rintro ⟨c, cs', rfl, h⟩
    exact h

lemma Chain.length_eq {lo hi : Option K} {ss : List K} {cs : List C}
    (h : Chain P lo ss cs hi) : cs.length = ss.length + 1 := by
  induction ss generalizing lo cs with
  | nil =>
    obtain ⟨c, rfl, _⟩ := chain_nil_iff.mp h
    simp
  | cons s ss ih =>
    obtain ⟨c, cs', rfl, _, h'⟩ := chain_cons_iff.mp h
    simp [ih h']

/-- Cutting a chain at a separator. -/
lemma chain_append_iff {lo hi : Option K} {s₁ s₂ : List K} {m : K} {c₁ c₂ : List C}
    (hlen : c₁.length = s₁.length + 1) :
    Chain P lo (s₁ ++ m :: s₂) (c₁ ++ c₂) hi ↔
      Chain P lo s₁ c₁ (some m) ∧ Chain P (some m) s₂ c₂ hi := by
  induction s₁ generalizing lo c₁ with
  | nil =>
    obtain ⟨c, rfl⟩ := List.length_eq_one_iff.mp hlen
    simp
  | cons s s₁ ih =>
    cases c₁ with
    | nil => simp at hlen
    | cons c c₁ => simp [ih (by simpa using hlen), and_assoc]

/-- The bounds of the `i`-th member are the separators around it. -/
lemma Chain.of_getElem? {lo hi : Option K} {ss : List K} {cs : List C}
    (h : Chain P lo ss cs hi) {i : Nat} {c : C} (hc : cs[i]? = some c) :
    P (if i = 0 then lo else ss[i - 1]?) (ss[i]?.or hi) c := by
  induction ss generalizing lo cs i with
  | nil =>
    obtain ⟨c', rfl, hc'⟩ := chain_nil_iff.mp h
    cases i with
    | zero => simpa [← Option.some.inj hc] using hc'
    | succ i => simp at hc
  | cons s ss ih =>
    obtain ⟨c', cs', rfl, hc', h'⟩ := chain_cons_iff.mp h
    cases i with
    | zero => simpa [← Option.some.inj hc] using hc'
    | succ i =>
      have := ih h' (i := i) (by simpa using hc)
      cases i <;> simpa using this

/-- Only the last member of a chain sees the upper bound. -/
lemma Chain.mono_upper {lo hi hi' : Option K} {ss : List K} {cs : List C}
    (h : Chain P lo ss cs hi) (hP : ∀ a c, P a hi c → P a hi' c) : Chain P lo ss cs hi' := by
  induction ss generalizing lo cs with
  | nil =>
    obtain ⟨c, rfl, hc⟩ := chain_nil_iff.mp h
    exact hP lo c hc
  | cons s ss ih =>
    obtain ⟨c, cs', rfl, hc, h'⟩ := chain_cons_iff.mp h
    exact ⟨hc, ih h'⟩

section Order

variable [LinearOrder K]

/-! ### Half-open intervals with optional bounds -/

/-- `k` lies in `[lo, hi)`. -/
def InRange (lo hi : Option K) (k : K) : Prop :=
  (∀ l ∈ lo, l ≤ k) ∧ (∀ u ∈ hi, k < u)

/-- The interval `[lo, hi)` has its bounds in order. -/
def Bounded (lo hi : Option K) : Prop := ∀ l ∈ lo, ∀ u ∈ hi, l < u

lemma InRange.bounded {lo hi : Option K} {k : K} (h : InRange lo hi k) : Bounded lo hi :=
  fun l hl u hu => lt_of_le_of_lt (h.1 l hl) (h.2 u hu)

@[simp] lemma inRange_none_none (k : K) : InRange none none k := by simp [InRange]

/-! ### Order of the separators -/

/-- The bounds of a chain are in order as soon as those of its members are. -/
lemma Chain.bounded (hP : ∀ a b c, P a b c → Bounded a b) {lo hi : Option K} {ss : List K}
    {cs : List C} (h : Chain P lo ss cs hi) : Bounded lo hi := by
  induction ss generalizing lo cs with
  | nil =>
    obtain ⟨c, rfl, hc⟩ := chain_nil_iff.mp h
    exact hP _ _ _ hc
  | cons s ss ih =>
    obtain ⟨c, cs', rfl, hc, h'⟩ := chain_cons_iff.mp h
    intro l hl u hu
    exact lt_trans (hP _ _ _ hc l hl s rfl) (ih h' s rfl u hu)

/-- Separators lie strictly above the lower bound and below the upper one. -/
lemma Chain.sep_bounds (hP : ∀ a b c, P a b c → Bounded a b) {lo hi : Option K} {ss : List K}
    {cs : List C} (h : Chain P lo ss cs hi) :
    ∀ s ∈ ss, (∀ l ∈ lo, l < s) ∧ (∀ u ∈ hi, s < u) := by
  induction ss generalizing lo cs with
  | nil => simp
  | cons s ss ih =>
    obtain ⟨c, cs', rfl, hc, h'⟩ := chain_cons_iff.mp h
    have hs : ∀ l ∈ lo, l < s := fun l hl => hP _ _ _ hc l hl s rfl
    intro s' hs'
    rcases List.mem_cons.mp hs' with rfl | hmem
    · exact ⟨hs, fun u hu => h'.bounded hP _ rfl u hu⟩
    · have := ih h' s' hmem
      exact ⟨fun l hl => lt_trans (hs l hl) (this.1 s rfl), this.2⟩

lemma Chain.pairwise (hP : ∀ a b c, P a b c → Bounded a b) {lo hi : Option K} {ss : List K}
    {cs : List C} (h : Chain P lo ss cs hi) : ss.Pairwise (· < ·) := by
  induction ss generalizing lo cs with
  | nil => simp
  | cons s ss ih =>
    obtain ⟨c, cs', rfl, _, h'⟩ := chain_cons_iff.mp h
    exact List.pairwise_cons.mpr ⟨fun s' hs' => (h'.sep_bounds hP s' hs').1 s rfl, ih h'⟩

/-- Listing the keys of each member in turn gives one ascending list within the bounds. -/
lemma Chain.flatMap_sorted {f : C → List K}
    (hP : ∀ a b c, P a b c →
      Bounded a b ∧ (f c).Pairwise (· < ·) ∧ ∀ k ∈ f c, InRange a b k)
    {lo hi : Option K} {ss : List K} {cs : List C} (h : Chain P lo ss cs hi) :
    (cs.flatMap f).Pairwise (· < ·) ∧ ∀ k ∈ cs.flatMap f, InRange lo hi k := by
  induction ss generalizing lo cs with
  | nil =>
    obtain ⟨c, rfl, hc⟩ := chain_nil_iff.mp h
    simpa using (hP _ _ _ hc).2
  | cons s ss ih =>
    obtain ⟨c, cs', rfl, hc, h'⟩ := chain_cons_iff.mp h
    obtain ⟨hlo, h1, h2⟩ := hP _ _ _ hc
    obtain ⟨h3, h4⟩ := ih h'
    have hhi : Bounded (some s) hi := h'.bounded fun a b c hc => (hP a b c hc).1
    rw [List.flatMap_cons]
    constructor
    · refine List.pairwise_append.mpr ⟨h1, h3, fun k hk k' hk' => ?_⟩
      exact lt_of_lt_of_le ((h2 k hk).2 s rfl) ((h4 k' hk').1 s rfl)
    · intro k hk
      rcases List.mem_append.mp hk with hk | hk
      · exact ⟨(h2 k hk).1, fun u hu => lt_trans ((h2 k hk).2 s rfl) (hhi s rfl u hu)⟩
      · exact ⟨fun l hl => le_trans (hlo l hl s rfl).le ((h4 k hk).1 s rfl), (h4 k hk).2⟩

/-- The lower bounds within a chain do not fall below that of the chain. -/
lemma Chain.exists_lower_of_mem (hP : ∀ a b c, P a b c → Bounded a b) {s k : K}
    {hi : Option K} {ss : List K} {cs : List C} (h : Chain P (some s) ss cs hi) {c : C}
    (hc : c ∈ cs) (hk : k < s) : ∃ l b, P (some l) b c ∧ k < l := by
  induction ss generalizing s cs with
  | nil =>
    obtain ⟨c', rfl, hc'⟩ := chain_nil_iff.mp h
    rw [List.mem_singleton] at hc
    exact ⟨s, hi, hc ▸ hc', hk⟩
  | cons s' ss ih =>
    obtain ⟨c', cs', rfl, hc', h'⟩ := chain_cons_iff.mp h
    rcases List.mem_cons.mp hc with rfl | hmem
    · exact ⟨s, some s', hc', hk⟩
    · exact ih h' hmem (lt_trans hk (hP _ _ _ hc' s rfl s' rfl))

/-- The slot of the first separator above `k` holds the child responsible for `k`. -/
lemma chain_route {lo hi : Option K} {ss : List K} {cs : List C} {k : K}
    (h : Chain P lo ss cs hi) (hk : InRange lo hi k) :
    ∃ c a b, cs = cs.take (ss.findIdx (k < ·)) ++ c :: cs.drop (ss.findIdx (k < ·) + 1) ∧
      cs[ss.findIdx (k < ·)]? = some c ∧ P a b c ∧ InRange a b k ∧
      ∀ ts ms, Chain P a ts ms b →
        Chain P lo (ss.take (ss.findIdx (k < ·)) ++ ts ++ ss.drop (ss.findIdx (k < ·)))
          (cs.take (ss.findIdx (k < ·)) ++ ms ++ cs.drop (ss.findIdx (k < ·) + 1)) hi := by
  induction ss generalizing lo cs with
  | nil =>
    obtain ⟨c, rfl, hc⟩ := chain_nil_iff.mp h
    exact ⟨c, lo, hi, by simp, by simp, hc, hk, fun ts ms hm => by simpa using hm⟩
  | cons s ss ih =>
    obtain ⟨c, cs', rfl, hc, h'⟩ := chain_cons_iff.mp h
    by_cases hks : k < s
    · refine ⟨c, lo, some s, by simp [List.findIdx_cons, hks], by simp [List.findIdx_cons, hks],
        hc, ⟨hk.1, by simpa using hks⟩, fun ts ms hm => ?_⟩
      simpa [List.findIdx_cons, hks] using (chain_append_iff hm.length_eq).mpr ⟨hm, h'⟩
    · have hk' : InRange (some s) hi k := ⟨by simpa using not_lt.mp hks, hk.2⟩
      obtain ⟨c', a, b, hcs, hget, hc', hin, hall⟩ := ih h' hk'
      refine ⟨c', a, b, ?_, ?_, hc', hin, fun ts ms hm => ?_⟩
      · simpa [List.findIdx_cons, hks] using hcs
      · simpa [List.findIdx_cons, hks] using hget
      · simpa [List.findIdx_cons, hks] using ⟨hc, by simpa using hall ts ms hm⟩

/-- The children before that slot end at or below `k`, and those after it begin above `k`. -/
lemma chain_route_siblings (hP : ∀ a b c, P a b c → Bounded a b) {lo hi : Option K}
    {ss : List K} {cs : List C} {k : K} (h : Chain P lo ss cs hi) :
    (∀ c ∈ cs.take (ss.findIdx (k < ·)), ∃ a u, P a (some u) c ∧ u ≤ k) ∧
      (∀ c ∈ cs.drop (ss.findIdx (k < ·) + 1), ∃ l b, P (some l) b c ∧ k < l) := by
  induction ss generalizing lo cs with
  | nil =>
    obtain ⟨c, rfl, _⟩ := chain_nil_iff.mp h
    simp
  | cons s ss ih =>
    obtain ⟨c, cs', rfl, hc, h'⟩ := chain_cons_iff.mp h
    by_cases hks : k < s
    · refine ⟨by simp [List.findIdx_cons, hks], fun c' hc' => ?_⟩
      simp only [List.findIdx_cons, hks, decide_true, cond_true, Nat.zero_add, List.drop_succ_cons,
        List.drop_zero] at hc'
      exact h'.exists_lower_of_mem hP hc' hks
    · obtain ⟨hl, hr⟩ := ih h'
      constructor
      · intro c' hc'
        simp only [List.findIdx_cons, hks, decide_false, cond_false, List.take_succ_cons,
          List.mem_cons] at hc'
        rcases hc' with rfl | hc'
        · exact ⟨lo, s, hc, not_lt.mp hks⟩
        · exact hl c' hc'
      · simpa [List.findIdx_cons, hks] using hr

end Order
end MiniDbms
