import Mathlib

/-!
# Custody of resources

A resource is acquired, used once and released, and may be acquired again afterwards. Systems pass
resources from hand to hand. When every step of a system passes something on, or lets one holder
acquire, use or release, the events of each resource come in this order.
-/

namespace MiniDbms.Custody

variable {ρ : Type}

inductive Event (ρ : Type) where
  | acquire (r : ρ)
  | use (r : ρ)
  | release (r : ρ)
  deriving DecidableEq, Repr

def Event.resource : Event ρ → ρ
  | acquire r => r
  | use r     => r
  | release r => r

/-- Where each resource is: free, or held and used or not. -/
abbrev Ledger (ρ : Type) := ρ → Option Bool

/-- The events of a resource that is acquired, used and released. -/
def turn (r : ρ) : List (Event ρ) := [.acquire r, .use r, .release r]

/-- The events since a resource was last free. -/
def sinceFree (r : ρ) : Option Bool → List (Event ρ)
  | none       => []
  | some false => [.acquire r]
  | some true  => [.acquire r, .use r]

variable [DecidableEq ρ]

/-- The ledger after an event; `none` if the event is out of order. -/
def record (ledger : Ledger ρ) : Event ρ → Option (Ledger ρ)
  | .acquire r =>
    if ledger r = none then some (Function.update ledger r (some false)) else none
  | .use r     =>
    if ledger r = some false then some (Function.update ledger r (some true)) else none
  | .release r =>
    if ledger r = some true then some (Function.update ledger r none) else none

/-- The ledger after a log. -/
def replay (log : List (Event ρ)) : Option (Ledger ρ) :=
  log.foldl (fun ledger event => ledger.bind fun ledger => record ledger event)
    (some fun _ => none)

lemma replay_append (log : List (Event ρ)) (event : Event ρ) :
    replay (log ++ [event]) = (replay log).bind fun ledger => record ledger event := by
  rw [replay, List.foldl_append, List.foldl_cons, List.foldl_nil, ← replay]

/-- An event that is in order continues the events of its resource, and of no other. -/
lemma record_events {ledger ledger' : Ledger ρ} {event : Event ρ}
    (h : record ledger event = some ledger') (r : ρ) :
    (event.resource ≠ r ∧ ledger' r = ledger r) ∨
    (event.resource = r ∧ ((sinceFree r (ledger r) ++ [event] = sinceFree r (ledger' r)) ∨
      (sinceFree r (ledger r) ++ [event] = turn r ∧ ledger' r = none))) := by
  cases event with
  | acquire r' =>
    rw [record] at h
    split_ifs at h with hfree
    obtain rfl := Option.some.inj h
    by_cases heq : r' = r
    · subst heq
      exact .inr ⟨rfl, .inl (by simp [hfree, sinceFree])⟩
    · exact .inl ⟨heq, Function.update_of_ne (Ne.symm heq) _ _⟩
  | use r' =>
    rw [record] at h
    split_ifs at h with hheld
    obtain rfl := Option.some.inj h
    by_cases heq : r' = r
    · subst heq
      exact .inr ⟨rfl, .inl (by simp [hheld, sinceFree])⟩
    · exact .inl ⟨heq, Function.update_of_ne (Ne.symm heq) _ _⟩
  | release r' =>
    rw [record] at h
    split_ifs at h with hheld
    obtain rfl := Option.some.inj h
    by_cases heq : r' = r
    · subst heq
      exact .inr ⟨rfl, .inr ⟨by simp [hheld, sinceFree, turn], by simp⟩⟩
    · exact .inl ⟨heq, Function.update_of_ne (Ne.symm heq) _ _⟩

/-- In a log that is in order the events of each resource are whole turns, and the beginning of one
if the resource is held. -/
lemma replay_events {log : List (Event ρ)} {ledger : Ledger ρ} (h : replay log = some ledger)
    (r : ρ) : ∃ n, log.filter (fun event => event.resource = r) =
      (List.replicate n (turn r)).flatten ++ sinceFree r (ledger r) := by
  induction log using List.reverseRecOn generalizing ledger with
  | nil =>
    obtain rfl := Option.some.inj h
    exact ⟨0, rfl⟩
  | append_singleton log event ih =>
    rw [replay_append, Option.bind_eq_some_iff] at h
    obtain ⟨before, hbefore, hrecord⟩ := h
    obtain ⟨n, hn⟩ := ih hbefore
    rw [List.filter_append, hn]
    rcases record_events hrecord r with ⟨hother, hsame⟩ | ⟨hthis, hcontinued | ⟨hturn, hfree⟩⟩
    · exact ⟨n, by rw [List.filter_singleton, hsame]; simp [hother]⟩
    · refine ⟨n, ?_⟩
      rw [List.filter_singleton, ← hcontinued]
      simp [hthis]
    · refine ⟨n + 1, ?_⟩
      rw [List.filter_singleton, List.append_assoc, hfree, List.replicate_succ', List.flatten_append,
        ← hturn]
      simp [hthis, sinceFree]

/-! ### Holders -/

/-- What the holders have is what the log says: each resource that is held has one holder, who knows
whether it was used. -/
def Holds (held : Multiset (ρ × Bool)) (log : List (Event ρ)) : Prop :=
  ∃ ledger, replay log = some ledger ∧
    ∀ r used, held.count (r, used) = if ledger r = some used then 1 else 0

namespace Holds

variable {held : Multiset (ρ × Bool)} {log : List (Event ρ)} {r : ρ}

lemma nil : Holds (0 : Multiset (ρ × Bool)) [] := ⟨fun _ => none, rfl, by simp⟩

/-- The resources that are held are told apart. -/
lemma nodup (h : Holds held log) : (held.map Prod.fst).Nodup := by
  obtain ⟨ledger, -, hcount⟩ := h
  have hone : held.Nodup := by
    rw [Multiset.nodup_iff_count_le_one]
    rintro ⟨r, used⟩
    rw [hcount]
    split_ifs <;> omega
  refine (Multiset.nodup_map_iff_inj_on hone).mpr ?_
  rintro ⟨r, used⟩ h₁ ⟨r', used'⟩ h₂ (rfl : r = r')
  have hledger : ∀ b, (r, b) ∈ held → ledger r = some b := by
    intro b hb
    by_contra hne
    have hzero := hcount r b
    rw [if_neg hne] at hzero
    exact Multiset.count_eq_zero.mp hzero hb
  have hsame := (hledger used h₁).symm.trans (hledger used' h₂)
  rw [Option.some.inj hsame]

/-- A resource that nobody holds is acquired. -/
lemma acquire (h : Holds held log) (hfree : ∀ used, (r, used) ∉ held) :
    Holds ((r, false) ::ₘ held) (log ++ [.acquire r]) := by
  obtain ⟨ledger, hledger, hcount⟩ := h
  have hnone : ledger r = none := by
    cases hr : ledger r with
    | none => rfl
    | some used =>
      have hone := hcount r used
      rw [hr, if_pos rfl, Multiset.count_eq_zero.mpr (hfree used)] at hone
      exact absurd hone (by omega)
  refine ⟨Function.update ledger r (some false), ?_, ?_⟩
  · rw [replay_append, hledger, Option.bind_some, record, if_pos hnone]
  · intro r' used
    rw [Multiset.count_cons, hcount]
    by_cases heq : r' = r
    · subst heq
      cases used <;> simp [hnone]
    · simp [heq]

/-- The holder uses a resource for the first time. -/
lemma use (h : Holds ((r, false) ::ₘ held) log) :
    Holds ((r, true) ::ₘ held) (log ++ [.use r]) := by
  obtain ⟨ledger, hledger, hcount⟩ := h
  have hheld : ledger r = some false := by
    by_contra hne
    have hzero := hcount r false
    rw [if_neg hne, Multiset.count_cons_self] at hzero
    exact absurd hzero (by omega)
  refine ⟨Function.update ledger r (some true), ?_, ?_⟩
  · rw [replay_append, hledger, Option.bind_some, record, if_pos hheld]
  · intro r' used
    have hold := hcount r' used
    rw [Multiset.count_cons] at hold ⊢
    by_cases heq : r' = r
    · subst heq
      cases used <;> simp [hheld] at hold ⊢ <;> omega
    · simpa [heq] using hold

/-- The holder releases a resource that was used. -/
lemma release (h : Holds ((r, true) ::ₘ held) log) : Holds held (log ++ [.release r]) := by
  obtain ⟨ledger, hledger, hcount⟩ := h
  have hheld : ledger r = some true := by
    by_contra hne
    have hzero := hcount r true
    rw [if_neg hne, Multiset.count_cons_self] at hzero
    exact absurd hzero (by omega)
  refine ⟨Function.update ledger r none, ?_, ?_⟩
  · rw [replay_append, hledger, Option.bind_some, record, if_pos hheld]
  · intro r' used
    have hold := hcount r' used
    rw [Multiset.count_cons] at hold
    by_cases heq : r' = r
    · subst heq
      cases used <;> simp [hheld] at hold ⊢ <;> omega
    · simpa [heq] using hold

/-- The events of each resource: whole turns, and what its holder has begun. -/
lemma events (h : Holds held log) (r : ρ) :
    ∃ n, log.filter (fun event => event.resource = r) =
      (List.replicate n (turn r)).flatten ++
        (if (r, false) ∈ held then [.acquire r]
          else if (r, true) ∈ held then [.acquire r, .use r] else []) := by
  obtain ⟨ledger, hledger, hcount⟩ := h
  obtain ⟨n, hn⟩ := replay_events hledger r
  have hmem : ∀ used, (r, used) ∈ held ↔ ledger r = some used := by
    intro used
    rw [← Multiset.count_pos, hcount]
    split_ifs with heq <;> simp [heq]
  refine ⟨n, ?_⟩
  rw [hn]
  simp only [hmem]
  cases ledger r with
  | none => rfl
  | some used => cases used <;> rfl

end Holds

end MiniDbms.Custody
