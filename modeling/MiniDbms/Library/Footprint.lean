import Mathlib

/-!
# Footprints

A computation on a store of values under keys is confined to a set of keys when it reads no other
key and changes no other key. Footprints of the parts of a computation add up.
-/

namespace MiniDbms

variable {κ ν α β : Type}

/-- From the store `s`, `f` reads and changes nothing outside `S`: on a store that agrees with `s`
there, it returns the same value, leaves the same values in `S`, and keeps the others. -/
def Confined (S : Set κ) (f : (κ → ν) → (κ → ν) × α) (s : κ → ν) : Prop :=
  ∀ s', (∀ k ∈ S, s' k = s k) →
    (f s').2 = (f s).2 ∧ (∀ k ∈ S, (f s').1 k = (f s).1 k) ∧ ∀ k ∉ S, (f s').1 k = s' k

namespace Confined

variable {S T : Set κ} {f : (κ → ν) → (κ → ν) × α} {s : κ → ν}

/-- No other key changes. -/
lemma frame (h : Confined S f s) {k : κ} (hk : k ∉ S) : (f s).1 k = s k :=
  (h s fun _ _ => rfl).2.2 k hk

/-- A computation that does not use the store. -/
lemma pure (a : α) : Confined S (fun s => (s, a)) s := by
  intro s' hagree
  exact ⟨rfl, hagree, fun _ _ => rfl⟩

/-- A computation that changes the value under one key, depending on that value. -/
lemma modify [DecidableEq κ] {k : κ} (hk : k ∈ S) (g : ν → ν × α) :
    Confined S (fun s => (Function.update s k (g (s k)).1, (g (s k)).2)) s := by
  intro s' hagree
  dsimp only
  rw [hagree k hk]
  refine ⟨rfl, ?_, ?_⟩
  · intro k' hk'
    by_cases heq : k' = k
    · rw [heq, Function.update_self, Function.update_self]
    · rw [Function.update_of_ne heq, Function.update_of_ne heq, hagree k' hk']
  · intro k' hk'
    exact Function.update_of_ne (ne_of_mem_of_not_mem hk hk').symm _ _

/-- One computation after the other: `h` does what `f` does, and goes on with `g`, which may depend
on the value that `f` has returned. -/
lemma seq {g h : (κ → ν) → (κ → ν) × β} (hf : Confined S f s) (hg : Confined T g (f s).1)
    (hseq : ∀ s', (f s').2 = (f s).2 → h s' = g (f s').1) : Confined (S ∪ T) h s := by
  intro s' hagree
  obtain ⟨hvalue, hin, hout⟩ := hf s' fun k hk => hagree k (.inl hk)
  have hnext : ∀ k ∈ T, (f s').1 k = (f s).1 k := by
    intro k hk
    by_cases hmem : k ∈ S
    · exact hin k hmem
    · rw [hout k hmem, hf.frame hmem, hagree k (.inr hk)]
  obtain ⟨hvalue', hin', hout'⟩ := hg _ hnext
  rw [hseq s' hvalue, hseq s rfl]
  refine ⟨hvalue', ?_, ?_⟩
  · intro k hk
    by_cases hmem : k ∈ T
    · exact hin' k hmem
    · have hkS : k ∈ S := hk.resolve_right hmem
      rw [hout' k hmem, hin k hkS, hg.frame hmem]
  · intro k hk
    rw [hout' k fun hmem => hk (.inr hmem), hout k fun hmem => hk (.inl hmem)]

/-- A value that is computed from another. -/
lemma map {g : α → β} {h : (κ → ν) → (κ → ν) × β} (hf : Confined S f s)
    (hmap : ∀ s', h s' = ((f s').1, g (f s').2)) : Confined S h s := by
  intro s' hagree
  obtain ⟨hvalue, hin, hout⟩ := hf s' hagree
  rw [hmap s', hmap s]
  exact ⟨congrArg g hvalue, hin, hout⟩

end Confined

end MiniDbms
