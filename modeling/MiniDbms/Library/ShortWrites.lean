import Mathlib

/-!
# Writing in pieces

A device takes a part of what it is offered, or fails. The loop offers what is left until nothing
is left.
-/

namespace MiniDbms

variable {α : Type}

/-- What a device answers when it is called for the `k`-th time with `n` items: how many it has
taken, or a number that is not positive for a failure. It never takes more than it is offered. -/
structure Device where
  take : (k n : Nat) → Int
  take_le : ∀ k n, take k n ≤ n

namespace Device

/-- The loop, from the `k`-th call on: the items that the device has taken, and whether it has taken
all. Each round takes an item, so there are no more rounds than items. -/
def writeLoop (device : Device) : (fuel k : Nat) → List α → List α × Bool
  | 0, _, rest        => ([], rest.isEmpty)
  | fuel + 1, k, rest =>
    if rest.isEmpty then ([], true)
    else
      let taken := device.take k rest.length
      if taken ≤ 0 then ([], false)
      else
        let (written, complete) := device.writeLoop fuel (k + 1) (rest.drop taken.toNat)
        (rest.take taken.toNat ++ written, complete)

/-- Writing everything. -/
def write (device : Device) (items : List α) : List α × Bool :=
  device.writeLoop items.length 0 items

lemma writeLoop_spec (device : Device) {fuel k : Nat} {rest : List α} (h : rest.length ≤ fuel) :
    (device.writeLoop fuel k rest).1 <+: rest ∧
      ((device.writeLoop fuel k rest).2 = true ↔ (device.writeLoop fuel k rest).1 = rest) := by
  induction fuel generalizing k rest with
  | zero =>
    obtain rfl := List.length_eq_zero_iff.mp (Nat.le_zero.mp h)
    exact ⟨List.prefix_refl _, by simp [writeLoop]⟩
  | succ fuel ih =>
    rw [writeLoop]
    by_cases hempty : rest.isEmpty = true
    · rw [if_pos hempty]
      obtain rfl := List.isEmpty_iff.mp hempty
      exact ⟨List.prefix_refl _, by simp⟩
    rw [if_neg hempty]
    rw [List.isEmpty_iff] at hempty
    by_cases hfail : device.take k rest.length ≤ 0
    · rw [if_pos hfail]
      exact ⟨List.nil_prefix, by simpa using Ne.symm hempty⟩
    · rw [if_neg hfail]
      have htaken : 1 ≤ (device.take k rest.length).toNat := by omega
      obtain ⟨hbegins, hcomplete⟩ := @ih (k + 1) (rest.drop (device.take k rest.length).toNat)
        (by rw [List.length_drop]; omega)
      generalize device.writeLoop fuel (k + 1) _ = outcome at hbegins hcomplete
      obtain ⟨written, complete⟩ := outcome
      have hsplit := List.take_append_drop (device.take k rest.length).toNat rest
      generalize rest.take (device.take k rest.length).toNat = taken at hsplit
      generalize rest.drop (device.take k rest.length).toNat = left at hbegins hcomplete hsplit
      subst hsplit
      refine ⟨(List.prefix_append_right_inj taken).mpr hbegins, ?_⟩
      rw [hcomplete, List.append_right_inj]

/-- What is written is a beginning of the items, and it is all of them exactly if the loop says
so. -/
lemma write_spec (device : Device) (items : List α) :
    (device.write items).1 <+: items ∧
      ((device.write items).2 = true ↔ (device.write items).1 = items) :=
  device.writeLoop_spec le_rfl

/-- A device that never fails takes everything, in however many pieces. -/
lemma write_complete (device : Device) (h : ∀ k n, 0 < n → 0 < device.take k n) (items : List α) :
    (device.write items).2 = true := by
  have hloop : ∀ (fuel k : Nat) (rest : List α), rest.length ≤ fuel →
      (device.writeLoop fuel k rest).2 = true := by
    intro fuel
    induction fuel with
    | zero =>
      intro k rest hrest
      simpa [writeLoop] using hrest
    | succ fuel ih =>
      intro k rest hrest
      rw [writeLoop]
      by_cases hempty : rest.isEmpty = true
      · rw [if_pos hempty]
      · have hpos := List.length_pos_of_ne_nil (fun hnil => hempty (List.isEmpty_iff.mpr hnil))
        have htaken := h k rest.length hpos
        rw [if_neg hempty, if_neg (by omega)]
        exact ih (k + 1) _ (by rw [List.length_drop]; omega)
  exact hloop items.length 0 items le_rfl

end Device

end MiniDbms
