import MiniDbms.Library.Heap

/-!
# Linked segments

Cells that lead to one another by a link. A segment is the list of its cells, each with its link.
-/

namespace MiniDbms

/-- From `start` on each link leads to the next cell, and the last one to `stop`. -/
def Segment : (start : Option Addr) → List (Addr × Option Addr) → (stop : Option Addr) → Prop
  | start, [], stop             => start = stop
  | start, (a, next) :: l, stop => start = some a ∧ Segment next l stop

lemma segment_append_iff {start stop : Option Addr} {l l' : List (Addr × Option Addr)} :
    Segment start (l ++ l') stop ↔ ∃ mid, Segment start l mid ∧ Segment mid l' stop := by
  induction l generalizing start with
  | nil => simp [Segment]
  | cons c l ih => simp [Segment, ih, and_assoc]

/-- A part of a segment may be exchanged for another one with the same ends. -/
lemma Segment.exchange {start stop : Option Addr} {l m m' r : List (Addr × Option Addr)}
    (h : Segment start (l ++ m ++ r) stop)
    (hm : ∀ first last, Segment first m last → Segment first m' last) :
    Segment start (l ++ m' ++ r) stop := by
  obtain ⟨last, hlm, hr⟩ := segment_append_iff.mp h
  obtain ⟨first, hl, hm'⟩ := segment_append_iff.mp hlm
  exact segment_append_iff.mpr ⟨last, segment_append_iff.mpr ⟨first, hl, hm _ _ hm'⟩, hr⟩

/-- Following the links from `start` to the end visits the listed cells in turn. -/
inductive Visits (next : Addr → Option Addr) : (start : Option Addr) → List Addr → Prop where
  | done : Visits next none []
  | step {a : Addr} {l : List Addr} (h : Visits next (next a) l) : Visits next (some a) (a :: l)

lemma Segment.visits {next : Addr → Option Addr} {start : Option Addr}
    {l : List (Addr × Option Addr)} (h : Segment start l none) (hnext : ∀ c ∈ l, next c.1 = c.2) :
    Visits next start (l.map Prod.fst) := by
  induction l generalizing start with
  | nil =>
    cases h
    exact .done
  | cons c l ih =>
    obtain ⟨hstart, hrest⟩ := h
    rw [hstart]
    refine .step ?_
    rw [hnext c List.mem_cons_self]
    exact ih hrest fun c' hc' => hnext c' (List.mem_cons_of_mem c hc')

end MiniDbms
