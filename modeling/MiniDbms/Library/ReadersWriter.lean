import Mathlib

/-!
# Queries under a readers-writer lock

Every client runs one query. It chooses a lock mode before it has the lock. With the read lock it
checks whether the query will leave the shared state alone; if not, it gives the lock back and
takes the write lock. Then it executes the query and releases the lock.

The shared state and all results are those of the queries executed one after another in the order
in which the clients took their locks for the last time.
-/

namespace MiniDbms.ReadersWriter

inductive LockMode where
  | read
  | write
  deriving DecidableEq, Repr

/-- The queries of a system: the lock mode that is chosen first, the check under the read lock and
the execution. A query that passes the check does not change the state. -/
structure QuerySystem (σ Q R : Type) where
  mode : Q → LockMode
  check : Q → σ → Bool
  exec : Q → σ → σ × R
  read_only : ∀ q s, mode q = .read → check q s = true → (exec q s).1 = s

/-- Where a client is in its query. -/
inductive Phase (R : Type) where
  | idle
  | waiting (m : LockMode)
  | checking
  | upgrading
  | ready (m : LockMode)
  | executed (m : LockMode) (r : R)
  | done (m : LockMode) (r : R)

namespace Phase

variable {R : Type}

/-- The lock that the client holds. -/
def lock : Phase R → Option LockMode
  | checking     => some .read
  | upgrading    => some .read
  | ready m      => some m
  | executed m _ => some m
  | _            => none

/-- The mode in which the query was executed, and its result. -/
def outcome : Phase R → Option (LockMode × R)
  | executed m r => some (m, r)
  | done m r     => some (m, r)
  | _            => none

end Phase

/-- The shared state, the clients, and the clients that ever took a lock in the order in which they
took it for the last time. -/
structure System (ι σ R : Type) where
  shared : σ
  phase : ι → Phase R
  order : List ι

namespace System

variable {ι σ R : Type}

def init (s₀ : σ) : System ι σ R := ⟨s₀, fun _ => .idle, []⟩

/-- Nobody holds a lock that excludes this mode. -/
def Free (s : System ι σ R) (m : LockMode) : Prop :=
  ∀ d, (s.phase d).lock = none ∨ (m = .read ∧ (s.phase d).lock = some .read)

variable [DecidableEq ι]

def setPhase (s : System ι σ R) (c : ι) (p : Phase R) : System ι σ R :=
  { s with phase := Function.update s.phase c p }

/-- The client takes a lock. -/
def acquire (s : System ι σ R) (c : ι) (p : Phase R) : System ι σ R :=
  { s.setPhase c p with order := s.order.filter (· ≠ c) ++ [c] }

/-- The clients that have executed their query, in the order of their last locks. -/
def executedOrder (s : System ι σ R) : List ι :=
  s.order.filter fun c => (s.phase c).outcome.isSome

end System

section Steps

variable {ι σ Q R : Type} [DecidableEq ι] (S : QuerySystem σ Q R) (q : ι → Q)

/-- One step of one client. -/
inductive Step (c : ι) (s : System ι σ R) : System ι σ R → Prop
  | choose (h : s.phase c = .idle) : Step c s (s.setPhase c (.waiting (S.mode (q c))))
  | acquireRead (h : s.phase c = .waiting .read) (hfree : s.Free .read) :
      Step c s (s.acquire c .checking)
  | acquireWrite (h : s.phase c = .waiting .write) (hfree : s.Free .write) :
      Step c s (s.acquire c (.ready .write))
  | checkPassed (h : s.phase c = .checking) (hcheck : S.check (q c) s.shared = true) :
      Step c s (s.setPhase c (.ready .read))
  | checkFailed (h : s.phase c = .checking) (hcheck : S.check (q c) s.shared = false) :
      Step c s (s.setPhase c .upgrading)
  | unlock (h : s.phase c = .upgrading) : Step c s (s.setPhase c (.waiting .write))
  | exec (m : LockMode) (h : s.phase c = .ready m) :
      Step c s { s.setPhase c (.executed m (S.exec (q c) s.shared).2) with
        shared := (S.exec (q c) s.shared).1 }
  | release (m : LockMode) (r : R) (h : s.phase c = .executed m r) :
      Step c s (s.setPhase c (.done m r))

/-- The states that some interleaving of the clients reaches. -/
inductive Reachable (s₀ : σ) : System ι σ R → Prop
  | init : Reachable s₀ (.init s₀)
  | step {s s' : System ι σ R} {c : ι} (h : Reachable s₀ s) (hstep : Step S q c s s') :
      Reachable s₀ s'

end Steps

/-! ### Serial execution -/

section Serial

variable {ι σ Q R : Type} (S : QuerySystem σ Q R) (q : ι → Q)

/-- The state after the queries of the clients, one after another. -/
def serialState (s : σ) (l : List ι) : σ := l.foldl (fun s c => (S.exec (q c) s).1) s

/-- The outcomes are those of the serial execution, and reading changed nothing. -/
def Agrees (outcome : ι → Option (LockMode × R)) : σ → List ι → Prop
  | _, []     => True
  | s, c :: l =>
    (∃ m, outcome c = some (m, (S.exec (q c) s).2) ∧ (m = .read → (S.exec (q c) s).1 = s)) ∧
      Agrees outcome (S.exec (q c) s).1 l

variable {S q} {outcome : ι → Option (LockMode × R)} {s : σ}

lemma serialState_append (l l' : List ι) :
    serialState S q s (l ++ l') = serialState S q (serialState S q s l) l' :=
  List.foldl_append

lemma Agrees.congr {outcome' : ι → Option (LockMode × R)} {l : List ι}
    (h : Agrees S q outcome s l) (heq : ∀ c ∈ l, outcome' c = outcome c) :
    Agrees S q outcome' s l := by
  induction l generalizing s with
  | nil => trivial
  | cons c l ih =>
    refine ⟨?_, ih h.2 fun d hd => heq d (by simp [hd])⟩
    rw [heq c List.mem_cons_self]
    exact h.1

lemma agrees_append {l l' : List ι} :
    Agrees S q outcome s (l ++ l') ↔
      Agrees S q outcome s l ∧ Agrees S q outcome (serialState S q s l) l' := by
  induction l generalizing s with
  | nil => simp [Agrees, serialState]
  | cons c l ih =>
    simp only [List.cons_append, Agrees, ih, and_assoc]
    rfl

/-- Readers leave the state alone. -/
lemma Agrees.readers {l : List ι} (h : Agrees S q outcome s l)
    (hread : ∀ c ∈ l, ∀ m r, outcome c = some (m, r) → m = .read) : serialState S q s l = s := by
  induction l generalizing s with
  | nil => rfl
  | cons c l ih =>
    obtain ⟨⟨m, hm, hquiet⟩, hrest⟩ := h
    have hsame := hquiet (hread c List.mem_cons_self m _ hm)
    rw [hsame] at hrest
    have htail := ih hrest fun d hd => hread d (by simp [hd])
    rw [serialState, List.foldl_cons, hsame]
    exact htail

/-- A query may be put in front of readers if it reads, or if there are none. -/
lemma Agrees.insert {l l' : List ι} {c : ι} {m : LockMode} (h : Agrees S q outcome s (l ++ l'))
    (hread : ∀ d ∈ l', m = .read ∧ ∀ m' r, outcome d = some (m', r) → m' = .read)
    (hc : outcome c = some (m, (S.exec (q c) (serialState S q s (l ++ l'))).2))
    (hquiet : m = .read → (S.exec (q c) (serialState S q s (l ++ l'))).1 =
      serialState S q s (l ++ l')) :
    Agrees S q outcome s (l ++ c :: l') ∧
      serialState S q s (l ++ c :: l') = (S.exec (q c) (serialState S q s (l ++ l'))).1 := by
  obtain ⟨hl, hl'⟩ := agrees_append.mp h
  have hstate : serialState S q s (l ++ l') = serialState S q s l := by
    rw [serialState_append]
    exact hl'.readers fun d hd => (hread d hd).2
  rw [hstate] at hc hquiet ⊢
  cases l' with
  | nil =>
    refine ⟨agrees_append.mpr ⟨hl, ⟨m, hc, hquiet⟩, trivial⟩, ?_⟩
    rw [serialState_append]
    rfl
  | cons d l' =>
    have hsame := hquiet (hread d List.mem_cons_self).1
    refine ⟨agrees_append.mpr ⟨hl, ⟨m, hc, hquiet⟩, ?_⟩, ?_⟩
    · rw [hsame]
      exact hl'
    · have hcons : serialState S q s (l ++ c :: d :: l') =
          serialState S q (S.exec (q c) (serialState S q s l)).1 (d :: l') := by
        rw [serialState_append]
        rfl
      rw [hcons, hsame]
      exact hl'.readers fun e he => (hread e he).2

end Serial

/-! ### The invariant -/

section Invariant

variable {ι σ Q R : Type}

structure Inv (S : QuerySystem σ Q R) (q : ι → Q) (s₀ : σ) (s : System ι σ R) : Prop where
  exclusive : ∀ c, (s.phase c).lock = some .write → ∀ d, d ≠ c → (s.phase d).lock = none
  nodup : s.order.Nodup
  mem_order : ∀ c, (s.phase c).lock ≠ none ∨ (s.phase c).outcome ≠ none → c ∈ s.order
  mode_waiting : ∀ c, s.phase c = .waiting .read → S.mode (q c) = .read
  mode_reading : ∀ c, s.phase c = .checking ∨ s.phase c = .ready .read → S.mode (q c) = .read
  checked : ∀ c, s.phase c = .ready .read → S.check (q c) s.shared = true
  /-- Whoever took a lock after a client that still holds one has only read. -/
  readers_after : ∀ c d m, [c, d].Sublist s.order → (s.phase c).lock = some m →
    m = .read ∧ ∀ m' r, (s.phase d).outcome = some (m', r) → m' = .read
  agrees : Agrees S q (fun c => (s.phase c).outcome) s₀ s.executedOrder
  shared_eq : s.shared = serialState S q s₀ s.executedOrder

variable {S : QuerySystem σ Q R} {q : ι → Q} {s₀ : σ} {s s' : System ι σ R} {c : ι}

lemma Inv.init : Inv S q s₀ (.init s₀) := by
  constructor
  · rintro c ⟨⟩
  · exact List.nodup_nil
  · rintro c (h | h) <;> exact absurd rfl h
  · rintro c ⟨⟩
  · rintro c (h | h) <;> cases h
  · rintro c ⟨⟩
  · rintro c d m ⟨⟩
  · trivial
  · rfl

variable [DecidableEq ι]

/-- A client that keeps its outcome and takes no lock. -/
lemma Inv.setPhase (h : Inv S q s₀ s) {p : Phase R}
    (hlock : p.lock = none ∨ p.lock = (s.phase c).lock)
    (houtcome : p.outcome = (s.phase c).outcome)
    (hwaiting : p = .waiting .read → S.mode (q c) = .read)
    (hreading : p = .checking ∨ p = .ready .read → S.mode (q c) = .read)
    (hchecked : p = .ready .read → S.check (q c) s.shared = true) :
    Inv S q s₀ (s.setPhase c p) := by
  have hphase : ∀ d, (s.setPhase c p).phase d = if d = c then p else s.phase d := by
    intro d
    simp [System.setPhase, Function.update_apply]
  -- locks are only given back
  have hlocks : ∀ d m, ((s.setPhase c p).phase d).lock = some m → (s.phase d).lock = some m := by
    intro d m hd
    rw [hphase] at hd
    split_ifs at hd with hdc
    · subst hdc
      rcases hlock with hnone | hsame
      · rw [hnone] at hd
        cases hd
      · rw [← hsame]
        exact hd
    · exact hd
  have houtcomes : ∀ d, ((s.setPhase c p).phase d).outcome = (s.phase d).outcome := by
    intro d
    rw [hphase]
    split_ifs with hdc
    · rw [hdc, houtcome]
    · rfl
  have hexecuted : (s.setPhase c p).executedOrder = s.executedOrder := by
    simp only [System.executedOrder, houtcomes]
    rfl
  constructor
  · intro d hd e he
    have hnone := h.exclusive d (hlocks d _ hd) e he
    cases hlock' : ((s.setPhase c p).phase e).lock with
    | none => rfl
    | some m =>
      rw [hlocks e m hlock'] at hnone
      cases hnone
  · exact h.nodup
  · rintro d (hd | hd)
    · obtain ⟨m, hm⟩ := Option.ne_none_iff_exists'.mp hd
      exact h.mem_order d (.inl (by rw [hlocks d m hm]; simp))
    · rw [houtcomes] at hd
      exact h.mem_order d (.inr hd)
  · intro d hd
    rw [hphase] at hd
    split_ifs at hd with hdc
    · exact hdc ▸ hwaiting hd
    · exact h.mode_waiting d hd
  · intro d hd
    rw [hphase] at hd
    split_ifs at hd with hdc
    · exact hdc ▸ hreading hd
    · exact h.mode_reading d hd
  · intro d hd
    rw [hphase] at hd
    split_ifs at hd with hdc
    · exact hdc ▸ hchecked hd
    · exact h.checked d hd
  · intro d e m hde hd
    simp only [houtcomes]
    exact h.readers_after d e m hde (hlocks d m hd)
  · rw [hexecuted]
    exact h.agrees.congr fun d _ => houtcomes d
  · rw [hexecuted]
    exact h.shared_eq

omit [DecidableEq ι] in
/-- Two neighbours in time, when one more stands at the end. -/
lemma pair_sublist_concat {l : List ι} {c d e : ι} (h : [d, e].Sublist (l ++ [c])) :
    d ∈ l ∧ (e = c ∨ [d, e].Sublist l) := by
  obtain ⟨l₁, l₂, heq, h₁, h₂⟩ := List.sublist_append_iff.mp h
  rcases List.sublist_singleton.mp h₂ with rfl | rfl
  · rw [List.append_nil] at heq
    subst heq
    exact ⟨h₁.subset List.mem_cons_self, .inr h₁⟩
  · obtain ⟨rfl, rfl⟩ : [d] = l₁ ∧ e = c := by
      have hsplit : [d] ++ [e] = l₁ ++ [c] := heq
      have := List.append_inj' hsplit rfl
      exact ⟨this.1, by simpa using this.2⟩
    exact ⟨h₁.subset List.mem_cons_self, .inl rfl⟩

lemma System.acquire_phase (s : System ι σ R) (c : ι) (p : Phase R) (d : ι) :
    (s.acquire c p).phase d = if d = c then p else s.phase d := by
  simp [System.acquire, System.setPhase, Function.update_apply]

lemma System.acquire_outcome {p : Phase R} (hp : p.outcome = (s.phase c).outcome) (d : ι) :
    ((s.acquire c p).phase d).outcome = (s.phase d).outcome := by
  rw [System.acquire_phase]
  split_ifs with hdc
  · rw [hdc, hp]
  · rfl

/-- A client that has not executed its query can take its lock anew. -/
lemma System.acquire_executedOrder {p : Phase R} (hp : p.outcome = none)
    (hc : (s.phase c).outcome = none) : (s.acquire c p).executedOrder = s.executedOrder := by
  have hnot : (s.phase c).outcome.isSome = false := by
    rw [hc]
    rfl
  simp only [System.executedOrder, System.acquire_outcome (hp.trans hc.symm)]
  simp only [System.acquire, List.filter_append, List.filter_filter, List.filter_cons, hnot,
    Bool.false_eq_true, if_false, List.filter_nil, List.append_nil]
  apply List.filter_congr
  intro d _
  by_cases hdc : d = c
  · simp [hdc, hnot]
  · simp [hdc]

/-- A client takes a lock that is free. -/
lemma Inv.acquire (h : Inv S q s₀ s) {p : Phase R} {m : LockMode} (hwait : s.phase c = .waiting m)
    (hfree : s.Free m) (hlock : p.lock = some m) (houtcome : p.outcome = none)
    (hwaiting : p ≠ .waiting .read) (hready : p ≠ .ready .read)
    (hmode : p = .checking → S.mode (q c) = .read) : Inv S q s₀ (s.acquire c p) := by
  have hphase := s.acquire_phase c p
  have hnone : (s.phase c).outcome = none := by rw [hwait]; rfl
  have houtcomes := @System.acquire_outcome _ _ _ s c _ _ (houtcome.trans hnone.symm)
  have hexecuted := System.acquire_executedOrder houtcome hnone
  -- nobody else holds the write lock
  have hothers : ∀ d, d ≠ c → ∀ m', ((s.acquire c p).phase d).lock = some m' →
      (s.phase d).lock = some m' ∧ m = .read ∧ m' = .read := by
    intro d hdc m' hd
    rw [hphase, if_neg hdc] at hd
    rcases hfree d with hnone | ⟨hm, hread⟩
    · rw [hnone] at hd
      cases hd
    · rw [hread] at hd
      cases hd
      exact ⟨hread, hm, rfl⟩
  have hc : c ∉ s.order.filter (· ≠ c) := by simp
  constructor
  · intro d hd e he
    by_cases hdc : d = c
    · subst hdc
      rw [hphase, if_pos rfl, hlock, Option.some.injEq] at hd
      cases hlock' : ((s.acquire d p).phase e).lock with
      | none => rfl
      | some m' =>
        have hread := (hothers e he m' hlock').2.1
        rw [hd] at hread
        cases hread
    · cases (hothers d hdc _ hd).2.2
  · exact List.nodup_append.mpr ⟨h.nodup.filter _, by simp, by
      intro a ha b hb hab
      obtain rfl : b = c := by simpa using hb
      exact hc (hab ▸ ha)⟩
  · intro d hd
    by_cases hdc : d = c
    · simp [System.acquire, hdc]
    · have hmem : d ∈ s.order := by
        apply h.mem_order d
        rw [houtcomes, hphase, if_neg hdc] at hd
        exact hd
      simp [System.acquire, hdc, hmem]
  · intro d hd
    rw [hphase] at hd
    split_ifs at hd with hdc
    · exact absurd hd hwaiting
    · exact h.mode_waiting d hd
  · intro d hd
    rw [hphase] at hd
    split_ifs at hd with hdc
    · rcases hd with hd | hd
      · exact hdc ▸ hmode hd
      · exact absurd hd hready
    · exact h.mode_reading d hd
  · intro d hd
    rw [hphase] at hd
    split_ifs at hd with hdc
    · exact absurd hd hready
    · exact h.checked d hd
  · intro d e m' hde hd
    obtain ⟨hmem, hde⟩ := pair_sublist_concat hde
    have hdc : d ≠ c := fun hdc => hc (hdc ▸ hmem)
    obtain ⟨hlock', -, rfl⟩ := hothers d hdc m' hd
    refine ⟨rfl, ?_⟩
    rw [houtcomes]
    rcases hde with rfl | hde
    · rw [hwait]
      rintro m' r ⟨⟩
    · exact (h.readers_after d e _ (hde.trans List.filter_sublist) hlock').2
  · rw [hexecuted]
    exact h.agrees.congr fun d _ => houtcomes d
  · rw [hexecuted]
    exact h.shared_eq

omit [DecidableEq ι] in
/-- Whoever holds a lock beside another client only reads. -/
lemma Inv.reads_beside (h : Inv S q s₀ s) {d : ι} {m m' : LockMode}
    (hc : (s.phase c).lock = some m) (hdc : d ≠ c) (hd : (s.phase d).lock = some m') :
    m = .read := by
  cases m with
  | read => rfl
  | write =>
    rw [h.exclusive c hc d hdc] at hd
    cases hd

omit [DecidableEq ι] in
/-- A query that is executed under the read lock leaves the state alone. -/
lemma Inv.quiet (h : Inv S q s₀ s) {m : LockMode} (hready : s.phase c = .ready m) :
    m = .read → (S.exec (q c) s.shared).1 = s.shared := by
  rintro rfl
  exact S.read_only _ _ (h.mode_reading c (.inr hready)) (h.checked c hready)

omit [DecidableEq ι] in
/-- In the serial execution a query is put in front of the readers that took their locks after its
client. -/
lemma Inv.serial_exec (h : Inv S q s₀ s) {m : LockMode} (hready : s.phase c = .ready m)
    (horder : s'.order = s.order)
    (hself : s'.phase c = .executed m (S.exec (q c) s.shared).2)
    (hother : ∀ d, d ≠ c → s'.phase d = s.phase d) :
    Agrees S q (fun d => (s'.phase d).outcome) s₀ s'.executedOrder ∧
      serialState S q s₀ s'.executedOrder = (S.exec (q c) s.shared).1 := by
  have hlockc : (s.phase c).lock = some m := by rw [hready]; rfl
  obtain ⟨l, l', hsplit⟩ := List.append_of_mem (h.mem_order c (.inl (by rw [hlockc]; simp)))
  have hnodup := h.nodup
  rw [hsplit, List.nodup_middle, List.nodup_cons, List.mem_append, not_or] at hnodup
  obtain ⟨⟨hl, hl'⟩, -⟩ := hnodup
  have hold : s.executedOrder = (l.filter fun d => (s.phase d).outcome.isSome) ++
      l'.filter fun d => (s.phase d).outcome.isSome := by
    rw [System.executedOrder, hsplit, List.filter_append, List.filter_cons_of_neg]
    rw [hready]
    exact Bool.false_ne_true
  have hfilter : ∀ k : List ι, c ∉ k → (k.filter fun d => (s'.phase d).outcome.isSome) =
      k.filter fun d => (s.phase d).outcome.isSome := by
    intro k hk
    apply List.filter_congr
    intro d hd
    rw [hother d fun hdc => hk (hdc ▸ hd)]
  have hnew : s'.executedOrder = (l.filter fun d => (s.phase d).outcome.isSome) ++
      c :: l'.filter fun d => (s.phase d).outcome.isSome := by
    rw [System.executedOrder, horder, hsplit, List.filter_append, List.filter_cons_of_pos,
      hfilter l hl, hfilter l' hl']
    rw [hself]
    rfl
  have hagrees := h.agrees
  have hshared := h.shared_eq
  rw [hold] at hagrees hshared
  have hagrees' : Agrees S q (fun d => (s'.phase d).outcome) s₀ _ := hagrees.congr (by
    intro d hd
    have hdc : d ≠ c := by
      rintro rfl
      rcases List.mem_append.mp hd with hd | hd
      · exact hl (List.mem_of_mem_filter hd)
      · exact hl' (List.mem_of_mem_filter hd)
    rw [hother d hdc])
  have hquiet := h.quiet hready
  rw [hnew, hshared]
  apply hagrees'.insert (m := m)
  · intro d hd
    have hdl' := List.mem_of_mem_filter hd
    have hsub : [c, d].Sublist s.order := by
      rw [hsplit]
      exact ((List.singleton_sublist.mpr hdl').cons_cons c).trans (List.sublist_append_right _ _)
    rw [hother d fun hdc => hl' (hdc ▸ hdl')]
    exact h.readers_after c d m hsub hlockc
  · rw [hself, ← hshared]
    rfl
  · rw [← hshared]
    exact hquiet

/-- A client executes its query. -/
lemma Inv.exec (h : Inv S q s₀ s) {m : LockMode} (hready : s.phase c = .ready m) :
    Inv S q s₀ { s.setPhase c (.executed m (S.exec (q c) s.shared).2) with
      shared := (S.exec (q c) s.shared).1 } := by
  generalize hs' : { s.setPhase c (.executed m (S.exec (q c) s.shared).2) with
    shared := (S.exec (q c) s.shared).1 } = s'
  have hphase : ∀ d, s'.phase d =
      if d = c then .executed m (S.exec (q c) s.shared).2 else s.phase d := by
    intro d
    simp [← hs', System.setPhase, Function.update_apply]
  have horder : s'.order = s.order := by rw [← hs']; rfl
  have hshared : s'.shared = (S.exec (q c) s.shared).1 := by rw [← hs']
  have hself : s'.phase c = .executed m (S.exec (q c) s.shared).2 := by rw [hphase, if_pos rfl]
  have hother : ∀ d, d ≠ c → s'.phase d = s.phase d := fun d hdc => by rw [hphase, if_neg hdc]
  have hlockc : (s.phase c).lock = some m := by rw [hready]; rfl
  have hlocks : ∀ d, (s'.phase d).lock = (s.phase d).lock := by
    intro d
    rw [hphase]
    split_ifs with hdc
    · rw [hdc, hlockc]
      rfl
    · rfl
  have hserial := h.serial_exec hready horder hself hother
  constructor
  · intro d hd e he
    rw [hlocks] at hd ⊢
    exact h.exclusive d hd e he
  · rw [horder]
    exact h.nodup
  · intro d hd
    rw [horder]
    by_cases hdc : d = c
    · exact h.mem_order d (.inl (by rw [hdc, hlockc]; simp))
    · rw [hother d hdc] at hd
      exact h.mem_order d hd
  · intro d hd
    rw [hphase] at hd
    split_ifs at hd
    exact h.mode_waiting d hd
  · intro d hd
    rw [hphase] at hd
    split_ifs at hd
    · rcases hd with hd | hd <;> cases hd
    · exact h.mode_reading d hd
  · intro d hd
    rw [hphase] at hd
    split_ifs at hd with hdc
    -- another client that has made its check reads beside this one
    have hm : m = .read := h.reads_beside hlockc hdc (by rw [hd]; rfl)
    rw [hshared, h.quiet hready hm]
    exact h.checked d hd
  · intro d e m' hde hd
    rw [horder] at hde
    rw [hlocks] at hd
    obtain ⟨hm', hread⟩ := h.readers_after d e m' hde hd
    refine ⟨hm', ?_⟩
    by_cases hec : e = c
    · have hdc : d ≠ c := by
        rintro rfl
        have hdup := h.nodup.sublist hde
        simp [hec] at hdup
      rw [hec, hself]
      rintro m'' r ⟨⟩
      exact h.reads_beside hlockc hdc hd
    · rw [hother e hec]
      exact hread
  · exact hserial.1
  · rw [hshared]
    exact hserial.2.symm

/-- Every step keeps the invariant. -/
lemma Inv.step (h : Inv S q s₀ s) (hstep : Step S q c s s') : Inv S q s₀ s' := by
  cases hstep with
  | choose hc =>
    refine h.setPhase (.inl rfl) (by rw [hc]; rfl) ?_ ?_ ?_
    · intro hp
      exact Phase.waiting.inj hp
    · rintro (hp | hp) <;> cases hp
    · rintro ⟨⟩
  | acquireRead hc hfree =>
    exact h.acquire hc hfree rfl rfl (by simp) (by simp) fun _ => h.mode_waiting c hc
  | acquireWrite hc hfree =>
    exact h.acquire hc hfree rfl rfl (by simp) (by simp) (by simp)
  | checkPassed hc hcheck =>
    refine h.setPhase (.inr (by rw [hc]; rfl)) (by rw [hc]; rfl) (by simp) ?_ fun _ => hcheck
    intro _
    exact h.mode_reading c (.inl hc)
  | checkFailed hc hcheck =>
    exact h.setPhase (.inr (by rw [hc]; rfl)) (by rw [hc]; rfl) (by simp) (by simp) (by simp)
  | unlock hc => exact h.setPhase (.inl rfl) (by rw [hc]; rfl) (by simp) (by simp) (by simp)
  | exec m hc => exact h.exec hc
  | release m r hc => exact h.setPhase (.inl rfl) (by rw [hc]; rfl) (by simp) (by simp) (by simp)

lemma Reachable.inv (h : Reachable S q s₀ s) : Inv S q s₀ s := by
  induction h with
  | init => exact .init
  | step _ hstep ih => exact ih.step hstep

/-! ### What holds of every interleaving -/

/-- A step changes the shared state only by executing a query under the write lock, while nobody
else holds a lock. -/
lemma Reachable.change (h : Reachable S q s₀ s) (hstep : Step S q c s s')
    (hchange : s'.shared ≠ s.shared) :
    (s.phase c).lock = some .write ∧ ∀ d, d ≠ c → (s.phase d).lock = none := by
  have hinv := h.inv
  cases hstep with
  | exec m hc =>
    have hlock : (s.phase c).lock = some m := by rw [hc]; rfl
    cases m with
    | read =>
      have hquiet := S.read_only _ _ (hinv.mode_reading c (.inr hc)) (hinv.checked c hc)
      exact absurd hquiet hchange
    | write => exact ⟨hlock, hinv.exclusive c hlock⟩
  | _ => exact absurd rfl hchange

/-- Every client that has executed its query got the result it gets in the serial execution. -/
lemma Reachable.outcome (h : Reachable S q s₀ s) {m : LockMode} {r : R}
    (hc : (s.phase c).outcome = some (m, r)) :
    ∃ l l', s.executedOrder = l ++ c :: l' ∧ r = (S.exec (q c) (serialState S q s₀ l)).2 := by
  have hmem : c ∈ s.executedOrder := by
    rw [System.executedOrder, List.mem_filter, hc]
    exact ⟨h.inv.mem_order c (.inr (by rw [hc]; simp)), rfl⟩
  obtain ⟨l, l', hsplit⟩ := List.append_of_mem hmem
  have hagrees := h.inv.agrees
  rw [hsplit] at hagrees
  obtain ⟨-, ⟨m', hm', -⟩, -⟩ := agrees_append.mp hagrees
  have heq := hc.symm.trans hm'
  cases heq
  exact ⟨l, l', hsplit, rfl⟩

end Invariant

/-! ### Real time -/

section RealTime

variable {ι σ Q R : Type} [DecidableEq ι] {S : QuerySystem σ Q R} {q : ι → Q} {s₀ : σ}
  {s s' : System ι σ R} {c d e : ι}

/-- A client that takes a lock has not executed its query and comes last in the order; other steps
leave the order as it is. An outcome stays. -/
lemma Step.order_cases (h : Step S q e s s') :
    (s'.order = s.order ∨ ((s.phase e).outcome = none ∧ s.phase e ≠ .idle ∧
      s'.order = s.order.filter (· ≠ e) ++ [e])) ∧
    (∀ d, d ≠ e → s'.phase d = s.phase d) ∧ s'.phase e ≠ .idle ∧
    ((s.phase e).outcome ≠ none → (s'.phase e).outcome ≠ none) := by
  have hother : ∀ (p : Phase R) d, d ≠ e → (s.setPhase e p).phase d = s.phase d :=
    fun p d hd => Function.update_of_ne hd _ _
  have hself : ∀ p : Phase R, (s.setPhase e p).phase e = p := fun p => Function.update_self _ _ _
  cases h with
  | choose hc =>
    exact ⟨.inl rfl, hother _, by simp [hself], by simp [hc, Phase.outcome]⟩
  | acquireRead hc _ =>
    refine ⟨.inr ⟨by rw [hc]; rfl, by simp [hc], rfl⟩, hother _, ?_, by simp [hc, Phase.outcome]⟩
    simp [System.acquire, hself]
  | acquireWrite hc _ =>
    refine ⟨.inr ⟨by rw [hc]; rfl, by simp [hc], rfl⟩, hother _, ?_, by simp [hc, Phase.outcome]⟩
    simp [System.acquire, hself]
  | checkPassed hc _ =>
    exact ⟨.inl rfl, hother _, by simp [hself], by simp [hc, Phase.outcome]⟩
  | checkFailed hc _ =>
    exact ⟨.inl rfl, hother _, by simp [hself], by simp [hc, Phase.outcome]⟩
  | unlock hc =>
    exact ⟨.inl rfl, hother _, by simp [hself], by simp [hc, Phase.outcome]⟩
  | exec m hc =>
    exact ⟨.inl rfl, hother _, by simp [hself], by simp [hc, Phase.outcome]⟩
  | release m r hc =>
    exact ⟨.inl rfl, hother _, by simp [hself], by simp [hself, Phase.outcome]⟩

/-- A client that has not started has taken no lock. -/
lemma Reachable.idle (h : Reachable S q s₀ s) (hc : s.phase c = .idle) : c ∉ s.order := by
  induction h with
  | init => exact List.not_mem_nil
  | @step s s' e _ hstep ih =>
    obtain ⟨horder, hother, hself, -⟩ := hstep.order_cases
    have hce : c ≠ e := by
      rintro rfl
      exact hself hc
    have hnot := ih (by rw [← hother c hce]; exact hc)
    rcases horder with horder | ⟨-, -, horder⟩
    · rwa [horder]
    · simp [horder, hnot, hce]

/-- Any number of steps of any clients. -/
def Steps (S : QuerySystem σ Q R) (q : ι → Q) : System ι σ R → System ι σ R → Prop :=
  Relation.ReflTransGen fun s s' => ∃ e, Step S q e s s'

/-- `d` has its outcome, and `c` comes behind it as soon as it takes a lock. -/
structure Ahead (d c : ι) (s : System ι σ R) : Prop where
  outcome : (s.phase d).outcome ≠ none
  before : (d ∈ s.order ∧ c ∉ s.order) ∨ [d, c].Sublist s.order

lemma Ahead.step (h : Ahead d c s) (hstep : Step S q e s s') : Ahead d c s' := by
  obtain ⟨horder, hother, -, hkeeps⟩ := hstep.order_cases
  have hde : (s.phase e).outcome = none → d ≠ e := by
    rintro hnone rfl
    exact h.outcome hnone
  refine ⟨?_, ?_⟩
  · by_cases heq : d = e
    · subst heq
      exact hkeeps h.outcome
    · rw [hother d heq]
      exact h.outcome
  · rcases horder with horder | ⟨hnone, -, horder⟩
    · rw [horder]
      exact h.before
    · rw [horder]
      have hmem : d ∈ s.order → d ∈ s.order.filter (· ≠ e) := fun hd => by
        simp [hd, hde hnone]
      by_cases hce : c = e
      · -- `c` takes its lock now
        subst hce
        have hd : d ∈ s.order := h.before.elim And.left fun hsub => hsub.subset List.mem_cons_self
        exact .inr ((List.singleton_sublist.mpr (hmem hd)).append (List.Sublist.refl [c]))
      · rcases h.before with ⟨hd, hc⟩ | hsub
        · exact .inl ⟨List.mem_append_left _ (hmem hd), by simp [hc, hce]⟩
        · have hfilter := hsub.filter (fun x => decide (x ≠ e))
          have hboth : [d, c].filter (fun x => decide (x ≠ e)) = [d, c] := by
            simp [hde hnone, hce]
          rw [hboth] at hfilter
          exact .inr (hfilter.trans (List.sublist_append_left _ _))

lemma Ahead.steps (h : Ahead d c s) (hsteps : Steps S q s s') : Ahead d c s' := by
  induction hsteps with
  | refl => exact h
  | tail _ hstep ih =>
    obtain ⟨e, hstep⟩ := hstep
    exact ih.step hstep

/-- The serial order respects real time: a query that was executed before another one started comes
before it. -/
lemma Reachable.realTime (h : Reachable S q s₀ s) (hsteps : Steps S q s s')
    (hd : (s.phase d).outcome ≠ none) (hc : s.phase c = .idle)
    (hc' : (s'.phase c).outcome ≠ none) (hmem : c ∈ s'.order) :
    [d, c].Sublist s'.executedOrder := by
  have hahead : Ahead d c s := ⟨hd, .inl ⟨h.inv.mem_order d (.inr hd), h.idle hc⟩⟩
  have hahead' := hahead.steps hsteps
  have hsub := hahead'.before.resolve_left fun hnot => hnot.2 hmem
  have hfilter := hsub.filter fun x => (s'.phase x).outcome.isSome
  have hboth : [d, c].filter (fun x => (s'.phase x).outcome.isSome) = [d, c] := by
    simp [Option.isSome_iff_ne_none, hahead'.outcome, hc']
  rwa [hboth] at hfilter

end RealTime

end MiniDbms.ReadersWriter
