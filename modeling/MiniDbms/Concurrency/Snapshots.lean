import MiniDbms.Concurrency.ThreadPool

/-!
# Snapshots of the pool

`thread_pool_get_stats` reads the length of the queue and the number of active workers in one
section under the mutex. A worker leaves the queue and becomes active in two sections of its own,
and ceases to be active in a section behind the handler, so that a snapshot between them is off by
the workers on either side.
-/

namespace MiniDbms

variable {workerCount : Nat}

namespace WorkerPhase

/-- Behind `queue_pop` and before the increment. -/
def isPopped : WorkerPhase → Bool
  | popped _ => true
  | _        => false

/-- A worker that holds a job is active or about to be, and one that is active holds a job unless
the handler has returned from it. -/
lemma counted_eq (p : WorkerPhase) :
    p.counted + (if p.isPopped = true then 1 else 0) =
      ((p.pending.card + p.running.card + if p = .finished then 1 else 0 : Nat) : Int) := by
  cases p <;> simp [isPopped]

end WorkerPhase

namespace PoolRun

variable {capacity : Nat} {s : PoolRun workerCount}

/-- The jobs that were accepted and that the handler has not returned from. -/
def outstanding (s : PoolRun workerCount) : List Job :=
  (jobsOf s.accepted).filter fun job => job ∉ s.handled

/-- The workers between `queue_pop` and the increment. -/
def beforeIncrement (s : PoolRun workerCount) : Finset (Fin workerCount) :=
  {w | (s.pool.workers w).isPopped = true}

/-- The workers between the handler and the decrement. -/
def beforeDecrement (s : PoolRun workerCount) : Finset (Fin workerCount) :=
  {w | s.pool.workers w = .finished}

lemma length_jobsOf (clientFds : List ClientFd) : (jobsOf clientFds).length = clientFds.length := by
  simp [jobsOf]

lemma Inv.handled_le (h : s.Inv capacity) : (s.handled : Multiset Job) ≤ s.handed := by
  rw [h.running]
  exact Multiset.le_add_right _ _

/-- The jobs that the handler has returned from are the accepted ones that are not outstanding. -/
lemma Inv.length_outstanding (h : s.Inv capacity) :
    s.handled.length + s.outstanding.length = s.accepted.length := by
  have hnodup : s.handled.Nodup :=
    Multiset.coe_nodup.mp (Multiset.nodup_of_le h.handled_le (Multiset.coe_nodup.mpr h.handed.1))
  have hperm : ((jobsOf s.accepted).filter fun job => job ∈ s.handled).Perm s.handled := by
    rw [List.perm_ext_iff_of_nodup ((nodup_jobsOf s.accepted).filter _) hnodup]
    intro job
    simp only [List.mem_filter, decide_eq_true_eq, and_iff_right_iff_imp]
    intro hjob
    exact mem_jobsOf.mpr (h.handed.2 job (Multiset.mem_coe.mp
      (Multiset.mem_of_le h.handled_le (Multiset.mem_coe.mpr hjob))))
  have hsplit := List.length_eq_length_filter_add (l := jobsOf s.accepted)
    fun job => decide (job ∈ s.handled)
  rw [hperm.length_eq, length_jobsOf] at hsplit
  rw [hsplit, outstanding]
  simp

/-- Every accepted job is in the queue, with a worker, or finished. -/
lemma Inv.length_accepted (h : s.Inv capacity) :
    s.accepted.length = s.handled.length + s.pool.queue.count +
      ∑ w, ((s.pool.workers w).pending.card + (s.pool.workers w).running.card) := by
  have hrunning := congrArg Multiset.card h.running
  have hpending := congrArg Multiset.card h.pending
  have hfifo := congrArg List.length h.fifo
  simp only [Multiset.coe_card, Multiset.card_add, Multiset.card_sum, length_jobsOf]
    at hrunning hpending
  rw [List.length_append, JobQueue.length_contents] at hfifo
  rw [Finset.sum_add_distrib]
  omega

/-- What the snapshot counts, beside the workers on either side of the handler. -/
lemma Inv.active_add (h : s.Inv capacity) :
    s.pool.activeWorkerCount + s.beforeIncrement.card =
      ((∑ w, ((s.pool.workers w).pending.card + (s.pool.workers w).running.card) : Nat) : Int) +
        s.beforeDecrement.card := by
  rw [h.counted, beforeIncrement, beforeDecrement, Finset.card_filter, Finset.card_filter]
  push_cast
  rw [← Finset.sum_add_distrib, ← Finset.sum_add_distrib]
  apply Finset.sum_congr rfl
  intro w _
  have hphase := (s.pool.workers w).counted_eq
  push_cast at hphase
  exact hphase

/-- A snapshot of a pool counts every job that was accepted and not finished if and only if no more
workers stand between `queue_pop` and the increment than between the handler and the decrement. -/
theorem threadPoolGetStats_outstanding_iff {block : Vector ClientFd capacity}
    (h : s.Reachable block) :
    (s.outstanding.length : Int) ≤
        (threadPoolGetStats s.pool).queueLength + (threadPoolGetStats s.pool).busyWorkerCount ↔
      s.beforeIncrement.card ≤ s.beforeDecrement.card := by
  have hinv := h.inv
  have houtstanding := hinv.length_outstanding
  have haccepted := hinv.length_accepted
  have hactive := hinv.active_add
  dsimp only [threadPoolGetStats]
  omega

/-- One worker that has popped the only job: the snapshot shows nothing. -/
theorem threadPoolGetStats_outstanding_hidden :
    ∃ s : PoolRun 1, s.Reachable (#v[0] : Vector ClientFd 1) ∧ s.outstanding = [⟨0, 7⟩] ∧
      ¬ (s.outstanding.length : Int) ≤
        (threadPoolGetStats s.pool).queueLength + (threadPoolGetStats s.pool).busyWorkerCount := by
  have hrun := Relation.ReflTransGen.refl (r := Step) (a := start
    (⟨fun _ => .popping, 0, ⟨1, #v[0], 0, 0, 0, false, by decide, by decide, by decide, rfl⟩⟩ :
      ThreadPool 1))
  have hrun := hrun.tail (@Step.accept _ _ _ 7 rfl)
  have hrun := hrun.tail (.pop (w := 0) rfl (by decide) rfl)
  exact ⟨_, ⟨_, rfl, hrun⟩, rfl, by decide⟩

/-- The same worker one step later. -/
theorem threadPoolGetStats_outstanding_active :
    ∃ s : PoolRun 1, s.Reachable (#v[0] : Vector ClientFd 1) ∧ s.outstanding = [⟨0, 7⟩] ∧
      (s.outstanding.length : Int) ≤
        (threadPoolGetStats s.pool).queueLength + (threadPoolGetStats s.pool).busyWorkerCount := by
  have hrun := Relation.ReflTransGen.refl (r := Step) (a := start
    (⟨fun _ => .popping, 0, ⟨1, #v[0], 0, 0, 0, false, by decide, by decide, by decide, rfl⟩⟩ :
      ThreadPool 1))
  have hrun := hrun.tail (@Step.accept _ _ _ 7 rfl)
  have hrun := hrun.tail (.pop (w := 0) rfl (by decide) rfl)
  have hrun := hrun.tail (.increment (w := 0) rfl)
  have hreach : PoolRun.Reachable (#v[0] : Vector ClientFd 1) _ := ⟨_, rfl, hrun⟩
  exact ⟨_, hreach, rfl, (threadPoolGetStats_outstanding_iff hreach).mpr (by decide)⟩

end PoolRun

end MiniDbms
