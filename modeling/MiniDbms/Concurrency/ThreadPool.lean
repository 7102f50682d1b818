import MiniDbms.Concurrency.JobQueue

/-!
# The pool of `thread_pool.c`

Callers submit jobs and the workers take them from the queue, in any interleaving of their sections
under the mutex, of the calls of the handler and of the shutdown. Beside the state of the pool, a
run records which jobs were accepted, popped, handed to the handler and finished by it.
-/

namespace MiniDbms

/-- A job that was popped. Descriptors come back, so that a job is told apart by its number in the
order of the pops; the source has no such number. -/
structure Job where
  number : Nat
  clientFd : ClientFd
  deriving DecidableEq, Repr

/-- Where a worker is in `thread_pool_worker_main`. -/
inductive WorkerPhase where
  | popping               -- before the section of `queue_pop`
  | waiting               -- in `pthread_cond_wait`
  | popped (job : Job)    -- behind `queue_pop`
  | active (job : Job)    -- behind the increment
  | handling (job : Job)  -- in the handler
  | finished              -- behind the handler
  | exited
  deriving DecidableEq, Repr

structure ThreadPool (workerCount : Nat) where
  workers : Fin workerCount → WorkerPhase
  activeWorkerCount : Int
  queue : JobQueue

structure ThreadPoolStats where
  workerCount : Int
  busyWorkerCount : Int
  idleWorkerCount : Int
  queueLength : Int
  queueCapacity : Int
  availableQueueSlots : Int
  deriving DecidableEq, Repr

variable {workerCount : Nat}

/-- `thread_pool_init` -/
def threadPoolInit (workerCount queueCapacity : Nat) (block : Vector ClientFd queueCapacity) :
    Option (ThreadPool workerCount) :=
  if workerCount = 0 then none
  else (queueInit queueCapacity block).map fun queue => ⟨fun _ => .popping, 0, queue⟩

/-- `thread_pool_submit` -/
def threadPoolSubmit (pool : ThreadPool workerCount) (clientFd : ClientFd) :
    ThreadPool workerCount × Status :=
  let (queue, status) := queuePush pool.queue clientFd
  ({ pool with queue := queue }, status)

lemma threadPoolSubmit_eq (pool : ThreadPool workerCount) (clientFd : ClientFd) :
    threadPoolSubmit pool clientFd =
      ({ pool with queue := (queuePush pool.queue clientFd).1 },
        (queuePush pool.queue clientFd).2) := rfl

/-- `thread_pool_get_stats` -/
def threadPoolGetStats (pool : ThreadPool workerCount) : ThreadPoolStats where
  workerCount := workerCount
  busyWorkerCount := pool.activeWorkerCount
  idleWorkerCount := workerCount - pool.activeWorkerCount
  queueLength := pool.queue.count
  queueCapacity := pool.queue.capacity
  availableQueueSlots := pool.queue.capacity - pool.queue.count

/-- `thread_pool_shutdown` up to the joins. -/
def threadPoolShutdown (pool : ThreadPool workerCount) : ThreadPool workerCount :=
  { pool with queue := queueShutdown pool.queue }

def ThreadPool.setWorker (pool : ThreadPool workerCount) (w : Fin workerCount) (p : WorkerPhase) :
    ThreadPool workerCount :=
  { pool with workers := Function.update pool.workers w p }

@[simp]
lemma ThreadPool.setWorker_queue (pool : ThreadPool workerCount) (w : Fin workerCount)
    (p : WorkerPhase) : (pool.setWorker w p).queue = pool.queue := rfl

@[simp]
lemma ThreadPool.setWorker_activeWorkerCount (pool : ThreadPool workerCount) (w : Fin workerCount)
    (p : WorkerPhase) : (pool.setWorker w p).activeWorkerCount = pool.activeWorkerCount := rfl

/-! ### Runs -/

/-- The pool together with what has happened: the descriptors of the accepted and of the popped
jobs, and the jobs that the handler was called with and has returned from. -/
structure PoolRun (workerCount : Nat) where
  pool : ThreadPool workerCount
  accepted : List ClientFd
  popped : List ClientFd
  handed : List Job
  handled : List Job

namespace PoolRun

/-- A pool that nothing has happened to. -/
def start (pool : ThreadPool workerCount) : PoolRun workerCount := ⟨pool, [], [], [], []⟩

/-- One step of a caller or of a worker. A worker may wake up at any time, as `pthread_cond_wait`
allows. -/
inductive Step (s : PoolRun workerCount) : PoolRun workerCount → Prop
  | accept {pool : ThreadPool workerCount} {clientFd : ClientFd}
      (h : threadPoolSubmit s.pool clientFd = (pool, .success)) :
      Step s { s with pool := pool, accepted := s.accepted ++ [clientFd] }
  | refuse {pool : ThreadPool workerCount} {clientFd : ClientFd}
      (h : threadPoolSubmit s.pool clientFd = (pool, .failure)) : Step s { s with pool := pool }
  | wait {w : Fin workerCount} (hw : s.pool.workers w = .popping) (h : s.pool.queue.Waits) :
      Step s { s with pool := s.pool.setWorker w .waiting }
  | wake {w : Fin workerCount} (hw : s.pool.workers w = .waiting) :
      Step s { s with pool := s.pool.setWorker w .popping }
  | pop {w : Fin workerCount} {queue : JobQueue} {clientFd : ClientFd}
      (hw : s.pool.workers w = .popping) (hq : ¬ s.pool.queue.Waits)
      (h : queuePop s.pool.queue = (queue, some clientFd)) :
      Step s { s with
        pool := { s.pool with queue := queue }.setWorker w (.popped ⟨s.popped.length, clientFd⟩)
        popped := s.popped ++ [clientFd] }
  | exit {w : Fin workerCount} {queue : JobQueue}
      (hw : s.pool.workers w = .popping) (hq : ¬ s.pool.queue.Waits)
      (h : queuePop s.pool.queue = (queue, none)) :
      Step s { s with pool := { s.pool with queue := queue }.setWorker w .exited }
  | increment {w : Fin workerCount} {job : Job} (hw : s.pool.workers w = .popped job) :
      Step s { s with
        pool := { s.pool with
          activeWorkerCount := s.pool.activeWorkerCount + 1 }.setWorker w (.active job) }
  | call {w : Fin workerCount} {job : Job} (hw : s.pool.workers w = .active job) :
      Step s { s with
        pool := s.pool.setWorker w (.handling job)
        handed := s.handed ++ [job] }
  | finish {w : Fin workerCount} {job : Job} (hw : s.pool.workers w = .handling job) :
      Step s { s with
        pool := s.pool.setWorker w .finished
        handled := s.handled ++ [job] }
  | decrement {w : Fin workerCount} (hw : s.pool.workers w = .finished) :
      Step s { s with
        pool := { s.pool with
          activeWorkerCount := s.pool.activeWorkerCount - 1 }.setWorker w .popping }
  | shutdown : Step s { s with pool := threadPoolShutdown s.pool }

/-- The states that an interleaving of steps can lead to after `thread_pool_init`. -/
def Reachable {capacity : Nat} (block : Vector ClientFd capacity) (s : PoolRun workerCount) :
    Prop :=
  ∃ pool, threadPoolInit workerCount capacity block = some pool ∧
    Relation.ReflTransGen Step (start pool) s

end PoolRun

/-! ### What the workers hold -/

namespace WorkerPhase

/-- The job that a worker has popped and not yet passed on. -/
@[simp]
def pending : WorkerPhase → Multiset Job
  | popped job => {job}
  | active job => {job}
  | _          => 0

/-- The job that a worker has in the handler. -/
@[simp]
def running : WorkerPhase → Multiset Job
  | handling job => {job}
  | _            => 0

/-- Whether a worker is counted as active. -/
@[simp]
def counted : WorkerPhase → Int
  | active _   => 1
  | handling _ => 1
  | finished   => 1
  | _          => 0

lemma counted_nonneg (p : WorkerPhase) : 0 ≤ p.counted := by cases p <;> simp

lemma counted_le_one (p : WorkerPhase) : p.counted ≤ 1 := by cases p <;> simp

end WorkerPhase

/-- What all workers hold together when one of them has moved. -/
lemma sum_update {M : Type} [AddCommMonoid M] (f : WorkerPhase → M)
    (workers : Fin workerCount → WorkerPhase) (w : Fin workerCount) (p : WorkerPhase) :
    ∑ i, f (Function.update workers w p i) + f (workers w) = ∑ i, f (workers i) + f p := by
  have hrest : ∑ i ∈ Finset.univ.erase w, f (Function.update workers w p i) =
      ∑ i ∈ Finset.univ.erase w, f (workers i) := by
    apply Finset.sum_congr rfl
    intro i hi
    rw [Function.update_of_ne (Finset.ne_of_mem_erase hi)]
  have hw := Finset.mem_univ w
  rw [← Finset.add_sum_erase _ _ hw, ← Finset.add_sum_erase _ (fun i => f (workers i)) hw, hrest,
    Function.update_self]
  abel

/-- The jobs with these descriptors, numbered. -/
def jobsOf (clientFds : List ClientFd) : List Job :=
  clientFds.zipIdx.map fun p => ⟨p.2, p.1⟩

lemma jobsOf_append (clientFds : List ClientFd) (clientFd : ClientFd) :
    jobsOf (clientFds ++ [clientFd]) = jobsOf clientFds ++ [⟨clientFds.length, clientFd⟩] := by
  simp [jobsOf, List.zipIdx_append]

lemma mem_jobsOf {clientFds : List ClientFd} {job : Job} :
    job ∈ jobsOf clientFds ↔ clientFds[job.number]? = some job.clientFd := by
  simp only [jobsOf, List.mem_map, Prod.exists, List.mem_zipIdx_iff_getElem?]
  constructor
  · rintro ⟨clientFd, number, h, rfl⟩
    exact h
  · intro h
    exact ⟨job.clientFd, job.number, h, rfl⟩

lemma nodup_jobsOf (clientFds : List ClientFd) : (jobsOf clientFds).Nodup := by
  have hnumbers : (jobsOf clientFds).map Job.number = List.range clientFds.length := by
    rw [jobsOf, List.map_map, List.range_eq_range']
    exact List.zipIdx_map_snd 0 clientFds
  apply List.Nodup.of_map Job.number
  rw [hnumbers]
  exact List.nodup_range

/-! ### The invariant -/

namespace PoolRun

/-- What holds in every state of a run. -/
structure Inv (capacity : Nat) (s : PoolRun workerCount) : Prop where
  capacity : s.pool.queue.capacity = capacity
  fifo : s.popped ++ s.pool.queue.contents = s.accepted
  counted : s.pool.activeWorkerCount = ∑ w, (s.pool.workers w).counted
  pending : (s.handed : Multiset Job) + ∑ w, (s.pool.workers w).pending = jobsOf s.popped
  running : (s.handed : Multiset Job) = s.handled + ∑ w, (s.pool.workers w).running
  exited : ∀ w, s.pool.workers w = .exited →
    s.pool.queue.shuttingDown = true ∧ s.pool.queue.contents = []

variable {capacity : Nat} {s s' : PoolRun workerCount}

lemma inv_start {block : Vector ClientFd capacity} {pool : ThreadPool workerCount}
    (h : threadPoolInit workerCount capacity block = some pool) : (start pool).Inv capacity := by
  unfold threadPoolInit at h
  split_ifs at h
  obtain ⟨queue, hqueue, rfl⟩ := Option.map_eq_some_iff.mp h
  constructor
  · unfold queueInit at hqueue
    split_ifs at hqueue
    cases hqueue
    rfl
  · exact JobQueue.contents_init hqueue
  · simp [start]
  · simp [start, jobsOf]
  · simp [start]
  · rintro w ⟨⟩

/-- A change of the queue alone, while it stays shut down and empty if it was. -/
lemma Inv.setQueue (h : s.Inv capacity) {queue : JobQueue} {accepted : List ClientFd}
    (hcapacity : queue.capacity = s.pool.queue.capacity)
    (hfifo : s.popped ++ queue.contents = accepted)
    (hexited : s.pool.queue.shuttingDown = true ∧ s.pool.queue.contents = [] →
      queue.shuttingDown = true ∧ queue.contents = []) :
    ({ s with pool := { s.pool with queue := queue }, accepted := accepted } :
      PoolRun workerCount).Inv capacity where
  capacity := hcapacity.trans h.capacity
  fifo := hfifo
  counted := h.counted
  pending := h.pending
  running := h.running
  exited w hw := hexited (h.exited w hw)

/-- A worker that moves: what it gains and loses is what the records and the counter gain and
lose. -/
lemma Inv.setWorker (h : s.Inv capacity) {w : Fin workerCount} {p : WorkerPhase}
    (hworkers : s'.pool.workers = Function.update s.pool.workers w p)
    (hcapacity : s'.pool.queue.capacity = s.pool.queue.capacity)
    (hfifo : s'.popped ++ s'.pool.queue.contents = s'.accepted)
    (hcounted : s'.pool.activeWorkerCount + (s.pool.workers w).counted =
      s.pool.activeWorkerCount + p.counted)
    (hpending : (s'.handed + p.pending + jobsOf s.popped : Multiset Job) =
      s.handed + (s.pool.workers w).pending + jobsOf s'.popped)
    (hrunning : (s'.handed + (s.pool.workers w).running + s.handled : Multiset Job) =
      s.handed + p.running + s'.handled)
    (hqueue : s.pool.queue.shuttingDown = true ∧ s.pool.queue.contents = [] →
      s'.pool.queue.shuttingDown = true ∧ s'.pool.queue.contents = [])
    (hexited : p = .exited → s'.pool.queue.shuttingDown = true ∧ s'.pool.queue.contents = []) :
    s'.Inv capacity where
  capacity := hcapacity.trans h.capacity
  fifo := hfifo
  counted := by
    have hsum := sum_update WorkerPhase.counted s.pool.workers w p
    rw [hworkers]
    have hold := h.counted
    omega
  pending := by
    have hsum := sum_update WorkerPhase.pending s.pool.workers w p
    rw [hworkers]
    apply add_right_cancel (b := (s.handed : Multiset Job) + (s.pool.workers w).pending)
    calc (s'.handed : Multiset Job) + ∑ i, (Function.update s.pool.workers w p i).pending +
          (s.handed + (s.pool.workers w).pending)
        = s'.handed + s.handed +
          (∑ i, (Function.update s.pool.workers w p i).pending + (s.pool.workers w).pending) := by
          abel
      _ = s'.handed + p.pending + (s.handed + ∑ i, (s.pool.workers i).pending) := by
          rw [hsum]
          abel
      _ = s.handed + (s.pool.workers w).pending + jobsOf s'.popped := by
          rw [h.pending, hpending]
      _ = jobsOf s'.popped + (s.handed + (s.pool.workers w).pending) := add_comm _ _
  running := by
    have hsum := sum_update WorkerPhase.running s.pool.workers w p
    rw [hworkers]
    apply add_right_cancel (b := (s.pool.workers w).running + (s.handled : Multiset Job))
    calc (s'.handed : Multiset Job) + ((s.pool.workers w).running + s.handled)
        = s.handed + p.running + s'.handled := by rw [← add_assoc, hrunning]
      _ = s'.handled + (∑ i, (s.pool.workers i).running + p.running) + s.handled := by
          rw [h.running]
          abel
      _ = s'.handled + ∑ i, (Function.update s.pool.workers w p i).running +
          ((s.pool.workers w).running + s.handled) := by
          rw [← hsum]
          abel
  exited i hi := by
    rw [hworkers] at hi
    by_cases heq : i = w
    · rw [heq, Function.update_self] at hi
      exact hexited hi
    · rw [Function.update_of_ne heq] at hi
      exact hqueue (h.exited i hi)

lemma Inv.step (h : s.Inv capacity) (hstep : Step s s') : s'.Inv capacity := by
  cases hstep with
  | @accept pool clientFd hsubmit =>
    rw [threadPoolSubmit_eq, Prod.mk.injEq] at hsubmit
    obtain ⟨rfl, hstatus⟩ := hsubmit
    obtain ⟨hcontents, hcapacity, -⟩ := JobQueue.push_success hstatus
    refine h.setQueue hcapacity ?_ ?_
    · rw [hcontents, ← List.append_assoc, h.fifo]
    · rintro ⟨hshut, -⟩
      have hfail := (s.pool.queue.push_failure_iff clientFd).mpr (.inr hshut)
      rw [hfail] at hstatus
      cases hstatus
  | @refuse pool clientFd hsubmit =>
    rw [threadPoolSubmit_eq, Prod.mk.injEq] at hsubmit
    obtain ⟨rfl, hstatus⟩ := hsubmit
    rw [JobQueue.push_failure hstatus]
    exact h
  | @wait w hw hq =>
    refine h.setWorker (w := w) (p := .waiting) rfl rfl h.fifo ?_ ?_ ?_ id (by rintro ⟨⟩)
    all_goals simp [hw]
  | @wake w hw =>
    refine h.setWorker (w := w) (p := .popping) rfl rfl h.fifo ?_ ?_ ?_ id (by rintro ⟨⟩)
    all_goals simp [hw]
  | @pop w queue clientFd hw hq hpop =>
    obtain ⟨hcontents, hcapacity, -⟩ := JobQueue.pop_some hpop
    refine h.setWorker (w := w) (p := .popped ⟨s.popped.length, clientFd⟩) rfl hcapacity
      ?_ ?_ ?_ ?_ ?_ (by rintro ⟨⟩)
    · rw [← h.fifo, hcontents, List.append_assoc]
      rfl
    · simp [hw]
    · rw [hw, jobsOf_append, ← Multiset.coe_add]
      simp only [WorkerPhase.pending, Multiset.coe_singleton]
      abel
    · simp [hw]
    · rintro ⟨-, hnil⟩
      rw [hcontents] at hnil
      cases hnil
  | @exit w queue hw hq hpop =>
    obtain ⟨rfl, hnil⟩ := JobQueue.pop_none hpop
    have hdown : s.pool.queue.shuttingDown = true := by
      have hzero := s.pool.queue.length_contents
      rw [hnil] at hzero
      exact Bool.not_eq_false _ |>.mp fun hfalse => hq ⟨hzero.symm, hfalse⟩
    refine h.setWorker (w := w) (p := .exited) rfl rfl h.fifo ?_ ?_ ?_ id fun _ => ⟨hdown, hnil⟩
    all_goals simp [hw]
  | @increment w job hw =>
    refine h.setWorker (w := w) (p := .active job) rfl rfl h.fifo ?_ ?_ ?_ id (by rintro ⟨⟩)
    all_goals simp [hw]
  | @call w job hw =>
    refine h.setWorker (w := w) (p := .handling job) rfl rfl h.fifo ?_ ?_ ?_ id (by rintro ⟨⟩)
    · simp [hw]
    · simp [hw, ← Multiset.coe_add]
    · simp [hw, ← Multiset.coe_add]
  | @finish w job hw =>
    refine h.setWorker (w := w) (p := .finished) rfl rfl h.fifo ?_ ?_ ?_ id (by rintro ⟨⟩)
    · simp [hw]
    · simp [hw]
    · rw [hw, ← Multiset.coe_add]
      simp only [WorkerPhase.running, Multiset.coe_singleton]
      abel
  | @decrement w hw =>
    refine h.setWorker (w := w) (p := .popping) rfl rfl h.fifo ?_ ?_ ?_ id (by rintro ⟨⟩)
    all_goals simp [hw]
  | shutdown =>
    exact h.setQueue rfl h.fifo fun hq => ⟨rfl, hq.2⟩

lemma Reachable.inv {block : Vector ClientFd capacity} (h : s.Reachable block) :
    s.Inv capacity := by
  obtain ⟨pool, hinit, hrun⟩ := h
  induction hrun with
  | refl => exact inv_start hinit
  | tail _ hstep ih => exact ih.step hstep

/-! ### What follows -/

lemma Inv.active_bounds (h : s.Inv capacity) :
    0 ≤ s.pool.activeWorkerCount ∧ s.pool.activeWorkerCount ≤ workerCount := by
  rw [h.counted]
  constructor
  · apply Finset.sum_nonneg
    intro w _
    exact (s.pool.workers w).counted_nonneg
  · calc ∑ w, (s.pool.workers w).counted
        ≤ ∑ _w : Fin workerCount, (1 : Int) :=
          Finset.sum_le_sum fun w _ => (s.pool.workers w).counted_le_one
      _ = workerCount := by simp

/-- The jobs that were handed to the handler are among the accepted ones, each of them once. -/
lemma Inv.handed (h : s.Inv capacity) :
    s.handed.Nodup ∧ ∀ job ∈ s.handed, s.accepted[job.number]? = some job.clientFd := by
  have hle : (s.handed : Multiset Job) ≤ jobsOf s.popped := by
    rw [← h.pending]
    exact Multiset.le_add_right _ _
  constructor
  · exact Multiset.coe_nodup.mp (Multiset.nodup_of_le hle (nodup_jobsOf s.popped))
  · intro job hjob
    have hpopped := mem_jobsOf.mp (Multiset.mem_coe.mp (Multiset.mem_of_le hle hjob))
    have hlt := (List.getElem?_eq_some_iff.mp hpopped).1
    rw [← h.fifo, List.getElem?_append_left hlt, hpopped]

/-- When all workers have exited, the handler has returned from every accepted job. -/
lemma Inv.drained (h : s.Inv capacity) (hpos : 0 < workerCount)
    (hexited : ∀ w, s.pool.workers w = .exited) :
    s.pool.queue.count = 0 ∧ (s.handled : Multiset Job) = jobsOf s.accepted := by
  obtain ⟨-, hnil⟩ := h.exited ⟨0, hpos⟩ (hexited ⟨0, hpos⟩)
  have hrunning := h.running
  have hpending := h.pending
  simp only [hexited, WorkerPhase.running, WorkerPhase.pending, Finset.sum_const_zero,
    add_zero] at hrunning hpending
  constructor
  · rw [← JobQueue.length_contents, hnil]
    rfl
  · rw [← hrunning, hpending, ← h.fifo, hnil, List.append_nil]

/-- A snapshot of the statistics never shows a negative number. -/
theorem threadPoolGetStats_nonneg {block : Vector ClientFd capacity} (h : s.Reachable block) :
    0 ≤ (threadPoolGetStats s.pool).busyWorkerCount ∧
    0 ≤ (threadPoolGetStats s.pool).idleWorkerCount ∧
    0 ≤ (threadPoolGetStats s.pool).queueLength ∧
    0 ≤ (threadPoolGetStats s.pool).availableQueueSlots := by
  obtain ⟨hnonneg, hle⟩ := h.inv.active_bounds
  have hcount := s.pool.queue.count_le
  refine ⟨hnonneg, Int.sub_nonneg.mpr hle, Int.natCast_nonneg _, ?_⟩
  exact Int.sub_nonneg.mpr (Int.ofNat_le.mpr hcount)

/-- In every interleaving: the queue is a bounded FIFO, `thread_pool_submit` fails exactly when it
is full or shut down and then changes nothing, no job is handed to the handler twice, the counter of
active workers stays in its range, and when all workers have exited the queue is empty and the
handler has returned from every accepted job. -/
theorem threadPool_runs_jobs {block : Vector ClientFd capacity} (h : s.Reachable block) :
    s.popped ++ s.pool.queue.contents = s.accepted ∧
    (0 ≤ s.pool.queue.count ∧ s.pool.queue.count ≤ capacity) ∧
    (∀ clientFd, ((threadPoolSubmit s.pool clientFd).2 = .failure ↔
        s.pool.queue.count = capacity ∨ s.pool.queue.shuttingDown = true) ∧
      ((threadPoolSubmit s.pool clientFd).2 = .failure →
        (threadPoolSubmit s.pool clientFd).1 = s.pool)) ∧
    (s.handed.Nodup ∧ ∀ job ∈ s.handed, s.accepted[job.number]? = some job.clientFd) ∧
    (0 ≤ s.pool.activeWorkerCount ∧ s.pool.activeWorkerCount ≤ workerCount) ∧
    ((∀ w, s.pool.workers w = .exited) →
      s.pool.queue.count = 0 ∧ ∀ number clientFd,
        s.accepted[number]? = some clientFd → ⟨number, clientFd⟩ ∈ s.handled) := by
  have hinv := h.inv
  have hcapacity := hinv.capacity
  refine ⟨hinv.fifo, ⟨Nat.zero_le _, ?_⟩, ?_, hinv.handed, hinv.active_bounds, ?_⟩
  · rw [← hcapacity]
    exact s.pool.queue.count_le
  · intro clientFd
    constructor
    · rw [← hcapacity]
      exact s.pool.queue.push_failure_iff clientFd
    · intro hfail
      rw [threadPoolSubmit_eq] at hfail ⊢
      rw [JobQueue.push_failure hfail]
  · intro hexited
    obtain ⟨pool, hinit, -⟩ := h
    have hpos : 0 < workerCount := by
      apply Nat.pos_of_ne_zero
      intro hzero
      rw [threadPoolInit, if_pos hzero] at hinit
      cases hinit
    obtain ⟨hcount, hhandled⟩ := hinv.drained hpos hexited
    refine ⟨hcount, ?_⟩
    intro number clientFd haccepted
    rw [← Multiset.mem_coe, hhandled]
    exact mem_jobsOf.mpr haccepted

/-- Two workers have two jobs in the handler at once, the second of which is done first, and the
shutdown comes in between. -/
theorem threadPool_runs_jobs_both :
    ∃ s : PoolRun 2, s.Reachable (#v[0, 0] : Vector ClientFd 2) ∧ s.accepted = [7, 8] ∧
      s.handled = [⟨1, 8⟩, ⟨0, 7⟩] ∧ (∀ w, s.pool.workers w = .exited) ∧ s.pool.queue.count = 0 ∧
      ⟨0, 7⟩ ∈ s.handled ∧ ⟨1, 8⟩ ∈ s.handled := by
  have hrun := Relation.ReflTransGen.refl (r := Step) (a := start
    (⟨fun _ => .popping, 0, ⟨2, #v[0, 0], 0, 0, 0, false, by decide, by decide, by decide, rfl⟩⟩ :
      ThreadPool 2))
  have hrun := hrun.tail (.wait (w := 0) rfl (by decide))
  have hrun := hrun.tail (@Step.accept _ _ _ 7 rfl)
  have hrun := hrun.tail (.wake (w := 0) rfl)
  have hrun := hrun.tail (@Step.accept _ _ _ 8 rfl)
  have hrun := hrun.tail (.pop (w := 0) rfl (by decide) rfl)
  have hrun := hrun.tail (.pop (w := 1) rfl (by decide) rfl)
  have hrun := hrun.tail (.increment (w := 0) rfl)
  have hrun := hrun.tail (.increment (w := 1) rfl)
  have hrun := hrun.tail (.call (w := 0) rfl)
  have hrun := hrun.tail (.call (w := 1) rfl)
  have hrun := hrun.tail (.finish (w := 1) rfl)
  have hrun := hrun.tail .shutdown
  have hrun := hrun.tail (.decrement (w := 1) rfl)
  have hrun := hrun.tail (.exit (w := 1) rfl (by decide) rfl)
  have hrun := hrun.tail (.finish (w := 0) rfl)
  have hrun := hrun.tail (.decrement (w := 0) rfl)
  have hrun := hrun.tail (.exit (w := 0) rfl (by decide) rfl)
  have hreach : PoolRun.Reachable (#v[0, 0] : Vector ClientFd 2) _ := ⟨_, rfl, hrun⟩
  obtain ⟨hcount, hhandled⟩ := (threadPool_runs_jobs hreach).2.2.2.2.2 (by decide)
  exact ⟨_, hreach, rfl, rfl, by decide, hcount, hhandled 0 7 rfl, hhandled 1 8 rfl⟩

end PoolRun

end MiniDbms
