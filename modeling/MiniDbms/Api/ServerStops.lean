import MiniDbms.Api.ServerRun
import MiniDbms.Library.Condition

/-!
# How `api_server_run` stops

The workers wait at the condition variable of the queue: `queue_push` signals it, `queue_shutdown`
broadcasts, and a worker may come back from `pthread_cond_wait` by itself, on which nothing relies.
What a worker does in its handler before it closes the connection, with `recv` and `send`, is one
step, and this is the one step that may have to wait for a client.
-/

namespace MiniDbms

open Condition (Signal Covered)

variable {workerCount : Nat}

namespace ApiServerRun

variable {s s' : ApiServerRun workerCount}

/-! ### The steps that are left -/

/-- How many steps a worker is away from its exit if it finds nothing more to do. -/
def rank : WorkerPhase → HandlerPhase → Nat
  | .waiting, _            => 2
  | .popping, _            => 1
  | .popped _, _           => 8
  | .active _, _           => 7
  | .handling _, .called   => 6
  | .handling _, .answered => 5
  | .handling _, .closed   => 4
  | .finished, _           => 3
  | .exited, _             => 0

/-- The steps that are left once the pool is shut down. -/
def remaining (s : ApiServerRun workerCount) : Nat :=
  (if s.main = .joining then 1 else 0) + 8 * s.run.pool.queue.contents.length +
    ∑ w, rank (s.run.pool.workers w) (s.handler w)

/-- A worker moves: the steps that are left to all of them change by its own. -/
lemma sum_rank_eq {w : Fin workerCount}
    (hworkers : ∀ i, i ≠ w → s'.run.pool.workers i = s.run.pool.workers i)
    (hhandler : ∀ i, i ≠ w → s'.handler i = s.handler i) :
    ∑ i, rank (s'.run.pool.workers i) (s'.handler i) + rank (s.run.pool.workers w) (s.handler w) =
      ∑ i, rank (s.run.pool.workers i) (s.handler i) +
        rank (s'.run.pool.workers w) (s'.handler w) := by
  have hrest : ∑ i ∈ Finset.univ.erase w, rank (s'.run.pool.workers i) (s'.handler i) =
      ∑ i ∈ Finset.univ.erase w, rank (s.run.pool.workers i) (s.handler i) := by
    apply Finset.sum_congr rfl
    intro i hi
    rw [hworkers i (Finset.ne_of_mem_erase hi), hhandler i (Finset.ne_of_mem_erase hi)]
  have hnew := Finset.add_sum_erase Finset.univ
    (fun i => rank (s'.run.pool.workers i) (s'.handler i)) (Finset.mem_univ w)
  have hold := Finset.add_sum_erase Finset.univ
    (fun i => rank (s.run.pool.workers i) (s.handler i)) (Finset.mem_univ w)
  omega

/-- A move of a worker outside its handler, while the pool is shut down. -/
lemma rank_lt_of_moves {queue queue' : JobQueue} {p p' : WorkerPhase}
    (h : WorkerPhase.Moves queue queue' p p') (hshut : queue.shuttingDown = true) :
    8 * queue'.contents.length + rank p' .called < 8 * queue.contents.length + rank p .called := by
  cases h with
  | wait hwaits hqueue => exact absurd hshut (by rw [hwaits.2]; simp)
  | pop job hcontents =>
    rw [hcontents, List.length_cons, rank, rank]
    omega
  | wake hqueue | exit hqueue | increment _ hqueue | call _ hqueue | decrement hqueue =>
    rw [hqueue, rank, rank]
    omega

/-- Once the pool is shut down, every step leaves fewer. -/
lemma Inv.stopping (h : s.Inv) (hmain : s.main = .joining ∨ s.main = .returned)
    (hstep : Step s s') :
    (s'.main = .joining ∨ s'.main = .returned) ∧ s'.remaining < s.remaining := by
  have hshut := h.shuttingDown.mpr hmain
  have hinside : ∀ {w : Fin workerCount} {job : Job}, s.run.pool.workers w = .handling job →
      s'.main = s.main → s'.run.pool.queue = s.run.pool.queue →
      (∀ i, i ≠ w → s'.run.pool.workers i = s.run.pool.workers i) →
      (∀ i, i ≠ w → s'.handler i = s.handler i) →
      rank (s'.run.pool.workers w) (s'.handler w) < rank (.handling job) (s.handler w) →
      (s'.main = .joining ∨ s'.main = .returned) ∧ s'.remaining < s.remaining := by
    intro w job hw hsame hqueue hworkers hhandler hless
    have hsum := sum_rank_eq hworkers hhandler
    rw [hw] at hsum
    rw [remaining, remaining, hsame, hqueue]
    exact ⟨hmain, by omega⟩
  cases hstep with
  | join hjoining hexited =>
    refine ⟨.inr rfl, ?_⟩
    rw [remaining, remaining, hjoining]
    simp [setMain]
  | @work run hstep hmoved hhandled =>
    obtain ⟨w, p, hworkers, hmoves, -⟩ := hstep.moves hmoved hhandled
    have hcalled : s.handler w = .called := by
      apply h.called
      intro job hjob
      rw [hjob] at hmoves
      cases hmoves
    have hothers : ∀ i, i ≠ w → run.pool.workers i = s.run.pool.workers i := fun i hi => by
      rw [hworkers, Function.update_of_ne hi]
    have hw : run.pool.workers w = p := by rw [hworkers, Function.update_self]
    have hsum := @sum_rank_eq _ s { s with run := run } w hothers fun _ _ => rfl
    have hless := rank_lt_of_moves hmoves hshut
    dsimp only at hsum
    rw [hw, hcalled] at hsum
    refine ⟨hmain, ?_⟩
    simp only [remaining]
    omega
  | @handlerAnswer w job hw hcalled =>
    refine hinside hw rfl rfl (fun _ _ => rfl) (fun i hi => Function.update_of_ne hi _ _) ?_
    show rank (s.run.pool.workers w) (Function.update s.handler w .answered w) < _
    rw [hw, hcalled, Function.update_self, rank, rank]
    omega
  | @handlerClose w job hw hanswered =>
    refine hinside hw rfl rfl (fun _ _ => rfl) (fun i hi => Function.update_of_ne hi _ _) ?_
    show rank (s.run.pool.workers w) (Function.update s.handler w .closed w) < _
    rw [hw, hanswered, Function.update_self, rank, rank]
    omega
  | @handlerReturn w job hw hclosed =>
    refine hinside hw rfl rfl (fun i hi => Function.update_of_ne hi _ _)
      (fun i hi => Function.update_of_ne hi _ _) ?_
    rw [hclosed]
    simp [setHandler, ThreadPool.setWorker, rank]
  | accept hother | fastPath hother | answer hother | closeAnswered hother | submit hother
  | refuse hother | sendBusy hother | closeRefused hother | acceptFails hother | shutdown hother =>
    rw [hother] at hmain
    simp at hmain

/-! ### The workers at the condition variable -/

/-- The workers that are at one place. -/
def workersAt (s : ApiServerRun workerCount) (p : WorkerPhase) : Finset (Fin workerCount) :=
  {w | s.run.pool.workers w = p}

lemma mem_workersAt {w : Fin workerCount} {p : WorkerPhase} :
    w ∈ s.workersAt p ↔ s.run.pool.workers w = p := Finset.mem_filter_univ w

/-- A worker comes back from `pthread_cond_wait`. -/
def wake (s : ApiServerRun workerCount) (w : Fin workerCount) : ApiServerRun workerCount :=
  { s with run := { s.run with pool := s.run.pool.setWorker w .popping } }

lemma workersAt_enter {w : Fin workerCount} {p : WorkerPhase}
    (h : s'.run.pool.workers = Function.update s.run.pool.workers w p) :
    s'.workersAt p = insert w (s.workersAt p) := by
  ext i
  rw [Finset.mem_insert, mem_workersAt, mem_workersAt, h]
  by_cases heq : i = w
  · simp [heq]
  · simp [heq]

lemma workersAt_leave {w : Fin workerCount} {p q : WorkerPhase}
    (h : s'.run.pool.workers = Function.update s.run.pool.workers w p) (hne : p ≠ q) :
    s'.workersAt q = (s.workersAt q).erase w := by
  ext i
  rw [Finset.mem_erase, mem_workersAt, mem_workersAt, h]
  by_cases heq : i = w
  · simp [heq, hne]
  · simp [heq]

/-- Neither where the worker was nor where it is. -/
lemma workersAt_other {w : Fin workerCount} {p q : WorkerPhase}
    (h : s'.run.pool.workers = Function.update s.run.pool.workers w p) (hne : p ≠ q)
    (hw : s.run.pool.workers w ≠ q) : s'.workersAt q = s.workersAt q := by
  rw [workersAt_leave h hne, Finset.erase_eq_of_notMem]
  rwa [mem_workersAt]

/-- A step of the pool by itself accepts no job. -/
lemma accepted_of_moves {run run' : PoolRun workerCount} (h : PoolRun.Step run run')
    (hmoved : run'.pool.workers ≠ run.pool.workers) : run'.accepted = run.accepted := by
  cases h with
  | accept hsubmit =>
    rw [threadPoolSubmit_eq, Prod.mk.injEq] at hsubmit
    obtain ⟨rfl, -⟩ := hsubmit
    exact absurd rfl hmoved
  | _ => rfl

/-- Where a job is accepted, it is put into the queue. -/
lemma Step.pushes (h : Step s s') (hpush : s'.run.accepted ≠ s.run.accepted) :
    s'.run.pool.workers = s.run.pool.workers ∧
      s'.run.pool.queue.contents.length = s.run.pool.queue.contents.length + 1 ∧
      s'.run.pool.queue.shuttingDown = s.run.pool.queue.shuttingDown := by
  cases h with
  | submit hmain hsubmit =>
    rw [threadPoolSubmit_eq, Prod.mk.injEq] at hsubmit
    obtain ⟨rfl, hstatus⟩ := hsubmit
    obtain ⟨hcontents, -, hshut⟩ := JobQueue.push_success hstatus
    refine ⟨rfl, ?_, hshut⟩
    rw [hcontents, List.length_append, List.length_singleton]
  | work hstep hmoved hhandled => exact absurd (accepted_of_moves hstep hmoved) hpush
  | _ => exact absurd rfl hpush

/-- Where the queue is shut down, nothing else happens. -/
lemma Step.shutsDown (h : Step s s')
    (hshutdown : s'.run.pool.queue.shuttingDown ≠ s.run.pool.queue.shuttingDown) :
    s'.run.pool.workers = s.run.pool.workers := by
  cases h with
  | work hstep hmoved hhandled =>
    obtain ⟨w, p, -, -, hshut⟩ := hstep.moves hmoved hhandled
    exact absurd hshut hshutdown
  | submit hmain hsubmit | refuse hmain hsubmit =>
    rw [threadPoolSubmit_eq, Prod.mk.injEq] at hsubmit
    obtain ⟨rfl, -⟩ := hsubmit
    rfl
  | shutdown hmain => rfl
  | _ => exact absurd rfl hshutdown

/-- A step for which a thread needs neither the condition variable nor a client. -/
structure GoesOn (s s' : ApiServerRun workerCount) : Prop where
  step : Step s s'
  accepted : s'.run.accepted = s.run.accepted
  shuttingDown : s'.run.pool.queue.shuttingDown = s.run.pool.queue.shuttingDown
  waiting : s.workersAt .waiting ⊆ s'.workersAt .waiting
  log : ∀ clientFd, s'.log ≠ s.log ++ [.use clientFd]

lemma goesOn_of_moves {run : PoolRun workerCount} {w : Fin workerCount} {p : WorkerPhase}
    (hstep : PoolRun.Step s.run run)
    (hworkers : run.pool.workers = Function.update s.run.pool.workers w p)
    (hmoved : p ≠ s.run.pool.workers w) (hw : s.run.pool.workers w ≠ .waiting)
    (hp : p ≠ .waiting) (hhandled : run.handled = s.run.handled) :
    GoesOn s { s with run := run } := by
  have hne : run.pool.workers ≠ s.run.pool.workers := fun heq =>
    hmoved (Function.update_eq_self_iff.mp (hworkers.symm.trans heq))
  obtain ⟨-, -, -, -, hshut⟩ := hstep.moves hne hhandled
  exact ⟨.work hstep hne hhandled, accepted_of_moves hstep hne, hshut,
    (workersAt_other hworkers hp hw).ge, fun _ heq => by simp at heq⟩

/-- While the pool is shut down, a worker has exited, waits, goes on in its handler, or moves on by
itself. -/
lemma Inv.worker_moves (h : s.Inv) (hmain : s.main = .joining) (w : Fin workerCount) :
    s.run.pool.workers w = .exited ∨ s.run.pool.workers w = .waiting ∨
    (∃ job, s.run.pool.workers w = .handling job ∧ s.handler w = .called) ∨
    ∃ s', GoesOn s s' := by
  cases hphase : s.run.pool.workers w with
  | exited => exact .inl rfl
  | waiting => exact .inr (.inl rfl)
  | popping =>
    have hshut := h.shuttingDown.mpr (.inl hmain)
    have hawake : ¬ s.run.pool.queue.Waits := by
      rintro ⟨-, hopen⟩
      rw [hshut] at hopen
      cases hopen
    refine .inr (.inr (.inr ?_))
    cases hpop : queuePop s.run.pool.queue with
    | mk queue clientFd =>
      cases clientFd with
      | none =>
        exact ⟨_, goesOn_of_moves (.exit hphase hawake hpop) rfl (by simp [hphase])
          (by simp [hphase]) (by simp) rfl⟩
      | some clientFd =>
        exact ⟨_, goesOn_of_moves (.pop hphase hawake hpop) rfl (by simp [hphase])
          (by simp [hphase]) (by simp) rfl⟩
  | popped job =>
    exact .inr (.inr (.inr ⟨_, goesOn_of_moves (.increment hphase) rfl (by simp [hphase])
      (by simp [hphase]) (by simp) rfl⟩))
  | active job =>
    exact .inr (.inr (.inr ⟨_, goesOn_of_moves (.call hphase) rfl (by simp [hphase])
      (by simp [hphase]) (by simp) rfl⟩))
  | finished =>
    exact .inr (.inr (.inr ⟨_, goesOn_of_moves (.decrement hphase) rfl (by simp [hphase])
      (by simp [hphase]) (by simp) rfl⟩))
  | handling job =>
    cases hhandler : s.handler w with
    | called => exact .inr (.inr (.inl ⟨job, rfl, rfl⟩))
    | answered =>
      refine .inr (.inr (.inr ⟨_, .handlerClose hphase hhandler, rfl, rfl, Finset.Subset.rfl, ?_⟩))
      intro clientFd heq
      simp [setHandler, ApiServerRun.close] at heq
    | closed =>
      refine .inr (.inr (.inr ⟨_, .handlerReturn hphase hhandler, rfl, rfl,
        (workersAt_other rfl (by simp) (by simp [hphase])).ge, ?_⟩))
      intro clientFd heq
      simp [setHandler] at heq

end ApiServerRun

/-- The server with the workers that were unblocked and are not yet back from `pthread_cond_wait`. -/
structure SignalledRun (workerCount : Nat) where
  server : ApiServerRun workerCount
  unblocked : Finset (Fin workerCount)

namespace SignalledRun

/-- A step of one thread, with what it does to the condition variable. -/
inductive Step (s : SignalledRun workerCount) : SignalledRun workerCount → Prop
  /-- `queue_push` signals. -/
  | push {server : ApiServerRun workerCount} {unblocked : Finset (Fin workerCount)}
      (h : s.server.Step server) (hpush : server.run.accepted ≠ s.server.run.accepted)
      (hsignal : Signal (s.server.workersAt .waiting) s.unblocked unblocked) :
      Step s ⟨server, unblocked⟩
  /-- `queue_shutdown` broadcasts. -/
  | shutdown {server : ApiServerRun workerCount} (h : s.server.Step server)
      (hshutdown : server.run.pool.queue.shuttingDown ≠ s.server.run.pool.queue.shuttingDown) :
      Step s ⟨server, s.server.workersAt .waiting⟩
  /-- A worker that was unblocked has the mutex again. -/
  | back {w : Fin workerCount} (hw : w ∈ s.unblocked) :
      Step s ⟨s.server.wake w, s.unblocked.erase w⟩
  | quiet {server : ApiServerRun workerCount} (h : s.server.Step server)
      (hpush : server.run.accepted = s.server.run.accepted)
      (hshutdown : server.run.pool.queue.shuttingDown = s.server.run.pool.queue.shuttingDown)
      (hwaiting : s.server.workersAt .waiting ⊆ server.workersAt .waiting) :
      Step s ⟨server, s.unblocked⟩

/-- A worker that was not unblocked comes back from `pthread_cond_wait`. -/
inductive Spurious (s : SignalledRun workerCount) : SignalledRun workerCount → Prop
  | back {w : Fin workerCount} (hw : s.server.run.pool.workers w = .waiting)
      (hblocked : w ∉ s.unblocked) : Spurious s ⟨s.server.wake w, s.unblocked⟩

def Move (s s' : SignalledRun workerCount) : Prop := Step s s' ∨ Spurious s s'

/-- A worker goes on in its handler, for which its client may have to do something. -/
inductive Answers (s : SignalledRun workerCount) : SignalledRun workerCount → Prop
  | answer {w : Fin workerCount} {job : Job} (h : s.server.run.pool.workers w = .handling job)
      (hcalled : s.server.handler w = .called) :
      Answers s ⟨(s.server.answer job.clientFd).setHandler w .answered, s.unblocked⟩

/-- The states that an interleaving can lead to. -/
def Reachable {capacity : Nat} (block : Vector ClientFd capacity) (s : SignalledRun workerCount) :
    Prop :=
  ∃ pool, threadPoolInit workerCount capacity block = some pool ∧
    Relation.ReflTransGen Move ⟨.start pool, ∅⟩ s

variable {s s' : SignalledRun workerCount}

/-! ### No wake-up is lost -/

/-- While a worker is blocked, every job in the queue has a worker that is about to take one. -/
def JobsCovered (s : SignalledRun workerCount) : Prop :=
  Covered s.server.run.pool.queue.contents.length (s.server.workersAt .popping).card
    (s.server.workersAt .waiting) s.unblocked

/-- What holds in every state. -/
structure Inv (s : SignalledRun workerCount) : Prop where
  waits : s.unblocked ⊆ s.server.workersAt .waiting
  covered : s.JobsCovered
  shutdown : s.server.run.pool.queue.shuttingDown = true →
    s.server.workersAt .waiting ⊆ s.unblocked

lemma inv_start {capacity : Nat} {block : Vector ClientFd capacity} {pool : ThreadPool workerCount}
    (h : threadPoolInit workerCount capacity block = some pool) : Inv ⟨.start pool, ∅⟩ := by
  unfold threadPoolInit at h
  split_ifs at h
  obtain ⟨queue, hqueue, rfl⟩ := Option.map_eq_some_iff.mp h
  have hnobody : (ApiServerRun.start (⟨fun _ => .popping, 0, queue⟩ :
      ThreadPool workerCount)).workersAt .waiting = ∅ := by
    ext w
    rw [ApiServerRun.mem_workersAt]
    simp [ApiServerRun.start, PoolRun.start]
  refine ⟨Finset.empty_subset _, .inl ?_, fun _ => ?_⟩
  · rw [hnobody]
  · rw [hnobody]

/-- A worker comes back from `pthread_cond_wait`. -/
lemma wake_step {server : ApiServerRun workerCount} {w : Fin workerCount}
    (hw : server.run.pool.workers w = .waiting) : server.Step (server.wake w) := by
  refine .work (.wake hw) (fun heq => ?_) rfl
  have hsame := congrFun heq w
  rw [hw] at hsame
  simp [ThreadPool.setWorker] at hsame

lemma wake_waiting (server : ApiServerRun workerCount) (w : Fin workerCount) :
    (server.wake w).workersAt .waiting = (server.workersAt .waiting).erase w :=
  ApiServerRun.workersAt_leave rfl (by simp)

lemma wake_popping {server : ApiServerRun workerCount} {w : Fin workerCount}
    (hw : server.run.pool.workers w = .waiting) :
    ((server.wake w).workersAt .popping).card = (server.workersAt .popping).card + 1 := by
  rw [ApiServerRun.workersAt_enter rfl, Finset.card_insert_of_notMem]
  rw [ApiServerRun.mem_workersAt, hw]
  simp

lemma Inv.back (h : s.Inv) {w : Fin workerCount} (hw : w ∈ s.unblocked) :
    Inv ⟨s.server.wake w, s.unblocked.erase w⟩ := by
  have hwaiting := ApiServerRun.mem_workersAt.mp (h.waits hw)
  refine ⟨?_, ?_, fun hshut => ?_⟩
  · rw [wake_waiting]
    exact Finset.erase_subset_erase w h.waits
  · rw [JobsCovered, wake_waiting, wake_popping hwaiting]
    exact h.covered.back hw
  · rw [wake_waiting]
    exact Finset.erase_subset_erase w (h.shutdown hshut)

lemma Inv.spurious (h : s.Inv) {w : Fin workerCount}
    (hw : s.server.run.pool.workers w = .waiting) (hblocked : w ∉ s.unblocked) :
    Inv ⟨s.server.wake w, s.unblocked⟩ := by
  refine ⟨?_, ?_, fun hshut => ?_⟩
  · rw [wake_waiting]
    exact Finset.subset_erase.mpr ⟨h.waits, hblocked⟩
  · rw [JobsCovered, wake_waiting, wake_popping hw]
    exact h.covered.spurious
  · rw [wake_waiting]
    exact (Finset.erase_subset _ _).trans (h.shutdown hshut)

lemma Inv.push (h : s.Inv) {server : ApiServerRun workerCount}
    {unblocked : Finset (Fin workerCount)} (hstep : s.server.Step server)
    (hpush : server.run.accepted ≠ s.server.run.accepted)
    (hsignal : Signal (s.server.workersAt .waiting) s.unblocked unblocked) :
    Inv ⟨server, unblocked⟩ := by
  obtain ⟨hworkers, hlength, hshut⟩ := hstep.pushes hpush
  have hsame : ∀ p, server.workersAt p = s.server.workersAt p := fun p => by
    rw [ApiServerRun.workersAt, ApiServerRun.workersAt, hworkers]
  refine ⟨?_, ?_, fun hdown => ?_⟩
  · rw [hsame]
    exact hsignal.waits
  · rw [JobsCovered, hsame, hsame, hlength]
    exact h.covered.signal hsignal
  · rw [hsame]
    exact (h.shutdown (hshut ▸ hdown)).trans hsignal.keeps

lemma inv_broadcast {server : ApiServerRun workerCount} (hstep : s.server.Step server)
    (hshutdown : server.run.pool.queue.shuttingDown ≠ s.server.run.pool.queue.shuttingDown) :
    Inv ⟨server, s.server.workersAt .waiting⟩ := by
  have hworkers := hstep.shutsDown hshutdown
  have hsame : server.workersAt .waiting = s.server.workersAt .waiting := by
    rw [ApiServerRun.workersAt, ApiServerRun.workersAt, hworkers]
  refine ⟨?_, ?_, fun _ => ?_⟩
  · rw [hsame]
  · rw [JobsCovered, hsame]
    exact Condition.covered_broadcast
  · rw [hsame]

/-- Nothing happens at the condition variable, and no job is taken. -/
lemma Inv.ofSame (h : s.Inv) {server : ApiServerRun workerCount}
    (hwaiting : server.workersAt .waiting = s.server.workersAt .waiting)
    (hpopping : s.server.workersAt .popping ⊆ server.workersAt .popping)
    (hcontents : server.run.pool.queue.contents = s.server.run.pool.queue.contents)
    (hshut : server.run.pool.queue.shuttingDown = s.server.run.pool.queue.shuttingDown) :
    Inv ⟨server, s.unblocked⟩ := by
  refine ⟨?_, ?_, fun hdown => ?_⟩
  · rw [hwaiting]
    exact h.waits
  · rw [JobsCovered, hwaiting, hcontents]
    exact h.covered.mono (Finset.card_le_card hpopping)
  · rw [hwaiting]
    exact h.shutdown (hshut ▸ hdown)

/-- A worker moves outside its handler and does not come back from `pthread_cond_wait`. -/
lemma Inv.moves (h : s.Inv) {server : ApiServerRun workerCount} {w : Fin workerCount}
    {p : WorkerPhase}
    (hworkers : server.run.pool.workers = Function.update s.server.run.pool.workers w p)
    (hmoves : WorkerPhase.Moves s.server.run.pool.queue server.run.pool.queue
      (s.server.run.pool.workers w) p)
    (hshut : server.run.pool.queue.shuttingDown = s.server.run.pool.queue.shuttingDown)
    (hwaiting : s.server.workersAt .waiting ⊆ server.workersAt .waiting)
    (hexited : server.run.pool.workers w = .exited →
      server.run.pool.queue.shuttingDown = true) : Inv ⟨server, s.unblocked⟩ := by
  generalize hw : s.server.run.pool.workers w = q at hmoves
  cases hmoves with
  | wait hq hqueue =>
    have hempty : s.server.run.pool.queue.contents = [] := by
      rw [← List.length_eq_zero_iff, JobQueue.length_contents, hq.1]
    refine ⟨h.waits.trans hwaiting, ?_, fun hdown => ?_⟩
    · rw [JobsCovered, hqueue, hempty]
      exact Condition.covered_empty
    · rw [hshut, hq.2] at hdown
      cases hdown
  | wake hqueue =>
    have hmem := ApiServerRun.mem_workersAt.mp
      (hwaiting (ApiServerRun.mem_workersAt.mpr hw))
    rw [hworkers, Function.update_self] at hmem
    cases hmem
  | pop job hcontents =>
    have hsame := ApiServerRun.workersAt_other (q := .waiting) hworkers (by simp) (by simp [hw])
    have hpopping := ApiServerRun.workersAt_leave (q := .popping) hworkers (by simp)
    refine ⟨hsame ▸ h.waits, ?_, fun hdown => hsame ▸ h.shutdown (hshut ▸ hdown)⟩
    have hcovered := h.covered
    rw [JobsCovered, hcontents, List.length_cons,
      ← Finset.card_erase_add_one (ApiServerRun.mem_workersAt.mpr hw)] at hcovered
    rw [JobsCovered, hsame, hpopping]
    exact hcovered.take
  | exit hqueue =>
    have hsame := ApiServerRun.workersAt_other (q := .waiting) hworkers (by simp) (by simp [hw])
    have hdown := hexited (by rw [hworkers, Function.update_self])
    have hall := h.shutdown (hshut ▸ hdown)
    refine ⟨hsame ▸ h.waits, .inl ?_, fun _ => ?_⟩
    · rw [hsame]
      exact hall
    · rw [hsame]
      exact hall
  | increment _ hqueue | call _ hqueue =>
    exact h.ofSame (ApiServerRun.workersAt_other hworkers (by simp) (by simp [hw]))
      (ApiServerRun.workersAt_other hworkers (by simp) (by simp [hw])).ge (by rw [hqueue]) hshut
  | decrement hqueue =>
    refine h.ofSame (ApiServerRun.workersAt_other hworkers (by simp) (by simp [hw])) ?_
      (by rw [hqueue]) hshut
    rw [ApiServerRun.workersAt_enter hworkers]
    exact Finset.subset_insert _ _

lemma Inv.quiet (h : s.Inv) {server : ApiServerRun workerCount} (hstep : s.server.Step server)
    (hpush : server.run.accepted = s.server.run.accepted)
    (hshutdown : server.run.pool.queue.shuttingDown = s.server.run.pool.queue.shuttingDown)
    (hwaiting : s.server.workersAt .waiting ⊆ server.workersAt .waiting)
    (hexited : ∀ w, server.run.pool.workers w = .exited →
      server.run.pool.queue.shuttingDown = true) : Inv ⟨server, s.unblocked⟩ := by
  cases hstep with
  | submit hmain hsubmit => exact absurd hpush (by simp)
  | refuse hmain hsubmit =>
    rw [threadPoolSubmit_eq, Prod.mk.injEq] at hsubmit
    obtain ⟨rfl, hstatus⟩ := hsubmit
    exact h.ofSame rfl Finset.Subset.rfl
      (congrArg JobQueue.contents (JobQueue.push_failure hstatus)) hshutdown
  | work hstep hmoved hhandled =>
    obtain ⟨w, p, hworkers, hmoves, hshut⟩ := hstep.moves hmoved hhandled
    exact h.moves hworkers hmoves hshut hwaiting (hexited w)
  | handlerReturn hw hclosed =>
    exact h.ofSame (ApiServerRun.workersAt_other rfl (by simp) (by simp [hw]))
      (ApiServerRun.workersAt_other rfl (by simp) (by simp [hw])).ge rfl hshutdown
  | _ => exact h.ofSame rfl Finset.Subset.rfl rfl hshutdown

/-- Each step is one of the server without the condition variable. -/
lemma Inv.server_step (h : s.Inv) (hmove : Move s s') : s.server.Step s'.server := by
  obtain hstep | hspurious := hmove
  · cases hstep with
    | back hw => exact wake_step (ApiServerRun.mem_workersAt.mp (h.waits hw))
    | push hserver | shutdown hserver | quiet hserver => exact hserver
  · obtain ⟨hw, -⟩ := hspurious
    exact wake_step hw

lemma Inv.step (h : s.Inv) (hmove : Move s s')
    (hexited : ∀ w, s'.server.run.pool.workers w = .exited →
      s'.server.run.pool.queue.shuttingDown = true) : s'.Inv := by
  obtain hstep | hspurious := hmove
  · cases hstep with
    | push hserver hpush hsignal => exact h.push hserver hpush hsignal
    | shutdown hserver hshutdown => exact inv_broadcast hserver hshutdown
    | back hw => exact h.back hw
    | quiet hserver hpush hshutdown hwaiting =>
      exact h.quiet hserver hpush hshutdown hwaiting hexited
  · obtain ⟨hw, hblocked⟩ := hspurious
    exact h.spurious hw hblocked

lemma Reachable.inv {capacity : Nat} {block : Vector ClientFd capacity} (h : s.Reachable block) :
    s.server.Reachable block ∧ s.Inv := by
  obtain ⟨pool, hinit, hrun⟩ := h
  induction hrun with
  | refl => exact ⟨⟨pool, hinit, .refl⟩, inv_start hinit⟩
  | tail _ hmove ih =>
    obtain ⟨⟨pool', hinit', hreach⟩, hinv⟩ := ih
    have hserver : ApiServerRun.Reachable block _ :=
      ⟨pool', hinit', hreach.tail (hinv.server_step hmove)⟩
    exact ⟨hserver, hinv.step hmove fun w hw => (hserver.pool.inv.exited w hw).1⟩

/-! ### Nobody waits but for a client -/

lemma step_of_goesOn {server : ApiServerRun workerCount} (h : s.server.GoesOn server) :
    Step s ⟨server, s.unblocked⟩ :=
  .quiet h.step h.accepted h.shuttingDown h.waiting

lemma Answers.log (h : Answers s s') :
    ∃ clientFd, s'.server.log = s.server.log ++ [.use clientFd] := by
  obtain ⟨hw, hcalled⟩ := h
  exact ⟨_, rfl⟩

/-- Where no step is left but those of workers in their handlers, the other workers have exited. -/
lemma Inv.workers_done (h : s.Inv) (hserver : s.server.Inv) (hmain : s.server.main = .joining)
    (hlast : ∀ s', Step s s' → Answers s s') (w : Fin workerCount) :
    s.server.run.pool.workers w = .exited ∨
    ∃ job, s.server.run.pool.workers w = .handling job ∧ s.server.handler w = .called := by
  rcases hserver.worker_moves hmain w with hexited | hwaiting | hhandling | ⟨server, hon⟩
  · exact .inl hexited
  · have hshut := hserver.shuttingDown.mpr (.inl hmain)
    have hmem := h.shutdown hshut (ApiServerRun.mem_workersAt.mpr hwaiting)
    obtain ⟨clientFd, hlog⟩ := (hlast _ (.back hmem)).log
    simp [ApiServerRun.wake] at hlog
  · exact .inr hhandling
  · obtain ⟨clientFd, hlog⟩ := (hlast _ (step_of_goesOn hon)).log
    exact absurd hlog (hon.log clientFd)

/-- The accepting thread joins the workers. -/
lemma goesOn_join {server : ApiServerRun workerCount} (hmain : server.main = .joining)
    (hexited : ∀ w, server.run.pool.workers w = .exited) :
    server.GoesOn (server.setMain .returned) :=
  ⟨.join hmain hexited, rfl, rfl, Finset.Subset.rfl,
    fun _ heq => by simp [ApiServerRun.setMain] at heq⟩

section

variable {capacity : Nat} {block : Vector ClientFd capacity}

lemma Reachable.move (h : s.Reachable block) (hmove : Move s s') : s'.Reachable block := by
  obtain ⟨pool, hinit, hrun⟩ := h
  exact ⟨pool, hinit, hrun.tail hmove⟩

/-- A step of a pool that is shut down. -/
lemma Reachable.stopping_move (h : s.Reachable block)
    (hmain : s.server.main = .joining ∨ s.server.main = .returned) (hmove : Move s s') :
    (s'.server.main = .joining ∨ s'.server.main = .returned) ∧
      s'.server.remaining < s.server.remaining := by
  obtain ⟨hserver, hinv⟩ := h.inv
  exact hserver.inv.stopping hmain (hinv.server_step hmove)

/-- A run of a pool that is shut down. -/
lemma Reachable.stopping_run (h : s.Reachable block)
    (hmain : s.server.main = .joining ∨ s.server.main = .returned)
    (hrun : Relation.ReflTransGen Move s s') :
    s'.Reachable block ∧ (s'.server.main = .joining ∨ s'.server.main = .returned) := by
  induction hrun with
  | refl => exact ⟨h, hmain⟩
  | tail _ hmove ih =>
    obtain ⟨hreach, hstopping⟩ := ih
    exact ⟨hreach.move hmove, (hreach.stopping_move hstopping hmove).1⟩

lemma Reachable.stopping_chain (h : s.Reachable block)
    (hmain : s.server.main = .joining ∨ s.server.main = .returned)
    {states : List (SignalledRun workerCount)} (hrun : List.IsChain Move (s :: states)) :
    states.length ≤ s.server.remaining := by
  induction states generalizing s with
  | nil => exact Nat.zero_le _
  | cons next states ih =>
    obtain ⟨hmove, hrest⟩ := List.isChain_cons_cons.mp hrun
    obtain ⟨hnext, hless⟩ := h.stopping_move hmain hmove
    have hle := ih (h.move hmove) hnext hrest
    rw [List.length_cons]
    omega

/-- Where no step is left but those of workers in their handlers. -/
lemma Reachable.workers_done (h : s.Reachable block)
    (hmain : s.server.main = .joining ∨ s.server.main = .returned)
    (hlast : ∀ s', Step s s' → Answers s s') (w : Fin workerCount) :
    s.server.run.pool.workers w = .exited ∨
    ∃ job, s.server.run.pool.workers w = .handling job ∧ s.server.handler w = .called := by
  obtain ⟨hserver, hinv⟩ := h.inv
  rcases hmain with hjoining | hreturned
  · exact hinv.workers_done hserver.inv hjoining hlast w
  · exact .inl (hserver.inv.exited hreturned w)

/-- Where no step is left at all. -/
lemma Reachable.returned (h : s.Reachable block)
    (hmain : s.server.main = .joining ∨ s.server.main = .returned) (hlast : ∀ s', ¬ Step s s') :
    s.server.main = .returned ∧ s.server.opened = ∅ ∧
      (s.server.run.handled : Multiset Job) = jobsOf s.server.run.accepted := by
  have hexited : ∀ w, s.server.run.pool.workers w = .exited := by
    intro w
    have hdone := h.workers_done hmain (fun s' hstep => absurd hstep (hlast s')) w
    rcases hdone with hexited | ⟨job, hw, hcalled⟩
    · exact hexited
    · exact absurd (.quiet (.handlerAnswer hw hcalled) rfl rfl Finset.Subset.rfl) (hlast _)
  rcases hmain with hjoining | hreturned
  · exact absurd (step_of_goesOn (goesOn_join hjoining hexited)) (hlast _)
  · exact ⟨hreturned, h.inv.1.returned hreturned⟩

/-- No wake-up is lost: while a worker is blocked, at least as many workers are about to take a job
as there are jobs in the queue. Once the pool is shut down no worker is blocked, the threads make no
more steps than there are left, in any interleaving, and they only wait for clients: where the steps
that are left are those of workers in their handlers, every other worker has exited, and where no
step is left the server has returned, every job was handled and every connection is closed. -/
theorem apiServerRun_stops (h : s.Reachable block) :
    (¬ s.server.workersAt .waiting ⊆ s.unblocked →
      s.server.run.pool.queue.count ≤
        (s.server.workersAt .popping).card + s.unblocked.card) ∧
    (s.server.main = .joining →
      s.server.workersAt .waiting ⊆ s.unblocked ∧
      (∀ states, List.IsChain Move (s :: states) → states.length ≤ s.server.remaining) ∧
      ∀ s', Relation.ReflTransGen Move s s' → (∀ s'', Step s' s'' → Answers s' s'') →
        (∀ w, s'.server.run.pool.workers w = .exited ∨
          ∃ job, s'.server.run.pool.workers w = .handling job ∧ s'.server.handler w = .called) ∧
        ((∀ s'', ¬ Step s' s'') →
          s'.server.main = .returned ∧ s'.server.opened = ∅ ∧
            (s'.server.run.handled : Multiset Job) = jobsOf s'.server.run.accepted)) := by
  obtain ⟨hserver, hinv⟩ := h.inv
  constructor
  · intro hblocked
    have hcovered := hinv.covered.resolve_left hblocked
    rwa [JobQueue.length_contents] at hcovered
  · intro hmain
    have hshut := hserver.inv.shuttingDown.mpr (.inl hmain)
    refine ⟨hinv.shutdown hshut, fun states => h.stopping_chain (.inl hmain), ?_⟩
    intro s' hrun hlast
    obtain ⟨hreach, hstopping⟩ := h.stopping_run (.inl hmain) hrun
    exact ⟨hreach.workers_done hstopping hlast, hreach.returned hstopping⟩

end

/-- Two workers wait, a job is pushed, which unblocks one of them, and `accept` fails. -/
theorem apiServerRun_stops_waiting :
    ∃ s : SignalledRun 2, s.Reachable #v[0] ∧ s.server.opened = {4} ∧
      s.server.workersAt .waiting = {0, 1} ∧ s.server.workersAt .waiting ⊆ s.unblocked ∧
      ∀ s', Relation.ReflTransGen Move s s' → (∀ s'', ¬ Step s' s'') → s'.server.opened = ∅ := by
  have hrun := Relation.ReflTransGen.refl (r := Move) (a := ⟨.start
    (⟨fun _ => .popping, 0, ⟨1, #v[0], 0, 0, 0, false, by decide, by decide, by decide, rfl⟩⟩ :
      ThreadPool 2), ∅⟩)
  have hrun := hrun.tail (.inl (.quiet (.work (.wait (w := 0) rfl (by decide)) (by decide) rfl)
    rfl rfl (by decide)))
  have hrun := hrun.tail (.inl (.quiet (.work (.wait (w := 1) rfl (by decide)) (by decide) rfl)
    rfl rfl (by decide)))
  have hrun := hrun.tail (.inl (.quiet (@ApiServerRun.Step.accept _ _ 4 rfl (by decide))
    rfl rfl (by decide)))
  have hrun := hrun.tail (.inl (@Step.push _ _ _ {0} (@ApiServerRun.Step.submit _ _ 4 _ rfl rfl)
    (by decide) ⟨by decide, by decide, by decide⟩))
  have hrun := hrun.tail (.inl (.quiet (.acceptFails rfl) rfl rfl (by decide)))
  have hrun := hrun.tail (.inl (.shutdown (.shutdown rfl) (by decide)))
  have hreach : SignalledRun.Reachable (#v[0] : Vector ClientFd 1) _ := ⟨_, rfl, hrun⟩
  obtain ⟨hawake, -, hends⟩ := (apiServerRun_stops hreach).2 rfl
  exact ⟨_, hreach, by decide, by decide, hawake,
    fun s' hmoves hlast =>
    ((hends s' hmoves fun s'' hstep => absurd hstep (hlast s'')).2 hlast).2.1⟩

end SignalledRun

end MiniDbms
