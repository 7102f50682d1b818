import MiniDbms.Concurrency.ThreadPool
import MiniDbms.Library.Custody

/-!
# The descriptors of `api_server_run`

The thread that accepts connections serves some of them itself, hands most of them to the pool and
turns the others away. The workers answer and close what they take from the queue. The steps of all
threads come in any interleaving, until `accept` fails.
-/

namespace MiniDbms

open Custody (Event Holds turn)

/-- Where the thread that runs `api_server_run` is. -/
inductive AcceptPhase where
  | accepting                     -- in `accept`
  | accepted (clientFd : ClientFd)
  | answering (clientFd : ClientFd)  -- on the fast path
  | answered (clientFd : ClientFd)
  | refusing (clientFd : ClientFd)   -- behind a failed `thread_pool_submit`
  | refused (clientFd : ClientFd)
  | stopping                      -- behind `close(server_fd)`
  | joining                       -- in the joins of `thread_pool_shutdown`
  | returned
  deriving DecidableEq, Repr

/-- Where a worker is in `api_server_worker_handle_client`. -/
inductive HandlerPhase where
  | called
  | answered
  | closed
  deriving DecidableEq, Repr

/-- The threads, the descriptors of clients that are open, and what has happened to descriptors: they
are accepted, answered and closed. -/
structure ApiServerRun (workerCount : Nat) where
  run : PoolRun workerCount
  main : AcceptPhase
  handler : Fin workerCount → HandlerPhase
  opened : Finset ClientFd
  log : List (Event ClientFd)

variable {workerCount : Nat}

namespace ApiServerRun

/-- The server behind `thread_pool_init`. -/
def start (pool : ThreadPool workerCount) : ApiServerRun workerCount :=
  ⟨.start pool, .accepting, fun _ => .called, ∅, []⟩

/-- `accept` returns a descriptor that was not open. -/
def accept (s : ApiServerRun workerCount) (clientFd : ClientFd) : ApiServerRun workerCount :=
  { s with
    main := .accepted clientFd
    opened := insert clientFd s.opened
    log := s.log ++ [.acquire clientFd] }

/-- `close(client_fd)` -/
def close (s : ApiServerRun workerCount) (clientFd : ClientFd) : ApiServerRun workerCount :=
  { s with opened := s.opened.erase clientFd, log := s.log ++ [.release clientFd] }

/-- A response is sent, or sending it fails. -/
def answer (s : ApiServerRun workerCount) (clientFd : ClientFd) : ApiServerRun workerCount :=
  { s with log := s.log ++ [.use clientFd] }

def setMain (s : ApiServerRun workerCount) (main : AcceptPhase) : ApiServerRun workerCount :=
  { s with main := main }

def setHandler (s : ApiServerRun workerCount) (w : Fin workerCount) (p : HandlerPhase) :
    ApiServerRun workerCount :=
  { s with handler := Function.update s.handler w p }

/-- One step of one thread. When `accept` is interrupted it is called again, which is no step. -/
inductive Step (s : ApiServerRun workerCount) : ApiServerRun workerCount → Prop
  | accept {clientFd : ClientFd} (h : s.main = .accepting) (hnew : clientFd ∉ s.opened) :
      Step s (s.accept clientFd)
  | fastPath {clientFd : ClientFd} (h : s.main = .accepted clientFd) :
      Step s (s.setMain (.answering clientFd))
  | answer {clientFd : ClientFd} (h : s.main = .answering clientFd) :
      Step s ((s.answer clientFd).setMain (.answered clientFd))
  | closeAnswered {clientFd : ClientFd} (h : s.main = .answered clientFd) :
      Step s ((s.close clientFd).setMain .accepting)
  | submit {clientFd : ClientFd} {pool : ThreadPool workerCount} (h : s.main = .accepted clientFd)
      (hsubmit : threadPoolSubmit s.run.pool clientFd = (pool, .success)) :
      Step s { s with
        run := { s.run with pool := pool, accepted := s.run.accepted ++ [clientFd] }
        main := .accepting }
  | refuse {clientFd : ClientFd} {pool : ThreadPool workerCount} (h : s.main = .accepted clientFd)
      (hsubmit : threadPoolSubmit s.run.pool clientFd = (pool, .failure)) :
      Step s { s with run := { s.run with pool := pool }, main := .refusing clientFd }
  | sendBusy {clientFd : ClientFd} (h : s.main = .refusing clientFd) :
      Step s ((s.answer clientFd).setMain (.refused clientFd))
  | closeRefused {clientFd : ClientFd} (h : s.main = .refused clientFd) :
      Step s ((s.close clientFd).setMain .accepting)
  | acceptFails (h : s.main = .accepting) : Step s (s.setMain .stopping)
  | shutdown (h : s.main = .stopping) :
      Step s { s with
        run := { s.run with pool := threadPoolShutdown s.run.pool }
        main := .joining }
  | join (h : s.main = .joining) (hexited : ∀ w, s.run.pool.workers w = .exited) :
      Step s (s.setMain .returned)
  /-- A worker moves on outside its handler. -/
  | work {run : PoolRun workerCount} (h : PoolRun.Step s.run run)
      (hmoved : run.pool.workers ≠ s.run.pool.workers) (hhandled : run.handled = s.run.handled) :
      Step s { s with run := run }
  | handlerAnswer {w : Fin workerCount} {job : Job} (h : s.run.pool.workers w = .handling job)
      (hcalled : s.handler w = .called) :
      Step s ((s.answer job.clientFd).setHandler w .answered)
  | handlerClose {w : Fin workerCount} {job : Job} (h : s.run.pool.workers w = .handling job)
      (hanswered : s.handler w = .answered) :
      Step s ((s.close job.clientFd).setHandler w .closed)
  | handlerReturn {w : Fin workerCount} {job : Job} (h : s.run.pool.workers w = .handling job)
      (hclosed : s.handler w = .closed) :
      Step s ({ s with
        run := { s.run with
          pool := s.run.pool.setWorker w .finished
          handled := s.run.handled ++ [job] } }.setHandler w .called)

/-- The states that an interleaving of steps can lead to. -/
def Reachable {capacity : Nat} (block : Vector ClientFd capacity) (s : ApiServerRun workerCount) :
    Prop :=
  ∃ pool, threadPoolInit workerCount capacity block = some pool ∧
    Relation.ReflTransGen Step (start pool) s

end ApiServerRun

/-! ### Who holds a descriptor -/

/-- What the accepting thread holds. -/
@[simp]
def AcceptPhase.held : AcceptPhase → Multiset (ClientFd × Bool)
  | accepted clientFd  => {(clientFd, false)}
  | answering clientFd => {(clientFd, false)}
  | answered clientFd  => {(clientFd, true)}
  | refusing clientFd  => {(clientFd, false)}
  | refused clientFd   => {(clientFd, true)}
  | _                  => 0

/-- What a worker holds. -/
@[simp]
def WorkerPhase.held : WorkerPhase → HandlerPhase → Multiset (ClientFd × Bool)
  | popped job, _           => {(job.clientFd, false)}
  | active job, _           => {(job.clientFd, false)}
  | handling job, .called   => {(job.clientFd, false)}
  | handling job, .answered => {(job.clientFd, true)}
  | _, _                    => 0

/-- What stands in the queue. -/
def JobQueue.held (queue : JobQueue) : Multiset (ClientFd × Bool) :=
  (queue.contents.map fun clientFd => (clientFd, false) : List (ClientFd × Bool))

namespace ApiServerRun

/-- The descriptors with their holders. -/
def held (s : ApiServerRun workerCount) : Multiset (ClientFd × Bool) :=
  s.main.held + s.run.pool.queue.held + ∑ w, (s.run.pool.workers w).held (s.handler w)

end ApiServerRun

/-! ### The moves of a worker outside its handler -/

/-- What a worker does outside its handler, with what happens to the queue. -/
inductive WorkerPhase.Moves (queue queue' : JobQueue) : WorkerPhase → WorkerPhase → Prop
  | wait (hq : queue.Waits) (h : queue' = queue) : Moves queue queue' .popping .waiting
  | wake (h : queue' = queue) : Moves queue queue' .waiting .popping
  | pop (job : Job) (h : queue.contents = job.clientFd :: queue'.contents) :
      Moves queue queue' .popping (.popped job)
  | exit (h : queue' = queue) : Moves queue queue' .popping .exited
  | increment (job : Job) (h : queue' = queue) : Moves queue queue' (.popped job) (.active job)
  | call (job : Job) (h : queue' = queue) : Moves queue queue' (.active job) (.handling job)
  | decrement (h : queue' = queue) : Moves queue queue' .finished .popping

/-- What the worker and the queue have together stays the same. -/
lemma WorkerPhase.Moves.held {queue queue' : JobQueue} {p p' : WorkerPhase}
    (h : Moves queue queue' p p') :
    queue.held + p.held .called = queue'.held + p'.held .called := by
  cases h with
  | pop job hcontents =>
    simp only [JobQueue.held, hcontents, List.map_cons, ← Multiset.cons_coe, WorkerPhase.held]
    rw [add_zero, ← Multiset.singleton_add, add_comm]
  | wait _ hqueue | wake hqueue | exit hqueue | increment _ hqueue | call _ hqueue
  | decrement hqueue => rw [hqueue]; rfl

/-- A step of the pool in which a worker moves and does not return from its handler. -/
lemma PoolRun.Step.moves {s s' : PoolRun workerCount} (h : Step s s')
    (hmoved : s'.pool.workers ≠ s.pool.workers) (hhandled : s'.handled = s.handled) :
    ∃ w p, s'.pool.workers = Function.update s.pool.workers w p ∧
      WorkerPhase.Moves s.pool.queue s'.pool.queue (s.pool.workers w) p ∧
      s'.pool.queue.shuttingDown = s.pool.queue.shuttingDown := by
  cases h with
  | accept hsubmit =>
    rw [threadPoolSubmit_eq, Prod.mk.injEq] at hsubmit
    obtain ⟨rfl, -⟩ := hsubmit
    exact absurd rfl hmoved
  | refuse hsubmit =>
    rw [threadPoolSubmit_eq, Prod.mk.injEq] at hsubmit
    obtain ⟨rfl, -⟩ := hsubmit
    exact absurd rfl hmoved
  | @wait w hw hq => exact ⟨w, .waiting, rfl, hw ▸ .wait hq rfl, rfl⟩
  | @wake w hw => exact ⟨w, .popping, rfl, hw ▸ .wake rfl, rfl⟩
  | @pop w queue clientFd hw hq hpop =>
    obtain ⟨hcontents, -, hshut⟩ := JobQueue.pop_some hpop
    exact ⟨w, .popped ⟨s.popped.length, clientFd⟩, rfl, hw ▸ .pop _ hcontents, hshut⟩
  | @exit w queue hw hq hpop =>
    obtain ⟨rfl, -⟩ := JobQueue.pop_none hpop
    exact ⟨w, .exited, rfl, hw ▸ .exit rfl, rfl⟩
  | @increment w job hw => exact ⟨w, .active job, rfl, hw ▸ .increment job rfl, rfl⟩
  | @call w job hw => exact ⟨w, .handling job, rfl, hw ▸ .call job rfl, rfl⟩
  | @finish w job hw => exact absurd hhandled (by simp)
  | @decrement w hw => exact ⟨w, .popping, rfl, hw ▸ .decrement rfl, rfl⟩
  | shutdown => exact absurd rfl hmoved

/-! ### The invariant -/

namespace ApiServerRun

/-- The descriptors that are open, with their holders and their history. -/
structure Accounts (s : ApiServerRun workerCount) : Prop where
  holds : Holds s.held s.log
  opened : ∀ clientFd, clientFd ∈ s.opened ↔ ∃ used, (clientFd, used) ∈ s.held

section

variable {s s' : ApiServerRun workerCount} {clientFd : ClientFd}
  {others : Multiset (ClientFd × Bool)}

/-- Something is passed on. -/
lemma Accounts.pass (h : s.Accounts) (hheld : s'.held = s.held) (hlog : s'.log = s.log)
    (hopened : s'.opened = s.opened) : s'.Accounts where
  holds := hheld ▸ hlog ▸ h.holds
  opened := hheld ▸ hopened ▸ h.opened

lemma Accounts.accept (h : s.Accounts) (hnew : clientFd ∉ s.opened)
    (hheld : s'.held = (clientFd, false) ::ₘ s.held) (hlog : s'.log = s.log ++ [.acquire clientFd])
    (hopened : s'.opened = insert clientFd s.opened) : s'.Accounts where
  holds := by
    rw [hheld, hlog]
    exact h.holds.acquire fun used hused => hnew ((h.opened clientFd).mpr ⟨used, hused⟩)
  opened fd := by
    rw [hheld, hopened, Finset.mem_insert, h.opened]
    simp only [Multiset.mem_cons, Prod.mk.injEq, exists_or, exists_and_left, exists_eq, and_true]

lemma Accounts.answer (h : s.Accounts) (hheld : s.held = (clientFd, false) ::ₘ others)
    (hheld' : s'.held = (clientFd, true) ::ₘ others) (hlog : s'.log = s.log ++ [.use clientFd])
    (hopened : s'.opened = s.opened) : s'.Accounts where
  holds := by
    have hholds := h.holds
    rw [hheld] at hholds
    rw [hheld', hlog]
    exact hholds.use
  opened fd := by
    rw [hopened, h.opened, hheld, hheld']
    simp only [Multiset.mem_cons, Prod.mk.injEq, exists_or, exists_and_left, exists_eq, and_true]

lemma Accounts.close (h : s.Accounts) (hheld : s.held = (clientFd, true) ::ₘ s'.held)
    (hlog : s'.log = s.log ++ [.release clientFd]) (hopened : s'.opened = s.opened.erase clientFd) :
    s'.Accounts where
  holds := by
    have hholds := h.holds
    rw [hheld] at hholds
    rw [hlog]
    exact hholds.release
  opened fd := by
    have hnodup := h.holds.nodup
    rw [hheld, Multiset.map_cons, Multiset.nodup_cons] at hnodup
    have hgone : ∀ used, (clientFd, used) ∉ s'.held := fun used hused =>
      hnodup.1 (Multiset.mem_map.mpr ⟨_, hused, rfl⟩)
    rw [hopened, Finset.mem_erase, h.opened, hheld]
    simp only [Multiset.mem_cons, Prod.mk.injEq, exists_or, exists_and_left, exists_eq, and_true]
    constructor
    · rintro ⟨hne, heq | hused⟩
      · exact absurd heq hne
      · exact hused
    · rintro ⟨used, hused⟩
      refine ⟨?_, .inr ⟨used, hused⟩⟩
      rintro rfl
      exact hgone used hused

end

/-- What one worker has not got, nor the queue. -/
def heldBeside (s : ApiServerRun workerCount) (w : Fin workerCount) : Multiset (ClientFd × Bool) :=
  s.main.held + ∑ i ∈ Finset.univ.erase w, (s.run.pool.workers i).held (s.handler i)

lemma held_eq (s : ApiServerRun workerCount) (w : Fin workerCount) :
    s.held = s.run.pool.queue.held + (s.run.pool.workers w).held (s.handler w) + s.heldBeside w := by
  rw [held, heldBeside, ← Finset.add_sum_erase _ _ (Finset.mem_univ w)]
  abel

/-- The other workers have what they had. -/
lemma heldBeside_eq {s s' : ApiServerRun workerCount} {w : Fin workerCount}
    (hmain : s'.main = s.main)
    (hworkers : ∀ i, i ≠ w → s'.run.pool.workers i = s.run.pool.workers i)
    (hhandler : ∀ i, i ≠ w → s'.handler i = s.handler i) : s'.heldBeside w = s.heldBeside w := by
  rw [heldBeside, heldBeside, hmain]
  congr 1
  apply Finset.sum_congr rfl
  intro i hi
  rw [hworkers i (Finset.ne_of_mem_erase hi), hhandler i (Finset.ne_of_mem_erase hi)]

/-- What holds in every state of a run. -/
structure Inv (s : ApiServerRun workerCount) : Prop where
  accounts : s.Accounts
  called : ∀ w, (∀ job, s.run.pool.workers w ≠ .handling job) → s.handler w = .called
  shuttingDown : s.run.pool.queue.shuttingDown = true ↔ s.main = .joining ∨ s.main = .returned
  exited : s.main = .returned → ∀ w, s.run.pool.workers w = .exited

variable {s s' : ApiServerRun workerCount}

lemma inv_start {capacity : Nat} {block : Vector ClientFd capacity} {pool : ThreadPool workerCount}
    (h : threadPoolInit workerCount capacity block = some pool) : (start pool).Inv := by
  unfold threadPoolInit at h
  split_ifs at h
  obtain ⟨queue, hqueue, rfl⟩ := Option.map_eq_some_iff.mp h
  have hcontents := JobQueue.contents_init hqueue
  have hnobody : (start (⟨fun _ => .popping, 0, queue⟩ : ThreadPool workerCount)).held = 0 := by
    simp [held, start, PoolRun.start, JobQueue.held, hcontents]
  refine ⟨⟨?_, ?_⟩, fun _ _ => rfl, ?_, ?_⟩
  · rw [hnobody]
    exact Holds.nil
  · rw [hnobody]
    simp [start]
  · unfold queueInit at hqueue
    split_ifs at hqueue
    cases hqueue
    simp [start, PoolRun.start]
  · rintro ⟨⟩

/-- The accepting thread moves, and it is neither stopping before nor after. -/
lemma Inv.ofMain (h : s.Inv) (haccounts : s'.Accounts)
    (hrun : s'.run = s.run) (hhandler : s'.handler = s.handler)
    (hmain : ¬ (s'.main = .joining ∨ s'.main = .returned))
    (hold : ¬ (s.main = .joining ∨ s.main = .returned)) : s'.Inv where
  accounts := haccounts
  called := hrun ▸ hhandler ▸ h.called
  shuttingDown := by
    rw [hrun, h.shuttingDown]
    exact iff_of_false hold hmain
  exited hreturned := absurd (.inr hreturned) hmain

lemma Inv.accept (h : s.Inv) {clientFd : ClientFd} (hmain : s.main = .accepting)
    (hnew : clientFd ∉ s.opened) : (s.accept clientFd).Inv := by
  refine h.ofMain (h.accounts.accept hnew ?_ rfl rfl) rfl rfl (by simp [ApiServerRun.accept])
    (by simp [hmain])
  simp only [held, ApiServerRun.accept, hmain, AcceptPhase.held]
  rw [zero_add, Multiset.singleton_add, Multiset.cons_add]

/-- The accepting thread answers what it holds. -/
lemma Inv.answer (h : s.Inv) {clientFd : ClientFd} {main : AcceptPhase}
    (hheld : s.main.held = {(clientFd, false)}) (hheld' : main.held = {(clientFd, true)}) :
    ((s.answer clientFd).setMain main).Inv := by
  refine h.ofMain (@Accounts.answer _ s _ clientFd (s.run.pool.queue.held +
    ∑ w, (s.run.pool.workers w).held (s.handler w)) h.accounts ?_ ?_ rfl rfl) rfl rfl ?_ ?_
  · rw [held, hheld, add_assoc, Multiset.singleton_add]
  · show main.held + s.run.pool.queue.held + _ = _
    rw [hheld', add_assoc, Multiset.singleton_add]
    rfl
  · show ¬ (main = .joining ∨ main = .returned)
    rintro (heq | heq) <;> simp [heq] at hheld'
  · rintro (heq | heq) <;> simp [heq] at hheld

/-- The accepting thread closes what it has answered. -/
lemma Inv.close (h : s.Inv) {clientFd : ClientFd} (hheld : s.main.held = {(clientFd, true)}) :
    ((s.close clientFd).setMain .accepting).Inv := by
  refine h.ofMain (h.accounts.close ?_ rfl rfl) rfl rfl (by simp [setMain]) ?_
  · show _ = (clientFd, true) ::ₘ (0 + s.run.pool.queue.held + _)
    rw [held, hheld, zero_add, Multiset.singleton_add, Multiset.cons_add]
    rfl
  · rintro (heq | heq) <;> simp [heq] at hheld

/-- A descriptor goes from the accepting thread to the queue. -/
lemma Inv.submit (h : s.Inv) {clientFd : ClientFd} {pool : ThreadPool workerCount}
    (hmain : s.main = .accepted clientFd)
    (hsubmit : threadPoolSubmit s.run.pool clientFd = (pool, .success)) :
    ({ s with
      run := { s.run with pool := pool, accepted := s.run.accepted ++ [clientFd] }
      main := .accepting } : ApiServerRun workerCount).Inv := by
  rw [threadPoolSubmit_eq, Prod.mk.injEq] at hsubmit
  obtain ⟨rfl, hstatus⟩ := hsubmit
  obtain ⟨hcontents, -, hshut⟩ := JobQueue.push_success hstatus
  refine ⟨h.accounts.pass ?_ rfl rfl, h.called, ?_, by rintro ⟨⟩⟩
  · simp only [held, hmain, AcceptPhase.held, JobQueue.held, hcontents, List.map_append,
      List.map_singleton, ← Multiset.coe_add, Multiset.coe_singleton]
    abel
  · have hold := h.shuttingDown
    rw [hmain] at hold
    simp only [hshut, hold]
    simp

lemma Inv.refuse (h : s.Inv) {clientFd : ClientFd} {pool : ThreadPool workerCount}
    (hmain : s.main = .accepted clientFd)
    (hsubmit : threadPoolSubmit s.run.pool clientFd = (pool, .failure)) :
    ({ s with run := { s.run with pool := pool }, main := .refusing clientFd } :
      ApiServerRun workerCount).Inv := by
  rw [threadPoolSubmit_eq, Prod.mk.injEq] at hsubmit
  obtain ⟨rfl, hstatus⟩ := hsubmit
  have hqueue := JobQueue.push_failure hstatus
  rw [hqueue]
  refine h.ofMain (h.accounts.pass ?_ rfl rfl) rfl rfl (by simp) (by simp [hmain])
  simp only [held, hmain, AcceptPhase.held]

/-- The pool is shut down, and what is in the queue stays there. -/
lemma Inv.shutdown (h : s.Inv) (hmain : s.main = .stopping) :
    ({ s with
      run := { s.run with pool := threadPoolShutdown s.run.pool }
      main := .joining } : ApiServerRun workerCount).Inv := by
  refine ⟨h.accounts.pass ?_ rfl rfl, h.called, iff_of_true rfl (.inl rfl), by rintro ⟨⟩⟩
  simp only [held, hmain, AcceptPhase.held]
  rfl

/-! ### The workers -/

/-- A worker moves outside its handler. -/
lemma Inv.work (h : s.Inv) {run : PoolRun workerCount} (hstep : PoolRun.Step s.run run)
    (hmoved : run.pool.workers ≠ s.run.pool.workers) (hhandled : run.handled = s.run.handled) :
    ({ s with run := run } : ApiServerRun workerCount).Inv := by
  obtain ⟨w, p, hworkers, hmoves, hshut⟩ := hstep.moves hmoved hhandled
  have hcalled : s.handler w = .called := by
    apply h.called
    intro job hjob
    rw [hjob] at hmoves
    cases hmoves
  have hothers : ∀ i, i ≠ w → run.pool.workers i = s.run.pool.workers i := fun i hi => by
    rw [hworkers, Function.update_of_ne hi]
  have hw : run.pool.workers w = p := by rw [hworkers, Function.update_self]
  refine ⟨h.accounts.pass ?_ rfl rfl, ?_, ?_, ?_⟩
  · have hbeside := @heldBeside_eq _ s { s with run := run } w rfl hothers fun _ _ => rfl
    rw [held_eq _ w, held_eq s w, hbeside, hw, hcalled, ← hmoves.held]
  · intro i hi
    by_cases heq : i = w
    · rw [heq]
      exact hcalled
    · rw [hothers i heq] at hi
      exact h.called i hi
  · rw [hshut]
    exact h.shuttingDown
  · intro hreturned
    have hexited := h.exited hreturned w
    rw [hexited] at hmoves
    cases hmoves

/-- A worker moves inside its handler. -/
lemma Inv.inHandler (h : s.Inv) {w : Fin workerCount} {job : Job} (haccounts : s'.Accounts)
    (hw : s.run.pool.workers w = .handling job) (hmain : s'.main = s.main)
    (hqueue : s'.run.pool.queue = s.run.pool.queue)
    (hothers : ∀ i, i ≠ w → s'.run.pool.workers i = s.run.pool.workers i ∧
      s'.handler i = s.handler i)
    (hthis : (∀ job, s'.run.pool.workers w ≠ .handling job) → s'.handler w = .called) :
    s'.Inv where
  accounts := haccounts
  called i hi := by
    by_cases heq : i = w
    · subst heq
      exact hthis hi
    · obtain ⟨hworker, hhandler⟩ := hothers i heq
      rw [hworker] at hi
      rw [hhandler]
      exact h.called i hi
  shuttingDown := by
    rw [hqueue, hmain]
    exact h.shuttingDown
  exited hreturned := by
    have hexited := h.exited (hmain ▸ hreturned) w
    rw [hw] at hexited
    cases hexited

lemma Inv.handlerAnswer (h : s.Inv) {w : Fin workerCount} {job : Job}
    (hw : s.run.pool.workers w = .handling job) (hcalled : s.handler w = .called) :
    ((s.answer job.clientFd).setHandler w .answered).Inv := by
  have hothers : ∀ i, i ≠ w → Function.update s.handler w .answered i = s.handler i :=
    fun i hi => Function.update_of_ne hi _ _
  have hbeside := @heldBeside_eq _ s ((s.answer job.clientFd).setHandler w .answered) w rfl
    (fun _ _ => rfl) hothers
  refine h.inHandler (w := w) ?_ hw rfl rfl (fun i hi => ⟨rfl, hothers i hi⟩)
    fun hnot => absurd hw (hnot job)
  refine @Accounts.answer _ s _ job.clientFd (s.run.pool.queue.held + s.heldBeside w) h.accounts
    ?_ ?_ rfl rfl
  · rw [held_eq s w, hw, hcalled, WorkerPhase.held, ← Multiset.singleton_add]
    abel
  · rw [held_eq _ w, hbeside]
    simp only [setHandler, ApiServerRun.answer, Function.update_self, hw, WorkerPhase.held]
    rw [← Multiset.singleton_add]
    abel

lemma Inv.handlerClose (h : s.Inv) {w : Fin workerCount} {job : Job}
    (hw : s.run.pool.workers w = .handling job) (hanswered : s.handler w = .answered) :
    ((s.close job.clientFd).setHandler w .closed).Inv := by
  have hothers : ∀ i, i ≠ w → Function.update s.handler w .closed i = s.handler i :=
    fun i hi => Function.update_of_ne hi _ _
  have hbeside := @heldBeside_eq _ s ((s.close job.clientFd).setHandler w .closed) w rfl
    (fun _ _ => rfl) hothers
  refine h.inHandler (w := w) ?_ hw rfl rfl (fun i hi => ⟨rfl, hothers i hi⟩)
    fun hnot => absurd hw (hnot job)
  refine @Accounts.close _ s _ job.clientFd h.accounts ?_ rfl rfl
  rw [held_eq s w, held_eq _ w, hbeside]
  simp only [setHandler, ApiServerRun.close, Function.update_self, hw, hanswered, WorkerPhase.held]
  rw [← Multiset.singleton_add]
  abel

lemma Inv.handlerReturn (h : s.Inv) {w : Fin workerCount} {job : Job}
    (hw : s.run.pool.workers w = .handling job) (hclosed : s.handler w = .closed) :
    ({ s with
      run := { s.run with
        pool := s.run.pool.setWorker w .finished
        handled := s.run.handled ++ [job] } }.setHandler w .called : ApiServerRun _).Inv := by
  set returned : ApiServerRun workerCount := { s with
    run := { s.run with
      pool := s.run.pool.setWorker w .finished
      handled := s.run.handled ++ [job] } }.setHandler w .called with hreturned
  have hworkers : ∀ i, i ≠ w → returned.run.pool.workers i = s.run.pool.workers i :=
    fun i hi => Function.update_of_ne hi _ _
  have hothers : ∀ i, i ≠ w → returned.handler i = s.handler i :=
    fun i hi => Function.update_of_ne hi _ _
  have hbeside : returned.heldBeside w = s.heldBeside w := heldBeside_eq rfl hworkers hothers
  refine h.inHandler (w := w) (h.accounts.pass ?_ rfl rfl) hw rfl rfl
    (fun i hi => ⟨hworkers i hi, hothers i hi⟩) fun _ => Function.update_self _ _ _
  have hworker : returned.run.pool.workers w = .finished := Function.update_self _ _ _
  rw [held_eq s w, held_eq returned w, hbeside, hworker, hw, hclosed]
  rfl

lemma Inv.step (h : s.Inv) (hstep : Step s s') : s'.Inv := by
  cases hstep with
  | accept hmain hnew => exact h.accept hmain hnew
  | @fastPath clientFd hmain =>
    refine h.ofMain (h.accounts.pass ?_ rfl rfl) rfl rfl (by simp [setMain]) (by simp [hmain])
    simp only [held, setMain, hmain, AcceptPhase.held]
  | answer hmain => exact h.answer (by rw [hmain]; rfl) rfl
  | closeAnswered hmain => exact h.close (by rw [hmain]; rfl)
  | submit hmain hsubmit => exact h.submit hmain hsubmit
  | refuse hmain hsubmit => exact h.refuse hmain hsubmit
  | sendBusy hmain => exact h.answer (by rw [hmain]; rfl) rfl
  | closeRefused hmain => exact h.close (by rw [hmain]; rfl)
  | acceptFails hmain =>
    refine h.ofMain (h.accounts.pass ?_ rfl rfl) rfl rfl (by simp [setMain]) (by simp [hmain])
    simp only [held, setMain, hmain, AcceptPhase.held]
  | shutdown hmain => exact h.shutdown hmain
  | join hmain hexited =>
    refine ⟨h.accounts.pass ?_ rfl rfl, h.called, ?_, fun _ => hexited⟩
    · simp only [held, setMain, hmain, AcceptPhase.held]
    · have hold := h.shuttingDown
      rw [hmain] at hold
      exact iff_of_true (hold.mpr (.inl rfl)) (.inr rfl)
  | work hstep hmoved hhandled => exact h.work hstep hmoved hhandled
  | handlerAnswer hw hcalled => exact h.handlerAnswer hw hcalled
  | handlerClose hw hanswered => exact h.handlerClose hw hanswered
  | handlerReturn hw hclosed => exact h.handlerReturn hw hclosed

lemma Reachable.inv {capacity : Nat} {block : Vector ClientFd capacity} (h : s.Reachable block) :
    s.Inv := by
  obtain ⟨pool, hinit, hrun⟩ := h
  induction hrun with
  | refl => exact inv_start hinit
  | tail _ hstep ih => exact ih.step hstep

/-- The pool runs as it does by itself. -/
lemma Reachable.pool {capacity : Nat} {block : Vector ClientFd capacity} (h : s.Reachable block) :
    s.run.Reachable block := by
  obtain ⟨pool, hinit, hrun⟩ := h
  refine ⟨pool, hinit, ?_⟩
  induction hrun with
  | refl => exact .refl
  | tail _ hstep ih =>
    cases hstep with
    | submit hmain hsubmit => exact ih.tail (.accept hsubmit)
    | refuse hmain hsubmit => exact ih.tail (.refuse hsubmit)
    | shutdown hmain => exact ih.tail .shutdown
    | work hstep hmoved hhandled => exact ih.tail hstep
    | handlerReturn hw hclosed => exact ih.tail (.finish hw)
    | _ => exact ih

lemma Reachable.workerCount_pos {capacity : Nat} {block : Vector ClientFd capacity}
    (h : s.Reachable block) : 0 < workerCount := by
  obtain ⟨pool, hinit, -⟩ := h
  unfold threadPoolInit at hinit
  split_ifs at hinit with hzero
  omega

/-! ### What follows -/

/-- Every open descriptor has one holder. -/
lemma Inv.held_opened (h : s.Inv) : s.held.map Prod.fst = s.opened.val := by
  apply (Multiset.Nodup.ext h.accounts.holds.nodup s.opened.nodup).mpr
  intro clientFd
  rw [Finset.mem_val, h.accounts.opened, Multiset.mem_map]
  constructor
  · rintro ⟨⟨fd, used⟩, hmem, rfl⟩
    exact ⟨used, hmem⟩
  · rintro ⟨used, hmem⟩
    exact ⟨_, hmem, rfl⟩

/-- Nothing is left when the server returns. -/
lemma Reachable.returned {capacity : Nat} {block : Vector ClientFd capacity} (h : s.Reachable block)
    (hmain : s.main = .returned) :
    s.opened = ∅ ∧ (s.run.handled : Multiset Job) = jobsOf s.run.accepted := by
  have hexited := h.inv.exited hmain
  obtain ⟨hcount, hhandled⟩ := h.pool.inv.drained h.workerCount_pos hexited
  have hcontents : s.run.pool.queue.contents = [] := by
    rw [← List.length_eq_zero_iff, JobQueue.length_contents, hcount]
  have hheld : s.held = 0 := by
    simp [held, hmain, JobQueue.held, hcontents, hexited]
  have hopened := h.inv.held_opened
  rw [hheld, Multiset.map_zero] at hopened
  exact ⟨Finset.val_eq_zero.mp hopened.symm, hhandled⟩

/-- In every interleaving of the accepting thread and the workers, each descriptor that is open is
held once, by the accepting thread, a worker or the queue, and no thread holds one that is closed.
Each connection is accepted, answered once and closed once, in this order, and only then can its
number come back. When the server returns, every connection has been closed. -/
theorem apiServerRun_descriptors {capacity : Nat} {block : Vector ClientFd capacity}
    (h : s.Reachable block) :
    s.held.map Prod.fst = s.opened.val ∧
    (∀ clientFd, ∃ n, s.log.filter (fun event => event.resource = clientFd) =
      (List.replicate n (turn clientFd)).flatten ++
        (if (clientFd, false) ∈ s.held then [.acquire clientFd]
          else if (clientFd, true) ∈ s.held then [.acquire clientFd, .use clientFd] else [])) ∧
    (s.main = .returned →
      s.opened = ∅ ∧ (s.run.handled : Multiset Job) = jobsOf s.run.accepted) :=
  ⟨h.inv.held_opened, h.inv.accounts.holds.events, h.returned⟩

/-- A worker has answered and closed a connection and is not yet back from its handler, when the
number of the descriptor comes back. -/
theorem apiServerRun_descriptors_again :
    ∃ s : ApiServerRun 2, s.Reachable #v[0] ∧
      s.log = [.acquire 4, .use 4, .release 4, .acquire 4] ∧ s.held.map Prod.fst = {4} := by
  have hrun := Relation.ReflTransGen.refl (r := Step) (a := start
    (⟨fun _ => .popping, 0, ⟨1, #v[0], 0, 0, 0, false, by decide, by decide, by decide, rfl⟩⟩ :
      ThreadPool 2))
  have hrun := hrun.tail (@Step.accept _ _ 4 rfl (by decide))
  have hrun := hrun.tail (@Step.submit _ _ 4 _ rfl rfl)
  have hrun := hrun.tail (.work (.pop (w := 1) rfl (by decide) rfl) (by decide) rfl)
  have hrun := hrun.tail (.work (.increment (w := 1) rfl) (by decide) rfl)
  have hrun := hrun.tail (.work (.call (w := 1) rfl) (by decide) rfl)
  have hrun := hrun.tail (.handlerAnswer (w := 1) rfl rfl)
  have hrun := hrun.tail (.handlerClose (w := 1) rfl rfl)
  have hrun := hrun.tail (@Step.accept _ _ 4 rfl (by decide))
  have hreach : ApiServerRun.Reachable (#v[0] : Vector ClientFd 1) _ := ⟨_, rfl, hrun⟩
  exact ⟨_, hreach, rfl, (apiServerRun_descriptors hreach).1.trans (by decide)⟩

end ApiServerRun

end MiniDbms
