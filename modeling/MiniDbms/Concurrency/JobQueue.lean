import MiniDbms.Common.Utils
import MiniDbms.Library.RingBuffer

/-!
# The queue of `job_queue.c`

The jobs are the descriptors of client sockets. Each operation is what its section under the mutex
does; `queue_pop` is the part behind its waiting loop.
-/

namespace MiniDbms

/-- The `int` of a client's socket. -/
abbrev ClientFd := Int

/-- The queue: the used cells start at `head`, and `tail` is the cell behind them. -/
structure JobQueue where
  capacity : Nat
  clientFds : Vector ClientFd capacity
  head : Nat
  tail : Nat
  count : Nat
  shuttingDown : Bool
  capacity_pos : 0 < capacity
  head_lt : head < capacity
  count_le : count ≤ capacity
  tail_eq : tail = (head + count) % capacity

/-- `queue_init`; `block` is what `malloc` has returned. -/
def queueInit (capacity : Nat) (block : Vector ClientFd capacity) : Option JobQueue :=
  if h : capacity = 0 then none
  else some ⟨capacity, block, 0, 0, 0, false, by omega, by omega, by omega, by simp⟩

/-- `queue_push` -/
def queuePush (queue : JobQueue) (clientFd : ClientFd) : JobQueue × Status :=
  if h : queue.shuttingDown = false ∧ queue.count < queue.capacity then
    ({ queue with
        clientFds := queue.clientFds.set queue.tail clientFd
          (by rw [queue.tail_eq]; exact Nat.mod_lt _ queue.capacity_pos)
        tail := (queue.tail + 1) % queue.capacity
        count := queue.count + 1
        count_le := h.2
        tail_eq := by rw [queue.tail_eq, Nat.mod_add_mod, Nat.add_assoc] }, .success)
  else (queue, .failure)

/-- `queue_pop` once it does not wait anymore: the descriptor, or `none` for the end. -/
def queuePop (queue : JobQueue) : JobQueue × Option ClientFd :=
  if h : queue.count = 0 then (queue, none)
  else
    ({ queue with
        head := (queue.head + 1) % queue.capacity
        count := queue.count - 1
        head_lt := Nat.mod_lt _ queue.capacity_pos
        count_le := (Nat.sub_le _ _).trans queue.count_le
        tail_eq := by
          rw [queue.tail_eq, Nat.mod_add_mod]
          congr 1
          omega }, some (queue.clientFds.get ⟨queue.head, queue.head_lt⟩))

/-- `queue_shutdown` -/
def queueShutdown (queue : JobQueue) : JobQueue := { queue with shuttingDown := true }

/-- The condition of the waiting loop in `queue_pop`. -/
def JobQueue.Waits (queue : JobQueue) : Prop := queue.count = 0 ∧ queue.shuttingDown = false

instance (queue : JobQueue) : Decidable queue.Waits := inferInstanceAs (Decidable (_ ∧ _))

/-! ### The queue as a list -/

namespace JobQueue

/-- The jobs in the queue, the oldest first. -/
def contents (queue : JobQueue) : List ClientFd :=
  ringContents queue.clientFds.toList queue.head queue.count

lemma length_contents (queue : JobQueue) : queue.contents.length = queue.count :=
  length_ringContents (by simpa using queue.count_le)

lemma contents_init {capacity : Nat} {block : Vector ClientFd capacity} {queue : JobQueue}
    (h : queueInit capacity block = some queue) : queue.contents = [] := by
  unfold queueInit at h
  split_ifs at h
  cases h
  rfl

/-- `queue_push` fails exactly when the queue is full or shut down. -/
lemma push_failure_iff (queue : JobQueue) (clientFd : ClientFd) :
    (queuePush queue clientFd).2 = .failure ↔
      queue.count = queue.capacity ∨ queue.shuttingDown = true := by
  have hle := queue.count_le
  unfold queuePush
  split_ifs with h
  · have hcount : queue.count ≠ queue.capacity := h.2.ne
    simp [h.1, hcount]
  · refine ⟨fun _ => ?_, fun _ => rfl⟩
    cases hdown : queue.shuttingDown with
    | true => exact .inr rfl
    | false => exact .inl (hle.antisymm (not_lt.mp fun hlt => h ⟨hdown, hlt⟩))

/-- A failing `queue_push` changes nothing. -/
lemma push_failure {queue : JobQueue} {clientFd : ClientFd}
    (h : (queuePush queue clientFd).2 = .failure) : (queuePush queue clientFd).1 = queue := by
  unfold queuePush at h ⊢
  split_ifs at h ⊢
  rfl

/-- `queue_push` puts the job behind the others. -/
lemma push_success {queue : JobQueue} {clientFd : ClientFd}
    (h : (queuePush queue clientFd).2 = .success) :
    (queuePush queue clientFd).1.contents = queue.contents ++ [clientFd] ∧
      (queuePush queue clientFd).1.capacity = queue.capacity ∧
      (queuePush queue clientFd).1.shuttingDown = queue.shuttingDown := by
  unfold queuePush at h ⊢
  split_ifs at h ⊢ with hroom
  refine ⟨?_, rfl, rfl⟩
  have hlt : queue.count < queue.clientFds.toList.length := by simpa using hroom.2
  have hpush := @ringContents_push _ _ queue.head _ hlt clientFd
  rw [Vector.length_toList, ← queue.tail_eq] at hpush
  rw [contents, Vector.toList_set]
  exact hpush

/-- `queue_pop` takes the oldest job. -/
lemma pop_some {queue queue' : JobQueue} {clientFd : ClientFd}
    (h : queuePop queue = (queue', some clientFd)) :
    queue.contents = clientFd :: queue'.contents ∧ queue'.capacity = queue.capacity ∧
      queue'.shuttingDown = queue.shuttingDown := by
  unfold queuePop at h
  by_cases hzero : queue.count = 0
  · rw [dif_pos hzero] at h
    cases h
  rw [dif_neg hzero] at h
  cases h
  refine ⟨?_, rfl, rfl⟩
  have hlen := queue.clientFds.length_toList
  have hlt : queue.count - 1 < queue.clientFds.toList.length := by
    have := queue.count_le
    omega
  have hhead : queue.clientFds.toList[queue.head % queue.clientFds.toList.length]? =
      some (queue.clientFds.get ⟨queue.head, queue.head_lt⟩) := by
    rw [hlen, Nat.mod_eq_of_lt queue.head_lt, List.getElem?_eq_getElem (by simp [queue.head_lt])]
    rfl
  have hpop := ringContents_pop hlt hhead
  rw [hlen, Nat.sub_add_cancel (Nat.pos_of_ne_zero hzero)] at hpop
  exact hpop

/-- `queue_pop` returns without a job only if there is none. -/
lemma pop_none {queue queue' : JobQueue} (h : queuePop queue = (queue', none)) :
    queue' = queue ∧ queue.contents = [] := by
  unfold queuePop at h
  by_cases hzero : queue.count = 0
  · rw [dif_pos hzero] at h
    cases h
    refine ⟨rfl, ?_⟩
    rw [← List.length_eq_zero_iff, length_contents, hzero]
  · rw [dif_neg hzero] at h
    cases h

end JobQueue

end MiniDbms
