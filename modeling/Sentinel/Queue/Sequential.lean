import Sentinel.Lib.Ring
import Sentinel.Queue.Calls

/-! The queue in the hands of one caller that never waits, before the launch or after
it: a list of bounded length that gives up its oldest element for a new one. -/

namespace Sentinel

open Runs (Transition Run)

/-- A call from the given statement to its return, when nothing comes between. `none`
stands for a wait, a NULL pointer, or too little `fuel`. -/
def Frame.finish : Nat → OsMessageQueue → Kernel → Frame → Option (Reply × OsMessageQueue × Kernel)
  | 0, _, _, _ => none
  | fuel + 1, q, k, f =>
    match f with
    | .returning reply => some (reply, q, k)
    | f =>
      match f.access q, f.call q with
      | some (q', f'), _ => finish fuel q' k f'
      | none, some c =>
        (c.exec k).bind fun out =>
          if out.1 = .parked then none else finish fuel q out.2 (f.proceed out.1)
      | none, none => none

/-- `os_queue_send` and `os_queue_receive`. No call makes more than seven steps. -/
def osQueueCall (op : Operation) (q : OsMessageQueue) (k : Kernel) :
    Option (Reply × OsMessageQueue × Kernel) := op.start.finish 7 q k

namespace Fifo

/-- What the queue is for. A full list gives up its head for a new element. -/
def perform (capacity : Nat) : Operation → List UInt32 → Reply × List UInt32
  | .send message _, l =>
    (.sent .success, (if l.length = capacity then l.tail else l) ++ [message])
  | .receive _, [] => (.missed .timeout, [])
  | .receive _, message :: l => (.received message, l)

/-- The replies to a sequence of calls, and the list that they leave. -/
def replies (capacity : Nat) : List Operation → List UInt32 → List Reply × List UInt32
  | [], l => ([], l)
  | op :: ops, l =>
    let out := perform capacity op l
    let rest := replies capacity ops out.2
    (out.1 :: rest.1, rest.2)

end Fifo

def Operation.timeout : Operation → UInt32
  | .send _ timeout | .receive timeout => timeout

/-- A queue and the kernel under it. -/
structure Bench where
  queue : OsMessageQueue
  kernel : Kernel

/-- The kernel objects of the queue are the same in `k'` as in `k`. -/
structure OsMessageQueue.Untouched (q : OsMessageQueue) (k k' : Kernel) : Prop where
  lock : k'.mutexes q.lock = k.mutexes q.lock
  emptySlots : k'.semaphores q.emptySlots = k.semaphores q.emptySlots
  filledSlots : k'.semaphores q.filledSlots = k.semaphores q.filledSlots
  lockWaiters : (k'.queues (.mutex q.lock)).waitCount = (k.queues (.mutex q.lock)).waitCount
  emptyWaiters : (k'.queues (.semaphore q.emptySlots)).waitCount =
    (k.queues (.semaphore q.emptySlots)).waitCount
  filledWaiters : (k'.queues (.semaphore q.filledSlots)).waitCount =
    (k.queues (.semaphore q.filledSlots)).waitCount

inductive Use
  | call (op : Operation) (reply : Reply)
  | elsewhere

/-- The caller makes a call that polls, or the kernel goes on without the queue. -/
inductive BenchStep : Bench → Use → Bench → Prop
  | call {s : Bench} {op : Operation} {reply : Reply} {q : OsMessageQueue} {k : Kernel}
      (polls : op.timeout = 0) (done : osQueueCall op s.queue s.kernel = some (reply, q, k)) :
      BenchStep s (.call op reply) ⟨q, k⟩
  | elsewhere {s : Bench} {k : Kernel} (untouched : s.queue.Untouched s.kernel k) :
      BenchStep s .elsewhere ⟨s.queue, k⟩

/-- `os_queue_init` has just been called, in whatever state the kernel is. -/
def Initialised (capacity : Nat) (s : Bench) : Prop :=
  ∃ q buffer k, q.emptySlots ≠ q.filledSlots ∧
    osQueueInit q buffer capacity k = (s.queue, s.kernel)

/-- The calls made so far, oldest first. -/
def calls : List (Transition Bench Use) → List (Operation × Reply)
  | [] => []
  | x :: past =>
    match x.event with
    | .call op reply => calls past ++ [(op, reply)]
    | .elsewhere => calls past

/-- The kernel objects of a queue for which nobody waits. -/
structure OsMessageQueue.Counts (q : OsMessageQueue) (k : Kernel) (lock free filled : Nat) :
    Prop where
  lock : (k.mutexes q.lock).lock = lock
  emptySlots : k.semaphores q.emptySlots = ⟨free, q.capacity⟩
  filledSlots : k.semaphores q.filledSlots = ⟨filled, q.capacity⟩
  lockWaiters : (k.queues (.mutex q.lock)).waitCount = 0
  emptyWaiters : (k.queues (.semaphore q.emptySlots)).waitCount = 0
  filledWaiters : (k.queues (.semaphore q.filledSlots)).waitCount = 0

namespace Frame

variable {fuel : Nat} {q q' : OsMessageQueue} {k k' : Kernel} {f f' : Frame}

theorem finish_access (done : f.access q = some (q', f')) :
    f.finish (fuel + 1) q k = f'.finish fuel q' k := by
  cases f with
  | returning => cases done
  | _ => simp only [finish, done]

theorem finish_call {c : Call} {out : Outcome} (calls : f.call q = some c)
    (exec : c.exec k = some (out, k')) (awake : out ≠ .parked) :
    f.finish (fuel + 1) q k = (f.proceed out).finish fuel q k' := by
  have outside : f.access q = none := by
    cases f with
    | sendWrite | sendHead | sendTail | receiveRead | receiveTail => cases calls
    | _ => rfl
  cases f with
  | returning => cases calls
  | _ => simp only [finish, outside, calls, exec, Option.bind_some, if_neg awake]

end Frame

/-! ### Kernel calls that nobody waits behind -/

namespace Kernel

variable {k : Kernel} {x m n max : Nat}

theorem exec_poll (empty : k.semaphores x = ⟨0, max⟩) :
    (Call.semaphoreAcquire x 0).exec k = some (.returned .timeout, k) := by
  simp [Call.exec, osSemaphoreAcquire, osEnterCritical, empty, osExitCritical]

theorem exec_take {timeout : UInt32} (token : k.semaphores x = ⟨n + 1, max⟩) :
    (Call.semaphoreAcquire x timeout).exec k =
      some (.returned .success, k.setSemaphore x ⟨n, max⟩) := by
  simp [Call.exec, osSemaphoreAcquire, osEnterCritical, token, osExitCritical, setSemaphore]

theorem exec_post (nobody : (k.queues (.semaphore x)).waitCount = 0)
    (stock : k.semaphores x = ⟨n, max⟩) (room : n < max) :
    (Call.semaphoreRelease x).exec k = some (.finished, k.setSemaphore x ⟨n + 1, max⟩) := by
  simp [Call.exec, osSemaphoreRelease, osEnterCritical, nobody, stock, room, osExitCritical,
    setSemaphore, pickWaiter, Cells.contents]

theorem exec_lock {timeout : UInt32} (free : (k.mutexes m).lock = 0) :
    (Call.mutexAcquire m timeout).exec k =
      some (.returned .success, k.setMutex m ⟨1, k.currentTcb⟩) := by
  simp [Call.exec, osMutexAcquire, osEnterCritical, free, osExitCritical, setMutex]

theorem exec_unlock (nobody : (k.queues (.mutex m)).waitCount = 0) :
    (Call.mutexRelease m).exec k =
      some (.finished, (k.dropDonation m).setMutex m ⟨0, none⟩) := by
  cases owner : (k.mutexes m).owner <;>
    simp [Call.exec, osMutexRelease, osEnterCritical, dropDonation, owner, nobody, osExitCritical,
      setMutex, setTcb, pickWaiter, Cells.contents]

theorem dropDonation_objects (m : Nat) (k : Kernel) : (k.dropDonation m).mutexes = k.mutexes ∧
    (k.dropDonation m).semaphores = k.semaphores ∧ (k.dropDonation m).queues = k.queues := by
  unfold dropDonation
  split <;> exact ⟨rfl, rfl, rfl⟩

end Kernel

/-! ### The calls -/

namespace OsMessageQueue.Counts

variable {q : OsMessageQueue} {k : Kernel} {lock free filled : Nat}

theorem setEmpty (counts : q.Counts k lock free filled) (apart : q.emptySlots ≠ q.filledSlots)
    (n : Nat) : q.Counts (k.setSemaphore q.emptySlots ⟨n, q.capacity⟩) lock n filled := by
  obtain ⟨held, _, entries, first, second, third⟩ := counts
  exact ⟨held, by simp, by simp [Ne.symm apart, entries], first, second, third⟩

theorem setFilled (counts : q.Counts k lock free filled) (apart : q.emptySlots ≠ q.filledSlots)
    (n : Nat) : q.Counts (k.setSemaphore q.filledSlots ⟨n, q.capacity⟩) lock free n := by
  obtain ⟨held, slots, _, first, second, third⟩ := counts
  exact ⟨held, by simp [apart, slots], by simp, first, second, third⟩

/-- The lock is taken while nobody has it. -/
theorem acquire (counts : q.Counts k 0 free filled) : ∃ k',
    (Call.mutexAcquire q.lock waitForever).exec k = some (.returned .success, k') ∧
      q.Counts k' 1 free filled := by
  refine ⟨_, Kernel.exec_lock counts.lock, ?_⟩
  obtain ⟨_, slots, entries, first, second, third⟩ := counts
  exact ⟨by simp, slots, entries, first, second, third⟩

theorem release (counts : q.Counts k lock free filled) : ∃ k',
    (Call.mutexRelease q.lock).exec k = some (.finished, k') ∧ q.Counts k' 0 free filled := by
  refine ⟨_, Kernel.exec_unlock counts.lockWaiters, ?_⟩
  obtain ⟨mutexes, semaphores, queues⟩ := k.dropDonation_objects q.lock
  obtain ⟨_, slots, entries, first, second, third⟩ := counts
  exact ⟨by simp, by simp [semaphores, slots], by simp [semaphores, entries],
    by simp [queues, first], by simp [queues, second], by simp [queues, third]⟩

/-- The buffer and the indices do not matter to the kernel. -/
theorem move (counts : q.Counts k lock free filled) (buffer : Nat → UInt32) (head tail : Nat) :
    OsMessageQueue.Counts { q with buffer := buffer, head := head, tail := tail } k lock free
      filled :=
  ⟨counts.lock, counts.emptySlots, counts.filledSlots, counts.lockWaiters, counts.emptyWaiters,
    counts.filledWaiters⟩

/-- A send into a free slot. -/
theorem send (counts : q.Counts k 0 (free + 1) filled) (apart : q.emptySlots ≠ q.filledSlots)
    (room : filled < q.capacity) (message : UInt32) : ∃ k',
      osQueueCall (.send message 0) q k = some (.sent .success,
        { q with
          buffer := Function.update q.buffer q.head message
          head := (q.head + 1) % q.capacity }, k') ∧ q.Counts k' 0 free (filled + 1) := by
  obtain ⟨k₁, locks, locked⟩ := (counts.setEmpty apart free).acquire
  obtain ⟨k₂, unlocks, unlocked⟩ := locked.release
  have posts := Kernel.exec_post unlocked.filledWaiters unlocked.filledSlots room
  refine ⟨_, ?_, unlocked.setFilled apart (filled + 1)⟩
  calc (Frame.sendSlot message 0).finish 7 q k
      _ = (Frame.sendLock message true).finish 6 q _ :=
        Frame.finish_call rfl (Kernel.exec_take counts.emptySlots) (by simp)
      _ = (Frame.sendWrite message true).finish 5 q k₁ := Frame.finish_call rfl locks (by simp)
      _ = (Frame.sendHead true).finish 4 _ k₁ := Frame.finish_access rfl
      _ = (Frame.sendUnlock true).finish 3 _ k₁ := Frame.finish_access rfl
      _ = Frame.sendPost.finish 2 _ k₂ := Frame.finish_call rfl unlocks (by simp)
      _ = _ := Frame.finish_call rfl posts (by simp)

/-- A send into a full queue. -/
theorem sendFull (counts : q.Counts k 0 0 filled) (message : UInt32) : ∃ k',
    osQueueCall (.send message 0) q k = some (.sent .success,
      { q with
        buffer := Function.update q.buffer q.head message
        head := (q.head + 1) % q.capacity
        tail := (q.tail + 1) % q.capacity }, k') ∧ q.Counts k' 0 0 filled := by
  obtain ⟨k₁, locks, locked⟩ := counts.acquire
  obtain ⟨k₂, unlocks, unlocked⟩ := locked.release
  refine ⟨k₂, ?_, unlocked⟩
  calc (Frame.sendSlot message 0).finish 7 q k
      _ = (Frame.sendLock message false).finish 6 q k :=
        Frame.finish_call rfl (Kernel.exec_poll counts.emptySlots) (by simp)
      _ = (Frame.sendWrite message false).finish 5 q k₁ := Frame.finish_call rfl locks (by simp)
      _ = (Frame.sendHead false).finish 4 _ k₁ := Frame.finish_access rfl
      _ = Frame.sendTail.finish 3 _ k₁ := Frame.finish_access rfl
      _ = (Frame.sendUnlock false).finish 2 _ k₁ := Frame.finish_access rfl
      _ = _ := Frame.finish_call rfl unlocks (by simp)

/-- A receive from an empty queue. -/
theorem receiveEmpty (counts : q.Counts k 0 free 0) :
    osQueueCall (.receive 0) q k = some (.missed .timeout, q, k) :=
  Frame.finish_call rfl (Kernel.exec_poll counts.filledSlots) (by simp)

/-- A receive of the oldest message. -/
theorem receive (counts : q.Counts k 0 free (filled + 1)) (apart : q.emptySlots ≠ q.filledSlots)
    (room : free < q.capacity) : ∃ k',
      osQueueCall (.receive 0) q k = some (.received (q.buffer q.tail),
        { q with tail := (q.tail + 1) % q.capacity }, k') ∧ q.Counts k' 0 (free + 1) filled := by
  obtain ⟨k₁, locks, locked⟩ := (counts.setFilled apart filled).acquire
  obtain ⟨k₂, unlocks, unlocked⟩ := locked.release
  have posts := Kernel.exec_post unlocked.emptyWaiters unlocked.emptySlots room
  refine ⟨_, ?_, unlocked.setEmpty apart (free + 1)⟩
  calc (Frame.receiveSlot 0).finish 7 q k
      _ = Frame.receiveLock.finish 6 q _ :=
        Frame.finish_call rfl (Kernel.exec_take counts.filledSlots) (by simp)
      _ = Frame.receiveRead.finish 5 q k₁ := Frame.finish_call rfl locks (by simp)
      _ = (Frame.receiveTail _).finish 4 q k₁ := Frame.finish_access rfl
      _ = (Frame.receiveUnlock _).finish 3 _ k₁ := Frame.finish_access rfl
      _ = (Frame.receivePost _).finish 2 _ k₂ := Frame.finish_call rfl unlocks (by simp)
      _ = _ := Frame.finish_call rfl posts (by simp)

end OsMessageQueue.Counts

/-- The queue shows the list: the ring holds it, and the counts are its length and the rest. -/
structure Bench.Shows (s : Bench) (l : List UInt32) : Prop where
  apart : s.queue.emptySlots ≠ s.queue.filledSlots
  head : s.queue.head < s.queue.capacity
  tail : s.queue.tail < s.queue.capacity
  counts : s.queue.Counts s.kernel 0 (s.queue.capacity - l.length) l.length
  holds : Ring.Holds s.queue.buffer s.queue.capacity s.queue.tail s.queue.head l

section
variable {s : Bench} {l : List UInt32} {capacity : Nat} {past : List (Transition Bench Use)}

theorem Initialised.shows (fresh : Initialised capacity s) (room : 0 < capacity) :
    s.queue.capacity = capacity ∧ s.Shows [] := by
  obtain ⟨q, buffer, k, apart, init⟩ := fresh
  obtain ⟨queue, kernel⟩ := s
  obtain ⟨rfl, rfl⟩ := Prod.mk.inj init
  refine ⟨rfl, apart, room, room, ⟨?_, ?_, ?_, ?_, ?_, ?_⟩, .empty _ _ _⟩ <;>
    simp [Kernel.osMutexInit, Kernel.osSemaphoreInit, apart]

theorem Bench.Shows.untouched (view : s.Shows l) {k : Kernel}
    (same : s.queue.Untouched s.kernel k) : Bench.Shows ⟨s.queue, k⟩ l := by
  obtain ⟨apart, head, tail, counts, holds⟩ := view
  refine ⟨apart, head, tail, ⟨?_, ?_, ?_, ?_, ?_, ?_⟩, holds⟩
  · rw [same.lock]
    exact counts.lock
  · exact same.emptySlots.trans counts.emptySlots
  · exact same.filledSlots.trans counts.filledSlots
  · exact same.lockWaiters.trans counts.lockWaiters
  · exact same.emptyWaiters.trans counts.emptyWaiters
  · exact same.filledWaiters.trans counts.filledWaiters

/-- **One call.** It returns, and does to the list what the list queue does. -/
theorem Bench.Shows.call (view : s.Shows l) {op : Operation} (polls : op.timeout = 0) :
    ∃ q k, osQueueCall op s.queue s.kernel =
        some ((Fifo.perform s.queue.capacity op l).1, q, k) ∧
      q.capacity = s.queue.capacity ∧
      Bench.Shows ⟨q, k⟩ (Fifo.perform s.queue.capacity op l).2 := by
  obtain ⟨apart, head, tail, counts, holds⟩ := view
  have room : 0 < s.queue.capacity := Nat.zero_lt_of_lt head
  have fits := holds.fits
  cases op with
  | send message timeout =>
    obtain rfl : timeout = 0 := polls
    by_cases full : l.length = s.queue.capacity
    · rw [full, Nat.sub_self] at counts
      obtain ⟨k, done, after⟩ := counts.sendFull message
      have some : l ≠ [] := List.ne_nil_of_length_pos (by omega)
      have next : (Fifo.perform s.queue.capacity (.send message 0) l).2 = (l ++ [message]).tail := by
        simp only [Fifo.perform, if_pos full, List.tail_append_of_ne_nil some]
      have length : (l ++ [message]).tail.length = s.queue.capacity := by simp [full]
      refine ⟨_, k, done, rfl, apart, Nat.mod_lt _ room, Nat.mod_lt _ room, ?_, ?_⟩
      · rw [next, length, Nat.sub_self]
        exact after.move _ _ _
      · rw [next]
        have rotate := holds.rotate message
        rw [Nat.mod_eq_of_lt head] at rotate
        exact rotate.congr (Nat.mod_mod _ _) (Nat.mod_mod _ _)
    · have free : s.queue.capacity - l.length = (s.queue.capacity - (l.length + 1)) + 1 := by omega
      rw [free] at counts
      obtain ⟨k, done, after⟩ := counts.send apart (by omega) message
      have next : (Fifo.perform s.queue.capacity (.send message 0) l).2 = l ++ [message] := by
        simp only [Fifo.perform, if_neg full]
      refine ⟨_, k, done, rfl, apart, Nat.mod_lt _ room, tail, ?_, ?_⟩
      · rw [next, List.length_append, List.length_singleton]
        exact after.move _ _ _
      · rw [next]
        have push := holds.push (by omega) message
        rw [Nat.mod_eq_of_lt head] at push
        exact push.congr rfl (Nat.mod_mod _ _)
  | receive timeout =>
    obtain rfl : timeout = 0 := polls
    cases l with
    | nil => exact ⟨_, _, counts.receiveEmpty, rfl, apart, head, tail, counts, holds⟩
    | cons message l =>
      rw [List.length_cons] at counts fits
      obtain ⟨k, done, after⟩ := counts.receive apart (by omega)
      obtain ⟨oldest, rest⟩ := holds.pop
      rw [Nat.mod_eq_of_lt tail] at oldest
      rw [oldest] at done
      have free : s.queue.capacity - (l.length + 1) + 1 = s.queue.capacity - l.length := by omega
      rw [free] at after
      exact ⟨_, k, done, rfl, apart, head, Nat.mod_lt _ room, after.move _ _ _,
        rest.congr (Nat.mod_mod _ _) rfl⟩

theorem Fifo.replies_append (ops : List Operation) (op : Operation) (l : List UInt32) :
    replies capacity (ops ++ [op]) l =
      ((replies capacity ops l).1 ++ [(perform capacity op (replies capacity ops l).2).1],
        (perform capacity op (replies capacity ops l).2).2) := by
  induction ops generalizing l with
  | nil => rfl
  | cons first ops ih => simp only [List.cons_append, replies, ih]

theorem BenchStep.shows {u : Use} {t : Bench} (h : BenchStep s u t) (view : s.Shows l) :
    t.queue.capacity = s.queue.capacity ∧
      t.Shows (match u with
        | .call op _ => (Fifo.perform s.queue.capacity op l).2
        | .elsewhere => l) ∧
      ∀ op reply, u = .call op reply → reply = (Fifo.perform s.queue.capacity op l).1 := by
  cases h with
  | call polls done =>
    obtain ⟨q, k, does, capacity, after⟩ := view.call polls
    obtain ⟨rfl, rest⟩ := Prod.mk.inj (Option.some.inj (done.symm.trans does))
    obtain ⟨rfl, rfl⟩ := Prod.mk.inj rest
    refine ⟨capacity, after, ?_⟩
    rintro op reply same
    obtain ⟨rfl, rfl⟩ := Use.call.inj same
    rfl
  | elsewhere untouched => exact ⟨rfl, view.untouched untouched, by simp⟩

/-- The list that the calls of a run leave. -/
def listAfter (capacity : Nat) (past : List (Transition Bench Use)) : List UInt32 :=
  (Fifo.replies capacity ((calls past).map Prod.fst) []).2

theorem Bench.shows (run : Run (Initialised capacity) BenchStep past s) (room : 0 < capacity) :
    s.queue.capacity = capacity ∧ s.Shows (listAfter capacity past) ∧
      (calls past).map Prod.snd = (Fifo.replies capacity ((calls past).map Prod.fst) []).1 := by
  induction run with
  | start fresh =>
    obtain ⟨capacity, view⟩ := fresh.shows room
    exact ⟨capacity, view, rfl⟩
  | @next past s t u run h ih =>
    obtain ⟨rfl, view, replies⟩ := ih
    obtain ⟨capacity, after, reply⟩ := h.shows view
    cases u with
    | elsewhere => exact ⟨capacity, after, replies⟩
    | call op r =>
      have list : listAfter s.queue.capacity (⟨s, .call op r, t⟩ :: past) =
          (Fifo.perform s.queue.capacity op (listAfter s.queue.capacity past)).2 := by
        simp only [listAfter, calls, List.map_append, List.map_cons, List.map_nil,
          Fifo.replies_append]
      refine ⟨capacity, list ▸ after, ?_⟩
      simp only [calls, List.map_append, List.map_cons, List.map_nil, Fifo.replies_append, replies,
        reply op r rfl, listAfter]

/-- **The queue is a list that gives up its oldest element.** For any calls that poll, on a
fresh queue and any kernel, the replies are those of the list; the counts are its length and
the rest; the indices stay inside the buffer; and every further call returns. -/
theorem queue_refines_fifo (run : Run (Initialised capacity) BenchStep past s)
    (room : 0 < capacity) (word : capacity < 2 ^ 32) :
    (calls past).map Prod.snd = (Fifo.replies capacity ((calls past).map Prod.fst) []).1 ∧
    (s.queue.head < capacity ∧ s.queue.tail < capacity) ∧
    (s.queue.head + 1 < 2 ^ 32 ∧ s.queue.tail + 1 < 2 ^ 32) ∧
    (s.kernel.semaphores s.queue.filledSlots).count = (listAfter capacity past).length ∧
    (s.kernel.semaphores s.queue.emptySlots).count + (listAfter capacity past).length = capacity ∧
    ∀ op : Operation, op.timeout = 0 → ∃ q k, osQueueCall op s.queue s.kernel =
      some ((Fifo.perform capacity op (listAfter capacity past)).1, q, k) := by
  obtain ⟨rfl, view, replies⟩ := Bench.shows run room
  have head := view.head
  have tail := view.tail
  have fits := view.holds.fits
  refine ⟨replies, ⟨head, tail⟩, by omega, ?_, ?_, ?_⟩
  · rw [view.counts.filledSlots]
  · rw [view.counts.emptySlots]
    exact Nat.sub_add_cancel fits
  · intro op polls
    obtain ⟨q, k, done, _⟩ := view.call polls
    exact ⟨q, k, done⟩

/-- Any sequence of polling calls can be made. -/
theorem Bench.goes_on (run : Run (Initialised capacity) BenchStep past s) (room : 0 < capacity)
    (ops : List Operation) (polls : ∀ op ∈ ops, op.timeout = 0) :
    ∃ past' s', Run (Initialised capacity) BenchStep past' s' ∧
      (calls past').map Prod.fst = (calls past).map Prod.fst ++ ops := by
  induction ops generalizing past s with
  | nil => exact ⟨past, s, run, (List.append_nil _).symm⟩
  | cons op ops ih =>
    obtain ⟨_, view, _⟩ := Bench.shows run room
    obtain ⟨q, k, done, _⟩ := view.call (polls op List.mem_cons_self)
    have step := BenchStep.call (polls op List.mem_cons_self) done
    obtain ⟨past', s', run', made⟩ :=
      ih (.next run step) fun op there => polls op (List.mem_cons_of_mem _ there)
    refine ⟨past', s', run', ?_⟩
    rw [made]
    simp [calls]

end

/-- A queue of one slot, sent to twice and read once, before the launch. -/
theorem queue_refines_fifo_overwrites : ∃ past s, Run (Initialised 1) BenchStep past s ∧
    (calls past).map Prod.fst = [.send 5 0, .send 6 0, .receive 0] ∧
    (calls past).map Prod.snd = [.sent .success, .sent .success, .received 6] := by
  have fresh : Initialised 1 ⟨(opening 1).1, (opening 1).2⟩ :=
    ⟨⟨fun _ => 0, 0, 0, 0, 0, 0, 1⟩, fun _ => 0, reset fun _ => ⟨0, 0⟩, by decide, rfl⟩
  obtain ⟨past, s, run, made⟩ := Bench.goes_on (.start fresh) Nat.one_pos
    [.send 5 0, .send 6 0, .receive 0] (by simp [Operation.timeout])
  obtain ⟨replies, _⟩ := queue_refines_fifo run Nat.one_pos (by decide)
  rw [calls, List.map_nil, List.nil_append] at made
  refine ⟨past, s, run, made, ?_⟩
  rw [replies, made]
  rfl

end Sentinel
