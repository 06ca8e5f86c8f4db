import Sentinel.Kernel.Boot

/-! The message queue (`os_queue.c`). A call is a sequence of kernel calls and
accesses to the ring, and other tasks, ticks and interrupts can come between any two. -/

namespace Sentinel

open Runs (Transition Run)

/-- `os_message_queue_t`. Its mutex and semaphores are named, and kept by the kernel. -/
structure OsMessageQueue where
  buffer : Nat → UInt32
  capacity : Nat
  head : Nat
  tail : Nat
  lock : Nat
  emptySlots : Nat
  filledSlots : Nat

def osQueueInit (q : OsMessageQueue) (bufferArray : Nat → UInt32) (capacity : Nat) (k : Kernel) :
    OsMessageQueue × Kernel :=
  ({ q with buffer := bufferArray, capacity := capacity, head := 0, tail := 0 },
    ((k.osMutexInit q.lock).osSemaphoreInit q.emptySlots capacity capacity).osSemaphoreInit
      q.filledSlots 0 capacity)

/-- `os_queue_send` and `os_queue_receive`, with their arguments. -/
inductive Operation
  | send (message timeout : UInt32)
  | receive (timeout : UInt32)
  deriving DecidableEq, Repr

/-- What a call returns. `received` is `OS_SUCCESS` together with the message stored in
`*buffer`, `missed` is any other code of a receive. -/
inductive Reply
  | sent (code : Code)
  | received (message : UInt32)
  | missed (code : Code)
  deriving DecidableEq, Repr

/-- The statement of a call that comes next. -/
inductive Frame
  | sendSlot (message timeout : UInt32)
  | sendLock (message : UInt32) (hadSlot : Bool)
  | sendGiveBack
  | sendWrite (message : UInt32) (hadSlot : Bool)
  | sendHead (hadSlot : Bool)
  | sendTail
  | sendUnlock (hadSlot : Bool)
  | sendPost
  | receiveSlot (timeout : UInt32)
  | receiveLock
  | receiveGiveBack
  | receiveRead
  | receiveTail (message : UInt32)
  | receiveUnlock (message : UInt32)
  | receivePost (message : UInt32)
  | returning (reply : Reply)
  deriving Repr

def Operation.start : Operation → Frame
  | .send message timeout => .sendSlot message timeout
  | .receive timeout => .receiveSlot timeout

namespace Frame

/-- The kernel call that a statement makes. -/
def call (q : OsMessageQueue) : Frame → Option Call
  | .sendSlot _ timeout => some (.semaphoreAcquire q.emptySlots timeout)
  | .sendLock _ _ | .receiveLock => some (.mutexAcquire q.lock waitForever)
  | .sendGiveBack | .receivePost _ => some (.semaphoreRelease q.emptySlots)
  | .sendUnlock _ | .receiveUnlock _ => some (.mutexRelease q.lock)
  | .sendPost | .receiveGiveBack => some (.semaphoreRelease q.filledSlots)
  | .receiveSlot timeout => some (.semaphoreAcquire q.filledSlots timeout)
  | .sendWrite _ _ | .sendHead _ | .sendTail | .receiveRead | .receiveTail _ | .returning _ => none

/-- Where the call goes on once the kernel call has returned. -/
def proceed (out : Outcome) : Frame → Frame
  | .sendSlot message _ => .sendLock message (out = .returned .success)
  | .sendLock message hadSlot =>
    if out = .returned .success then .sendWrite message hadSlot
    else if hadSlot then .sendGiveBack else .returning (.sent .fail)
  | .sendGiveBack => .returning (.sent .fail)
  | .sendUnlock hadSlot => if hadSlot then .sendPost else .returning (.sent .success)
  | .sendPost => .returning (.sent .success)
  | .receiveSlot _ => if out = .returned .success then .receiveLock else .returning (.missed .timeout)
  | .receiveLock => if out = .returned .success then .receiveRead else .receiveGiveBack
  | .receiveGiveBack => .returning (.missed .fail)
  | .receiveUnlock message => .receivePost message
  | .receivePost message => .returning (.received message)
  | f => f

/-- One access to the ring. -/
def access (q : OsMessageQueue) : Frame → Option (OsMessageQueue × Frame)
  | .sendWrite message hadSlot =>
    some ({ q with buffer := Function.update q.buffer q.head message }, .sendHead hadSlot)
  | .sendHead hadSlot =>
    some ({ q with head := (q.head + 1) % q.capacity },
      if hadSlot then .sendUnlock hadSlot else .sendTail)
  | .sendTail => some ({ q with tail := (q.tail + 1) % q.capacity }, .sendUnlock false)
  | .receiveRead => some (q, .receiveTail (q.buffer q.tail))
  | .receiveTail message =>
    some ({ q with tail := (q.tail + 1) % q.capacity }, .receiveUnlock message)
  | _ => none

end Frame

/-- The kernel with its tasks, one queue, and the queue calls in progress. -/
structure Traffic where
  system : System
  queue : OsMessageQueue
  doing : TaskId → Option Frame

inductive Deed
  | enter (t : TaskId) (op : Operation)
  | kernel (e : Event)
  | access (t : TaskId)
  | leave (t : TaskId) (reply : Reply)
  deriving DecidableEq, Repr

/-- The call names a kernel object of the queue. -/
def Call.uses (q : OsMessageQueue) : Call → Bool
  | .mutexAcquire m _ | .mutexRelease m => m = q.lock
  | .semaphoreAcquire x _ | .semaphoreRelease x => x = q.emptySlots || x = q.filledSlots
  | .delay _ => false

namespace Traffic

/-- The next kernel call of a task in a queue call is the one its statement makes. Other
tasks leave the kernel objects of the queue alone. -/
def may (s : Traffic) (t : TaskId) (c : Call) : Bool :=
  match s.doing t with
  | some f => f.call s.queue = some c
  | none => !c.uses s.queue

def allows (s : Traffic) : Event → Bool
  | .call t c _ => s.may t c
  | .post x => x ≠ s.queue.emptySlots ∧ x ≠ s.queue.filledSlots
  | .resume _ _ _ | .tick | .pass => true

/-- A return from a kernel call moves the queue call on. -/
def moved (s : Traffic) : Event → TaskId → Option Frame
  | .call t _ out | .resume t _ out =>
    match s.doing t with
    | some f => if out = .parked then s.doing else Function.update s.doing t (some (f.proceed out))
    | none => s.doing
  | .post _ | .tick | .pass => s.doing

end Traffic

inductive QueueStep (idle : TaskId) : Traffic → Deed → Traffic → Prop
  | enter {s : Traffic} {t : TaskId} (op : Operation) (runs : s.system.Runs t)
      (free : s.system.inside t = none) (outside : s.doing t = none) :
      QueueStep idle s (.enter t op)
        { s with doing := Function.update s.doing t (some op.start) }
  | kernel {s : Traffic} {e : Event} {system : System} (step : Step idle s.system e system)
      (allowed : s.allows e) :
      QueueStep idle s (.kernel e) ⟨system, s.queue, s.moved e⟩
  | access {s : Traffic} {t : TaskId} {f f' : Frame} {q : OsMessageQueue} (runs : s.system.Runs t)
      (free : s.system.inside t = none) (here : s.doing t = some f)
      (done : f.access s.queue = some (q, f')) :
      QueueStep idle s (.access t)
        ⟨s.system, q, Function.update s.doing t (some f')⟩
  | leave {s : Traffic} {t : TaskId} {reply : Reply} (runs : s.system.Runs t)
      (free : s.system.inside t = none) (here : s.doing t = some (.returning reply)) :
      QueueStep idle s (.leave t reply)
        { s with doing := Function.update s.doing t none }

/-- The queue as `os_queue_init` leaves it. -/
structure FreshQueue (q : OsMessageQueue) (k : Kernel) : Prop where
  lock : k.mutexes q.lock = ⟨0, none⟩
  emptySlots : k.semaphores q.emptySlots = ⟨q.capacity, q.capacity⟩
  filledSlots : k.semaphores q.filledSlots = ⟨0, q.capacity⟩
  head : q.head = 0
  tail : q.tail = 0

theorem osQueueInit_fresh (q : OsMessageQueue) (bufferArray : Nat → UInt32) (capacity : Nat)
    (k : Kernel) (apart : q.emptySlots ≠ q.filledSlots) :
    FreshQueue (osQueueInit q bufferArray capacity k).1 (osQueueInit q bufferArray capacity k).2 := by
  refine ⟨?_, ?_, ?_, rfl, rfl⟩ <;>
    simp [osQueueInit, Kernel.osMutexInit, Kernel.osSemaphoreInit, apart]

/-- A launched system with a fresh queue of at least one cell, in no queue call. -/
structure Opened (idle : TaskId) (s : Traffic) : Prop where
  launched : Launched idle s.system
  fresh : FreshQueue s.queue s.system.kernel
  room : 0 < s.queue.capacity
  apart : s.queue.emptySlots ≠ s.queue.filledSlots
  outside : ∀ t, s.doing t = none

/-- Every run of the system with the queue. -/
abbrev Service (idle : TaskId) := Run (Opened idle) (QueueStep idle)

abbrev Log := List (Transition Traffic Deed)

/-! ### Runs that can be computed -/

/-- The step that a deed makes, if it can be done. -/
def act (idle : TaskId) (s : Traffic) : Deed → Option Traffic
  | .enter t op =>
    if s.system.Runs t ∧ s.system.inside t = none ∧ s.doing t = none then
      some { s with doing := Function.update s.doing t (some op.start) }
    else none
  | .kernel e =>
    if s.allows e then
      (perform idle s.system e).map fun system => ⟨system, s.queue, s.moved e⟩
    else none
  | .access t =>
    if s.system.Runs t ∧ s.system.inside t = none then
      match s.doing t with
      | some f => (f.access s.queue).map fun out =>
        ⟨s.system, out.1, Function.update s.doing t (some out.2)⟩
      | none => none
    else none
  | .leave t reply =>
    if s.system.Runs t ∧ s.system.inside t = none then
      match s.doing t with
      | some (.returning reply') =>
        if reply' = reply then some { s with doing := Function.update s.doing t none } else none
      | _ => none
    else none

theorem act_step {idle : TaskId} {s t : Traffic} {d : Deed} (done : act idle s d = some t) :
    QueueStep idle s d t := by
  cases d with
  | enter u op =>
    simp only [act] at done
    split at done
    · rename_i can
      obtain rfl := Option.some.inj done
      exact .enter op can.1 can.2.1 can.2.2
    · cases done
  | kernel e =>
    simp only [act] at done
    split at done
    · rename_i allowed
      obtain ⟨system, step, rfl⟩ := Option.map_eq_some_iff.mp done
      exact .kernel (perform_iff.mp step) allowed
    · cases done
  | access u =>
    simp only [act] at done
    split at done
    · rename_i can
      split at done
      · rename_i f here
        obtain ⟨⟨q, f'⟩, accessed, rfl⟩ := Option.map_eq_some_iff.mp done
        exact .access can.1 can.2 here accessed
      · cases done
    · cases done
  | leave u reply =>
    simp only [act] at done
    split at done
    · rename_i can
      split at done
      · rename_i reply' here
        split at done
        · rename_i same
          obtain rfl := Option.some.inj done
          exact .leave can.1 can.2 (same ▸ here)
        · cases done
      · cases done
    · cases done

/-- A queue whose kernel objects are mutex 0 and semaphores 0 and 1. -/
def opening (capacity : Nat) : OsMessageQueue × Kernel :=
  osQueueInit ⟨fun _ => 0, 0, 0, 0, 0, 0, 1⟩ (fun _ => 0) capacity (reset fun _ => ⟨0, 0⟩)

/-- Deeds played from the launch of tasks with the given priorities. -/
def serve (idle : TaskId) (capacity : Nat) (priorities : List Nat) (goal : Log → Traffic → Bool)
    (deeds : List Deed) : Bool :=
  let start := reset (opening capacity).2.semaphores
  decide (0 < capacity ∧ (createAll start.osKernelInit priorities).Live idle) &&
    (setup (opening capacity).2.semaphores priorities).any fun system =>
      match Runs.play (act idle) deeds [] ⟨system, (opening capacity).1, fun _ => none⟩ with
      | some (past, s) => goal past s
      | none => false

theorem serve_run {idle : TaskId} {capacity : Nat} {priorities : List Nat}
    {goal : Log → Traffic → Bool} {deeds : List Deed}
    (done : serve idle capacity priorities goal deeds = true) :
    ∃ past s, Service idle past s ∧ goal past s = true := by
  obtain ⟨can, done⟩ := (Bool.and_eq_true _ _).mp done
  obtain ⟨room, live⟩ := of_decide_eq_true can
  obtain ⟨system, launch, played⟩ := (Option.any_eq_true _ _).mp done
  have started := started_of_setup live launch
  have fresh := osQueueInit_fresh ⟨fun _ => 0, 0, 0, 0, 0, 0, 1⟩ (fun _ => 0) capacity
    (reset fun _ => ⟨0, 0⟩) (by decide)
  have opened : Opened idle ⟨system, (opening capacity).1, fun _ => none⟩ := by
    refine ⟨started.launched, ⟨started.mutexes _, ?_, ?_, rfl, rfl⟩, room, Nat.zero_ne_one, fun _ => rfl⟩
    · exact (congrFun started.semaphores _).trans fresh.emptySlots
    · exact (congrFun started.semaphores _).trans fresh.filledSlots
  split at played
  · rename_i past s path
    exact ⟨past, s, (Runs.play_run path (.start opened)).weaken (fun _ h => h) fun _ _ _ => act_step,
      played⟩
  · cases played

end Sentinel
