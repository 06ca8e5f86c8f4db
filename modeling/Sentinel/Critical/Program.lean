import Sentinel.Lib.Program
import Sentinel.Queue.Sequential

/-! The calls of the kernel, statement by statement. Between two statements interrupts and
other tasks can come in while `PRIMASK` is 0, and none while it is 1. -/

namespace Sentinel

open Programs

/-- What the calls read and write: the kernel, a queue, the capture state of the distance sensor
and its trigger pin. -/
structure Device where
  kernel : Kernel
  queue : OsMessageQueue
  waitingForRising : Bool
  trigPin : Bool

/-- What a statement writes to. `control` is `PRIMASK` and the pending bit of PendSV, `ring` the
buffer and the indices of a queue. -/
inductive Target
  | tcb (t : TaskId)
  | mutex (m : Nat)
  | semaphore (x : Nat)
  | waitQueue (o : Waitable)
  | control
  | ring
  | capture
  | pin
  deriving DecidableEq, Repr

/-- A mutex, a semaphore, a wait queue or a task control block. -/
def Target.isKernel : Target → Bool
  | .tcb _ | .mutex _ | .semaphore _ | .waitQueue _ => true
  | .control | .ring | .capture | .pin => false

abbrev Routine := Program Device Target

namespace Routine

/-- The others come in, unless interrupts are masked. -/
def preempt : Routine Unit := do
  let primask ← Program.look fun d : Device => d.kernel.primask
  if primask then pure () else Program.letIn

def get {α : Type} (f : Device → α) : Routine α := do
  preempt
  Program.look f

def read {α : Type} (f : Kernel → α) : Routine α := get fun d => f d.kernel

def assign (target : Target) (f : Device → Device) : Routine Unit := do
  preempt
  Program.write target f

def control (f : Kernel → Kernel) : Routine Unit :=
  assign .control fun d => { d with kernel := f d.kernel }

def assignTcb (t : TaskId) (f : Tcb → Tcb) : Routine Unit :=
  assign (.tcb t) fun d => { d with kernel := d.kernel.setTcb t (f (d.kernel.osTasks t)) }

def assignMutex (m : Nat) (f : OsMutex → OsMutex) : Routine Unit :=
  assign (.mutex m) fun d => { d with kernel := d.kernel.setMutex m (f (d.kernel.mutexes m)) }

def assignSemaphore (x : Nat) (f : OsSemaphore → OsSemaphore) : Routine Unit :=
  assign (.semaphore x) fun d =>
    { d with kernel := d.kernel.setSemaphore x (f (d.kernel.semaphores x)) }

def assignQueue (o : Waitable) (f : WaitQueue → WaitQueue) : Routine Unit :=
  assign (.waitQueue o) fun d => { d with kernel := d.kernel.setQueue o (f (d.kernel.queues o)) }

def assignRing (f : OsMessageQueue → OsMessageQueue) : Routine Unit :=
  assign .ring fun d => { d with queue := f d.queue }

/-! ### `os_kernel.h` -/

def osEnterCritical : Routine Bool := do
  let primask ← read fun k => k.primask
  control fun k => { k with primask := true }
  pure primask

def osExitCritical (primask : Bool) : Routine Unit := control fun k => k.osExitCritical primask

/-- A masked PendSV waits. To let the others in all the same allows for both. -/
def osYield : Routine Unit := do
  control fun k => k.osYield
  Program.letIn

/-! ### `os_kernel.c` -/

/-- `current_tcb`, where it is followed. -/
def current : Routine TaskId := do
  let pointer ← read fun k => k.currentTcb
  Program.deref pointer

/-- The inner loop of `wait_queue_remove`, with `n` rounds left. -/
def shiftDown (o : Waitable) (j : Nat) : Nat → Routine Unit
  | 0 => pure ()
  | n + 1 => do
    let next ← read fun k => (k.queues o).waitQueue (j + 1)
    assignQueue o fun q => { q with waitQueue := Function.update q.waitQueue j next }
    shiftDown o (j + 1) n

/-- The outer loop, with `n` rounds left. -/
def removeFrom (task : TaskId) (o c : Waitable) (i : Nat) : Nat → Routine Unit
  | 0 => pure ()
  | n + 1 => do
    let entry ← read fun k => (k.queues o).waitQueue i
    if entry = task then do
      shiftDown o i n
      assignQueue c fun q => { q with waitCount := q.waitCount - 1 }
    else removeFrom task o c (i + 1) n

def waitQueueRemove (task : TaskId) : Routine Unit := do
  let tcb ← read fun k => k.osTasks task
  match tcb.waitQueue, tcb.waitCount with
  | some o, some c => do
    -- the loops compare with `*task->wait_count` each time, which they write only to leave
    let count ← read fun k => (k.queues c).waitCount
    removeFrom task o c 0 count
    assignTcb task fun x => { x with waitQueue := none }
    assignTcb task fun x => { x with waitCount := none }
  | _, _ => pure ()

def blockCurrent (o : Waitable) (max : Nat) (timeout : UInt32) : Routine Bool := do
  let count ← read fun k => (k.queues o).waitCount
  if count ≥ max then pure false
  else do
    let task ← current
    assignQueue o fun q => { q with waitQueue := Function.update q.waitQueue q.waitCount task }
    assignQueue o fun q => { q with waitCount := q.waitCount + 1 }
    assignTcb task fun x => { x with waitQueue := some o }
    assignTcb task fun x => { x with waitCount := some o }
    assignTcb task fun x => { x with waitResult := .success }
    assignTcb task fun x => { x with sleepTime := if timeout = waitForever then 0 else timeout }
    assignTcb task fun x => { x with state := .blocked }
    pure true

def wakeTask (task : TaskId) : Routine Unit := do
  waitQueueRemove task
  assignTcb task fun x => { x with sleepTime := 0 }
  assignTcb task fun x => { x with waitResult := .success }
  assignTcb task fun x => { x with state := .ready }

/-- `pick_waiter` on the queue of `o`. It writes nothing. -/
def pickWaiter (o : Waitable) : Routine (Option TaskId) :=
  read fun k => k.pickWaiter (k.queues o).waitQueue (k.queues o).waitCount

def osDelay (ms : UInt32) : Routine Unit := do
  let kernelRunning ← read fun k => k.kernelRunning
  if ¬ kernelRunning ∨ ms = 0 then pure ()
  else do
    let primask ← osEnterCritical
    let task ← current
    assignTcb task fun x => { x with sleepTime := ms }
    assignTcb task fun x => { x with waitQueue := none }
    assignTcb task fun x => { x with waitCount := none }
    assignTcb task fun x => { x with state := .blocked }
    osExitCritical primask
    osYield

/-- The end of a call that has parked its task. -/
def resumed : Routine Code := do
  let task ← current
  read fun k => (k.osTasks task).waitResult

/-- The end of both acquires: the caller parks and comes back with its result, or finds the
queue full. -/
def park (o : Waitable) (max : Nat) (timeout : UInt32) (primask : Bool) : Routine Code := do
  let parked ← blockCurrent o max timeout
  if ¬ parked then do
    osExitCritical primask
    pure .fail
  else do
    osExitCritical primask
    osYield
    resumed

/-- Priority inheritance. -/
def donate (m : Nat) : Routine Unit := do
  let task ← current
  let pointer ← read fun k => (k.mutexes m).owner
  let owner ← Program.deref pointer
  let mine ← read fun k => (k.osTasks task).currentPriority
  let theirs ← read fun k => (k.osTasks owner).currentPriority
  if mine > theirs then assignTcb owner fun x => { x with currentPriority := mine } else pure ()

def osMutexAcquire (m : Nat) (timeout : UInt32) : Routine Code := do
  let primask ← osEnterCritical
  let lock ← read fun k => (k.mutexes m).lock
  if lock = 0 then do
    assignMutex m fun x => { x with lock := 1 }
    let currentTcb ← read fun k => k.currentTcb
    assignMutex m fun x => { x with owner := currentTcb }
    osExitCritical primask
    pure .success
  else do
    let owner ← read fun k => (k.mutexes m).owner
    let currentTcb ← read fun k => k.currentTcb
    if owner = currentTcb then do
      osExitCritical primask
      pure .fail
    else do
      let kernelRunning ← read fun k => k.kernelRunning
      if timeout = 0 ∨ ¬ kernelRunning then do
        osExitCritical primask
        pure .timeout
      else do
        donate m
        park (.mutex m) maxWaitingTasks timeout primask

/-- Drops any donated priority. -/
def dropDonation (m : Nat) : Routine Unit := do
  let owner ← read fun k => (k.mutexes m).owner
  match owner with
  | some owner => assignTcb owner fun x => { x with currentPriority := x.basePriority }
  | none => pure ()

def osMutexRelease (m : Nat) : Routine Unit := do
  let primask ← osEnterCritical
  dropDonation m
  let next ← pickWaiter (.mutex m)
  match next with
  | some next => do
    assignMutex m fun x => { x with owner := some next }
    wakeTask next
    osExitCritical primask
    osYield
  | none => do
    assignMutex m fun x => { x with lock := 0 }
    assignMutex m fun x => { x with owner := none }
    osExitCritical primask

def osSemaphoreAcquire (x : Nat) (timeout : UInt32) : Routine Code := do
  let primask ← osEnterCritical
  let count ← read fun k => (k.semaphores x).count
  if count > 0 then do
    assignSemaphore x fun s => { s with count := s.count - 1 }
    osExitCritical primask
    pure .success
  else do
    let kernelRunning ← read fun k => k.kernelRunning
    if timeout = 0 ∨ ¬ kernelRunning then do
      osExitCritical primask
      pure .timeout
    else park (.semaphore x) maxTasks timeout primask

/-- The token of a post that nobody waits for. -/
def countUp (x : Nat) : Routine Unit := do
  let s ← read fun k => k.semaphores x
  if s.count < s.maxCount then assignSemaphore x fun s => { s with count := s.count + 1 }
  else pure ()

def osSemaphoreRelease (x : Nat) : Routine Unit := do
  let primask ← osEnterCritical
  let next ← pickWaiter (.semaphore x)
  match next with
  | some next => do
    wakeTask next
    osExitCritical primask
    osYield
  | none => do
    countUp x
    osExitCritical primask

/-! ### `os_queue.c` -/

/-- The caller's slot goes back, if it has one. -/
def giveBack (hadSlot : Bool) : Routine Unit := do
  let q ← get fun d => d.queue
  if hadSlot then osSemaphoreRelease q.emptySlots else pure ()

/-- The reader has to skip the entry that was written over. -/
def skipOldest (hadSlot : Bool) : Routine Unit :=
  if ¬ hadSlot then assignRing fun q => { q with tail := (q.tail + 1) % q.capacity } else pure ()

def postFilled (hadSlot : Bool) : Routine Unit := do
  let q ← get fun d => d.queue
  if hadSlot then osSemaphoreRelease q.filledSlots else pure ()

/-- `os_queue_send` with the lock. -/
def sendWrite (message : UInt32) (hadSlot : Bool) : Routine Code := do
  assignRing fun q => { q with buffer := Function.update q.buffer q.head message }
  assignRing fun q => { q with head := (q.head + 1) % q.capacity }
  skipOldest hadSlot
  let q ← get fun d => d.queue
  osMutexRelease q.lock
  postFilled hadSlot
  pure .success

/-- `os_queue_send` once it knows whether it has a slot. -/
def sendLock (message : UInt32) (hadSlot : Bool) : Routine Code := do
  let q ← get fun d => d.queue
  let lock ← osMutexAcquire q.lock waitForever
  if lock ≠ .success then do
    giveBack hadSlot
    pure .fail
  else sendWrite message hadSlot

def osQueueSend (message timeout : UInt32) : Routine Code := do
  let q ← get fun d => d.queue
  let slot ← osSemaphoreAcquire q.emptySlots timeout
  sendLock message (slot = .success)

/-- `os_queue_receive` with the lock. -/
def receiveRead : Routine (Code × Option UInt32) := do
  let message ← get fun d => d.queue.buffer d.queue.tail
  assignRing fun q => { q with tail := (q.tail + 1) % q.capacity }
  let q ← get fun d => d.queue
  osMutexRelease q.lock
  let q ← get fun d => d.queue
  osSemaphoreRelease q.emptySlots
  pure (.success, some message)

/-- `os_queue_receive` with an item. -/
def receiveLock : Routine (Code × Option UInt32) := do
  let q ← get fun d => d.queue
  let lock ← osMutexAcquire q.lock waitForever
  if lock ≠ .success then do
    let q ← get fun d => d.queue
    osSemaphoreRelease q.filledSlots
    pure (.fail, none)
  else receiveRead

/-- The code, and the message in `*buffer` when it is written. -/
def osQueueReceive (timeout : UInt32) : Routine (Code × Option UInt32) := do
  let q ← get fun d => d.queue
  let item ← osSemaphoreAcquire q.filledSlots timeout
  if item ≠ .success then pure (.timeout, none) else receiveLock

/-! ### `ultrasonic.c` -/

def gpioWrite (value : Bool) : Routine Unit := assign .pin fun d => { d with trigPin := value }

/-- The empty loop that takes ten microseconds. -/
def spin : Nat → Routine Unit
  | 0 => pure ()
  | n + 1 => do
    preempt
    spin n

def ultrasonicTrigger : Routine Unit := do
  let primask ← osEnterCritical
  assign .capture fun d => { d with waitingForRising := true }
  osExitCritical primask
  gpioWrite true
  spin 40
  gpioWrite false

end Routine

/-- The calls that mask interrupts. -/
inductive Primitive
  | call (c : Call)
  | queue (op : Operation)
  | ultrasonicTrigger
  deriving DecidableEq, Repr

open Routine

/-- A call from its first instruction to its return. -/
def Call.routine : Call → Routine Outcome
  | .mutexAcquire m timeout => do
    let code ← osMutexAcquire m timeout
    pure (.returned code)
  | .mutexRelease m => do
    osMutexRelease m
    pure .finished
  | .semaphoreAcquire x timeout => do
    let code ← osSemaphoreAcquire x timeout
    pure (.returned code)
  | .semaphoreRelease x => do
    osSemaphoreRelease x
    pure .finished
  | .delay ms => do
    osDelay ms
    pure .finished

def Operation.routine : Operation → Routine Reply
  | .send message timeout => do
    let code ← osQueueSend message timeout
    pure (.sent code)
  | .receive timeout => do
    let out ← osQueueReceive timeout
    match out.2 with
    | some message => pure (.received message)
    | none => pure (.missed out.1)

def Primitive.routine : Primitive → Routine Unit
  | .call c => do
    let _ ← c.routine
  | .queue op => do
    let _ ← op.routine
  | .ultrasonicTrigger => Routine.ultrasonicTrigger

end Sentinel
