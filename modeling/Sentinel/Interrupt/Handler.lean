import Sentinel.Lib.Run
import Sentinel.Kernel.Sync

/-! `SysTick_Handler` and `wait_queue_remove` one statement at a time. The handler
masks no interrupts, so a more urgent one, which posts a semaphore and is itself not
interrupted, can run between any two statements. -/

namespace Sentinel

/-- The statement that comes next. The names after `guard` are those of
`wait_queue_remove`; `search`, `compare`, `shift` and `move` carry its loop variables. -/
inductive Pc
  | enter
  | next (i : Nat)
  | sleeping (t : TaskId)
  | countDown (t : TaskId)
  | waits (t : TaskId)
  | guard (t : TaskId)
  | search (t : TaskId) (i : Nat)
  | compare (t : TaskId) (i : Nat)
  | shift (t : TaskId) (j : Nat)
  | move (t : TaskId) (j : Nat)
  | decrement (t : TaskId)
  | clearQueue (t : TaskId)
  | clearCount (t : TaskId)
  | result (t : TaskId)
  | wake (t : TaskId)
  | yield
  | finished
  /-- A pointer that was NULL has been read through. -/
  | fault
  deriving DecidableEq, Repr

structure Handler where
  kernel : Kernel
  pc : Pc

namespace Handler

def edit (s : Handler) (t : TaskId) (f : Tcb → Tcb) (pc : Pc) : Handler :=
  ⟨s.kernel.setTcb t (f (s.kernel.osTasks t)), pc⟩

/-- One statement. `none` is the end of the handler, or of the machine. -/
def statement (s : Handler) : Option Handler :=
  let k := s.kernel
  match s.pc with
  | .enter => some ⟨{ k with osTicks := k.osTicks + 1 }, .next 0⟩
  | .next i =>
    if h : i < k.taskCount then some ⟨k, .sleeping ⟨i, h.trans_le k.countLe⟩⟩ else some ⟨k, .yield⟩
  | .sleeping t =>
    if (k.osTasks t).sleepTime = 0 then some ⟨k, .next (t + 1)⟩ else some ⟨k, .countDown t⟩
  | .countDown t =>
    some (s.edit t (fun x => { x with sleepTime := x.sleepTime - 1 })
      (if (k.osTasks t).sleepTime - 1 = 0 then .waits t else .next (t + 1)))
  | .waits t =>
    if (k.osTasks t).waitQueue ≠ none then some ⟨k, .guard t⟩ else some ⟨k, .wake t⟩
  | .guard t =>
    if (k.osTasks t).waitQueue = none ∨ (k.osTasks t).waitCount = none then some ⟨k, .result t⟩
    else some ⟨k, .search t 0⟩
  | .search t i =>
    match (k.osTasks t).waitCount with
    | none => some ⟨k, .fault⟩
    | some c => if i < (k.queues c).waitCount then some ⟨k, .compare t i⟩ else some ⟨k, .clearQueue t⟩
  | .compare t i =>
    match (k.osTasks t).waitQueue with
    | none => some ⟨k, .fault⟩
    | some o =>
      if (k.queues o).waitQueue i = t then some ⟨k, .shift t i⟩ else some ⟨k, .search t (i + 1)⟩
  | .shift t j =>
    match (k.osTasks t).waitCount with
    | none => some ⟨k, .fault⟩
    | some c => if j + 1 < (k.queues c).waitCount then some ⟨k, .move t j⟩ else some ⟨k, .decrement t⟩
  | .move t j =>
    match (k.osTasks t).waitQueue with
    | none => some ⟨k, .fault⟩
    | some o =>
      let q := k.queues o
      some ⟨k.setQueue o { q with waitQueue := Function.update q.waitQueue j (q.waitQueue (j + 1)) },
        .shift t (j + 1)⟩
  | .decrement t =>
    match (k.osTasks t).waitCount with
    | none => some ⟨k, .fault⟩
    | some c =>
      let q := k.queues c
      -- the count is a byte
      some ⟨k.setQueue c { q with waitCount := (q.waitCount + 255) % 256 }, .clearQueue t⟩
  | .clearQueue t => some (s.edit t (fun x => { x with waitQueue := none }) (.clearCount t))
  | .clearCount t => some (s.edit t (fun x => { x with waitCount := none }) (.result t))
  | .result t => some (s.edit t (fun x => { x with waitResult := .timeout }) (.wake t))
  | .wake t => some (s.edit t (fun x => { x with state := .ready }) (.next (t + 1)))
  | .yield => some ⟨k.osYield, .finished⟩
  | .finished | .fault => none

end Handler

/-- The handler makes its next statement, or a complete post preempts it. -/
inductive Preemption
  | statement
  | post (x : Nat)
  deriving DecidableEq, Repr

def Handler.next (s : Handler) : Preemption → Option Handler
  | .statement => s.statement
  | .post x => some { s with kernel := s.kernel.osSemaphoreRelease x }

def Handler.Step (s : Handler) (e : Preemption) (t : Handler) : Prop := s.next e = some t

/-- The task that a post of `x` would wake. -/
def Kernel.posted (k : Kernel) (x : Nat) : Option TaskId :=
  k.pickWaiter (k.queues (.semaphore x)).waitQueue (k.queues (.semaphore x)).waitCount

/-- Where `u` comes first in the queue of `x`. -/
def Kernel.place (k : Kernel) (x : Nat) (u : TaskId) : Nat := (k.waiters (.semaphore x)).idxOf u

namespace Handler

/-- Waking `u` from the queue of `x` does no harm at this point. It can do so only while
the handler is taking a task off that queue: when `u` is that task or no longer waits,
when `u` gone the task moves to where the search has been, and when the shift has
still to copy what lies behind the place of `u`. -/
def Safe (k : Kernel) (x : Nat) (u : TaskId) : Pc → Prop
  | .guard t => (k.osTasks t).waitQueue = some (.semaphore x) → u ≠ t
  | .search t i => (k.osTasks t).waitQueue = some (.semaphore x) →
    u ≠ t ∧ ¬ (k.place x u < i ∧ k.place x t = i)
  | .compare t i => (k.osTasks t).waitQueue = some (.semaphore x) →
    u ≠ t ∧ ¬ (k.place x u < i ∧ k.place x t = i ∧ i + 1 < (k.queues (.semaphore x)).waitCount)
  | .shift t j | .move t j => (k.osTasks t).waitQueue = some (.semaphore x) →
    u ≠ t ∧ (k.osTasks u).waitQueue ≠ none ∧
      ¬ (j + 1 < (k.queues (.semaphore x)).waitCount ∧ k.place x u ≤ j)
  | .decrement t => (k.osTasks t).waitQueue = some (.semaphore x) →
    u ≠ t ∧ (k.osTasks u).waitQueue ≠ none
  | _ => True

instance (k : Kernel) (x : Nat) (u : TaskId) : (pc : Pc) → Decidable (Safe k x u pc)
  | .guard _ | .search _ _ | .compare _ _ | .shift _ _ | .move _ _ | .decrement _ =>
    inferInstanceAs (Decidable (_ → _))
  | .enter | .next _ | .sleeping _ | .countDown _ | .waits _ | .clearQueue _ | .clearCount _
    | .result _ | .wake _ | .yield | .finished | .fault => inferInstanceAs (Decidable True)

/-- A post of `x` here wakes nobody, or does so safely. -/
def Harmless (s : Handler) (x : Nat) : Prop :=
  ∀ u, s.kernel.posted x = some u → Safe s.kernel x u s.pc

instance (s : Handler) (x : Nat) : Decidable (s.Harmless x) :=
  inferInstanceAs (Decidable (∀ _, _ → _))

/-- A statement, or a post that does no harm where it strikes. -/
def HarmlessStep (s : Handler) (e : Preemption) (t : Handler) : Prop :=
  s.Step e t ∧ ∀ x, e = .post x → s.Harmless x

end Handler

end Sentinel
