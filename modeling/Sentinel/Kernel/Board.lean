import Sentinel.Kernel.System
import Sentinel.Lib.Cyclic

/-! What the kernel is for, without arrays, masks and loops: a board that shows
who runs, who waits for what and in which order, and which call a waiting task
is in. A tick moves all timers at once. -/

namespace Sentinel

@[ext] structure Board where
  taskCount : Nat
  tcb : TaskId → Tcb
  current : Option TaskId
  launched : Bool
  mutexes : Nat → OsMutex
  semaphores : Nat → OsSemaphore
  waiters : Waitable → List TaskId
  inside : TaskId → Option Call
  switch : Bool

namespace Board

def Live (b : Board) (t : TaskId) : Prop := t.val < b.taskCount

def Runs (b : Board) (t : TaskId) : Prop := b.current = some t ∧ (b.tcb t).state = .running

abbrev priority (b : Board) (t : TaskId) : Nat := (b.tcb t).currentPriority

/-- The first of the waiters of greatest priority. -/
def first (b : Board) (o : Waitable) : Option TaskId := (b.waiters o).argmax b.priority

def park (b : Board) (t : TaskId) (o : Waitable) (timeout : UInt32) (c : Call) : Board :=
  { b with
    waiters := Function.update b.waiters o (b.waiters o ++ [t])
    tcb := Function.update b.tcb t { b.tcb t with
      waitQueue := some o
      waitCount := some o
      waitResult := .success
      sleepTime := if timeout = waitForever then 0 else timeout
      state := .blocked }
    inside := Function.update b.inside t (some c)
    switch := true }

/-- The waiting task gets what it waits for. -/
def grant (b : Board) (t : TaskId) : Board :=
  { b with
    waiters := fun o => (b.waiters o).erase t
    tcb := Function.update b.tcb t { b.tcb t with
      waitQueue := none
      waitCount := none
      sleepTime := 0
      waitResult := .success
      state := .ready }
    switch := true }

/-- The owner runs at least at the priority of the caller. -/
def lend (b : Board) (owner caller : TaskId) : Board :=
  { b with
    tcb := Function.update b.tcb owner
      { b.tcb owner with currentPriority := max (b.priority owner) (b.priority caller) } }

/-- The owner of `m`, if there is one, is back at its base priority. -/
def settle (b : Board) (m : Nat) : Board :=
  match (b.mutexes m).owner with
  | some owner =>
    { b with
      tcb := Function.update b.tcb owner
        { b.tcb owner with currentPriority := (b.tcb owner).basePriority } }
  | none => b

def setMutex (b : Board) (m : Nat) (x : OsMutex) : Board :=
  { b with mutexes := Function.update b.mutexes m x }

def setCount (b : Board) (x n : Nat) : Board :=
  { b with
    semaphores := Function.update b.semaphores x { b.semaphores x with count := n } }

def sleep (b : Board) (t : TaskId) (ms : UInt32) (c : Call) : Board :=
  { b with
    tcb := Function.update b.tcb t { b.tcb t with
      sleepTime := ms
      waitQueue := none
      waitCount := none
      state := .blocked }
    inside := Function.update b.inside t (some c)
    switch := true }

/-- The timer of the task runs out at the next tick. -/
def Due (b : Board) (t : TaskId) : Prop := b.Live t ∧ (b.tcb t).sleepTime = 1

instance (b : Board) (t : TaskId) : Decidable (b.Live t) := inferInstanceAs (Decidable (_ < _))
instance (b : Board) (t : TaskId) : Decidable (b.Due t) := inferInstanceAs (Decidable (_ ∧ _))

/-- One tick for the control block of one task. -/
def elapse (x : Tcb) : Tcb :=
  if x.sleepTime = 0 then x
  else if x.sleepTime = 1 then
    { x with
      sleepTime := 0
      waitQueue := none
      waitCount := none
      waitResult := if x.waitQueue = none then x.waitResult else .timeout
      state := .ready }
  else { x with sleepTime := x.sleepTime - 1 }

def tick (b : Board) : Board :=
  { b with
    tcb := fun t => if b.Live t then elapse (b.tcb t) else b.tcb t
    waiters := fun o => (b.waiters o).filter fun t => ¬ b.Due t
    switch := true }

def dispatch (b : Board) (best : TaskId) : Board :=
  { b with
    current := some best
    tcb := fun t =>
      if t = best then { b.tcb t with state := .running }
      else if b.current = some t ∧ (b.tcb t).state = .running then
        { b.tcb t with state := .ready }
      else b.tcb t
    switch := false }

/-- The tasks the scheduler considers. -/
def Runnable (b : Board) (t : TaskId) : Prop :=
  (b.tcb t).state = .ready ∨ (b.tcb t).state = .running

/-- The slot from which a scan starts: the one past the current task's. -/
def scanStart (b : Board) : Nat := b.current.elim 0 fun c => c.val + 1

/-- How many slots a scan passes before it meets `t`. -/
def lag (b : Board) (t : TaskId) : Nat := Cyclic.offset b.scanStart b.taskCount t.val

/-- The scheduler's choice: greatest priority, then nearest in the scan. -/
structure Picks (b : Board) (best : TaskId) : Prop where
  live : b.Live best
  runnable : b.Runnable best
  greatest : ∀ t, b.Live t → b.Runnable t → b.priority t ≤ b.priority best
  nearest : ∀ t, b.Live t → b.Runnable t → b.priority t = b.priority best → b.lag best ≤ b.lag t

/-- The event posts semaphore `x`, from the running task or from an interrupt. -/
def Posts (b : Board) (e : Event) (x : Nat) : Prop :=
  e = .post x ∨
    ∃ t, e = .call t (.semaphoreRelease x) .finished ∧ b.Runs t ∧ b.inside t = none

section
variable (x : Tcb)

@[simp] theorem elapse_state :
    (elapse x).state = if x.sleepTime = 1 then .ready else x.state := by
  unfold elapse
  split_ifs <;> simp_all

@[simp] theorem elapse_sleepTime :
    (elapse x).sleepTime = if x.sleepTime = 0 then 0 else x.sleepTime - 1 := by
  unfold elapse
  split_ifs with h h' <;> simp_all

@[simp] theorem elapse_waitQueue :
    (elapse x).waitQueue = if x.sleepTime = 1 then none else x.waitQueue := by
  unfold elapse
  split_ifs <;> simp_all

@[simp] theorem elapse_waitCount :
    (elapse x).waitCount = if x.sleepTime = 1 then none else x.waitCount := by
  unfold elapse
  split_ifs <;> simp_all

@[simp] theorem elapse_waitResult : (elapse x).waitResult =
    if x.sleepTime = 1 ∧ x.waitQueue ≠ none then .timeout else x.waitResult := by
  unfold elapse
  split_ifs <;> simp_all

@[simp] theorem elapse_currentPriority : (elapse x).currentPriority = x.currentPriority := by
  unfold elapse
  split_ifs <;> rfl

@[simp] theorem elapse_basePriority : (elapse x).basePriority = x.basePriority := by
  unfold elapse
  split_ifs <;> rfl

end

theorem dispatch_tcb (b : Board) (best t : TaskId) :
    (b.dispatch best).tcb t = { b.tcb t with
      state := if t = best then .running
        else if b.current = some t ∧ (b.tcb t).state = .running then .ready
        else (b.tcb t).state } := by
  simp only [dispatch]
  split_ifs <;> rfl

end Board

/-- What one step does to the board. `Soundness` shows that nothing else happens. -/
inductive BoardStep (idle : TaskId) : Board → Event → Board → Prop
  | lock {b t m n} (runs : b.Runs t) (free : b.inside t = none) (opened : (b.mutexes m).lock = 0) :
      BoardStep idle b (.call t (.mutexAcquire m n) (.returned .success))
        (b.setMutex m ⟨1, some t⟩)
  | reenter {b t m n} (runs : b.Runs t) (free : b.inside t = none) (own : (b.mutexes m).owner = some t) :
      BoardStep idle b (.call t (.mutexAcquire m n) (.returned .fail)) b
  | pollMutex {b t m} (runs : b.Runs t) (free : b.inside t = none) (locked : (b.mutexes m).lock ≠ 0)
      (other : (b.mutexes m).owner ≠ some t) :
      BoardStep idle b (.call t (.mutexAcquire m 0) (.returned .timeout)) b
  | waitMutex {b t m n owner} (runs : b.Runs t) (free : b.inside t = none)
      (locked : (b.mutexes m).lock ≠ 0) (held : (b.mutexes m).owner = some owner)
      (other : owner ≠ t) (patient : n ≠ 0) (awake : t ≠ idle) :
      BoardStep idle b (.call t (.mutexAcquire m n) .parked)
        ((b.lend owner t).park t (.mutex m) n (.mutexAcquire m n))
  | unlock {b t m} (runs : b.Runs t) (free : b.inside t = none) (nobody : b.waiters (.mutex m) = []) :
      BoardStep idle b (.call t (.mutexRelease m) .finished)
        ((b.settle m).setMutex m ⟨0, none⟩)
  | handOver {b t m next} (runs : b.Runs t) (free : b.inside t = none)
      (found : (b.settle m).first (.mutex m) = some next) :
      BoardStep idle b (.call t (.mutexRelease m) .finished)
        (((b.settle m).setMutex m ⟨(b.mutexes m).lock, some next⟩).grant next)
  | take {b t x n} (runs : b.Runs t) (free : b.inside t = none) (token : 0 < (b.semaphores x).count) :
      BoardStep idle b (.call t (.semaphoreAcquire x n) (.returned .success))
        (b.setCount x ((b.semaphores x).count - 1))
  | pollSemaphore {b t x} (runs : b.Runs t) (free : b.inside t = none)
      (empty : (b.semaphores x).count = 0) :
      BoardStep idle b (.call t (.semaphoreAcquire x 0) (.returned .timeout)) b
  | waitSemaphore {b t x n} (runs : b.Runs t) (free : b.inside t = none)
      (empty : (b.semaphores x).count = 0) (patient : n ≠ 0) (awake : t ≠ idle) :
      BoardStep idle b (.call t (.semaphoreAcquire x n) .parked)
        (b.park t (.semaphore x) n (.semaphoreAcquire x n))
  | hand {b e x next} (posts : b.Posts e x) (found : b.first (.semaphore x) = some next) :
      BoardStep idle b e (b.grant next)
  | put {b e x} (posts : b.Posts e x) (nobody : b.waiters (.semaphore x) = [])
      (room : (b.semaphores x).count < (b.semaphores x).maxCount) :
      BoardStep idle b e (b.setCount x ((b.semaphores x).count + 1))
  | drop {b e x} (posts : b.Posts e x) (nobody : b.waiters (.semaphore x) = [])
      (full : (b.semaphores x).maxCount ≤ (b.semaphores x).count) :
      BoardStep idle b e b
  | sleep {b t ms} (runs : b.Runs t) (free : b.inside t = none) (patient : ms ≠ 0) (awake : t ≠ idle) :
      BoardStep idle b (.call t (.delay ms) .parked) (b.sleep t ms (.delay ms))
  | noSleep {b t} (runs : b.Runs t) (free : b.inside t = none) :
      BoardStep idle b (.call t (.delay 0) .finished) b
  | resume {b t c} (runs : b.Runs t) (parked : b.inside t = some c) :
      BoardStep idle b (.resume t c (c.result (b.tcb t)))
        { b with inside := Function.update b.inside t none }
  | tick {b} : BoardStep idle b .tick b.tick
  | pass {b best} (picks : b.Picks best) :
      BoardStep idle b .pass (b.dispatch best)

end Sentinel
