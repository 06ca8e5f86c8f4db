import Mathlib.Data.Fin.Basic
import Mathlib.Data.Fintype.Basic
import Mathlib.Data.Fintype.Card
import Sentinel.Lib.Cells

/-! The kernel's data: task control blocks, mutexes, semaphores, and the
machine words the C code reads and writes. Priorities and counts are naturals,
since no operation moves one past its bound; ticks and timeouts are 32-bit words. -/

namespace Sentinel

abbrev maxTasks : Nat := 6
def maxWaitingTasks : Nat := 5
def stackCanary : UInt32 := 0xC0FFEE
def waitForever : UInt32 := 0xFFFFFFFF

/-- A pointer into `os_tasks`. -/
abbrev TaskId := Fin maxTasks

instance : LawfulBEq TaskId := inferInstance

inductive TaskState
  | ready | running | blocked | suspended
  deriving DecidableEq, Repr

/-- `OS_SUCCESS`, `OS_TIMEOUT` and `OS_FAIL`. -/
inductive Code
  | success | timeout | fail
  deriving DecidableEq, Repr

/-- What a task can be parked on. The pointers `TCB_t **wait_queue` and
`uint8_t *wait_count` of a task lead to the array and the count of one of these. -/
inductive Waitable
  | mutex (m : Nat)
  | semaphore (x : Nat)
  deriving DecidableEq, Repr

structure Tcb where
  stackPtr : UInt32
  state : TaskState
  basePriority : Nat
  currentPriority : Nat
  stackBase : UInt32
  stackSize : UInt32
  sleepTime : UInt32
  waitQueue : Option Waitable
  waitCount : Option Waitable
  waitResult : Code
  deriving DecidableEq, Repr

/-- The array `wait_queue[]` of an object and its `wait_count`. -/
structure WaitQueue where
  waitQueue : Nat → TaskId
  waitCount : Nat

structure OsMutex where
  lock : Nat
  owner : Option TaskId
  deriving DecidableEq, Repr

structure OsSemaphore where
  count : Nat
  maxCount : Nat
  deriving DecidableEq, Repr

/-- The statics of the kernel, the objects its callers own, `PRIMASK`, the
pending bit of PendSV, and the memory that holds the stacks. The wait queues are
kept in one table, because tasks point at them. -/
structure Kernel where
  osTasks : TaskId → Tcb
  taskCount : Nat
  countLe : taskCount ≤ maxTasks
  currentTcb : Option TaskId
  osTicks : UInt32
  kernelRunning : Bool
  mutexes : Nat → OsMutex
  semaphores : Nat → OsSemaphore
  queues : Waitable → WaitQueue
  primask : Bool
  pendSv : Bool
  memory : UInt32 → UInt32

namespace Kernel

/-- The slots `os_tasks[0 .. task_count)`, in order. -/
def slots (k : Kernel) : List TaskId := (List.finRange k.taskCount).map (Fin.castLE k.countLe)

/-- The task exists: its slot is below `task_count`. -/
def Live (k : Kernel) (t : TaskId) : Prop := t.val < k.taskCount

instance (k : Kernel) (t : TaskId) : Decidable (k.Live t) := inferInstanceAs (Decidable (_ < _))

theorem mem_slots {k : Kernel} {t : TaskId} : t ∈ k.slots ↔ k.Live t := by
  simp only [slots, Live, List.mem_map, List.mem_finRange, true_and]
  constructor
  · rintro ⟨i, rfl⟩
    exact i.isLt
  · intro h
    exact ⟨⟨t.val, h⟩, rfl⟩

theorem slots_nodup (k : Kernel) : k.slots.Nodup :=
  (List.nodup_finRange _).map (Fin.castLE_injective k.countLe)

/-- `wait_queue[0 .. wait_count)` of an object. -/
def waiters (k : Kernel) (o : Waitable) : List TaskId :=
  Cells.contents (k.queues o).waitQueue (k.queues o).waitCount

@[simps] def setTcb (k : Kernel) (t : TaskId) (x : Tcb) : Kernel :=
  { k with osTasks := Function.update k.osTasks t x }

@[simps] def setMutex (k : Kernel) (m : Nat) (x : OsMutex) : Kernel :=
  { k with mutexes := Function.update k.mutexes m x }

@[simps] def setSemaphore (k : Kernel) (x : Nat) (s : OsSemaphore) : Kernel :=
  { k with semaphores := Function.update k.semaphores x s }

/-- `os_enter_critical`: masks interrupts and hands back the former mask. -/
def osEnterCritical (k : Kernel) : Bool × Kernel := (k.primask, { k with primask := true })

@[simps] def osExitCritical (primask : Bool) (k : Kernel) : Kernel := { k with primask := primask }

/-- `os_yield`: sets the pending bit of PendSV. -/
@[simps] def osYield (k : Kernel) : Kernel := { k with pendSv := true }

@[simp] theorem setTcb_waiters (k : Kernel) (t : TaskId) (x : Tcb) :
    (k.setTcb t x).waiters = k.waiters := rfl

@[simp] theorem setMutex_waiters (k : Kernel) (m : Nat) (x : OsMutex) :
    (k.setMutex m x).waiters = k.waiters := rfl

@[simp] theorem setSemaphore_waiters (k : Kernel) (x : Nat) (s : OsSemaphore) :
    (k.setSemaphore x s).waiters = k.waiters := rfl

end Kernel

end Sentinel
