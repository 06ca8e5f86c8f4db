import Sentinel.Kernel.State

/-! Task creation, the scheduler, and start-up (`os_kernel.c`, first half). -/

namespace Sentinel
namespace Kernel

/-- `*(--stk) = word`. -/
def pushWord (frame : (UInt32 → UInt32) × UInt32) (word : UInt32) : (UInt32 → UInt32) × UInt32 :=
  (Function.update frame.1 (frame.2 - 4) word, frame.2 - 4)

/-- The words of the first exception frame in the order they are pushed: xPSR,
PC, LR, R12, R3, R2, R1, R0, then R11 down to R4. -/
def initialFrame (taskptr : UInt32) : List UInt32 :=
  [0x01000000, taskptr, 0xFFFFFFFF, 0x12121212, 0x03030303, 0x02020202, 0x01010101, 0] ++
    List.replicate 8 0

def osTaskInitStack (memory : UInt32 → UInt32) (taskptr stackTop : UInt32) :
    (UInt32 → UInt32) × UInt32 :=
  (initialFrame taskptr).foldl pushWord (memory, stackTop)

def osTaskCreate (taskptr stackBase stackWords : UInt32) (priority : Nat) (k : Kernel) :
    Bool × Kernel :=
  if room : k.taskCount < maxTasks then
    if taskptr = 0 ∨ stackWords < 64 then (false, k) else
      let tcb : TaskId := ⟨k.taskCount, room⟩
      let memory := Function.update k.memory stackBase stackCanary
      let stackTop := (stackBase + 4 * stackWords) &&& ~~~7
      let frame := osTaskInitStack memory taskptr stackTop
      (true, { k with
        osTasks := Function.update k.osTasks tcb
          { stackPtr := frame.2
            state := .ready
            basePriority := priority
            currentPriority := priority
            stackBase := stackBase
            stackSize := stackWords
            sleepTime := 0
            waitQueue := none
            waitCount := none
            waitResult := .success }
        memory := frame.1
        currentTcb := some (k.currentTcb.getD tcb)
        taskCount := k.taskCount + 1
        countLe := room })
  else (false, k)

/-- The condition under which the scheduler considers a task. -/
def Runnable (k : Kernel) (t : TaskId) : Prop :=
  (k.osTasks t).state = .ready ∨ (k.osTasks t).state = .running

instance (k : Kernel) (t : TaskId) : Decidable (k.Runnable t) :=
  inferInstanceAs (Decidable (_ ∨ _))

/-- The slots in the order of the scan: `os_tasks[(start + k) % task_count]`. -/
def scanOrder (k : Kernel) (start : Nat) : List TaskId :=
  (List.finRange k.taskCount).map fun i =>
    Fin.castLE k.countLe ⟨(start + i.val) % k.taskCount, Nat.mod_lt _ i.pos⟩

/-- Where the scan begins: one slot past the current task. -/
def scanStart (k : Kernel) : Nat :=
  match k.currentTcb with
  | some c => c.val + 1
  | none => 0

/-- One iteration of the scan. -/
def scanStep (k : Kernel) (best : Option TaskId) (t : TaskId) : Option TaskId :=
  if k.Runnable t then Cells.better (fun t => (k.osTasks t).currentPriority) best t else best

def best (k : Kernel) : Option TaskId := (k.scanOrder k.scanStart).foldl k.scanStep none

/-- The current task's stack still ends in its tripwire. -/
def CanaryIntact (k : Kernel) : Prop :=
  ∀ c, k.currentTcb = some c → k.memory (k.osTasks c).stackBase = stackCanary

instance (k : Kernel) : Decidable k.CanaryIntact :=
  inferInstanceAs (Decidable (∀ _, _))

/-- The current task, when it is still running, goes back to `READY`. -/
def demoteCurrent (k : Kernel) (best : TaskId) : Kernel :=
  match k.currentTcb with
  | some c =>
    if c ≠ best ∧ (k.osTasks c).state = .running then
      k.setTcb c { k.osTasks c with state := .ready }
    else k
  | none => k

/-- `current_tcb = best`, marked `RUNNING`. -/
def dispatch (k : Kernel) (best : TaskId) : Kernel :=
  let k := k.demoteCurrent best
  { k.setTcb best { k.osTasks best with state := .running } with currentTcb := some best }

/-- `none` is the overflow hook, which never returns. -/
def osScheduler (k : Kernel) : Option Kernel :=
  if k.taskCount = 0 then some k
  else if k.CanaryIntact then
    match k.best with
    | none => some k
    | some b => some (k.dispatch b)
  else none

/-- `os_kernel_init`. The task array is left as it was. -/
def osKernelInit (k : Kernel) : Kernel :=
  { k with
    primask := true
    taskCount := 0
    countLe := Nat.zero_le _
    currentTcb := none
    osTicks := 0
    kernelRunning := false }

/-- `os_kernel_launch`, up to the first instruction of the first task:
`os_start_first_task` ends with `CPSIE I`. -/
def osKernelLaunch (k : Kernel) : Option Kernel :=
  (osScheduler k).map fun k => { k with kernelRunning := true, primask := false }

end Kernel
end Sentinel
