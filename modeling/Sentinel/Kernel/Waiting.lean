import Sentinel.Kernel.Tasks

/-! Parking and waking tasks, the tick, and `os_delay` (`os_kernel.c`). -/

namespace Sentinel
namespace Kernel

@[simps] def setQueue (k : Kernel) (o : Waitable) (q : WaitQueue) : Kernel :=
  { k with queues := Function.update k.queues o q }

/-- The two nested loops of `wait_queue_remove`, on the array of `o` and the
count of `c`. Both pointers of a task lead to the same object in every run. -/
def removeWaiter (task : TaskId) (o c : Waitable) (k : Kernel) : Kernel :=
  let count := (k.queues c).waitCount
  let out := Cells.removeFirst task (k.queues o).waitQueue count 0 count
  let k := k.setQueue o { k.queues o with waitQueue := out.1 }
  k.setQueue c { k.queues c with waitCount := out.2 }

def waitQueueRemove (task : TaskId) (k : Kernel) : Kernel :=
  match (k.osTasks task).waitQueue, (k.osTasks task).waitCount with
  | some o, some c =>
    let k := k.removeWaiter task o c
    k.setTcb task { k.osTasks task with waitQueue := none, waitCount := none }
  | _, _ => k

/-- `pick_waiter`: the loop keeps the first entry of the greatest priority. -/
def pickWaiter (k : Kernel) (queue : Nat → TaskId) (count : Nat) : Option TaskId :=
  (Cells.contents queue count).foldl (Cells.better fun t => (k.osTasks t).currentPriority) none

/-- `wake_task`: hands a blocked task what it was waiting for. -/
def wakeTask (task : TaskId) (k : Kernel) : Kernel :=
  let k := k.waitQueueRemove task
  k.setTcb task { k.osTasks task with sleepTime := 0, waitResult := .success, state := .ready }

/-- `block_current`, called with a current task. `none` is its `false`. -/
def blockCurrent (current : TaskId) (o : Waitable) (max : Nat) (timeout : UInt32) (k : Kernel) :
    Option Kernel :=
  let q := k.queues o
  if q.waitCount ≥ max then none else
    let k := k.setQueue o
      { waitQueue := Function.update q.waitQueue q.waitCount current
        waitCount := q.waitCount + 1 }
    some (k.setTcb current { k.osTasks current with
      waitQueue := some o
      waitCount := some o
      waitResult := .success
      sleepTime := if timeout = waitForever then 0 else timeout
      state := .blocked })

/-- The body of the loop in `SysTick_Handler` for one task. -/
def tickTask (k : Kernel) (t : TaskId) : Kernel :=
  if (k.osTasks t).sleepTime = 0 then k else
    let k := k.setTcb t { k.osTasks t with sleepTime := (k.osTasks t).sleepTime - 1 }
    if (k.osTasks t).sleepTime = 0 then
      let k :=
        if (k.osTasks t).waitQueue ≠ none then
          let k := k.waitQueueRemove t
          k.setTcb t { k.osTasks t with waitResult := .timeout }
        else k
      k.setTcb t { k.osTasks t with state := .ready }
    else k

def sysTickHandler (k : Kernel) : Kernel :=
  let k := { k with osTicks := k.osTicks + 1 }
  (k.slots.foldl tickTask k).osYield

/-- `os_delay`: `none` is a NULL `current_tcb`; the flag says whether the caller parked. -/
def osDelay (ms : UInt32) (k : Kernel) : Option (Bool × Kernel) :=
  if ¬ k.kernelRunning ∨ ms = 0 then some (false, k) else
    let (primask, k) := k.osEnterCritical
    k.currentTcb.map fun c =>
      let k := k.setTcb c { k.osTasks c with
        sleepTime := ms
        waitQueue := none
        waitCount := none
        state := .blocked }
      (true, (k.osExitCritical primask).osYield)

end Kernel
end Sentinel
