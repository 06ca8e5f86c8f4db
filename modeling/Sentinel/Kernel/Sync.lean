import Sentinel.Kernel.Waiting

/-! Mutexes and semaphores (`os_kernel.c`, second half). A function is `none`
where the C code would read through a NULL pointer. -/

namespace Sentinel

/-- How far a call gets before control leaves its task: a code is returned, a
function without one has ended, or the caller is parked and a switch requested.
A parked call returns `current_tcb->wait_result` once its task runs again. -/
inductive Outcome
  | returned (code : Code)
  | finished
  | parked
  deriving DecidableEq, Repr

namespace Kernel

def osMutexInit (m : Nat) (k : Kernel) : Kernel :=
  (k.setMutex m { lock := 0, owner := none }).setQueue (.mutex m)
    { k.queues (.mutex m) with waitCount := 0 }

/-- Priority inheritance: the owner is lent the caller's priority if it is greater. -/
def donate (owner current : TaskId) (k : Kernel) : Kernel :=
  if (k.osTasks current).currentPriority > (k.osTasks owner).currentPriority then
    k.setTcb owner { k.osTasks owner with currentPriority := (k.osTasks current).currentPriority }
  else k

def osMutexAcquire (m : Nat) (timeout : UInt32) (k : Kernel) : Option (Outcome × Kernel) :=
  let (primask, k) := k.osEnterCritical
  if (k.mutexes m).lock = 0 then
    some (.returned .success,
      (k.setMutex m { lock := 1, owner := k.currentTcb }).osExitCritical primask)
  else if (k.mutexes m).owner = k.currentTcb then
    some (.returned .fail, k.osExitCritical primask)
  else if timeout = 0 ∨ ¬ k.kernelRunning then
    some (.returned .timeout, k.osExitCritical primask)
  else
    match k.currentTcb, (k.mutexes m).owner with
    | some current, some owner =>
      let k := k.donate owner current
      match k.blockCurrent current (.mutex m) maxWaitingTasks timeout with
      | none => some (.returned .fail, k.osExitCritical primask)
      | some k => some (.parked, (k.osExitCritical primask).osYield)
    | _, _ => none

/-- Drops whatever priority the owner had been lent. -/
def dropDonation (m : Nat) (k : Kernel) : Kernel :=
  match (k.mutexes m).owner with
  | some owner =>
    k.setTcb owner { k.osTasks owner with currentPriority := (k.osTasks owner).basePriority }
  | none => k

def osMutexRelease (m : Nat) (k : Kernel) : Kernel :=
  let (primask, k) := k.osEnterCritical
  let k := k.dropDonation m
  match k.pickWaiter (k.queues (.mutex m)).waitQueue (k.queues (.mutex m)).waitCount with
  | some next =>
    let k := k.setMutex m { k.mutexes m with owner := some next }
    ((k.wakeTask next).osExitCritical primask).osYield
  | none => (k.setMutex m { lock := 0, owner := none }).osExitCritical primask

def osSemaphoreInit (x initial maxCount : Nat) (k : Kernel) : Kernel :=
  (k.setSemaphore x { count := initial, maxCount := maxCount }).setQueue (.semaphore x)
    { k.queues (.semaphore x) with waitCount := 0 }

def osSemaphoreAcquire (x : Nat) (timeout : UInt32) (k : Kernel) : Option (Outcome × Kernel) :=
  let (primask, k) := k.osEnterCritical
  let s := k.semaphores x
  if s.count > 0 then
    some (.returned .success,
      (k.setSemaphore x { s with count := s.count - 1 }).osExitCritical primask)
  else if timeout = 0 ∨ ¬ k.kernelRunning then
    some (.returned .timeout, k.osExitCritical primask)
  else
    k.currentTcb.map fun current =>
      match k.blockCurrent current (.semaphore x) maxTasks timeout with
      | none => (.returned .fail, k.osExitCritical primask)
      | some k => (.parked, (k.osExitCritical primask).osYield)

def osSemaphoreRelease (x : Nat) (k : Kernel) : Kernel :=
  let (primask, k) := k.osEnterCritical
  match k.pickWaiter (k.queues (.semaphore x)).waitQueue (k.queues (.semaphore x)).waitCount with
  | some next => ((k.wakeTask next).osExitCritical primask).osYield
  | none =>
    let s := k.semaphores x
    (if s.count < s.maxCount then k.setSemaphore x { s with count := s.count + 1 }
      else k).osExitCritical primask

end Kernel
end Sentinel
