import Sentinel.Lib.Run
import Sentinel.Kernel.Sync

/-! The running system: tasks that make kernel calls one at a time, the tick,
interrupt handlers that post semaphores, and scheduler passes, in any order.
Each is atomic. A task that has parked makes no step until a pass has marked it
`RUNNING` again; its next step is then the return from the call it parked in. -/

namespace Sentinel

open Runs (Transition Run)

/-- The kernel calls a task can make. -/
inductive Call
  | mutexAcquire (m : Nat) (timeout : UInt32)
  | mutexRelease (m : Nat)
  | semaphoreAcquire (x : Nat) (timeout : UInt32)
  | semaphoreRelease (x : Nat)
  | delay (ms : UInt32)
  deriving DecidableEq, Repr

/-- A call from its first instruction to the point where control leaves its task. -/
def Call.exec : Call → Kernel → Option (Outcome × Kernel)
  | .mutexAcquire m timeout, k => k.osMutexAcquire m timeout
  | .mutexRelease m, k => some (.finished, k.osMutexRelease m)
  | .semaphoreAcquire x timeout, k => k.osSemaphoreAcquire x timeout
  | .semaphoreRelease x, k => some (.finished, k.osSemaphoreRelease x)
  | .delay ms, k => (k.osDelay ms).map fun out => (if out.1 then .parked else .finished, out.2)

/-- What a parked call hands back when its task runs again. -/
def Call.result : Call → Tcb → Outcome
  | .mutexAcquire _ _, tcb | .semaphoreAcquire _ _, tcb => .returned tcb.waitResult
  | _, _ => .finished

structure System where
  kernel : Kernel
  /-- The call in which a task is parked, until that call returns. -/
  inside : TaskId → Option Call

namespace System

/-- The task that executes: the current one, once a pass has dispatched it. -/
def Runs (s : System) (t : TaskId) : Prop :=
  s.kernel.currentTcb = some t ∧ (s.kernel.osTasks t).state = .running

instance (s : System) (t : TaskId) : Decidable (s.Runs t) := inferInstanceAs (Decidable (_ ∧ _))

end System

inductive Event
  | call (t : TaskId) (c : Call) (out : Outcome)
  | resume (t : TaskId) (c : Call) (out : Outcome)
  | post (x : Nat)
  | tick
  | pass
  deriving DecidableEq, Repr

/-- The event hands `code` back to `t` from `c`, at once or after a wait. -/
def Event.Returns (e : Event) (t : TaskId) (c : Call) (code : Code) : Prop :=
  e = .call t c (.returned code) ∨ e = .resume t c (.returned code)

/-- One step. `idle` is a task that never parks. -/
inductive Step (idle : TaskId) : System → Event → System → Prop
  | call {s : System} {t : TaskId} {c : Call} {out : Outcome} {k : Kernel}
      (runs : s.Runs t) (unmasked : s.kernel.primask = false) (free : s.inside t = none)
      (exec : c.exec s.kernel = some (out, k)) (awake : out = .parked → t ≠ idle) :
      Step idle s (.call t c out)
        ⟨k, if out = .parked then Function.update s.inside t (some c) else s.inside⟩
  | resume {s : System} {t : TaskId} {c : Call}
      (runs : s.Runs t) (parked : s.inside t = some c) :
      Step idle s (.resume t c (c.result (s.kernel.osTasks t)))
        ⟨s.kernel, Function.update s.inside t none⟩
  | post {s : System} (x : Nat) :
      Step idle s (.post x) { s with kernel := s.kernel.osSemaphoreRelease x }
  | tick {s : System} : Step idle s .tick { s with kernel := s.kernel.sysTickHandler }
  | pass {s : System} {k : Kernel}
      (picks : Kernel.osScheduler { s.kernel with pendSv := false } = some k) :
      Step idle s .pass { s with kernel := k }

/-- The kernel as `main` leaves it: tasks created, nobody parked. A mutex may have
been taken by then, even while there was no task yet. `os_kernel_init` and
`os_task_create` establish this, and calls made before the launch keep it. -/
structure ReadyToLaunch (k : Kernel) : Prop where
  current : ∃ c, k.currentTcb = some c ∧ k.Live c
  awake : ∀ t, k.Live t → (k.osTasks t).state = .ready ∨
    (k.osTasks t).state = .running ∧ k.currentTcb = some t
  timer : ∀ t, k.Live t → (k.osTasks t).sleepTime = 0
  apart : ∀ t, k.Live t → (k.osTasks t).waitQueue = none ∧ (k.osTasks t).waitCount = none
  priority : ∀ t, k.Live t → (k.osTasks t).currentPriority = (k.osTasks t).basePriority
  mutex : ∀ m, k.mutexes m = ⟨0, none⟩ ∨
    ∃ owner, k.mutexes m = ⟨1, owner⟩ ∧ ∀ t, owner = some t → k.Live t
  nobody : ∀ o, (k.queues o).waitCount = 0

/-- The start of every run: `os_kernel_launch` has just dispatched the first task. -/
def Launched (idle : TaskId) (s : System) : Prop :=
  ∃ k, ReadyToLaunch k ∧ k.Live idle ∧ k.osKernelLaunch = some s.kernel ∧ ∀ t, s.inside t = none

/-- Every run of the system, and the runs that keep to a rule about which
events may happen in which state. -/
abbrev Trace (idle : TaskId) := Run (Launched idle) (Step idle)

abbrev History := List (Transition System Event)

def Ruled (rule : System → Event → Prop) (idle : TaskId) (s : System) (e : Event) (t : System) :
    Prop := Step idle s e t ∧ rule s e

theorem Ruled.trace {rule : System → Event → Prop} {idle : TaskId} {past : History} {s : System}
    (run : Run (Launched idle) (Ruled rule idle) past s) : Trace idle past s :=
  run.weaken (fun _ h => h) fun _ _ _ h => h.1

end Sentinel
