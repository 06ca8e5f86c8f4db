import Sentinel.Queue.Lock
import Sentinel.Queue.Sequential
import Sentinel.Scheduler.Decision
import Sentinel.Switch.Calls
import Sentinel.Switch.Frames

/-! Between `os_kernel_init` and `os_kernel_launch`. `main` alone is running, with interrupts
masked, and the kernel refuses to block. -/

namespace Sentinel

open Runs (Transition Run)

/-- The object whose wait queue a call may look at. -/
def Call.waitable : Call → Option Waitable
  | .mutexAcquire m _ | .mutexRelease m => some (.mutex m)
  | .semaphoreAcquire x _ | .semaphoreRelease x => some (.semaphore x)
  | .delay _ => none

def OsMessageQueue.objects (q : OsMessageQueue) : List Waitable :=
  [.mutex q.lock, .semaphore q.emptySlots, .semaphore q.filledSlots]

/-- The kernel, the queues, and which objects have been initialised. -/
structure Startup where
  kernel : Kernel
  rings : Nat → OsMessageQueue
  fresh : Waitable → Bool

/-- What `main` can call. -/
inductive Action
  | create (taskptr stackBase stackWords : UInt32) (priority : Nat)
  | initMutex (m : Nat)
  | initSemaphore (x initial maxCount : Nat)
  | initQueue (i : Nat) (buffer : Nat → UInt32) (capacity : Nat)
  | kernel (c : Call)
  | queue (i : Nat) (op : Operation)
  | schedule

inductive Answer
  | done
  | created (success : Bool)
  | kernel (out : Outcome)
  | queue (reply : Reply)
  deriving DecidableEq, Repr

namespace Startup

/-- A call to its return. `none` stands for the overflow hook, a NULL pointer that is read
through, or a queue call that waits. -/
def perform (s : Startup) : Action → Option (Answer × Startup)
  | .create taskptr stackBase stackWords priority =>
    let out := s.kernel.osTaskCreate taskptr stackBase stackWords priority
    some (.created out.1, { s with kernel := out.2 })
  | .initMutex m =>
    some (.done, { s with
      kernel := s.kernel.osMutexInit m
      fresh := Function.update s.fresh (.mutex m) true })
  | .initSemaphore x initial maxCount =>
    some (.done, { s with
      kernel := s.kernel.osSemaphoreInit x initial maxCount
      fresh := Function.update s.fresh (.semaphore x) true })
  | .initQueue i buffer capacity =>
    let out := osQueueInit (s.rings i) buffer capacity s.kernel
    some (.done,
      { kernel := out.2
        rings := Function.update s.rings i out.1
        fresh := fun o => s.fresh o || o ∈ out.1.objects })
  | .kernel c => (c.exec s.kernel).map fun out => (.kernel out.1, { s with kernel := out.2 })
  | .queue i op =>
    (osQueueCall op (s.rings i) s.kernel).map fun out => (.queue out.1,
      { s with kernel := out.2.2, rings := Function.update s.rings i out.2.1 })
  | .schedule => s.kernel.osScheduler.map fun k => (.done, { s with kernel := k })

/-- Objects are initialised before they are used. -/
def allows (s : Startup) : Action → Prop
  | .kernel c => ∀ o, c.waitable = some o → s.fresh o
  | .queue i _ => ∀ o ∈ (s.rings i).objects, s.fresh o
  | _ => True

/-- The array handed to `os_task_create` is word-aligned, does not wrap, and meets no stack
that is there already. -/
structure OwnStack (k : Kernel) (stackBase stackWords : UInt32) : Prop where
  aligned : stackBase.toNat % 4 = 0
  fits : stackBase.toNat + 4 * stackWords.toNat ≤ 2 ^ 32
  apart : ∀ i < stackWords.toNat, ∀ t, k.Live t → ¬ k.InStack t (Words.slot stackBase i)

end Startup

/-- A call that has returned, with its answer. -/
def StartupStep (s : Startup) (e : Action × Answer) (t : Startup) : Prop :=
  s.allows e.1 ∧ s.perform e.1 = some (e.2, t)

/-- `os_kernel_init` has just returned. -/
def Initial (s : Startup) : Prop :=
  (∃ k : Kernel, s.kernel = k.osKernelInit) ∧ ∀ o, s.fresh o = false

/-- Every sequence of calls before the launch. -/
abbrev Bringup := Run Initial StartupStep

namespace Kernel

/-- No task is parked or chosen, no stack is touched, no switch is requested, and no wait queue
gets an entry. -/
structure Uneventful (k k' : Kernel) : Prop where
  handles : k.Handles k'
  calm : k.Calm (fun _ => False) k'
  kernelRunning : k'.kernelRunning = k.kernelRunning
  pendSv : k'.pendSv = k.pendSv
  entries : ∀ o, (k'.queues o).waitQueue = (k.queues o).waitQueue ∧
    (k'.queues o).waitCount ≤ (k.queues o).waitCount

section
variable {k k' k'' : Kernel} {c : Call}

theorem Uneventful.refl (k : Kernel) : k.Uneventful k :=
  ⟨.refl k, .refl k, rfl, rfl, fun _ => ⟨rfl, Nat.le_refl _⟩⟩

theorem Uneventful.trans (first : k.Uneventful k') (second : k'.Uneventful k'') :
    k.Uneventful k'' where
  handles := first.handles.trans second.handles
  calm := first.calm.trans second.calm
  kernelRunning := second.kernelRunning.trans first.kernelRunning
  pendSv := second.pendSv.trans first.pendSv
  entries o := ⟨(second.entries o).1.trans (first.entries o).1,
    (second.entries o).2.trans (first.entries o).2⟩

theorem Uneventful.nobody (uneventful : k.Uneventful k') {o : Waitable}
    (nobody : (k.queues o).waitCount = 0) : (k'.queues o).waitCount = 0 := by
  have fewer := (uneventful.entries o).2
  omega

/-- The wait queue of one object is emptied. -/
theorem Uneventful.clear (k : Kernel) (o : Waitable) :
    k.Uneventful (k.setQueue o { k.queues o with waitCount := 0 }) := by
  refine ⟨.of_tasks rfl rfl rfl rfl, .of_tasks rfl rfl rfl, rfl, rfl, ?_⟩
  intro o'
  by_cases self : o' = o
  · subst self
    simp
  · simp [self]

theorem osMutexInit_uneventful (k : Kernel) (m : Nat) : k.Uneventful (k.osMutexInit m) := by
  have assigned : k.Uneventful (k.setMutex m ⟨0, none⟩) :=
    ⟨.of_tasks rfl rfl rfl rfl, .of_tasks rfl rfl rfl, rfl, rfl, fun _ => ⟨rfl, Nat.le_refl _⟩⟩
  exact assigned.trans (.clear _ _)

theorem osSemaphoreInit_uneventful (k : Kernel) (x initial maxCount : Nat) :
    k.Uneventful (k.osSemaphoreInit x initial maxCount) := by
  have assigned : k.Uneventful (k.setSemaphore x ⟨initial, maxCount⟩) :=
    ⟨.of_tasks rfl rfl rfl rfl, .of_tasks rfl rfl rfl, rfl, rfl, fun _ => ⟨rfl, Nat.le_refl _⟩⟩
  exact assigned.trans (.clear _ _)

theorem exec_reacquire {m : Nat} {timeout : UInt32} (locked : (k.mutexes m).lock ≠ 0)
    (own : (k.mutexes m).owner = k.currentTcb) :
    (Call.mutexAcquire m timeout).exec k = some (.returned .fail, k) := by
  simp [Call.exec, osMutexAcquire, osEnterCritical, locked, own, osExitCritical]

/-- The refusal comes before the owner's priority is read. -/
theorem exec_contended {m : Nat} {timeout : UInt32} (off : k.kernelRunning = false)
    (locked : (k.mutexes m).lock ≠ 0) (other : (k.mutexes m).owner ≠ k.currentTcb) :
    (Call.mutexAcquire m timeout).exec k = some (.returned .timeout, k) := by
  have refused : timeout = 0 ∨ k.kernelRunning = false := .inr off
  simp [Call.exec, osMutexAcquire, osEnterCritical, refused, locked, other, osExitCritical]

theorem exec_exhausted {x : Nat} {timeout : UInt32} (off : k.kernelRunning = false)
    (empty : (k.semaphores x).count = 0) :
    (Call.semaphoreAcquire x timeout).exec k = some (.returned .timeout, k) := by
  have refused : timeout = 0 ∨ k.kernelRunning = false := .inr off
  simp [Call.exec, osSemaphoreAcquire, osEnterCritical, refused, empty, osExitCritical]

theorem exec_spill {x : Nat} (nobody : (k.queues (.semaphore x)).waitCount = 0)
    (full : (k.semaphores x).maxCount ≤ (k.semaphores x).count) :
    (Call.semaphoreRelease x).exec k = some (.finished, k) := by
  have room : ¬ (k.semaphores x).count < (k.semaphores x).maxCount := Nat.not_lt.mpr full
  simp [Call.exec, osSemaphoreRelease, osEnterCritical, pickWaiter, nobody, room, osExitCritical]

/-- While the kernel is not running every call returns: it gets what it asks for, or it is told
at once that it does not. -/
theorem exec_off (off : k.kernelRunning = false)
    (nobody : ∀ o, c.waitable = some o → (k.queues o).waitCount = 0) :
    ∃ out k', c.exec k = some (out, k') ∧ out ≠ .parked ∧
      k'.kernelRunning = k.kernelRunning ∧ k'.pendSv = k.pendSv ∧ k'.queues = k.queues := by
  cases c with
  | mutexAcquire m timeout =>
    by_cases unlocked : (k.mutexes m).lock = 0
    · exact ⟨_, _, exec_lock unlocked, by simp, rfl, rfl, rfl⟩
    · by_cases own : (k.mutexes m).owner = k.currentTcb
      · exact ⟨_, k, exec_reacquire unlocked own, by simp, rfl, rfl, rfl⟩
      · exact ⟨_, k, exec_contended off unlocked own, by simp, rfl, rfl, rfl⟩
  | mutexRelease m =>
    refine ⟨_, _, exec_unlock (nobody _ rfl), by simp, ?_⟩
    unfold dropDonation
    split <;> exact ⟨rfl, rfl, rfl⟩
  | semaphoreAcquire x timeout =>
    cases stock : (k.semaphores x).count with
    | zero => exact ⟨_, k, exec_exhausted off stock, by simp, rfl, rfl, rfl⟩
    | succ n =>
      have token : k.semaphores x = ⟨n + 1, (k.semaphores x).maxCount⟩ := by
        rw [← stock]
      exact ⟨_, _, exec_take token, by simp, rfl, rfl, rfl⟩
  | semaphoreRelease x =>
    have nobody : (k.queues (.semaphore x)).waitCount = 0 := nobody _ rfl
    by_cases room : (k.semaphores x).count < (k.semaphores x).maxCount
    · exact ⟨_, _, exec_post nobody rfl room, by simp, rfl, rfl, rfl⟩
    · exact ⟨_, k, exec_spill nobody (by omega), by simp, rfl, rfl, rfl⟩
  | delay ms =>
    refine ⟨.finished, k, ?_, by simp, rfl, rfl, rfl⟩
    simp [Call.exec, osDelay, off]

theorem exec_uneventful (off : k.kernelRunning = false)
    (nobody : ∀ o, c.waitable = some o → (k.queues o).waitCount = 0) :
    ∃ out k', c.exec k = some (out, k') ∧ out ≠ .parked ∧ k.Uneventful k' := by
  obtain ⟨out, k', done, awake, running, pendSv, queues⟩ := exec_off off nobody
  refine ⟨out, k', done, awake, exec_handles done, ?_, running, pendSv, ?_⟩
  · apply (exec_calm done).mono
    intro t parks
    exact awake parks.1
  · intro o
    rw [queues]
    exact ⟨rfl, Nat.le_refl _⟩

end
end Kernel

/-! ### Queue calls -/

/-- The number of statements that a queue call has still to make, at most, its return included. -/
def Frame.steps : Frame → Nat
  | .sendSlot _ _ | .receiveSlot _ => 7
  | .sendLock _ _ | .receiveLock => 6
  | .sendWrite _ _ | .receiveRead => 5
  | .sendHead _ | .receiveTail _ => 4
  | .sendTail | .receiveUnlock _ | .sendUnlock true => 3
  | .sendUnlock false | .sendPost | .receivePost _ | .sendGiveBack | .receiveGiveBack => 2
  | .returning _ => 1

section
variable {q q' : OsMessageQueue} {f f' : Frame} {k : Kernel} {c : Call}

theorem Frame.steps_access (done : f.access q = some (q', f')) : f'.steps < f.steps := by
  cases f <;> simp only [Frame.access, Option.some.injEq, Prod.mk.injEq, reduceCtorEq] at done <;>
    obtain ⟨rfl, rfl⟩ := done
  case sendHead hadSlot => cases hadSlot <;> simp [Frame.steps]
  all_goals simp [Frame.steps]

theorem Frame.steps_proceed (calls : f.call q = some c) (out : Outcome) :
    (f.proceed out).steps < f.steps := by
  cases f with
  | sendSlot | sendGiveBack | sendPost | receiveGiveBack | receiveUnlock | receivePost =>
    simp [Frame.proceed, Frame.steps]
  | sendUnlock hadSlot => cases hadSlot <;> simp [Frame.proceed, Frame.steps]
  | sendLock message hadSlot =>
    by_cases success : out = .returned .success <;> cases hadSlot <;>
      simp [Frame.proceed, Frame.steps, success]
  | receiveSlot | receiveLock =>
    by_cases success : out = .returned .success <;> simp [Frame.proceed, Frame.steps, success]
  | sendWrite | sendHead | sendTail | receiveRead | receiveTail | returning => cases calls

theorem Frame.objects_access (done : f.access q = some (q', f')) : q'.objects = q.objects := by
  obtain ⟨_, _, _, lock, empty, filled⟩ := Frame.access_keeps done
  rw [OsMessageQueue.objects, OsMessageQueue.objects, lock, empty, filled]

theorem Frame.call_objects (calls : f.call q = some c) {o : Waitable} (looks : c.waitable = some o) :
    o ∈ q.objects := by
  cases f <;> simp only [Frame.call, Option.some.injEq, reduceCtorEq] at calls <;> subst calls <;>
    obtain rfl := Option.some.inj looks <;> simp [OsMessageQueue.objects]

/-- A statement that neither touches the ring nor calls the kernel is the return. -/
theorem Frame.returns_of (still : f.access q = none) (silent : f.call q = none) :
    ∃ reply, f = .returning reply := by
  cases f with
  | returning reply => exact ⟨reply, rfl⟩
  | sendWrite | sendHead | sendTail | receiveRead | receiveTail => cases still
  | sendSlot | sendLock | sendGiveBack | sendUnlock | sendPost | receiveSlot | receiveLock
    | receiveGiveBack | receiveUnlock | receivePost => cases silent

/-- Before the launch a queue call comes to its end from every statement. -/
theorem Frame.finish_uneventful {n : Nat} (enough : f.steps ≤ n) (off : k.kernelRunning = false)
    (nobody : ∀ o ∈ q.objects, (k.queues o).waitCount = 0) :
    ∃ reply q' k', f.finish n q k = some (reply, q', k') ∧ q'.objects = q.objects ∧
      k.Uneventful k' := by
  induction n generalizing f q k with
  | zero =>
    exfalso
    cases f with
    | sendUnlock hadSlot => cases hadSlot <;> cases enough
    | _ => cases enough
  | succ n ih =>
    cases accessed : f.access q with
    | some next =>
      obtain ⟨q₁, f₁⟩ := next
      have shorter := Frame.steps_access accessed
      have objects := Frame.objects_access accessed
      obtain ⟨reply, q', k', done, same, after⟩ :=
        ih (by omega : f₁.steps ≤ n) off (objects ▸ nobody)
      exact ⟨reply, q', k', (Frame.finish_access accessed).trans done, same.trans objects, after⟩
    | none =>
      cases called : f.call q with
      | some c =>
        obtain ⟨out, k₁, exec, awake, one⟩ :=
          Kernel.exec_uneventful off fun o looks => nobody o (Frame.call_objects called looks)
        have shorter := Frame.steps_proceed called out
        obtain ⟨reply, q', k', done, same, after⟩ :=
          ih (by omega : (f.proceed out).steps ≤ n) (one.kernelRunning.trans off)
            fun o there => one.nobody (nobody o there)
        exact ⟨reply, q', k', (Frame.finish_call called exec awake).trans done, same,
          one.trans after⟩
      | none =>
        obtain ⟨reply, rfl⟩ := Frame.returns_of accessed called
        exact ⟨reply, q, k, rfl, rfl, .refl k⟩

theorem osQueueCall_uneventful (op : Operation) (off : k.kernelRunning = false)
    (nobody : ∀ o ∈ q.objects, (k.queues o).waitCount = 0) :
    ∃ reply q' k', osQueueCall op q k = some (reply, q', k') ∧ q'.objects = q.objects ∧
      k.Uneventful k' := by
  have enough : op.start.steps ≤ 7 := by
    cases op <;> exact Nat.le_refl 7
  exact Frame.finish_uneventful enough off nobody

end
end Sentinel
