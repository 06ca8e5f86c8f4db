import Sentinel.Kernel.Refine
import Sentinel.Switch.Machine

/-! The kernel's own functions keep to what the switch expects of them: none but the scheduler
chooses a task, and none touches a stack or a stack pointer. -/

namespace Sentinel
namespace Kernel

variable {k k' k'' : Kernel} {t : TaskId}

theorem Handles.refl (k : Kernel) : k.Handles k :=
  ⟨⟨⟨rfl, fun _ => rfl, fun _ => rfl⟩, fun _ => rfl⟩, rfl, rfl⟩

theorem Handles.trans (first : k.Handles k') (second : k'.Handles k'') : k.Handles k'' where
  taskCount := second.taskCount.trans first.taskCount
  stackBase t := (second.stackBase t).trans (first.stackBase t)
  stackSize t := (second.stackSize t).trans (first.stackSize t)
  stackPtr t := (second.stackPtr t).trans (first.stackPtr t)
  memory := second.memory.trans first.memory
  currentTcb := second.currentTcb.trans first.currentTcb

/-- Nothing but other variables has changed. -/
theorem Handles.of_tasks (osTasks : k'.osTasks = k.osTasks) (taskCount : k'.taskCount = k.taskCount)
    (memory : k'.memory = k.memory) (currentTcb : k'.currentTcb = k.currentTcb) : k.Handles k' :=
  ⟨⟨⟨taskCount, fun _ => by rw [osTasks], fun _ => by rw [osTasks]⟩, fun _ => by rw [osTasks]⟩,
    memory, currentTcb⟩

/-- A control block may change, but for what it says about its stack. -/
theorem Handles.setTcb (first : k.Handles k') (x : Tcb)
    (stackPtr : x.stackPtr = (k'.osTasks t).stackPtr)
    (stackBase : x.stackBase = (k'.osTasks t).stackBase)
    (stackSize : x.stackSize = (k'.osTasks t).stackSize) : k.Handles (k'.setTcb t x) := by
  have field : ∀ {α : Type} (f : Tcb → α), f x = f (k'.osTasks t) →
      ∀ u, f ((k'.setTcb t x).osTasks u) = f (k'.osTasks u) := by
    intro α f same u
    by_cases here : u = t
    · subst here
      simpa using same
    · simp [here]
  exact first.trans ⟨⟨⟨rfl, field _ stackBase, field _ stackSize⟩, field _ stackPtr⟩, rfl, rfl⟩

theorem Handles.waitQueueRemove (first : k.Handles k') (t : TaskId) :
    k.Handles (k'.waitQueueRemove t) := by
  unfold Kernel.waitQueueRemove
  split
  · rename_i o c _ _
    have removed : k'.Handles (k'.removeWaiter t o c) := .of_tasks rfl rfl rfl rfl
    exact (first.trans removed).setTcb _ rfl rfl rfl
  · exact first

theorem Handles.wakeTask (first : k.Handles k') (t : TaskId) : k.Handles (k'.wakeTask t) :=
  (first.waitQueueRemove t).setTcb _ rfl rfl rfl

theorem Handles.blockCurrent {o : Waitable} {max : Nat} {timeout : UInt32}
    (first : k.Handles k') (done : k'.blockCurrent t o max timeout = some k'') : k.Handles k'' := by
  unfold Kernel.blockCurrent at done
  dsimp only at done
  by_cases full : (k'.queues o).waitCount ≥ max
  · rw [if_pos full] at done
    cases done
  · rw [if_neg full] at done
    obtain rfl := Option.some.inj done
    have queued : k'.Handles (k'.setQueue o
        { waitQueue := Function.update (k'.queues o).waitQueue (k'.queues o).waitCount t
          waitCount := (k'.queues o).waitCount + 1 }) := .of_tasks rfl rfl rfl rfl
    exact (first.trans queued).setTcb _ rfl rfl rfl

theorem Handles.tickTask (first : k.Handles k') (t : TaskId) : k.Handles (k'.tickTask t) := by
  unfold Kernel.tickTask
  split
  · exact first
  · have counted := first.setTcb (t := t)
      { k'.osTasks t with sleepTime := (k'.osTasks t).sleepTime - 1 } rfl rfl rfl
    dsimp only
    split
    · split
      · refine Handles.setTcb (Handles.setTcb (counted.waitQueueRemove t) _ ?_ ?_ ?_) _ ?_ ?_ ?_
        all_goals rfl
      · exact counted.setTcb _ rfl rfl rfl
    · exact counted

theorem Handles.ticks (first : k.Handles k') (ts : List TaskId) :
    k.Handles (ts.foldl Kernel.tickTask k') := by
  induction ts generalizing k' with
  | nil => exact first
  | cons t ts ih => exact ih (first.tickTask t)

theorem sysTickHandler_handles (k : Kernel) : k.Handles k.sysTickHandler := by
  have counted : k.Handles { k with osTicks := k.osTicks + 1 } := .of_tasks rfl rfl rfl rfl
  exact (counted.ticks _).trans (.of_tasks rfl rfl rfl rfl)

theorem osSemaphoreRelease_handles (k : Kernel) (x : Nat) : k.Handles (k.osSemaphoreRelease x) := by
  have masked : k.Handles k.osEnterCritical.2 := .of_tasks rfl rfl rfl rfl
  unfold osSemaphoreRelease
  dsimp only
  split
  · exact (masked.wakeTask _).trans (.of_tasks rfl rfl rfl rfl)
  · split <;> exact .of_tasks rfl rfl rfl rfl

theorem osSemaphoreAcquire_handles {x : Nat} {timeout : UInt32} {out : Outcome}
    (done : k.osSemaphoreAcquire x timeout = some (out, k')) : k.Handles k' := by
  have masked : k.Handles k.osEnterCritical.2 := .of_tasks rfl rfl rfl rfl
  unfold osSemaphoreAcquire at done
  dsimp only at done
  split at done
  · cases done
    exact .of_tasks rfl rfl rfl rfl
  · split at done
    · cases done
      exact .of_tasks rfl rfl rfl rfl
    · obtain ⟨current, _, result⟩ := Option.map_eq_some_iff.mp done
      split at result
      · cases result
        exact .of_tasks rfl rfl rfl rfl
      · rename_i parked
        cases result
        exact (masked.blockCurrent parked).trans (.of_tasks rfl rfl rfl rfl)

theorem Handles.donate (first : k.Handles k') (owner current : TaskId) :
    k.Handles (k'.donate owner current) := by
  unfold Kernel.donate
  split
  · exact first.setTcb _ rfl rfl rfl
  · exact first

theorem osMutexAcquire_handles {m : Nat} {timeout : UInt32} {out : Outcome}
    (done : k.osMutexAcquire m timeout = some (out, k')) : k.Handles k' := by
  have masked : k.Handles k.osEnterCritical.2 := .of_tasks rfl rfl rfl rfl
  unfold osMutexAcquire at done
  dsimp only at done
  split at done
  · cases done
    exact .of_tasks rfl rfl rfl rfl
  · split at done
    · cases done
      exact .of_tasks rfl rfl rfl rfl
    · split at done
      · cases done
        exact .of_tasks rfl rfl rfl rfl
      · split at done
        · rename_i current owner _ _
          have lent := masked.donate owner current
          split at done
          · cases done
            exact lent.trans (.of_tasks rfl rfl rfl rfl)
          · rename_i parked
            cases done
            exact (lent.blockCurrent parked).trans (.of_tasks rfl rfl rfl rfl)
        · cases done

theorem Handles.dropDonation (first : k.Handles k') (m : Nat) : k.Handles (k'.dropDonation m) := by
  unfold Kernel.dropDonation
  split
  · exact first.setTcb _ rfl rfl rfl
  · exact first

theorem osMutexRelease_handles (k : Kernel) (m : Nat) : k.Handles (k.osMutexRelease m) := by
  have masked : k.Handles k.osEnterCritical.2 := .of_tasks rfl rfl rfl rfl
  have dropped := masked.dropDonation m
  unfold osMutexRelease
  dsimp only
  split
  · rename_i next _
    have owned (x : OsMutex) : Handles (k.osEnterCritical.2.dropDonation m)
        ((k.osEnterCritical.2.dropDonation m).setMutex m x) := .of_tasks rfl rfl rfl rfl
    exact ((dropped.trans (owned _)).wakeTask next).trans (.of_tasks rfl rfl rfl rfl)
  · exact dropped.trans (.of_tasks rfl rfl rfl rfl)

theorem osDelay_handles {ms : UInt32} {slept : Bool} (done : k.osDelay ms = some (slept, k')) :
    k.Handles k' := by
  have masked : k.Handles k.osEnterCritical.2 := .of_tasks rfl rfl rfl rfl
  unfold osDelay at done
  split at done
  · cases done
    exact .refl k
  · obtain ⟨c, _, result⟩ := Option.map_eq_some_iff.mp done
    cases result
    have slept := masked.setTcb (t := c)
      { k.osTasks c with sleepTime := ms, waitQueue := none, waitCount := none, state := .blocked }
      rfl rfl rfl
    exact slept.trans (.of_tasks rfl rfl rfl rfl)

theorem exec_handles {c : Call} {out : Outcome} (done : c.exec k = some (out, k')) :
    k.Handles k' := by
  cases c with
  | mutexAcquire m timeout => exact osMutexAcquire_handles done
  | mutexRelease m =>
    cases done
    exact osMutexRelease_handles k m
  | semaphoreAcquire x timeout => exact osSemaphoreAcquire_handles done
  | semaphoreRelease x =>
    cases done
    exact osSemaphoreRelease_handles k x
  | delay ms =>
    obtain ⟨⟨slept, after⟩, ran, result⟩ := Option.map_eq_some_iff.mp done
    cases result
    exact osDelay_handles ran

/-- The scheduler of the kernel is one that the switch may call. -/
theorem osScheduler_schedules (live : ∃ t, k.currentTcb = some t ∧ k.Live t)
    (done : k.osScheduler = some k') : k.Schedules k' := by
  have still : k.Schedules k := ⟨(Handles.refl k).toKeepsContexts, rfl, live⟩
  unfold osScheduler at done
  split at done
  · cases done
    exact still
  · split at done
    · split at done
      · cases done
        exact still
      · rename_i b found
        cases done
        have picked := best_picks (fun _ => none) found
        have demoted : k.Handles (k.demoteCurrent b) := by
          unfold demoteCurrent
          split
          · split
            · exact (Handles.refl k).setTcb _ rfl rfl rfl
            · exact .refl k
          · exact .refl k
        have marked := demoted.setTcb (t := b)
          { (k.demoteCurrent b).osTasks b with state := .running } rfl rfl rfl
        have same := marked.toKeepsContexts
        exact ⟨⟨⟨same.taskCount, same.stackBase, same.stackSize⟩, same.stackPtr⟩, marked.memory, b, rfl,
          Nat.lt_of_lt_of_eq picked.live same.taskCount.symm⟩
    · cases done

end Kernel

/-- The running system takes no step that the switch does not allow for. -/
theorem Step.keepsContexts {idle : TaskId} {s s' : System} {e : Event} (step : Step idle s e s')
    (sound : s.board.Sound idle) :
    if e = .pass then s.kernel.Schedules s'.kernel else s.kernel.Handles s'.kernel := by
  cases step with
  | call runs unmasked free exec => exact Kernel.exec_handles exec
  | resume => exact .refl _
  | post x => exact Kernel.osSemaphoreRelease_handles _ x
  | tick => exact Kernel.sysTickHandler_handles _
  | pass picks =>
    have scheduled := Kernel.osScheduler_schedules (k := { s.kernel with pendSv := false })
      sound.current picks
    exact ⟨⟨⟨scheduled.taskCount, scheduled.stackBase, scheduled.stackSize⟩, scheduled.stackPtr⟩,
      scheduled.memory, scheduled.chosen⟩

end Sentinel
