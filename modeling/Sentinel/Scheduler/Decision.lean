import Sentinel.Kernel.Boot

/-! The decision of the scheduler, in every state that calls of the kernel's functions
can lead to, in any order and before or after launch. -/

namespace Sentinel

open Runs (Transition Run)

/-- A call of a function of the kernel by whatever code is executing. -/
inductive Request
  | create (taskptr stackBase stackWords : UInt32) (priority : Nat)
  | launch
  | call (c : Call) (out : Outcome)
  | tick
  | schedule

inductive KernelStep : Kernel → Request → Kernel → Prop
  | create {k : Kernel} (taskptr stackBase stackWords : UInt32) (priority : Nat) :
      KernelStep k (.create taskptr stackBase stackWords priority)
        (k.osTaskCreate taskptr stackBase stackWords priority).2
  | launch {k k' : Kernel} (started : k.osKernelLaunch = some k') : KernelStep k .launch k'
  | call {k k' : Kernel} {c : Call} {out : Outcome} (exec : c.exec k = some (out, k')) :
      KernelStep k (.call c out) k'
  | tick {k : Kernel} : KernelStep k .tick k.sysTickHandler
  | schedule {k k' : Kernel} (picks : k.osScheduler = some k') : KernelStep k .schedule k'

/-- Every run from `os_kernel_init` on. -/
abbrev Session := Run (fun k => ∃ k₀ : Kernel, k = k₀.osKernelInit) KernelStep

namespace Kernel

/-- Tasks keep their state or become `READY`, and only those of `parks` are blocked. -/
structure Calm (parks : TaskId → Prop) (k k' : Kernel) : Prop where
  count : k'.taskCount = k.taskCount
  current : k'.currentTcb = k.currentTcb
  state : ∀ t, (k'.osTasks t).state = (k.osTasks t).state ∨ (k'.osTasks t).state = .ready ∨
    (k'.osTasks t).state = .blocked ∧ parks t

section
variable {parks : TaskId → Prop} {k k' k'' : Kernel} {t : TaskId}

theorem Calm.of_tasks (count : k'.taskCount = k.taskCount) (current : k'.currentTcb = k.currentTcb)
    (tasks : k'.osTasks = k.osTasks) : k.Calm parks k' := by
  refine ⟨count, current, ?_⟩
  intro t
  exact .inl (by rw [tasks])

theorem Calm.refl (k : Kernel) : k.Calm parks k := .of_tasks rfl rfl rfl

theorem Calm.mono {parks' : TaskId → Prop} (calm : k.Calm parks k')
    (weaker : ∀ t, parks t → parks' t) : k.Calm parks' k' := by
  refine ⟨calm.count, calm.current, ?_⟩
  intro t
  exact (calm.state t).imp_right fun other => other.imp_right fun h => ⟨h.1, weaker t h.2⟩

theorem Calm.trans (first : k.Calm parks k') (second : k'.Calm parks k'') : k.Calm parks k'' := by
  refine ⟨second.count.trans first.count, second.current.trans first.current, ?_⟩
  intro t
  rcases second.state t with same | other
  · rw [same]
    exact first.state t
  · exact .inr other

/-- A control block is written, with the state it had or `READY`. -/
theorem Calm.set {x : Tcb} (kept : x.state = (k.osTasks t).state ∨ x.state = .ready) :
    k.Calm parks (k.setTcb t x) := by
  refine ⟨rfl, rfl, ?_⟩
  intro u
  by_cases self : u = t
  · subst self
    simpa using kept.imp_right .inl
  · exact .inl (by simp [self])

/-- A task is parked. -/
theorem Calm.park {x : Tcb} (blocked : x.state = .blocked) : k.Calm (· = t) (k.setTcb t x) := by
  refine ⟨rfl, rfl, ?_⟩
  intro u
  by_cases self : u = t
  · subst self
    exact .inr (.inr ⟨by simpa using blocked, rfl⟩)
  · exact .inl (by simp [self])

theorem Calm.write {x : Tcb} (calm : k.Calm parks k')
    (kept : x.state = (k'.osTasks t).state ∨ x.state = .ready) : k.Calm parks (k'.setTcb t x) :=
  calm.trans (.set kept)

theorem Calm.frame (calm : k.Calm parks k') (count : k''.taskCount = k'.taskCount)
    (current : k''.currentTcb = k'.currentTcb) (tasks : k''.osTasks = k'.osTasks) :
    k.Calm parks k'' :=
  calm.trans (.of_tasks count current tasks)

theorem Calm.yield (calm : k.Calm parks k') : k.Calm parks k'.osYield := calm.frame rfl rfl rfl

theorem Calm.unmask {primask : Bool} (calm : k.Calm parks k') :
    k.Calm parks (k'.osExitCritical primask) := calm.frame rfl rfl rfl

theorem Calm.assign {m : Nat} {x : OsMutex} (calm : k.Calm parks k') :
    k.Calm parks (k'.setMutex m x) := calm.frame rfl rfl rfl

theorem Calm.remove (calm : k.Calm parks k') : k.Calm parks (k'.waitQueueRemove t) := by
  unfold waitQueueRemove
  split
  · apply Calm.write
    · exact calm.frame rfl rfl rfl
    · exact .inl rfl
  · exact calm

theorem Calm.wake (calm : k.Calm parks k') : k.Calm parks (k'.wakeTask t) := by
  apply Calm.write
  · exact calm.remove
  · exact .inr rfl

theorem tickTask_calm : k.Calm parks (k.tickTask t) := by
  have counted : k.Calm parks
      (k.setTcb t { k.osTasks t with sleepTime := (k.osTasks t).sleepTime - 1 }) :=
    .set (.inl rfl)
  unfold tickTask
  split
  · exact .refl k
  · dsimp only
    split
    · apply Calm.write
      · split
        · apply Calm.write
          · exact counted.remove
          · exact .inl rfl
        · exact counted
      · exact .inr rfl
    · exact counted

theorem foldl_tickTask_calm (l : List TaskId) : k.Calm parks (l.foldl tickTask k) := by
  induction l generalizing k with
  | nil => exact .refl k
  | cons t l ih => exact tickTask_calm.trans ih

theorem sysTickHandler_calm : k.Calm parks k.sysTickHandler := by
  have counted : k.Calm parks { k with osTicks := k.osTicks + 1 } := .of_tasks rfl rfl rfl
  apply Calm.yield
  exact counted.trans (foldl_tickTask_calm _)

theorem blockCurrent_calm {o : Waitable} {max : Nat} {timeout : UInt32}
    (done : k.blockCurrent t o max timeout = some k') : k.Calm (· = t) k' := by
  unfold blockCurrent at done
  dsimp only at done
  split at done
  · cases done
  · obtain rfl := Option.some.inj done
    have joined : ∀ q, k.Calm (· = t) (k.setQueue o q) := fun q => .of_tasks rfl rfl rfl
    apply (joined _).trans
    apply Calm.park
    rfl

theorem Calm.dropDonation {m : Nat} (calm : k.Calm parks k') :
    k.Calm parks (k'.dropDonation m) := by
  unfold Kernel.dropDonation
  split
  · apply calm.write
    exact .inl rfl
  · exact calm

theorem Calm.donate {owner : TaskId} (calm : k.Calm parks k') :
    k.Calm parks (k'.donate owner t) := by
  unfold Kernel.donate
  split
  · apply calm.write
    exact .inl rfl
  · exact calm

theorem osMutexRelease_calm {m : Nat} : k.Calm parks (k.osMutexRelease m) := by
  have masked : k.Calm parks { k with primask := true } := .of_tasks rfl rfl rfl
  unfold osMutexRelease
  dsimp only [osEnterCritical]
  split
  · apply Calm.yield
    apply Calm.unmask
    apply Calm.wake
    exact masked.dropDonation.assign
  · exact masked.dropDonation.assign.unmask

theorem osSemaphoreRelease_calm {x : Nat} : k.Calm parks (k.osSemaphoreRelease x) := by
  have masked : k.Calm parks { k with primask := true } := .of_tasks rfl rfl rfl
  unfold osSemaphoreRelease
  dsimp only [osEnterCritical]
  split
  · exact masked.wake.unmask.yield
  · apply Calm.unmask
    split
    · exact masked.frame rfl rfl rfl
    · exact masked

theorem osMutexAcquire_calm {m : Nat} {n : UInt32} {out : Outcome}
    (done : k.osMutexAcquire m n = some (out, k')) :
    k.Calm (fun t => out = .parked ∧ k.currentTcb = some t) k' := by
  have masked : ∀ {parks}, k.Calm parks { k with primask := true } := .of_tasks rfl rfl rfl
  unfold osMutexAcquire at done
  dsimp only [osEnterCritical] at done
  split at done
  · obtain ⟨rfl, rfl⟩ := Prod.mk.inj (Option.some.inj done)
    exact masked.frame rfl rfl rfl
  · split at done
    · obtain ⟨rfl, rfl⟩ := Prod.mk.inj (Option.some.inj done)
      exact masked.frame rfl rfl rfl
    · split at done
      · obtain ⟨rfl, rfl⟩ := Prod.mk.inj (Option.some.inj done)
        exact masked.frame rfl rfl rfl
      · split at done
        · rename_i current owner here _
          split at done
          · obtain ⟨rfl, rfl⟩ := Prod.mk.inj (Option.some.inj done)
            exact masked.donate.frame rfl rfl rfl
          · rename_i blocks
            obtain ⟨rfl, rfl⟩ := Prod.mk.inj (Option.some.inj done)
            have parked := masked.donate.trans (blockCurrent_calm blocks)
            refine (parked.mono ?_).frame rfl rfl rfl
            rintro t rfl
            exact ⟨rfl, here⟩
        · cases done

theorem osSemaphoreAcquire_calm {x : Nat} {n : UInt32} {out : Outcome}
    (done : k.osSemaphoreAcquire x n = some (out, k')) :
    k.Calm (fun t => out = .parked ∧ k.currentTcb = some t) k' := by
  have masked : ∀ {parks}, k.Calm parks { k with primask := true } := .of_tasks rfl rfl rfl
  unfold osSemaphoreAcquire at done
  dsimp only [osEnterCritical] at done
  split at done
  · obtain ⟨rfl, rfl⟩ := Prod.mk.inj (Option.some.inj done)
    exact masked.frame rfl rfl rfl
  · split at done
    · obtain ⟨rfl, rfl⟩ := Prod.mk.inj (Option.some.inj done)
      exact masked.unmask
    · obtain ⟨current, here, done⟩ := Option.map_eq_some_iff.mp done
      split at done
      · obtain ⟨rfl, rfl⟩ := Prod.mk.inj done
        exact masked.unmask
      · rename_i blocks
        obtain ⟨rfl, rfl⟩ := Prod.mk.inj done
        apply Calm.yield
        apply Calm.unmask
        apply (masked.trans (blockCurrent_calm blocks)).mono
        intro t self
        exact ⟨rfl, self ▸ here⟩

theorem osDelay_calm {ms : UInt32} {parked : Bool} (done : k.osDelay ms = some (parked, k')) :
    k.Calm (fun t => parked = true ∧ k.currentTcb = some t) k' := by
  unfold osDelay at done
  split at done
  · obtain ⟨rfl, rfl⟩ := Prod.mk.inj (Option.some.inj done)
    exact .refl k
  · dsimp only [osEnterCritical] at done
    obtain ⟨current, here, done⟩ := Option.map_eq_some_iff.mp done
    obtain ⟨rfl, rfl⟩ := Prod.mk.inj done
    have masked : k.Calm (· = current) { k with primask := true } := .of_tasks rfl rfl rfl
    apply Calm.yield
    apply Calm.unmask
    apply (masked.trans (Calm.park _)).mono
    · intro t self
      exact ⟨rfl, self ▸ here⟩
    · rfl

/-- A call can park only its own task. -/
theorem exec_calm {c : Call} {out : Outcome} (done : c.exec k = some (out, k')) :
    k.Calm (fun t => out = .parked ∧ k.currentTcb = some t) k' := by
  cases c with
  | mutexAcquire => exact osMutexAcquire_calm done
  | semaphoreAcquire => exact osSemaphoreAcquire_calm done
  | mutexRelease =>
    obtain ⟨rfl, rfl⟩ := Prod.mk.inj (Option.some.inj done)
    exact osMutexRelease_calm
  | semaphoreRelease =>
    obtain ⟨rfl, rfl⟩ := Prod.mk.inj (Option.some.inj done)
    exact osSemaphoreRelease_calm
  | delay ms =>
    obtain ⟨⟨parked, k''⟩, delayed, same⟩ := Option.map_eq_some_iff.mp done
    obtain ⟨rfl, rfl⟩ := Prod.mk.inj same
    apply (osDelay_calm delayed).mono
    intro t here
    exact ⟨by simp [here.1], here.2⟩

end

/-- The scheduler makes `best` the current task. -/
structure Decides (k : Kernel) (best : TaskId) (k' : Kernel) : Prop where
  live : k.Live best
  runnable : k.Runnable best
  greatest : ∀ t, k.Live t → k.Runnable t →
    (k.osTasks t).currentPriority ≤ (k.osTasks best).currentPriority
  first : ∀ t, k.Live t → k.Runnable t →
    (k.osTasks t).currentPriority = (k.osTasks best).currentPriority →
      Cyclic.offset k.scanStart k.taskCount best ≤ Cyclic.offset k.scanStart k.taskCount t
  current : k'.currentTcb = some best
  count : k'.taskCount = k.taskCount
  tasks : ∀ t, k'.osTasks t = { k.osTasks t with
    state := if t = best then .running
      else if k.currentTcb = some t ∧ (k.osTasks t).state = .running then .ready
      else (k.osTasks t).state }

section
variable {k k' : Kernel}

theorem dispatch_decides {best : TaskId} (found : k.best = some best) :
    k.Decides best (k.dispatch best) := by
  have picks := best_picks (fun _ => none) found
  have shown := dispatch_board (fun _ => none) k best
  refine ⟨picks.live, picks.runnable, picks.greatest, ?_, rfl, ?_, ?_⟩
  · intro t live runnable tie
    have nearest := picks.nearest t live runnable tie
    rw [Board.lag, Board.lag, board_scanStart] at nearest
    exact nearest
  · exact congrArg Board.taskCount shown
  · intro t
    exact (congrFun (congrArg Board.tcb shown) t).trans (Board.dispatch_tcb _ best t)

/-- A pass that gets past the canary check decides, or finds nobody and changes nothing. -/
theorem osScheduler_cases (done : k.osScheduler = some k') :
    (∃ best, k.Decides best k') ∨ k' = k ∧ ∀ t, k.Live t → ¬ k.Runnable t := by
  unfold osScheduler at done
  split at done
  · rename_i none
    refine .inr ⟨(Option.some.inj done).symm, ?_⟩
    intro t live
    simp [Live, none] at live
  · split at done
    · split at done
      · rename_i found
        exact .inr ⟨(Option.some.inj done).symm, best_none found⟩
      · rename_i best found
        obtain rfl := Option.some.inj done
        exact .inl ⟨best, dispatch_decides found⟩
    · cases done

theorem osScheduler_some (intact : k.CanaryIntact) : ∃ k', k.osScheduler = some k' := by
  by_cases none : k.taskCount = 0
  · exact ⟨k, by simp [osScheduler, none]⟩
  · cases found : k.best with
    | none => exact ⟨k, by simp [osScheduler, none, intact, found]⟩
    | some best => exact ⟨k.dispatch best, by simp [osScheduler, none, intact, found]⟩

end
end Kernel

/-- At most the current task is running, and the current task exists. -/
structure Kernel.Single (k : Kernel) : Prop where
  running : ∀ t, k.Live t → (k.osTasks t).state = .running → k.currentTcb = some t
  current : ∀ c, k.currentTcb = some c → k.Live c

section
variable {k k' : Kernel} {r : Request} {idle : TaskId} {past : List (Transition Kernel Request)}

theorem Kernel.Calm.single {parks : TaskId → Prop} (calm : k.Calm parks k') (single : k.Single) :
    k'.Single := by
  constructor
  · intro t live running
    rw [calm.current]
    apply single.running t
    · rwa [Live, ← calm.count]
    · rcases calm.state t with same | ready | ⟨blocked, _⟩
      · rwa [← same]
      · cases ready.symm.trans running
      · cases blocked.symm.trans running
  · intro c here
    rw [Live, calm.count]
    exact single.current c (calm.current ▸ here)

theorem Kernel.Decides.single {best : TaskId} (decides : k.Decides best k') (single : k.Single) :
    k'.Single := by
  constructor
  · intro t live running
    rw [decides.current]
    by_cases self : t = best
    · rw [self]
    · rw [decides.tasks, if_neg self] at running
      by_cases demoted : k.currentTcb = some t ∧ (k.osTasks t).state = .running
      · simp [demoted] at running
      · rw [if_neg demoted] at running
        have live : k.Live t := by rwa [Live, ← decides.count]
        exact absurd ⟨single.running t live running, running⟩ demoted
  · intro c here
    obtain rfl : best = c := Option.some.inj (decides.current.symm.trans here)
    rw [Live, decides.count]
    exact decides.live

theorem Kernel.osScheduler_single (done : k.osScheduler = some k') (single : k.Single) :
    k'.Single := by
  rcases osScheduler_cases done with ⟨best, decides⟩ | ⟨rfl, _⟩
  · exact decides.single single
  · exact single

theorem Kernel.osTaskCreate_single (taskptr stackBase stackWords : UInt32) (priority : Nat)
    (single : k.Single) : (k.osTaskCreate taskptr stackBase stackWords priority).2.Single := by
  unfold osTaskCreate
  split
  · rename_i room
    split
    · exact single
    · have old : ∀ t : TaskId, t.val < k.taskCount + 1 → t ≠ ⟨k.taskCount, room⟩ → k.Live t := by
        intro t below ne
        have apart : t.val ≠ k.taskCount := fun h => ne (Fin.ext h)
        simp only [Live]
        omega
      constructor
      · intro t live running
        by_cases new : t = ⟨k.taskCount, room⟩
        · simp [new] at running
        · have here := single.running t (old t live new) (by simpa [new] using running)
          simp [here]
      · intro c here
        cases cur : k.currentTcb with
        | none =>
          obtain rfl : (⟨k.taskCount, room⟩ : TaskId) = c := by simpa [cur] using here
          exact Nat.lt_succ_self k.taskCount
        | some c' =>
          obtain rfl : c' = c := by simpa [cur] using here
          exact Nat.lt_succ_of_lt (single.current c' cur)
  · exact single

theorem KernelStep.single (h : KernelStep k r k') (single : k.Single) : k'.Single := by
  cases h with
  | create taskptr stackBase stackWords priority => exact k.osTaskCreate_single _ _ _ _ single
  | launch started =>
    obtain ⟨scheduled, done, rfl⟩ := Option.map_eq_some_iff.mp started
    have after := Kernel.osScheduler_single done single
    exact ⟨after.running, after.current⟩
  | call exec => exact (Kernel.exec_calm exec).single single
  | tick => exact (@Kernel.sysTickHandler_calm (fun _ => False) k).single single
  | schedule picks => exact Kernel.osScheduler_single picks single

theorem Session.single (run : Session past k) : k.Single := by
  apply run.invariant
  · rintro _ ⟨k₀, rfl⟩
    constructor
    · intro t live
      cases live
    · intro c here
      cases here
  · intro k r k' single h
    exact h.single single

theorem Kernel.Calm.awake {parks : TaskId → Prop} (calm : k.Calm parks k') (never : ¬ parks idle)
    (awake : k.Live idle → k.Runnable idle) : k'.Live idle → k'.Runnable idle := by
  intro live
  have before := awake (by rwa [Live, ← calm.count])
  rcases calm.state idle with same | ready | ⟨_, parked⟩
  · simpa only [Runnable, same] using before
  · exact .inl ready
  · exact absurd parked never

theorem Kernel.osScheduler_awake (done : k.osScheduler = some k')
    (awake : k.Live idle → k.Runnable idle) : k'.Live idle → k'.Runnable idle := by
  intro live
  rcases osScheduler_cases done with ⟨best, decides⟩ | ⟨rfl, _⟩
  · have before := awake (by rwa [Live, ← decides.count])
    unfold Runnable
    rw [decides.tasks]
    by_cases self : idle = best
    · simp [self]
    · by_cases demoted : k.currentTcb = some idle ∧ (k.osTasks idle).state = .running
      · simp [self, demoted]
      · simp only [if_neg self, if_neg demoted]
        exact before
  · exact awake live

/-- A task that never parks itself stays runnable. -/
theorem KernelStep.awake (h : KernelStep k r k')
    (never : ∀ c, r = .call c .parked → k.currentTcb ≠ some idle)
    (awake : k.Live idle → k.Runnable idle) : k'.Live idle → k'.Runnable idle := by
  cases h with
  | create taskptr stackBase stackWords priority =>
    unfold Kernel.osTaskCreate
    split
    · rename_i room
      split
      · exact awake
      · intro live
        by_cases new : idle = ⟨k.taskCount, room⟩
        · simp [Kernel.Runnable, new]
        · have apart : idle.val ≠ k.taskCount := fun h => new (Fin.ext h)
          have below : idle.val < k.taskCount + 1 := live
          have old : k.Live idle := by
            simp only [Kernel.Live]
            omega
          simpa [Kernel.Runnable, new] using awake old
    · exact awake
  | launch started =>
    obtain ⟨scheduled, done, rfl⟩ := Option.map_eq_some_iff.mp started
    have after : scheduled.Live idle → scheduled.Runnable idle := Kernel.osScheduler_awake done awake
    exact after
  | call exec =>
    apply (Kernel.exec_calm exec).awake _ awake
    rintro ⟨rfl, here⟩
    exact never _ rfl here
  | tick => exact (@Kernel.sysTickHandler_calm (fun _ => False) k).awake not_false awake
  | schedule picks => exact Kernel.osScheduler_awake picks awake

theorem Session.awake (run : Session past k)
    (never : ∀ x ∈ past, ∀ c, x.event = .call c .parked → x.pre.currentTcb ≠ some idle) :
    k.Live idle → k.Runnable idle := by
  induction run with
  | start init =>
    obtain ⟨k₀, rfl⟩ := init
    intro live
    cases live
  | next _ h ih =>
    apply h.awake
    · exact never _ List.mem_cons_self
    · exact ih fun x there => never x (List.mem_cons_of_mem _ there)

/-- **The scheduler's decision**, and that one task at most is running. -/
theorem scheduler_decision (run : Session past k) :
    (∀ t, k.Live t → (k.osTasks t).state = .running → k.currentTcb = some t) ∧
    (k.CanaryIntact → (∃ t, k.Live t ∧ k.Runnable t) →
      ∃ k' best, k.osScheduler = some k' ∧ k.Decides best k') ∧
    (k.CanaryIntact → (∀ t, k.Live t → ¬ k.Runnable t) → k.osScheduler = some k) ∧
    ∀ idle, k.Live idle →
      (∀ x ∈ past, ∀ c, x.event = .call c .parked → x.pre.currentTcb ≠ some idle) →
        ∀ k', k.osScheduler = some k' →
          ∃ c, k'.currentTcb = some c ∧ (k'.osTasks c).state = .running := by
  refine ⟨(Session.single run).running, ?_, ?_, ?_⟩
  · intro intact runnable
    obtain ⟨k', done⟩ := Kernel.osScheduler_some intact
    rcases Kernel.osScheduler_cases done with ⟨best, decides⟩ | ⟨_, nobody⟩
    · exact ⟨k', best, done, decides⟩
    · obtain ⟨t, live, ready⟩ := runnable
      exact absurd ready (nobody t live)
  · intro intact nobody
    obtain ⟨k', done⟩ := Kernel.osScheduler_some intact
    rcases Kernel.osScheduler_cases done with ⟨best, decides⟩ | ⟨rfl, _⟩
    · exact absurd decides.runnable (nobody best decides.live)
    · exact done
  · intro idle live never k' done
    rcases Kernel.osScheduler_cases done with ⟨best, decides⟩ | ⟨_, nobody⟩
    · exact ⟨best, decides.current, by simp [decides.tasks]⟩
    · exact absurd (Session.awake run never live) (nobody idle live)

theorem Session.createAll (run : Session past k) (priorities : List Nat) :
    ∃ past', Session past' (createAll k priorities) := by
  induction priorities generalizing past k with
  | nil => exact ⟨past, run⟩
  | cons p rest ih => exact ih (run.next (.create _ _ _ _))

/-- Two tasks of one priority and an idle task: a pass takes the turn from the first to the
second. -/
theorem scheduler_decision_rotates : ∃ past k k', Session past k ∧ k.currentTcb = some 1 ∧
    k.osScheduler = some k' ∧ k.Decides 2 k' := by
  have init : Session [] (reset fun _ => ⟨0, 0⟩).osKernelInit := .start ⟨_, rfl⟩
  obtain ⟨past, created⟩ := Session.createAll init [0, 1, 1]
  obtain ⟨k, launched, state⟩ := (Option.any_eq_true _ _).mp
    (show (createAll (reset fun _ => ⟨0, 0⟩).osKernelInit [0, 1, 1]).osKernelLaunch.any
      (fun k => k.currentTcb = some 1 ∧ k.CanaryIntact ∧ (k.Live 1 ∧ k.Runnable 1) ∧
        k.osScheduler.any fun k' => k'.currentTcb = some 2) by decide +kernel)
  obtain ⟨current, intact, runnable, next⟩ := of_decide_eq_true state
  have run : Session _ k := .next created (.launch launched)
  obtain ⟨k', best, done, decides⟩ := (scheduler_decision run).2.1 intact ⟨1, runnable⟩
  obtain rfl : 2 = best := by
    rw [done] at next
    exact Option.some.inj ((of_decide_eq_true next).symm.trans decides.current)
  exact ⟨_, k, k', run, current, done, decides⟩

end
end Sentinel
