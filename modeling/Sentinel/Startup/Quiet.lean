import Sentinel.Startup.Calls

/-! Nothing blocks and nothing switches before the launch. -/

namespace Sentinel

open Runs (Transition Run)

namespace Kernel

/-- The kernel does not start, no task is parked, no switch is requested, and no wait queue gets
an entry. -/
structure Hushed (k k' : Kernel) : Prop where
  kernelRunning : k'.kernelRunning = k.kernelRunning
  blocked : ∀ t, (k'.osTasks t).state = .blocked → (k.osTasks t).state = .blocked
  pendSv : k'.pendSv = k.pendSv
  entries : ∀ o, (k'.queues o).waitQueue = (k.queues o).waitQueue ∧
    (k'.queues o).waitCount ≤ (k.queues o).waitCount

section
variable {k k' : Kernel} {stackBase stackWords : UInt32}

theorem Hushed.refl (k : Kernel) : k.Hushed k := ⟨rfl, fun _ => id, rfl, fun _ => ⟨rfl, Nat.le_refl _⟩⟩

theorem Uneventful.hushed (uneventful : k.Uneventful k') : k.Hushed k' := by
  refine ⟨uneventful.kernelRunning, ?_, uneventful.pendSv, uneventful.entries⟩
  intro t blocked
  rcases uneventful.calm.state t with same | ready | ⟨_, parks⟩
  · rwa [← same]
  · cases ready.symm.trans blocked
  · exact absurd parks not_false

theorem osScheduler_hushed (done : k.osScheduler = some k') : k.Hushed k' := by
  obtain ⟨tasks, current, frame⟩ := osScheduler_frame done
  refine ⟨by rw [frame], ?_, by rw [frame], by simp [frame]⟩
  intro t blocked
  rcases osScheduler_cases done with ⟨best, decides⟩ | ⟨rfl, _⟩
  · rw [decides.tasks] at blocked
    by_cases self : t = best
    · simp [self] at blocked
    · by_cases demoted : k.currentTcb = some t ∧ (k.osTasks t).state = .running
      · simp [self, demoted] at blocked
      · simpa only [if_neg self, if_neg demoted] using blocked
  · exact blocked

theorem osTaskCreate_hushed (taskptr stackBase stackWords : UInt32) (priority : Nat) :
    k.Hushed (k.osTaskCreate taskptr stackBase stackWords priority).2 := by
  unfold osTaskCreate
  split
  · rename_i room
    split
    · exact .refl k
    · refine ⟨rfl, ?_, rfl, fun _ => ⟨rfl, Nat.le_refl _⟩⟩
      intro t blocked
      by_cases new : t = ⟨k.taskCount, room⟩
      · simp [new] at blocked
      · simpa [new] using blocked
  · exact .refl k

/-- A task that has just been created is ready. -/
theorem osTaskCreate_awake (taskptr stackBase stackWords : UInt32) (priority : Nat)
    (awake : ∀ t, k.Live t → (k.osTasks t).state ≠ .blocked) {t : TaskId}
    (live : (k.osTaskCreate taskptr stackBase stackWords priority).2.Live t) :
    ((k.osTaskCreate taskptr stackBase stackWords priority).2.osTasks t).state ≠ .blocked := by
  unfold osTaskCreate at live ⊢
  split at live
  · rename_i room
    split at live
    · rename_i refused
      simpa [room, refused] using awake t live
    · rename_i valid
      simp only [room, valid, dite_true, if_false]
      by_cases new : t = ⟨k.taskCount, room⟩
      · simp [new]
      · have below : t.val < k.taskCount + 1 := live
        have apart : t.val ≠ k.taskCount := fun h => new (Fin.ext h)
        have old : k.Live t := by
          simp only [Live]
          omega
        simpa [new] using awake t old
  · rename_i full
    simpa [full] using awake t live

/-! ### Tripwires -/

/-- The stack of every task still ends in its tripwire. -/
def Tripwires (k : Kernel) : Prop :=
  ∀ t, k.Live t → 0 < (k.osTasks t).stackSize.toNat ∧
    k.memory (k.osTasks t).stackBase = stackCanary

theorem Handles.tripwires (handles : k.Handles k') (tripwires : k.Tripwires) : k'.Tripwires := by
  intro t live
  rw [handles.stackSize, handles.stackBase, handles.memory]
  exact tripwires t (handles.live.mp live)

theorem osScheduler_tripwires (done : k.osScheduler = some k') (tripwires : k.Tripwires) :
    k'.Tripwires := by
  rcases osScheduler_cases done with ⟨best, decides⟩ | ⟨rfl, _⟩
  · obtain ⟨tasks, current, frame⟩ := osScheduler_frame done
    intro t live
    have memory : k'.memory = k.memory := by rw [frame]
    rw [decides.tasks, memory]
    exact tripwires t (by rwa [Live, ← decides.count])
  · exact tripwires

/-- A stack of its own does not reach into the others. -/
theorem osTaskCreate_tripwires {taskptr : UInt32} {priority : Nat}
    (own : Startup.OwnStack k stackBase stackWords) (tripwires : k.Tripwires) :
    (k.osTaskCreate taskptr stackBase stackWords priority).2.Tripwires := by
  cases created : k.osTaskCreate taskptr stackBase stackWords priority with
  | mk success k' =>
    cases success with
    | false =>
      have same : k' = k := by
        unfold osTaskCreate at created
        split at created
        · split at created
          · exact (Prod.mk.inj created).2.symm
          · cases (Prod.mk.inj created).1
        · exact (Prod.mk.inj created).2.symm
      rw [same]
      exact tripwires
    | true =>
      have room : k.taskCount < maxTasks := by
        unfold osTaskCreate at created
        split at created
        · assumption
        · cases created
      have by' := of_osTaskCreate (t := ⟨k.taskCount, room⟩) created rfl
      have fits : stackWords.toNat ≤ 2 ^ 30 := by
        have := own.fits
        omega
      intro t live
      rcases (by'.live rfl).mp live with rfl | live
      · rw [by'.size, by'.base]
        exact ⟨Nat.lt_of_lt_of_le (by decide) by'.words, by'.canary own.aligned fits⟩
      · have other : t ≠ ⟨k.taskCount, room⟩ := by
          rintro rfl
          exact absurd live (Nat.lt_irrefl _)
        obtain ⟨some, intact⟩ := tripwires t live
        rw [by'.others t other]
        refine ⟨some, ?_⟩
        rw [by'.untouched own.aligned fits, intact]
        intro i hi same
        apply own.apart i hi t live
        exact ⟨0, some, by rw [Words.slot_zero, same]⟩

end
end Kernel

/-- Every initialised object has an empty wait queue, and the kernel is not running. -/
structure Startup.Quiet (s : Startup) : Prop where
  off : s.kernel.kernelRunning = false
  single : s.kernel.Single
  awake : ∀ t, s.kernel.Live t → (s.kernel.osTasks t).state ≠ .blocked
  nobody : ∀ o, s.fresh o → (s.kernel.queues o).waitCount = 0

/-- What an action does to the kernel and to the set of initialised objects. -/
inductive Startup.Effect (s : Startup) : Action → Startup → Prop
  | create {t : Startup} (taskptr stackBase stackWords : UInt32) (priority : Nat)
      (kernel : t.kernel = (s.kernel.osTaskCreate taskptr stackBase stackWords priority).2)
      (fresh : t.fresh = s.fresh) :
      s.Effect (.create taskptr stackBase stackWords priority) t
  | schedule {t : Startup} (picks : s.kernel.osScheduler = some t.kernel)
      (fresh : t.fresh = s.fresh) : s.Effect .schedule t
  | other {a : Action} {t : Startup} (uneventful : s.kernel.Uneventful t.kernel)
      (fresh : ∀ o, t.fresh o → s.fresh o ∨ (t.kernel.queues o).waitCount = 0) : s.Effect a t

section
variable {s t : Startup} {a : Action} {answer : Answer}
  {past : List (Transition Startup (Action × Answer))}

theorem osQueueInit_uneventful (q : OsMessageQueue) (buffer : Nat → UInt32) (capacity : Nat)
    (k : Kernel) : k.Uneventful (osQueueInit q buffer capacity k).2 ∧
      ∀ o ∈ (osQueueInit q buffer capacity k).1.objects,
        ((osQueueInit q buffer capacity k).2.queues o).waitCount = 0 := by
  constructor
  · exact ((k.osMutexInit_uneventful q.lock).trans
      (Kernel.osSemaphoreInit_uneventful _ q.emptySlots capacity capacity)).trans
      (Kernel.osSemaphoreInit_uneventful _ q.filledSlots 0 capacity)
  · intro o there
    simp only [osQueueInit, OsMessageQueue.objects, List.mem_cons, List.not_mem_nil, or_false]
      at there
    by_cases same : q.emptySlots = q.filledSlots <;> rcases there with rfl | rfl | rfl <;>
      simp [osQueueInit, Kernel.osMutexInit, Kernel.osSemaphoreInit, same]

/-- An action returns, unless the scheduler finds a tripwire gone. -/
theorem Startup.perform_returns (quiet : s.Quiet) (allowed : s.allows a)
    (intact : a = .schedule → s.kernel.CanaryIntact) :
    ∃ answer t, s.perform a = some (answer, t) ∧ answer ≠ .kernel .parked := by
  cases a with
  | create | initMutex | initSemaphore | initQueue => exact ⟨_, _, rfl, by simp⟩
  | kernel c =>
    obtain ⟨out, k, done, awake, _⟩ :=
      Kernel.exec_uneventful quiet.off fun o looks => quiet.nobody o (allowed o looks)
    exact ⟨.kernel out, _, by rw [perform, done, Option.map_some], by simpa using awake⟩
  | queue i op =>
    obtain ⟨reply, q, k, done, _⟩ :=
      osQueueCall_uneventful op quiet.off fun o there => quiet.nobody o (allowed o there)
    exact ⟨.queue reply, _, by rw [perform, done, Option.map_some], by simp⟩
  | schedule =>
    obtain ⟨k, done⟩ := Kernel.osScheduler_some (intact rfl)
    exact ⟨.done, _, by rw [perform, done, Option.map_some], by simp⟩

theorem StartupStep.effect (step : StartupStep s (a, answer) t) (quiet : s.Quiet) :
    s.Effect a t := by
  obtain ⟨allowed, done⟩ := step
  cases a with
  | create taskptr stackBase stackWords priority =>
    obtain ⟨_, rfl⟩ := Prod.mk.inj (Option.some.inj done)
    exact .create taskptr stackBase stackWords priority rfl rfl
  | initMutex m =>
    obtain ⟨_, rfl⟩ := Prod.mk.inj (Option.some.inj done)
    refine .other (s.kernel.osMutexInit_uneventful m) ?_
    intro o fresh
    by_cases new : o = .mutex m
    · subst new
      exact .inr (by simp [Kernel.osMutexInit])
    · exact .inl (by simpa [new] using fresh)
  | initSemaphore x initial maxCount =>
    obtain ⟨_, rfl⟩ := Prod.mk.inj (Option.some.inj done)
    refine .other (s.kernel.osSemaphoreInit_uneventful x initial maxCount) ?_
    intro o fresh
    by_cases new : o = .semaphore x
    · subst new
      exact .inr (by simp [Kernel.osSemaphoreInit])
    · exact .inl (by simpa [new] using fresh)
  | initQueue i buffer capacity =>
    obtain ⟨_, rfl⟩ := Prod.mk.inj (Option.some.inj done)
    obtain ⟨uneventful, empty⟩ := osQueueInit_uneventful (s.rings i) buffer capacity s.kernel
    refine .other uneventful ?_
    intro o fresh
    rcases (Bool.or_eq_true _ _).mp fresh with old | new
    · exact .inl old
    · exact .inr (empty o (of_decide_eq_true new))
  | kernel c =>
    obtain ⟨out, k, exec, _, uneventful⟩ :=
      Kernel.exec_uneventful quiet.off fun o looks => quiet.nobody o (allowed o looks)
    simp only [Startup.perform, exec, Option.map_some, Option.some.injEq, Prod.mk.injEq] at done
    obtain ⟨_, rfl⟩ := done
    exact .other uneventful fun _ => .inl
  | queue i op =>
    obtain ⟨reply, q, k, called, _, uneventful⟩ :=
      osQueueCall_uneventful op quiet.off fun o there => quiet.nobody o (allowed o there)
    simp only [Startup.perform, called, Option.map_some, Option.some.injEq, Prod.mk.injEq] at done
    obtain ⟨_, rfl⟩ := done
    exact .other uneventful fun _ => .inl
  | schedule =>
    obtain ⟨k, picks, same⟩ := Option.map_eq_some_iff.mp done
    obtain ⟨_, rfl⟩ := Prod.mk.inj same
    exact .schedule picks rfl

theorem Startup.Effect.hushed (effect : s.Effect a t) : s.kernel.Hushed t.kernel := by
  cases effect with
  | create taskptr stackBase stackWords priority kernel =>
    rw [kernel]
    exact Kernel.osTaskCreate_hushed _ _ _ _
  | schedule picks => exact Kernel.osScheduler_hushed picks
  | other uneventful => exact uneventful.hushed

theorem Startup.Effect.quiet (effect : s.Effect a t) (quiet : s.Quiet) : t.Quiet := by
  have hushed := effect.hushed
  have off := hushed.kernelRunning.trans quiet.off
  have kept : ∀ u, s.kernel.Live u → (t.kernel.osTasks u).state ≠ .blocked := by
    intro u live blocked
    exact quiet.awake u live (hushed.blocked u blocked)
  have nobody : ∀ o, s.fresh o → (t.kernel.queues o).waitCount = 0 := by
    intro o fresh
    have empty := quiet.nobody o fresh
    have fewer := (hushed.entries o).2
    omega
  cases effect with
  | create taskptr stackBase stackWords priority kernel fresh =>
    refine ⟨off, ?_, ?_, ?_⟩
    · rw [kernel]
      exact Kernel.osTaskCreate_single _ _ _ _ quiet.single
    · intro u live
      rw [kernel] at live ⊢
      exact Kernel.osTaskCreate_awake _ _ _ _ quiet.awake live
    · rwa [fresh]
  | schedule picks fresh =>
    refine ⟨off, Kernel.osScheduler_single picks quiet.single, ?_, by rwa [fresh]⟩
    intro u live
    obtain ⟨_, _, frame⟩ := Kernel.osScheduler_frame picks
    exact kept u (by rwa [frame] at live)
  | other uneventful fresh =>
    refine ⟨off, uneventful.calm.single quiet.single, ?_, ?_⟩
    · intro u live
      exact kept u (by rwa [Kernel.Live, ← uneventful.calm.count])
    · intro o now
      rcases fresh o now with old | empty
      · exact nobody o old
      · exact empty

theorem Bringup.quiet (run : Bringup past s) : s.Quiet := by
  apply run.invariant
  · rintro s ⟨⟨k, init⟩, none⟩
    refine ⟨by rw [init]; rfl, ⟨?_, ?_⟩, ?_, ?_⟩
    · intro t live
      rw [init] at live
      cases live
    · intro c here
      rw [init] at here
      cases here
    · intro t live
      rw [init] at live
      cases live
    · intro o fresh
      rw [none o] at fresh
      cases fresh
  · intro s e t quiet step
    exact (StartupStep.effect step quiet).quiet quiet

/-- The stacks handed out are the tasks' own. -/
def Startup.KeepsApart (s : Startup) : Action → Prop
  | .create _ stackBase stackWords _ => OwnStack s.kernel stackBase stackWords
  | _ => True

theorem Bringup.tripwires (run : Bringup past s)
    (apart : ∀ x ∈ past, x.pre.KeepsApart x.event.1) : s.kernel.Tripwires := by
  induction run with
  | start initial =>
    obtain ⟨⟨k, init⟩, _⟩ := initial
    intro t live
    rw [init] at live
    cases live
  | @next past s t e run step ih =>
    obtain ⟨a, answer⟩ := e
    have before := ih fun x there => apart x (List.mem_cons_of_mem _ there)
    have now : s.KeepsApart a := apart _ List.mem_cons_self
    cases StartupStep.effect step (Bringup.quiet run) with
    | create taskptr stackBase stackWords priority kernel =>
      rw [kernel]
      exact Kernel.osTaskCreate_tripwires now before
    | schedule picks => exact Kernel.osScheduler_tripwires picks before
    | other uneventful => exact uneventful.handles.tripwires before

/-- **Nothing blocks before the launch.** Every call returns, an `os_scheduler` whenever the
tripwire of the current task is in place. No task becomes `BLOCKED`, no wait queue gets an
entry, and no switch is requested. The tripwires are in place as long as every task has been
given a stack of its own. -/
theorem quiet_before_launch (run : Bringup past s) :
    (∀ a, s.allows a → (a = .schedule → s.kernel.CanaryIntact) →
      ∃ answer t, s.perform a = some (answer, t) ∧ answer ≠ .kernel .parked) ∧
    (∀ t, s.kernel.Live t → (s.kernel.osTasks t).state ≠ .blocked) ∧
    (∀ o, s.fresh o → s.kernel.waiters o = []) ∧
    (∀ x ∈ past, x.pre.kernel.Hushed x.post.kernel) ∧
    ((∀ x ∈ past, x.pre.KeepsApart x.event.1) → s.kernel.CanaryIntact) := by
  have quiet := Bringup.quiet run
  refine ⟨?_, quiet.awake, ?_, ?_, ?_⟩
  · intro a allowed intact
    exact Startup.perform_returns quiet allowed intact
  · intro o fresh
    rw [Kernel.waiters, quiet.nobody o fresh, Cells.contents_zero]
  · intro x there
    obtain ⟨_, before, step⟩ := run.mem there
    exact (StartupStep.effect step (Bringup.quiet before)).hushed
  · intro apart c here
    exact (Bringup.tripwires run apart c (quiet.single.current c here)).2

/-- Right after `os_kernel_init`. -/
def cold : Startup :=
  ⟨(reset fun _ => ⟨0, 0⟩).osKernelInit, fun _ => ⟨fun _ => 0, 0, 0, 0, 0, 0, 1⟩, fun _ => false⟩

theorem cold_initial : Initial cold := ⟨⟨_, rfl⟩, fun _ => rfl⟩

/-- A mutex is taken while there is no task, and asked for again when there is one. -/
theorem quiet_before_launch_unowned : ∃ past s, Bringup past s ∧
    s.kernel.mutexes 0 = ⟨1, none⟩ ∧ s.kernel.currentTcb = some 0 ∧
    (∃ answer t, s.perform (.kernel (.mutexAcquire 0 waitForever)) = some (answer, t) ∧
      answer ≠ .kernel .parked) ∧
    ∃ answer t, s.perform .schedule = some (answer, t) ∧ answer ≠ .kernel .parked := by
  have fresh : Bringup _ _ := .next (.start cold_initial)
    (show StartupStep cold (.initMutex 0, .done) _ from ⟨trivial, rfl⟩)
  have taken : Bringup _ _ := .next fresh (show StartupStep _
      (.kernel (.mutexAcquire 0 waitForever), .kernel (.returned .success)) _ from
    ⟨by rintro o looks; obtain rfl := Option.some.inj looks; rfl, rfl⟩)
  have created : Bringup _ _ := .next taken (show StartupStep _
      (.create 1 0x20000000 256 1, .created true) _ from ⟨trivial, rfl⟩)
  obtain ⟨returns, _, _, _, intact⟩ := quiet_before_launch created
  have contended := returns (.kernel (.mutexAcquire 0 waitForever))
    (by rintro o looks; obtain rfl := Option.some.inj looks; rfl) (by simp)
  refine ⟨_, _, created, rfl, rfl, contended, returns .schedule trivial fun _ => intact ?_⟩
  intro x there
  rcases List.mem_cons.mp there with rfl | there
  · exact ⟨rfl, by decide, fun i _ t live => absurd live (Nat.not_lt_zero _)⟩
  · rcases List.mem_cons.mp there with rfl | there
    · trivial
    · obtain rfl := List.mem_singleton.mp there
      trivial

/-- Two tasks are created on arrays that overlap: the first frame of one lies on the tripwire
of the other, and the scheduler ends in the overflow hook. -/
theorem overlapping_stacks : ¬ ∀ past s a, Bringup past s → s.allows a →
    ∃ answer t, s.perform a = some (answer, t) := by
  intro claim
  have first : Bringup _ _ := .next (.start cold_initial)
    (show StartupStep cold (.create 1 0x20000100 64 1, .created true) _ from ⟨trivial, rfl⟩)
  have second : Bringup _ _ := .next first (show StartupStep _
      (.create 1 0x20000000 80 1, .created true) _ from ⟨trivial, rfl⟩)
  obtain ⟨answer, t, done⟩ := claim _ _ .schedule second trivial
  have returns : Option.isSome _ = true := congrArg Option.isSome done
  exact absurd returns (by decide +kernel)

end
end Sentinel
