import Sentinel.Startup.Quiet

/-! From the calls before the launch to the first task. Whatever `main` has called by then, the
kernel can be launched, and what is proved of every run of the system holds from there on. -/

namespace Sentinel

open Runs (Transition Run)

namespace Kernel

/-- What every call before the launch keeps. -/
structure Prepared (k : Kernel) : Prop where
  off : k.kernelRunning = false
  current : ∀ c, k.currentTcb = some c → k.Live c
  chosen : 0 < k.taskCount → k.currentTcb ≠ none
  awake : ∀ t, k.Live t → (k.osTasks t).state = .ready ∨
    (k.osTasks t).state = .running ∧ k.currentTcb = some t
  timer : ∀ t, k.Live t → (k.osTasks t).sleepTime = 0
  apart : ∀ t, k.Live t → (k.osTasks t).waitQueue = none ∧ (k.osTasks t).waitCount = none
  priority : ∀ t, k.Live t → (k.osTasks t).currentPriority = (k.osTasks t).basePriority
  mutex : ∀ m, k.mutexes m = ⟨0, none⟩ ∨
    ∃ owner, k.mutexes m = ⟨1, owner⟩ ∧ ∀ t, owner = some t → k.Live t
  nobody : ∀ o, (k.queues o).waitCount = 0

section
variable {k k' : Kernel} {m x : Nat} {c : Call} {out : Outcome}

theorem Prepared.ready (prepared : k.Prepared) (some : 0 < k.taskCount) : ReadyToLaunch k := by
  obtain ⟨_, current, chosen, awake, timer, apart, priority, mutex, nobody⟩ := prepared
  refine ⟨?_, awake, timer, apart, priority, mutex, nobody⟩
  obtain ⟨c, here⟩ := Option.ne_none_iff_exists'.mp (chosen some)
  exact ⟨c, here, current c here⟩

theorem Prepared.setMutex (prepared : k.Prepared) {x : OsMutex}
    (held : x = ⟨0, none⟩ ∨ x = ⟨1, k.currentTcb⟩) : (k.setMutex m x).Prepared := by
  obtain ⟨off, current, chosen, awake, timer, apart, priority, mutex, nobody⟩ := prepared
  refine ⟨off, current, chosen, awake, timer, apart, priority, ?_, nobody⟩
  intro n
  by_cases self : n = m
  · subst self
    rw [setMutex_mutexes, Function.update_self]
    exact held.imp_right fun taken => ⟨_, taken, current⟩
  · rw [setMutex_mutexes, Function.update_of_ne self]
    exact mutex n

theorem Prepared.setSemaphore (prepared : k.Prepared) (s : OsSemaphore) :
    (k.setSemaphore x s).Prepared := by
  obtain ⟨off, current, chosen, awake, timer, apart, priority, mutex, nobody⟩ := prepared
  exact ⟨off, current, chosen, awake, timer, apart, priority, mutex, nobody⟩

theorem Prepared.clear (prepared : k.Prepared) (o : Waitable) :
    (k.setQueue o { k.queues o with waitCount := 0 }).Prepared := by
  obtain ⟨off, current, chosen, awake, timer, apart, priority, mutex, nobody⟩ := prepared
  refine ⟨off, current, chosen, awake, timer, apart, priority, mutex, ?_⟩
  intro o'
  by_cases self : o' = o
  · simp [self]
  · simpa [self] using nobody o'

/-- Before the launch nobody has been lent a priority. -/
theorem Prepared.dropDonation (prepared : k.Prepared) : (k.dropDonation m).Prepared := by
  unfold Kernel.dropDonation
  cases owner : (k.mutexes m).owner with
  | none => exact prepared
  | some t =>
    have live : k.Live t := by
      rcases prepared.mutex m with free | ⟨_, taken, live⟩
      · cases owner.symm.trans (congrArg OsMutex.owner free)
      · exact live t ((congrArg OsMutex.owner taken).symm.trans owner)
    have same : k.setTcb t { k.osTasks t with currentPriority := (k.osTasks t).basePriority } = k := by
      rw [← prepared.priority t live, setTcb, Function.update_eq_self]
    dsimp only
    rw [same]
    exact prepared

/-- Before the launch a call that returns has written to one object, or to none. -/
theorem Prepared.exec_cases (prepared : k.Prepared) (done : c.exec k = some (out, k')) :
    k' = k ∨
    (∃ m, c.waitable = some (.mutex m) ∧ k' = k.setMutex m ⟨1, k.currentTcb⟩) ∨
    (∃ m, c.waitable = some (.mutex m) ∧ k' = (k.dropDonation m).setMutex m ⟨0, none⟩) ∨
    ∃ x v, c.waitable = some (.semaphore x) ∧ k' = k.setSemaphore x v := by
  have off := prepared.off
  cases c with
  | mutexAcquire m timeout =>
    by_cases unlocked : (k.mutexes m).lock = 0
    · obtain ⟨_, rfl⟩ := Prod.mk.inj (Option.some.inj ((exec_lock unlocked).symm.trans done))
      exact .inr (.inl ⟨m, rfl, rfl⟩)
    · left
      by_cases own : (k.mutexes m).owner = k.currentTcb
      · obtain ⟨_, rfl⟩ :=
          Prod.mk.inj (Option.some.inj ((exec_reacquire unlocked own).symm.trans done))
        rfl
      · obtain ⟨_, rfl⟩ :=
          Prod.mk.inj (Option.some.inj ((exec_contended off unlocked own).symm.trans done))
        rfl
  | mutexRelease m =>
    obtain ⟨_, rfl⟩ :=
      Prod.mk.inj (Option.some.inj ((exec_unlock (prepared.nobody _)).symm.trans done))
    exact .inr (.inr (.inl ⟨m, rfl, rfl⟩))
  | semaphoreAcquire x timeout =>
    cases stock : (k.semaphores x).count with
    | zero =>
      obtain ⟨_, rfl⟩ := Prod.mk.inj (Option.some.inj ((exec_exhausted off stock).symm.trans done))
      exact .inl rfl
    | succ n =>
      have token : k.semaphores x = ⟨n + 1, (k.semaphores x).maxCount⟩ := by
        rw [← stock]
      obtain ⟨_, rfl⟩ := Prod.mk.inj (Option.some.inj ((exec_take token).symm.trans done))
      exact .inr (.inr (.inr ⟨x, _, rfl, rfl⟩))
  | semaphoreRelease x =>
    have nobody := prepared.nobody (.semaphore x)
    by_cases room : (k.semaphores x).count < (k.semaphores x).maxCount
    · obtain ⟨_, rfl⟩ :=
        Prod.mk.inj (Option.some.inj ((exec_post nobody rfl room).symm.trans done))
      exact .inr (.inr (.inr ⟨x, _, rfl, rfl⟩))
    · obtain ⟨_, rfl⟩ :=
        Prod.mk.inj (Option.some.inj ((exec_spill nobody (by omega)).symm.trans done))
      exact .inl rfl
  | delay ms =>
    have returns : (Call.delay ms).exec k = some (.finished, k) := by
      simp [Call.exec, osDelay, off]
    obtain ⟨_, rfl⟩ := Prod.mk.inj (Option.some.inj (returns.symm.trans done))
    exact .inl rfl

theorem Prepared.exec (prepared : k.Prepared) (done : c.exec k = some (out, k')) :
    k'.Prepared := by
  rcases prepared.exec_cases done with rfl | ⟨m, _, rfl⟩ | ⟨m, _, rfl⟩ | ⟨x, v, _, rfl⟩
  · exact prepared
  · exact prepared.setMutex (.inr rfl)
  · exact prepared.dropDonation.setMutex (.inl rfl)
  · exact prepared.setSemaphore v

theorem Prepared.schedule (prepared : k.Prepared) (done : k.osScheduler = some k') :
    k'.Prepared := by
  rcases osScheduler_cases done with ⟨best, decides⟩ | ⟨rfl, _⟩
  · obtain ⟨tasks, current, frame⟩ := osScheduler_frame done
    have live : ∀ t, k'.Live t → k.Live t := by
      intro t here
      rwa [Live, ← decides.count]
    have fields : ∀ t, (k'.osTasks t).sleepTime = (k.osTasks t).sleepTime ∧
        (k'.osTasks t).waitQueue = (k.osTasks t).waitQueue ∧
        (k'.osTasks t).waitCount = (k.osTasks t).waitCount ∧
        (k'.osTasks t).currentPriority = (k.osTasks t).currentPriority ∧
        (k'.osTasks t).basePriority = (k.osTasks t).basePriority := by
      intro t
      rw [decides.tasks]
      exact ⟨rfl, rfl, rfl, rfl, rfl⟩
    constructor
    case off =>
      rw [frame]
      exact prepared.off
    case current =>
      intro c here
      obtain rfl := Option.some.inj (decides.current.symm.trans here)
      rw [Live, decides.count]
      exact decides.live
    case chosen =>
      intro _ none
      cases decides.current.symm.trans none
    case awake =>
      intro t here
      rw [decides.tasks, decides.current]
      by_cases self : t = best
      · simp [self]
      · rcases prepared.awake t (live t here) with ready | ⟨running, mine⟩
        · simp [self, ready]
        · simp [self, running, mine]
    case timer =>
      intro t here
      rw [(fields t).1]
      exact prepared.timer t (live t here)
    case apart =>
      intro t here
      rw [(fields t).2.1, (fields t).2.2.1]
      exact prepared.apart t (live t here)
    case priority =>
      intro t here
      rw [(fields t).2.2.2.1, (fields t).2.2.2.2]
      exact prepared.priority t (live t here)
    case mutex =>
      intro m
      have mutexes : k'.mutexes = k.mutexes := by rw [frame]
      rw [mutexes]
      refine (prepared.mutex m).imp_right ?_
      rintro ⟨owner, taken, owned⟩
      refine ⟨owner, taken, ?_⟩
      intro t here
      rw [Live, decides.count]
      exact owned t here
    case nobody =>
      intro o
      rw [frame]
      exact prepared.nobody o
  · exact prepared

/-- Objects as `.bss` leaves them. -/
def Blank (k : Kernel) : Prop := (∀ m, k.mutexes m = ⟨0, none⟩) ∧ ∀ o, (k.queues o).waitCount = 0

theorem Blank.prepared (blank : k.Blank) : k.osKernelInit.Prepared := by
  constructor
  case off => rfl
  case current =>
    intro c here
    cases here
  case chosen =>
    intro some
    cases some
  case awake | timer | apart | priority =>
    intro t live
    cases live
  case mutex => exact fun m => .inl (blank.1 m)
  case nobody => exact blank.2

theorem Prepared.create (prepared : k.Prepared) (taskptr stackBase stackWords : UInt32)
    (priority : Nat) : (k.osTaskCreate taskptr stackBase stackWords priority).2.Prepared := by
  unfold osTaskCreate
  split
  · rename_i room
    split
    · exact prepared
    · have old : ∀ t : TaskId, t ≠ ⟨k.taskCount, room⟩ → t.val < k.taskCount + 1 → k.Live t := by
        intro t other live
        have apart : t.val ≠ k.taskCount := fun h => other (Fin.ext h)
        simp only [Live]
        omega
      constructor
      case off => exact prepared.off
      case current =>
        intro c here
        obtain rfl := Option.some.inj here
        cases cur : k.currentTcb with
        | none => exact Nat.lt_succ_self k.taskCount
        | some c => exact Nat.lt_succ_of_lt (prepared.current c cur)
      case chosen => simp
      case awake =>
        intro t live
        by_cases new : t = ⟨k.taskCount, room⟩
        · simp [new]
        · refine (prepared.awake t (old t new live)).imp (by simp [new]) ?_
          rintro ⟨running, mine⟩
          simp [new, running, mine]
      case timer | apart | priority =>
        intro t live
        by_cases new : t = ⟨k.taskCount, room⟩
        · simp [new]
        · have block := old t new live
          have timer := prepared.timer t block
          have apart := prepared.apart t block
          have priority := prepared.priority t block
          simp [new, timer, apart, priority]
      case mutex =>
        intro m
        refine (prepared.mutex m).imp_right ?_
        rintro ⟨owner, taken, owned⟩
        exact ⟨owner, taken, fun t here => Nat.lt_succ_of_lt (owned t here)⟩
      case nobody => exact prepared.nobody
  · exact prepared

end
end Kernel

theorem Frame.finish_exec {n : Nat} {f : Frame} {q : OsMessageQueue} {k : Kernel} {c : Call}
    (calls : f.call q = some c) : f.finish (n + 1) q k =
      (c.exec k).bind fun out =>
        if out.1 = .parked then none else (f.proceed out.1).finish n q out.2 := by
  cases f with
  | returning | sendWrite | sendHead | sendTail | receiveRead | receiveTail => cases calls
  | _ => simp only [Frame.finish, Frame.access, calls]

/-- What every kernel call on the objects of a queue keeps, a queue call keeps. -/
theorem Frame.finish_keeps {P : Kernel → Prop} {n : Nat} {f : Frame} {q q' : OsMessageQueue}
    {k k' : Kernel} {reply : Reply}
    (keeps : ∀ {k c out k'}, P k → (∀ o, Call.waitable c = some o → o ∈ q.objects) →
      c.exec k = some (out, k') → P k')
    (done : f.finish n q k = some (reply, q', k')) (holds : P k) :
    P k' ∧ q'.objects = q.objects := by
  induction n generalizing f q k with
  | zero => cases done
  | succ n ih =>
    cases accessed : f.access q with
    | some next =>
      obtain ⟨q₁, f₁⟩ := next
      have objects := Frame.objects_access accessed
      rw [Frame.finish_access accessed] at done
      rw [← objects] at keeps ⊢
      exact ih keeps done holds
    | none =>
      cases called : f.call q with
      | none =>
        obtain ⟨_, rfl⟩ := Frame.returns_of accessed called
        obtain ⟨_, rest⟩ := Prod.mk.inj (Option.some.inj done)
        obtain ⟨rfl, rfl⟩ := Prod.mk.inj rest
        exact ⟨holds, rfl⟩
      | some c =>
        rw [Frame.finish_exec called] at done
        obtain ⟨out, exec, rest⟩ := Option.bind_eq_some_iff.mp done
        split at rest
        · cases rest
        · exact ih keeps rest
            (keeps holds (fun o looks => Frame.call_objects called looks) exec)

section
variable {s t : Startup} {a : Action} {answer : Answer}
  {past : List (Transition Startup (Action × Answer))}

theorem Kernel.Prepared.initMutex {k : Kernel} (prepared : k.Prepared) (m : Nat) :
    (k.osMutexInit m).Prepared := (prepared.setMutex (.inl rfl)).clear _

theorem Kernel.Prepared.initSemaphore {k : Kernel} (prepared : k.Prepared)
    (x initial maxCount : Nat) : (k.osSemaphoreInit x initial maxCount).Prepared :=
  (prepared.setSemaphore _).clear _

/-- Every action that returns keeps the kernel ready. -/
theorem Startup.perform_prepared (prepared : s.kernel.Prepared)
    (done : s.perform a = some (answer, t)) : t.kernel.Prepared := by
  cases a with
  | create taskptr stackBase stackWords priority =>
    obtain ⟨_, rfl⟩ := Prod.mk.inj (Option.some.inj done)
    exact prepared.create _ _ _ _
  | initMutex m =>
    obtain ⟨_, rfl⟩ := Prod.mk.inj (Option.some.inj done)
    exact prepared.initMutex m
  | initSemaphore x initial maxCount =>
    obtain ⟨_, rfl⟩ := Prod.mk.inj (Option.some.inj done)
    exact prepared.initSemaphore x initial maxCount
  | initQueue i buffer capacity =>
    obtain ⟨_, rfl⟩ := Prod.mk.inj (Option.some.inj done)
    exact ((prepared.initMutex _).initSemaphore _ _ _).initSemaphore _ _ _
  | kernel c =>
    obtain ⟨out, exec, same⟩ := Option.map_eq_some_iff.mp done
    obtain ⟨_, rfl⟩ := Prod.mk.inj same
    exact prepared.exec exec
  | queue i op =>
    obtain ⟨out, called, same⟩ := Option.map_eq_some_iff.mp done
    obtain ⟨_, rfl⟩ := Prod.mk.inj same
    exact (Frame.finish_keeps (fun prepared _ exec => prepared.exec exec) called prepared).1
  | schedule =>
    obtain ⟨k, picks, same⟩ := Option.map_eq_some_iff.mp done
    obtain ⟨_, rfl⟩ := Prod.mk.inj same
    exact prepared.schedule picks

/-- `os_kernel_init` has just returned, and `.bss` was zero when it was called. -/
def Zeroed (s : Startup) : Prop :=
  (∃ k : Kernel, k.Blank ∧ s.kernel = k.osKernelInit) ∧ ∀ o, s.fresh o = false

theorem Zeroed.initial (zeroed : Zeroed s) : Initial s := by
  obtain ⟨⟨k, _, init⟩, none⟩ := zeroed
  exact ⟨⟨k, init⟩, none⟩

theorem prepared_of_run (run : Run Zeroed StartupStep past s) : s.kernel.Prepared := by
  apply run.invariant
  · rintro s ⟨⟨k, blank, init⟩, _⟩
    rw [init]
    exact blank.prepared
  · intro s e t prepared step
    exact Startup.perform_prepared prepared step.2

theorem Kernel.Prepared.launches {k : Kernel} (prepared : k.Prepared) (intact : k.CanaryIntact)
    {idle : TaskId} (live : k.Live idle) :
    ∃ k' first, k.osKernelLaunch = some k' ∧ Launched idle ⟨k', fun _ => none⟩ ∧
      System.Runs ⟨k', fun _ => none⟩ first ∧ k.Live first ∧
      ∀ t, k.Live t → (k.osTasks t).basePriority ≤ (k.osTasks first).basePriority := by
  have some : 0 < k.taskCount := Nat.zero_lt_of_lt live
  have runnable : ∀ t, k.Live t → k.Runnable t := by
    intro t here
    exact (prepared.awake t here).imp id And.left
  obtain ⟨k₁, scheduled⟩ := Kernel.osScheduler_some intact
  have launch : k.osKernelLaunch = Option.some { k₁ with kernelRunning := true, primask := false } := by
    rw [Kernel.osKernelLaunch, scheduled, Option.map_some]
  rcases Kernel.osScheduler_cases scheduled with ⟨first, decides⟩ | ⟨_, nobody⟩
  · refine ⟨_, first, launch, ⟨k, prepared.ready some, live, launch, fun _ => rfl⟩, ?_,
      decides.live, ?_⟩
    · refine ⟨decides.current, ?_⟩
      change (k₁.osTasks first).state = .running
      rw [decides.tasks]
      simp
    · intro t here
      rw [← prepared.priority t here, ← prepared.priority first decides.live]
      exact decides.greatest t here (runnable t here)
  · exact absurd (runnable idle live) (nobody idle live)

/-- **Every start leads to a launch.** Whatever is called between `os_kernel_init` and
`os_kernel_launch`, in whatever order, the launch comes to its end when there is a task and each
has a stack of its own. A task of the greatest priority is then running, and the system is where
its runs begin. -/
theorem bringup_launches (run : Run Zeroed StartupStep past s)
    (apart : ∀ x ∈ past, x.pre.KeepsApart x.event.1) {idle : TaskId} (live : s.kernel.Live idle) :
    ∃ k first, s.kernel.osKernelLaunch = some k ∧ Trace idle [] ⟨k, fun _ => none⟩ ∧
      System.Runs ⟨k, fun _ => none⟩ first ∧
      ∀ t, s.kernel.Live t →
        (s.kernel.osTasks t).basePriority ≤ (s.kernel.osTasks first).basePriority := by
  have bringup : Bringup past s := run.weaken (fun _ => Zeroed.initial) fun _ _ _ => id
  have tripwires := Bringup.tripwires bringup apart
  have prepared := prepared_of_run run
  have intact : s.kernel.CanaryIntact := by
    intro c here
    exact (tripwires c (prepared.current c here)).2
  obtain ⟨k, first, launch, launched, runs, _, greatest⟩ := prepared.launches intact live
  exact ⟨k, first, launch, .start launched, runs, greatest⟩

end

/-- A task is created after a mutex has been taken without one. -/
theorem bringup_launches_unowned : ∃ past s, Run Zeroed StartupStep past s ∧
    s.kernel.mutexes 0 = ⟨1, none⟩ ∧
    ∃ k first, s.kernel.osKernelLaunch = some k ∧ Trace 0 [] ⟨k, fun _ => none⟩ ∧
      System.Runs ⟨k, fun _ => none⟩ first ∧
      ∀ t, s.kernel.Live t →
        (s.kernel.osTasks t).basePriority ≤ (s.kernel.osTasks first).basePriority := by
  have zeroed : Zeroed cold := ⟨⟨_, ⟨fun _ => rfl, fun _ => rfl⟩, rfl⟩, fun _ => rfl⟩
  have fresh : Run Zeroed StartupStep _ _ := .next (.start zeroed)
    (show StartupStep cold (.initMutex 0, .done) _ from ⟨trivial, rfl⟩)
  have taken : Run Zeroed StartupStep _ _ := .next fresh (show StartupStep _
      (.kernel (.mutexAcquire 0 waitForever), .kernel (.returned .success)) _ from
    ⟨by rintro o looks; obtain rfl := Option.some.inj looks; rfl, rfl⟩)
  have created : Run Zeroed StartupStep _ _ := .next taken (show StartupStep _
      (.create 1 0x20000000 256 1, .created true) _ from ⟨trivial, rfl⟩)
  refine ⟨_, _, created, rfl, bringup_launches created ?_ (by decide)⟩
  intro x there
  rcases List.mem_cons.mp there with rfl | there
  · refine ⟨rfl, by decide, ?_⟩
    intro i _ t live
    exact absurd live (Nat.not_lt_zero _)
  · rcases List.mem_cons.mp there with rfl | there
    · trivial
    · obtain rfl := List.mem_singleton.mp there
      trivial

end Sentinel
