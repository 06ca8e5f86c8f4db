import Sentinel.Kernel.Refine

/-! From `os_kernel_init` to the first task, and the step relation as a function. -/

namespace Sentinel

open Runs (Transition Run)

/-- The kernels that `os_kernel_init` and calls of `os_task_create` lead to,
when every mutex and semaphore has been initialised. -/
inductive Created : Kernel → Prop
  | init {k : Kernel} (mutexes : ∀ m, k.mutexes m = ⟨0, none⟩)
      (queues : ∀ o, (k.queues o).waitCount = 0) : Created k.osKernelInit
  | create {k : Kernel} (taskptr stackBase stackWords : UInt32) (priority : Nat) :
      Created k → Created (k.osTaskCreate taskptr stackBase stackWords priority).2

/-- What creation leaves in every slot below `task_count`. -/
structure Fresh (k : Kernel) : Prop where
  current : ∀ c, k.currentTcb = some c → k.Live c
  chosen : 0 < k.taskCount → k.currentTcb ≠ none
  block : ∀ t, k.Live t → (k.osTasks t).state = .ready ∧ (k.osTasks t).sleepTime = 0 ∧
    (k.osTasks t).waitQueue = none ∧ (k.osTasks t).waitCount = none ∧
    (k.osTasks t).currentPriority = (k.osTasks t).basePriority
  mutexes : ∀ m, k.mutexes m = ⟨0, none⟩
  queues : ∀ o, (k.queues o).waitCount = 0

theorem Fresh.create {k : Kernel} (fresh : Fresh k) (taskptr stackBase stackWords : UInt32)
    (priority : Nat) : Fresh (k.osTaskCreate taskptr stackBase stackWords priority).2 := by
  unfold Kernel.osTaskCreate
  split
  · rename_i room
    split
    · exact fresh
    · refine ⟨fun c hc => ?_, fun _ => by simp, fun t ht => ?_, fresh.mutexes, fresh.queues⟩
      · simp only [Option.some.injEq] at hc
        subst hc
        cases cur : k.currentTcb with
        | none => exact Nat.lt_succ_self k.taskCount
        | some c => exact Nat.lt_succ_of_lt (fresh.current c cur)
      · by_cases new : t = ⟨k.taskCount, room⟩
        · subst new
          simp
        · have old : k.Live t := by
            have below : t.val < k.taskCount + 1 := ht
            have ne : t.val ≠ k.taskCount := fun h => new (Fin.ext h)
            simp only [Kernel.Live]
            omega
          simpa [new] using fresh.block t old
  · exact fresh

theorem Created.fresh {k : Kernel} (h : Created k) : Fresh k := by
  induction h with
  | init mutexes queues =>
    refine ⟨fun c hc => ?_, fun pos => ?_, fun t ht => ?_, mutexes, queues⟩
    · cases hc
    · cases pos
    · cases ht
  | create taskptr stackBase stackWords priority _ ih => exact ih.create _ _ _ _

/-- At least one task suffices for launch. -/
theorem Created.ready {k : Kernel} (h : Created k) (some : 0 < k.taskCount) : ReadyToLaunch k := by
  have fresh := h.fresh
  refine ⟨?_, fun t ht => .inl (fresh.block t ht).1, fun t ht => (fresh.block t ht).2.1,
    fun t ht => ⟨(fresh.block t ht).2.2.1, (fresh.block t ht).2.2.2.1⟩,
    fun t ht => (fresh.block t ht).2.2.2.2, fun m => .inl (fresh.mutexes m), fresh.queues⟩
  cases cur : k.currentTcb with
  | none => exact absurd cur (fresh.chosen some)
  | some c => exact ⟨c, rfl, fresh.current c cur⟩

/-! ### Runs that can be computed -/

/-- The step that an event makes, if it can happen. -/
def perform (idle : TaskId) (s : System) : Event → Option System
  | .call t c out =>
    if s.Runs t ∧ s.kernel.primask = false ∧ s.inside t = none ∧ (out = .parked → t ≠ idle) then
      match c.exec s.kernel with
      | some (out', k) =>
        if out' = out then
          some ⟨k, if out = .parked then Function.update s.inside t (some c) else s.inside⟩
        else none
      | none => none
    else none
  | .resume t c out =>
    if s.Runs t ∧ s.inside t = some c ∧ c.result (s.kernel.osTasks t) = out then
      some ⟨s.kernel, Function.update s.inside t none⟩
    else none
  | .post x => some { s with kernel := s.kernel.osSemaphoreRelease x }
  | .tick => some { s with kernel := s.kernel.sysTickHandler }
  | .pass => (Kernel.osScheduler { s.kernel with pendSv := false }).map fun k => { s with kernel := k }

theorem perform_iff {idle : TaskId} {s t : System} {e : Event} :
    perform idle s e = some t ↔ Step idle s e t := by
  constructor
  · intro done
    cases e with
    | call a c out =>
      simp only [perform] at done
      split at done
      · rename_i can
        split at done
        · rename_i out' k exec
          split at done
          · rename_i same
            subst same
            obtain rfl := Option.some.inj done
            exact .call can.1 can.2.1 can.2.2.1 exec can.2.2.2
          · cases done
        · cases done
      · cases done
    | resume a c out =>
      simp only [perform] at done
      split at done
      · rename_i can
        obtain ⟨runs, parked, rfl⟩ := can
        obtain rfl := Option.some.inj done
        exact .resume runs parked
      · cases done
    | post x =>
      obtain rfl := Option.some.inj done
      exact .post x
    | tick =>
      obtain rfl := Option.some.inj done
      exact .tick
    | pass =>
      obtain ⟨k, picks, rfl⟩ := Option.map_eq_some_iff.mp done
      exact .pass picks
  · intro step
    cases step with
    | call runs unmasked free exec awake =>
      simp only [perform, exec]
      rw [if_pos ⟨runs, unmasked, free, awake⟩, if_pos trivial]
    | resume runs parked =>
      simp only [perform]
      rw [if_pos ⟨runs, parked, trivial⟩]
    | post | tick => rfl
    | pass picks => simp [perform, picks]

/-- Events played from a state with a check along the way: `rule` before each event,
`goal` at the end. -/
def plays (idle : TaskId) (rule : System → Event → Bool) (goal : History → System → Bool)
    (events : List Event) (s : System) : Bool :=
  match Runs.play (perform idle) events [] s with
  | some (past, t) => past.all (fun x => rule x.pre x.event) && goal past t
  | none => false

theorem plays_run {idle : TaskId} {start : System → Prop} {rule : System → Event → Bool}
    {goal : History → System → Bool} {events : List Event} {s : System}
    (played : plays idle rule goal events s = true) (first : start s) :
    ∃ past t, Run start (Ruled (fun s e => rule s e) idle) past t ∧ goal past t = true := by
  simp only [plays] at played
  split at played
  · rename_i past t path
    obtain ⟨obeyed, goal⟩ := (Bool.and_eq_true _ _).mp played
    have run : Run start (Step idle) past t :=
      (Runs.play_run path (.start first)).weaken (fun _ h => h) fun _ _ _ => perform_iff.mp
    exact ⟨past, t, run.obey (List.all_eq_true.mp obeyed), goal⟩
  · cases played

/-- Memory at reset, with the semaphores that `main` then initialises. -/
def reset (semaphores : Nat → OsSemaphore) : Kernel where
  osTasks _ := ⟨0, .ready, 0, 0, 0, 0, 0, none, none, .success⟩
  taskCount := 0
  countLe := Nat.zero_le _
  currentTcb := none
  osTicks := 0
  kernelRunning := false
  mutexes _ := ⟨0, none⟩
  semaphores := semaphores
  queues _ := ⟨fun _ => 0, 0⟩
  primask := false
  pendSv := false
  memory _ := 0

/-- One task for each priority, every one with a stack of its own. -/
def createAll (k : Kernel) (priorities : List Nat) : Kernel :=
  priorities.foldl (fun k priority =>
    (k.osTaskCreate 1 (0x20000000 + 1024 * UInt32.ofNat k.taskCount) 256 priority).2) k

/-- The system right after `os_kernel_launch`. -/
def setup (semaphores : Nat → OsSemaphore) (priorities : List Nat) : Option System :=
  (createAll (reset semaphores).osKernelInit priorities).osKernelLaunch.map (⟨·, fun _ => none⟩)

theorem Created.createAll {k : Kernel} (h : Created k) (priorities : List Nat) :
    Created (createAll k priorities) := by
  induction priorities generalizing k with
  | nil => exact h
  | cons p rest ih => exact ih (h.create _ _ _ p)

/-- The first state of a run whose mutexes are all free at launch. -/
structure Started (idle : TaskId) (semaphores : Nat → OsSemaphore) (s : System) : Prop where
  launched : Launched idle s
  mutexes : ∀ m, s.kernel.mutexes m = ⟨0, none⟩
  semaphores : s.kernel.semaphores = semaphores

/-- The scheduler writes control blocks and `current_tcb`. -/
theorem Kernel.osScheduler_frame {k k' : Kernel} (done : k.osScheduler = some k') :
    ∃ osTasks currentTcb, k' = { k with osTasks := osTasks, currentTcb := currentTcb } := by
  unfold Kernel.osScheduler at done
  split_ifs at done
  · exact ⟨k.osTasks, k.currentTcb, (Option.some.inj done).symm⟩
  · split at done <;> obtain rfl := Option.some.inj done
    · exact ⟨k.osTasks, k.currentTcb, rfl⟩
    · unfold Kernel.dispatch Kernel.demoteCurrent
      dsimp only
      split
      · split <;> exact ⟨_, _, rfl⟩
      · exact ⟨_, _, rfl⟩

theorem Kernel.osKernelLaunch_objects {k k' : Kernel} (launch : k.osKernelLaunch = some k') :
    k'.mutexes = k.mutexes ∧ k'.semaphores = k.semaphores := by
  obtain ⟨j, scheduled, rfl⟩ := Option.map_eq_some_iff.mp launch
  obtain ⟨_, _, rfl⟩ := Kernel.osScheduler_frame scheduled
  exact ⟨rfl, rfl⟩

theorem Kernel.osTaskCreate_objects (taskptr stackBase stackWords : UInt32) (priority : Nat)
    (k : Kernel) : (k.osTaskCreate taskptr stackBase stackWords priority).2.mutexes = k.mutexes ∧
      (k.osTaskCreate taskptr stackBase stackWords priority).2.semaphores = k.semaphores := by
  unfold osTaskCreate
  split
  · split <;> exact ⟨rfl, rfl⟩
  · exact ⟨rfl, rfl⟩

theorem createAll_objects (k : Kernel) (priorities : List Nat) :
    (createAll k priorities).mutexes = k.mutexes ∧
      (createAll k priorities).semaphores = k.semaphores := by
  induction priorities generalizing k with
  | nil => exact ⟨rfl, rfl⟩
  | cons p rest ih =>
    have kept := Kernel.osTaskCreate_objects 1 (0x20000000 + 1024 * UInt32.ofNat k.taskCount) 256 p k
    exact ⟨(ih _).1.trans kept.1, (ih _).2.trans kept.2⟩

theorem started_of_setup {idle : TaskId} {semaphores : Nat → OsSemaphore} {priorities : List Nat}
    {s : System} (live : (createAll (reset semaphores).osKernelInit priorities).Live idle)
    (started : setup semaphores priorities = some s) : Started idle semaphores s := by
  have created : Created (createAll (reset semaphores).osKernelInit priorities) :=
    (Created.init (fun _ => rfl) fun _ => rfl).createAll priorities
  obtain ⟨k, launch, rfl⟩ := Option.map_eq_some_iff.mp started
  have launched := Kernel.osKernelLaunch_objects launch
  have made := createAll_objects (reset semaphores).osKernelInit priorities
  exact ⟨⟨_, created.ready (Nat.zero_lt_of_lt live), live, launch, fun _ => rfl⟩,
    congrFun (launched.1.trans made.1), launched.2.trans made.2⟩

/-- A list of events played from `setup`. -/
def rehearse (idle : TaskId) (semaphores : Nat → OsSemaphore) (priorities : List Nat)
    (rule : System → Event → Bool) (goal : History → System → Bool) (events : List Event) : Bool :=
  decide ((createAll (reset semaphores).osKernelInit priorities).Live idle) &&
    (setup semaphores priorities).any (plays idle rule goal events)

theorem rehearse_run {idle : TaskId} {semaphores : Nat → OsSemaphore} {priorities : List Nat}
    {rule : System → Event → Bool} {goal : History → System → Bool} {events : List Event}
    (done : rehearse idle semaphores priorities rule goal events = true) :
    ∃ past s, Run (Started idle semaphores) (Ruled (fun s e => rule s e) idle) past s ∧
      goal past s = true := by
  obtain ⟨live, done⟩ := (Bool.and_eq_true _ _).mp done
  obtain ⟨s, started, played⟩ := (Option.any_eq_true _ _).mp done
  exact plays_run played (started_of_setup (of_decide_eq_true live) started)

end Sentinel
