import Sentinel.Kernel.Boot
import Sentinel.Kernel.Effects

/-! Strict priority. Whatever readies a task or lowers the running one asks for a
switch, with one exception: a release that hands the mutex to nobody. -/

namespace Sentinel

open Runs (Transition Run)

/-- A switch is requested, or the current task runs and no ready task outranks it. -/
def System.Prompt (s : System) : Prop :=
  s.kernel.pendSv = true ∨ ∃ c, s.kernel.currentTcb = some c ∧
    (s.kernel.osTasks c).state = .running ∧
    ∀ t, s.kernel.Live t → (s.kernel.osTasks t).state = .ready →
      (s.kernel.osTasks t).currentPriority ≤ (s.kernel.osTasks c).currentPriority

/-- A task that releases its own mutex to nobody has no ready task above its base
priority, unless a switch is requested already. -/
def DropsSafely (s : System) (e : Event) : Prop :=
  ∀ t m, e = .call t (.mutexRelease m) .finished → (s.kernel.mutexes m).owner = some t →
    s.kernel.waiters (.mutex m) = [] →
      s.kernel.pendSv = true ∨ ∀ u, s.kernel.Live u → (s.kernel.osTasks u).state = .ready →
        (s.kernel.osTasks u).currentPriority ≤ (s.kernel.osTasks t).basePriority

namespace Board

/-- `System.Prompt`, seen on the board. -/
def Prompt (b : Board) : Prop :=
  b.switch = true ∨ ∃ c, b.current = some c ∧ (b.tcb c).state = .running ∧
    ∀ t, b.Live t → (b.tcb t).state = .ready → b.priority t ≤ b.priority c

/-- No task is below the priority it was created with. -/
def Lifted (b : Board) : Prop := ∀ t, b.Live t → (b.tcb t).basePriority ≤ b.priority t

section
variable {idle : TaskId} {b d : Board} {e : Event}

theorem Prompt.congr (prompt : b.Prompt) (switch : d.switch = b.switch)
    (current : d.current = b.current) (taskCount : d.taskCount = b.taskCount)
    (tcb : d.tcb = b.tcb) : d.Prompt := by
  simpa only [Prompt, Live, priority, switch, current, taskCount, tcb] using prompt

theorem Picks.prompt {best : TaskId} (picks : b.Picks best) : (b.dispatch best).Prompt := by
  apply Or.inr
  refine ⟨best, rfl, by simp [dispatch_tcb], ?_⟩
  intro t live ready
  rw [dispatch_priority]
  apply picks.greatest t live
  rw [dispatch_tcb] at ready
  by_cases self : t = best
  · simp [self] at ready
  · by_cases demoted : b.current = some t ∧ (b.tcb t).state = .running
    · exact .inr demoted.2
    · exact .inl (by simpa [self, demoted] using ready)


end

end Board

section
variable {idle : TaskId} {b d : Board} {e : Event} {past : History} {s : System}

open Board in
theorem BoardStep.lifted (h : BoardStep idle b e d) (sound : b.Sound idle) (lifted : b.Lifted) :
    d.Lifted := by
  intro t live
  obtain ⟨count, base⟩ := h.base_kept
  have before : (b.tcb t).basePriority ≤ b.priority t := lifted t (by rwa [Live, ← count])
  rw [base t]
  cases h.priorityEffect sound with
  | still _ _ priority | ticked _ priority | locked _ _ _ _ _ _ priority =>
    rw [priority]
    exact before
  | waited m u n owner _ _ _ _ priority =>
    rw [priority]
    by_cases lent : t = owner
    · subst lent
      rw [Function.update_self]
      omega
    · rw [Function.update_of_ne lent]
      exact before
  | unlocked m _ _ _ _ priority | handed m _ _ _ _ _ priority =>
    rw [priority, settle_priority]
    split <;> omega

/-- The rule for the board that `DropsSafely` states for the system. -/
def Board.DropsSafely (b : Board) (e : Event) : Prop :=
  ∀ t m, e = .call t (.mutexRelease m) .finished → (b.mutexes m).owner = some t →
    b.waiters (.mutex m) = [] →
      b.switch = true ∨ ∀ u, b.Live u → (b.tcb u).state = .ready →
        b.priority u ≤ (b.tcb t).basePriority

open Board in
/-- The running task gives up what it was lent, and the others are as they were. -/
theorem Board.Prompt.unlock {t : TaskId} {m : Nat} (prompt : b.Prompt) (lifted : b.Lifted)
    (runs : b.Runs t) (safe : (b.mutexes m).owner = some t →
      b.switch = true ∨ ∀ u, b.Live u → (b.tcb u).state = .ready →
        b.priority u ≤ (b.tcb t).basePriority) : ((b.settle m).setMutex m ⟨0, none⟩).Prompt := by
  have switch : ((b.settle m).setMutex m ⟨0, none⟩).switch = b.switch := by
    simp only [setMutex, settle]
    split <;> rfl
  have current : ((b.settle m).setMutex m ⟨0, none⟩).current = b.current := by
    simp only [setMutex, settle]
    split <;> rfl
  have state : ∀ u, (((b.settle m).setMutex m ⟨0, none⟩).tcb u).state = (b.tcb u).state := by
    simp [setMutex, settle_tcb]
  have priority : ∀ u, ((b.settle m).setMutex m ⟨0, none⟩).priority u =
      if (b.mutexes m).owner = some u then (b.tcb u).basePriority else b.priority u :=
    b.settle_priority m
  have count : ∀ u, ((b.settle m).setMutex m ⟨0, none⟩).Live u ↔ b.Live u := by
    simp [setMutex, Live]
  rcases prompt with pending | ⟨c, hc, run, most⟩
  · exact .inl (switch.trans pending)
  · obtain rfl : t = c := Option.some.inj (runs.1.symm.trans hc)
    by_cases own : (b.mutexes m).owner = some t
    · rcases safe own with pending | below
      · exact .inl (switch.trans pending)
      · refine .inr ⟨t, current.trans hc, (state t).trans run, fun u live ready => ?_⟩
        have apart : u ≠ t := by
          rintro rfl
          cases ((state u).symm.trans ready).symm.trans run
        rw [priority, priority, if_pos own, if_neg fun h => apart (Option.some.inj (h.symm.trans own))]
        exact below u ((count u).mp live) ((state u).symm.trans ready)
    · refine .inr ⟨t, current.trans hc, (state t).trans run, fun u live ready => ?_⟩
      have before := most u ((count u).mp live) ((state u).symm.trans ready)
      rw [priority, priority, if_neg own]
      split
      · exact (lifted u ((count u).mp live)).trans before
      · exact before

open Board in
/-- Every other operation leaves the comparison as it is or requests a switch. -/
theorem BoardStep.prompt (h : BoardStep idle b e d) (lifted : b.Lifted) (safe : b.DropsSafely e)
    (prompt : b.Prompt) : d.Prompt := by
  cases h with
  | lock | reenter | pollMutex | take | pollSemaphore | put | drop | noSleep | resume =>
    exact prompt.congr rfl rfl rfl rfl
  | waitMutex | handOver | waitSemaphore | hand | sleep | tick => exact .inl rfl
  | unlock runs free nobody =>
    exact prompt.unlock lifted runs fun own => safe _ _ rfl own nobody
  | pass picks => exact picks.prompt

theorem Launched.prompt (launched : Launched idle s) : s.board.Prompt ∧ s.board.Lifted := by
  have sound := launched.sound
  constructor
  · obtain ⟨k, best, _, _, picks, shape⟩ := launched.shape
    rw [shape]
    rcases picks.prompt with requested | rest
    · cases requested
    · exact .inr rest
  · intro t live
    exact (launched.priority live).ge

theorem Trace.lifted (run : Trace idle past s) : s.board.Lifted :=
  run.induct (fun _ launched => launched.prompt.2) fun _ _ _ _ run lifted h =>
    (h.refines (Trace.sound run)).lifted (Trace.sound run) lifted

open Board in
/-- After a release that breaks the rule a ready task is ahead of the running one. -/
theorem BoardStep.overtaken (h : BoardStep idle b e d) (prompt : d.Prompt) : b.DropsSafely e := by
  intro t m event own nobody
  subst event
  cases h with
  | hand posts | put posts | drop posts => rcases posts with posts | ⟨_, posts, _⟩ <;> cases posts
  | handOver runs free found =>
    have queued := mem_of_first found
    simp [nobody] at queued
  | unlock runs free nobody =>
    rcases prompt with pending | ⟨c, hc, run, most⟩
    · apply Or.inl
      simpa [setMutex, settle, own] using pending
    · apply Or.inr
      intro u live ready
      obtain rfl : t = c := by simpa [setMutex, settle, own, runs.1] using hc
      have apart : u ≠ t := by
        rintro rfl
        cases ready.symm.trans runs.2
      have below : (b.settle m).priority u ≤ (b.settle m).priority t :=
        most u (by simpa [setMutex, Live] using live) (by simpa [setMutex, settle_tcb] using ready)
      rwa [settle_priority, settle_priority, if_pos own,
        if_neg fun h => apart (Option.some.inj (h.symm.trans own))] at below

/-- **The highest ready priority runs or a switch is requested**, in every state of a run,
if and only if no release in it drops a donation below a ready task. -/
theorem priority_preempts (run : Trace idle past s) :
    (s.Prompt ∧ ∀ x ∈ past, x.pre.Prompt) ↔ ∀ x ∈ past, DropsSafely x.pre x.event := by
  induction run with
  | start launched => exact ⟨fun _ x there => absurd there List.not_mem_nil,
      fun _ => ⟨launched.prompt.1, fun x there => absurd there List.not_mem_nil⟩⟩
  | @next past s t e run step ih =>
    have board := step.refines (Trace.sound run)
    simp only [List.mem_cons, forall_eq_or_imp]
    constructor
    · rintro ⟨after, here, before⟩
      exact ⟨board.overtaken after, ih.mp ⟨here, before⟩⟩
    · rintro ⟨safe, rest⟩
      obtain ⟨here, before⟩ := ih.mpr rest
      exact ⟨board.prompt (Trace.lifted run) safe here, here, before⟩

end

/-- `DropsSafely` as a check. -/
def dropsSafely (s : System) : Event → Bool
  | .call t (.mutexRelease m) _ => (s.kernel.mutexes m).owner = some t →
    s.kernel.waiters (.mutex m) = [] →
      s.kernel.pendSv = true ∨ ∀ u, s.kernel.Live u → (s.kernel.osTasks u).state = .ready →
        (s.kernel.osTasks u).currentPriority ≤ (s.kernel.osTasks t).basePriority
  | _ => true

theorem DropsSafely.of_check {s : System} {e : Event} (checked : dropsSafely s e) :
    DropsSafely s e := by
  intro t m event
  subst event
  exact of_decide_eq_true checked

/-- Task 1 runs at the priority of task 3 and hands the mutex over; task 3 gives it back. -/
theorem priority_preempts_handed : ∃ past s, Trace 0 past s ∧
    past.head?.map (·.event) = some (.call 3 (.mutexRelease 0) .finished) ∧
      s.kernel.pendSv = false ∧ s.Prompt ∧ ∀ x ∈ past, x.pre.Prompt := by
  obtain ⟨past, s, run, latest⟩ := rehearse_run
    (show rehearse 0 (fun _ => ⟨0, 1⟩) [0, 1, 2, 3] dropsSafely
      (fun past s => past.head?.map (·.event) = some (.call 3 (.mutexRelease 0) .finished) ∧
        s.kernel.pendSv = false)
      [.call 3 (.delay 1) .parked, .pass, .call 2 (.delay 2) .parked, .pass,
        .call 1 (.mutexAcquire 0 0) (.returned .success), .tick, .pass,
        .resume 3 (.delay 1) .finished, .call 3 (.mutexAcquire 0 9) .parked, .pass, .tick, .pass,
        .call 1 (.mutexRelease 0) .finished, .pass,
        .resume 3 (.mutexAcquire 0 9) (.returned .success), .call 3 (.mutexRelease 0) .finished] by
      decide +kernel)
  obtain ⟨event, settled⟩ := of_decide_eq_true latest
  have trace : Trace 0 past s := run.weaken (fun _ h => h.launched) fun _ _ _ h => h.1
  have safe : ∀ x ∈ past, DropsSafely x.pre x.event := by
    intro x there
    obtain ⟨_, _, step⟩ := run.mem there
    exact .of_check step.2
  exact ⟨past, s, trace, event, settled, (priority_preempts trace).mpr safe⟩

/-- A donation outlives the wait that made it. The release that drops it leaves task 1
running below task 2, which is ready, and requests no switch. -/
theorem drop_without_switch : ∃ past s, Trace 0 past s ∧
    past.head?.map (·.event) = some (.call 1 (.mutexRelease 0) .finished) ∧ ¬ s.Prompt := by
  obtain ⟨past, s, run, latest⟩ := rehearse_run
    (show rehearse 0 (fun _ => ⟨0, 1⟩) [0, 1, 2, 3] (fun _ _ => true)
      (fun past s => past.head?.map (·.event) = some (.call 1 (.mutexRelease 0) .finished) ∧
        s.kernel.pendSv = false ∧ s.kernel.currentTcb = some 1 ∧ s.kernel.Live 2 ∧
        (s.kernel.osTasks 2).state = .ready ∧
        (s.kernel.osTasks 1).currentPriority < (s.kernel.osTasks 2).currentPriority)
      [.call 3 (.delay 1) .parked, .pass, .call 2 (.delay 2) .parked, .pass,
        .call 1 (.mutexAcquire 0 0) (.returned .success), .tick, .pass,
        .resume 3 (.delay 1) .finished, .call 3 (.mutexAcquire 0 1) .parked, .pass, .tick, .pass,
        .resume 3 (.mutexAcquire 0 1) (.returned .timeout), .call 3 (.delay 9) .parked, .pass,
        .call 1 (.mutexRelease 0) .finished] by
      decide +kernel)
  obtain ⟨event, settled, current, live, ready, below⟩ := of_decide_eq_true latest
  refine ⟨past, s, run.weaken (fun _ h => h.launched) fun _ _ _ h => h.1, event, fun prompt => ?_⟩
  rcases prompt with pending | ⟨c, hc, _, most⟩
  · cases settled.symm.trans pending
  · obtain rfl : 1 = c := Option.some.inj (current.symm.trans hc)
    have := most 2 live ready
    omega

end Sentinel
