import Sentinel.Kernel.Effects
import Sentinel.Kernel.Boot

/-! Mutual exclusion. A mutex passes from its owner straight to a waiter, and the
waiter reads the result of its call long after that. -/

namespace Sentinel

open Runs (Transition Run)

/-- A mutex is released by its owner only. -/
def OwnerReleases (s : System) (e : Event) : Prop :=
  ∀ t m out, e = .call t (.mutexRelease m) out → (s.kernel.mutexes m).owner = some t

/-- Task `t` has returned from an acquire of `m` with success and has not released `m` since. -/
def Holds (m : Nat) (t : TaskId) : History → Prop
  | [] => False
  | x :: past => (∃ n, x.event.Returns t (.mutexAcquire m n) .success) ∨
      Holds m t past ∧ ∀ out, x.event ≠ .call t (.mutexRelease m) out

/-- The lock bit, the owner, and the results that woken tasks have yet to read agree. -/
structure Board.Excludes (m : Nat) (b : Board) : Prop where
  held : (b.mutexes m).lock = 1 → (b.mutexes m).owner ≠ none
  woken : ∀ t n, b.Woken t (.mutexAcquire m n) →
    (b.tcb t).waitResult = .success ∧ (b.mutexes m).owner = some t ∨
    (b.tcb t).waitResult = .timeout ∧ (b.mutexes m).owner ≠ some t

section
variable {idle : TaskId} {b d : Board} {e : Event} {m : Nat}

/-- A locked mutex has an owner, whoever releases it. -/
theorem BoardStep.held (h : BoardStep idle b e d)
    (held : (b.mutexes m).lock = 1 → (b.mutexes m).owner ≠ none) :
    (d.mutexes m).lock = 1 → (d.mutexes m).owner ≠ none := by
  cases h.mutexEffect m with
  | kept same => exact same ▸ held
  | locked _ _ _ _ _ _ after | unlocked _ _ _ _ _ after | handed _ _ _ _ _ _ after => simp [after]

theorem BoardStep.excludes (h : BoardStep idle b e d) (sound : b.Sound idle)
    (rule : ∀ t, e = .call t (.mutexRelease m) .finished → (b.mutexes m).owner = some t)
    (excludes : b.Excludes m) : d.Excludes m := by
  refine ⟨h.held excludes.held, ?_⟩
  · intro t n woken
    cases h.wakes sound rfl woken with
    | served _ _ result serves =>
      obtain ⟨_, _, _, _, owner⟩ := serves
      exact .inl ⟨result, owner⟩
    | expired queued _ result tick _ =>
      refine .inr ⟨result, fun owner => ?_⟩
      cases h.mutexEffect m with
      | kept same => exact (sound.owner m t (same ▸ owner)).2 queued
      | locked _ _ event | unlocked _ event | handed _ _ event => cases tick.symm.trans event
    | before woken kept =>
      have old := excludes.woken t n woken
      rw [kept]
      have busy : b.inside t ≠ none := by simp [woken.inside]
      cases h.mutexEffect m with
      | kept same => rwa [same]
      | locked u _ _ _ free opened after =>
        have ne : u ≠ t := fun same => busy (same ▸ free)
        have nobody : (b.mutexes m).owner = none := by
          rcases sound.locked m with unlocked | locked
          · simp [unlocked]
          · omega
        simp only [nobody, reduceCtorEq, and_false, false_or] at old
        exact .inr ⟨old.1, by simp [after, ne]⟩
      | unlocked u event _ free _ after =>
        have ne : u ≠ t := fun same => busy (same ▸ free)
        rcases old with ⟨_, owner⟩ | ⟨result, _⟩
        · exact absurd (Option.some.inj ((rule u event).symm.trans owner)) ne
        · exact .inr ⟨result, by simp [after]⟩
      | handed u next event _ free queued after =>
        have ne : u ≠ t := fun same => busy (same ▸ free)
        have other : next ≠ t := fun same => by
          simpa [same, woken.off] using (sound.queued _ _ queued).2
        rcases old with ⟨_, owner⟩ | ⟨result, _⟩
        · exact absurd (Option.some.inj ((rule u event).symm.trans owner)) ne
        · exact .inr ⟨result, by simp [after, other]⟩

/-- Success is returned to the owner, and a timeout to somebody else. -/
theorem BoardStep.returns_owner (h : BoardStep idle b e d) (sound : b.Sound idle)
    (excludes : b.Excludes m) {t : TaskId} {n : UInt32} {code : Code}
    (returns : e.Returns t (.mutexAcquire m n) code) :
    (code = .success → (d.mutexes m).owner = some t) ∧
    (code = .timeout → (d.mutexes m).owner ≠ some t) := by
  rcases returns with rfl | rfl
  · refine ⟨?_, ?_⟩
    · rintro rfl
      cases h.mutexEffect m with
      | kept _ _ untaken => exact absurd rfl (untaken t n)
      | locked _ _ event _ _ _ after =>
        cases event
        simp [after]
      | unlocked _ event | handed _ _ event => cases event
    · rintro rfl
      cases h with
      | hand posts | put posts | drop posts =>
        rcases posts with posts | ⟨_, posts, _⟩ <;> cases posts
      | pollMutex runs free locked other => exact other
  · have woken := excludes.woken t n (h.woken_of_resume sound)
    obtain ⟨_, _, out, rfl⟩ := h.of_resume
    obtain rfl : code = (b.tcb t).waitResult := by simpa [Call.result] using out
    constructor
    · intro success
      simpa [success] using woken
    · intro timeout
      simpa [timeout] using woken

/-- Nobody but the owner ends an ownership. -/
theorem BoardStep.owner_kept (h : BoardStep idle b e d) (sound : b.Sound idle) {t : TaskId}
    (rule : ∀ t, e = .call t (.mutexRelease m) .finished → (b.mutexes m).owner = some t)
    (owner : (b.mutexes m).owner = some t) (silent : ∀ out, e ≠ .call t (.mutexRelease m) out) :
    (d.mutexes m).owner = some t := by
  cases h.mutexEffect m with
  | kept same => rwa [same]
  | locked _ _ _ _ _ opened =>
    rcases sound.locked m with unlocked | locked
    · simp [unlocked] at owner
    · omega
  | unlocked u event | handed u _ event =>
    obtain rfl : u = t := Option.some.inj ((rule u event).symm.trans owner)
    exact absurd event (silent _)

end

/-- A launched system in which `m` is free. -/
def LaunchedFree (m : Nat) (idle : TaskId) (s : System) : Prop :=
  Launched idle s ∧ (s.kernel.mutexes m).lock = 0

section
variable {idle : TaskId} {past : History} {s : System} {m : Nat}

theorem OwnerReleases.of_ruled (run : Run (LaunchedFree m idle) (Ruled OwnerReleases idle) past s) :
    Trace idle past s := run.weaken (fun _ h => h.1) fun _ _ _ h => h.1

theorem Launched.excludes (launched : Launched idle s) (free : (s.kernel.mutexes m).lock = 0) :
    s.board.Excludes m := by
  obtain ⟨_, _, _, _, nobody⟩ := launched
  refine ⟨fun held => absurd (free.symm.trans held) (by decide), fun t n woken => ?_⟩
  cases (nobody t).symm.trans woken.inside

theorem OwnerReleases.excludes (run : Run (LaunchedFree m idle) (Ruled OwnerReleases idle) past s) :
    s.board.Excludes m := by
  induction run with
  | start launched => exact launched.1.excludes launched.2
  | next run step excludes =>
    have sound := (of_ruled run).sound
    exact (step.1.refines sound).excludes sound (fun t event => step.2 t m _ event) excludes

theorem OwnerReleases.owner_of_holds
    (run : Run (LaunchedFree m idle) (Ruled OwnerReleases idle) past s) {t : TaskId}
    (holds : Holds m t past) : (s.kernel.mutexes m).owner = some t := by
  induction run with
  | start => cases holds
  | @next past s s' e run step ih =>
    have sound := (of_ruled run).sound
    have board := step.1.refines sound
    rcases holds with ⟨n, returns⟩ | ⟨before, silent⟩
    · exact (board.returns_owner sound (excludes run) returns).1 rfl
    · exact board.owner_kept sound (fun u event => step.2 u m _ event) (ih before) silent

/-- **Mutual exclusion.** -/
theorem mutual_exclusion (run : Run (LaunchedFree m idle) (Ruled OwnerReleases idle) past s) :
    ((s.kernel.mutexes m).lock = 1 ↔ (s.kernel.mutexes m).owner ≠ none) ∧
    (∀ x ∈ past, ∀ t n, x.event.Returns t (.mutexAcquire m n) .success →
      (x.post.kernel.mutexes m).owner = some t) ∧
    (∀ x ∈ past, ∀ t n, x.event.Returns t (.mutexAcquire m n) .timeout →
      (x.post.kernel.mutexes m).owner ≠ some t) ∧
    (∀ t, Holds m t past → (s.kernel.mutexes m).owner = some t) ∧
    (∀ t u, Holds m t past → Holds m u past → t = u) := by
  have results : ∀ x ∈ past, ∀ t n code, x.event.Returns t (.mutexAcquire m n) code →
      (code = .success → (x.post.kernel.mutexes m).owner = some t) ∧
      (code = .timeout → (x.post.kernel.mutexes m).owner ≠ some t) := by
    intro x hx t n code returns
    obtain ⟨_, before, step⟩ := run.mem hx
    have sound := (OwnerReleases.of_ruled before).sound
    exact (step.1.refines sound).returns_owner sound (OwnerReleases.excludes before) returns
  refine ⟨⟨(OwnerReleases.excludes run).held, fun owned => ?_⟩,
    fun x hx t n returns => (results x hx t n _ returns).1 rfl,
    fun x hx t n returns => (results x hx t n _ returns).2 rfl,
    fun t holds => OwnerReleases.owner_of_holds run holds, fun t u ht hu => ?_⟩
  · rcases (OwnerReleases.of_ruled run).sound.locked m with unlocked | locked
    · have nobody : (s.kernel.mutexes m).owner = none := congrArg OsMutex.owner unlocked
      exact absurd nobody owned
    · exact locked
  · have first := OwnerReleases.owner_of_holds run ht
    have second := OwnerReleases.owner_of_holds run hu
    exact Option.some.inj (first.symm.trans second)

/-- `OwnerReleases`, to be evaluated. -/
def ownerReleases (s : System) : Event → Bool
  | .call t (.mutexRelease m) _ => (s.kernel.mutexes m).owner = some t
  | _ => true

/-- Task 1 waits for the mutex of task 2, is handed it, and returns with success. -/
theorem mutual_exclusion_handed : ∃ past s,
    Run (LaunchedFree 0 0) (Ruled OwnerReleases 0) past s ∧ Holds 0 1 past ∧
      (s.kernel.mutexes 0).owner = some 1 := by
  let events : List Event :=
    [.call 2 (.mutexAcquire 0 0) (.returned .success), .call 2 (.delay 1) .parked, .pass,
      .call 1 (.mutexAcquire 0 waitForever) .parked, .tick, .pass,
      .resume 2 (.delay 1) .finished, .call 2 (.mutexRelease 0) .finished,
      .call 2 (.delay 7) .parked, .pass,
      .resume 1 (.mutexAcquire 0 waitForever) (.returned .success)]
  obtain ⟨past, s, run, latest⟩ := rehearse_run
    (show rehearse 0 (fun _ => ⟨0, 1⟩) [0, 1, 2] ownerReleases
      (fun past _ => past.head?.map (·.event) =
        some (.resume 1 (.mutexAcquire 0 waitForever) (.returned .success))) events by
      decide +kernel)
  have run' : Run (LaunchedFree 0 0) (Ruled OwnerReleases 0) past s := by
    refine run.weaken (fun s h => ⟨h.launched, by simp [h.mutexes]⟩) fun s e t h => ⟨h.1, ?_⟩
    rintro t m out rfl
    exact of_decide_eq_true h.2
  have holds : Holds 0 1 past := by
    cases past with
    | nil => simp at latest
    | cons x past => exact .inl ⟨waitForever, .inr (by simpa using latest)⟩
  exact ⟨past, s, run', holds, (mutual_exclusion run').2.2.2.1 1 holds⟩

/-- No call reads through a NULL pointer when every mutex was free at launch. -/
theorem calls_complete
    (run : Run (fun s => Launched idle s ∧ ∀ m, (s.kernel.mutexes m).lock = 0) (Step idle) past s)
    {t : TaskId} (runs : s.Runs t) (c : Call) : ∃ out k, c.exec s.kernel = some (out, k) := by
  have trace : Trace idle past s := run.weaken (fun _ h => h.1) fun _ _ _ h => h
  have held : ∀ m, (s.kernel.mutexes m).lock = 1 → (s.kernel.mutexes m).owner ≠ none := by
    clear runs trace
    induction run with
    | start launched => exact fun m held => absurd ((launched.2 m).symm.trans held) (by decide)
    | next run step ih =>
      have trace : Trace idle _ _ := run.weaken (fun _ h => h.1) fun _ _ _ h => h
      exact fun m => (step.refines trace.sound).held (ih m)
  have current : s.kernel.currentTcb = some t := runs.1
  cases c with
  | mutexRelease m | semaphoreRelease x => exact ⟨_, _, rfl⟩
  | semaphoreAcquire x n =>
    simp only [Call.exec, Kernel.osSemaphoreAcquire, Kernel.osEnterCritical, current]
    split_ifs
    · exact ⟨_, _, rfl⟩
    · exact ⟨_, _, rfl⟩
    · rw [Option.map_some]
      split <;> exact ⟨_, _, rfl⟩
  | delay ms =>
    simp only [Call.exec, Kernel.osDelay, Kernel.osEnterCritical, current]
    split_ifs <;> exact ⟨_, _, rfl⟩
  | mutexAcquire m n =>
    simp only [Call.exec, Kernel.osMutexAcquire, Kernel.osEnterCritical, current]
    split_ifs with opened own
    · exact ⟨_, _, rfl⟩
    · exact ⟨_, _, rfl⟩
    · exact ⟨_, _, rfl⟩
    · have locked : (s.kernel.mutexes m).lock = 1 := by
        rcases trace.sound.locked m with unlocked | locked
        · exact absurd (congrArg OsMutex.lock unlocked) opened
        · exact locked
      obtain ⟨owner, own⟩ := Option.ne_none_iff_exists'.mp (held m locked)
      simp only [own]
      split <;> exact ⟨_, _, rfl⟩

end

/-- The event names no mutex from `n` on. -/
def Event.mutexBelow (n : Nat) : Event → Bool
  | .call _ (.mutexAcquire m _) _ | .call _ (.mutexRelease m) _ => m < n
  | _ => true

/-- A mutex that no event names stays free. -/
theorem owner_below {idle : TaskId} {semaphores : Nat → OsSemaphore}
    {rule : System → Event → Prop} {past : History} {s : System} {n m : Nat} {t : TaskId}
    (run : Run (Started idle semaphores) (Ruled rule idle) past s)
    (below : ∀ s e, rule s e → e.mutexBelow n) (own : (s.kernel.mutexes m).owner = some t) :
    m < n := by
  by_contra high
  have untouched : s.kernel.mutexes m = ⟨0, none⟩ := by
    clear own
    induction run with
    | start h => exact h.mutexes m
    | @next past s s' e run step ih =>
      have trace : Trace idle past s := run.weaken (fun _ h => h.launched) fun _ _ _ h => h.1
      have named := below s e step.2
      cases (step.1.refines trace.sound).mutexEffect m with
      | kept same => exact same.trans ih
      | locked _ _ event | unlocked _ event | handed _ _ event =>
        simp only [event, Event.mutexBelow, decide_eq_true_eq] at named
        exact absurd named high
  rw [untouched] at own
  cases own

end Sentinel
