import Sentinel.Kernel.Deadlines

/-! What the calls hand back. A wait without a deadline ends in success only, and a failure is the
answer to a task that asks for a mutex that it has. -/

namespace Sentinel

open Runs (Transition Run)

/-- Every wait is still on, or has run out of time, or has been ended by a release. -/
def Board.Tracked (b : Board) : Prop :=
  ∀ t c, b.inside t = some c → (∃ k, b.Counts t c k) ∨ b.Handed t

section
variable {idle : TaskId} {b d : Board} {e : Event} {t : TaskId} {c : Call}

theorem BoardStep.tracked (h : BoardStep idle b e d) (sound : b.Sound idle) (tracked : b.Tracked) :
    d.Tracked := by
  intro t c inside
  rcases h.of_inside inside with before | parks
  · have silent : ∀ c out, e ≠ .resume t c out := by
      rintro c' out rfl
      obtain ⟨_, _, _, rfl⟩ := h.of_resume
      simp at inside
    rcases tracked t c before with ⟨k, counts⟩ | handed
    · by_cases alone : e = .tick ∨ ∀ o, t ∈ b.waiters o → t ∈ d.waiters o
      · exact .inl ⟨_, h.counts_next sound counts silent alone⟩
      · push Not at alone
        obtain ⟨untimed, o, queued, left⟩ := alone
        exact .inr (h.handed_of_left sound untimed queued left)
    · exact .inr (h.handed_next sound handed silent).1
  · subst parks
    exact .inl ⟨0, h.counts⟩

theorem Trace.tracked {past : History} {s : System} (run : Trace idle past s) :
    s.board.Tracked := by
  induction run with
  | start launched =>
    obtain ⟨_, _, _, _, nobody⟩ := launched
    intro t c inside
    cases (nobody t).symm.trans inside
  | next run step ih => exact (step.refines (Trace.sound run)).tracked (Trace.sound run) ih

/-- A task that runs again after a wait has been handed what it waited for, or its time is up. -/
theorem Board.Tracked.woken (tracked : b.Tracked) (runs : b.Runs t) (inside : b.inside t = some c) :
    (∃ n, c.deadline = some n ∧ (c.waitsOn ≠ none → (b.tcb t).waitResult = .timeout)) ∨
      (b.tcb t).waitResult = .success := by
  have awake : (b.tcb t).state ≠ .blocked := by simp [runs.2]
  rcases tracked t c inside with ⟨k, counts⟩ | handed
  · cases limit : c.deadline with
    | none => exact absurd (counts.endless limit).1 awake
    | some n =>
      by_cases early : k < n
      · exact absurd (counts.waits n limit early).1 awake
      · exact .inl ⟨n, rfl, (counts.expired n limit (by omega)).2.2.2⟩
  · exact .inr handed.waitResult

/-- The code of a call that returns at once. -/
theorem BoardStep.code_of_call {code : Code} (h : BoardStep idle b (.call t c (.returned code)) d)
    (sound : b.Sound idle) :
    (code = .fail ↔ ∃ m n, c = .mutexAcquire m n ∧ (b.mutexes m).owner = some t) ∧
      (code = .timeout → c.deadline = some 0) := by
  cases h with
  | hand posts | put posts | drop posts => rcases posts with posts | ⟨_, posts, _⟩ <;> cases posts
  | lock _ _ opened =>
    refine ⟨⟨by simp, ?_⟩, by simp⟩
    rintro ⟨m, n, same, own⟩
    cases same
    cases (sound.owner_of_opened opened).symm.trans own
  | reenter _ _ own => exact ⟨⟨fun _ => ⟨_, _, rfl, own⟩, fun _ => rfl⟩, by simp⟩
  | pollMutex _ _ _ other =>
    refine ⟨⟨by simp, ?_⟩, fun _ => rfl⟩
    rintro ⟨m, n, same, own⟩
    cases same
    exact absurd own other
  | take => exact ⟨by simp, by simp⟩
  | pollSemaphore => exact ⟨by simp, fun _ => rfl⟩

/-- The code of a call that returns after a wait. -/
theorem BoardStep.code_of_resume {code : Code}
    (h : BoardStep idle b (.resume t c (.returned code)) d) (tracked : b.Tracked) :
    code ≠ .fail ∧ (code = .timeout → ∃ n, c.deadline = some n) := by
  obtain ⟨runs, inside, result, _⟩ := h.of_resume
  have waits : c.waitsOn ≠ none ∧ code = (b.tcb t).waitResult := by
    cases c with
    | mutexAcquire | semaphoreAcquire => exact ⟨nofun, by simpa [Call.result] using result⟩
    | mutexRelease | semaphoreRelease | delay => cases result
  rcases tracked.woken runs inside with ⟨n, limit, expired⟩ | success
  · rw [waits.2, expired waits.1]
    exact ⟨by simp, fun _ => ⟨n, limit⟩⟩
  · rw [waits.2, success]
    exact ⟨by simp, by simp⟩

end

section
variable {idle : TaskId} {past : History} {s : System} {x : Transition System Event} {t : TaskId}
  {c : Call} {code : Code}

/-- **Return codes.** `OS_FAIL` is what a task gets at once from a mutex that it owns, and nobody
gets it otherwise. `OS_TIMEOUT` comes from calls with a deadline only, at once if the deadline is
zero. What is left is `OS_SUCCESS`. -/
theorem return_codes (run : Trace idle past s) (there : x ∈ past) (returns : x.event.Returns t c code) :
    (code = .fail ↔ x.event = .call t c (.returned code) ∧
      ∃ m n, c = .mutexAcquire m n ∧ (x.pre.kernel.mutexes m).owner = some t) ∧
    (code = .timeout → ∃ n, c.deadline = some n ∧
      (x.event = .call t c (.returned code) → n = 0)) := by
  obtain ⟨_, before, step⟩ := run.mem there
  have sound := Trace.sound before
  have board := step.refines sound
  rcases returns with event | event <;> rw [event] at board ⊢
  · obtain ⟨fails, times⟩ := board.code_of_call sound
    refine ⟨fails.trans ⟨fun own => ⟨rfl, own⟩, fun own => own.2⟩, ?_⟩
    intro timeout
    exact ⟨0, times timeout, fun _ => rfl⟩
  · obtain ⟨fails, times⟩ := board.code_of_resume (Trace.tracked before)
    refine ⟨by simp [fails], ?_⟩
    intro timeout
    obtain ⟨n, limit⟩ := times timeout
    exact ⟨n, limit, nofun⟩

end

/-- A task asks twice for a mutex, and waits in vain for a token. -/
theorem return_codes_failed : ∃ past s, Trace 0 past s ∧
    (∃ x ∈ past, x.event = .call 1 (.mutexAcquire 0 waitForever) (.returned .fail) ∧
      (x.pre.kernel.mutexes 0).owner = some 1) ∧
    ∃ x ∈ past, x.event = .resume 1 (.semaphoreAcquire 0 1) (.returned .timeout) ∧
      ∃ n, (Call.semaphoreAcquire 0 1).deadline = some n := by
  let events : List Event :=
    [.call 1 (.mutexAcquire 0 0) (.returned .success),
      .call 1 (.mutexAcquire 0 waitForever) (.returned .fail),
      .call 1 (.semaphoreAcquire 0 1) .parked, .pass, .tick, .pass,
      .resume 1 (.semaphoreAcquire 0 1) (.returned .timeout)]
  obtain ⟨past, s, run, played⟩ := rehearse_run
    (show rehearse 0 (fun _ => ⟨0, 1⟩) [0, 1] (fun _ _ => true)
      (fun past _ => past.map (·.event) = events.reverse) events by decide +kernel)
  have run' : Trace 0 past s := run.weaken (fun _ h => h.launched) fun _ _ _ h => h.1
  have same : past.map (·.event) = events.reverse := of_decide_eq_true played
  have made : ∀ e ∈ events.reverse, ∃ x ∈ past, x.event = e := by
    intro e there
    rw [← same] at there
    exact List.mem_map.mp there
  obtain ⟨x, there, fails⟩ :=
    made (.call 1 (.mutexAcquire 0 waitForever) (.returned .fail)) (by simp [events])
  obtain ⟨y, there', expires⟩ :=
    made (.resume 1 (.semaphoreAcquire 0 1) (.returned .timeout)) (by simp [events])
  refine ⟨past, s, run', ⟨x, there, fails, ?_⟩, y, there', expires, ?_⟩
  · obtain ⟨_, m, n, same, own⟩ := (return_codes run' there (.inl fails)).1.mp rfl
    cases same
    exact own
  · obtain ⟨n, limit, _⟩ := (return_codes run' there' (.inr expires)).2 rfl
    exact ⟨n, limit⟩

end Sentinel
