import Mathlib.Data.List.Chain
import Sentinel.Tasks.Sweep

/-! Timing. A task that delays itself between two statements leaves at least that many ticks in
between, whatever else is going on. -/

namespace Sentinel

open Runs (Transition Run)

/-- How long a call keeps its task from going on, at least. -/
def Call.pause : Call → Nat
  | .delay ms => ms.toNat
  | .mutexAcquire _ _ | .mutexRelease _ | .semaphoreAcquire _ _ | .semaphoreRelease _ => 0

def Move.isTick {ι : Type} : Move ι → Bool
  | .kernel .tick => true
  | _ => false

namespace Firmware

variable {δ ρ ι : Type}

/-- The ticks of a run. -/
def elapsed (past : List (Transition (Execution δ ρ) (Move ι))) : Nat :=
  past.countP fun x => x.event.isTick

/-- `n` ticks have gone by, the last change was after `m` of them, and the task has waited as
long as its place says. In a delay, the ticks of the delay come on top. -/
def Since (t : TaskId) (base : ρ → Nat) (m n : Nat) (s : Execution δ ρ) : Prop :=
  ∃ k, m + base (s.place t) + k ≤ n ∧
    ∀ ms, s.system.inside t = some (.delay ms) → s.system.board.Counts t (.delay ms) k

section
variable {fw : Firmware δ ρ ι} {J : TaskId → ρ → δ → Prop} {idle t u : TaskId}
  {changes : δ → δ → Bool} {gap : δ → Nat} {base : ρ → Nat} {m n k : Nat} {s s' : Execution δ ρ}
  {e : Event} {system : System} {d : δ} {a : Move ι} {ms : UInt32}

/-- A task that delays itself is in no wait queue. -/
theorem delay_apart {b : Board} (sound : b.Sound idle) (counts : b.Counts t (.delay ms) k)
    (o : Waitable) : t ∉ b.waiters o := by
  intro queued
  have on := (sound.queued o t queued).2
  have off : (b.tcb t).waitQueue = none := by
    by_cases early : k < ms.toNat
    · exact (counts.waits _ rfl early).2.2
    · exact (counts.expired _ rfl (by omega)).2.2.1
  cases off.symm.trans on

/-- A delay is over when its ticks have gone by. -/
theorem delay_over {b : Board} (counts : b.Counts t (.delay ms) k) (runs : b.Runs t) :
    ms.toNat ≤ k := by
  by_contra early
  have blocked := (counts.waits _ rfl (by omega)).1
  cases blocked.symm.trans runs.2

/-- What a call that has returned has waited for. -/
theorem waited {c : Call} {out : Outcome} {b b' : Board} (board : BoardStep idle b e b')
    (event : e = .call t c out ∨ e = .resume t c out)
    (awake : out ≠ .parked)
    (counts : ∀ ms, b.inside t = some (.delay ms) → b.Counts t (.delay ms) k) : c.pause ≤ k := by
  cases c with
  | mutexAcquire | mutexRelease | semaphoreAcquire | semaphoreRelease => exact Nat.zero_le k
  | delay ms =>
    rcases event with rfl | rfl
    · cases board with
      | hand posts | put posts | drop posts => rcases posts with posts | ⟨_, posts, _⟩ <;> cases posts
      | sleep => exact absurd rfl awake
      | noSleep => exact Nat.zero_le k
    · obtain ⟨runs, inside, _⟩ := board.of_resume
      exact delay_over (counts ms inside) runs

theorem Since.event (since : Since t base m n s)
    (call : ∀ {p c next out}, fw.code p = .call c next → base (next out) ≤ base p + c.pause)
    (placed : fw.Placed s) (sound : s.system.board.Sound idle)
    (step : Sentinel.Step idle s.system e system) (admits : fw.Admits s e) :
    Since t base m (n + if e = .tick then 1 else 0) ⟨system, d, fw.moved s e⟩ := by
  obtain ⟨k, level, counts⟩ := since
  have board := step.refines sound
  rcases fw.moved_cases s e t with ⟨same, silent⟩ | ⟨c, c', next, out, here, awake, event, after⟩
  · have quiet : ∀ c out, e ≠ .resume t c out := by
      rintro c out rfl
      obtain ⟨_, inside, result, _⟩ := board.of_resume
      obtain ⟨next, here⟩ := may_iff.mp (placed t c inside).1
      have awake : out ≠ .parked := by
        rw [result]
        cases c <;> simp [Call.result]
      exact (silent c next out here awake c).2 rfl
    by_cases parks : ∃ ms, e = .call t (.delay ms) .parked
    · obtain ⟨ms, rfl⟩ := parks
      refine ⟨0, ?_, ?_⟩
      · dsimp only
        rw [same]
        omega
      · intro ms' inside
        have start := board.counts
        cases start.inside.symm.trans inside
        exact start
    · refine ⟨k + if e = .tick then 1 else 0, ?_, ?_⟩
      · dsimp only
        rw [same]
        omega
      · intro ms inside
        rcases board.of_inside inside with before | now
        · have old := counts ms before
          exact board.counts_next sound old quiet
            (.inr fun o queued => absurd queued (delay_apart sound old o))
        · exact absurd ⟨ms, now⟩ parks
  · obtain ⟨rfl, _⟩ := placed.of_returned admits board here event
    have paused := waited board event awake counts
    have near : base (next out) ≤ base (s.place t) + c'.pause := call here
    refine ⟨0, ?_, ?_⟩
    · dsimp only
      rw [after]
      omega
    · intro ms inside
      rcases event with rfl | rfl
      · rcases board.of_inside inside with before | now
        · cases board.of_call.2.symm.trans before
        · cases now
          exact absurd rfl awake
      · have gone : system.board.inside t = none := by simp [board.of_resume.2.2.2]
        cases gone.symm.trans inside

/-- What the kernel does leaves the moments alone, and what an interrupt posts as well. -/
theorem Since.still (since : Since t base m n s) (system : s'.system = s.system)
    (near : base (s'.place t) ≤ base (s.place t)) : Since t base m n s' := by
  obtain ⟨k, level, counts⟩ := since
  refine ⟨k, by omega, ?_⟩
  rw [system]
  exact counts

end
end Firmware

/-! ### The radar -/

/-- A place of the radar task. -/
def Place.measures : Place → Bool
  | .reading _ _ | .receiving _ _ _ | .reporting _ _ | .resting _ => true
  | _ => false

/-- The ticks since the last ping, at least. -/
def Place.sincePing : Place → Nat
  | .reading _ (.arming _) | .reading _ (.pinging _) => 100
  | _ => 0

section
variable {p : Place} {d : Peripherals} {t : TaskId} {c : Call} {next : Outcome → Place}
  {out : Outcome} {f : Peripherals → Peripherals × Place}

theorem Place.measures_call (here : p.statement = .call c next) :
    (next out).measures = p.measures := by
  cases p with
  | greeting logging | reporting _ logging =>
    rcases Logging.statement_call here with ⟨_, _, _, after⟩ | ⟨_, _, after⟩ <;> rw [after] <;> rfl
  | receiving _ _ frame | sending _ _ frame =>
    obtain ⟨_, rfl⟩ := Frame.statement_call here
    rfl
  | reading _ phase =>
    obtain ⟨_, _, _, rfl⟩ := Phase.statement_call here
    rfl
  | resting | homed | settling | pausing =>
    cases here
    rfl
  | homing | turning | idling => cases here

theorem Place.measures_access (here : p.statement = .access f) :
    (f d).2.measures = p.measures := by
  cases p with
  | greeting logging | reporting _ logging =>
    obtain ⟨_, _, after, _⟩ := Logging.statement_access d here
    rw [after]
    rfl
  | receiving _ _ frame | sending _ _ frame =>
    rcases Frame.statement_access d here with ⟨reply, _, after⟩ | ⟨_, _, _, after⟩
    · rw [after]
      cases reply <;> rfl
    · rw [after]
      rfl
  | reading _ phase =>
    exact Phase.statement_outside d here (fun _ => rfl) fun _ => by split <;> rfl
  | homing a =>
    cases here
    dsimp only
    split <;> rfl
  | turning | idling =>
    cases here
    rfl
  | resting | homed | settling | pausing => cases here

/-- Only `ultrasonic_trigger` sends pings. -/
theorem Place.pings_access (here : p.statement = .access f) :
    p.measures ∧ 100 ≤ p.sincePing ∧ (f d).2.sincePing = 0 ∨
      (f d).1.pings = d.pings ∧ (f d).2.sincePing ≤ p.sincePing := by
  cases p with
  | greeting logging | reporting _ logging =>
    obtain ⟨_, _, after, _⟩ := Logging.statement_access d here
    obtain ⟨_, _, _, pings⟩ := Logging.access_kept d here
    rw [after]
    exact .inr ⟨pings, Nat.zero_le _⟩
  | receiving _ _ frame | sending _ _ frame =>
    right
    rcases Frame.statement_access d here with ⟨reply, _, after⟩ | ⟨_, _, _, after⟩
    · rw [after]
      cases reply <;> exact ⟨rfl, Nat.zero_le _⟩
    · rw [after]
      exact ⟨rfl, Nat.zero_le _⟩
  | reading angle phase =>
    cases phase with
    | waiting => cases here
    | pinging timeout =>
      cases here
      exact .inl ⟨rfl, Nat.le_refl _, rfl⟩
    | returning distance =>
      cases here
      right
      dsimp only
      split <;> exact ⟨rfl, Nat.zero_le _⟩
    | arming timeout =>
      cases here
      exact .inr ⟨rfl, Nat.le_refl _⟩
    | readingEnd | readingStart =>
      cases here
      exact .inr ⟨rfl, Nat.zero_le _⟩
  | homing a =>
    cases here
    right
    dsimp only
    split <;> exact ⟨rfl, Nat.zero_le _⟩
  | turning | idling =>
    cases here
    exact .inr ⟨rfl, Nat.zero_le _⟩
  | resting | homed | settling | pausing => cases here

/-- An interrupt neither sends a ping nor turns the servo. -/
theorem Irq.keeps (i : Irq) (d : Peripherals) :
    (radar.interrupt i d).1.pings = d.pings ∧ (radar.interrupt i d).1.pulses = d.pulses := by
  cases i with
  | usart => exact ⟨rfl, rfl⟩
  | capture sr ccr2 =>
    simp only [radar, Peripherals.tim2IrqHandler]
    split_ifs <;> exact ⟨rfl, rfl⟩

end

section
variable {past : RadarLog} {s : Execution Peripherals Place}

theorem RadarRun.measures (run : RadarRun past s) (t : TaskId) :
    (s.place t).measures = decide (t = radarTask) := by
  apply Firmware.invariant_of_run (J := fun t p _ => p.measures = decide (t = radarTask)) run
  · intro s wired t
    rw [wired.place, firstPlace]
    by_cases first : t = radarTask
    · simp [first, Place.measures]
    · rw [if_neg first, decide_eq_false first]
      split <;> rfl
  · intro t p d c next out mine here _
    rw [Place.measures_call here]
    exact mine
  · intro t p d f mine here
    rw [Place.measures_access (d := d) here]
    exact mine
  · intro _ _ _ _ _ _ _ mine _ _
    exact mine
  · intro _ _ _ _ mine
    exact mine

end

end Sentinel
