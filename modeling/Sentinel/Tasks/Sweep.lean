import Sentinel.Tasks.Locks

/-! The motion of the servo. The sweep homes in small steps from the centre, and from then on
swings between the ends, so that no command asks for a jump. -/

namespace Sentinel

open Runs (Transition Run)

/-- The angle of the `n`-th command after homing: a triangle of 72 steps. -/
def wave (n : Nat) : Nat := 5 * (if n % 72 ≤ 36 then n % 72 else 72 - n % 72)

/-- The angle of the `k`-th command. The first 19 are those of the homing sequence. -/
def angleAt (k : Nat) : Nat := if k < 19 then 90 - 5 * k else wave (k - 19)

/-- The pulses after `k` commands, latest first. -/
def commands : Nat → List UInt32
  | 0 => [servoCentre]
  | k + 1 => servoSetAngle servoPeriodUs (UInt16.ofNat (angleAt k)) :: commands k

/-- The variables `angle` and `step` at the `n`-th command after homing. -/
def swing (n : Nat) : Int16 × Int16 :=
  (Int16.ofNat (wave n), if n % 72 < 36 then sweepStepDeg else -sweepStepDeg)

/-- The loop variable of the homing sequence. -/
def homeAngle (k : Nat) : Int16 := 90 - Int16.ofNat (5 * k)

theorem wave_mod (n : Nat) : wave (n % 72) = wave n := by simp [wave]

theorem swing_mod (n : Nat) : swing (n % 72) = swing n := by simp [swing, wave_mod]

theorem advance_swing (n : Nat) : advance (swing n).1 (swing n).2 = swing (n + 1) := by
  have round : ∀ r : Fin 72, advance (swing r.val).1 (swing r.val).2 = swing (r.val + 1) := by
    decide +kernel
  have next : swing (n % 72 + 1) = swing (n + 1) := by
    rw [← swing_mod (n % 72 + 1), ← swing_mod (n + 1)]
    congr 1
    omega
  rw [← swing_mod n, ← next]
  exact round ⟨n % 72, Nat.mod_lt n (by decide)⟩

theorem swing_degrees (n : Nat) : (swing n).1.toUInt16 = UInt16.ofNat (wave n) := by
  have round : ∀ r : Fin 72, (swing r.val).1.toUInt16 = UInt16.ofNat (wave r.val) := by
    decide +kernel
  rw [← swing_mod n, ← wave_mod n]
  exact round ⟨n % 72, Nat.mod_lt n (by decide)⟩

theorem home_degrees {k : Nat} (early : k < 19) : homeAngle k ≥ 0 ∧
    (homeAngle k).toUInt16 = UInt16.ofNat (angleAt k) ∧
    homeAngle k - sweepStepDeg = homeAngle (k + 1) := by
  have steps : ∀ k : Fin 19, homeAngle k.val ≥ 0 ∧
      (homeAngle k.val).toUInt16 = UInt16.ofNat (angleAt k.val) ∧
      homeAngle k.val - sweepStepDeg = homeAngle (k.val + 1) := by decide +kernel
  exact steps ⟨k, early⟩

/-! ### The commands -/

/-- Every angle is one of 37. -/
theorem angleAt_step (k : Nat) : ∃ j, j ≤ 36 ∧ angleAt k = 5 * j ∧
    ∃ i, i ≤ 36 ∧ angleAt (k + 1) = 5 * i ∧ i ≤ j + 1 ∧ j ≤ i + 1 := by
  unfold angleAt wave
  by_cases home : k + 1 < 19
  · refine ⟨18 - k, by omega, ?_, 18 - (k + 1), by omega, ?_, by omega, by omega⟩
    · rw [if_pos (by omega)]
      omega
    · rw [if_pos home]
      omega
  · rw [if_neg home]
    refine ⟨if k < 19 then 18 - k else
      if (k - 19) % 72 ≤ 36 then (k - 19) % 72 else 72 - (k - 19) % 72, ?_, ?_, _, ?_, rfl, ?_, ?_⟩ <;>
      split_ifs <;> omega

/-- The pulse for one of the 37 angles, within the range of the servo and close to its neighbours. -/
theorem pulse_steps {j i : Nat} (first : j ≤ 36) (second : i ≤ 36) (up : i ≤ j + 1)
    (down : j ≤ i + 1) :
    let pulse := fun j => servoSetAngle servoPeriodUs (UInt16.ofNat (5 * j))
    servoMinUs ≤ pulse j ∧ pulse j ≤ servoMaxUs ∧ pulse j ≤ pulse i + 28 := by
  have all : ∀ j i : Fin 37, i.val ≤ j.val + 1 → j.val ≤ i.val + 1 →
      servoMinUs ≤ servoSetAngle servoPeriodUs (UInt16.ofNat (5 * j.val)) ∧
      servoSetAngle servoPeriodUs (UInt16.ofNat (5 * j.val)) ≤ servoMaxUs ∧
      servoSetAngle servoPeriodUs (UInt16.ofNat (5 * j.val)) ≤
        servoSetAngle servoPeriodUs (UInt16.ofNat (5 * i.val)) + 28 := by decide +kernel
  exact all ⟨j, by omega⟩ ⟨i, by omega⟩ up down

/-- Two pulses between which the servo does not jump. -/
def Near (p q : UInt32) : Prop := p ≤ q + 28 ∧ q ≤ p + 28

theorem commands_near (k : Nat) : (commands k).IsChain Near := by
  induction k with
  | zero => exact .singleton _
  | succ k ih =>
    cases k with
    | zero =>
      have near : Near (servoSetAngle servoPeriodUs (UInt16.ofNat (angleAt 0))) servoCentre := by
        unfold Near
        decide +kernel
      exact .cons_cons near (.singleton _)
    | succ k =>
      obtain ⟨j, hj, first, i, hi, second, up, down⟩ := angleAt_step k
      refine .cons_cons ?_ ih
      rw [Near, first, second]
      exact ⟨(pulse_steps hi hj down up).2.2, (pulse_steps hj hi up down).2.2⟩

theorem commands_within {k : Nat} {pulse : UInt32} (there : pulse ∈ commands k) :
    servoMinUs ≤ pulse ∧ pulse ≤ servoMaxUs := by
  induction k with
  | zero =>
    obtain rfl := List.mem_singleton.mp there
    decide +kernel
  | succ k ih =>
    rcases List.mem_cons.mp there with rfl | there
    · obtain ⟨j, hj, first, _⟩ := angleAt_step k
      rw [first]
      obtain ⟨low, high, _⟩ := pulse_steps hj hj (Nat.le_succ j) (Nat.le_succ j)
      exact ⟨low, high⟩
    · exact ih there

theorem commands_length (k : Nat) : (commands k).length = k + 1 := by
  induction k with
  | zero => rfl
  | succ k ih => rw [commands, List.length_cons, ih]

/-- In any 72 commands after homing every one of the 37 angles comes up. -/
theorem wave_covers (n j : Nat) (inside : j ≤ 36) : ∃ i < 72, wave (n + i) = 5 * j := by
  refine ⟨(72 + j - n % 72) % 72, Nat.mod_lt _ (by decide), ?_⟩
  have here : (n + (72 + j - n % 72) % 72) % 72 = j := by omega
  rw [wave, here, if_pos inside]

theorem commands_getElem {k i : Nat} (made : i < k) :
    (commands k)[i]? = some (servoSetAngle servoPeriodUs (UInt16.ofNat (angleAt (k - 1 - i)))) := by
  induction k generalizing i with
  | zero => cases made
  | succ k ih =>
    cases i with
    | zero => rfl
    | succ i =>
      have same : k + 1 - 1 - (i + 1) = k - 1 - i := by omega
      rw [commands, List.getElem?_cons_succ, ih (by omega), same]

/-- The latest 72 pulses are for all angles. -/
theorem commands_cover {k j : Nat} (late : 91 ≤ k) (inside : j ≤ 36) :
    servoSetAngle servoPeriodUs (UInt16.ofNat (5 * j)) ∈ (commands k).take 72 := by
  obtain ⟨i, early, angle⟩ := wave_covers (k - 91) j inside
  have there : angleAt (k - 1 - (71 - i)) = 5 * j := by
    have index : k - 1 - (71 - i) - 19 = k - 91 + i := by omega
    rw [angleAt, if_neg (by omega), index, angle]
  have here := commands_getElem (by omega : 71 - i < k)
  rw [there] at here
  refine List.mem_of_getElem? (i := 71 - i) ?_
  rw [List.getElem?_take_of_lt (by omega), here]

/-! ### Where the sweep is -/

/-- What the place of the sweep says of the pulses set so far. -/
def Place.follows (pulses : List UInt32) : Place → Prop
  | .greeting _ => pulses = commands 0
  | .homing a => ∃ k ≤ 19, a = homeAngle k ∧ pulses = commands k
  | .homed a => ∃ k < 19, a = homeAngle k ∧ pulses = commands (k + 1)
  | .settling => pulses = commands 19
  | .turning angle step => ∃ n, (angle, step) = swing n ∧ pulses = commands (19 + n)
  | .sending angle step _ => ∃ n, (angle, step) = swing n ∧ pulses = commands (19 + n + 1)
  | .pausing angle step => ∃ n, (angle, step) = swing (n + 1) ∧ pulses = commands (19 + n + 1)
  | .reading _ _ | .receiving _ _ _ | .reporting _ _ | .resting _ | .idling => False

/-- A place of the sweep. -/
def Place.sweeps : Place → Bool
  | .reading _ _ | .receiving _ _ _ | .reporting _ _ | .resting _ | .idling => false
  | _ => true

/-- The sweep alone sets pulses, and it sets those of its program. -/
structure Follows (t : TaskId) (p : Place) (d : Peripherals) : Prop where
  period : d.pwmPeriodUs = servoPeriodUs
  sweep : t = sweepTask → p.follows d.pulses
  other : t ≠ sweepTask → p.sweeps = false

section
variable {p : Place} {d : Peripherals} {t : TaskId} {c : Call} {next : Outcome → Place}
  {out : Outcome} {f : Peripherals → Peripherals × Place}

theorem Place.follows_call {pulses : List UInt32} (follows : p.follows pulses)
    (here : p.statement = .call c next) : (next out).follows pulses := by
  cases p with
  | greeting logging =>
    rcases Logging.statement_call here with ⟨_, _, _, after⟩ | ⟨_, _, after⟩
    · rw [after]
      exact follows
    · rw [after]
      exact ⟨0, by decide, rfl, follows⟩
  | homed a =>
    obtain ⟨k, early, rfl, same⟩ := follows
    cases here
    exact ⟨k + 1, early, (home_degrees early).2.2, same⟩
  | settling =>
    cases here
    exact ⟨0, rfl, follows⟩
  | sending angle step frame =>
    obtain ⟨_, rfl⟩ := Frame.statement_call here
    exact follows
  | pausing angle step =>
    obtain ⟨n, same, pulses⟩ := follows
    cases here
    exact ⟨n + 1, same, pulses⟩
  | homing | turning => cases here
  | reading | receiving | reporting | resting | idling => cases follows

theorem Place.sweeps_call (here : p.statement = .call c next) : (next out).sweeps = p.sweeps := by
  cases p with
  | greeting logging | reporting _ logging =>
    rcases Logging.statement_call here with ⟨_, _, _, after⟩ | ⟨_, _, after⟩ <;> rw [after] <;> rfl
  | receiving _ _ frame | sending _ _ frame =>
    obtain ⟨_, rfl⟩ := Frame.statement_call here
    rfl
  | reading _ phase =>
    obtain ⟨_, _, _, rfl⟩ := Phase.statement_call here
    rfl
  | resting | homed | settling | pausing =>
    cases here
    rfl
  | homing | turning | idling => cases here

/-- The places other than those of the sweep set no pulses. -/
theorem Place.access_outside (outside : p.sweeps = false) (here : p.statement = .access f) :
    (f d).1.pulses = d.pulses ∧ (f d).1.pwmPeriodUs = d.pwmPeriodUs ∧ (f d).2.sweeps = false := by
  cases p with
  | reporting _ logging =>
    obtain ⟨_, after, place, _⟩ := Logging.statement_access d here
    rw [place]
    obtain ⟨pulses, period, _⟩ := Logging.access_kept d here
    exact ⟨pulses, period, rfl⟩
  | receiving _ _ frame =>
    rcases Frame.statement_access d here with ⟨reply, _, after⟩ | ⟨_, _, _, after⟩
    · rw [after]
      cases reply <;> exact ⟨rfl, rfl, rfl⟩
    · rw [after]
      exact ⟨rfl, rfl, rfl⟩
  | reading _ phase =>
    cases phase with
    | waiting => cases here
    | returning distance =>
      cases here
      refine ⟨rfl, rfl, ?_⟩
      dsimp only
      split <;> rfl
    | arming | pinging | readingEnd | readingStart =>
      cases here
      exact ⟨rfl, rfl, rfl⟩
  | idling =>
    cases here
    exact ⟨rfl, rfl, rfl⟩
  | resting => cases here
  | greeting | homing | homed | settling | turning | sending | pausing => cases outside

theorem Place.follows_access (period : d.pwmPeriodUs = servoPeriodUs) (follows : p.follows d.pulses)
    (here : p.statement = .access f) :
    (f d).2.follows (f d).1.pulses ∧ (f d).1.pwmPeriodUs = servoPeriodUs := by
  cases p with
  | greeting logging =>
    obtain ⟨_, after, place, _⟩ := Logging.statement_access d here
    obtain ⟨pulses, same, _⟩ := Logging.access_kept d here
    rw [place, pulses, same]
    exact ⟨follows, period⟩
  | homing a =>
    obtain ⟨k, early, rfl, pulses⟩ := follows
    cases here
    dsimp only
    by_cases done : k = 19
    · subst done
      have home : ¬ homeAngle 19 ≥ 0 := by decide
      rw [if_neg home]
      exact ⟨pulses, period⟩
    · obtain ⟨more, degrees, _⟩ := home_degrees (by omega : k < 19)
      rw [if_pos more]
      refine ⟨⟨k, by omega, rfl, ?_⟩, period⟩
      simp only [Peripherals.setAngle, commands, period, pulses, degrees]
  | turning angle step =>
    obtain ⟨n, same, pulses⟩ := follows
    cases here
    refine ⟨⟨n, same, ?_⟩, period⟩
    obtain rfl : angle = (swing n).1 := congrArg Prod.fst same
    have late : angleAt (19 + n) = wave n := by simp [angleAt]
    simp only [Peripherals.setAngle, commands, period, pulses, swing_degrees, late]
  | sending angle step frame =>
    obtain ⟨n, same, pulses⟩ := follows
    rcases Frame.statement_access d here with ⟨reply, _, after⟩ | ⟨_, _, _, after⟩
    · rw [after]
      refine ⟨⟨n, ?_, pulses⟩, period⟩
      obtain ⟨rfl, rfl⟩ := Prod.mk.inj same
      exact advance_swing n
    · rw [after]
      exact ⟨⟨n, same, pulses⟩, period⟩
  | homed | settling | pausing => cases here
  | reading | receiving | reporting | resting | idling => cases follows

end

section
variable {past : RadarLog} {s : Execution Peripherals Place}

theorem RadarRun.follows (run : RadarRun past s) (t : TaskId) : Follows t (s.place t) s.shared := by
  apply Firmware.invariant_of_run (J := Follows) run
  · intro s wired t
    refine ⟨wired.period, ?_, ?_⟩
    · rintro rfl
      rw [wired.place, wired.centred]
      rfl
    · intro other
      rw [wired.place, firstPlace]
      by_cases first : t = radarTask
      · rw [if_pos first]
        rfl
      · rw [if_neg first, if_neg other]
        rfl
  · intro t p d c next out follows here _
    refine ⟨follows.period, fun same => Place.follows_call (follows.sweep same) here, ?_⟩
    intro other
    rw [Place.sweeps_call here]
    exact follows.other other
  · intro t p d f follows here
    by_cases same : t = sweepTask
    · obtain ⟨after, period⟩ := Place.follows_access follows.period (follows.sweep same) here
      exact ⟨period, fun _ => after, fun other => absurd same other⟩
    · obtain ⟨_, period, outside⟩ := Place.access_outside (d := d) (follows.other same) here
      exact ⟨period.trans follows.period, fun sweep => absurd sweep same, fun _ => outside⟩
  · intro t u p q d f apart follows mine here
    by_cases same : u = sweepTask
    · have other : t ≠ sweepTask := fun h => apart (h.trans same.symm)
      obtain ⟨_, period⟩ := Place.follows_access mine.period (mine.sweep same) here
      exact ⟨period, fun sweep => absurd sweep other, follows.other⟩
    · obtain ⟨pulses, period, _⟩ := Place.access_outside (d := d) (mine.other same) here
      exact ⟨period.trans follows.period, fun sweep => pulses.symm ▸ follows.sweep sweep,
        follows.other⟩
  · intro t p d i follows
    cases i with
    | usart => exact ⟨follows.period, follows.sweep, follows.other⟩
    | capture sr ccr2 =>
      have kept : (d.tim2IrqHandler sr ccr2).1.pulses = d.pulses ∧
          (d.tim2IrqHandler sr ccr2).1.pwmPeriodUs = d.pwmPeriodUs := by
        unfold Peripherals.tim2IrqHandler
        split_ifs <;> exact ⟨rfl, rfl⟩
      exact ⟨kept.2.trans follows.period, fun sweep => kept.1.symm ▸ follows.sweep sweep,
        follows.other⟩

/-- **The motion of the servo.** However the tasks are interleaved, the pulses are those of the
homing sequence and of the triangle behind it. They stay within the range of the servo, from one
to the next the servo moves by no more than one step, and a period of them covers all angles. -/
theorem servo_motion (run : RadarRun past s) : ∃ k, s.shared.pulses = commands k ∧
    (∀ pulse ∈ s.shared.pulses, servoMinUs ≤ pulse ∧ pulse ≤ servoMaxUs) ∧
    s.shared.pulses.IsChain Near ∧
    (91 ≤ k → ∀ j ≤ 36,
      servoSetAngle servoPeriodUs (UInt16.ofNat (5 * j)) ∈ s.shared.pulses.take 72) := by
  have follows := (run.follows sweepTask).sweep rfl
  have made : ∃ k, s.shared.pulses = commands k := by
    cases here : s.place sweepTask with
    | greeting =>
      rw [here] at follows
      exact ⟨0, follows⟩
    | settling =>
      rw [here] at follows
      exact ⟨19, follows⟩
    | homing | homed =>
      rw [here] at follows
      obtain ⟨k, _, _, pulses⟩ := follows
      exact ⟨_, pulses⟩
    | turning | sending | pausing =>
      rw [here] at follows
      obtain ⟨n, _, pulses⟩ := follows
      exact ⟨_, pulses⟩
    | reading | receiving | reporting | resting | idling =>
      rw [here] at follows
      cases follows
  obtain ⟨k, pulses⟩ := made
  refine ⟨k, pulses, ?_, ?_, ?_⟩
  · rw [pulses]
    intro pulse there
    exact commands_within there
  · rw [pulses]
    exact commands_near k
  · rw [pulses]
    intro late j inside
    exact commands_cover late inside

end

/-- The first step of the homing sequence. -/
theorem servo_motion_homing : ∃ past s, RadarRun past s ∧ s.shared.pulses.length = 2 ∧
    ∃ k, s.shared.pulses = commands k ∧
      (∀ pulse ∈ s.shared.pulses, servoMinUs ≤ pulse ∧ pulse ≤ servoMaxUs) ∧
      s.shared.pulses.IsChain Near ∧
      (91 ≤ k → ∀ j ≤ 36,
        servoSetAngle servoPeriodUs (UInt16.ofNat (5 * j)) ∈ s.shared.pulses.take 72) := by
  obtain ⟨past, s, run, played⟩ := watch_run
    (show watch (fun _ s => s.shared.pulses.length = 2) untilHoming by decide +kernel)
  exact ⟨past, s, run, of_decide_eq_true played, servo_motion run⟩

end Sentinel
