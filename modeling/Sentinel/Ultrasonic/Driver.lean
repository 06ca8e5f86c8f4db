import Sentinel.Kernel.Boot

/-! The distance sensor (`ultrasonic.c`). A read arms the capture, sends a ping and waits for
`echo_ready`; the interrupt handler takes whatever edges the echo line has. Other tasks,
ticks and interrupts can come between any two statements. -/

namespace Sentinel

open Runs (Transition Run)

/-- `ULTRASONIC_NO_ECHO`. -/
def ultrasonicNoEcho : UInt32 := 0xFFFFFFFF

/-- `US_PER_CM`. -/
def usPerCm : UInt32 := 58

/-- The statement of `ultrasonic_read_cm` that comes next. The first two are those of
`ultrasonic_trigger`; `time_end` is read before `time_start`. -/
inductive Phase
  | arming (timeout : UInt32)
  | pinging (timeout : UInt32)
  | waiting (timeout : UInt32)
  | readingEnd
  | readingStart (timeEnd : UInt32)
  | returning (distance : UInt32)
  deriving DecidableEq, Repr

/-- What has come of a ping so far: nothing, the rising edge of its echo, or both edges. -/
inductive Echo
  | silent | high | done
  deriving DecidableEq, Repr

/-- The kernel with its tasks, the driver's variables, the pings sent and their echoes, and
the read in progress. -/
structure Ranging where
  system : System
  echoReady : Nat
  waitingForRising : Bool
  timeStart : UInt32
  timeEnd : UInt32
  pings : Nat
  echo : Nat → Echo
  reading : Option (TaskId × Phase)

/-- What happens. `edge k captured` is the interrupt for the next edge of the echo of ping `k`. -/
inductive Occurrence
  | enter (t : TaskId) (timeout : UInt32)
  | arm (t : TaskId)
  | ping (t : TaskId)
  | kernel (e : Event)
  | edge (k : Nat) (captured : UInt32)
  | readEnd (t : TaskId)
  | readStart (t : TaskId)
  | leave (t : TaskId) (distance : UInt32)
  deriving DecidableEq, Repr

/-- The call acquires or releases the semaphore `x`. -/
def Call.touches (x : Nat) : Call → Bool
  | .semaphoreAcquire z _ | .semaphoreRelease z => z = x
  | .mutexAcquire _ _ | .mutexRelease _ | .delay _ => false

/-- Where the read goes on when its acquire has returned. -/
def Phase.proceed (out : Outcome) : Phase :=
  if out = .returned .success then .readingEnd else .returning ultrasonicNoEcho

theorem Phase.proceed_cases (out : Outcome) :
    out = .returned .success ∧ Phase.proceed out = .readingEnd ∨
      Phase.proceed out = .returning ultrasonicNoEcho := by
  by_cases success : out = .returned .success
  · exact .inl ⟨success, if_pos success⟩
  · exact .inr (if_neg success)

namespace Ranging

/-- `TIM2_IRQHandler`, after it has found `CC2IF` set. -/
def tim2IrqHandler (captured : UInt32) (s : Ranging) : Ranging :=
  if s.waitingForRising then
    { s with timeStart := captured, waitingForRising := false }
  else
    { s with
      timeEnd := captured
      waitingForRising := true
      system := { s.system with kernel := s.system.kernel.osSemaphoreRelease s.echoReady } }

/-- The capture taken as that of the rising edge, or of the falling one. -/
def timestamp (s : Ranging) (rising : Bool) : UInt32 :=
  if rising then s.timeStart else s.timeEnd

/-- The edge that comes next from a ping has come. -/
def heard (s : Ranging) (k : Nat) : Ranging :=
  { s with echo := Function.update s.echo k (if s.echo k = .silent then .high else .done) }

/-- The reading task makes the one kernel call of a read. Other tasks leave `echo_ready` alone. -/
def may (s : Ranging) (t : TaskId) (c : Call) : Bool :=
  match s.reading with
  | some (u, .waiting timeout) =>
    if t = u then c = .semaphoreAcquire s.echoReady timeout else !c.touches s.echoReady
  | some (u, _) => t ≠ u && !c.touches s.echoReady
  | none => !c.touches s.echoReady

def allows (s : Ranging) : Event → Bool
  | .call t c _ => s.may t c
  | .post x => x ≠ s.echoReady
  | .resume _ _ _ | .tick | .pass => true

/-- A return from the acquire moves the read on. -/
def moved (s : Ranging) : Event → Option (TaskId × Phase)
  | .call t _ out | .resume t _ out =>
    match s.reading with
    | some (u, .waiting timeout) =>
      if t = u ∧ out ≠ .parked then some (u, Phase.proceed out) else some (u, .waiting timeout)
    | reading => reading
  | .post _ | .tick | .pass => s.reading

section
variable (s : Ranging) (captured : UInt32) (k : Nat)

@[simp] theorem heard_system : (s.heard k).system = s.system := rfl

@[simp] theorem heard_echoReady : (s.heard k).echoReady = s.echoReady := rfl

@[simp] theorem heard_waitingForRising : (s.heard k).waitingForRising = s.waitingForRising := rfl

@[simp] theorem heard_pings : (s.heard k).pings = s.pings := rfl

@[simp] theorem heard_reading : (s.heard k).reading = s.reading := rfl

@[simp] theorem tim2IrqHandler_pings : (s.tim2IrqHandler captured).pings = s.pings := by
  unfold tim2IrqHandler
  split <;> rfl

@[simp] theorem tim2IrqHandler_echo : (s.tim2IrqHandler captured).echo = s.echo := by
  unfold tim2IrqHandler
  split <;> rfl

@[simp] theorem tim2IrqHandler_reading : (s.tim2IrqHandler captured).reading = s.reading := by
  unfold tim2IrqHandler
  split <;> rfl

@[simp] theorem tim2IrqHandler_echoReady : (s.tim2IrqHandler captured).echoReady = s.echoReady := by
  unfold tim2IrqHandler
  split <;> rfl

@[simp] theorem tim2IrqHandler_waitingForRising :
    (s.tim2IrqHandler captured).waitingForRising = !s.waitingForRising := by
  unfold tim2IrqHandler
  split <;> simp_all

/-- The handler takes the capture as that of the edge it waits for. -/
theorem tim2IrqHandler_timestamp (rising : Bool) :
    (s.tim2IrqHandler captured).timestamp rising =
      if s.waitingForRising = rising then captured else s.timestamp rising := by
  unfold tim2IrqHandler timestamp
  cases rising <;> cases s.waitingForRising <;> simp

/-- The interrupt releases `echo_ready` at the second edge of a pair and not at the first. -/
theorem tim2IrqHandler_system : (s.tim2IrqHandler captured).system =
    if s.waitingForRising then s.system
    else { s.system with kernel := s.system.kernel.osSemaphoreRelease s.echoReady } := by
  unfold tim2IrqHandler
  split <;> rfl

end

/-- A step of the kernel leaves the read where it is, or its acquire returns. -/
theorem moved_cases (s : Ranging) (e : Event) :
    s.moved e = s.reading ∨
      ∃ u timeout c out, s.reading = some (u, .waiting timeout) ∧ out ≠ .parked ∧
        (e = .call u c out ∨ e = .resume u c out) ∧ s.moved e = some (u, Phase.proceed out) := by
  cases e with
  | call t c out | resume t c out =>
    cases here : s.reading with
    | none => exact .inl (by simp [moved, here])
    | some at' =>
      obtain ⟨u, phase⟩ := at'
      cases phase with
      | waiting timeout =>
        by_cases returns : t = u ∧ out ≠ .parked
        · obtain ⟨rfl, back⟩ := returns
          exact .inr ⟨t, timeout, c, out, rfl, back, by simp, by simp [moved, here, back]⟩
        · exact .inl (by simp only [moved, here, if_neg returns])
      | arming | pinging | readingEnd | readingStart | returning =>
        exact .inl (by simp [moved, here])
  | post | tick | pass => exact .inl rfl

end Ranging

inductive RangingStep (idle : TaskId) : Ranging → Occurrence → Ranging → Prop
  | enter {s : Ranging} {t : TaskId} (timeout : UInt32) (runs : s.system.Runs t)
      (free : s.system.inside t = none) (outside : s.reading = none) :
      RangingStep idle s (.enter t timeout) { s with reading := some (t, .arming timeout) }
  | arm {s : Ranging} {t : TaskId} {timeout : UInt32} (runs : s.system.Runs t)
      (free : s.system.inside t = none) (here : s.reading = some (t, .arming timeout)) :
      RangingStep idle s (.arm t)
        { s with waitingForRising := true, reading := some (t, .pinging timeout) }
  | ping {s : Ranging} {t : TaskId} {timeout : UInt32} (runs : s.system.Runs t)
      (free : s.system.inside t = none) (here : s.reading = some (t, .pinging timeout)) :
      RangingStep idle s (.ping t)
        { s with pings := s.pings + 1, reading := some (t, .waiting timeout) }
  | kernel {s : Ranging} {e : Event} {system : System} (step : Step idle s.system e system)
      (allowed : s.allows e) :
      RangingStep idle s (.kernel e) { s with system := system, reading := s.moved e }
  | edge {s : Ranging} {k : Nat} (captured : UInt32) (sent : k < s.pings)
      (pending : s.echo k ≠ .done) :
      RangingStep idle s (.edge k captured) ((s.heard k).tim2IrqHandler captured)
  | readEnd {s : Ranging} {t : TaskId} (runs : s.system.Runs t)
      (free : s.system.inside t = none) (here : s.reading = some (t, .readingEnd)) :
      RangingStep idle s (.readEnd t) { s with reading := some (t, .readingStart s.timeEnd) }
  | readStart {s : Ranging} {t : TaskId} {timeEnd : UInt32} (runs : s.system.Runs t)
      (free : s.system.inside t = none) (here : s.reading = some (t, .readingStart timeEnd)) :
      RangingStep idle s (.readStart t)
        { s with reading := some (t, .returning ((timeEnd - s.timeStart) / usPerCm)) }
  | leave {s : Ranging} {t : TaskId} {distance : UInt32} (runs : s.system.Runs t)
      (free : s.system.inside t = none) (here : s.reading = some (t, .returning distance)) :
      RangingStep idle s (.leave t distance) { s with reading := none }

/-- The sensor after `ultrasonic_init`, in a launched system. -/
structure Installed (idle : TaskId) (s : Ranging) : Prop where
  launched : Launched idle s.system
  empty : s.system.kernel.semaphores s.echoReady = ⟨0, 1⟩
  armed : s.waitingForRising = true
  unpinged : s.pings = 0
  silent : ∀ k, s.echo k = .silent
  outside : s.reading = none

/-- Every run of the system with the sensor. -/
abbrev Soundings (idle : TaskId) := Run (Installed idle) (RangingStep idle)

abbrev EchoLog := List (Transition Ranging Occurrence)

/-! ### Runs that can be computed -/

/-- The statement of the read that `t` is in, when `t` executes and is in no kernel call. -/
def Ranging.statement (s : Ranging) (t : TaskId) : Option Phase :=
  match s.reading with
  | some (u, phase) => if s.system.Runs t ∧ s.system.inside t = none ∧ u = t then some phase else none
  | none => none

/-- The step that an occurrence makes, if it can come. -/
def happen (idle : TaskId) (s : Ranging) : Occurrence → Option Ranging
  | .enter t timeout =>
    if s.system.Runs t ∧ s.system.inside t = none ∧ s.reading.isNone then
      some { s with reading := some (t, .arming timeout) }
    else none
  | .arm t =>
    match s.statement t with
    | some (.arming timeout) =>
      some { s with waitingForRising := true, reading := some (t, .pinging timeout) }
    | _ => none
  | .ping t =>
    match s.statement t with
    | some (.pinging timeout) =>
      some { s with pings := s.pings + 1, reading := some (t, .waiting timeout) }
    | _ => none
  | .kernel e =>
    if s.allows e then
      (perform idle s.system e).map fun system => { s with system := system, reading := s.moved e }
    else none
  | .edge k captured =>
    if k < s.pings ∧ s.echo k ≠ .done then some ((s.heard k).tim2IrqHandler captured) else none
  | .readEnd t =>
    match s.statement t with
    | some .readingEnd => some { s with reading := some (t, .readingStart s.timeEnd) }
    | _ => none
  | .readStart t =>
    match s.statement t with
    | some (.readingStart timeEnd) =>
      some { s with reading := some (t, .returning ((timeEnd - s.timeStart) / usPerCm)) }
    | _ => none
  | .leave t distance =>
    match s.statement t with
    | some (.returning distance') =>
      if distance' = distance then some { s with reading := none } else none
    | _ => none

theorem Ranging.of_statement {s : Ranging} {t : TaskId} {phase : Phase} (here : s.statement t = some phase) :
    s.system.Runs t ∧ s.system.inside t = none ∧ s.reading = some (t, phase) := by
  unfold Ranging.statement at here
  split at here
  · split at here
    · rename_i u phase' reading can
      obtain rfl := Option.some.inj here
      obtain ⟨runs, free, rfl⟩ := can
      exact ⟨runs, free, reading⟩
    · cases here
  · cases here

theorem happen_step {idle : TaskId} {s t : Ranging} {o : Occurrence}
    (done : happen idle s o = some t) : RangingStep idle s o t := by
  cases o with
  | enter u timeout =>
    simp only [happen] at done
    split at done
    · rename_i can
      obtain rfl := Option.some.inj done
      exact .enter timeout can.1 can.2.1 (Option.isNone_iff_eq_none.mp can.2.2)
    · cases done
  | kernel e =>
    simp only [happen] at done
    split at done
    · rename_i allowed
      obtain ⟨system, step, rfl⟩ := Option.map_eq_some_iff.mp done
      exact .kernel (perform_iff.mp step) allowed
    · cases done
  | edge k captured =>
    simp only [happen] at done
    split at done
    · rename_i can
      obtain rfl := Option.some.inj done
      exact .edge captured can.1 can.2
    · cases done
  | leave u distance =>
    simp only [happen] at done
    split at done
    · rename_i distance' here
      obtain ⟨runs, free, reading⟩ := Ranging.of_statement here
      split at done
      · rename_i same
        obtain rfl := Option.some.inj done
        exact .leave runs free (same ▸ reading)
      · cases done
    · cases done
  | arm u | ping u | readEnd u | readStart u =>
    simp only [happen] at done
    split at done
    · rename_i here
      obtain ⟨runs, free, reading⟩ := Ranging.of_statement here
      obtain rfl := Option.some.inj done
      constructor <;> assumption
    · cases done

/-- The sensor of a launched system with tasks of the given priorities; `echo_ready` is
semaphore 0. -/
def mounted (system : System) : Ranging := ⟨system, 0, true, 0, 0, 0, fun _ => .silent, none⟩

/-- Occurrences played from the launch. -/
def listen (idle : TaskId) (priorities : List Nat) (goal : EchoLog → Ranging → Bool)
    (occurrences : List Occurrence) : Bool :=
  decide ((createAll (reset fun _ => ⟨0, 1⟩).osKernelInit priorities).Live idle) &&
    (setup (fun _ => ⟨0, 1⟩) priorities).any fun system =>
      match Runs.play (happen idle) occurrences [] (mounted system) with
      | some (past, s) => goal past s
      | none => false

theorem listen_run {idle : TaskId} {priorities : List Nat} {goal : EchoLog → Ranging → Bool}
    {occurrences : List Occurrence} (done : listen idle priorities goal occurrences = true) :
    ∃ past s, Soundings idle past s ∧ goal past s = true := by
  obtain ⟨live, done⟩ := (Bool.and_eq_true _ _).mp done
  obtain ⟨system, launch, played⟩ := (Option.any_eq_true _ _).mp done
  have started := started_of_setup (of_decide_eq_true live) launch
  have installed : Installed idle (mounted system) :=
    ⟨started.launched, congrFun started.semaphores _, rfl, rfl, fun _ => rfl, rfl⟩
  split at played
  · rename_i past s path
    exact ⟨past, s, (Runs.play_run path (.start installed)).weaken (fun _ h => h)
      fun _ _ _ => happen_step, played⟩
  · cases played

end Sentinel
