import Sentinel.Tasks.Start

/-! The two locks of the radar. No statement between an acquire and its release waits, so a task
that is blocked has a timer that runs, or waits for a task that can go on. -/

namespace Sentinel

open Runs (Transition Run)

/-- Between `os_mutex_acquire(&uart_lock)` and its release. -/
def Logging.prints : Logging → Bool
  | .lock _ => false
  | .check _ | .poll _ _ | .write _ _ | .unlock => true

def Place.atUart : Place → Bool
  | .reporting _ logging | .greeting logging => logging.prints
  | _ => false

def Place.atRing : Place → Bool
  | .receiving _ _ frame | .sending _ _ frame => frame.inRing
  | _ => false

/-! ### Statements -/

section
variable {go : Logging → Place} {back : Place} {logging : Logging} {c : Call} {out : Outcome}
  {next : Outcome → Place} {f : Peripherals → Peripherals × Place}

theorem Logging.statement_call (here : logging.statement go back = .call c next) :
    (∃ line, logging = .lock line ∧ c = .mutexAcquire uartLock waitForever ∧
      ∀ out, next out = go (.check line)) ∨
    logging = .unlock ∧ c = .mutexRelease uartLock ∧ ∀ out, next out = back := by
  cases logging with
  | lock line =>
    cases here
    exact .inl ⟨line, rfl, rfl, fun _ => rfl⟩
  | unlock =>
    cases here
    exact .inr ⟨rfl, rfl, fun _ => rfl⟩
  | check rest => cases rest <;> cases here
  | poll | write => cases here

/-- What an access does in a stretch that prints. -/
theorem Logging.statement_access (d : Peripherals) (here : logging.statement go back = .access f) :
    logging.prints ∧ ∃ after : Logging, (f d).2 = go after ∧ after.prints := by
  cases logging with
  | lock | unlock => cases here
  | check rest =>
    cases rest with
    | nil =>
      cases here
      exact ⟨rfl, _, rfl, rfl⟩
    | cons c rest =>
      cases here
      refine ⟨rfl, _, rfl, ?_⟩
      split <;> rfl
  | poll c rest =>
    cases here
    refine ⟨rfl, _, rfl, ?_⟩
    split <;> rfl
  | write c rest =>
    cases here
    exact ⟨rfl, _, rfl, rfl⟩

/-- A print leaves everything but the UART alone. -/
theorem Logging.access_kept (d : Peripherals) (here : logging.statement go back = .access f) :
    (f d).1.pulses = d.pulses ∧ (f d).1.pwmPeriodUs = d.pwmPeriodUs ∧ (f d).1.queue = d.queue ∧
      (f d).1.pings = d.pings := by
  cases logging with
  | lock | unlock => cases here
  | check rest => cases rest <;> cases here <;> exact ⟨rfl, rfl, rfl, rfl⟩
  | poll | write =>
    cases here
    exact ⟨rfl, rfl, rfl, rfl⟩

end

section
variable {go : Frame → Place} {done : Reply → Place} {frame : Frame} {c : Call}
  {next : Outcome → Place} {f : Peripherals → Peripherals × Place}

theorem Frame.statement_call (here : frame.statement go done = .call c next) :
    frame.call sweepQueue = some c ∧ next = fun out => go (frame.proceed out) := by
  cases frame with
  | returning | sendWrite | sendHead | sendTail | receiveRead | receiveTail => cases here
  | _ =>
    cases here
    exact ⟨rfl, rfl⟩

theorem Frame.statement_access (d : Peripherals) (here : frame.statement go done = .access f) :
    (∃ reply, frame = .returning reply ∧ f d = (d, done reply)) ∨
      ∃ q after, frame.access d.queue = some (q, after) ∧ f d = ({ d with queue := q }, go after) := by
  cases frame with
  | returning reply =>
    cases here
    exact .inl ⟨reply, rfl, rfl⟩
  | sendWrite | sendHead | sendTail | receiveRead | receiveTail =>
    cases here
    exact .inr ⟨_, _, rfl, rfl⟩
  | _ => cases here

end

section
variable {go : Phase → Place} {done : UInt32 → Place} {phase : Phase} {c : Call}
  {next : Outcome → Place} {f : Peripherals → Peripherals × Place}

theorem Phase.statement_call (here : phase.statement go done = .call c next) :
    ∃ timeout, phase = .waiting timeout ∧ c = .semaphoreAcquire echoReady timeout ∧
      next = fun out => go (Phase.proceed out) := by
  cases phase with
  | waiting timeout =>
    cases here
    exact ⟨timeout, rfl, rfl, rfl⟩
  | arming | pinging | readingEnd | readingStart | returning => cases here

/-- A read of the distance stays a read until it returns. -/
theorem Phase.statement_outside {region : Place → Bool} {b : Bool} (d : Peripherals)
    (here : phase.statement go done = .access f) (inside : ∀ phase, region (go phase) = b)
    (outside : ∀ distance, region (done distance) = b) : region (f d).2 = b := by
  cases phase with
  | waiting => cases here
  | returning distance =>
    cases here
    exact outside distance
  | arming | pinging | readingEnd | readingStart =>
    cases here
    exact inside _

end

/-! ### Regions -/

theorem uart_brackets : radar.Brackets uartLock Place.atUart := by
  constructor
  · intro p n next here
    cases p with
    | greeting logging | reporting _ logging =>
      rcases Logging.statement_call here with ⟨_, _, _, after⟩ | ⟨_, same, _⟩
      · rw [after]
        rfl
      · cases same
    | receiving _ _ frame | sending _ _ frame =>
      obtain ⟨calls, _⟩ := Frame.statement_call here
      cases frame <;> cases calls
    | reading _ phase =>
      obtain ⟨_, _, same, _⟩ := Phase.statement_call here
      cases same
    | resting | homing | homed | settling | turning | pausing | idling => cases here
  · intro p c next out here outside enters
    cases p with
    | greeting logging | reporting _ logging =>
      rcases Logging.statement_call here with ⟨_, _, rfl, _⟩ | ⟨_, _, after⟩
      · exact ⟨_, rfl, .inl rfl⟩
      · rw [after] at enters
        cases enters
    | receiving _ _ frame | sending _ _ frame =>
      obtain ⟨_, rfl⟩ := Frame.statement_call here
      cases enters
    | reading _ phase =>
      obtain ⟨_, _, _, rfl⟩ := Phase.statement_call here
      cases enters
    | resting | homed | settling | pausing =>
      cases here
      cases enters
    | homing | turning | idling => cases here
  · intro p c next out here inside left
    cases p with
    | greeting logging | reporting _ logging =>
      rcases Logging.statement_call here with ⟨_, rfl, _⟩ | ⟨_, rfl, _⟩
      · cases inside
      · rfl
    | _ => cases inside
  · intro p next here
    cases p with
    | greeting logging | reporting _ logging =>
      rcases Logging.statement_call here with ⟨_, _, same, _⟩ | ⟨rfl, _, after⟩
      · cases same
      · exact ⟨rfl, fun out => by rw [after]; rfl⟩
    | receiving _ _ frame | sending _ _ frame =>
      obtain ⟨calls, _⟩ := Frame.statement_call here
      cases frame <;> cases calls
    | reading _ phase =>
      obtain ⟨_, _, same, _⟩ := Phase.statement_call here
      cases same
    | resting | homing | homed | settling | turning | pausing | idling => cases here
  · intro p f d here
    cases p with
    | greeting logging | reporting _ logging =>
      obtain ⟨inside, _, after, still⟩ := Logging.statement_access d here
      rw [after]
      exact still.trans inside.symm
    | receiving _ _ frame | sending _ _ frame =>
      rcases Frame.statement_access d here with ⟨reply, rfl, after⟩ | ⟨_, _, _, after⟩
      · rw [after]
        cases reply <;> rfl
      · rw [after]
        rfl
    | reading _ phase =>
      exact Phase.statement_outside d here (fun _ => rfl) fun _ => by split <;> rfl
    | homing a =>
      cases here
      dsimp only
      split <;> rfl
    | turning | idling =>
      cases here
      rfl
    | resting | homed | settling | pausing => cases here

theorem Wired.outside {s : Execution Peripherals Place} (wired : Wired s) (t : TaskId) :
    (s.place t).atUart = false ∧ (s.place t).atRing = false := by
  rw [wired.place, firstPlace]
  split
  · exact ⟨rfl, rfl⟩
  · split <;> exact ⟨rfl, rfl⟩

theorem Wired.opens_uart {s : Execution Peripherals Place} (wired : Wired s) :
    Firmware.Opens Sentinel.uartLock Place.atUart idleTask s :=
  ⟨wired.launched, congrArg OsMutex.lock wired.uartLock, fun t => (wired.outside t).1⟩

/-- The timeouts with which the tasks wait for semaphores. -/
def Phase.timeoutIs (n : UInt32) : Phase → Bool
  | .arming timeout | .pinging timeout | .waiting timeout => timeout = n
  | .readingEnd | .readingStart _ | .returning _ => true

def Frame.polls : Frame → Bool
  | .sendSlot _ timeout | .receiveSlot timeout => timeout = 0
  | _ => true

def Place.patient : Place → Bool
  | .reading _ phase => phase.timeoutIs 60
  | .receiving _ _ frame | .sending _ _ frame => frame.polls
  | _ => true

theorem Frame.polls_proceed (frame : Frame) (out : Outcome) : (frame.proceed out).polls := by
  cases frame with
  | sendLock _ hadSlot =>
    simp only [Frame.proceed]
    split
    · rfl
    · cases hadSlot <;> rfl
  | sendUnlock hadSlot => cases hadSlot <;> rfl
  | receiveSlot | receiveLock =>
    simp only [Frame.proceed]
    split <;> rfl
  | _ => rfl

theorem Place.patient_call {p : Place} {c : Call} {next : Outcome → Place} (out : Outcome)
    (here : p.statement = .call c next) : (next out).patient := by
  cases p with
  | greeting logging | reporting _ logging =>
    rcases Logging.statement_call here with ⟨_, _, _, after⟩ | ⟨_, _, after⟩ <;> rw [after] <;> rfl
  | receiving _ _ frame | sending _ _ frame =>
    obtain ⟨_, rfl⟩ := Frame.statement_call here
    exact frame.polls_proceed out
  | reading _ phase =>
    obtain ⟨_, _, _, rfl⟩ := Phase.statement_call here
    rcases Phase.proceed_cases out with ⟨_, after⟩ | after
    · simp only [patient, after]
      rfl
    · simp only [patient, after]
      rfl
  | resting | homed | settling | pausing =>
    cases here
    rfl
  | homing | turning | idling => cases here

theorem Frame.polls_access {frame after : Frame} {q q' : OsMessageQueue}
    (accessed : frame.access q = some (q', after)) : after.polls := by
  have inside := (Frame.access_keeps accessed).2.1
  cases after <;> first | rfl | cases inside

theorem Place.patient_access {p : Place} {f : Peripherals → Peripherals × Place} (d : Peripherals)
    (patient : p.patient) (here : p.statement = .access f) : (f d).2.patient := by
  cases p with
  | greeting logging | reporting _ logging =>
    obtain ⟨_, _, after, _⟩ := Logging.statement_access d here
    rw [after]
    rfl
  | receiving _ _ frame | sending _ _ frame =>
    rcases Frame.statement_access d here with ⟨reply, _, after⟩ | ⟨_, _, accessed, after⟩
    · rw [after]
      cases reply <;> rfl
    · rw [after]
      exact Frame.polls_access accessed
  | reading _ phase =>
    cases phase with
    | waiting => cases here
    | returning distance =>
      cases here
      dsimp only
      split <;> rfl
    | arming | pinging =>
      cases here
      exact patient
    | readingEnd | readingStart =>
      cases here
      rfl
  | homing a =>
    cases here
    dsimp only
    split <;> rfl
  | turning | idling =>
    cases here
    rfl
  | resting | homed | settling | pausing => cases here

section
variable {past : RadarLog} {s : Execution Peripherals Place}

theorem RadarRun.patient (run : RadarRun past s) (t : TaskId) : (s.place t).patient := by
  apply Firmware.invariant_of_run (J := fun _ p _ => p.patient) run
  · intro s wired t
    rw [wired.place, firstPlace]
    split
    · rfl
    · split <;> rfl
  · intro _ _ _ _ _ out _ here _
    exact Place.patient_call out here
  · intro _ _ d _ patient here
    exact Place.patient_access d patient here
  · intro _ _ _ _ _ _ _ patient _ _
    exact patient
  · intro _ _ _ _ patient
    exact patient

end

end Sentinel
