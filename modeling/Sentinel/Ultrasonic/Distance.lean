import Sentinel.Semaphore.Tokens
import Sentinel.Ultrasonic.Pulses

/-! When a read returns the distance of its own ping. It does so exactly when the timestamps
were those of its own echo, and certainly when no token is left from an earlier read and no
edge comes late. -/

namespace Sentinel

open Runs (Transition Run)

/-- The ping that the latest read has sent. -/
def Ranging.ownPing (s : Ranging) : Nat := s.pings - 1

/-- From the arming of the capture to the end of the read, only edges of its own ping come. -/
def Ranging.expects (s : Ranging) (k : Nat) : Bool :=
  match s.reading with
  | none | some (_, .arming _) => true
  | some (_, .pinging _) => false
  | some (_, .waiting _) | some (_, .readingEnd) | some (_, .readingStart _)
  | some (_, .returning _) => k + 1 = s.pings

/-- The capture is armed when `echo_ready` holds no token, and no edge comes late. -/
def Ranging.prompt (s : Ranging) : Occurrence → Bool
  | .arm _ => (s.system.kernel.semaphores s.echoReady).count = 0
  | .edge k _ => s.expects k
  | _ => true

/-- `echo_ready` has no token, and has given none to the read of `t`. -/
structure Ranging.Unposted (s : Ranging) (t : TaskId) : Prop where
  empty : (s.system.kernel.semaphores s.echoReady).count = 0
  credited : s.system.board.Credited s.echoReady t 0

namespace EchoLog

/-- What a read with prompt echoes can rely on at each of its statements. -/
def Timely (past : EchoLog) (s : Ranging) (t : TaskId) : Phase → Prop
  | .arming _ => True
  | .pinging _ => edges past = [] ∧ s.Unposted t
  | .waiting _ => (∀ g ∈ edges past, g.ping + 1 = s.pings) ∧
      ((edges past).length < 2 → s.Unposted t)
  | .readingEnd => (∀ g ∈ edges past, g.ping + 1 = s.pings) ∧ 2 ≤ (edges past).length
  | .readingStart _ => (∀ g ∈ edges past, g.ping + 1 = s.pings) ∧ 2 ≤ (edges past).length ∧
      edges (atEnd past) = edges past
  | .returning distance => distance = ultrasonicNoEcho ∨ OwnPulse past s.ownPing

end EchoLog

section
variable {idle : TaskId} {past : EchoLog} {s s' : Ranging} {t : TaskId} {e : Event}
  {system : System}

theorem Ranging.allows_quiet (allowed : s.allows e) : e.releases s.echoReady = false := by
  cases e with
  | call u c out =>
    have leaves : ∀ c : Call, c.touches s.echoReady = false →
        (Event.call u c out).releases s.echoReady = false := by
      intro c apart
      cases c with
      | semaphoreRelease z => simpa [Call.touches, Event.releases] using apart
      | mutexAcquire | mutexRelease | semaphoreAcquire | delay => rfl
    simp only [allows, may] at allowed
    split at allowed
    · split at allowed
      · obtain rfl := of_decide_eq_true allowed
        rfl
      · exact leaves c (by simpa using allowed)
    · exact leaves c (by simp at allowed; exact allowed.2)
    · exact leaves c (by simpa using allowed)
  | post z => simpa [allows, Event.releases] using allowed
  | resume | tick | pass => rfl

/-- The reading task makes no kernel call but its acquire. -/
theorem Ranging.of_may {phase : Phase} {c : Call} (reading : s.reading = some (t, phase))
    (allowed : s.may t c) :
    ∃ timeout, phase = .waiting timeout ∧ c = .semaphoreAcquire s.echoReady timeout := by
  cases phase with
  | waiting timeout => exact ⟨timeout, rfl, by simpa [may, reading] using allowed⟩
  | arming | pinging | readingEnd | readingStart | returning => simp [may, reading] at allowed

theorem Ranging.Unposted.untaken (unposted : s.Unposted t) (sound : s.system.board.Sound idle)
    (step : Step idle s.system e system) (u : TaskId) (n : UInt32) :
    e ≠ .call u (.semaphoreAcquire s.echoReady n) (.returned .success) := by
  intro event
  cases (step.refines sound).semaphoreEffect s.echoReady with
  | kept _ untaken => exact untaken u n event
  | taken _ _ _ token => exact absurd (unposted.empty ▸ token) (Nat.lt_irrefl 0)
  | handed _ release | posted release | dropped release =>
    subst event
    cases release

theorem Ranging.Unposted.tokens (unposted : s.Unposted t) (sound : s.system.board.Sound idle)
    (step : Step idle s.system e system) (allowed : s.allows e) :
    Board.tokens s.echoReady t s.system.board e system.board = 0 :=
  Board.tokens_of_quiet (s.allows_quiet allowed) (unposted.untaken sound step) t

/-- A step that releases nothing leaves `echo_ready` empty and gives the read no token. -/
theorem Ranging.Unposted.kernel (unposted : s.Unposted t) (sound : s.system.board.Sound idle)
    (step : Step idle s.system e system) (allowed : s.allows e) :
    Ranging.Unposted { s with system := system, reading := s.moved e } t := by
  have quiet := s.allows_quiet allowed
  have board := step.refines sound
  have none := unposted.tokens sound step allowed
  constructor
  · cases board.semaphoreEffect s.echoReady with
    | kept _ _ same => exact (congrArg OsSemaphore.count same).trans unposted.empty
    | taken u n event => exact absurd event (unposted.untaken sound step u n)
    | handed _ release | posted release | dropped release => cases quiet.symm.trans release
  · by_cases calls : ∃ n out, e = .call t (.semaphoreAcquire s.echoReady n) out
    · obtain ⟨n, out, rfl⟩ := calls
      have fresh := board.credited_call sound
      rwa [none] at fresh
    · have same := board.credited sound unposted.credited fun n out event => calls ⟨n, out, event⟩
      rwa [none] at same

theorem EchoLog.sound (run : Soundings idle past s) : s.system.board.Sound idle := by
  apply run.invariant (fun _ installed => installed.launched.sound)
  intro s o s' sound step
  cases step with
  | enter | arm | ping | readEnd | readStart | leave => exact sound
  | kernel step => exact (step.refines sound).sound sound
  | edge captured =>
    rw [Ranging.tim2IrqHandler_system]
    split
    · exact sound
    · exact ((Step.post _).refines sound).sound sound

/-- The reading task is in no kernel call but its acquire. -/
theorem EchoLog.inside (run : Soundings idle past s) {phase : Phase} {c : Call}
    (reading : s.reading = some (t, phase)) (inside : s.system.inside t = some c) :
    ∃ timeout, phase = .waiting timeout ∧ c = .semaphoreAcquire s.echoReady timeout := by
  induction run generalizing phase with
  | start installed => cases installed.outside.symm.trans reading
  | @next past s s' o run step ih =>
    cases step with
    | enter _ _ free | arm _ free | ping _ free | readEnd _ free | readStart _ free =>
      cases reading
      cases free.symm.trans inside
    | leave => cases reading
    | @edge k captured =>
      have before : s.system.inside t = some c := by
        rw [Ranging.tim2IrqHandler_system] at inside
        split at inside <;> exact inside
      obtain ⟨timeout, here, call⟩ := ih (by simpa [Ranging.heard] using reading) before
      exact ⟨timeout, here, by simpa [Ranging.heard] using call⟩
    | @kernel e system step allowed =>
      have board := step.refines (sound run)
      cases s.moved_cases e with
      | inl same =>
        have here : s.reading = some (t, phase) := same.symm.trans reading
        cases board.of_inside inside with
        | inl before => exact ih here before
        | inr parked =>
          subst parked
          have acquires := Ranging.of_may here allowed
          exact acquires
      | inr back =>
        obtain ⟨u, timeout, c', out, _, awake, event, moved⟩ := back
        cases (moved.symm.trans reading : some (u, _) = some (t, _))
        rcases event with rfl | rfl
        · cases board.of_inside inside with
          | inl before => cases board.of_call.2.symm.trans before
          | inr parked =>
            cases parked
            exact absurd rfl awake
        · have left := congrArg (Board.inside · t) board.of_resume.2.2.2
          cases inside.symm.trans (left.trans (Function.update_self ..))

/-- The acquire of a read that has been given no token does not succeed. -/
theorem EchoLog.returns_given (run : Soundings idle past s) {timeout : UInt32} {c : Call}
    (waiting : s.reading = some (t, .waiting timeout)) (step : Step idle s.system e system)
    (allowed : s.allows e)
    (returns : e = .call t c (.returned .success) ∨ e = .resume t c (.returned .success)) :
    ¬ s.Unposted t := by
  intro unposted
  have board := step.refines (sound run)
  have acquires : c = .semaphoreAcquire s.echoReady timeout := by
    rcases returns with rfl | rfl
    · obtain ⟨n, here, call⟩ := Ranging.of_may waiting allowed
      cases here
      exact call
    · obtain ⟨n, here, call⟩ := inside run waiting board.of_resume.2.1
      cases here
      exact call
  subst acquires
  have given := board.returns_tokens (sound run) unposted.credited returns
  rw [unposted.tokens (sound run) step allowed] at given
  simp at given

/-- A step of the kernel keeps a read with prompt echoes timely. -/
theorem EchoLog.timely_kernel (run : Soundings idle past s) (step : Step idle s.system e system)
    (allowed : s.allows e) {phase : Phase}
    (reading : s.moved e = some (t, phase))
    (timely : ∀ t phase, s.reading = some (t, phase) → Timely past s t phase) :
    Timely (⟨s, .kernel e, { s with system := system, reading := s.moved e }⟩ :: past)
      { s with system := system, reading := s.moved e } t phase := by
  cases s.moved_cases e with
  | inl same =>
    have before := timely t phase (same.symm.trans reading)
    cases phase with
    | pinging => exact ⟨before.1, before.2.kernel (sound run) step allowed⟩
    | waiting => exact ⟨before.1, fun few => (before.2 few).kernel (sound run) step allowed⟩
    | arming | readingEnd | readingStart | returning => exact before
  | inr back =>
    obtain ⟨u, timeout, c, out, waiting, _, event, moved⟩ := back
    cases moved.symm.trans reading
    have before := timely t _ waiting
    cases Phase.proceed_cases out with
    | inr missed =>
      rw [missed]
      exact .inl rfl
    | inl on =>
      obtain ⟨rfl, goes⟩ := on
      rw [goes]
      refine ⟨before.1, Nat.le_of_not_lt fun few => ?_⟩
      exact returns_given run waiting step allowed event (before.2 few)

theorem EchoLog.timely_edge (run : Soundings idle past s) {k : Nat} {captured : UInt32}
    (sent : k < s.pings) (pending : s.echo k ≠ .done) (expected : s.expects k) {phase : Phase}
    (reading : s.reading = some (t, phase)) (timely : Timely past s t phase) :
    Timely (⟨s, .edge k captured, (s.heard k).tim2IrqHandler captured⟩ :: past)
      ((s.heard k).tim2IrqHandler captured) t phase := by
  have after : Kept _ ((s.heard k).tim2IrqHandler captured) := (kept run).edge sent pending
  have own : (∀ g ∈ edges past, g.ping + 1 = s.pings) → k + 1 = s.pings →
      ∀ g ∈ s.nextEdge k captured :: edges past, g.ping + 1 = s.pings := by
    intro before new g there
    cases List.mem_cons.mp there with
    | inl same => exact same ▸ new
    | inr there => exact before g there
  cases phase with
  | arming => trivial
  | pinging => simp [Ranging.expects, reading] at expected
  | waiting =>
    have new : k + 1 = s.pings := by simpa [Ranging.expects, reading] using expected
    refine ⟨by simpa [edges] using own timely.1 new, fun few => ?_⟩
    -- the first edge of a pair posts nothing
    have first : edges past = [] := by
      simp only [edges, List.length_cons] at few
      exact List.eq_nil_of_length_eq_zero (by omega)
    have rising : s.waitingForRising = true := by
      rw [(kept run).parity, first]
      rfl
    have same : ((s.heard k).tim2IrqHandler captured).system = s.system := by
      simp [Ranging.tim2IrqHandler_system, rising]
    obtain ⟨empty, credited⟩ := timely.2 (by simp [first])
    exact ⟨by simpa [same] using empty, by simpa [same] using credited⟩
  | readingEnd =>
    have new : k + 1 = s.pings := by simpa [Ranging.expects, reading] using expected
    exact ⟨by simpa [edges] using own timely.1 new, Nat.le_succ_of_le timely.2⟩
  | readingStart =>
    have new : k + 1 = s.pings := by simpa [Ranging.expects, reading] using expected
    obtain ⟨r, f, pair⟩ := own_edges (k := k) (after.ordered.sublist (edges_since _).sublist)
      (fun g there => by have := own timely.1 new g there; omega) (Nat.le_succ_of_le timely.2.1)
    have two := timely.2.1
    simp only [edges, List.cons.injEq] at pair
    simp [pair.2] at two
  | returning =>
    simpa [Timely, Ranging.ownPing, OwnPulse, atEnd, atStart] using timely

theorem EchoLog.timely
    (run : Run (Installed idle) (fun s o s' => RangingStep idle s o s' ∧ s.prompt o) past s) :
    ∀ t phase, s.reading = some (t, phase) → Timely past s t phase := by
  induction run with
  | start installed => simp [installed.outside]
  | @next past s s' o run step ih =>
    have run : Soundings idle past s := run.weaken (fun _ h => h) fun _ _ _ h => h.1
    obtain ⟨step, prompt⟩ := step
    intro t phase reading
    cases step with
    | enter =>
      cases reading
      trivial
    | leave => cases reading
    | arm _ free =>
      cases reading
      refine ⟨rfl, by simpa [Ranging.prompt] using prompt, fun _ => rfl, fun n woken => ?_⟩
      cases free.symm.trans woken.inside
    | ping _ _ here =>
      cases reading
      obtain ⟨fresh, unposted⟩ := ih _ _ here
      exact ⟨by simp [edges, fresh], fun _ => ⟨unposted.empty, unposted.credited⟩⟩
    | kernel step allowed => exact timely_kernel run step allowed reading ih
    | edge captured sent pending =>
      have before := reading
      rw [Ranging.tim2IrqHandler_reading] at before
      exact timely_edge run sent pending prompt before (ih t phase before)
    | readEnd _ _ here =>
      cases reading
      obtain ⟨own, two⟩ := ih _ _ here
      exact ⟨own, two, rfl⟩
    | readStart _ _ here =>
      cases reading
      obtain ⟨own, two, same⟩ := ih _ _ here
      obtain ⟨r, f, pair⟩ := own_edges (k := s.ownPing)
        ((kept run).ordered.sublist (edges_since _).sublist)
        (fun g there => by have := own g there; simp only [Ranging.ownPing]; omega) two
      refine .inr ⟨r, f, [], Even.zero, ?_, same.symm⟩
      exact same.trans pair

/-- **A distance and its ping.** -/
theorem distance_belongs (run : Soundings idle past s) {v : UInt32}
    (returning : s.reading = some (t, .returning v)) (echo : v ≠ ultrasonicNoEcho) :
    (past.Belongs s.ownPing v ↔ past.OwnPulse s.ownPing) ∧
      (past.OwnPulse s.ownPing → past.Measures s.ownPing v) ∧
      ((∀ y ∈ past, y.pre.prompt y.event) → past.OwnPulse s.ownPing) := by
  obtain ⟨e, b, value, ended, started, suffix, ordered⟩ :=
    ((EchoLog.taken run).back t v returning).resolve_left echo
  have own : ∀ r f early, Even early.length →
      EchoLog.edges (EchoLog.atEnd past) = ⟨s.ownPing, false, f⟩ :: ⟨s.ownPing, true, r⟩ :: early →
      EchoLog.edges (EchoLog.atStart past) = EchoLog.edges (EchoLog.atEnd past) →
      EchoLog.source false (EchoLog.atEnd past) = some ⟨s.ownPing, false, f⟩ ∧
        EchoLog.source true (EchoLog.atStart past) = some ⟨s.ownPing, true, r⟩ ∧
        v = (f - r) / usPerCm := by
    intro r f early even pair same
    have falling := ended.taken ⟨s.ownPing, false, f⟩ (by simp [pair, latest_pair even])
    have rising := started.taken ⟨s.ownPing, true, r⟩ (by simp [same, pair, latest_pair even])
    refine ⟨falling, rising, ?_⟩
    rw [value, ended.value _ falling, started.value _ rising]
  refine ⟨⟨?pulse, ?belongs⟩, ?measures, ?prompt⟩
  case pulse =>
    rintro ⟨r, f, falling, rising, _⟩
    have recent : ¬ s.ownPing + 1 < s.pings := by
      simp only [Ranging.ownPing]
      omega
    have ends := (ended.older _ falling).resolve_right recent
    have starts := (started.older _ rising).resolve_right recent
    obtain ⟨early, even, pair, same⟩ := own_pair ordered suffix ends starts
    exact ⟨r, f, early, even, pair, same⟩
  case belongs =>
    rintro ⟨r, f, early, even, pair, same⟩
    exact ⟨r, f, own r f early even pair same⟩
  case measures =>
    rintro ⟨r, f, early, even, pair, same⟩
    have there : ∀ g ∈ EchoLog.edges (EchoLog.atEnd past), g ∈ past.delivered := fun g here =>
      (EchoLog.delivered_atEnd past).subset ((EchoLog.edges_since _).subset here)
    exact ⟨r, f, there _ (by simp [pair]), there _ (by simp [pair]),
      (own r f early even pair same).2.2⟩
  case prompt =>
    intro prompt
    have obeyed : ∀ y ∈ past, (fun (s : Ranging) o => (s.prompt o : Prop)) y.pre y.event := prompt
    exact (EchoLog.timely (run.obey obeyed) t _ returning).resolve_left echo

end

/-- A read whose echo comes in time returns its distance. -/
theorem distance_belongs_prompt : ∃ past s, Soundings 0 past s ∧
    s.reading = some (1, .returning 10) ∧ EchoLog.Belongs past s.ownPing 10 := by
  obtain ⟨past, s, run, reached⟩ := listen_run
    (show listen 0 [0, 1]
      (fun past s => s.reading = some (1, .returning 10) ∧ ∀ y ∈ past, y.pre.prompt y.event)
      [.enter 1 5, .arm 1, .ping 1, .kernel (.call 1 (.semaphoreAcquire 0 5) .parked),
        .kernel .pass, .edge 0 1000, .edge 0 1580, .kernel .pass,
        .kernel (.resume 1 (.semaphoreAcquire 0 5) (.returned .success)), .readEnd 1,
        .readStart 1] by decide +kernel)
  obtain ⟨returning, prompt⟩ := of_decide_eq_true reached
  have belongs := distance_belongs run returning (by decide)
  exact ⟨past, s, run, returning, belongs.1.mpr (belongs.2.2 prompt)⟩

/-- The echo of a read that has timed out comes late and leaves a token. The next read takes
the token and the width of that echo, 10 cm, where its own is 20 cm. -/
theorem distance_belongs_stale : ¬ ∀ idle past s t v, Soundings idle past s →
    s.reading = some (t, .returning v) → v ≠ ultrasonicNoEcho →
    EchoLog.Measures past s.ownPing v := by
  intro claim
  obtain ⟨past, s, run, reached⟩ := listen_run
    (show listen 0 [0, 1]
      (fun past s => s.reading = some (1, .returning 10) ∧ s.pings = 2 ∧
        past.delivered = [⟨1, false, 6160⟩, ⟨1, true, 5000⟩, ⟨0, false, 1580⟩, ⟨0, true, 1000⟩])
      [.enter 1 1, .arm 1, .ping 1, .kernel (.call 1 (.semaphoreAcquire 0 1) .parked),
        .kernel .pass, .kernel .tick, .kernel .pass,
        .kernel (.resume 1 (.semaphoreAcquire 0 1) (.returned .timeout)),
        .leave 1 ultrasonicNoEcho, .edge 0 1000, .edge 0 1580,
        .enter 1 5, .arm 1, .ping 1, .kernel (.call 1 (.semaphoreAcquire 0 5) (.returned .success)),
        .readEnd 1, .readStart 1, .edge 1 5000, .edge 1 6160] by decide +kernel)
  obtain ⟨returning, pings, edges⟩ := of_decide_eq_true reached
  obtain ⟨r, f, rising, falling, width⟩ := claim _ past s 1 10 run returning (by decide)
  rw [edges] at rising falling
  obtain rfl : r = 5000 := by simpa [Ranging.ownPing, pings] using rising
  obtain rfl : f = 6160 := by simpa [Ranging.ownPing, pings] using falling
  exact absurd width (by decide)

end Sentinel
