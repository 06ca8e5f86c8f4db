import Sentinel.Queue.Delivery
import Sentinel.Tasks.Lines
import Sentinel.Tasks.Traffic

/-! From the servo to the UART. The sweep sends each angle that it sets, the radar reports some of
them, and the reports come out in the order in which the servo was there. -/

namespace Sentinel

open Runs (Transition Run)

/-- The angle of the `n`-th message. -/
def sweepAngle (n : Nat) : UInt32 := UInt32.ofNat (wave n)

theorem swing_message (n : Nat) : (swing n).1.toInt32.toUInt32 = sweepAngle n := by
  have round : ∀ r : Fin 72, (swing r.val).1.toInt32.toUInt32 = UInt32.ofNat (wave r.val) := by
    decide +kernel
  rw [sweepAngle, ← swing_mod n, ← wave_mod n]
  exact round ⟨n % 72, Nat.mod_lt n (by decide)⟩

/-! ### Where the sweep is in its messages -/

/-- The statements of a send that does not fail. -/
def Frame.sends : Frame → Bool
  | .sendSlot _ _ | .sendLock _ _ | .sendWrite _ _ | .sendHead _ | .sendTail | .sendUnlock _
    | .sendPost | .returning (.sent .success) => true
  | _ => false

/-- The message of a send that has not written it yet. -/
def Frame.unsent : Frame → Option UInt32
  | .sendSlot message _ | .sendLock message _ | .sendWrite message _ => some message
  | _ => none

def Frame.receives : Frame → Bool
  | .receiveSlot _ | .receiveLock | .receiveGiveBack | .receiveRead | .receiveTail _
    | .receiveUnlock _ | .receivePost _ | .returning (.received _) | .returning (.missed _) => true
  | _ => false

/-- The sweep has written `n` messages, and has set one pulse for each, after those of the homing
sequence. -/
def Place.Sent (n pulses : Nat) : Place → Prop
  | .greeting _ | .homing _ | .homed _ | .settling => n = 0
  | .turning _ _ | .pausing _ _ => pulses = n + 20
  | .sending angle _ frame => frame.sends ∧ match frame.unsent with
    | some message => message = angle.toInt32.toUInt32 ∧ pulses = n + 21
    | none => pulses = n + 20
  | .reading _ _ | .receiving _ _ _ | .reporting _ _ | .resting _ | .idling => False

/-- A place of the radar. -/
def Place.ranges : Place → Bool
  | .reading _ _ | .reporting _ _ | .resting _ => true
  | .receiving _ _ frame => frame.receives
  | _ => false

/-! ### What is still to be printed -/

def Logging.pending : Logging → List UInt8
  | .lock line => line
  | .check rest => rest
  | .poll c rest | .write c rest => c :: rest
  | .unlock => []

def Place.pending : Place → List UInt8
  | .greeting logging | .reporting _ logging => logging.pending
  | _ => []

def Place.reports : Place → Bool
  | .reporting _ _ => true
  | _ => false

/-- The text of some reports, each of an angle and a distance, behind the greeting. -/
def transcript (reports : List (UInt32 × UInt32)) : List UInt8 :=
  greetingLine ++ reports.flatMap fun r => radarLine r.1 r.2

section
variable {p : Place} {d : Peripherals} {c : Call} {next : Outcome → Place} {out : Outcome}
  {f : Peripherals → Peripherals × Place} {n pulses : Nat}

theorem Frame.sends_proceed {frame : Frame} {q : OsMessageQueue} (sends : frame.sends)
    (calls : frame.call q = some c)
    (locks : c = .mutexAcquire q.lock waitForever → out = .returned .success) :
    (frame.proceed out).sends ∧ (frame.proceed out).unsent = frame.unsent := by
  cases frame with
  | sendLock message hadSlot =>
    obtain rfl := locks (Option.some.inj calls).symm
    exact ⟨rfl, rfl⟩
  | sendUnlock hadSlot => cases hadSlot <;> exact ⟨rfl, rfl⟩
  | sendSlot | sendPost => exact ⟨rfl, rfl⟩
  | sendWrite | sendHead | sendTail | returning => cases calls
  | sendGiveBack | receiveSlot | receiveLock | receiveGiveBack | receiveRead | receiveTail
    | receiveUnlock | receivePost => cases sends

theorem Frame.receives_proceed {frame : Frame} (receives : frame.receives) (out : Outcome) :
    (frame.proceed out).receives := by
  cases frame with
  | receiveSlot | receiveLock =>
    simp only [Frame.proceed]
    split <;> rfl
  | receiveGiveBack | receiveUnlock | receivePost => rfl
  | receiveRead | receiveTail | returning => exact receives
  | sendSlot | sendLock | sendGiveBack | sendWrite | sendHead | sendTail | sendUnlock | sendPost =>
    cases receives

theorem Place.sent_call (sent : p.Sent n pulses) (here : p.statement = .call c next)
    (settled : p = .settling → pulses = 20)
    (locks : c = .mutexAcquire sweepQueue.lock waitForever → out = .returned .success) :
    (next out).Sent n pulses := by
  cases p with
  | greeting logging =>
    rcases Logging.statement_call here with ⟨_, _, _, after⟩ | ⟨_, _, after⟩ <;> rw [after] <;>
      exact sent
  | sending angle step frame =>
    obtain ⟨calls, rfl⟩ := Frame.statement_call here
    obtain ⟨sends, unsent⟩ := Frame.sends_proceed sent.1 calls locks
    refine ⟨sends, ?_⟩
    rw [unsent]
    exact sent.2
  | settling =>
    cases here
    obtain rfl : n = 0 := sent
    exact settled rfl
  | homed | pausing =>
    cases here
    exact sent
  | homing | turning => cases here
  | reading | receiving | reporting | resting | idling => cases sent

theorem Place.ranges_call (ranges : p.ranges) (here : p.statement = .call c next) (out : Outcome) :
    (next out).ranges := by
  cases p with
  | reporting _ logging =>
    rcases Logging.statement_call here with ⟨_, _, _, after⟩ | ⟨_, _, after⟩ <;> rw [after] <;> rfl
  | receiving _ _ frame =>
    obtain ⟨_, rfl⟩ := Frame.statement_call here
    exact Frame.receives_proceed ranges out
  | reading _ phase =>
    obtain ⟨_, _, _, rfl⟩ := Phase.statement_call here
    rfl
  | resting =>
    cases here
    rfl
  | greeting | homing | homed | settling | turning | sending | pausing | idling => cases ranges

/-- A kernel call prints nothing, and no report begins with one. -/
theorem Place.pending_call (here : p.statement = .call c next) (out : Outcome) :
    (next out).pending = p.pending ∧ ((next out).reports → p.reports) := by
  cases p with
  | greeting logging =>
    rcases Logging.statement_call here with ⟨_, rfl, _, after⟩ | ⟨rfl, _, after⟩ <;> rw [after] <;>
      exact ⟨rfl, by simp [Place.reports]⟩
  | reporting _ logging =>
    rcases Logging.statement_call here with ⟨_, rfl, _, after⟩ | ⟨rfl, _, after⟩ <;> rw [after] <;>
      exact ⟨rfl, fun _ => rfl⟩
  | receiving _ _ frame | sending _ _ frame =>
    obtain ⟨_, rfl⟩ := Frame.statement_call here
    exact ⟨rfl, by simp [Place.reports]⟩
  | reading _ phase =>
    obtain ⟨_, _, _, rfl⟩ := Phase.statement_call here
    exact ⟨rfl, by simp [Place.reports]⟩
  | resting | homed | settling | pausing =>
    cases here
    exact ⟨rfl, by simp [Place.reports]⟩
  | homing | turning | idling => cases here

/-- What is printed has been pending. -/
theorem Logging.pending_access {go : Logging → Place} {back : Place} {logging : Logging}
    (enabled : d.cr1 &&& Uart.cr1Ue ≠ 0) (here : logging.statement go back = .access f) :
    ∃ after : Logging, (f d).2 = go after ∧ (f d).1.cr1 = d.cr1 ∧ after.pending <:+ logging.pending ∧
      ∀ rest : List UInt8, (f d).1.sent.reverse ++ (after.pending ++ rest).map UInt8.toUInt32 =
        d.sent.reverse ++ (logging.pending ++ rest).map UInt8.toUInt32 := by
  cases logging with
  | lock | unlock => cases here
  | check rest =>
    cases rest with
    | nil =>
      cases here
      exact ⟨.unlock, rfl, rfl, List.suffix_refl _, fun _ => rfl⟩
    | cons c rest =>
      cases here
      exact ⟨.poll c rest, by simp only [if_neg enabled], rfl, List.suffix_refl _, fun _ => rfl⟩
  | poll c rest =>
    cases here
    refine ⟨_, rfl, rfl, ?_⟩
    split <;> exact ⟨List.suffix_refl _, fun _ => rfl⟩
  | write c rest =>
    cases here
    refine ⟨.check rest, rfl, rfl, List.suffix_cons c rest, ?_⟩
    intro others
    simp [Logging.pending]

end
/-! ### The log of the queue -/

section
variable {past : RadarLog} {s t : Execution Peripherals Place} {a : Move Irq} {log : Log}
  {x y : Traffic} {k : Deed}

theorem service_cons : service (⟨s, a, t⟩ :: past) =
    (deed s a).elim (service past) fun k => ⟨traffic s, k, traffic t⟩ :: service past := by
  cases seen : deed s a <;> simp [service, Runs.project, seen]

/-- Nothing is written or received, and nothing is read except by the radar. -/
structure Log.Calm (log log' : Log) : Prop where
  sent : log'.sent = log.sent
  reads : ∀ r ∈ log'.reads, r ∈ log.reads ∨ r.task = radarTask
  received : log'.received = log.received

theorem Log.calm_refl (log : Log) : log.Calm log := ⟨rfl, fun _ there => .inl there, rfl⟩

theorem Log.calm_of_quiet (access : ∀ u, k ≠ .access u) (leave : ∀ u m, k ≠ .leave u (.received m)) :
    Log.Calm log (⟨x, k, y⟩ :: log) := by
  cases k with
  | access u => exact absurd rfl (access u)
  | leave u reply =>
    cases reply with
    | received m => exact absurd rfl (leave u m)
    | sent | missed => exact ⟨rfl, fun _ there => .inl there, rfl⟩
  | enter | kernel => exact ⟨rfl, fun _ there => .inl there, rfl⟩

theorem Log.calm_of_access {u : TaskId} {frame : Frame} (here : x.doing u = some frame)
    (write : ∀ m hadSlot, frame ≠ .sendWrite m hadSlot) (read : frame = .receiveRead → u = radarTask) :
    Log.Calm log (⟨x, .access u, y⟩ :: log) := by
  have accessed : x.accessed (.access u) = some frame := here
  refine ⟨?_, ?_, rfl⟩
  · cases frame with
    | sendWrite m hadSlot => exact absurd rfl (write m hadSlot)
    | _ => simp [Log.sent, accessed]
  · intro r there
    cases frame with
    | receiveRead =>
      simp only [Log.reads, here, List.mem_cons] at there
      rcases there with rfl | there
      · exact .inr (read rfl)
      · exact .inl there
    | _ =>
      simp only [Log.reads, here] at there
      exact .inl there

/-! ### The story -/

/-- What has become of the angles: sent in their order, received in their order, and printed. -/
structure Story (log : Log) (s : Execution Peripherals Place) : Prop where
  sent : (s.place sweepTask).Sent log.sent.length s.shared.pulses.length
  messages : log.sent.map Prod.snd = (List.range log.sent.length).map sweepAngle
  ranging : (s.place radarTask).ranges
  others : ∀ t, t ≠ radarTask → t ≠ sweepTask → s.place t = .idling
  readers : ∀ r ∈ log.reads, r.task = radarTask
  order : log.received.Pairwise fun later earlier => ∃ m n, later.number = some m ∧
    earlier.number = some n ∧ n < m
  enabled : s.shared.cr1 &&& Uart.cr1Ue ≠ 0
  printed : ∃ reports : List (UInt32 × UInt32),
    reports.map Prod.fst = log.received.reverse.map Fetch.message ∧
    (∀ r ∈ reports, r.2 ≤ farthest) ∧
    s.shared.sent.reverse ++ ((s.place sweepTask).pending ++
      (s.place radarTask).pending).map UInt8.toUInt32 =
        (transcript reports).map UInt8.toUInt32 ∧
    ((s.place radarTask).reports → ∃ init r, reports = init ++ [r] ∧
      (s.place radarTask).pending <:+ radarLine r.1 r.2)

/-- A move that writes nothing into the ring and receives nothing. What it prints has been
pending. -/
theorem Story.keep {log' : Log} (story : Story log s) (calm : log.Calm log')
    (cr1 : t.shared.cr1 = s.shared.cr1)
    (sweep : (t.place sweepTask).Sent log.sent.length t.shared.pulses.length)
    (ranging : (t.place radarTask).ranges)
    (others : ∀ u, u ≠ radarTask → u ≠ sweepTask → t.place u = .idling)
    (text : t.shared.sent.reverse ++ ((t.place sweepTask).pending ++
      (t.place radarTask).pending).map UInt8.toUInt32 = s.shared.sent.reverse ++
        ((s.place sweepTask).pending ++ (s.place radarTask).pending).map UInt8.toUInt32)
    (reports : (t.place radarTask).reports → (s.place radarTask).reports ∧
      (t.place radarTask).pending <:+ (s.place radarTask).pending) : Story log' t := by
  obtain ⟨written, read, received⟩ := calm
  constructor
  · rwa [written]
  · rw [written]
    exact story.messages
  · exact ranging
  · exact others
  · intro r there
    rcases read r there with old | mine
    · exact story.readers r old
    · exact mine
  · rw [received]
    exact story.order
  · rw [cr1]
    exact story.enabled
  · obtain ⟨made, angles, near, whole, last⟩ := story.printed
    rw [received]
    refine ⟨made, angles, near, text.trans whole, ?_⟩
    intro here
    obtain ⟨before, fewer⟩ := reports here
    obtain ⟨init, r, split, rest⟩ := last before
    exact ⟨init, r, split, fewer.trans rest⟩

/-- Nothing is received before the first message is sent, and the greeting is over by then. -/
theorem Story.greeted (story : Story log s) (delivers : (traffic s).Delivers log)
    (some : log.received ≠ []) : (s.place sweepTask).pending = [] := by
  cases place : s.place sweepTask with
  | greeting logging =>
    have sent := story.sent
    rw [place] at sent
    have nothing : log.sent = [] := List.eq_nil_of_length_eq_zero sent
    obtain ⟨fetch, there⟩ := List.exists_mem_of_ne_nil _ some
    obtain ⟨n, _, written, _⟩ := delivers.known fetch (delivers.genuine fetch there)
    rw [nothing] at written
    cases written
  | reporting =>
    have sent := story.sent
    rw [place] at sent
    cases sent
  | _ => rfl

/-- A radar that prints has received something. -/
theorem Story.reported (story : Story log s) (here : (s.place radarTask).reports) :
    log.received ≠ [] := by
  obtain ⟨made, angles, _, _, last⟩ := story.printed
  obtain ⟨init, r, rfl, _⟩ := last here
  intro empty
  simp [empty] at angles

/-- The lock of the queue is always got. -/
theorem RadarRun.locks (run : RadarRun past s) {e : Event} {system : System} {u : TaskId} {n : UInt32}
    {out : Outcome} (step : Step idleTask s.system e system) (allowed : radar.allows s e)
    (awake : out ≠ .parked) (event : e = .call u (.mutexAcquire sweepQueue.lock n) out ∨
      e = .resume u (.mutexAcquire sweepQueue.lock n) out) : out = .returned .success := by
  have sound := Service.sound run.service
  obtain ⟨timers, owned⟩ := Service.settled run.service
  have lock : (traffic s).queue.lock = sweepQueue.lock := run.objects.1
  have got := @Traffic.Sound.locks idleTask (traffic s) u n sound owned timers e system step
    (traffic_allows run.objects allowed) out
  rw [lock] at got
  rcases event with event | event
  · exact (got.1 event).resolve_left awake
  · exact got.2 event

/-- The homing sequence has set its last pulse when the servo settles. -/
theorem RadarRun.settled (run : RadarRun past s) (here : s.place sweepTask = .settling) :
    s.shared.pulses.length = 20 := by
  have follows := (run.follows sweepTask).sweep rfl
  rw [here] at follows
  have pulses : s.shared.pulses = commands 19 := follows
  rw [pulses, commands_length]

/-- A return from a kernel call of the sweep or the radar. -/
theorem Story.event {e : Event} {system : System} (story : Story log s)
    (run : RadarRun past s) (step : Step idleTask s.system e system) (allowed : radar.allows s e) :
    Story (⟨x, .kernel e, y⟩ :: log) ⟨system, s.shared, radar.moved s e⟩ := by
  have placed := Firmware.placed_of_run run fun _ wired => wired.launched
  have sound := (Firmware.sound_of_run run fun _ wired => wired.launched).1
  have admits := Firmware.admits_of_allows allowed
  have board := step.refines sound
  -- what a return does to a task
  have returns : ∀ u, radar.moved s e u = s.place u ∨ ∃ c next out,
      (s.place u).statement = .call c next ∧ radar.moved s e u = next out ∧
      (c = .mutexAcquire sweepQueue.lock waitForever → out = .returned .success) := by
    intro u
    rcases radar.moved_cases s e u with ⟨stays, _⟩ | ⟨c, c', next, out, here, awake, event, after⟩
    · exact .inl stays
    · obtain ⟨rfl, _⟩ := placed.of_returned admits board here event
      refine .inr ⟨c', next, out, here, after, ?_⟩
      rintro rfl
      exact run.locks step allowed awake event
  have pending : ∀ u, (radar.moved s e u).pending = (s.place u).pending ∧
      ((radar.moved s e u).reports → (s.place u).reports) := by
    intro u
    rcases returns u with stays | ⟨c, next, out, here, after, _⟩
    · rw [stays]
      exact ⟨rfl, id⟩
    · rw [after]
      exact Place.pending_call here out
  have calm : Log.Calm log (⟨x, .kernel e, y⟩ :: log) := Log.calm_of_quiet (by simp) (by simp)
  refine story.keep calm rfl ?_ ?_ ?_ ?_ ?_
  · change (radar.moved s e sweepTask).Sent _ _
    rcases returns sweepTask with stays | ⟨c, next, out, here, after, locks⟩
    · rw [stays]
      exact story.sent
    · rw [after]
      exact Place.sent_call story.sent here run.settled locks
  · change (radar.moved s e radarTask).ranges
    rcases returns radarTask with stays | ⟨c, next, out, here, after, _⟩
    · rw [stays]
      exact story.ranging
    · rw [after]
      exact Place.ranges_call story.ranging here out
  · intro u first second
    change radar.moved s e u = .idling
    rcases returns u with stays | ⟨c, next, out, here, _⟩
    · rw [stays]
      exact story.others u first second
    · rw [story.others u first second] at here
      cases here
  · change _ ++ ((radar.moved s e sweepTask).pending ++ (radar.moved s e radarTask).pending).map _ = _
    rw [(pending sweepTask).1, (pending radarTask).1]
  · change (radar.moved s e radarTask).reports → _ ∧ (radar.moved s e radarTask).pending <:+ _
    rw [(pending radarTask).1]
    exact fun here => ⟨(pending radarTask).2 here, List.suffix_refl _⟩

/-- The message that the sweep writes is the next angle. -/
theorem Story.write {angle step : Int16} {message : UInt32} {hadSlot : Bool} (story : Story log s)
    (run : RadarRun past s) (here : s.place sweepTask = .sending angle step (.sendWrite message hadSlot))
    {q : OsMessageQueue}
    (moves : t = ⟨s.system, { s.shared with queue := q },
      Function.update s.place sweepTask (.sending angle step (.sendHead hadSlot))⟩) :
    Story (⟨traffic s, .access sweepTask, y⟩ :: log) t := by
  have inside : (traffic s).doing sweepTask = some (.sendWrite message hadSlot) :=
    congrArg Place.frame here
  have accessed : (traffic s).accessed (.access sweepTask) = some (.sendWrite message hadSlot) := inside
  have written : Log.sent (⟨traffic s, .access sweepTask, y⟩ :: log) =
      log.sent ++ [(log.sent.length, message)] := by
    simp [Log.sent, accessed]
  have read : Log.reads (⟨traffic s, .access sweepTask, y⟩ :: log) = log.reads := by
    simp [Log.reads, inside]
  have sent := story.sent
  rw [here] at sent
  obtain ⟨_, rfl, pulses⟩ := sent
  have next : angle.toInt32.toUInt32 = sweepAngle log.sent.length := by
    have follows := (run.follows sweepTask).sweep rfl
    rw [here] at follows
    obtain ⟨n, same, all⟩ := follows
    obtain ⟨rfl, rfl⟩ := Prod.mk.inj same
    rw [all, commands_length] at pulses
    obtain rfl : n = log.sent.length := by omega
    exact swing_message _
  have apart : ∀ u, u ≠ sweepTask → t.place u = s.place u := by
    intro u other
    simp [moves, other]
  have mine : t.place sweepTask = .sending angle step (.sendHead hadSlot) := by
    simp [moves]
  have shared : t.shared = { s.shared with queue := q } := by rw [moves]
  have silent : (s.place sweepTask).pending = [] := by
    rw [here]
    rfl
  have radar := apart radarTask (by decide)
  constructor
  · rw [written, mine, shared]
    refine ⟨rfl, ?_⟩
    simp only [List.length_append, List.length_singleton]
    change s.shared.pulses.length = _
    omega
  · rw [written]
    simp [List.range_succ, story.messages, next]
  · rw [radar]
    exact story.ranging
  · intro u first second
    rw [apart u second]
    exact story.others u first second
  · rw [read]
    exact story.readers
  · exact story.order
  · rw [shared]
    exact story.enabled
  · obtain ⟨made, angles, near, whole, last⟩ := story.printed
    rw [silent] at whole
    rw [mine, radar, shared]
    exact ⟨made, angles, near, whole, last⟩

/-- The angle that the radar gets is later than those before, and goes into the next line. -/
theorem Story.receive {angle distance message : UInt32} (story : Story log s)
    (delivers : (traffic s).Delivers log) (near : distance ≤ farthest)
    (here : s.place radarTask = .receiving angle distance (.returning (.received message)))
    (moves : t = ⟨s.system, s.shared, Function.update s.place radarTask
      (.reporting message (.lock (radarLine message distance)))⟩) :
    Story (⟨traffic s, .leave radarTask (.received message), y⟩ :: log) t := by
  have inside : (traffic s).doing radarTask = some (.returning (.received message)) :=
    congrArg Place.frame here
  obtain ⟨r, fetched, rfl, fresh⟩ := delivers.carried radarTask _ message inside rfl
  have received : Log.received (⟨traffic s, .leave radarTask (.received r.message), y⟩ :: log) =
      r :: log.received := by
    simp [Log.received, fetched]
  -- nobody else reads, so this is the latest read
  have latest : ∃ rest, log.reads = r :: rest := by
    cases reads : log.reads with
    | nil =>
      have there := List.mem_of_find?_eq_some fetched
      rw [reads] at there
      cases there
    | cons first rest =>
      have own := story.readers first (by rw [reads]; exact List.mem_cons_self)
      rw [Log.fetched, reads, List.find?_cons_of_pos (by simp [own])] at fetched
      cases fetched
      exact ⟨rest, rfl⟩
  have later : ∀ r' ∈ log.received, ∃ m n, r.number = some m ∧ r'.number = some n ∧ n < m := by
    intro r' there
    obtain ⟨rest, reads⟩ := latest
    have order := delivers.order
    have old := delivers.genuine r' there
    rw [reads] at order old
    rcases List.mem_cons.mp old with rfl | old
    · exact absurd there fresh
    · exact (List.pairwise_cons.mp order).1 r' old
  have apart : ∀ u, u ≠ radarTask → t.place u = s.place u := by
    intro u other
    simp [moves, other]
  have mine : t.place radarTask = .reporting r.message (.lock (radarLine r.message distance)) := by
    simp [moves]
  have shared : t.shared = s.shared := by rw [moves]
  have silent : (s.place radarTask).pending = [] := by
    rw [here]
    rfl
  have sweep := apart sweepTask (by decide)
  constructor
  · rw [sweep, shared]
    exact story.sent
  · exact story.messages
  · rw [mine]
    rfl
  · intro u first second
    rw [apart u first]
    exact story.others u first second
  · exact story.readers
  · rw [received]
    exact List.pairwise_cons.mpr ⟨later, story.order⟩
  · rw [shared]
    exact story.enabled
  · obtain ⟨made, angles, all, whole, _⟩ := story.printed
    refine ⟨made ++ [(r.message, distance)], ?_, ?_, ?_, ?_⟩
    · rw [received]
      simp [angles]
    · intro r' there
      rcases List.mem_append.mp there with old | new
      · exact all r' old
      · obtain rfl := List.mem_singleton.mp new
        exact near
    · rw [silent, List.append_nil] at whole
      rw [mine, sweep, shared, List.map_append, ← List.append_assoc, whole]
      simp [transcript, Place.pending, Logging.pending]
    · rw [mine]
      exact fun _ => ⟨made, _, rfl, List.suffix_refl _⟩

/-- A statement of the sweep. -/
theorem Story.sweep_access {f : Peripherals → Peripherals × Place} (story : Story log s)
    (run : RadarRun past s) (here : (s.place sweepTask).statement = .access f)
    (moves : t = ⟨s.system, (f s.shared).1, Function.update s.place sweepTask (f s.shared).2⟩) :
    Story (((s.place sweepTask).deed sweepTask).elim log fun k => ⟨traffic s, k, traffic t⟩ :: log)
      t := by
  have apart : ∀ u, u ≠ sweepTask → t.place u = s.place u := by
    intro u other
    simp [moves, other]
  have mine : t.place sweepTask = (f s.shared).2 := by
    simp [moves]
  have shared : t.shared = (f s.shared).1 := by rw [moves]
  have radar := apart radarTask (by decide)
  have sent := story.sent
  -- what leaves the ring alone
  have goes : ∀ {log'}, log.Calm log' → (f s.shared).1.cr1 = s.shared.cr1 →
      (f s.shared).2.Sent log.sent.length (f s.shared).1.pulses.length →
      (∀ rest : List UInt8, (f s.shared).1.sent.reverse ++
        ((f s.shared).2.pending ++ rest).map UInt8.toUInt32 =
          s.shared.sent.reverse ++ ((s.place sweepTask).pending ++ rest).map UInt8.toUInt32) →
      Story log' t := by
    intro log' calm cr1 after text
    apply story.keep calm
    · rw [shared, cr1]
    · rw [mine, shared]
      exact after
    · rw [radar]
      exact story.ranging
    · intro u first second
      rw [apart u second]
      exact story.others u first second
    · rw [mine, radar, shared]
      exact text _
    · rw [radar]
      exact fun reports => ⟨reports, List.suffix_refl _⟩
  cases place : s.place sweepTask with
  | greeting logging =>
    rw [place] at here sent goes
    obtain ⟨after, next, cr1, _, text⟩ := Logging.pending_access story.enabled here
    have pulses := (Logging.access_kept s.shared here).1
    refine goes (Log.calm_refl log) cr1 ?_ ?_
    · rw [next, pulses]
      exact sent
    · rw [next]
      exact text
  | homing a =>
    rw [place] at here sent goes
    cases here
    apply goes (Log.calm_refl log)
    · dsimp only
      split <;> rfl
    · dsimp only
      split <;> exact sent
    · intro rest
      dsimp only
      split <;> rfl
  | turning angle step =>
    rw [place] at here sent goes
    cases here
    refine goes (Log.calm_of_quiet (by simp) (by simp)) rfl ⟨rfl, rfl, ?_⟩ fun _ => rfl
    simp only [Peripherals.setAngle, List.length_cons]
    change s.shared.pulses.length = _ at sent
    omega
  | sending angle step frame =>
    rw [place] at here sent goes
    obtain ⟨sends, unsent⟩ := sent
    have inside : (traffic s).doing sweepTask = some frame := congrArg Place.frame place
    cases frame with
    | returning reply =>
      cases here
      cases reply with
      | sent code =>
        cases code with
        | success => exact goes (Log.calm_of_quiet (by simp) (by simp)) rfl unsent fun _ => rfl
        | timeout | fail => cases sends
      | received | missed => cases sends
    | sendWrite message hadSlot =>
      cases here
      exact story.write run place moves
    | sendHead hadSlot =>
      cases here
      refine goes (Log.calm_of_access inside (by simp) (by simp)) rfl ?_ fun _ => rfl
      cases hadSlot <;> exact ⟨rfl, unsent⟩
    | sendTail =>
      cases here
      exact goes (Log.calm_of_access inside (by simp) (by simp)) rfl ⟨rfl, unsent⟩ fun _ => rfl
    | receiveRead | receiveTail => cases sends
    | _ => cases here
  | homed | settling | pausing =>
    rw [place] at here
    cases here
  | reading | receiving | reporting | resting | idling =>
    rw [place] at sent
    cases sent

/-- A statement of the radar. -/
theorem Story.radar_access {f : Peripherals → Peripherals × Place} (story : Story log s)
    (run : RadarRun past s) (delivers : (traffic s).Delivers log)
    (here : (s.place radarTask).statement = .access f)
    (moves : t = ⟨s.system, (f s.shared).1, Function.update s.place radarTask (f s.shared).2⟩) :
    Story (((s.place radarTask).deed radarTask).elim log fun k => ⟨traffic s, k, traffic t⟩ :: log)
      t := by
  have apart : ∀ u, u ≠ radarTask → t.place u = s.place u := by
    intro u other
    simp [moves, other]
  have mine : t.place radarTask = (f s.shared).2 := by
    simp [moves]
  have shared : t.shared = (f s.shared).1 := by rw [moves]
  have sweep := apart sweepTask (by decide)
  have ranges := story.ranging
  -- what receives nothing
  have goes : ∀ {log'}, log.Calm log' → (f s.shared).1.cr1 = s.shared.cr1 →
      (f s.shared).1.pulses = s.shared.pulses → (f s.shared).2.ranges →
      ((f s.shared).1.sent.reverse ++
        ((s.place sweepTask).pending ++ (f s.shared).2.pending).map UInt8.toUInt32 =
          s.shared.sent.reverse ++
            ((s.place sweepTask).pending ++ (s.place radarTask).pending).map UInt8.toUInt32) →
      ((f s.shared).2.reports → (s.place radarTask).reports ∧
        (f s.shared).2.pending <:+ (s.place radarTask).pending) → Story log' t := by
    intro log' calm cr1 pulses after text reports
    apply story.keep calm
    · rw [shared, cr1]
    · rw [sweep, shared, pulses]
      exact story.sent
    · rw [mine]
      exact after
    · intro u first second
      rw [apart u first]
      exact story.others u first second
    · rw [mine, sweep, shared]
      exact text
    · rw [mine]
      exact reports
  cases place : s.place radarTask with
  | reporting angle logging =>
    have silent := story.greeted delivers (story.reported (by rw [place]; rfl))
    rw [place] at here goes
    obtain ⟨after, next, cr1, fewer, text⟩ := Logging.pending_access story.enabled here
    have pulses := (Logging.access_kept s.shared here).1
    refine goes (Log.calm_refl log) cr1 pulses ?_ ?_ ?_
    · rw [next]
      rfl
    · have last := text []
      rw [List.append_nil, List.append_nil] at last
      rw [next, silent]
      exact last
    · rw [next]
      exact fun _ => ⟨rfl, fewer⟩
  | receiving angle distance frame =>
    rw [place] at here ranges goes
    have inside : (traffic s).doing radarTask = some frame := congrArg Place.frame place
    cases frame with
    | returning reply =>
      cases here
      cases reply with
      | received message =>
        have near := (run.sane radarTask).1
        rw [place] at near
        exact story.receive delivers near.1 place moves
      | missed =>
        exact goes (Log.calm_of_quiet (by simp) (by simp)) rfl rfl rfl rfl
          fun reports => by cases reports
      | sent => cases ranges
    | receiveRead | receiveTail =>
      cases here
      exact goes (Log.calm_of_access inside (by simp) fun _ => rfl) rfl rfl rfl rfl
        fun reports => by cases reports
    | sendWrite | sendHead | sendTail => cases ranges
    | _ => cases here
  | reading angle phase =>
    rw [place] at here goes
    cases phase with
    | waiting => cases here
    | returning distance =>
      cases here
      dsimp only [Place.deed] at goes ⊢
      by_cases echo : distance ≠ ultrasonicNoEcho
      · rw [if_pos echo] at goes ⊢
        exact goes (Log.calm_of_quiet (by simp) (by simp)) rfl rfl rfl rfl
          fun reports => by cases reports
      · rw [if_neg echo] at goes ⊢
        exact goes (Log.calm_refl log) rfl rfl rfl rfl
          fun reports => by cases reports
    | arming | pinging | readingEnd | readingStart =>
      cases here
      exact goes (Log.calm_refl log) rfl rfl rfl rfl
        fun reports => by cases reports
  | resting =>
    rw [place] at here
    cases here
  | greeting | homing | homed | settling | turning | sending | pausing | idling =>
    rw [place] at ranges
    cases ranges

theorem Wired.story (wired : Wired s) : Story [] s := by
  have first : ∀ u, s.place u = firstPlace u := congrFun wired.place
  constructor
  · rw [first]
    rfl
  · rfl
  · rw [first]
    rfl
  · intro u radar sweep
    rw [first, firstPlace, if_neg radar, if_neg sweep]
  · intro r there
    cases there
  · exact .nil
  · exact wired.enabled
  · refine ⟨[], rfl, by simp, ?_, ?_⟩
    · rw [wired.unsent, first, first]
      rfl
    · rw [first]
      intro reports
      cases reports

theorem RadarRun.story (run : RadarRun past s) : Story (Sentinel.service past) s := by
  induction run with
  | start wired => exact wired.story
  | @next past s t a run step ih =>
    have delivers := Service.delivers (RadarRun.service run)
    rw [service_cons]
    cases step with
    | kernel step allowed => exact ih.event run step allowed
    | @access u f runs free here =>
      by_cases radar : u = radarTask
      · subst radar
        exact ih.radar_access run delivers here rfl
      · by_cases sweep : u = sweepTask
        · subst sweep
          exact ih.sweep_access run here rfl
        · have idle := ih.others u radar sweep
          rw [idle] at here
          cases here
          have still : Function.update s.place u .idling = s.place := by
            rw [← idle]
            exact Function.update_eq_self u _
          simp only [deed, idle, Place.deed, Option.elim_none, still]
          exact ih
    | interrupt i =>
      have kept : (radar.interrupt i s.shared).1.cr1 = s.shared.cr1 ∧
          (radar.interrupt i s.shared).1.sent = s.shared.sent ∧
          (radar.interrupt i s.shared).1.pulses = s.shared.pulses := by
        cases i with
        | usart => exact ⟨rfl, rfl, rfl⟩
        | capture sr ccr2 =>
          simp only [radar, Peripherals.tim2IrqHandler]
          split_ifs <;> exact ⟨rfl, rfl, rfl⟩
      obtain ⟨cr1, text, pulses⟩ := kept
      dsimp only [deed]
      refine ih.keep ?_ cr1 ?_ ih.ranging ih.others ?_ fun here => ⟨here, List.suffix_refl _⟩
      · cases (radar.interrupt i s.shared).2 with
        | none => exact Log.calm_refl _
        | some x => exact Log.calm_of_quiet (by simp) (by simp)
      · dsimp only
        rw [pulses]
        exact ih.sent
      · dsimp only
        rw [text]

/-- The pulses for the angles that have been sent. -/
theorem Story.commanded (story : Story log s) (run : RadarRun past s) :
    ∃ k, s.shared.pulses = commands k ∧ (log.sent ≠ [] → log.sent.length + 19 ≤ k) := by
  have follows := (run.follows sweepTask).sweep rfl
  have sent := story.sent
  have none : log.sent.length = 0 → log.sent ≠ [] → log.sent.length + 19 ≤ 0 := by
    intro zero some
    exact absurd (List.eq_nil_of_length_eq_zero zero) some
  cases place : s.place sweepTask with
  | greeting | settling =>
    rw [place] at follows sent
    exact ⟨_, follows, fun some => absurd (List.eq_nil_of_length_eq_zero sent) some⟩
  | homing | homed =>
    rw [place] at follows sent
    obtain ⟨k, _, _, pulses⟩ := follows
    exact ⟨_, pulses, fun some => absurd (List.eq_nil_of_length_eq_zero sent) some⟩
  | turning | pausing =>
    rw [place] at follows sent
    obtain ⟨n, _, pulses⟩ := follows
    refine ⟨_, pulses, fun _ => ?_⟩
    rw [pulses] at sent
    change (commands _).length = _ at sent
    rw [commands_length] at sent
    omega
  | sending angle step frame =>
    rw [place] at follows sent
    obtain ⟨n, _, pulses⟩ := follows
    refine ⟨_, pulses, fun _ => ?_⟩
    obtain ⟨_, unsent⟩ := sent
    rw [pulses] at unsent
    cases waits : frame.unsent with
    | none =>
      rw [waits] at unsent
      change (commands _).length = _ at unsent
      rw [commands_length] at unsent
      omega
    | some message =>
      rw [waits] at unsent
      have length := unsent.2
      rw [commands_length] at length
      omega
  | reading | receiving | reporting | resting | idling =>
    rw [place] at sent
    cases sent

/-- A message that has been received is the angle of its number, and the servo has been there. -/
theorem Story.received_angle (story : Story log s) (filled : (traffic s).Filled log)
    (delivers : (traffic s).Delivers log) {r : Fetch} (there : r ∈ log.received) :
    ∃ n < log.sent.length, r.number = some n ∧ r.message = sweepAngle n := by
  obtain ⟨n, number, written, _⟩ := delivers.known r (delivers.genuine r there)
  obtain ⟨i, bound, here⟩ := List.mem_iff_getElem.mp written
  have message := congrArg (fun l => l[i]?) story.messages
  have numbered := congrArg (fun l => l[i]?) filled.numbers
  simp only [List.getElem?_map, List.getElem?_eq_getElem bound, here, Option.map_some,
    List.getElem?_range bound] at message numbered
  obtain rfl := Option.some.inj numbered
  exact ⟨n, bound, number, Option.some.inj message⟩

/-- Numbers and distances that together make up a list of reports. -/
theorem zip_reports {numbers : List Nat} {made : List (UInt32 × UInt32)}
    (angles : made.map Prod.fst = numbers.map sweepAngle) :
    (numbers.zip (made.map Prod.snd)).map (fun r => (sweepAngle r.1, r.2)) = made ∧
      (numbers.zip (made.map Prod.snd)).map Prod.fst = numbers := by
  induction numbers generalizing made with
  | nil =>
    obtain rfl := List.map_eq_nil_iff.mp angles
    exact ⟨rfl, rfl⟩
  | cons n numbers ih =>
    cases made with
    | nil => cases angles
    | cons r made =>
      obtain ⟨first, rest⟩ := List.cons.inj angles
      obtain ⟨whole, same⟩ := ih rest
      simp [whole, same, ← first]

theorem transcript_append (init : List (UInt32 × UInt32)) (r : UInt32 × UInt32) :
    transcript (init ++ [r]) = transcript init ++ radarLine r.1 r.2 := by
  simp [transcript]

/-- All but the last of the reports have been printed. -/
theorem Story.printed_before (story : Story log s) {made : List (UInt32 × UInt32)}
    (greeted : (s.place sweepTask).pending = [])
    (whole : s.shared.sent.reverse ++ ((s.place sweepTask).pending ++
      (s.place radarTask).pending).map UInt8.toUInt32 = (transcript made).map UInt8.toUInt32)
    (last : (s.place radarTask).reports → ∃ init r, made = init ++ [r] ∧
      (s.place radarTask).pending <:+ radarLine r.1 r.2) (some : made ≠ []) :
    (transcript made.dropLast).map UInt8.toUInt32 <+: s.shared.sent.reverse := by
  rw [greeted, List.nil_append] at whole
  by_cases reports : (s.place radarTask).reports
  · obtain ⟨init, r, rfl, front, line⟩ := last reports
    rw [transcript_append, ← line, ← List.append_assoc, List.map_append] at whole
    rw [List.dropLast_concat, List.append_cancel_right whole, List.map_append]
    exact List.prefix_append _ _
  · have nothing : (s.place radarTask).pending = [] := by
      have ranges := story.ranging
      cases place : s.place radarTask with
      | reporting =>
        rw [place] at reports
        exact absurd rfl reports
      | greeting =>
        rw [place] at ranges
        cases ranges
      | _ => rfl
    rw [nothing, List.map_nil, List.append_nil] at whole
    rw [whole, ← List.dropLast_concat_getLast some, transcript_append, List.dropLast_concat,
      List.map_append]
    exact List.prefix_append _ _

/-- These are the reports that have been sent, by the number of the command and the distance. The
servo has been set `k` times. -/
def Execution.Reported (s : Execution Peripherals Place) (k : Nat) (reports : List (Nat × UInt32)) :
    Prop :=
  s.shared.pulses = commands k ∧
  reports.Pairwise (fun earlier later => earlier.1 < later.1) ∧
  (∀ r ∈ reports, r.1 + 20 ≤ k ∧ r.2 ≤ farthest) ∧
  s.shared.sent.reverse <+:
    (transcript (reports.map fun r => (sweepAngle r.1, r.2))).map UInt8.toUInt32 ∧
  (reports ≠ [] → (transcript (reports.dropLast.map fun r => (sweepAngle r.1, r.2))).map
    UInt8.toUInt32 <+: s.shared.sent.reverse)

theorem RadarRun.reported (run : RadarRun past s) : ∃ k reports, s.Reported k reports := by
  have story := run.story
  have filled := Service.filled run.service
  have delivers := Service.delivers run.service
  obtain ⟨k, pulses, level⟩ := story.commanded run
  obtain ⟨made, angles, near, whole, last⟩ := story.printed
  let numbers := (Sentinel.service past).received.reverse.map fun r => r.number.getD 0
  have known : made.map Prod.fst = numbers.map sweepAngle := by
    rw [angles, List.map_map]
    apply List.map_congr_left
    intro r there
    obtain ⟨n, _, number, message⟩ :=
      story.received_angle filled delivers (List.mem_reverse.mp there)
    simp [number, message]
  obtain ⟨same, first⟩ := zip_reports known
  have order : numbers.Pairwise (· < ·) := by
    apply List.pairwise_map.mpr
    apply List.pairwise_reverse.mpr
    refine story.order.imp ?_
    rintro later earlier ⟨m, n, late, early, less⟩
    simpa [late, early] using less
  refine ⟨k, numbers.zip (made.map Prod.snd), pulses, ?_, ?_, ?_, ?_⟩
  · rw [← first] at order
    exact List.pairwise_map.mp order
  · intro r there
    obtain ⟨number, distance⟩ := List.of_mem_zip there
    refine ⟨?_, ?_⟩
    · obtain ⟨fetch, there, same⟩ := List.mem_map.mp number
      obtain ⟨n, bound, number, _⟩ :=
        story.received_angle filled delivers (List.mem_reverse.mp there)
      have some : (Sentinel.service past).sent ≠ [] := List.ne_nil_of_length_pos (by omega)
      have enough := level some
      simp only [number, Option.getD_some] at same
      omega
    · obtain ⟨report, there, same⟩ := List.mem_map.mp distance
      rw [← same]
      exact near report there
  · rw [same, ← whole]
    exact List.prefix_append _ _
  · intro some
    rw [List.map_dropLast, same]
    have made' : made ≠ [] := by
      rintro rfl
      simp at some
    have received : (Sentinel.service past).received ≠ [] := by
      intro empty
      rw [empty] at angles
      exact made' (List.map_eq_nil_iff.mp angles)
    exact story.printed_before (story.greeted delivers received) whole last made'

end

/-- **From the servo to the UART.** However the tasks are interleaved, what has been sent is the
greeting and then reports, the last of which can be incomplete. Each reports an angle that the
servo has been set to, and the angles come in the order in which they have been set. -/
theorem reports_in_order (run : RadarRun past s) :
    ∃ (k : Nat) (reports : List (Nat × UInt32)),
      s.shared.pulses = commands k ∧
      reports.Pairwise (fun earlier later => earlier.1 < later.1) ∧
      (∀ r ∈ reports, r.1 + 20 ≤ k ∧ r.2 ≤ farthest) ∧
      s.shared.sent.reverse <+:
        (transcript (reports.map fun r => (sweepAngle r.1, r.2))).map UInt8.toUInt32 ∧
      (reports ≠ [] → (transcript (reports.dropLast.map fun r => (sweepAngle r.1, r.2))).map
        UInt8.toUInt32 <+: s.shared.sent.reverse) :=
  run.reported

/-- The greeting has been sent, and the report of the first angle with the first echo. -/
theorem reports_in_order_first : ∃ past s, RadarRun past s ∧
    s.shared.sent.reverse = (greetingLine ++ radarLine 0 10).map UInt8.toUInt32 ∧
    ∃ (k : Nat) (reports : List (Nat × UInt32)),
      s.shared.pulses = commands k ∧
      reports.Pairwise (fun earlier later => earlier.1 < later.1) ∧
      (∀ r ∈ reports, r.1 + 20 ≤ k ∧ r.2 ≤ farthest) ∧
      s.shared.sent.reverse <+:
        (transcript (reports.map fun r => (sweepAngle r.1, r.2))).map UInt8.toUInt32 ∧
      (reports ≠ [] → (transcript (reports.dropLast.map fun r => (sweepAngle r.1, r.2))).map
        UInt8.toUInt32 <+: s.shared.sent.reverse) := by
  obtain ⟨past, s, run, sent⟩ := simulate_run untilReport_reaches
    (show simulate untilReport (fun s => s.shared.sent.reverse =
        (greetingLine ++ radarLine 0 10).map UInt8.toUInt32) by
      decide +kernel)
  exact ⟨past, s, run, of_decide_eq_true sent, reports_in_order run⟩

end Sentinel
