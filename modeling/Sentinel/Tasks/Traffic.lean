import Sentinel.Queue.Accounting
import Sentinel.Tasks.Sweep

/-! The radar seen by its queue. A run of the tasks is a run of the system with one queue, so what
holds of the queue in all of its runs holds of the angles that the sweep sends to the radar. -/

namespace Sentinel

open Runs (Transition Run)

/-- The queue call that a task is in. -/
def Place.frame : Place → Option Frame
  | .receiving _ _ frame | .sending _ _ frame => some frame
  | _ => none

def traffic (s : Execution Peripherals Place) : Traffic :=
  ⟨s.system, s.shared.queue, fun t => (s.place t).frame⟩

/-- What the queue sees of a statement that is no kernel call. -/
def Place.deed (t : TaskId) : Place → Option Deed
  | .receiving _ _ (.returning reply) | .sending _ _ (.returning reply) => some (.leave t reply)
  | .receiving _ _ _ | .sending _ _ _ => some (.access t)
  | .reading _ (.returning distance) =>
    if distance ≠ ultrasonicNoEcho then some (.enter t (.receive 0)) else none
  | .turning angle _ => some (.enter t (.send angle.toInt32.toUInt32 0))
  | _ => none

def deed (s : Execution Peripherals Place) : Move Irq → Option Deed
  | .kernel e => some (.kernel e)
  | .access t => (s.place t).deed t
  | .interrupt i => (radar.interrupt i s.shared).2.map fun x => .kernel (.post x)

/-- What the queue has seen of a run. -/
def service (past : RadarLog) : Log := Runs.project traffic deed past

section
variable {p : Place} {c : Call} {next : Outcome → Place}
  {f : Peripherals → Peripherals × Place}

theorem Place.frame_call (here : p.statement = .call c next) (out : Outcome) :
    (next out).frame = p.frame.map (Frame.proceed out) := by
  cases p with
  | greeting logging | reporting _ logging =>
    rcases Logging.statement_call here with ⟨_, _, _, after⟩ | ⟨_, _, after⟩ <;> rw [after] <;> rfl
  | receiving _ _ frame | sending _ _ frame =>
    obtain ⟨_, rfl⟩ := Frame.statement_call here
    rfl
  | reading _ phase =>
    obtain ⟨_, _, _, rfl⟩ := Phase.statement_call here
    rfl
  | resting | homed | settling | pausing =>
    cases here
    rfl
  | homing | turning | idling => cases here

/-- A call of a task that is in no queue call leaves the objects of the queue alone. -/
theorem Place.unused_call (here : p.statement = .call c next) (outside : p.frame = none) :
    c.uses sweepQueue = false := by
  cases p with
  | greeting logging | reporting _ logging =>
    rcases Logging.statement_call here with ⟨_, _, rfl, _⟩ | ⟨_, rfl, _⟩ <;> rfl
  | receiving | sending => cases outside
  | reading _ phase =>
    obtain ⟨_, _, rfl, _⟩ := Phase.statement_call here
    rfl
  | resting | homed | settling | pausing =>
    cases here
    rfl
  | homing | turning | idling => cases here

theorem Place.frame_call_of {frame : Frame} (here : p.statement = .call c next)
    (inside : p.frame = some frame) : frame.call sweepQueue = some c := by
  cases p with
  | receiving _ _ frame | sending _ _ frame =>
    cases inside
    exact (Frame.statement_call here).1
  | _ => cases inside

theorem Frame.proceed_still {frame : Frame} {q : OsMessageQueue} (silent : frame.call q = none)
    (out : Outcome) : frame.proceed out = frame := by
  cases frame with
  | sendWrite | sendHead | sendTail | receiveRead | receiveTail | returning => rfl
  | _ => cases silent

theorem Place.frame_silent {frame : Frame} (d : Peripherals) (here : p.statement = .access f)
    (inside : p.frame = some frame) : frame.call sweepQueue = none := by
  cases p with
  | receiving _ _ frame | sending _ _ frame =>
    cases inside
    rcases Frame.statement_access d here with ⟨_, rfl, _⟩ | ⟨_, _, accessed, _⟩
    · rfl
    · cases frame <;> first | rfl | cases accessed
  | _ => cases inside

end

section
variable {past : RadarLog} {s t : Execution Peripherals Place}

/-- The kernel objects of the queue. -/
def Peripherals.Objects (d : Peripherals) : Prop :=
  d.queue.lock = sweepQueue.lock ∧ d.queue.emptySlots = sweepQueue.emptySlots ∧
    d.queue.filledSlots = sweepQueue.filledSlots

theorem Place.objects_access {p : Place} {d : Peripherals} {f : Peripherals → Peripherals × Place}
    (objects : d.Objects) (here : p.statement = .access f) : (f d).1.Objects := by
  cases p with
  | greeting logging | reporting _ logging =>
    obtain ⟨_, _, same, _⟩ := Logging.access_kept d here
    rwa [Peripherals.Objects, same]
  | receiving _ _ frame | sending _ _ frame =>
    rcases Frame.statement_access d here with ⟨_, _, after⟩ | ⟨q, _, accessed, after⟩
    · rwa [after]
    · obtain ⟨_, _, _, lock, empty, filled⟩ := Frame.access_keeps accessed
      obtain ⟨first, second, third⟩ := objects
      rw [after]
      exact ⟨lock.trans first, empty.trans second, filled.trans third⟩
  | reading _ phase =>
    cases phase with
    | waiting => cases here
    | _ =>
      cases here
      exact objects
  | homing a =>
    cases here
    dsimp only
    split <;> exact objects
  | turning | idling =>
    cases here
    exact objects
  | resting | homed | settling | pausing => cases here

theorem Irq.queue_kept (i : Irq) (d : Peripherals) : (radar.interrupt i d).1.queue = d.queue := by
  cases i with
  | usart => rfl
  | capture sr ccr2 =>
    simp only [radar, Peripherals.tim2IrqHandler]
    split_ifs <;> rfl

theorem Irq.posts {i : Irq} {d : Peripherals} {x : Nat} (posts : (radar.interrupt i d).2 = some x) :
    x = echoReady := by
  cases i with
  | usart => cases posts
  | capture sr ccr2 =>
    simp only [radar, Peripherals.tim2IrqHandler] at posts
    split_ifs at posts
    exact (Option.some.inj posts).symm

theorem RadarRun.objects (run : RadarRun past s) : s.shared.Objects := by
  apply Firmware.invariant_of_run (J := fun _ _ d => d.Objects) run (t := radarTask)
  · intro s wired _
    rw [Peripherals.Objects, wired.queue]
    exact ⟨rfl, rfl, rfl⟩
  · intro _ _ _ _ _ _ objects _ _
    exact objects
  · intro _ _ _ _ objects here
    exact Place.objects_access objects here
  · intro _ _ _ _ _ _ _ _ objects here
    exact Place.objects_access objects here
  · intro _ _ d i objects
    rwa [Peripherals.Objects, Irq.queue_kept]

/-- The queue calls of all tasks move on as their statements do. -/
theorem traffic_moved (s : Execution Peripherals Place) (e : Event) :
    (fun t => (radar.moved s e t).frame) = (traffic s).moved e := by
  have returns : ∀ u c out, e = .call u c out ∨ e = .resume u c out →
      (fun t => (radar.moved s e t).frame) = (traffic s).moved e := by
    intro u c out event
    have moved : radar.moved s e = radar.moved s (.call u c out) ∧
        (traffic s).moved e = (traffic s).moved (.call u c out) := by
      rcases event with rfl | rfl <;> exact ⟨rfl, rfl⟩
    rw [moved.1, moved.2]
    funext t
    by_cases parked : out = .parked
    · cases here : (s.place u).statement <;> cases inside : (s.place u).frame <;>
        simp [Firmware.moved, Traffic.moved, radar, traffic, here, inside, parked]
    · cases here : (s.place u).statement with
      | call c' next =>
        have after := Place.frame_call here out
        cases inside : (s.place u).frame with
        | none =>
          rw [inside] at after
          by_cases self : t = u
          · subst self
            simp [Firmware.moved, Traffic.moved, radar, traffic, here, inside, parked, after]
          · simp [Firmware.moved, Traffic.moved, radar, traffic, here, inside, parked, self]
        | some frame =>
          rw [inside] at after
          by_cases self : t = u
          · subst self
            simp [Firmware.moved, Traffic.moved, radar, traffic, here, inside, parked, after]
          · simp [Firmware.moved, Traffic.moved, radar, traffic, here, inside, parked, self]
      | access f =>
        cases inside : (s.place u).frame with
        | none => simp [Firmware.moved, Traffic.moved, radar, traffic, here, inside]
        | some frame =>
          have still := Frame.proceed_still (Place.frame_silent s.shared here inside) out
          by_cases self : t = u
          · subst self
            simp [Firmware.moved, Traffic.moved, radar, traffic, here, inside, parked, still]
          · simp [Firmware.moved, Traffic.moved, radar, traffic, here, inside, parked, self]
  cases e with
  | call u c out => exact returns u c out (.inl rfl)
  | resume u c out => exact returns u c out (.inr rfl)
  | post | tick | pass => rfl

theorem traffic_may (objects : s.shared.Objects) {u : TaskId} {c : Call} (may : radar.may s u c) :
    (traffic s).may u c := by
  obtain ⟨lock, empty, filled⟩ := objects
  obtain ⟨next, here⟩ := Firmware.may_iff.mp may
  unfold Traffic.may
  have doing : (traffic s).doing u = (s.place u).frame := rfl
  rw [doing]
  cases inside : (s.place u).frame with
  | none =>
    have unused := Place.unused_call here inside
    rw [← Call.uses_congr lock empty filled] at unused
    simp [traffic, unused]
  | some frame =>
    have calls := Place.frame_call_of here inside
    rw [← Frame.call_congr lock empty filled] at calls
    simp [traffic, calls]

theorem traffic_update (s : Execution Peripherals Place) (u : TaskId) (d : Peripherals) (p : Place) :
    traffic ⟨s.system, d, Function.update s.place u p⟩ =
      ⟨s.system, d.queue, Function.update (traffic s).doing u p.frame⟩ := by
  have doing : (fun t => (Function.update s.place u p t).frame) =
      Function.update (traffic s).doing u p.frame := by
    funext t
    by_cases self : t = u
    · subst self
      simp
    · simp [self, traffic]
  rw [traffic, doing]

/-- A statement outside the queue calls that leaves the ring alone cannot be seen. -/
theorem traffic_unseen {u : TaskId} {d : Peripherals} {p : Place}
    (outside : (s.place u).frame = none) (still : p.frame = none) (queue : d.queue = s.shared.queue) :
    traffic ⟨s.system, d, Function.update s.place u p⟩ = traffic s := by
  have same : Function.update (traffic s).doing u none = (traffic s).doing := by
    rw [← outside]
    exact Function.update_eq_self u _
  rw [traffic_update, still, queue, same]
  rfl

/-- A statement in a queue call is a statement of that call, or its return. -/
theorem traffic_inside {u : TaskId} {go : Frame → Place} {done : Reply → Place} {frame : Frame}
    {f : Peripherals → Peripherals × Place} (runs : s.system.Runs u)
    (free : s.system.inside u = none) (inside : (s.place u).frame = some frame)
    (here : frame.statement go done = .access f) (goes : ∀ frame, (go frame).frame = some frame)
    (ends : ∀ reply, (done reply).frame = none) :
    (∃ reply, frame = .returning reply ∧ QueueStep idleTask (traffic s) (.leave u reply)
      (traffic ⟨s.system, (f s.shared).1, Function.update s.place u (f s.shared).2⟩)) ∨
    (∀ reply, frame ≠ .returning reply) ∧ QueueStep idleTask (traffic s) (.access u)
      (traffic ⟨s.system, (f s.shared).1, Function.update s.place u (f s.shared).2⟩) := by
  rw [traffic_update]
  rcases Frame.statement_access s.shared here with ⟨reply, rfl, after⟩ | ⟨q, frame', accessed, after⟩
  · left
    rw [after, ends]
    exact ⟨reply, rfl, .leave runs free inside⟩
  · right
    rw [after, goes]
    refine ⟨?_, .access runs free inside accessed⟩
    rintro reply rfl
    cases accessed

theorem traffic_allows (objects : s.shared.Objects) {e : Event} (allowed : radar.allows s e) :
    (traffic s).allows e := by
  cases e with
  | call u c out => exact traffic_may objects allowed
  | post => cases allowed
  | resume | tick | pass => rfl

/-- A statement that is no kernel call, seen by the queue. -/
theorem traffic_access {u : TaskId} {f : Peripherals → Peripherals × Place}
    (runs : s.system.Runs u) (free : s.system.inside u = none)
    (here : (s.place u).statement = .access f) :
    (∃ k, (s.place u).deed u = some k ∧ QueueStep idleTask (traffic s) k
      (traffic ⟨s.system, (f s.shared).1, Function.update s.place u (f s.shared).2⟩)) ∨
    (s.place u).deed u = none ∧
      traffic ⟨s.system, (f s.shared).1, Function.update s.place u (f s.shared).2⟩ = traffic s := by
  have entered : ∀ (op : Operation) (d : Peripherals) (p : Place), (s.place u).frame = none →
      p.frame = some op.start → d.queue = s.shared.queue → QueueStep idleTask (traffic s) (.enter u op)
        (traffic ⟨s.system, d, Function.update s.place u p⟩) := by
    intro op d p outside starts queue
    rw [traffic_update, starts, queue]
    exact .enter op runs free outside
  cases place : s.place u with
  | receiving angle distance frame =>
    rw [place] at here
    left
    rcases traffic_inside runs free (by rw [place]; rfl) here (fun _ => rfl)
        (fun reply => by cases reply <;> rfl) with ⟨reply, rfl, step⟩ | ⟨stays, step⟩
    · exact ⟨_, rfl, step⟩
    · refine ⟨_, ?_, step⟩
      cases frame with
      | returning reply => exact absurd rfl (stays reply)
      | _ => rfl
  | sending angle step frame =>
    rw [place] at here
    left
    rcases traffic_inside runs free (by rw [place]; rfl) here (fun _ => rfl) (fun _ => rfl) with
      ⟨reply, rfl, step⟩ | ⟨stays, step⟩
    · exact ⟨_, rfl, step⟩
    · refine ⟨_, ?_, step⟩
      cases frame with
      | returning reply => exact absurd rfl (stays reply)
      | _ => rfl
  | turning angle step =>
    rw [place] at here
    cases here
    exact .inl ⟨_, rfl, entered _ _ _ (by rw [place]; rfl) rfl rfl⟩
  | reading angle phase =>
    rw [place] at here
    cases phase with
    | waiting => cases here
    | returning distance =>
      cases here
      by_cases echo : distance ≠ ultrasonicNoEcho
      · refine .inl ⟨.enter u (.receive 0), by simp [Place.deed, echo], ?_⟩
        refine entered _ _ _ (by rw [place]; rfl) ?_ rfl
        simp [echo, Place.frame]
      · refine .inr ⟨by simpa [Place.deed] using echo, ?_⟩
        refine traffic_unseen (by rw [place]; rfl) ?_ rfl
        simp only [if_neg echo]
        rfl
    | arming | pinging | readingEnd | readingStart =>
      cases here
      exact .inr ⟨rfl, traffic_unseen (by rw [place]; rfl) rfl rfl⟩
  | greeting logging | reporting _ logging =>
    rw [place] at here
    obtain ⟨_, _, after, _⟩ := Logging.statement_access s.shared here
    refine .inr ⟨rfl, traffic_unseen (by rw [place]; rfl) (by rw [after]; rfl) ?_⟩
    exact (Logging.access_kept s.shared here).2.2.1
  | homing a =>
    rw [place] at here
    cases here
    refine .inr ⟨rfl, traffic_unseen (by rw [place]; rfl) ?_ ?_⟩
    · dsimp only
      split <;> rfl
    · dsimp only
      split <;> rfl
  | idling =>
    rw [place] at here
    cases here
    exact .inr ⟨rfl, traffic_unseen (by rw [place]; rfl) rfl rfl⟩
  | resting | homed | settling | pausing =>
    rw [place] at here
    cases here

theorem traffic_step (objects : s.shared.Objects) {a : Move Irq} (h : radar.Step idleTask s a t) :
    (∃ k, deed s a = some k ∧ QueueStep idleTask (traffic s) k (traffic t)) ∨
      deed s a = none ∧ traffic t = traffic s := by
  obtain ⟨lock, empty, filled⟩ := id objects
  cases h with
  | @kernel e system step allowed =>
    refine .inl ⟨_, rfl, ?_⟩
    have after : traffic ⟨system, s.shared, radar.moved s e⟩ =
        ⟨system, (traffic s).queue, (traffic s).moved e⟩ := by
      rw [← traffic_moved]
      rfl
    rw [after]
    exact .kernel step (traffic_allows objects allowed)
  | access runs free here => exact traffic_access runs free here
  | interrupt i =>
    have queue := Irq.queue_kept i s.shared
    have only := fun x => @Irq.posts i s.shared x
    dsimp only [deed]
    generalize (radar.interrupt i s.shared).2 = posted at only ⊢
    cases posted with
    | none =>
      refine .inr ⟨rfl, ?_⟩
      simp only [traffic, queue, Firmware.post]
    | some x =>
      obtain rfl := only x rfl
      refine .inl ⟨_, rfl, ?_⟩
      have step : Step idleTask s.system (.post echoReady) (Firmware.post (some echoReady) s.system) :=
        .post echoReady
      have other : (traffic s).allows (.post echoReady) := by
        simp [Traffic.allows, traffic, empty, filled, echoReady, sweepQueue]
      have after : traffic ⟨Firmware.post (some echoReady) s.system, (radar.interrupt i s.shared).1,
          s.place⟩ = ⟨Firmware.post (some echoReady) s.system, (traffic s).queue,
            (traffic s).moved (.post echoReady)⟩ := by
        simp only [traffic, queue, Traffic.moved]
      rw [after]
      exact .kernel step other

theorem Wired.opened (wired : Wired s) : Opened idleTask (traffic s) := by
  have queue : (traffic s).queue = sweepQueue := wired.queue
  refine ⟨wired.launched, ?_, ?_, ?_, ?_⟩
  · rw [queue]
    exact wired.fresh
  · rw [queue]
    decide
  · rw [queue]
    decide
  · intro u
    have here : (traffic s).doing u = (firstPlace u).frame := congrArg Place.frame
      (congrFun wired.place u)
    rw [here, firstPlace]
    split
    · rfl
    · split <;> rfl

/-- Every run of the radar is a run of the system with its queue. -/
theorem RadarRun.service (run : RadarRun past s) : Service idleTask (service past) (traffic s) :=
  Runs.Run.project run (fun _ wired => wired.opened) fun _ _ _ _ run step =>
    traffic_step (RadarRun.objects run) step

end
end Sentinel
