import Sentinel.Tasks.Sweep

/-! What the tasks send over the UART. Under the lock the lines come out whole, and the angles in
them are angles that the sweep has set. -/

namespace Sentinel

open Runs (Transition Run)

/-- An angle that the sweep can set. -/
def ValidAngle (angle : UInt32) : Prop := angle ≤ 180 ∧ angle % 5 = 0

/-- The largest quotient that `ultrasonic_read_cm` can come to. -/
def farthest : UInt32 := 0xFFFFFFFF / usPerCm

/-- The lines that the tasks print. -/
def Line (line : List UInt8) : Prop :=
  line = greetingLine ∨
    ∃ angle distance, ValidAngle angle ∧ distance ≤ farthest ∧ line = radarLine angle distance

/-! ### The values on their way to a line -/

/-- The message that a queue call has in hand is as it should be. -/
def Frame.Carries (V : UInt32 → Prop) : Frame → Prop
  | .sendSlot message _ | .sendLock message _ | .sendWrite message _ | .receiveTail message
    | .receiveUnlock message | .receivePost message | .returning (.received message) => V message
  | _ => True

def Phase.Measured : Phase → Prop
  | .returning distance => distance = ultrasonicNoEcho ∨ distance ≤ farthest
  | _ => True

def Logging.Begins : Logging → Prop
  | .lock line => Line line
  | _ => True

/-- The local variables that are on their way to a line. -/
def Place.Sane : Place → Prop
  | .reading _ phase => phase.Measured
  | .receiving _ distance frame => distance ≤ farthest ∧ frame.Carries ValidAngle
  | .reporting _ logging | .greeting logging => logging.Begins
  | .turning angle step | .pausing angle step => ∃ n, (angle, step) = swing n
  | .sending angle step frame => (∃ n, (angle, step) = swing n) ∧ frame.Carries ValidAngle
  | _ => True

/-- The ring holds angles that can be printed. -/
def Peripherals.Angles (d : Peripherals) : Prop := ∀ i, ValidAngle (d.queue.buffer i)

theorem swing_valid (n : Nat) : ValidAngle (swing n).1.toInt32.toUInt32 := by
  have round : ∀ r : Fin 72, (swing r.val).1.toInt32.toUInt32 ≤ 180 ∧
      (swing r.val).1.toInt32.toUInt32 % 5 = 0 := by decide +kernel
  rw [← swing_mod n]
  exact round ⟨n % 72, Nat.mod_lt n (by decide)⟩

section
variable {V : UInt32 → Prop} {frame after : Frame} {q q' : OsMessageQueue}

theorem Frame.carries_proceed (carries : frame.Carries V) (out : Outcome) :
    (frame.proceed out).Carries V := by
  cases frame with
  | sendSlot | receiveUnlock | receivePost => exact carries
  | sendLock message hadSlot =>
    simp only [Frame.proceed]
    split
    · exact carries
    · cases hadSlot <;> trivial
  | sendUnlock hadSlot => cases hadSlot <;> trivial
  | receiveSlot | receiveLock =>
    simp only [Frame.proceed]
    split <;> trivial
  | sendGiveBack | sendPost | receiveGiveBack => trivial
  | sendWrite | sendHead | sendTail | receiveRead | receiveTail | returning => exact carries

/-- What goes into the ring, and what comes out of it. -/
theorem Frame.carries_access (carries : frame.Carries V) (ring : ∀ i, V (q.buffer i))
    (accessed : frame.access q = some (q', after)) :
    after.Carries V ∧ ∀ i, V (q'.buffer i) := by
  cases frame with
  | sendWrite message hadSlot =>
    cases accessed
    refine ⟨trivial, ?_⟩
    intro i
    by_cases here : i = q.head
    · have new : V message := carries
      simpa [here] using new
    · simpa [here] using ring i
  | sendHead hadSlot =>
    cases accessed
    cases hadSlot <;> exact ⟨trivial, ring⟩
  | sendTail =>
    cases accessed
    exact ⟨trivial, ring⟩
  | receiveRead =>
    cases accessed
    exact ⟨ring _, ring⟩
  | receiveTail message =>
    cases accessed
    exact ⟨carries, ring⟩
  | _ => cases accessed

end

section
variable {p : Place} {d : Peripherals} {c : Call} {next : Outcome → Place}
  {f : Peripherals → Peripherals × Place}

theorem Place.sane_call (sane : p.Sane) (here : p.statement = .call c next) (out : Outcome) :
    (next out).Sane := by
  cases p with
  | greeting logging | reporting _ logging =>
    rcases Logging.statement_call here with ⟨_, _, _, after⟩ | ⟨_, _, after⟩ <;> rw [after] <;>
      trivial
  | receiving _ _ frame | sending _ _ frame =>
    obtain ⟨_, rfl⟩ := Frame.statement_call here
    exact ⟨sane.1, Frame.carries_proceed sane.2 out⟩
  | reading _ phase =>
    obtain ⟨_, _, _, rfl⟩ := Phase.statement_call here
    rcases Phase.proceed_cases out with ⟨_, after⟩ | after
    · simp only [Sane, after]
      trivial
    · simp only [Sane, after]
      exact .inl rfl
  | settling =>
    cases here
    exact ⟨0, rfl⟩
  | pausing =>
    cases here
    exact sane
  | resting | homed =>
    cases here
    trivial
  | homing | turning | idling => cases here

theorem Place.sane_access (sane : p.Sane) (angles : d.Angles) (here : p.statement = .access f) :
    (f d).2.Sane ∧ (f d).1.Angles := by
  cases p with
  | greeting logging | reporting _ logging =>
    obtain ⟨_, after, place, still⟩ := Logging.statement_access d here
    rw [place]
    refine ⟨?_, ?_⟩
    · cases after with
      | lock => cases still
      | check | poll | write | unlock => trivial
    · intro i
      rw [(Logging.access_kept d here).2.2.1]
      exact angles i
  | receiving angle distance frame =>
    rcases Frame.statement_access d here with ⟨reply, rfl, after⟩ | ⟨q, frame', accessed, after⟩
    · rw [after]
      cases reply with
      | received message => exact ⟨.inr ⟨message, distance, sane.2, sane.1, rfl⟩, angles⟩
      | missed | sent => exact ⟨trivial, angles⟩
    · obtain ⟨carries, ring⟩ := Frame.carries_access sane.2 angles accessed
      rw [after]
      exact ⟨⟨sane.1, carries⟩, ring⟩
  | sending angle step frame =>
    rcases Frame.statement_access d here with ⟨reply, rfl, after⟩ | ⟨q, frame', accessed, after⟩
    · obtain ⟨⟨n, same⟩, _⟩ := sane
      obtain ⟨rfl, rfl⟩ := Prod.mk.inj same
      rw [after]
      exact ⟨⟨n + 1, advance_swing n⟩, angles⟩
    · obtain ⟨carries, ring⟩ := Frame.carries_access sane.2 angles accessed
      rw [after]
      exact ⟨⟨sane.1, carries⟩, ring⟩
  | reading angle phase =>
    cases phase with
    | waiting => cases here
    | returning distance =>
      cases here
      refine ⟨?_, angles⟩
      dsimp only
      split
      · rename_i echo
        rcases sane with silent | near
        · exact absurd silent echo
        · exact ⟨near, trivial⟩
      · trivial
    | readingStart timeEnd =>
      cases here
      refine ⟨.inr ?_, angles⟩
      rw [farthest, UInt32.le_iff_toNat_le, UInt32.toNat_div, UInt32.toNat_div]
      apply Nat.div_le_div_right
      exact Nat.le_of_lt_succ (timeEnd - d.timeStart).toNat_lt
    | arming | pinging | readingEnd =>
      cases here
      exact ⟨trivial, angles⟩
  | homing a =>
    cases here
    dsimp only
    split <;> exact ⟨trivial, angles⟩
  | turning angle step =>
    obtain ⟨n, same⟩ := sane
    obtain ⟨rfl, rfl⟩ := Prod.mk.inj same
    cases here
    exact ⟨⟨⟨n, rfl⟩, swing_valid n⟩, angles⟩
  | idling =>
    cases here
    exact ⟨trivial, angles⟩
  | resting | homed | settling | pausing => cases here

end

section
variable {past : RadarLog} {s : Execution Peripherals Place}

theorem RadarRun.sane (run : RadarRun past s) (t : TaskId) :
    (s.place t).Sane ∧ s.shared.Angles := by
  apply Firmware.invariant_of_run (J := fun _ p d => p.Sane ∧ d.Angles) run
  · intro s wired t
    refine ⟨?_, ?_⟩
    · rw [wired.place, firstPlace]
      split
      · trivial
      · split
        · exact .inl rfl
        · trivial
    · intro i
      have zero : ValidAngle 0 := by
        unfold ValidAngle
        decide
      rw [wired.queue]
      exact zero
  · intro _ _ _ _ _ out before here _
    exact ⟨Place.sane_call before.1 here out, before.2⟩
  · intro _ _ _ _ before here
    exact Place.sane_access before.1 before.2 here
  · intro _ _ _ _ _ _ _ before mine here
    exact ⟨before.1, (Place.sane_access mine.1 mine.2 here).2⟩
  · intro _ _ d i before
    refine ⟨before.1, ?_⟩
    cases i with
    | usart => exact before.2
    | capture sr ccr2 =>
      have kept : (d.tim2IrqHandler sr ccr2).1.queue = d.queue := by
        unfold Peripherals.tim2IrqHandler
        split_ifs <;> rfl
      intro i
      exact kept.symm ▸ before.2 i

end

/-! ### What has been sent -/

/-- Whole lines have been sent, and behind them the beginning of one. -/
structure Sends (lines : List (List UInt8)) (begun : List UInt8) (d : Peripherals) : Prop where
  enabled : d.cr1 &&& Uart.cr1Ue ≠ 0
  whole : ∀ line ∈ lines, Line line
  sent : d.sent.reverse = (lines.flatten ++ begun).map UInt8.toUInt32

/-- What is to be printed completes what has been sent to a line. -/
def Logging.Completes (d : Peripherals) : Logging → Prop
  | .lock _ => False
  | .check rest => ∃ lines begun, Line (begun ++ rest) ∧ Sends lines begun d
  | .poll c rest | .write c rest => ∃ lines begun, Line (begun ++ c :: rest) ∧ Sends lines begun d
  | .unlock => ∃ lines, Sends lines [] d

def Place.Completes (p : Place) (d : Peripherals) : Prop :=
  match p with
  | .reporting _ logging | .greeting logging => logging.Completes d
  | _ => False

section
variable {lines : List (List UInt8)} {begun : List UInt8} {d d' : Peripherals} {p : Place}
  {f : Peripherals → Peripherals × Place}

theorem Sends.congr (sends : Sends lines begun d) (cr1 : d'.cr1 = d.cr1) (sent : d'.sent = d.sent) :
    Sends lines begun d' := ⟨cr1 ▸ sends.enabled, sends.whole, sent ▸ sends.sent⟩

theorem Place.Completes.congr (completes : p.Completes d) (cr1 : d'.cr1 = d.cr1)
    (sent : d'.sent = d.sent) : p.Completes d' := by
  have logged : ∀ logging : Logging, logging.Completes d → logging.Completes d' := by
    intro logging completes
    cases logging with
    | lock => exact completes
    | check | poll | write =>
      obtain ⟨lines, begun, whole, sends⟩ := completes
      exact ⟨lines, begun, whole, sends.congr cr1 sent⟩
    | unlock =>
      obtain ⟨lines, sends⟩ := completes
      exact ⟨lines, sends.congr cr1 sent⟩
  cases p with
  | reporting _ logging | greeting logging => exact logged logging completes
  | _ => exact completes

/-- A finished line joins the others. -/
theorem Sends.finish (sends : Sends lines begun d) (whole : Line begun) :
    Sends (lines ++ [begun]) [] d := by
  refine ⟨sends.enabled, ?_, by simpa using sends.sent⟩
  intro line there
  rcases List.mem_append.mp there with old | new
  · exact sends.whole line old
  · obtain rfl := List.mem_singleton.mp new
    exact whole

/-- One more character. -/
theorem Sends.write (sends : Sends lines begun d) (c : UInt8) :
    Sends lines (begun ++ [c]) { d with sent := c.toUInt32 :: d.sent } := by
  refine ⟨sends.enabled, sends.whole, ?_⟩
  simp [sends.sent]

/-- The statements of `__io_putchar` send the rest of the line in order. -/
theorem Logging.completes_access {go : Logging → Place} {back : Place} {logging : Logging}
    (completes : logging.Completes d) (here : logging.statement go back = .access f) :
    ∃ after : Logging, (f d).2 = go after ∧ after.Completes (f d).1 := by
  cases logging with
  | lock | unlock => cases here
  | check rest =>
    obtain ⟨lines, begun, whole, sends⟩ := completes
    cases rest with
    | nil =>
      cases here
      rw [List.append_nil] at whole
      exact ⟨.unlock, rfl, _, sends.finish whole⟩
    | cons c rest =>
      cases here
      refine ⟨.poll c rest, ?_, lines, begun, whole, sends⟩
      simp only [if_neg sends.enabled]
  | poll c rest =>
    obtain ⟨lines, begun, whole, sends⟩ := completes
    cases here
    refine ⟨_, rfl, ?_⟩
    dsimp only
    split <;> exact ⟨lines, begun, whole, sends⟩
  | write c rest =>
    obtain ⟨lines, begun, whole, sends⟩ := completes
    cases here
    refine ⟨.check rest, rfl, lines, begun ++ [c], ?_, sends.write c⟩
    simpa using whole

/-- Only a task that prints sends. -/
theorem Place.sends_outside (outside : p.atUart = false) (here : p.statement = .access f) :
    (f d).1.cr1 = d.cr1 ∧ (f d).1.sent = d.sent := by
  cases p with
  | greeting logging | reporting _ logging =>
    have inside := (Logging.statement_access d here).1
    cases outside.symm.trans inside
  | receiving _ _ frame | sending _ _ frame =>
    rcases Frame.statement_access d here with ⟨_, _, after⟩ | ⟨_, _, _, after⟩ <;> rw [after] <;>
      exact ⟨rfl, rfl⟩
  | reading _ phase =>
    cases phase with
    | waiting => cases here
    | arming | pinging | readingEnd | readingStart | returning =>
      cases here
      exact ⟨rfl, rfl⟩
  | homing a =>
    cases here
    dsimp only
    split <;> exact ⟨rfl, rfl⟩
  | turning | idling =>
    cases here
    exact ⟨rfl, rfl⟩
  | resting | homed | settling | pausing => cases here

/-- What the lock of the UART protects. -/
theorem uart_resource : radar.Resource Place.atUart Place.Sane (fun d => ∃ lines, Sends lines [] d)
    Place.Completes := by
  constructor
  · intro p d c next out sane here outside enters free
    cases p with
    | greeting logging | reporting _ logging =>
      rcases Logging.statement_call here with ⟨line, rfl, _, after⟩ | ⟨rfl, _⟩
      · obtain ⟨lines, sends⟩ := free
        rw [after]
        exact ⟨lines, [], sane, sends⟩
      · cases outside
    | receiving _ _ frame | sending _ _ frame =>
      obtain ⟨_, rfl⟩ := Frame.statement_call here
      cases enters
    | reading _ phase =>
      obtain ⟨_, _, _, rfl⟩ := Phase.statement_call here
      cases enters
    | resting | homed | settling | pausing =>
      cases here
      cases enters
    | homing | turning | idling => cases here
  · intro p d c next out here inside still completes
    cases p with
    | greeting logging | reporting _ logging =>
      rcases Logging.statement_call here with ⟨_, rfl, _⟩ | ⟨_, _, after⟩
      · cases inside
      · rw [after] at still
        cases still
    | _ => cases inside
  · intro p d c next out here inside _ completes
    cases p with
    | greeting logging | reporting _ logging =>
      rcases Logging.statement_call here with ⟨_, rfl, _⟩ | ⟨rfl, _⟩
      · cases inside
      · exact completes
    | _ => cases inside
  · intro p d f here inside completes
    cases p with
    | greeting logging | reporting _ logging =>
      obtain ⟨after, place, completes⟩ := Logging.completes_access completes here
      rw [place]
      exact completes
    | _ => cases inside
  · intro p d f here outside
    obtain ⟨cr1, sent⟩ := @Place.sends_outside d p f outside here
    exact ⟨fun ⟨lines, sends⟩ => ⟨lines, sends.congr cr1 sent⟩, fun q completes =>
      completes.congr cr1 sent⟩
  · intro d i
    have kept : (radar.interrupt i d).1.cr1 = d.cr1 ∧ (radar.interrupt i d).1.sent = d.sent := by
      cases i with
      | usart => exact ⟨rfl, rfl⟩
      | capture sr ccr2 =>
        simp only [radar, Peripherals.tim2IrqHandler]
        split_ifs <;> exact ⟨rfl, rfl⟩
    exact ⟨fun ⟨lines, sends⟩ => ⟨lines, sends.congr kept.1 kept.2⟩, fun q completes =>
      completes.congr kept.1 kept.2⟩

end

section
variable {past : RadarLog} {s : Execution Peripherals Place}

/-- **Whole lines.** However the tasks are interleaved, what has been sent is a sequence of whole
lines: the greeting of the sweep, and reports of an angle that the sweep has set with a distance.
Behind them there can be the beginning of one more, by the task that owns the lock. -/
theorem whole_lines (run : RadarRun past s) :
    ∃ (lines : List (List UInt8)) (begun : List UInt8),
    s.shared.sent.reverse = (lines.flatten ++ begun).map UInt8.toUInt32 ∧
    (∀ line ∈ lines, Line line) ∧
    (begun ≠ [] → ∃ t line, Line line ∧ begun <+: line ∧ (s.place t).atUart ∧
      (s.system.kernel.mutexes uartLock).owner = some t) := by
  have opens := fun s (wired : Wired s) => wired.opens_uart
  have guarded := Firmware.guarded_of_run run uart_brackets opens
  have base : ∀ s, Wired s → ∃ lines, Sends lines [] s.shared := by
    intro s wired
    refine ⟨[], wired.enabled, nofun, ?_⟩
    rw [wired.unsent]
    rfl
  have inOrder := Firmware.resource_of_run run uart_brackets opens uart_resource
    (fun _ _ run t => (RadarRun.sane run t).1) base
  by_cases printing : ∃ t, (s.place t).atUart
  · obtain ⟨t, inside⟩ := printing
    have owner := guarded.inside t inside
    have completes := inOrder.held t inside
    have logged : ∀ logging : Logging, logging.Completes s.shared → ∃ lines begun,
        Sends lines begun s.shared ∧ (begun ≠ [] → ∃ line, Line line ∧ begun <+: line) := by
      intro logging completes
      cases logging with
      | lock => cases completes
      | check | poll | write =>
        obtain ⟨lines, begun, whole, sends⟩ := completes
        exact ⟨lines, begun, sends, fun _ => ⟨_, whole, List.prefix_append _ _⟩⟩
      | unlock =>
        obtain ⟨lines, sends⟩ := completes
        exact ⟨lines, [], sends, fun some => absurd rfl some⟩
    have found : ∃ lines begun, Sends lines begun s.shared ∧
        (begun ≠ [] → ∃ line, Line line ∧ begun <+: line) := by
      cases place : s.place t with
      | reporting _ logging | greeting logging =>
        rw [place] at completes
        exact logged logging completes
      | _ =>
        rw [place] at inside
        cases inside
    obtain ⟨lines, begun, sends, whole⟩ := found
    refine ⟨lines, begun, sends.sent, sends.whole, ?_⟩
    intro some
    obtain ⟨line, isLine, before⟩ := whole some
    exact ⟨t, line, isLine, before, inside, owner⟩
  · have outside : ∀ t, (s.place t).atUart = false := by
      intro t
      by_contra inside
      exact printing ⟨t, by simpa using inside⟩
    obtain ⟨lines, sends⟩ := inOrder.free outside
    exact ⟨lines, [], sends.sent, sends.whole, fun some => absurd rfl some⟩

end

/-- The greeting has been sent. -/
theorem whole_lines_greeting : ∃ past s, RadarRun past s ∧
    s.shared.sent.length = greetingLine.length ∧
    ∃ (lines : List (List UInt8)) (begun : List UInt8),
      s.shared.sent.reverse = (lines.flatten ++ begun).map UInt8.toUInt32 ∧
      (∀ line ∈ lines, Line line) ∧
      (begun ≠ [] → ∃ t line, Line line ∧ begun <+: line ∧ (s.place t).atUart ∧
        (s.system.kernel.mutexes uartLock).owner = some t) := by
  obtain ⟨past, s, run, played⟩ := watch_run
    (show watch (fun _ s => s.shared.sent.length = greetingLine.length) untilHoming by
      decide +kernel)
  exact ⟨past, s, run, of_decide_eq_true played, whole_lines run⟩

end Sentinel
