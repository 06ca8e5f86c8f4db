import Sentinel.Servo.Driver
import Sentinel.Tasks.Regions
import Sentinel.Uart.Number
import Sentinel.Ultrasonic.Driver

/-! The tasks of the radar (`tasks.c`), on the objects that `main` wires up. The sweep turns the
servo and puts every angle into a queue. The radar takes an angle for each distance that it
measures and logs both. -/

namespace Sentinel

open Runs (Transition Run)

/-- The mutexes and semaphores of `main.c`. -/
def uartLock : Nat := 0
def echoReady : Nat := 0

/-- `sweep_queue`, with its lock and its two semaphores. -/
def sweepQueue : OsMessageQueue := ⟨fun _ => 0, 8, 0, 0, 1, 1, 2⟩

/-- What the tasks share: the registers of `USART2` and what has been sent, the pulses set so far
with the latest first, the variables of the distance sensor, and the ring. -/
structure Peripherals where
  cr1 : UInt32
  sr : UInt32
  sent : Uart.Sent
  pwmPeriodUs : UInt32
  pulses : List UInt32
  waitingForRising : Bool
  timeStart : UInt32
  timeEnd : UInt32
  pings : Nat
  queue : OsMessageQueue

/-- The places of a stretch that prints under the lock. `check`, `poll` and `write` are the
statements of `__io_putchar`, with the characters that are left. -/
inductive Logging
  | lock (line : List UInt8)
  | check (rest : List UInt8)
  | poll (c : UInt8) (rest : List UInt8)
  | write (c : UInt8) (rest : List UInt8)
  | unlock
  deriving DecidableEq, Repr

/-- The places of the tasks, each with the local variables that are alive there. -/
inductive Place
  | reading (angle : UInt32) (phase : Phase)
  | receiving (angle distance : UInt32) (frame : Frame)
  | reporting (angle : UInt32) (logging : Logging)
  | resting (angle : UInt32)
  | greeting (logging : Logging)
  | homing (a : Int16)
  | homed (a : Int16)
  | settling
  | turning (angle step : Int16)
  | sending (angle step : Int16) (frame : Frame)
  | pausing (angle step : Int16)
  | idling

abbrev RadarStatement := Statement Peripherals Place

/-- The characters of a string. -/
def text (str : String) : List UInt8 := str.toList.map Uart.byte

/-- What `uart_print_number` prints. -/
def decimal (num : UInt32) : List UInt8 := (Nat.toDigits 10 num.toNat).map Uart.byte

/-- What `log_line` prints. -/
def line (label : String) (a : UInt32) (label2 : Option String) (b : UInt32) : List UInt8 :=
  text label ++ decimal a ++ (label2.elim [] fun label2 => text label2 ++ decimal b) ++ text "\r\n"

/-- The prints of `log_line`, one after the other. -/
def Uart.Usart.logLine (p : Uart.Usart) (rounds : Nat) (label : String) (a : UInt32)
    (label2 : Option String) (b : UInt32) (sent : Uart.Sent) : Option Uart.Sent := do
  let sent ← p.uartPrint rounds (text label) sent
  let sent ← p.uartPrintNumber rounds a sent
  let sent ← match label2 with
    | some label2 => do
      let sent ← p.uartPrint rounds (text label2) sent
      p.uartPrintNumber rounds b sent
    | none => some sent
  p.uartPrint rounds (text "\r\n") sent

theorem Uart.Usart.uartPrint_append (p : Uart.Usart) (rounds : Nat) (first second : List UInt8)
    (sent : Uart.Sent) : p.uartPrint rounds (first ++ second) sent =
      (p.uartPrint rounds first sent).bind (p.uartPrint rounds second) := by
  induction first generalizing sent with
  | nil => rfl
  | cons c first ih =>
    simp only [List.cons_append, Uart.Usart.uartPrint, Option.bind_eq_bind, Option.bind_assoc, ih]

theorem Uart.Usart.logLine_prints (p : Uart.Usart) (rounds : Nat) (label : String) (a : UInt32)
    (label2 : Option String) (b : UInt32) (sent : Uart.Sent) :
    p.logLine rounds label a label2 b sent = p.uartPrint rounds (line label a label2 b) sent := by
  have number : ∀ num sent, p.uartPrintNumber rounds num sent =
      p.uartPrint rounds (decimal num) sent := uartPrintNumber_prints p rounds
  cases label2 with
  | none | some => simp [logLine, line, number, uartPrint_append]

def greetingLine : List UInt8 := text "[Servo] Gradual homing sequence...\r\n"

def radarLine (angle distance : UInt32) : List UInt8 :=
  line "[Radar] Angle: " angle (some " | Dist (cm): ") distance

/-- A print under the lock. The result of the acquire is not looked at. -/
def Logging.statement (go : Logging → Place) (done : Place) : Logging → RadarStatement
  | .lock line => .call (.mutexAcquire uartLock waitForever) fun _ => go (.check line)
  | .check [] => .access fun d => (d, go .unlock)
  | .check (c :: rest) =>
    .access fun d => (d, go (if d.cr1 &&& Uart.cr1Ue = 0 then .check rest else .poll c rest))
  | .poll c rest =>
    .access fun d => (d, go (if d.sr &&& Uart.srTxe = 0 then .poll c rest else .write c rest))
  | .write c rest => .access fun d => ({ d with sent := c.toUInt32 :: d.sent }, go (.check rest))
  | .unlock => .call (.mutexRelease uartLock) fun _ => done

/-- A statement of `ultrasonic_read_cm`. -/
def Phase.statement (go : Phase → Place) (done : UInt32 → Place) : Phase → RadarStatement
  | .arming timeout => .access fun d => ({ d with waitingForRising := true }, go (.pinging timeout))
  | .pinging timeout => .access fun d => ({ d with pings := d.pings + 1 }, go (.waiting timeout))
  | .waiting timeout =>
    .call (.semaphoreAcquire echoReady timeout) fun out => go (Phase.proceed out)
  | .readingEnd => .access fun d => (d, go (.readingStart d.timeEnd))
  | .readingStart timeEnd => .access fun d => (d, go (.returning ((timeEnd - d.timeStart) / usPerCm)))
  | .returning distance => .access fun d => (d, done distance)

/-- A statement of `os_queue_send` or `os_queue_receive` on `sweep_queue`. -/
def Frame.statement (go : Frame → Place) (done : Reply → Place) (f : Frame) : RadarStatement :=
  match f with
  | .returning reply => .access fun d => (d, done reply)
  | f =>
    match f.call sweepQueue with
    | some c => .call c fun out => go (f.proceed out)
    | none => .access fun d =>
      match f.access d.queue with
      | some (q, f') => ({ d with queue := q }, go f')
      | none => (d, go f)

/-- `servo_set_angle`. -/
def Peripherals.setAngle (d : Peripherals) (degrees : UInt16) : Peripherals :=
  { d with pulses := servoSetAngle d.pwmPeriodUs degrees :: d.pulses }

/-- `SWEEP_STEP_DEG`. -/
def sweepStepDeg : Int16 := 5

/-- `angle += step`, with the turns at both ends. -/
def advance (angle step : Int16) : Int16 × Int16 :=
  let angle := angle + step
  if angle ≥ 180 then (180, -sweepStepDeg)
  else if angle ≤ 0 then (0, sweepStepDeg)
  else (angle, step)

/-- The code of `radar_task`, `sweep_task` and `os_idle_task`. -/
def Place.statement : Place → RadarStatement
  | .reading angle phase =>
    phase.statement (.reading angle) fun distance =>
      if distance ≠ ultrasonicNoEcho then .receiving angle distance (Operation.receive 0).start
      else .resting angle
  | .receiving angle distance frame =>
    frame.statement (.receiving angle distance) fun
      | .received message => .reporting message (.lock (radarLine message distance))
      | .missed _ | .sent _ => .resting angle
  | .reporting angle logging => logging.statement (.reporting angle) (.resting angle)
  | .resting angle => .call (.delay 100) fun _ => .reading angle (.arming 60)
  | .greeting logging => logging.statement .greeting (.homing 90)
  | .homing a => .access fun d =>
    if a ≥ 0 then (d.setAngle a.toUInt16, .homed a) else (d, .settling)
  | .homed a => .call (.delay 50) fun _ => .homing (a - sweepStepDeg)
  | .settling => .call (.delay 500) fun _ => .turning 0 sweepStepDeg
  | .turning angle step => .access fun d =>
    (d.setAngle angle.toUInt16,
      .sending angle step (Operation.send angle.toInt32.toUInt32 0).start)
  | .sending angle step frame =>
    frame.statement (.sending angle step) fun _ =>
      .pausing (advance angle step).1 (advance angle step).2
  | .pausing angle step => .call (.delay 20) fun _ => .turning angle step
  | .idling => .access fun d => (d, .idling)

/-- An interrupt of the capture timer, with its status and the captured time, or a change of the
status of `USART2`. -/
inductive Irq
  | capture (sr ccr2 : UInt32)
  | usart (sr : UInt32)
  deriving DecidableEq, Repr

/-- `TIM_SR_CC2IF`. -/
def timSrCc2if : UInt32 := 4

/-- `TIM2_IRQHandler`, with the semaphore that it posts. -/
def Peripherals.tim2IrqHandler (sr ccr2 : UInt32) (d : Peripherals) : Peripherals × Option Nat :=
  if sr &&& timSrCc2if = 0 then (d, none)
  else if d.waitingForRising then ({ d with timeStart := ccr2, waitingForRising := false }, none)
  else ({ d with timeEnd := ccr2, waitingForRising := true }, some echoReady)

/-- The firmware of the radar. -/
def radar : Firmware Peripherals Place Irq where
  code := Place.statement
  interrupt
    | .capture sr ccr2, d => d.tim2IrqHandler sr ccr2
    | .usart sr, d => ({ d with sr := sr }, none)

end Sentinel
