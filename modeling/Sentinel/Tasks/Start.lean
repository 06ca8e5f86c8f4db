import Sentinel.Tasks.Program
import Sentinel.Tasks.Simulation

/-! The start of the radar, as `main` wires it up, and runs of it that can be computed. -/

namespace Sentinel

open Runs (Transition Run)

def radarTask : TaskId := ⟨0, by decide⟩
def sweepTask : TaskId := ⟨1, by decide⟩
def idleTask : TaskId := ⟨2, by decide⟩

/-- Where the functions of the tasks begin. -/
def firstPlace (t : TaskId) : Place :=
  if t = radarTask then .reading 0 (.arming 60)
  else if t = sweepTask then .greeting (.lock greetingLine)
  else .idling

/-- The first moment of the radar: `main` has wired it up and launched the kernel. -/
structure Wired (s : Execution Peripherals Place) : Prop where
  launched : Launched idleTask s.system
  uartLock : s.system.kernel.mutexes uartLock = ⟨0, none⟩
  echoReady : s.system.kernel.semaphores echoReady = ⟨0, 1⟩
  fresh : FreshQueue sweepQueue s.system.kernel
  queue : s.shared.queue = sweepQueue
  enabled : s.shared.cr1 &&& Uart.cr1Ue ≠ 0
  unsent : s.shared.sent = []
  period : s.shared.pwmPeriodUs = servoPeriodUs
  centred : s.shared.pulses = [servoCentre]
  place : s.place = firstPlace

abbrev RadarRun := Run Wired (radar.Step idleTask)

abbrev RadarLog := List (Transition (Execution Peripherals Place) (Move Irq))

/-! ### Runs that can be computed -/

/-- The semaphores of `main.c`. -/
def mainSemaphores (x : Nat) : OsSemaphore :=
  if x = echoReady then ⟨0, 1⟩
  else if x = sweepQueue.emptySlots then ⟨sweepQueue.capacity, sweepQueue.capacity⟩
  else ⟨0, sweepQueue.capacity⟩

/-- The peripherals after the calls of `uart_init`, `servo_init` and `ultrasonic_init`. -/
def mainPeripherals : Peripherals :=
  ⟨Uart.cr1Ue, Uart.srTxe, [], servoPeriodUs, [servoCentre], true, 0, 0, 0, sweepQueue⟩

theorem wired_main {system : System} (started : Started idleTask mainSemaphores system) :
    Wired ⟨system, mainPeripherals, firstPlace⟩ := by
  have enabled : mainPeripherals.cr1 &&& Uart.cr1Ue ≠ 0 := by decide
  refine ⟨started.launched, started.mutexes _, congrFun started.semaphores _, ?_, rfl, enabled,
    rfl, rfl, rfl, rfl⟩
  exact ⟨started.mutexes _, congrFun started.semaphores _, congrFun started.semaphores _, rfl, rfl⟩

/-- Moves played from the launch of the tasks with the priorities of `main.c`. -/
def watch : (RadarLog → Execution Peripherals Place → Bool) → List (Move Irq) → Bool :=
  radar.rehearse idleTask mainSemaphores [2, 1, 0] mainPeripherals firstPlace

theorem watch_run {goal : RadarLog → Execution Peripherals Place → Bool} {moves : List (Move Irq)}
    (done : watch goal moves = true) : ∃ past s, RadarRun past s ∧ goal past s = true := by
  apply Firmware.rehearse_run (by decide) _ done
  intro system started
  exact wired_main started

/-- The radar waits for its first echo, and the sweep prints its greeting and begins to home. -/
def untilHoming : List (Move Irq) :=
  [.access radarTask, .access radarTask,
    .kernel (.call radarTask (.semaphoreAcquire echoReady 60) .parked), .kernel .pass,
    .kernel (.call sweepTask (.mutexAcquire uartLock waitForever) (.returned .success))] ++
  List.replicate (3 * greetingLine.length + 1) (.access sweepTask) ++
  [.kernel (.call sweepTask (.mutexRelease uartLock) .finished), .access sweepTask]

/-- The same start, and where `play` leads from it. -/
def simulate (play : Execution Peripherals Place → Execution Peripherals Place)
    (goal : Execution Peripherals Place → Bool) : Bool :=
  (setup mainSemaphores [2, 1, 0]).any fun system =>
    goal (play ⟨system, mainPeripherals, firstPlace⟩)

theorem simulate_run {play : Execution Peripherals Place → Execution Peripherals Place}
    {goal : Execution Peripherals Place → Bool} (reaches : ∀ s, radar.Reaches idleTask s (play s))
    (done : simulate play goal = true) : ∃ past s, RadarRun past s ∧ goal s = true := by
  obtain ⟨system, launch, played⟩ := (Option.any_eq_true _ _).mp done
  have wired := wired_main (started_of_setup (by decide) launch)
  obtain ⟨past, run⟩ := (reaches _).run wired
  exact ⟨past, _, run, played⟩

/-- The sweep has come home and sent its first angle, after 36 timeouts. Then the radar, which has
heard nothing so far, gets an echo of 580 microseconds. -/
def untilReport (s : Execution Peripherals Place) : Execution Peripherals Place :=
  let listening := radar.settle idleTask 20 (radar.rounds idleTask 36 200 s)
  let heard := radar.strike (.capture timSrCc2if 1580) (radar.strike (.capture timSrCc2if 1000) listening)
  radar.settle idleTask 200 heard

theorem untilReport_reaches (s : Execution Peripherals Place) :
    radar.Reaches idleTask s (untilReport s) := by
  have listening : radar.Reaches idleTask s _ :=
    (Firmware.rounds_reaches 36 200 s).trans (Firmware.settle_reaches 20 _)
  have rising := listening.trans (Firmware.strike_reaches (.capture timSrCc2if 1000) _)
  have falling := rising.trans (Firmware.strike_reaches (.capture timSrCc2if 1580) _)
  exact falling.trans (Firmware.settle_reaches 200 _)

end Sentinel
