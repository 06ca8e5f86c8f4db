import Sentinel.Bench.PingPong
import Sentinel.Drivers.Setup
import Sentinel.Lib.Polling
import Sentinel.Startup.Launch

/-! The code that runs before the first task: the power-on self-test (`os_tests.c`), the benchmarks
that need no tasks (`microbench.c`), and `main`. -/

namespace Sentinel

open Polling (Poll)
open Polling.Poll (look update attempt hang repeatFor)

/-- What this code works on: the kernel with its queues, the registers, the bytes sent, the period
and the pulses of the servo, and how often the cycle counter has been read. -/
structure Boot where
  startup : Startup
  registers : Drivers.Registers
  sent : Uart.Sent
  pwmPeriodUs : UInt32
  pulses : List UInt32
  reads : Nat

/-- What the hardware shows: the status of `USART2` in a given round of polling, and the cycle
counter in each read. -/
structure World where
  sr : Uart.Sent → Nat → UInt32
  cyccnt : Nat → UInt32

/-- The local objects of the tests and benchmarks, and the queues by number. -/
def postMutex : Nat := 2
def postSemaphore : Nat := 5
def benchMutex : Nat := 4
def benchSemaphore : Nat := 8
def sweepRing : Nat := 0
def postRing : Nat := 1
def benchRing : Nat := 2

/-- What a receive that succeeds writes to its `uint32_t *`. -/
def Answer.message : Answer → Option UInt32
  | .queue (.received out) => some out
  | _ => none

namespace Boot

variable (w : World)

/-- `USART2`, as it is set up so far. -/
def usart (s : Boot) : Uart.Usart := ⟨s.registers .usart2Cr1, w.sr⟩

/-- `uart_print`. -/
def print (str : String) : Poll Boot Unit := fun rounds s =>
  ((s.usart w).uartPrint rounds (text str) s.sent).map fun sent => ((), { s with sent := sent })

/-- `uart_print_number`. -/
def printNumber (num : UInt32) : Poll Boot Unit := fun rounds s =>
  ((s.usart w).uartPrintNumber rounds num s.sent).map fun sent => ((), { s with sent := sent })

/-- A call to its return. -/
def perform (a : Action) : Poll Boot Answer :=
  attempt fun s => (s.startup.perform a).map fun out => (out.1, { s with startup := out.2 })

def call (c : Call) : Poll Boot Answer := perform (.kernel c)

def send (ring : Nat) (message : UInt32) : Poll Boot Answer :=
  perform (.queue ring (.send message 0))

def receive (ring : Nat) : Poll Boot Answer := perform (.queue ring (.receive 0))

def setUp (writes : Drivers.Writes) : Poll Boot Unit :=
  update fun s => { s with registers := BitFields.run writes s.registers }

/-! ### The self-test -/

/-- `fail`, which does not return. -/
def fail (why : String) : Poll Boot Unit := do
  print w "FAIL: "
  print w why
  print w "\r\n"
  hang

/-- `if (c) fail(why);` -/
def failIf (c : Prop) [Decidable c] (why : String) : Poll Boot Unit :=
  if c then fail w why else pure ()

def testMutexBasic : Poll Boot Unit := do
  let _ ← perform (.initMutex postMutex)
  print w "[POST] Mutex... "
  let out ← call (.mutexAcquire postMutex 0)
  failIf w (out ≠ .kernel (.returned .success)) "acquire rejected"
  let m ← look fun s => s.startup.kernel.mutexes postMutex
  failIf w (m.lock ≠ 1) "lock not set"
  let out ← call (.mutexAcquire postMutex 0)
  failIf w (out = .kernel (.returned .success)) "re-acquired a held mutex"
  let _ ← call (.mutexRelease postMutex)
  let m ← look fun s => s.startup.kernel.mutexes postMutex
  failIf w (m.lock ≠ 0 ∨ m.owner ≠ none) "lock not cleared"
  print w "PASS\r\n"

def testSemaphoreBasic : Poll Boot Unit := do
  let _ ← perform (.initSemaphore postSemaphore 2 2)
  print w "[POST] Semaphore... "
  let out ← call (.semaphoreAcquire postSemaphore 0)
  let x ← look fun s => s.startup.kernel.semaphores postSemaphore
  failIf w (out ≠ .kernel (.returned .success) ∨ x.count ≠ 1) "first take"
  let out ← call (.semaphoreAcquire postSemaphore 0)
  let x ← look fun s => s.startup.kernel.semaphores postSemaphore
  failIf w (out ≠ .kernel (.returned .success) ∨ x.count ≠ 0) "second take"
  let out ← call (.semaphoreAcquire postSemaphore 0)
  failIf w (out ≠ .kernel (.returned .timeout)) "empty take should time out"
  let _ ← call (.semaphoreRelease postSemaphore)
  let x ← look fun s => s.startup.kernel.semaphores postSemaphore
  failIf w (x.count ≠ 1) "give"
  let _ ← call (.semaphoreRelease postSemaphore)
  let _ ← call (.semaphoreRelease postSemaphore)
  let x ← look fun s => s.startup.kernel.semaphores postSemaphore
  failIf w (x.count ≠ 2) "count exceeded max"
  print w "PASS\r\n"

/-- `buffer` is what is on the stack where the array lies. -/
def testQueueBasic (buffer : Nat → UInt32) : Poll Boot Unit := do
  print w "[POST] Queue... "
  let _ ← perform (.initQueue postRing buffer 4)
  let _ ← send postRing 0xDEADBEEF
  let reply ← receive postRing
  failIf w (reply.message = none) "receive"
  failIf w (reply.message ≠ some 0xDEADBEEF) "data mismatch"
  repeatFor 4 fun i => do
    let _ ← send postRing (UInt32.ofNat (i + 1))
  repeatFor 4 fun i => do
    let reply ← receive postRing
    failIf w (reply.message = none ∨ reply.message ≠ some (UInt32.ofNat (i + 1))) "FIFO order"
  let reply ← receive postRing
  failIf w (reply ≠ .queue (.missed .timeout)) "empty receive should time out"
  repeatFor 6 fun i => do
    let _ ← send postRing (UInt32.ofNat (i + 1))
  let reply ← receive postRing
  failIf w (reply.message = none ∨ reply.message ≠ some 3) "overwrite policy"
  print w "PASS\r\n"

def osRunPost (buffer : Nat → UInt32) : Poll Boot Unit := do
  print w "\r\n--- STARTING KERNEL POST ---\r\n"
  testMutexBasic w
  testSemaphoreBasic w
  testQueueBasic w buffer
  print w "--- KERNEL READY ---\r\n\r\n"

/-! ### The benchmarks -/

/-- `DWT->CYCCNT`. -/
def cycles : Poll Boot UInt32 := fun _ s => some (w.cyccnt s.reads, { s with reads := s.reads + 1 })

/-- `microbench_init`. The registers that start the counter are left out. -/
def microbenchInit : Poll Boot Unit := do
  let _ ← perform (.initSemaphore Microbench.pingSem 0 1)
  let _ ← perform (.initSemaphore Microbench.pongSem 0 1)

/-- `measure_overhead_cycles`. Its loop is empty. -/
def measureOverheadCycles : Poll Boot UInt32 := do
  let start ← cycles w
  let stop ← cycles w
  pure ((stop - start) / Microbench.benchIterations)

def report (name : String) (cycles : UInt32) : Poll Boot Unit := do
  print w "[Bench] "
  print w name
  print w ": "
  printNumber w cycles
  print w " cycles ("
  printNumber w (cycles / Microbench.cyclesPerUs)
  print w "."
  printNumber w ((cycles % Microbench.cyclesPerUs * 10) / Microbench.cyclesPerUs)
  print w " us)\r\n"

/-- The body of a benchmark, timed and reported. -/
def bench (name : String) (body : Nat → Poll Boot Unit) : Poll Boot Unit := do
  let start ← cycles w
  repeatFor Microbench.benchIterations.toNat body
  let stop ← cycles w
  let overhead ← measureOverheadCycles w
  report w name ((stop - start) / Microbench.benchIterations - overhead)

def benchMutexOverhead : Poll Boot Unit := do
  let _ ← perform (.initMutex benchMutex)
  bench w "Mutex acquire+release (uncontested)" fun _ => do
    let _ ← call (.mutexAcquire benchMutex 0)
    let _ ← call (.mutexRelease benchMutex)

def benchSemaphoreOverhead : Poll Boot Unit := do
  let _ ← perform (.initSemaphore benchSemaphore 1 1)
  bench w "Semaphore take+give (uncontested)" fun _ => do
    let _ ← call (.semaphoreAcquire benchSemaphore 0)
    let _ ← call (.semaphoreRelease benchSemaphore)

def benchQueueRoundtrip (buffer : Nat → UInt32) : Poll Boot Unit := do
  let _ ← perform (.initQueue benchRing buffer 8)
  bench w "Queue send+receive (1 word)" fun i => do
    let _ ← send benchRing (UInt32.ofNat i)
    let _ ← receive benchRing

def benchSchedulerDecision : Poll Boot Unit :=
  bench w "Scheduler decision" fun _ => do
    let _ ← perform .schedule

def microbenchRunAll (buffer : Nat → UInt32) : Poll Boot Unit := do
  print w "\r\n--- SENTINEL MICROBENCH START ---\r\n"
  benchMutexOverhead w
  benchSemaphoreOverhead w
  benchQueueRoundtrip w buffer
  benchSchedulerDecision w
  print w "--- BENCHMARK COMPLETE ---\r\n\r\n"

end Boot

/-! ### `main` -/

/-- `STACK_SIZE`, in words. -/
def stackSize : UInt32 := 256

/-- A function of a task, and its stack. -/
structure Entry where
  taskptr : UInt32
  stack : UInt32

/-- What is built: with `SENTINEL_BENCH` the ping-pong takes the place of the radar. The arrays of
the local queues hold what is on the stack. -/
structure Image where
  sentinelBench : Bool
  radar : Entry
  sweep : Entry
  ping : Entry
  pong : Entry
  idle : Entry
  postBuffer : Nat → UInt32
  benchBuffer : Nat → UInt32

namespace Boot

def osKernelInit : Poll Boot Unit :=
  update fun s => { s with startup.kernel := s.startup.kernel.osKernelInit }

/-- `servo_init`, with the variable and the pulse that it leaves. -/
def servoInit : Poll Boot Unit :=
  update fun s => { s with
    registers := BitFields.run Drivers.servoInit s.registers
    pwmPeriodUs := servoPeriodUs
    pulses := servoCentre :: s.pulses }

def osTaskCreate (e : Entry) (priority : Nat) : Poll Boot Answer :=
  perform (.create e.taskptr e.stack stackSize priority)

def osKernelLaunch : Poll Boot Unit :=
  attempt fun s =>
    s.startup.kernel.osKernelLaunch.map fun k => ((), { s with startup.kernel := k })

/-- The synchronization primitives of `main`. -/
def initObjects : Poll Boot Unit := do
  let _ ← perform (.initQueue sweepRing (fun _ => 0) 8)
  let _ ← perform (.initSemaphore echoReady 0 1)
  let _ ← perform (.initMutex uartLock)

/-- The calls under `#ifdef SENTINEL_BENCH`. -/
def createTasks (image : Image) : Poll Boot Unit :=
  if image.sentinelBench then do
    let _ ← osTaskCreate image.ping 2
    let _ ← osTaskCreate image.pong 2
  else do
    let _ ← osTaskCreate image.radar 2
    let _ ← osTaskCreate image.sweep 1

/-- `main`, up to the first task. -/
def main (w : World) (image : Image) : Poll Boot Unit := do
  osKernelInit
  setUp Drivers.uartInit
  microbenchInit
  print w "--- SENTINEL RTOS BOOTING ---\r\n"
  osRunPost w image.postBuffer
  servoInit
  setUp Drivers.ultrasonicInit
  initObjects
  createTasks image
  let _ ← osTaskCreate image.idle 0
  microbenchRunAll w image.benchBuffer
  osKernelLaunch

end Boot
end Sentinel
