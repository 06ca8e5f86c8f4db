import Sentinel.Lib.Run
import Sentinel.Lib.Cells
import Sentinel.Lib.Cyclic
import Sentinel.Lib.Ring
import Sentinel.Lib.Words
import Sentinel.Lib.Program
import Sentinel.Kernel.Boot
import Sentinel.Kernel.WaitQueues
import Sentinel.Kernel.Effects
import Sentinel.Kernel.Deadlines
import Sentinel.Kernel.Grants
import Sentinel.Kernel.Returns
import Sentinel.Scheduler.Rotation
import Sentinel.Scheduler.Priority
import Sentinel.Scheduler.Decision
import Sentinel.Scheduler.RoundRobin
import Sentinel.Switch.Machine
import Sentinel.Switch.Frames
import Sentinel.Switch.Contexts
import Sentinel.Switch.Preservation
import Sentinel.Switch.Calls
import Sentinel.Mutex.Exclusion
import Sentinel.Mutex.Inheritance
import Sentinel.Mutex.Donation
import Sentinel.Mutex.Chain
import Sentinel.Semaphore.Tokens
import Sentinel.Interrupt.Tokens
import Sentinel.Interrupt.System
import Sentinel.Queue.Lock
import Sentinel.Queue.Slots
import Sentinel.Queue.Ring
import Sentinel.Queue.Delivery
import Sentinel.Queue.Overwrite
import Sentinel.Queue.Accounting
import Sentinel.Queue.Sequential
import Sentinel.Servo.Driver
import Sentinel.Tasks.Firmware
import Sentinel.Tasks.Regions
import Sentinel.Tasks.Program
import Sentinel.Tasks.Start
import Sentinel.Tasks.Locks
import Sentinel.Tasks.Sweep
import Sentinel.Tasks.Lines
import Sentinel.Tasks.Traffic
import Sentinel.Tasks.Reports
import Sentinel.Tasks.Pacing
import Sentinel.Tasks.Permits
import Sentinel.Bench.PingPong
import Sentinel.Startup.Calls
import Sentinel.Startup.Quiet
import Sentinel.Ultrasonic.Driver
import Sentinel.Ultrasonic.Pulses
import Sentinel.Ultrasonic.Distance
import Sentinel.Uart.Driver
import Sentinel.Uart.Number
import Sentinel.Critical.Masking
import Sentinel.Critical.Refine
import Sentinel.Critical.Atomic
import Sentinel.Critical.Interleaving
import Sentinel.I2c.Driver
import Sentinel.I2c.Release
import Sentinel.I2c.RepeatedStart
import Sentinel.Drivers.Gpio
import Sentinel.Drivers.Setup
import Sentinel.Lib.Polling
import Sentinel.Startup.Boot
import Sentinel.Startup.Main
import Sentinel.Startup.Device
