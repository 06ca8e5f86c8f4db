import Sentinel.Lib.Run
import Sentinel.Lib.Words
import Sentinel.Kernel.Tasks

/-! The context switch (`os_kernel_asm.s`), instruction by instruction, between the entry and
the return of its exception. Threads run on PSP. Handlers run on the main stack. -/

namespace Sentinel

open Runs (Transition Run)

/-- The core registers that a task has. -/
structure Registers where
  r : Fin 13 → UInt32
  lr : UInt32
  pc : UInt32
  xpsr : UInt32
  psp : UInt32

/-- The addresses of `current_tcb` and of the control blocks, whose first field is `stackPtr`. -/
structure Layout where
  currentTcb : UInt32
  osTasks : TaskId → UInt32
  distinct : Function.Injective osTasks
  apart : ∀ t, osTasks t ≠ currentTcb

/-- The instructions that `os_kernel_asm.s` uses. -/
inductive Instruction
  | mrsPsp (rd : Fin 13)
  | msrPsp (rn : Fin 13)
  | stmdb (rn : Fin 13)
  | ldmia (rn : Fin 13)
  | ldrCurrentTcb (rd : Fin 13)
  | ldr (rt rn : Fin 13) (offset : UInt32)
  | str (rt rn : Fin 13)
  | adds (rd rn : Fin 13) (immediate : UInt32)
  | movs (rd : Fin 13) (immediate : UInt32)
  | msrControl (rn : Fin 13)
  | isb
  | cpsie
  | pushLr
  | popLr
  | blOsScheduler
  | bx (rn : Fin 13)
  | bxLr
  deriving DecidableEq, Repr

/-- `PendSV_Handler`. -/
def pendSvHandler : List Instruction :=
  [.mrsPsp 0, .stmdb 0, .ldrCurrentTcb 1, .ldr 1 1 0, .str 0 1, .pushLr, .blOsScheduler, .popLr,
    .ldrCurrentTcb 1, .ldr 1 1 0, .ldr 0 1 0, .ldmia 0, .msrPsp 0, .bxLr]

/-- `os_start_first_task`. -/
def osStartFirstTask : List Instruction :=
  [.ldrCurrentTcb 0, .ldr 1 0 0, .ldr 0 1 0, .ldr 1 0 56, .adds 0 0 64, .msrPsp 0, .movs 2 2,
    .msrControl 2, .isb, .cpsie, .bx 1]

/-- A task's code, a handler other than PendSV's, or the next instruction of PendSV's. -/
inductive Mode
  | thread
  | handler
  | pendSv (pc : Nat)
  deriving DecidableEq, Repr

structure Machine where
  kernel : Kernel
  registers : Registers
  control : UInt32
  /-- The main stack, top first. -/
  main : List UInt32
  mode : Mode

/-- `EXC_RETURN` of an exception that was taken from a thread on PSP. -/
def excReturn : UInt32 := 0xFFFFFFFD

namespace Registers

/-- What the hardware stacks: R0-R3, R12, LR, PC and xPSR, lowest address first. -/
def hardware (g : Registers) : List UInt32 :=
  [g.r 0, g.r 1, g.r 2, g.r 3, g.r 12, g.lr, g.pc, g.xpsr]

/-- R4-R11, lowest address first. -/
def software (g : Registers) : List UInt32 :=
  [g.r 4, g.r 5, g.r 6, g.r 7, g.r 8, g.r 9, g.r 10, g.r 11]

def set (g : Registers) (rd : Fin 13) (word : UInt32) : Registers :=
  { g with r := Function.update g.r rd word }

def loadHardware (g : Registers) (words : List UInt32) : Registers :=
  { g with
    r := fun i =>
      if i.val < 4 then words.getD i.val 0 else if i = 12 then words.getD 4 0 else g.r i
    lr := words.getD 5 0
    pc := words.getD 6 0
    xpsr := words.getD 7 0 }

def loadSoftware (g : Registers) (words : List UInt32) : Registers :=
  { g with r := fun i => if 4 ≤ i.val ∧ i.val < 12 then words.getD (i.val - 4) 0 else g.r i }

end Registers

namespace Layout

/-- The control block at an address. -/
def tcbAt (l : Layout) (a : UInt32) : Option TaskId :=
  (List.finRange maxTasks).find? fun t => l.osTasks t = a

/-- A word of memory. The kernel's variables are in memory too. -/
def load (l : Layout) (k : Kernel) (a : UInt32) : UInt32 :=
  if a = l.currentTcb then (k.currentTcb.map l.osTasks).getD 0
  else
    match l.tcbAt a with
    | some t => (k.osTasks t).stackPtr
    | none => k.memory a

def store (l : Layout) (k : Kernel) (a word : UInt32) : Kernel :=
  if a = l.currentTcb then { k with currentTcb := l.tcbAt word }
  else
    match l.tcbAt a with
    | some t => k.setTcb t { k.osTasks t with stackPtr := word }
    | none => { k with memory := Function.update k.memory a word }

end Layout

namespace Machine

/-- Exception entry from a thread: eight words go on its stack. -/
def stacked (s : Machine) (mode : Mode) : Machine :=
  { s with
    kernel := { s.kernel with
      memory := Words.store s.kernel.memory (s.registers.psp - 32) s.registers.hardware }
    registers := { s.registers with psp := s.registers.psp - 32, lr := excReturn }
    mode := mode }

/-- Exception return into a thread: the eight words come off the stack that PSP points at. -/
def unstacked (s : Machine) : Machine :=
  let words := Words.load s.kernel.memory s.registers.psp 8
  { s with
    registers := { s.registers.loadHardware words with psp := s.registers.psp + 32 }
    mode := .thread }

end Machine

/-- What an instruction does, but for the call of `os_scheduler`. -/
def Instruction.exec (l : Layout) (s : Machine) : Instruction → Option Machine
  | .mrsPsp rd => some { s with registers := s.registers.set rd s.registers.psp }
  | .msrPsp rn => some { s with registers := { s.registers with psp := s.registers.r rn } }
  | .stmdb rn =>
    let a := s.registers.r rn - 32
    some { s with
      kernel := { s.kernel with memory := Words.store s.kernel.memory a s.registers.software }
      registers := s.registers.set rn a }
  | .ldmia rn =>
    let a := s.registers.r rn
    some { s with
      registers := (s.registers.loadSoftware (Words.load s.kernel.memory a 8)).set rn (a + 32) }
  | .ldrCurrentTcb rd => some { s with registers := s.registers.set rd l.currentTcb }
  | .ldr rt rn offset =>
    some { s with registers := s.registers.set rt (l.load s.kernel (s.registers.r rn + offset)) }
  | .str rt rn =>
    some { s with kernel := l.store s.kernel (s.registers.r rn) (s.registers.r rt) }
  | .adds rd rn immediate =>
    some { s with registers := s.registers.set rd (s.registers.r rn + immediate) }
  | .movs rd immediate => some { s with registers := s.registers.set rd immediate }
  | .msrControl rn => some { s with control := s.registers.r rn }
  | .isb => some s
  | .cpsie => some { s with kernel := { s.kernel with primask := false } }
  | .pushLr => some { s with main := s.registers.lr :: s.main }
  | .popLr =>
    match s.main with
    | [] => none
    | word :: rest => some { s with main := rest, registers := { s.registers with lr := word } }
  | .blOsScheduler => none
  | .bx rn => some { s with registers := { s.registers with pc := s.registers.r rn } }
  | .bxLr => if s.registers.lr = excReturn then some s.unstacked else none

/-- A straight run through a routine. -/
def runThrough (l : Layout) : List Instruction → Machine → Option Machine
  | [], s => some s
  | i :: rest, s => (i.exec l s).bind (runThrough l rest)

namespace Kernel

structure SameStacks (k k' : Kernel) : Prop where
  taskCount : k'.taskCount = k.taskCount
  stackBase : ∀ t, (k'.osTasks t).stackBase = (k.osTasks t).stackBase
  stackSize : ∀ t, (k'.osTasks t).stackSize = (k.osTasks t).stackSize

structure KeepsContexts (k k' : Kernel) : Prop extends SameStacks k k' where
  stackPtr : ∀ t, (k'.osTasks t).stackPtr = (k.osTasks t).stackPtr

/-- What handlers and the kernel calls of a task can do to the kernel. -/
structure Handles (k k' : Kernel) : Prop extends KeepsContexts k k' where
  memory : k'.memory = k.memory
  currentTcb : k'.currentTcb = k.currentTcb

/-- The scheduler has chosen some task. -/
structure Schedules (k k' : Kernel) : Prop extends KeepsContexts k k' where
  memory : k'.memory = k.memory
  chosen : ∃ t, k'.currentTcb = some t ∧ k'.Live t

/-- The address is a word of the stack array of `t`. -/
def InStack (k : Kernel) (t : TaskId) (a : UInt32) : Prop :=
  ∃ i < (k.osTasks t).stackSize.toNat, a = Words.slot (k.osTasks t).stackBase i

instance (k : Kernel) (t : TaskId) (a : UInt32) : Decidable (k.InStack t a) :=
  inferInstanceAs (Decidable (∃ i < _, _))

end Kernel

/-- What an AAPCS call leaves alone of the registers, and that it runs on the main stack. -/
structure Registers.Callee (g g' : Registers) : Prop where
  software : g'.software = g.software
  psp : g'.psp = g.psp

inductive Moment
  | work
  | enter (mode : Mode)
  | handle
  | chain
  | leave
  | nested
  | execute (i : Instruction)
  | schedule
  deriving DecidableEq, Repr

inductive SwitchStep (l : Layout) : Machine → Moment → Machine → Prop
  /-- The running task writes in its own stack, and makes kernel calls. -/
  | work {s : Machine} {c : TaskId} {k : Kernel} (g : Registers) (thread : s.mode = .thread)
      (current : s.kernel.currentTcb = some c) (keeps : s.kernel.KeepsContexts k)
      (same : k.currentTcb = some c)
      (own : ∀ a, ¬ s.kernel.InStack c a → k.memory a = s.kernel.memory a) :
      SwitchStep l s .work { s with kernel := k, registers := g }
  /-- It is interrupted, with at least 16 free words above the canary. -/
  | enter {s : Machine} {c : TaskId} {n : Nat} {mode : Mode} (thread : s.mode = .thread)
      (current : s.kernel.currentTcb = some c)
      (pointer : s.registers.psp = Words.slot (s.kernel.osTasks c).stackBase n)
      (free : 17 ≤ n) (inside : n ≤ (s.kernel.osTasks c).stackSize.toNat)
      (exception : mode = .handler ∨ mode = .pendSv 0) :
      SwitchStep l s (.enter mode) (s.stacked mode)
  | handle {s : Machine} {k : Kernel} {g : Registers} (handler : s.mode = .handler)
      (handles : s.kernel.Handles k) (callee : s.registers.Callee g) :
      SwitchStep l s .handle { s with kernel := k, registers := g }
  /-- PendSV follows the other handler, and nothing is stacked in between. -/
  | chain {s : Machine} (handler : s.mode = .handler) :
      SwitchStep l s .chain
        { s with registers := { s.registers with lr := excReturn }, mode := .pendSv 0 }
  | leave {s : Machine} (handler : s.mode = .handler) : SwitchStep l s .leave s.unstacked
  /-- Another handler comes and goes between two instructions of PendSV's. -/
  | nested {s : Machine} {pc : Nat} {k : Kernel} (pendSv : s.mode = .pendSv pc)
      (handles : s.kernel.Handles k) :
      SwitchStep l s .nested { s with kernel := k }
  | execute {s t : Machine} {pc : Nat} {i : Instruction} (pendSv : s.mode = .pendSv pc)
      (fetched : pendSvHandler[pc]? = some i)
      (done : i.exec l { s with mode := .pendSv (pc + 1) } = some t) :
      SwitchStep l s (.execute i) t
  | schedule {s : Machine} {pc : Nat} {k : Kernel} {g : Registers} (pendSv : s.mode = .pendSv pc)
      (fetched : pendSvHandler[pc]? = some .blOsScheduler) (schedules : s.kernel.Schedules k)
      (callee : s.registers.Callee g) :
      SwitchStep l s .schedule { s with kernel := k, registers := g, mode := .pendSv (pc + 1) }

end Sentinel
