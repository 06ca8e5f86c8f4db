import Mathlib.Logic.Function.Basic

/-! The I2C driver (`i2c.c`) and the peripheral it talks to. The peripheral answers as it
likes: what a status flag reads may depend on everything done so far and on how long the
driver has been polling. -/

namespace Sentinel.I2c

/-- `I2C_OK` and `I2C_ERROR`. -/
inductive Code
  | ok | error
  deriving DecidableEq, Repr

/-- The bits of `SR1` that the driver waits for, and `BUSY` of `SR2`. -/
inductive StatusFlag
  | sb | addr | txe | btf | rxne | busy
  deriving DecidableEq, Repr

inductive ControlBit
  | start | stop | ack
  deriving DecidableEq, Repr

/-- What the driver does to the registers. A call of `wait_flag` is one entry, however
often it polls. -/
inductive Access
  | wait (flag : StatusFlag) (set : Bool)
  | setCr1 (bit : ControlBit)
  | clearCr1 (bit : ControlBit)
  | writeDr (byte : UInt8)
  | readDr
  | clearAddr
  deriving DecidableEq, Repr

/-- What a call has done so far, latest first. -/
abbrev Log := List Access

/-- What the registers read: a flag in a given round of polling, and `DR`. -/
structure Peripheral where
  status : Log → Nat → StatusFlag → Bool
  data : Log → UInt32

/-- `I2C_TIMEOUT`. -/
def i2cTimeout : Nat := 100000

namespace Peripheral

/-- The loop of `wait_flag`, with `n` rounds to go. -/
def poll (p : Peripheral) (flag : StatusFlag) (set : Bool) (log : Log) : Nat → Nat → Bool
  | 0, _ => false
  | n + 1, i => if p.status log i flag = set then true else poll p flag set log n (i + 1)

def waitFlag (p : Peripheral) (flag : StatusFlag) (set : Bool) (log : Log) : Code × Log :=
  (if p.poll flag set log i2cTimeout 0 then .ok else .error, .wait flag set :: log)

/-- The flag comes within the rounds that the driver is willing to wait. -/
def Answers (p : Peripheral) (flag : StatusFlag) (set : Bool) (log : Log) : Prop :=
  ∃ i < i2cTimeout, p.status log i flag = set

end Peripheral

section
variable (p : Peripheral) (addr : UInt8)

/-- The byte that addresses the slave. -/
def addressByte (reading : Bool) : UInt8 := (addr <<< 1) ||| (if reading then 1 else 0)

def i2cStart (reading : Bool) (log : Log) : Code × Log :=
  match p.waitFlag .sb true (.setCr1 .start :: log) with
  | (.error, log) => (.error, log)
  | (.ok, log) =>
    match p.waitFlag .addr true (.writeDr (addressByte addr reading) :: log) with
    | (.error, log) => (.error, .setCr1 .stop :: log)
    | (.ok, log) => (.ok, .clearAddr :: log)

/-- The loop of `i2c_write`, from byte `i` on. -/
def i2cWriteLoop (data : Nat → UInt8) : Nat → Nat → Log → Code × Log
  | 0, _, log => (.ok, log)
  | n + 1, i, log =>
    match p.waitFlag .txe true log with
    | (.error, log) => (.error, log)
    | (.ok, log) => i2cWriteLoop data n (i + 1) (.writeDr (data i) :: log)

def i2cWrite (data : Nat → UInt8) (len : Nat) (log : Log) : Code × Log :=
  match p.waitFlag .busy false log with
  | (.error, log) => (.error, log)
  | (.ok, log) =>
    match i2cStart p addr false log with
    | (.error, log) => (.error, log)
    | (.ok, log) =>
      match i2cWriteLoop p data len 0 log with
      | (.error, log) => (.error, log)
      | (.ok, log) =>
        match p.waitFlag .btf true log with
        | (.error, log) => (.error, log)
        | (.ok, log) => (.ok, .setCr1 .stop :: log)

/-- What is done before the byte `i` is awaited: the last one is not acknowledged. -/
def beforeRead (len i : Nat) (log : Log) : Log :=
  if i + 1 = len then .setCr1 .stop :: .clearCr1 .ack :: log else log

/-- The loop of `i2c_read`, from byte `i` on. -/
def i2cReadLoop (len : Nat) : Nat → Nat → (Nat → UInt8) → Log → Code × (Nat → UInt8) × Log
  | 0, _, data, log => (.ok, data, log)
  | n + 1, i, data, log =>
    match p.waitFlag .rxne true (beforeRead len i log) with
    | (.error, log) => (.error, data, log)
    | (.ok, log) =>
      i2cReadLoop len n (i + 1) (Function.update data i (p.data log).toUInt8) (.readDr :: log)

def i2cRead (data : Nat → UInt8) (len : Nat) (log : Log) : Code × (Nat → UInt8) × Log :=
  if len = 0 then (.ok, data, log) else
    match p.waitFlag .busy false log with
    | (.error, log) => (.error, data, log)
    | (.ok, log) =>
      match i2cStart p addr true (.setCr1 .ack :: log) with
      | (.error, log) => (.error, data, log)
      | (.ok, log) => i2cReadLoop p len len 0 data log

def i2cReadReg (reg : UInt8) (data : Nat → UInt8) (len : Nat) (log : Log) :
    Code × (Nat → UInt8) × Log :=
  match p.waitFlag .busy false log with
  | (.error, log) => (.error, data, log)
  | (.ok, log) =>
    match i2cStart p addr false log with
    | (.error, log) => (.error, data, log)
    | (.ok, log) =>
      match p.waitFlag .txe true log with
      | (.error, log) => (.error, data, log)
      | (.ok, log) =>
        match p.waitFlag .btf true (.writeDr reg :: log) with
        | (.error, log) => (.error, data, log)
        | (.ok, log) => i2cRead p addr data len log

end

/-! ### What a wait does -/

section
variable {p : Peripheral} {flag : StatusFlag} {set : Bool} {log : Log}

theorem Peripheral.poll_iff (n i : Nat) : p.poll flag set log n i ↔
    ∃ j, i ≤ j ∧ j < i + n ∧ p.status log j flag = set := by
  induction n generalizing i with
  | zero =>
    simp only [poll, Bool.false_eq_true, Nat.add_zero, false_iff]
    rintro ⟨j, low, high, _⟩
    omega
  | succ n ih =>
    rw [poll]
    by_cases now : p.status log i flag = set
    · rw [if_pos now]
      exact iff_of_true rfl ⟨i, Nat.le_refl i, by omega, now⟩
    · rw [if_neg now, ih]
      constructor
      · rintro ⟨j, low, high, there⟩
        exact ⟨j, by omega, by omega, there⟩
      · rintro ⟨j, low, high, there⟩
        have other : j ≠ i := by
          rintro rfl
          exact now there
        exact ⟨j, by omega, by omega, there⟩

theorem Peripheral.waitFlag_ok (answers : p.Answers flag set log) :
    p.waitFlag flag set log = (.ok, .wait flag set :: log) := by
  obtain ⟨i, soon, there⟩ := answers
  have found : p.poll flag set log i2cTimeout 0 :=
    (poll_iff _ _).mpr ⟨i, Nat.zero_le i, by omega, there⟩
  rw [waitFlag, if_pos found]

theorem Peripheral.waitFlag_error (silent : ¬ p.Answers flag set log) :
    p.waitFlag flag set log = (.error, .wait flag set :: log) := by
  have none : ¬ p.poll flag set log i2cTimeout 0 := by
    intro found
    obtain ⟨i, _, soon, there⟩ := (poll_iff _ _).mp found
    exact silent ⟨i, by omega, there⟩
  rw [waitFlag, if_neg none]

end
end Sentinel.I2c
