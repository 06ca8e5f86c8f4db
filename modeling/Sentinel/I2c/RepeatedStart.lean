import Sentinel.I2c.Release

/-! Reading a register. The second half of the call is a read made for an idle bus, and
waits for the bus that the first half holds. -/

namespace Sentinel.I2c

/-- A bus without faults and a slave that answers with the bytes `b`. `BUSY` reads set from
a `START` to the next `STOP`, every other flag comes in time. -/
structure Healthy (p : Peripheral) (b : Nat → UInt8) : Prop where
  busy : ∀ log i, p.status log i .busy = !Released log
  flags : ∀ log flag, flag ≠ .busy → p.Answers flag true log
  bytes : ∀ log, (p.data log).toUInt8 = b (log.count .readDr)

/-- The starts and the bytes sent, oldest first. -/
def sent (log : Log) : List Access :=
  log.reverse.filter fun
    | .setCr1 .start | .writeDr _ => true
    | _ => false

/-- `ACK`, as the driver left it. -/
def acknowledges : Log → Bool
  | [] => false
  | .setCr1 .ack :: _ => true
  | .clearCr1 .ack :: _ => false
  | _ :: log => acknowledges log

/-- A register has been read as it should be. -/
structure ReadsRegister (b : Nat → UInt8) (addr reg : UInt8) (len : Nat)
    (out : Code × (Nat → UInt8) × Log) : Prop where
  code : out.1 = .ok
  sent : sent out.2.2 = [.setCr1 .start, .writeDr (addressByte addr false), .writeDr reg,
    .setCr1 .start, .writeDr (addressByte addr true)]
  data : ∀ i < len, out.2.1 i = b i
  unacknowledged : acknowledges out.2.2 = false
  stop : out.2.2.count (.setCr1 .stop) = 1
  order : ∃ later earlier, out.2.2 = later ++ .readDr :: earlier ∧ .readDr ∉ later ∧
    .setCr1 .stop ∈ earlier

section
variable {p : Peripheral} {b : Nat → UInt8} {addr reg : UInt8} {data : Nat → UInt8} {len : Nat}

/-- On a healthy bus the second half of the call finds the bus busy for as long as it looks. -/
theorem i2cReadReg_healthy (healthy : Healthy p b) (some : len ≠ 0) :
    i2cReadReg p addr reg data len [] = (.error, data,
      .wait .busy false :: .wait .btf true :: .writeDr reg :: .wait .txe true ::
        started addr false [.wait .busy false]) := by
  have idle : p.Answers .busy false [] := ⟨0, by decide, healthy.busy [] 0⟩
  have flags := fun log flag other => Peripheral.waitFlag_ok (healthy.flags log flag other)
  have held : ¬ p.Answers .busy false (.wait .btf true :: .writeDr reg :: .wait .txe true ::
      started addr false [.wait .busy false]) := by
    rintro ⟨i, _, free⟩
    cases (healthy.busy _ i).symm.trans free
  have start : i2cStart p addr false [.wait .busy false] =
      (.ok, started addr false [.wait .busy false]) := by
    simp only [i2cStart, flags _ .sb (by decide), flags _ .addr (by decide)]
    rfl
  simp only [i2cReadReg, Peripheral.waitFlag_ok idle, start, flags _ .txe (by decide),
    flags _ .btf (by decide), i2cRead, if_neg some, Peripheral.waitFlag_error held]

/-- **A register is never read.** -/
theorem readReg_never (healthy : Healthy p b) (some : 1 ≤ len) :
    ¬ ReadsRegister b addr reg len (i2cReadReg p addr reg data len []) := by
  rw [i2cReadReg_healthy healthy (Nat.ne_of_gt some)]
  intro reads
  cases reads.code

/-- A healthy bus with a slave that answers with zeros. -/
def sane : Peripheral := ⟨fun log _ flag => if flag = .busy then !Released log else true, fun _ => 0⟩

theorem sane_healthy : Healthy sane fun _ => 0 := by
  refine ⟨fun _ _ => rfl, ?_, fun _ => rfl⟩
  intro log flag other
  exact ⟨0, by decide, if_neg other⟩

theorem readReg_never_sane :
    Healthy sane (fun _ => 0) ∧ ¬ ReadsRegister (fun _ => 0) 0x68 0x75 1
      (i2cReadReg sane 0x68 0x75 (fun _ => 0) 1 []) :=
  ⟨sane_healthy, readReg_never sane_healthy (Nat.le_refl 1)⟩

/-- The call returns an error after it has sent the register number, and the bus stays held. -/
theorem readReg_finds_busy : (i2cReadReg sane 0x68 0x75 (fun _ => 0) 1 []).1 = .error ∧
    sent (i2cReadReg sane 0x68 0x75 (fun _ => 0) 1 []).2.2 =
      [.setCr1 .start, .writeDr 0xD0, .writeDr 0x75] ∧
    ¬ ReadsRegister (fun _ => 0) 0x68 0x75 1 (i2cReadReg sane 0x68 0x75 (fun _ => 0) 1 []) := by
  rw [i2cReadReg_healthy sane_healthy (by decide)]
  refine ⟨rfl, by decide, ?_⟩
  intro reads
  cases reads.code

end
end Sentinel.I2c
