import Sentinel.I2c.Driver

/-! Who lets go of the bus. A slave that does not acknowledge its address is left with a
`STOP`; a flag that stays away at any other moment leaves the bus held. -/

namespace Sentinel.I2c

/-- The last `START`, if there is one, is followed by a `STOP`. -/
def Released : Log → Bool
  | [] => true
  | .setCr1 .stop :: _ => true
  | .setCr1 .start :: _ => false
  | _ :: log => Released log

theorem released_iff (log : Log) : Released log ↔
    ∀ later earlier, log = later ++ .setCr1 .start :: earlier →
      .setCr1 .start ∉ later → .setCr1 .stop ∈ later := by
  induction log with
  | nil => simp [Released]
  | cons x log ih =>
    have rest : (∀ later earlier, x :: log = later ++ .setCr1 .start :: earlier →
        .setCr1 .start ∉ later → .setCr1 .stop ∈ later) ↔ x ≠ .setCr1 .start ∧
          (x = .setCr1 .stop ∨ ∀ later earlier, log = later ++ .setCr1 .start :: earlier →
            .setCr1 .start ∉ later → .setCr1 .stop ∈ later) := by
      constructor
      · intro every
        have other : x ≠ .setCr1 .start := by
          rintro rfl
          exact absurd (every [] log rfl List.not_mem_nil) List.not_mem_nil
        refine ⟨other, or_iff_not_imp_left.mpr fun silent later earlier split unstarted => ?_⟩
        have stop := every (x :: later) earlier (congrArg (x :: ·) split)
          (List.not_mem_cons_of_ne_of_not_mem (Ne.symm other) unstarted)
        exact (List.mem_cons.mp stop).resolve_left (Ne.symm silent)
      · rintro ⟨other, stop⟩ later earlier split unstarted
        cases later with
        | nil => exact absurd (List.cons.inj split).1 other
        | cons y later =>
          obtain ⟨rfl, rest⟩ := List.cons.inj split
          rcases stop with rfl | every
          · exact List.mem_cons_self
          · exact List.mem_cons_of_mem _
              (every later earlier rest fun there => unstarted (List.mem_cons_of_mem _ there))
    rw [rest, ← ih]
    cases x with
    | setCr1 bit => cases bit <;> simp [Released]
    | wait | clearCr1 | writeDr | readDr | clearAddr => simp [Released]

/-- The log after the address has been sent, when `SB` came. -/
def addressed (addr : UInt8) (reading : Bool) (log : Log) : Log :=
  .writeDr (addressByte addr reading) :: .wait .sb true :: .setCr1 .start :: log

/-- The log after the slave has answered to its address. -/
def started (addr : UInt8) (reading : Bool) (log : Log) : Log :=
  .clearAddr :: .wait .addr true :: addressed addr reading log

/-- The log after `n` bytes, from byte `i` on, have been written. -/
def written (data : Nat → UInt8) : Nat → Nat → Log → Log
  | _, 0, log => log
  | i, n + 1, log => written data (i + 1) n (.writeDr (data i) :: .wait .txe true :: log)

/-- The log after `n` bytes, none of them the last, have been read. -/
def readOut : Nat → Log → Log
  | 0, log => log
  | n + 1, log => readOut n (.readDr :: .wait .rxne true :: log)

namespace Peripheral

variable (p : Peripheral)

/-- `SB` comes, and if the slave answers to its address too, then `next` holds. -/
def Starts (addr : UInt8) (reading : Bool) (log : Log) (next : Log → Prop) : Prop :=
  p.Answers .sb true (.setCr1 .start :: log) ∧
    (p.Answers .addr true (addressed addr reading log) → next (started addr reading log))

/-- If the bus is free, then the start goes as far as the address, and every flag that a
write waits for after an acknowledged address comes. -/
def WriteReleases (addr : UInt8) (data : Nat → UInt8) (len : Nat) : Prop :=
  p.Answers .busy false [] → p.Starts addr false [.wait .busy false] fun log =>
    (∀ n < len, p.Answers .txe true (written data 0 n log)) ∧
      p.Answers .btf true (written data 0 len log)

/-- All bytes but the last one come. `STOP` is requested before the last one is awaited. -/
def ReadOut (len : Nat) (log : Log) : Prop :=
  ∀ n, n + 1 < len → p.Answers .rxne true (readOut n log)

def ReadReleases (addr : UInt8) (len : Nat) : Prop :=
  len ≠ 0 → p.Answers .busy false [] →
    p.Starts addr true [.setCr1 .ack, .wait .busy false] (p.ReadOut len)

/-- There is something to read, and the bus, held by the first half of the call, reads
free before the second half. -/
def ReadRegReleases (addr reg : UInt8) (len : Nat) : Prop :=
  p.Answers .busy false [] → p.Starts addr false [.wait .busy false] fun log =>
    p.Answers .txe true log ∧ p.Answers .btf true (.writeDr reg :: .wait .txe true :: log) ∧
      len ≠ 0 ∧
      p.Answers .busy false (.wait .btf true :: .writeDr reg :: .wait .txe true :: log) ∧
      p.Starts addr true (.setCr1 .ack :: .wait .busy false :: .wait .btf true :: .writeDr reg ::
        .wait .txe true :: log) (p.ReadOut len)

end Peripheral

section
variable {p : Peripheral} {addr reg : UInt8} {reading : Bool} {log : Log} {data : Nat → UInt8}
  {len n i : Nat}

theorem released_written (data : Nat → UInt8) (i n : Nat) (log : Log) :
    Released (written data i n log) = Released log := by
  induction n generalizing i log with
  | zero => rfl
  | succ n ih =>
    rw [written, ih]
    rfl

/-- What a start leads to. -/
theorem i2cStart_cases (p : Peripheral) (addr : UInt8) (reading : Bool) (log : Log) :
    (¬ p.Answers .sb true (.setCr1 .start :: log) ∧
      i2cStart p addr reading log = (.error, .wait .sb true :: .setCr1 .start :: log)) ∨
    (p.Answers .sb true (.setCr1 .start :: log) ∧
      ¬ p.Answers .addr true (addressed addr reading log) ∧
      i2cStart p addr reading log =
        (.error, .setCr1 .stop :: .wait .addr true :: addressed addr reading log)) ∨
    (p.Answers .sb true (.setCr1 .start :: log) ∧
      p.Answers .addr true (addressed addr reading log) ∧
      i2cStart p addr reading log = (.ok, started addr reading log)) := by
  by_cases sb : p.Answers .sb true (.setCr1 .start :: log)
  · by_cases acknowledged : p.Answers .addr true (addressed addr reading log)
    · refine .inr (.inr ⟨sb, acknowledged, ?_⟩)
      unfold addressed at acknowledged
      simp only [i2cStart, Peripheral.waitFlag_ok sb, Peripheral.waitFlag_ok acknowledged]
      rfl
    · refine .inr (.inl ⟨sb, acknowledged, ?_⟩)
      unfold addressed at acknowledged
      simp only [i2cStart, Peripheral.waitFlag_ok sb, Peripheral.waitFlag_error acknowledged]
      rfl
  · refine .inl ⟨sb, ?_⟩
    simp only [i2cStart, Peripheral.waitFlag_error sb]

theorem i2cWriteLoop_cases (p : Peripheral) (data : Nat → UInt8) (n i : Nat) (log : Log) :
    ((∀ k < n, p.Answers .txe true (written data i k log)) ∧
      i2cWriteLoop p data n i log = (.ok, written data i n log)) ∨
    (¬ (∀ k < n, p.Answers .txe true (written data i k log)) ∧
      ∃ log', i2cWriteLoop p data n i log = (.error, log') ∧ Released log' = Released log) := by
  induction n generalizing i log with
  | zero => exact .inl ⟨fun k less => absurd less (Nat.not_lt_zero k), rfl⟩
  | succ n ih =>
    by_cases first : p.Answers .txe true log
    · have step : i2cWriteLoop p data (n + 1) i log = i2cWriteLoop p data n (i + 1)
          (.writeDr (data i) :: .wait .txe true :: log) := by
        simp only [i2cWriteLoop, Peripheral.waitFlag_ok first]
      have all : (∀ k < n + 1, p.Answers .txe true (written data i k log)) ↔
          ∀ k < n, p.Answers .txe true (written data (i + 1) k
            (.writeDr (data i) :: .wait .txe true :: log)) := by
        constructor
        · intro every k less
          exact every (k + 1) (Nat.succ_lt_succ less)
        · intro every k less
          cases k with
          | zero => exact first
          | succ k => exact every k (Nat.lt_of_succ_lt_succ less)
      rw [step, all]
      exact ih (i + 1) (.writeDr (data i) :: .wait .txe true :: log)
    · refine .inr ⟨fun every => first (every 0 (Nat.succ_pos n)), .wait .txe true :: log, ?_, rfl⟩
      simp only [i2cWriteLoop, Peripheral.waitFlag_error first]

/-- Once the last byte is awaited the bus is released, before that it is not. -/
theorem i2cReadLoop_released (held : Released log = false) (whole : len = i + n) (some : 0 < n) :
    Released (i2cReadLoop p len n i data log).2.2 ↔
      ∀ k, k + 1 < n → p.Answers .rxne true (readOut k log) := by
  induction n generalizing i log data with
  | zero => exact absurd some (Nat.lt_irrefl 0)
  | succ n ih =>
    by_cases last : n = 0
    · subst last
      have before : beforeRead len i log = .setCr1 .stop :: .clearCr1 .ack :: log := if_pos whole.symm
      have released : Released (i2cReadLoop p len 1 i data log).2.2 := by
        by_cases answers : p.Answers .rxne true (.setCr1 .stop :: .clearCr1 .ack :: log)
        · simp only [i2cReadLoop, before, Peripheral.waitFlag_ok answers]
          rfl
        · simp only [i2cReadLoop, before, Peripheral.waitFlag_error answers]
          rfl
      exact iff_of_true released fun k less => absurd less (by omega)
    · have before : beforeRead len i log = log := if_neg (by omega)
      by_cases first : p.Answers .rxne true log
      · have step : i2cReadLoop p len (n + 1) i data log = i2cReadLoop p len n (i + 1)
            (Function.update data i (p.data (.wait .rxne true :: log)).toUInt8)
            (.readDr :: .wait .rxne true :: log) := by
          simp only [i2cReadLoop, before, Peripheral.waitFlag_ok first]
        have held' : Released (.readDr :: .wait .rxne true :: log) = false := held
        rw [step, ih held' (by omega) (by omega)]
        constructor
        · intro every k less
          cases k with
          | zero => exact first
          | succ k => exact every k (by omega)
        · intro every k less
          exact every (k + 1) (by omega)
      · have stuck : ¬ Released (i2cReadLoop p len (n + 1) i data log).2.2 := by
          simp only [i2cReadLoop, before, Peripheral.waitFlag_error first]
          simpa [Released] using held
        exact iff_of_false stuck fun every => first (every 0 (by omega))

/-- A start that fails has released the bus if `SB` came. -/
theorem i2cStart_error {log' : Log} {next : Log → Prop}
    (fails : i2cStart p addr reading log = (.error, log')) :
    Released log' ↔ p.Starts addr reading log next := by
  rcases i2cStart_cases p addr reading log with
    ⟨silent, start⟩ | ⟨sb, nack, start⟩ | ⟨_, _, start⟩
  · obtain ⟨_, rfl⟩ := Prod.mk.inj (fails.symm.trans start)
    exact iff_of_false Bool.false_ne_true fun starts => silent starts.1
  · obtain ⟨_, rfl⟩ := Prod.mk.inj (fails.symm.trans start)
    exact iff_of_true rfl ⟨sb, fun acknowledged => absurd acknowledged nack⟩
  · cases fails.symm.trans start

theorem i2cStart_ok {log' : Log} (starts : i2cStart p addr reading log = (.ok, log')) :
    log' = started addr reading log ∧
      ∀ next, p.Starts addr reading log next ↔ next (started addr reading log) := by
  rcases i2cStart_cases p addr reading log with
    ⟨_, start⟩ | ⟨_, _, start⟩ | ⟨sb, acknowledged, start⟩
  · cases starts.symm.trans start
  · cases starts.symm.trans start
  · obtain ⟨_, rfl⟩ := Prod.mk.inj (starts.symm.trans start)
    exact ⟨rfl, fun next => ⟨fun goes => goes.2 acknowledged, fun rest => ⟨sb, fun _ => rest⟩⟩⟩

theorem i2cWrite_released : Released (i2cWrite p addr data len []).2 ↔
    p.WriteReleases addr data len := by
  by_cases idle : p.Answers .busy false []
  · have condition : p.WriteReleases addr data len ↔ p.Starts addr false [.wait .busy false] _ :=
      ⟨fun free => free idle, fun starts _ => starts⟩
    rw [condition]
    cases start : i2cStart p addr false [.wait .busy false] with
    | mk code log =>
      cases code with
      | error =>
        simp only [i2cWrite, Peripheral.waitFlag_ok idle, start]
        exact i2cStart_error start
      | ok =>
        obtain ⟨rfl, starts⟩ := i2cStart_ok start
        rw [starts]
        rcases i2cWriteLoop_cases p data len 0 (started addr false [.wait .busy false]) with
          ⟨every, loop⟩ | ⟨some, log', loop, held⟩
        · by_cases finished : p.Answers .btf true
              (written data 0 len (started addr false [.wait .busy false]))
          · simp only [i2cWrite, Peripheral.waitFlag_ok idle, start, loop,
              Peripheral.waitFlag_ok finished]
            exact iff_of_true rfl ⟨every, finished⟩
          · simp only [i2cWrite, Peripheral.waitFlag_ok idle, start, loop,
              Peripheral.waitFlag_error finished]
            have stuck : Released (.wait .btf true ::
                written data 0 len (started addr false [.wait .busy false])) = false :=
              released_written data 0 len _
            exact iff_of_false (ne_true_of_eq_false stuck) fun all => finished all.2
        · simp only [i2cWrite, Peripheral.waitFlag_ok idle, start, loop]
          exact iff_of_false (ne_true_of_eq_false held) fun all => some all.1
  · have busy : Released (i2cWrite p addr data len []).2 := by
      simp only [i2cWrite, Peripheral.waitFlag_error idle]
      rfl
    exact iff_of_true busy fun free => absurd free idle

/-- A read that is asked for something, from a log in which the bus is held or not. -/
theorem i2cRead_held (some : len ≠ 0) (idle : p.Answers .busy false log) :
    Released (i2cRead p addr data len log).2.2 ↔
      p.Starts addr true (.setCr1 .ack :: .wait .busy false :: log) (p.ReadOut len) := by
  cases start : i2cStart p addr true (.setCr1 .ack :: .wait .busy false :: log) with
  | mk code log' =>
    cases code with
    | error =>
      simp only [i2cRead, if_neg some, Peripheral.waitFlag_ok idle, start]
      exact i2cStart_error start
    | ok =>
      obtain ⟨rfl, starts⟩ := i2cStart_ok start
      rw [starts]
      simp only [i2cRead, if_neg some, Peripheral.waitFlag_ok idle, start]
      exact i2cReadLoop_released rfl (Nat.zero_add len).symm (Nat.pos_of_ne_zero some)

theorem i2cRead_released : Released (i2cRead p addr data len []).2.2 ↔
    p.ReadReleases addr len := by
  by_cases none : len = 0
  · have nothing : Released (i2cRead p addr data len []).2.2 := by
      simp only [i2cRead, if_pos none]
      rfl
    exact iff_of_true nothing fun some => absurd none some
  · by_cases idle : p.Answers .busy false []
    · rw [i2cRead_held none idle]
      exact ⟨fun starts _ _ => starts, fun releases => releases none idle⟩
    · have busy : Released (i2cRead p addr data len []).2.2 := by
        simp only [i2cRead, if_neg none, Peripheral.waitFlag_error idle]
        rfl
      exact iff_of_true busy fun _ free => absurd free idle

/-- A read that finds the bus held lets go of it only if it gets to its own `STOP`. -/
theorem i2cRead_nested (held : Released log = false) :
    Released (i2cRead p addr data len log).2.2 ↔ len ≠ 0 ∧ p.Answers .busy false log ∧
      p.Starts addr true (.setCr1 .ack :: .wait .busy false :: log) (p.ReadOut len) := by
  by_cases none : len = 0
  · have stuck : Released (i2cRead p addr data len log).2.2 = false := by
      simp only [i2cRead, if_pos none]
      exact held
    exact iff_of_false (ne_true_of_eq_false stuck) fun all => all.1 none
  · by_cases idle : p.Answers .busy false log
    · rw [i2cRead_held none idle]
      exact ⟨fun starts => ⟨none, idle, starts⟩, fun all => all.2.2⟩
    · have stuck : Released (i2cRead p addr data len log).2.2 = false := by
        simp only [i2cRead, if_neg none, Peripheral.waitFlag_error idle]
        exact held
      exact iff_of_false (ne_true_of_eq_false stuck) fun all => idle all.2.1

theorem i2cReadReg_released : Released (i2cReadReg p addr reg data len []).2.2 ↔
    p.ReadRegReleases addr reg len := by
  by_cases idle : p.Answers .busy false []
  · have condition : p.ReadRegReleases addr reg len ↔
        p.Starts addr false [.wait .busy false] _ :=
      ⟨fun free => free idle, fun starts _ => starts⟩
    rw [condition]
    cases start : i2cStart p addr false [.wait .busy false] with
    | mk code log =>
      cases code with
      | error =>
        simp only [i2cReadReg, Peripheral.waitFlag_ok idle, start]
        exact i2cStart_error start
      | ok =>
        obtain ⟨rfl, starts⟩ := i2cStart_ok start
        rw [starts]
        by_cases sent : p.Answers .txe true (started addr false [.wait .busy false])
        · by_cases finished : p.Answers .btf true
              (.writeDr reg :: .wait .txe true :: started addr false [.wait .busy false])
          · simp only [i2cReadReg, Peripheral.waitFlag_ok idle, start, Peripheral.waitFlag_ok sent,
              Peripheral.waitFlag_ok finished]
            rw [i2cRead_nested rfl]
            exact ⟨fun rest => ⟨sent, finished, rest⟩, fun all => all.2.2⟩
          · simp only [i2cReadReg, Peripheral.waitFlag_ok idle, start, Peripheral.waitFlag_ok sent,
              Peripheral.waitFlag_error finished]
            exact iff_of_false Bool.false_ne_true fun all => finished all.2.1
        · simp only [i2cReadReg, Peripheral.waitFlag_ok idle, start, Peripheral.waitFlag_error sent]
          exact iff_of_false Bool.false_ne_true fun all => sent all.1
  · have busy : Released (i2cReadReg p addr reg data len []).2.2 := by
      simp only [i2cReadReg, Peripheral.waitFlag_error idle]
      rfl
    exact iff_of_true busy fun free => absurd free idle

/-- **When the bus is released.** Exactly when nothing was started, or the slave did not
acknowledge, or every flag awaited before the `STOP` came. -/
theorem bus_released (p : Peripheral) (addr reg : UInt8) (data : Nat → UInt8) (len : Nat) :
    (Released (i2cWrite p addr data len []).2 ↔ p.WriteReleases addr data len) ∧
      (Released (i2cRead p addr data len []).2.2 ↔ p.ReadReleases addr len) ∧
      (Released (i2cReadReg p addr reg data len []).2.2 ↔ p.ReadRegReleases addr reg len) :=
  ⟨i2cWrite_released, i2cRead_released, i2cReadReg_released⟩

theorem i2cWrite_unstarted (idle : p.Answers .busy false [])
    (silent : ¬ p.Answers .sb true [.setCr1 .start, .wait .busy false]) :
    i2cWrite p addr data len [] =
      (.error, [.wait .sb true, .setCr1 .start, .wait .busy false]) := by
  simp only [i2cWrite, i2cStart, Peripheral.waitFlag_ok idle, Peripheral.waitFlag_error silent]

/-- The bus is idle, and no flag ever comes. -/
def deaf : Peripheral := ⟨fun _ _ _ => false, fun _ => 0⟩

/-- The wait for `SB` runs out, and the write returns with the bus held. -/
theorem write_leaves_start : (i2cWrite deaf 0x68 (fun _ => 0) 1 []).1 = .error ∧
    Released (i2cWrite deaf 0x68 (fun _ => 0) 1 []).2 = false := by
  have idle : deaf.Answers .busy false [] := ⟨0, by decide, rfl⟩
  have silent : ¬ deaf.Answers .sb true [.setCr1 .start, .wait .busy false] := by
    rintro ⟨_, _, comes⟩
    cases comes
  rw [i2cWrite_unstarted idle silent]
  exact ⟨rfl, rfl⟩

end
end Sentinel.I2c
