import Mathlib.Logic.Function.Basic

/-! The UART driver (`uart.c`): characters, strings and numbers, one byte at a time. How long
the transmitter stays busy may depend on everything sent so far. -/

namespace Sentinel.Uart

/-- `CR1_UE` and `SR_TXE`. -/
def cr1Ue : UInt32 := (1 : UInt32) <<< 13
def srTxe : UInt32 := (1 : UInt32) <<< 7

/-- What has been written to `DR`, latest first. -/
abbrev Sent := List UInt32

/-- What the registers of `USART2` read: `SR` in a given round of polling. -/
structure Usart where
  cr1 : UInt32
  sr : Sent → Nat → UInt32

namespace Usart

variable (p : Usart) (rounds : Nat)

/-- `CR1_UE` is set. -/
def Enabled : Prop := p.cr1 &&& cr1Ue ≠ 0

/-- The data register becomes empty, sooner or later. -/
def Transmits : Prop := ∀ sent, ∃ i, p.sr sent i &&& srTxe ≠ 0

instance : Decidable p.Enabled := inferInstanceAs (Decidable (_ ≠ _))

/-- The loop of `uart_write`, with `n` rounds to go: does it end within them? -/
def spin (sent : Sent) : Nat → Nat → Bool
  | 0, _ => false
  | n + 1, i => if p.sr sent i &&& srTxe = 0 then spin sent n (i + 1) else true

/-- `none` is a wait of more than the given number of rounds. -/
def uartWrite (ch : Int32) (sent : Sent) : Option Sent :=
  if p.spin sent rounds 0 then some ((ch &&& 0xFF).toUInt32 :: sent) else none

def ioPutchar (ch : Int32) (sent : Sent) : Option (Int32 × Sent) :=
  if p.cr1 &&& cr1Ue = 0 then some (-1, sent)
  else (p.uartWrite rounds ch sent).map fun sent => (ch, sent)

/-- `uart_print`, given the bytes before the terminating NUL. -/
def uartPrint : List UInt8 → Sent → Option Sent
  | [], sent => some sent
  | c :: str, sent => do
    let (_, sent) ← p.ioPutchar rounds c.toUInt32.toInt32 sent
    uartPrint str sent

/-- The first loop of `uart_print_number`. A byte of `buffer` is `none` until it is written;
a write outside of its ten bytes ends the program. -/
def digitLoop (num : UInt32) (i : Nat) (buffer : Nat → Option UInt8) :
    Option (Nat × (Nat → Option UInt8)) :=
  if num = 0 then some (i, buffer)
  else if i < 10 then
    digitLoop (num / 10) (i + 1) (Function.update buffer i (some (48 + num % 10).toUInt8))
  else none
termination_by num.toNat
decreasing_by
  rw [UInt32.toNat_div]
  have pos : num.toNat ≠ 0 := fun h => ‹num ≠ 0› (UInt32.toNat_inj.mp h)
  exact Nat.div_lt_self (Nat.pos_of_ne_zero pos) (by decide)

/-- The second loop. A read of a byte that has not been written ends the program. -/
def outputLoop (buffer : Nat → Option UInt8) : Nat → Sent → Option Sent
  | 0, sent => some sent
  | i + 1, sent => do
    let c ← buffer i
    let (_, sent) ← p.ioPutchar rounds c.toUInt32.toInt32 sent
    outputLoop buffer i sent

def uartPrintNumber (num : UInt32) (sent : Sent) : Option Sent :=
  if num = 0 then p.uartPrint rounds [48] sent
  else do
    let (i, buffer) ← digitLoop num 0 fun _ => none
    p.outputLoop rounds buffer i sent

end Usart

/-! ### What is sent -/

section
variable {p : Usart}

theorem Usart.spin_iff (sent : Sent) (n i : Nat) : p.spin sent n i ↔
    ∃ j, i ≤ j ∧ j < i + n ∧ p.sr sent j &&& srTxe ≠ 0 := by
  induction n generalizing i with
  | zero =>
    simp only [spin, Bool.false_eq_true, Nat.add_zero, false_iff]
    rintro ⟨j, low, high, _⟩
    omega
  | succ n ih =>
    rw [spin]
    by_cases busy : p.sr sent i &&& srTxe = 0
    · rw [if_pos busy, ih]
      constructor
      · rintro ⟨j, low, high, empty⟩
        exact ⟨j, by omega, by omega, empty⟩
      · rintro ⟨j, low, high, empty⟩
        have other : j ≠ i := by
          rintro rfl
          exact empty busy
        exact ⟨j, by omega, by omega, empty⟩
    · rw [if_neg busy]
      exact iff_of_true rfl ⟨i, Nat.le_refl i, by omega, busy⟩

theorem byte_of_char (c : UInt8) : (c.toUInt32.toInt32 &&& 0xFF).toUInt32 = c.toUInt32 := by
  have low : c.toNat &&& 255 = c.toNat := by
    rw [Nat.and_two_pow_sub_one_eq_mod c.toNat 8]
    exact Nat.mod_eq_of_lt c.toNat_lt
  have same : (c.toUInt32.toInt32 &&& 0xFF).toUInt32 = c.toUInt32 &&& 0xFF := rfl
  rw [same]
  apply UInt32.toNat_inj.mp
  simpa using low

/-- A character reaches the data register as it is. -/
theorem Usart.ioPutchar_exact {rounds : Nat} {c : UInt8} {sent : Sent} {out : Int32 × Sent}
    (enabled : p.Enabled) (done : p.ioPutchar rounds c.toUInt32.toInt32 sent = some out) :
    out = (c.toUInt32.toInt32, c.toUInt32 :: sent) := by
  rw [ioPutchar, if_neg enabled, uartWrite, byte_of_char] at done
  split at done
  · exact (Option.some.inj done).symm
  · cases done

theorem Usart.uartPrint_exact {rounds : Nat} {str : List UInt8} {sent sent' : Sent}
    (enabled : p.Enabled) (done : p.uartPrint rounds str sent = some sent') :
    sent' = (str.map UInt8.toUInt32).reverse ++ sent := by
  induction str generalizing sent with
  | nil => exact (Option.some.inj done).symm
  | cons c str ih =>
    obtain ⟨out, one, rest⟩ := Option.bind_eq_some_iff.mp done
    obtain rfl := ioPutchar_exact enabled one
    rw [ih rest]
    simp

/-- The character is sent as soon as there is room for it. -/
theorem Usart.ioPutchar_sends (enabled : p.Enabled) (transmits : p.Transmits) (c : UInt8)
    (sent : Sent) : ∃ enough, ∀ rounds, enough ≤ rounds →
      p.ioPutchar rounds c.toUInt32.toInt32 sent =
        some (c.toUInt32.toInt32, c.toUInt32 :: sent) := by
  obtain ⟨i, empty⟩ := transmits sent
  refine ⟨i + 1, ?_⟩
  intro rounds enough
  have done : p.spin sent rounds 0 := (spin_iff _ _ _).mpr ⟨i, Nat.zero_le i, by omega, empty⟩
  rw [ioPutchar, if_neg enabled, uartWrite, if_pos done, byte_of_char, Option.map_some]

theorem Usart.uartPrint_sends (enabled : p.Enabled) (transmits : p.Transmits) (str : List UInt8)
    (sent : Sent) : ∃ enough, ∀ rounds, enough ≤ rounds →
      p.uartPrint rounds str sent = some ((str.map UInt8.toUInt32).reverse ++ sent) := by
  induction str generalizing sent with
  | nil => exact ⟨0, fun _ _ => rfl⟩
  | cons c str ih =>
    obtain ⟨first, one⟩ := ioPutchar_sends enabled transmits c sent
    obtain ⟨others, rest⟩ := ih (c.toUInt32 :: sent)
    refine ⟨max first others, ?_⟩
    intro rounds enough
    have now := one rounds (by omega)
    have later := rest rounds (by omega)
    simp [uartPrint, now, later]

end
end Sentinel.Uart
