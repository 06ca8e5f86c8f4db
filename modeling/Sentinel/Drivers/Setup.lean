import Mathlib.Data.List.Pairwise
import Sentinel.Drivers.Gpio
import Sentinel.Servo.Driver
import Sentinel.Uart.Driver

/-! How the drivers set up their peripherals. They share the clock registers and the ports, and
none of them undoes what another has set. -/

namespace Sentinel.Drivers

open BitFields (Setting Write Agree Met up field Fits)

/-! ### The functions -/

/-- `compute_uart_baud`. -/
def computeUartBaud (periphClk baudRate : UInt32) : UInt16 :=
  ((periphClk + baudRate / 2) / baudRate).toUInt16

/-- `uart_init`. -/
def uartInit : Writes :=
  [orIn .ahb1enr (up 1 0),
    andNot (.moder .a) (up 1 4), orIn (.moder .a) (up 1 5),
    orIn (.afr .a false) (up 1 8), orIn (.afr .a false) (up 1 9), orIn (.afr .a false) (up 1 10),
    andNot (.afr .a false) (up 1 11),
    orIn .apb1enr (up 1 17),
    assign .usart2Brr (computeUartBaud 16000000 115200).toUInt32,
    orIn .usart2Cr1 Uart.cr1Ue, orIn .usart2Cr1 (up 1 3)]

/-- `pwm_init`. The write to `EGR` takes over `PSC` and `ARR`. -/
def pwmInit (periodUs : UInt32) : Writes :=
  [orIn .apb1enr (up 1 1)] ++ gpioConfig .a 6 .af 2 .nopull ++
  [assign (.timer .tim3 .psc) (16000000 / 1000000 - 1),
    assign (.timer .tim3 .arr) (periodUs - 1),
    andNot (.timer .tim3 .ccmr1) (up 0x7 4),
    orIn (.timer .tim3 .ccmr1) (up 1 6 ||| up 1 5 ||| up 1 3),
    orIn (.timer .tim3 .cr1) (up 1 7),
    orIn (.timer .tim3 .ccer) (up 1 0),
    orIn (.timer .tim3 .cr1) (up 1 0)]

/-- `servo_init`. -/
def servoInit : Writes := pwmInit servoPeriodUs ++ [assign (.timer .tim3 .ccr1) servoCentre]

/-- `ultrasonic_init`, with `TRIG_PIN` and `ECHO_PIN`. -/
def ultrasonicInit : Writes :=
  [orIn .apb1enr (up 1 0)] ++ gpioConfig .a 0 .output 0 .nopull ++ gpioConfig .a 1 .af 1 .nopull ++
  [assign (.timer .tim2 .psc) 15,
    assign (.timer .tim2 .arr) 0xFFFFFFFF,
    andNot (.timer .tim2 .ccmr1) (up 0x3 8), orIn (.timer .tim2 .ccmr1) (up 1 8),
    orIn (.timer .tim2 .ccer) (up 1 5 ||| up 1 7), orIn (.timer .tim2 .ccer) (up 1 4),
    orIn (.timer .tim2 .dier) (up 1 2),
    assign .tim2Priority 5, assign .tim2Enable 1,
    orIn (.timer .tim2 .cr1) (up 1 0)]

/-- `adc_init`. -/
def adcInit : Writes :=
  [orIn .apb2enr (up 1 8),
    assign .adcCcr 0, assign .adc1Cr1 0, assign .adc1Cr2 0, assign .adc1Sqr1 0,
    orIn .adc1Cr2 (up 1 0)]

/-- `adc_config_channel`, for the channels that there are. -/
def adcConfigChannel (channel : Fin 19) : Writes :=
  (if low : channel.val < 8 then gpioConfig .a ⟨channel, by omega⟩ .analog 0 .nopull else []) ++
  if channel.val < 10 then
    [andNot .adc1Smpr2 (up 0x7 (channel * 3)), orIn .adc1Smpr2 (up 0x4 (channel * 3))]
  else
    [andNot .adc1Smpr1 (up 0x7 ((channel - 10) * 3)), orIn .adc1Smpr1 (up 0x4 ((channel - 10) * 3))]

/-- `spi_cs_deselect`. -/
def spiCsDeselect : Writes := gpioWrite .b 6 true

/-- The first half of `spi_init`. -/
def spiPins : Writes :=
  [orIn .apb2enr (up 1 12)] ++
  gpioConfig .b 3 .af 5 .nopull ++ gpioConfig .b 4 .af 5 .nopull ++ gpioConfig .b 5 .af 5 .nopull ++
  gpioConfig .b 6 .output 0 .nopull ++ spiCsDeselect

/-- The second half. -/
def spiControl (baudDiv mode : UInt8) : Writes :=
  [assign .spi1Cr1 0, orIn .spi1Cr1 (up (baudDiv &&& 0x7).toUInt32 3)] ++
  (if mode &&& 0x1 ≠ 0 then [orIn .spi1Cr1 (up 1 0)] else []) ++
  (if mode &&& 0x2 ≠ 0 then [orIn .spi1Cr1 (up 1 1)] else []) ++
  [orIn .spi1Cr1 (up 1 2 ||| up 1 9 ||| up 1 8), orIn .spi1Cr1 (up 1 6)]

def spiInit (baudDiv mode : UInt8) : Writes := spiPins ++ spiControl baudDiv mode

/-- `i2c_init`. -/
def i2cInit : Writes :=
  [orIn .apb1enr (up 1 21)] ++
  gpioConfig .b 8 .af 4 .pullup ++ gpioConfig .b 9 .af 4 .pullup ++
  gpioSetOpenDrain .b 8 ++ gpioSetOpenDrain .b 9 ++
  [assign .i2c1Cr1 (up 1 15), assign .i2c1Cr1 0,
    assign .i2c1Cr2 16,
    assign .i2c1Ccr (16 * 1000000 / (2 * 100000)),
    assign .i2c1Trise (16 + 1),
    orIn .i2c1Cr1 (up 1 0)]

/-! ### Setting up -/

inductive Setup
  | uart | servo | ultrasonic | adc | i2c
  | pwm (periodUs : UInt32)
  | adcChannel (channel : Fin 19)
  | spi (baudDiv mode : UInt8)
  deriving DecidableEq

def Setup.writes : Setup → Writes
  | .uart => uartInit
  | .servo => servoInit
  | .ultrasonic => ultrasonicInit
  | .adc => adcInit
  | .i2c => i2cInit
  | .pwm periodUs => pwmInit periodUs
  | .adcChannel channel => adcConfigChannel channel
  | .spi baudDiv mode => spiInit baudDiv mode

/-- Calls of these functions, one after the other. -/
def setUp (calls : List Setup) : Registers → Registers := BitFields.run (calls.flatMap Setup.writes)

/-- The pins of port A that the radar is wired to, as channels of the ADC. -/
def wiredPins : List (Fin 19) := [0, 1, 2, 6]

/-- The call leaves the pins of the radar alone. -/
def Setup.spares : Setup → Bool
  | .adcChannel channel => channel ∉ wiredPins
  | _ => true

/-- The period that the call gives to `TIM3`. -/
def Setup.period : Setup → Option UInt32
  | .servo => some servoPeriodUs
  | .pwm periodUs => some periodUs
  | _ => none

/-- The clock divider and the mode that the call gives to `SPI1`. -/
def Setup.spiMode : Setup → Option (UInt8 × UInt8)
  | .spi baudDiv mode => some (baudDiv, mode)
  | _ => none

/-- The parameters of the calls are the same where they are for the same peripheral. -/
structure Setup.Matches (s t : Setup) : Prop where
  period : s.period = none ∨ t.period = none ∨ s.period = t.period
  spiMode : s.spiMode = none ∨ t.spiMode = none ∨ s.spiMode = t.spiMode

instance (s t : Setup) : Decidable (s.Matches t) :=
  decidable_of_iff ((s.period = none ∨ t.period = none ∨ s.period = t.period) ∧
    (s.spiMode = none ∨ t.spiMode = none ∨ s.spiMode = t.spiMode))
    ⟨fun same => ⟨same.1, same.2⟩, fun same => ⟨same.period, same.spiMode⟩⟩

/-- The pins of a driver: what they are set to, and to which function. -/
def Setup.pins : Setup → List (GpioPort × Fin 16 × GpioMode × UInt8)
  | .uart => [(.a, 2, .af, 7)]
  | .servo | .pwm _ => [(.a, 6, .af, 2)]
  | .ultrasonic => [(.a, 0, .output, 0), (.a, 1, .af, 1)]
  | .adc => []
  | .i2c => [(.b, 8, .af, 4), (.b, 9, .af, 4)]
  | .adcChannel channel =>
    if low : channel.val < 8 then [(.a, ⟨channel, by omega⟩, .analog, 0)] else []
  | .spi _ _ => [(.b, 3, .af, 5), (.b, 4, .af, 5), (.b, 5, .af, 5), (.b, 6, .output, 0)]

def Registers.shows (m : Registers) (x : GpioPort × Fin 16 × GpioMode × UInt8) : Prop :=
  (m.pin x.1 x.2.1).mode = x.2.2.1.code ∧
    (x.2.2.1 = .af → (m.pin x.1 x.2.1).af = x.2.2.2.toUInt32)

/-! ### The drivers agree -/

/-- The calls with their parameters settled: `TIM3` has the period of the servo, and what
`spi_init` does with its parameters is left out. -/
def Setup.body : Setup → Writes
  | .spi _ _ => spiPins
  | .pwm _ => pwmInit servoPeriodUs
  | s => s.writes

def bodies : List Writes :=
  [uartInit, servoInit, ultrasonicInit, adcInit, i2cInit, spiPins, pwmInit servoPeriodUs] ++
  ((List.finRange 19).filter (· ∉ wiredPins)).map adcConfigChannel

theorem bodies_agree : bodies.Pairwise Agree := by
  decide +kernel

theorem bodies_outside : ∀ p ∈ bodies, ∀ w ∈ p, w.register ≠ .spi1Cr1 := by
  decide +kernel

section
variable {s t : Setup} {m : Registers} {r : Register}

theorem Setup.body_mem (spares : s.spares) : s.body ∈ bodies := by
  cases s with
  | adcChannel channel =>
    have outside : channel ∉ wiredPins := of_decide_eq_true spares
    refine List.mem_append_right _ (List.mem_map.mpr ⟨channel, ?_, rfl⟩)
    simpa [List.mem_filter] using outside
  | _ => simp [body, writes, bodies]

theorem spiControl_registers {baudDiv mode : UInt8} :
    ∀ w ∈ spiControl baudDiv mode, w.register = .spi1Cr1 := by
  intro w there
  unfold spiControl at there
  split_ifs at there <;> simp [assign, orIn] at there <;> grind

theorem spiPins_registers : ∀ w ∈ spiPins, w.register ≠ .timer .tim3 .arr := by
  decide +kernel

/-- The period is in one register. -/
theorem pwmInit_net (other : r ≠ .timer .tim3 .arr) (p q : UInt32) :
    BitFields.net (pwmInit p) r = BitFields.net (pwmInit q) r := by
  have skip : ∀ front psc back period,
      BitFields.net (front ++ ([psc, assign (.timer .tim3 .arr) period] ++ back)) r =
        BitFields.net (front ++ (psc :: back)) r := by
    intro front psc back period
    have parts := BitFields.net_skip (p := front ++ [psc]) (q := back)
      (w := assign (.timer .tim3 .arr) period) (Ne.symm other)
    simpa only [List.append_assoc, List.cons_append, List.nil_append] using parts
  exact (skip _ _ _ _).trans (skip _ _ _ _).symm

/-- The register of the period. -/
theorem Setup.net_period (s : Setup) : BitFields.net s.writes (.timer .tim3 .arr) =
    s.period.elim .none fun p => .assign (p - 1) := by
  cases s with
  | servo | pwm =>
    simp [writes, period, servoInit, pwmInit, gpioConfig, gpioClockEnable, BitFields.net, orIn,
      andNot, assign]
  | adcChannel channel =>
    apply BitFields.net_elsewhere
    revert channel
    decide +kernel
  | spi baudDiv mode =>
    apply BitFields.net_elsewhere
    intro w there
    rcases List.mem_append.mp there with pins | control
    · exact spiPins_registers w pins
    · simp [spiControl_registers w control]
  | uart | ultrasonic | adc | i2c =>
    apply BitFields.net_elsewhere
    decide +kernel

theorem Setup.net_body (control : s.spiMode = none ∨ r ≠ .spi1Cr1) (other : r ≠ .timer .tim3 .arr) :
    BitFields.net s.writes r = BitFields.net s.body r := by
  cases s with
  | spi baudDiv mode =>
    apply BitFields.net_append_left
    intro w there same
    rcases control with none | control
    · cases none
    · exact control (same.symm.trans (spiControl_registers w there))
  | pwm periodUs => exact pwmInit_net other _ _
  | _ => rfl

theorem Setup.agree (first : s.spares) (second : t.spares) (same : s.Matches t) :
    Agree s.writes t.writes := by
  have outside : ∀ {s : Setup}, s.spares → s.spiMode = none →
      BitFields.net s.writes .spi1Cr1 = .none := by
    intro s spares plain
    rw [net_body (.inl plain) (by simp)]
    exact BitFields.net_elsewhere (bodies_outside _ (body_mem spares))
  have of_mode : ∀ {s : Setup} {x}, s.spiMode = some x → s.writes = spiInit x.1 x.2 := by
    intro s x mode
    cases s <;> cases mode
    rfl
  intro r
  by_cases period : r = .timer .tim3 .arr
  · subst period
    rw [net_period, net_period]
    rcases same.period with none | none | same
    · rw [none]
      exact Setting.none_agree _
    · rw [none]
      exact (Setting.none_agree _).symm
    · rw [same]
      exact .refl _
  · by_cases control : r = .spi1Cr1
    · subst control
      rcases same.spiMode with none | none | same
      · rw [outside first none]
        exact Setting.none_agree _
      · rw [outside second none]
        exact (Setting.none_agree _).symm
      · cases mode : s.spiMode with
        | none =>
          rw [outside first mode]
          exact Setting.none_agree _
        | some x =>
          rw [of_mode mode, of_mode (same.symm.trans mode)]
          exact .refl _
    · rw [net_body (.inr control) period, net_body (.inr control) period]
      exact bodies_agree.forall_of_forall (fun p _ => Agree.refl p) (body_mem first)
        (body_mem second) r

/-- The registers of a pin that a driver sets. -/
theorem Setup.pins_covered (s : Setup) : ∀ x ∈ s.pins,
    (up 0x3 (x.2.1 * 2) &&& ~~~(BitFields.net s.body (.moder x.1)).mask = 0 ∧
      field (BitFields.net s.body (.moder x.1)).value 0x3 (x.2.1 * 2) = x.2.2.1.code) ∧
    (x.2.2.1 = .af →
      up 0xF ((x.2.1 &&& 0x7) * 4) &&&
        ~~~(BitFields.net s.body (.afr x.1 (x.2.1.val >>> 3 = 1))).mask = 0 ∧
      field (BitFields.net s.body (.afr x.1 (x.2.1.val >>> 3 = 1))).value 0xF ((x.2.1 &&& 0x7) * 4) =
        x.2.2.2.toUInt32) := by
  rw [← List.forall_iff_forall_mem]
  cases s with
  | adcChannel channel =>
    revert channel
    decide +kernel
  | spi baudDiv mode =>
    change [(GpioPort.b, (3 : Fin 16), GpioMode.af, (5 : UInt8)), (.b, 4, .af, 5),
      (.b, 5, .af, 5), (.b, 6, .output, 0)].Forall _
    dsimp only [body]
    decide +kernel
  | pwm periodUs =>
    change [(GpioPort.a, (6 : Fin 16), GpioMode.af, (2 : UInt8))].Forall _
    dsimp only [body]
    decide +kernel
  | _ => decide +kernel

/-- A driver that is set up has its pins. -/
theorem Setup.shows (met : Met s.writes m) : ∀ x ∈ s.pins, m.shows x := by
  intro x there
  obtain ⟨⟨covers, mode⟩, alternate⟩ := s.pins_covered x there
  constructor
  · rw [← net_body (.inr (by simp)) (by simp)] at covers mode
    exact (met.field (two_fits _) covers).trans mode
  · intro af
    obtain ⟨covers, function⟩ := alternate af
    rw [← net_body (.inr (by simp)) (by simp)] at covers function
    exact (met.field (four_fits _) covers).trans function

/-- **The drivers leave each other alone.** The functions that set up the peripherals can be called
in any order, and more than once. Afterwards every driver has its pins, and every bit that it sets
is as it sets it, as long as no channel of the ADC is configured on a pin of the radar, `TIM3`
always gets the same period, from `servo_init` as from `pwm_init`, and `SPI1` the same mode. -/
theorem drivers_apart {calls : List Setup} (spare : ∀ s ∈ calls, s.spares)
    (same : ∀ s ∈ calls, ∀ t ∈ calls, s.Matches t) (m : Registers) :
    (∀ s ∈ calls, Met s.writes (setUp calls m) ∧ ∀ x ∈ s.pins, (setUp calls m).shows x) ∧
      ∀ calls', (∀ s, s ∈ calls ↔ s ∈ calls') → setUp calls m = setUp calls' m := by
  have agree : ∀ s ∈ calls, ∀ t ∈ calls, Agree s.writes t.writes := by
    intro s first t second
    exact Setup.agree (spare s first) (spare t second) (same s first t second)
  constructor
  · intro s there
    have met : Met s.writes (setUp calls m) := BitFields.met_of_mem agree there
    exact ⟨met, Setup.shows met⟩
  · intro calls' members
    exact BitFields.run_of_members agree members

/-- A timer that is given another period does not keep the one it had. -/
theorem period_replaced {p q : UInt32} (first : s.period = some p) (second : t.period = some q)
    (met : Met s.writes (setUp [s, t] m)) : p = q := by
  rw [setUp, List.flatMap_cons, List.flatMap_singleton, BitFields.run_append] at met
  have agree := (BitFields.met_run_iff (BitFields.met_run _ _)).mp met (.timer .tim3 .arr)
  rw [Setup.net_period, Setup.net_period, first, second] at agree
  have same : p - 1 ^^^ (q - 1) = 0 := by simpa [Setting.Agree, Setting.assign] using agree
  simpa using UInt32.xor_eq_zero_iff.mp same

end

/-- The drivers of the radar and those for which it has no use, the servo twice. -/
theorem drivers_apart_all :
    let m : Registers := fun _ => 0
    let calls : List Setup := [.uart, .servo, .ultrasonic, .adc, .adcChannel 4, .spi 2 3, .i2c,
      .pwm servoPeriodUs, .servo]
    (∀ s ∈ calls, Met s.writes (setUp calls m) ∧ ∀ x ∈ s.pins, (setUp calls m).shows x) ∧
      ∀ calls', (∀ s, s ∈ calls ↔ s ∈ calls') → setUp calls m = setUp calls' m := by
  apply drivers_apart
  · decide
  · decide

/-- A channel of the ADC on a pin of the radar takes it away. -/
theorem channel_takes_pin {channel : Fin 19} (wired : channel ∈ wiredPins) :
    ∃ s : Setup, s.spares ∧ ∀ m, ¬ Met s.writes (setUp [s, .adcChannel channel] m) := by
  have disagree : ∀ channel ∈ wiredPins, ∃ s ∈ [Setup.uart, .servo, .ultrasonic],
      s.spares ∧ ¬ Agree s.writes (Setup.adcChannel channel).writes := by
    decide +kernel
  obtain ⟨s, _, spares, apart⟩ := disagree channel wired
  refine ⟨s, spares, ?_⟩
  intro m met
  apply apart
  rw [setUp, List.flatMap_cons, List.flatMap_singleton, BitFields.run_append] at met
  exact (BitFields.met_run_iff (BitFields.met_run _ _)).mp met

end Sentinel.Drivers
