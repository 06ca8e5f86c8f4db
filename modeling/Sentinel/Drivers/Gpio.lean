import Mathlib.Data.Fintype.Basic
import Sentinel.Lib.BitFields

/-! The pins (`gpio.c`). Each call changes a few bits of registers that all pins of a port share.
A pin number is one of the 16 that a port has. With a larger one most of the shifts are undefined,
and the others, in `gpio_write` and `gpio_toggle`, reach another pin or none. An alternate function
is any byte, as `gpio_config` does not check it. -/

namespace Sentinel.Drivers

open BitFields (Setting Write up field Fits)

/-- The ports, with their distance from `GPIOA_BASE`. -/
inductive GpioPort
  | a | b | c | d | e | h
  deriving DecidableEq, Repr

def GpioPort.offset : GpioPort → UInt32
  | .a => 0
  | .b => 0x400
  | .c => 0x800
  | .d => 0xC00
  | .e => 0x1000
  | .h => 0x1C00

inductive Timer
  | tim2 | tim3
  deriving DecidableEq, Repr

inductive TimerRegister
  | cr1 | dier | ccmr1 | ccer | psc | arr | ccr1
  deriving DecidableEq, Repr

/-- The registers that the drivers write to as they set up their peripherals. What `NVIC` keeps for
the interrupt of `TIM2` is a register each. -/
inductive Register
  | ahb1enr | apb1enr | apb2enr
  | moder (port : GpioPort)
  | otyper (port : GpioPort)
  | ospeedr (port : GpioPort)
  | pupdr (port : GpioPort)
  | odr (port : GpioPort)
  | afr (port : GpioPort) (high : Bool)
  | timer (tim : Timer) (r : TimerRegister)
  | tim2Priority | tim2Enable
  | usart2Brr | usart2Cr1
  | spi1Cr1
  | i2c1Cr1 | i2c1Cr2 | i2c1Ccr | i2c1Trise
  | adcCcr | adc1Cr1 | adc1Cr2 | adc1Sqr1 | adc1Smpr1 | adc1Smpr2
  deriving DecidableEq, Repr

abbrev Registers := Register → UInt32

abbrev Writes := List (Write Register)

/-- `r |= m`, `r &= ~m` and `r = v`. -/
def orIn (r : Register) (m : UInt32) : Write Register := ⟨r, .orIn m⟩
def andNot (r : Register) (m : UInt32) : Write Register := ⟨r, .andNot m⟩
def assign (r : Register) (v : UInt32) : Write Register := ⟨r, .assign v⟩

inductive GpioMode
  | input | output | af | analog
  deriving DecidableEq, Repr

def GpioMode.code : GpioMode → UInt32
  | .input => 0
  | .output => 1
  | .af => 2
  | .analog => 3

inductive GpioPull
  | nopull | pullup | pulldown
  deriving DecidableEq, Repr

def GpioPull.code : GpioPull → UInt32
  | .nopull => 0
  | .pullup => 1
  | .pulldown => 2

instance : Fintype GpioMode := ⟨{.input, .output, .af, .analog}, fun x => by cases x <;> simp⟩
instance : Fintype GpioPull := ⟨{.nopull, .pullup, .pulldown}, fun x => by cases x <;> simp⟩
instance : Fintype GpioPort := ⟨{.a, .b, .c, .d, .e, .h}, fun x => by cases x <;> simp⟩

def gpioClockEnable (port : GpioPort) : Writes :=
  [orIn .ahb1enr (1 <<< (port.offset / 0x400))]

def gpioConfig (port : GpioPort) (pin : Fin 16) (mode : GpioMode) (af : UInt8) (pull : GpioPull) :
    Writes :=
  gpioClockEnable port ++
  [andNot (.moder port) (up 0x3 (pin * 2)), orIn (.moder port) (up mode.code (pin * 2)),
    andNot (.pupdr port) (up 0x3 (pin * 2)), orIn (.pupdr port) (up pull.code (pin * 2))] ++
  if mode = .af then
    [andNot (.afr port (pin.val >>> 3 = 1)) (up 0xF ((pin &&& 0x7) * 4)),
      orIn (.afr port (pin.val >>> 3 = 1)) (up af.toUInt32 ((pin &&& 0x7) * 4))]
  else []

def gpioSetOpenDrain (port : GpioPort) (pin : Fin 16) : Writes :=
  [orIn (.otyper port) (up 1 pin), orIn (.ospeedr port) (up 0x3 (pin * 2))]

/-- A write to `BSRR` sets or resets one bit of `ODR`. -/
def gpioWrite (port : GpioPort) (pin : Fin 16) (value : Bool) : Writes :=
  [if value then orIn (.odr port) (up 1 pin) else andNot (.odr port) (up 1 pin)]

def gpioToggle (port : GpioPort) (pin : Fin 16) (m : Registers) : Registers :=
  Function.update m (.odr port) (m (.odr port) ^^^ up 1 pin)

/-! ### One pin -/

/-- What the registers of a port say of one of its pins. -/
structure PinState where
  mode : UInt32
  pull : UInt32
  af : UInt32
  openDrain : UInt32
  speed : UInt32
  output : UInt32

def Registers.pin (m : Registers) (port : GpioPort) (pin : Fin 16) : PinState where
  mode := field (m (.moder port)) 0x3 (pin * 2)
  pull := field (m (.pupdr port)) 0x3 (pin * 2)
  af := field (m (.afr port (pin.val >>> 3 = 1))) 0xF ((pin &&& 0x7) * 4)
  openDrain := field (m (.otyper port)) 1 pin
  speed := field (m (.ospeedr port)) 0x3 (pin * 2)
  output := field (m (.odr port)) 1 pin

/-- A call of a function of `gpio.c`. -/
inductive GpioCall
  | config (port : GpioPort) (pin : Fin 16) (mode : GpioMode) (af : UInt8) (pull : GpioPull)
  | setOpenDrain (port : GpioPort) (pin : Fin 16)
  | write (port : GpioPort) (pin : Fin 16) (value : Bool)
  | toggle (port : GpioPort) (pin : Fin 16)

def GpioCall.run : GpioCall → Registers → Registers
  | .config port pin mode af pull => BitFields.run (gpioConfig port pin mode af pull)
  | .setOpenDrain port pin => BitFields.run (gpioSetOpenDrain port pin)
  | .write port pin value => BitFields.run (gpioWrite port pin value)
  | .toggle port pin => gpioToggle port pin

/-- The call is for this pin. -/
def GpioCall.names (port : GpioPort) (pin : Fin 16) : GpioCall → Bool
  | .config port' pin' _ _ _ | .setOpenDrain port' pin' | .write port' pin' _
    | .toggle port' pin' => port' = port ∧ pin' = pin

/-- The alternate function that is set has a number of four bits. A larger one is written into the
field of the next pin as well. -/
def GpioCall.inField : GpioCall → Bool
  | .config _ _ mode af _ => mode = .af → af < 16
  | .setOpenDrain _ _ | .write _ _ _ | .toggle _ _ => true

/-- What the call is for. -/
def GpioCall.change : GpioCall → PinState → PinState
  | .config _ _ mode af pull, p =>
    { p with
      mode := mode.code
      pull := pull.code
      af := if mode = .af then af.toUInt32 else p.af }
  | .setOpenDrain _ _, p => { p with openDrain := 1, speed := 3 }
  | .write _ _ value, p => { p with output := if value then 1 else 0 }
  | .toggle _ _, p => { p with output := p.output ^^^ 1 }

/-! The fields of different pins lie apart -/

theorem two_fits (pin : Fin 16) : Fits 0x3 (pin * 2) := by
  revert pin
  decide +kernel

theorem one_fits (pin : Fin 16) : Fits 1 pin := by
  revert pin
  decide +kernel

theorem four_fits (pin : Fin 16) : Fits 0xF ((pin &&& 0x7) * 4) := by
  revert pin
  decide +kernel

theorem two_apart {pin pin' : Fin 16} (other : pin ≠ pin') :
    up 0x3 (pin' * 2) &&& up 0x3 (pin * 2) = 0 := by
  revert pin pin'
  decide +kernel

theorem one_apart {pin pin' : Fin 16} (other : pin ≠ pin') : up 1 pin' &&& up 1 pin = 0 := by
  revert pin pin'
  decide +kernel

theorem four_apart {pin pin' : Fin 16} (other : pin ≠ pin')
    (half : pin.val >>> 3 = 1 ↔ pin'.val >>> 3 = 1) :
    up 0xF ((pin' &&& 0x7) * 4) &&& up 0xF ((pin &&& 0x7) * 4) = 0 := by
  revert pin pin'
  decide +kernel

theorem mode_within (mode : GpioMode) : mode.code &&& ~~~0x3 = 0 := by
  cases mode <;> decide

theorem pull_within (pull : GpioPull) : pull.code &&& ~~~0x3 = 0 := by
  cases pull <;> decide

theorem af_within {af : UInt8} (small : af < 16) : af.toUInt32 &&& ~~~0xF = 0 := by
  have all : ∀ i : Fin 16, (UInt8.ofNat i).toUInt32 &&& ~~~0xF = 0 := by decide +kernel
  have same := all ⟨af.toNat, small⟩
  rwa [UInt8.ofNat_toNat] at same

section
variable {port port' : GpioPort} {pin pin' : Fin 16} {mode : GpioMode} {af : UInt8}
  {pull : GpioPull} {m : Registers} {r : Register}

/-- The setting that `r &= ~(k << n); r |= v << n;` makes. -/
def fieldWrite (k v : UInt32) (n : Nat) : Setting :=
  (Setting.andNot (up k n)).andThen (.orIn (up v n))

theorem config_net (r : Register) : BitFields.net (gpioConfig port pin mode af pull) r =
    match r with
    | .ahb1enr => .orIn (1 <<< (port.offset / 0x400))
    | .moder port' => if port = port' then fieldWrite 0x3 mode.code (pin * 2) else .none
    | .pupdr port' => if port = port' then fieldWrite 0x3 pull.code (pin * 2) else .none
    | .afr port' high =>
      if mode = .af ∧ port = port' ∧ (pin.val >>> 3 = 1 ↔ high = true) then
        fieldWrite 0xF af.toUInt32 ((pin &&& 0x7) * 4)
      else .none
    | _ => .none := by
  by_cases alternate : mode = .af
  · cases r with
    | moder port' | pupdr port' =>
      by_cases same : port = port' <;>
        simp [gpioConfig, gpioClockEnable, BitFields.net, andNot, orIn, alternate, same, fieldWrite]
    | afr port' high =>
      by_cases same : port = port' <;> cases high <;> by_cases half : pin.val >>> 3 = 1 <;>
        simp [gpioConfig, gpioClockEnable, BitFields.net, andNot, orIn, alternate, same, fieldWrite, half]
    | _ => simp [gpioConfig, gpioClockEnable, BitFields.net, andNot, orIn, alternate]
  · cases r with
    | moder port' | pupdr port' =>
      by_cases same : port = port' <;>
        simp [gpioConfig, gpioClockEnable, BitFields.net, andNot, orIn, alternate, same, fieldWrite]
    | _ => simp [gpioConfig, gpioClockEnable, BitFields.net, andNot, orIn, alternate]

theorem none_apply (x : UInt32) : Setting.none.apply x = x := by
  simp [Setting.none, Setting.apply]

/-- A field that is set reads as it has been set, and the fields of other pins as before. -/
theorem sets_read {k v : UInt32} {s : Setting} (place : Fin 16 → Nat)
    (fits : ∀ pin, Fits k (place pin))
    (apart : pin ≠ pin' → up k (place pin') &&& up k (place pin) = 0)
    (sets : s.Sets k (place pin) v) (x : UInt32) :
    field (s.apply x) k (place pin') = if pin = pin' then v else field x k (place pin') := by
  by_cases same : pin = pin'
  · subst same
    rw [if_pos rfl, sets.own]
  · rw [if_neg same, sets.other (apart same) (fits pin')]

theorem one_read {v : UInt32} {s : Setting} (sets : s.Sets 1 pin v) (x : UInt32) :
    field (s.apply x) 1 pin' = if pin = pin' then v else field x 1 pin' :=
  sets_read Fin.val one_fits one_apart sets x

theorem two_read {v : UInt32} {s : Setting} (sets : s.Sets 0x3 (pin * 2) v) (x : UInt32) :
    field (s.apply x) 0x3 (pin' * 2) = if pin = pin' then v else field x 0x3 (pin' * 2) :=
  sets_read (fun pin => pin * 2) two_fits two_apart sets x

theorem four_read {v : UInt32} {s : Setting} (half : pin.val >>> 3 = 1 ↔ pin'.val >>> 3 = 1)
    (sets : s.Sets 0xF ((pin &&& 0x7) * 4) v) (x : UInt32) :
    field (s.apply x) 0xF ((pin' &&& 0x7) * 4) =
      if pin = pin' then v else field x 0xF ((pin' &&& 0x7) * 4) :=
  sets_read (fun pin => (pin &&& 0x7) * 4) four_fits (fun other => four_apart other half) sets x

theorem mode_sets (pin : Fin 16) (mode : GpioMode) :
    (fieldWrite 0x3 mode.code (pin * 2)).Sets 0x3 (pin * 2) mode.code :=
  .write (two_fits pin) (mode_within mode)

theorem pull_sets (pin : Fin 16) (pull : GpioPull) :
    (fieldWrite 0x3 pull.code (pin * 2)).Sets 0x3 (pin * 2) pull.code :=
  .write (two_fits pin) (pull_within pull)

theorem af_sets (pin : Fin 16) (small : af < 16) :
    (fieldWrite 0xF af.toUInt32 ((pin &&& 0x7) * 4)).Sets 0xF ((pin &&& 0x7) * 4) af.toUInt32 :=
  .write (four_fits pin) (af_within small)

theorem config_pin (small : mode = .af → af < 16) (m : Registers) (port' : GpioPort) (pin' : Fin 16) :
    Registers.pin (BitFields.run (gpioConfig port pin mode af pull) m) port' pin' =
      if port = port' ∧ pin = pin' then
        (GpioCall.config port pin mode af pull).change (m.pin port' pin')
      else m.pin port' pin' := by
  by_cases here : port = port'
  · subst here
    simp only [Registers.pin, BitFields.run_net, config_net, if_true, none_apply, true_and]
    rw [two_read (mode_sets pin mode), two_read (pull_sets pin pull)]
    by_cases alternate : mode = .af
    · by_cases half : (pin.val >>> 3 = 1 ↔ pin'.val >>> 3 = 1)
      · have first : mode = .af ∧ (pin.val >>> 3 = 1 ↔ decide (pin'.val >>> 3 = 1) = true) := by
          simp [alternate, half]
        rw [if_pos first, four_read half (af_sets pin (small alternate))]
        by_cases same : pin = pin' <;> simp [same, GpioCall.change, alternate]
      · have second : ¬ (mode = .af ∧ (pin.val >>> 3 = 1 ↔ decide (pin'.val >>> 3 = 1) = true)) := by
          simp [alternate, half]
        have other : pin ≠ pin' := by
          rintro rfl
          exact half Iff.rfl
        rw [if_neg second, none_apply, if_neg other, if_neg other, if_neg other]
    · have second : ¬ (mode = .af ∧ (pin.val >>> 3 = 1 ↔ decide (pin'.val >>> 3 = 1) = true)) := by
        simp [alternate]
      rw [if_neg second, none_apply]
      by_cases same : pin = pin' <;> simp [same, GpioCall.change, alternate]
  · simp [Registers.pin, BitFields.run_net, config_net, here, none_apply]

theorem openDrain_pin (m : Registers) (port' : GpioPort) (pin' : Fin 16) :
    Registers.pin (BitFields.run (gpioSetOpenDrain port pin) m) port' pin' =
      if port = port' ∧ pin = pin' then (GpioCall.setOpenDrain port pin).change (m.pin port' pin')
      else m.pin port' pin' := by
  by_cases here : port = port'
  · subst here
    simp only [Registers.pin, BitFields.run_net, gpioSetOpenDrain, orIn, BitFields.net, if_true,
      reduceCtorEq, if_false, none_apply, true_and, Setting.andThen_none]
    rw [one_read (.orIn (one_fits pin)), two_read (.orIn (two_fits pin))]
    by_cases same : pin = pin' <;> simp [same, GpioCall.change]
  · simp [Registers.pin, BitFields.run_net, gpioSetOpenDrain, orIn, BitFields.net, here, none_apply]

theorem write_pin (m : Registers) (value : Bool) (port' : GpioPort) (pin' : Fin 16) :
    Registers.pin (BitFields.run (gpioWrite port pin value) m) port' pin' =
      if port = port' ∧ pin = pin' then (GpioCall.write port pin value).change (m.pin port' pin')
      else m.pin port' pin' := by
  by_cases here : port = port'
  · subst here
    cases value with
    | true =>
      simp only [Registers.pin, BitFields.run_net, gpioWrite, orIn, BitFields.net, if_true,
        reduceCtorEq, if_false, none_apply, true_and, Setting.andThen_none]
      rw [one_read (.orIn (one_fits pin))]
      by_cases same : pin = pin' <;> simp [same, GpioCall.change]
    | false =>
      simp only [Registers.pin, BitFields.run_net, gpioWrite, andNot, BitFields.net, if_true,
        reduceCtorEq, if_false, none_apply, true_and, Setting.andThen_none, Bool.false_eq_true]
      rw [one_read (.andNot (one_fits pin))]
      by_cases same : pin = pin' <;> simp [same, GpioCall.change]
  · cases value <;>
      simp [Registers.pin, BitFields.run_net, gpioWrite, orIn, andNot, BitFields.net, here, none_apply]

/-- A bit that is flipped, and the others. -/
theorem flip_read (x : UInt32) : field (x ^^^ up 1 pin) 1 pin' =
    if pin = pin' then field x 1 pin' ^^^ 1 else field x 1 pin' := by
  have one : ∀ i, BitFields.bit 1 i = decide (i = 0) := by
    intro i
    simp [BitFields.bit]
  apply BitFields.word_ext
  intro i _
  have small : pin'.val < 32 := by omega
  have flipped : BitFields.bit (up 1 pin) pin' = decide (pin = pin') := by
    rw [up, BitFields.bit_shiftLeft 1 (by omega) small, one]
    by_cases same : pin = pin'
    · simp [same]
    · have other : pin.val ≠ pin'.val := fun h => same (Fin.ext h)
      have apart : ¬ (pin.val ≤ pin'.val ∧ pin'.val - pin.val = 0) := by omega
      simpa [same] using apart
  by_cases low : i = 0
  · subst low
    by_cases same : pin = pin'
    · subst same
      simp [field, BitFields.bit_shiftRight _ small, one, flipped]
    · simp [field, BitFields.bit_shiftRight _ small, one, flipped, same]
  · by_cases same : pin = pin' <;> simp [field, one, low, same]

theorem toggle_pin (m : Registers) (port' : GpioPort) (pin' : Fin 16) :
    Registers.pin (gpioToggle port pin m) port' pin' =
      if port = port' ∧ pin = pin' then (GpioCall.toggle port pin).change (m.pin port' pin')
      else m.pin port' pin' := by
  by_cases here : port = port'
  · subst here
    by_cases same : pin = pin' <;>
      simp [Registers.pin, gpioToggle, flip_read, same, GpioCall.change]
  · simp [Registers.pin, gpioToggle, here, Ne.symm here]

theorem GpioCall.run_pin {call : GpioCall} (inField : call.inField) (m : Registers)
    (port : GpioPort) (pin : Fin 16) : (call.run m).pin port pin =
      if call.names port pin then call.change (m.pin port pin) else m.pin port pin := by
  cases call with
  | config =>
    simpa [GpioCall.run, GpioCall.names] using config_pin (of_decide_eq_true inField) m port pin
  | setOpenDrain => simpa [GpioCall.run, GpioCall.names] using openDrain_pin m port pin
  | write _ _ value => simpa [GpioCall.run, GpioCall.names] using write_pin m value port pin
  | toggle => simpa [GpioCall.run, GpioCall.names] using toggle_pin m port pin

/-- The clock of a port is on. -/
def Registers.clocked (m : Registers) (port : GpioPort) : Prop :=
  m .ahb1enr &&& (1 <<< (port.offset / 0x400)) ≠ 0

/-- The call turns the clock of the port on. -/
def GpioCall.clocks (port : GpioPort) : GpioCall → Bool
  | .config port' _ _ _ _ => port' = port
  | .setOpenDrain _ _ | .write _ _ _ | .toggle _ _ => false

theorem clock_apart {port port' : GpioPort} (other : port ≠ port') :
    (1 <<< (port'.offset / 0x400)) &&& ((1 : UInt32) <<< (port.offset / 0x400)) = 0 := by
  revert port port'
  decide +kernel

theorem clock_some (port : GpioPort) : (1 : UInt32) <<< (port.offset / 0x400) ≠ 0 := by
  cases port <;> decide

theorem GpioCall.run_clocked (call : GpioCall) (m : Registers) (port : GpioPort) :
    (call.run m).clocked port ↔ m.clocked port ∨ call.clocks port = true := by
  cases call with
  | config port' pin mode af pull =>
    rw [GpioCall.run, Registers.clocked, BitFields.run_net, config_net]
    by_cases same : port' = port
    · subst same
      let clock : Setting := .orIn (1 <<< (port'.offset / 0x400))
      have on : clock.apply (m .ahb1enr) &&& (1 <<< (port'.offset / 0x400)) =
          1 <<< (port'.offset / 0x400) := Setting.met_apply clock _
      dsimp only
      rw [on]
      simp [GpioCall.clocks, clock_some]
    · dsimp only
      rw [Setting.apply_outside (clock_apart same)]
      simp [GpioCall.clocks, same, Registers.clocked]
  | setOpenDrain | toggle =>
    simp [GpioCall.run, Registers.clocked, GpioCall.clocks, BitFields.run_net, gpioSetOpenDrain, orIn,
      BitFields.net, none_apply, gpioToggle]
  | write _ _ value =>
    cases value <;>
      simp [GpioCall.run, Registers.clocked, GpioCall.clocks, BitFields.run_net, gpioWrite, orIn,
        andNot, BitFields.net, none_apply]

/-- **Each pin has its own calls.** Whatever is called for the pins of a port, a pin is as the
calls for it say, in their order, and the clock of a port is on from its first configuration, as
long as every alternate function that is set has a number of four bits. -/
theorem pins_apart {calls : List GpioCall} (inField : ∀ call ∈ calls, call.inField) (m : Registers)
    (port : GpioPort) (pin : Fin 16) :
    let after := calls.foldl (fun m call => call.run m) m
    Registers.pin after port pin =
      (calls.filter (GpioCall.names port pin)).foldl (fun p call => call.change p)
        (m.pin port pin) ∧
    (Registers.clocked after port ↔ m.clocked port ∨ ∃ call ∈ calls, call.clocks port = true) := by
  induction calls generalizing m with
  | nil => simp
  | cons call calls ih =>
    obtain ⟨first, others⟩ := List.forall_mem_cons.mp inField
    obtain ⟨state, clock⟩ := ih others (call.run m)
    refine ⟨?_, ?_⟩
    · rw [List.foldl_cons, state, GpioCall.run_pin first, List.filter_cons]
      split <;> rfl
    · rw [List.foldl_cons, clock, GpioCall.run_clocked, or_assoc]
      simp

/-- Two pins of one half of a port, of which the first is configured again. -/
theorem pins_apart_twice :
    let calls : List GpioCall := [.config .a 6 .af 2 .nopull, .config .a 7 .output 0x10 .pullup,
      .write .a 7 true, .config .a 6 .af 1 .nopull]
    let m : Registers := fun _ => 0
    let after := calls.foldl (fun m call => call.run m) m
    Registers.pin after .a 6 =
      (calls.filter (GpioCall.names .a 6)).foldl (fun p call => call.change p) (m.pin .a 6) ∧
    (Registers.clocked after .a ↔ m.clocked .a ∨ ∃ call ∈ calls, call.clocks .a = true) :=
  pins_apart (by decide) (fun _ => 0) .a 6

/-- What stands above the low four bits of a value gets into the field above. -/
theorem spills {v x : UInt32} {n : Nat} (fits : n + 8 ≤ 32) (byte : v < 256) :
    field ((fieldWrite 0xF v n).apply x) 0xF (n + 4) = field x 0xF (n + 4) ||| (v >>> 4) := by
  have four : ∀ i, BitFields.bit 0xF i = decide (i < 4) := by
    have all : ∀ i < 32, BitFields.bit 0xF i = decide (i < 4) := by decide
    intro i
    by_cases inside : i < 32
    · exact all i inside
    · have none : BitFields.bit 0xF i = false := BitVec.getLsbD_of_ge _ _ (by omega)
      rw [none, decide_eq_false (by omega)]
  have high : ∀ i, 8 ≤ i → BitFields.bit v i = false := by
    intro i large
    have wide : 2 ^ 8 ≤ 2 ^ i := Nat.pow_le_pow_right (by decide) large
    exact Nat.testBit_lt_two_pow (Nat.lt_of_lt_of_le (UInt32.lt_iff_toNat_lt.mp byte) wide)
  apply BitFields.word_ext
  intro i inside
  rw [field, field, BitFields.bit_and, BitFields.bit_or, BitFields.bit_and,
    BitFields.bit_shiftRight _ (by omega), BitFields.bit_shiftRight _ (by omega), four]
  have shifted : BitFields.bit (v >>> 4) i = BitFields.bit v (4 + i) :=
    BitFields.bit_shiftRight v (by decide)
  rw [shifted]
  by_cases low : i < 4
  · have room : n + 4 + i < 32 := by omega
    rw [fieldWrite, Setting.andThen_apply, Setting.bit_apply _ _ room, Setting.bit_apply _ _ room]
    simp only [Setting.orIn, Setting.andNot, BitFields.bit_zero, up]
    rw [BitFields.bit_shiftLeft v (by omega) room, BitFields.bit_shiftLeft 0xF (by omega) room, four]
    have above : n + 4 + i - n = 4 + i := by omega
    simp [above, low]
    grind
  · simp [low, high (4 + i) (by omega)]

/-- What an alternate function has above its four bits gets into the field of the next pin. -/
theorem wide_af_reaches {next : Fin 16} (behind : next.val = pin + 1)
    (half : pin.val >>> 3 = next.val >>> 3) (m : Registers) :
    (Registers.pin (BitFields.run (gpioConfig port pin .af af pull) m) port next).af =
      (m.pin port next).af ||| (af.toUInt32 >>> 4) := by
  have place : ∀ pin next : Fin 16, next.val = pin.val + 1 → pin.val >>> 3 = next.val >>> 3 →
      (next.val &&& 0x7) * 4 = (pin.val &&& 0x7) * 4 + 4 ∧ (pin.val &&& 0x7) * 4 + 8 ≤ 32 := by
    decide +kernel
  obtain ⟨above, fits⟩ := place pin next behind half
  have byte : af.toUInt32 < 256 := UInt32.lt_iff_toNat_lt.mpr af.toNat_lt
  have same : pin.val >>> 3 = 1 ↔ decide (next.val >>> 3 = 1) = true := by simp [half]
  simp only [Registers.pin, BitFields.run_net, config_net, same, and_self, if_true, above]
  exact spills fits byte

end
end Sentinel.Drivers
