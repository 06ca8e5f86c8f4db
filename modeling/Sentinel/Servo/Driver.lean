import Mathlib.Data.UInt

/-! The servo (`servo.c`) on its PWM channel (`pwm.c`). An angle is a pulse width. -/

namespace Sentinel

/-- `SERVO_MIN_US` and `SERVO_MAX_US`. -/
def servoMinUs : UInt32 := 1000
def servoMaxUs : UInt32 := 2000

/-- What `pwm_set_pulse_us` writes to `CCR1`. -/
def pwmSetPulseUs (pwmPeriodUs pulseUs : UInt32) : UInt32 :=
  if pulseUs > pwmPeriodUs then pwmPeriodUs else pulseUs

/-- What `servo_set_angle` writes to `CCR1`. -/
def servoSetAngle (pwmPeriodUs : UInt32) (degrees : UInt16) : UInt32 :=
  let degrees := if degrees > 180 then 180 else degrees
  pwmSetPulseUs pwmPeriodUs (servoMinUs + degrees.toUInt32 * (servoMaxUs - servoMinUs) / 180)

/-- The period that `servo_init` chooses, and the pulse that centres the servo. -/
def servoPeriodUs : UInt32 := 20000
def servoCentre : UInt32 := pwmSetPulseUs servoPeriodUs ((servoMinUs + servoMaxUs) / 2)

end Sentinel
