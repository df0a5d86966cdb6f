import BoardHealth.Json.Record

/-!
# Telemetry

What the control loop measures: two temperatures, the input voltage and the motor
current. Readings are filtered values with no way to signal failure, so they may
be anything, not-a-number and infinities included.
-/

namespace BoardHealth

/-- A sample of the readings. The default values are those of an idle 48 V system
at room temperature. -/
structure Telemetry where
  /-- In degrees Celsius. -/
  motorTemp : Single := 25
  /-- Of the power stage, in degrees Celsius. -/
  fetTemp : Single := 25
  /-- In volts. -/
  inputVoltage : Single := 48
  /-- In amperes; negative while braking. -/
  totalCurrent : Single := 0
deriving DecidableEq

namespace Telemetry

/-- The readings in order. -/
def readings (t : Telemetry) : List Single :=
  [t.motorTemp, t.fetTemp, t.inputVoltage, t.totalCurrent]

/-- Whether every reading is a finite number. -/
def isFinite (t : Telemetry) : Bool := t.readings.all (·.isFinite)

/-- Whether the readings are equal as numbers. -/
def equals (t u : Telemetry) : Bool :=
  (t.readings.zip u.readings).all fun (x, y) => x.equals y

/-! ## JSON form -/

open Json (Field Codec Row)

/-- The fields of a sample. -/
abbrev fields : List Field := [
  .required "motor_temp_c" .single,
  .required "fet_temp_c" .single,
  .required "input_voltage_v" .single,
  .required "total_current_a" .single]

/-- A sample as the values of its fields. -/
def toRow (t : Telemetry) : Row fields :=
  (t.motorTemp, t.fetTemp, t.inputVoltage, t.totalCurrent, ())

/-- The sample with the given values. -/
def ofRow : Row fields → Telemetry
  | (motorTemp, fetTemp, inputVoltage, totalCurrent, ()) =>
    { motorTemp, fetTemp, inputVoltage, totalCurrent }

/-- The JSON form of a sample. -/
def codec : Codec Telemetry := .record "TelemetrySample" fields toRow ofRow

end Telemetry

end BoardHealth
