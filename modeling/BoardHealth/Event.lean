import BoardHealth.Audit
import BoardHealth.Defect
import BoardHealth.Report

/-!
# Events

What is worth a line in a log, as data: each event has a level, a message and
named values. Events are not written anywhere here; operations hand them to
whoever keeps the log.
-/

namespace BoardHealth

/-- How grave an event is. -/
inductive Level where
  | debug
  | info
  | warn
  | error
deriving DecidableEq

/-- The name of a level. -/
def Level.name : Level → String
  | debug => "DEBUG"
  | info => "INFO"
  | warn => "WARN"
  | error => "ERROR"

/-- A value that an event names. -/
inductive Datum where
  | number (value : Single)
  | count (value : Nat)
  | text (value : String)
deriving DecidableEq

/-- What is worth a line in a log. -/
inductive Event where
  | temperatureNotFinite (motor fet : Single)
  | voltageNotFinite (inputVoltage : Single)
  | currentNotFinite (totalCurrent : Single)
  | engaged (protection : Protection)
  /-- A monitor was initialized. -/
  | initialized (score : Single) (warnings faults : UInt32) (verdict : Verdict) (latches : Nat)
  /-- A monitor's snapshot was refreshed; `faults` are those of the pass. -/
  | refreshed (now : UInt32) (score : Single) (faults : UInt32)
  /-- A board's configuration was rejected; `history` is the number of rejections
  kept. -/
  | rejected (score : Single) (now : UInt32) (history : Nat)
  | auditFound (violation : Violation)
  | auditFailed (violations : Nat)
  | auditPassed
deriving DecidableEq

namespace Event

/-- The level of an event. -/
def level : Event → Level
  | temperatureNotFinite .. | voltageNotFinite .. | currentNotFinite .. | engaged ..
  | rejected .. => .warn
  | initialized .. | auditPassed => .info
  | refreshed .. => .debug
  | auditFound .. | auditFailed .. => .error

/-- The message of an event. -/
def message : Event → String
  | temperatureNotFinite .. => "Non-finite temperature reading"
  | voltageNotFinite .. => "Non-finite input voltage reading"
  | currentNotFinite .. => "Non-finite current reading"
  | engaged (.phaseFilter ..) => "Applying phase filter absence protection"
  | engaged (.thermal ..) => "Applying thermal protection for single sensor"
  | engaged (.mosfet ..) => "Applying MOSFET protection limits"
  | engaged (.capacitor ..) => "Applying capacitor protection"
  | engaged (.gateDriver ..) => "Applying gate driver protection"
  | engaged (.highVoltage ..) => "Applying high voltage protection"
  | initialized .. => "Hardware adaptations initialized"
  | refreshed .. => "Diagnostics refreshed"
  | rejected .. => "Hardware configuration rejected"
  | auditFound violation => "Safety failure: " ++ violation.text
  | auditFailed .. => "Critical safety failures detected"
  | auditPassed => "All safety mechanisms validated"

/-- The values of a protection that are logged when it engages. -/
def protectionFields : Protection → List (String × Datum)
  | .phaseFilter injectionVoltage bandwidth =>
    [("hfi_voltage_v", .number injectionVoltage), ("hfi_bandwidth_hz", .number bandwidth)]
  | .thermal margin fetStart _ motorStart _ =>
    [("margin_c", .number margin), ("fet_start_c", .number fetStart),
      ("motor_start_c", .number motorStart)]
  | .mosfet current voltage =>
    [("current_max_a", .number current), ("voltage_max_v", .number voltage)]
  | .capacitor rippleFactor => [("ripple_factor", .number rippleFactor)]
  | .gateDriver switchingFrequency deadTime =>
    [("switching_hz", .count switchingFrequency.toNat), ("dead_time_ns", .count deadTime.toNat)]
  | .highVoltage fieldWeakening => [("field_weakening_v", .number fieldWeakening)]

/-- The values that an event names. -/
def fields : Event → List (String × Datum)
  | temperatureNotFinite motor fet => [("motor", .number motor), ("fet", .number fet)]
  | voltageNotFinite inputVoltage => [("input_voltage", .number inputVoltage)]
  | currentNotFinite totalCurrent => [("total_current", .number totalCurrent)]
  | engaged protection =>
    ("code", .text protection.defect.code) :: protectionFields protection
  | initialized score warnings faults verdict latches =>
    [("score", .number score), ("warnings", .count warnings.toNat),
      ("faults", .count faults.toNat), ("verdict", .text verdict.description),
      ("latches", .count latches)]
  | refreshed now score faults =>
    [("now_us", .count now.toNat), ("score", .number score), ("faults", .count faults.toNat)]
  | rejected score now history =>
    [("score", .number score), ("now_us", .count now.toNat), ("history", .count history)]
  | auditFound violation => [("code", .text violation.code)]
  | auditFailed violations => [("violations", .count violations)]
  | auditPassed => []

end Event

/-- The events of a pass over a board with these readings: one for each group of
readings that holds one that is not finite. -/
def Telemetry.events (t : Telemetry) : List Event :=
  (if t.motorTemp.isFinite && t.fetTemp.isFinite then []
    else [.temperatureNotFinite t.motorTemp t.fetTemp])
  ++ (if t.inputVoltage.isFinite then [] else [.voltageNotFinite t.inputVoltage])
  ++ (if t.totalCurrent.isFinite then [] else [.currentNotFinite t.totalCurrent])

/-- The events of an audit: one for each violation, and one for the outcome. -/
def Audit.events (a : Audit) : List Event :=
  a.violations.toList.map .auditFound
    ++ [if a.passed then .auditPassed else .auditFailed a.violations.toList.length]

end BoardHealth
