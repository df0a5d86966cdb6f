import BoardHealth.Profile
import BoardHealth.Telemetry

/-!
# Diagnosis

A pass over a board starts from a score of 100 and takes a fixed number of points
off for each defect of its profile, a warning, and for each reading out of range,
a fault. The points are numbers in single precision and so is the score.
-/

namespace BoardHealth

/-- The result of a pass. The default values are those before the first. -/
structure Snapshot where
  phaseFilterPresent : Bool := false
  temperatureSensorValid : Bool := false
  currentSensingCalibrated : Bool := false
  mosfetHealthOk : Bool := false
  capacitorHealthOk : Bool := false
  gateDriverOk : Bool := false
  thermalEstimationEnabled : Bool := false
  thermalProtectionEnhanced : Bool := false
  mosfetProtectionEnhanced : Bool := false
  score : Single := 0
  faults : UInt32 := 0
  warnings : UInt32 := 0
deriving DecidableEq

/-- Whether a board with this score may be run as it is configured. -/
def isAcceptableScore (score : Single) : Bool := score > 60

namespace Snapshot

/-- Before the first pass. -/
def blank : Snapshot := {}

/-- Whether the board may be run as it is configured. -/
def isAcceptable (s : Snapshot) : Bool := isAcceptableScore s.score

end Snapshot

/-- Something that may be wrong with a board, and the points taken off if it is. -/
structure Check where
  fails : Bool
  points : Single

namespace Check

/-- A score less the points of the checks that fail. -/
def deduct (score : Single) (checks : List Check) : Single :=
  checks.foldl (fun score check => if check.fails then score - check.points else score) score

/-- The number of checks that fail. -/
def failing (checks : List Check) : UInt32 := .ofNat (checks.countP (·.fails))

end Check

namespace Profile

/-- The checks for known defects. -/
def checks (p : Profile) : List Check := [
  ⟨!p.phaseFiltersPresent, 15⟩,
  ⟨p.temperatureSensors < 2, 10⟩,
  ⟨p.currentSensingLimitedAccuracy, 8⟩,
  ⟨p.mosfetQualityIssues, 12⟩,
  ⟨p.capacitorReliabilityIssues, 8⟩,
  ⟨p.gateResistorIssues, 7⟩,
  -- A single sensor costs points once more for the estimation that it makes
  -- necessary, and doubtful MOSFETs for their protection.
  ⟨p.singleTemperatureSensor, 5⟩,
  ⟨p.mosfetQualityIssues, 8⟩]

end Profile

namespace Telemetry

/-- Whether a temperature is too high, or unknown. -/
def isTooHot (t : Telemetry) : Bool :=
  !t.motorTemp.isFinite || !t.fetTemp.isFinite || t.motorTemp > 85 || t.fetTemp > 85

/-- Whether the input voltage is outside the board's range, or unknown. -/
def isVoltageOutOfRange (t : Telemetry) (p : Profile) : Bool :=
  !t.inputVoltage.isFinite || t.inputVoltage > p.voltageMaxSafe || t.inputVoltage < 10

/-- Whether the current is too high either way, or unknown. -/
def isOverCurrent (t : Telemetry) (p : Profile) : Bool :=
  !t.totalCurrent.isFinite || t.totalCurrent.abs > p.currentMaxSafe

/-- The checks for readings out of range. -/
def checks (t : Telemetry) (p : Profile) : List Check := [
  ⟨t.isTooHot, 5⟩,
  ⟨t.isVoltageOutOfRange p, 3⟩,
  ⟨t.isOverCurrent p, 3⟩]

end Telemetry

/-- A pass over a board. The counters are those of this pass alone. -/
def diagnose (p : Profile) (t : Telemetry) : Snapshot where
  phaseFilterPresent := p.phaseFiltersPresent
  temperatureSensorValid := 2 ≤ p.temperatureSensors
  currentSensingCalibrated := !p.currentSensingLimitedAccuracy
  mosfetHealthOk := !p.mosfetQualityIssues
  capacitorHealthOk := !p.capacitorReliabilityIssues
  gateDriverOk := !p.gateResistorIssues
  thermalEstimationEnabled := p.tempEstimationRequired
  thermalProtectionEnhanced := p.tempDeratingAggressive
  mosfetProtectionEnhanced := p.mosfetFailureDetection
  score := (Check.deduct 100 (p.checks ++ t.checks p)).clamp 0 100
  faults := Check.failing (t.checks p)
  warnings := Check.failing p.checks

namespace Snapshot

/-! ## JSON form -/

open Json (Field Codec Row)

/-- The fields of a snapshot. -/
abbrev fields : List Field := [
  .required "phase_filter_present" .boolean,
  .required "temperature_sensor_valid" .boolean,
  .required "current_sensing_calibrated" .boolean,
  .required "mosfet_health_ok" .boolean,
  .required "capacitor_health_ok" .boolean,
  .required "gate_driver_ok" .boolean,
  .required "thermal_estimation_enabled" .boolean,
  .required "thermal_protection_enhanced" .boolean,
  .required "mosfet_protection_enhanced" .boolean,
  .required "hardware_score" .single,
  .required "fault_count" .word32,
  .required "warning_count" .word32]

/-- A snapshot as the values of its fields. -/
def toRow (s : Snapshot) : Row fields :=
  (s.phaseFilterPresent, s.temperatureSensorValid, s.currentSensingCalibrated,
    s.mosfetHealthOk, s.capacitorHealthOk, s.gateDriverOk, s.thermalEstimationEnabled,
    s.thermalProtectionEnhanced, s.mosfetProtectionEnhanced, s.score, s.faults, s.warnings, ())

/-- The snapshot with the given values. -/
def ofRow : Row fields → Snapshot
  | (phaseFilterPresent, temperatureSensorValid, currentSensingCalibrated, mosfetHealthOk,
      capacitorHealthOk, gateDriverOk, thermalEstimationEnabled, thermalProtectionEnhanced,
      mosfetProtectionEnhanced, score, faults, warnings, ()) =>
    { phaseFilterPresent, temperatureSensorValid, currentSensingCalibrated, mosfetHealthOk,
      capacitorHealthOk, gateDriverOk, thermalEstimationEnabled, thermalProtectionEnhanced,
      mosfetProtectionEnhanced, score, faults, warnings }

/-- The JSON form of a snapshot. -/
def codec : Codec Snapshot := .record "DiagnosticsSnapshot" fields toRow ofRow

end Snapshot

end BoardHealth
