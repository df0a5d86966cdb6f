import BoardHealth.Defect
import BoardHealth.Snapshot

/-!
# Reports

A report judges a pass over a board: a verdict on the score, the warnings that
hold, and the standing advice for boards of this family. It carries names and
numbers only; putting them into words is left to whoever shows it.
-/

namespace BoardHealth

/-- What a score means. -/
inductive Verdict where
  | belowRecommended
  | someConcerns
  | acceptable
deriving DecidableEq

namespace Verdict

/-- All verdicts, from worst to best. -/
def all : List Verdict := [belowRecommended, someConcerns, acceptable]

/-- The place of a verdict in that order. -/
def rank : Verdict → Nat
  | belowRecommended => 0
  | someConcerns => 1
  | acceptable => 2

instance : LE Verdict := ⟨fun v w => v.rank ≤ w.rank⟩

instance (v w : Verdict) : Decidable (v ≤ w) := inferInstanceAs (Decidable (v.rank ≤ w.rank))

instance : Ord Verdict := ⟨fun v w => compare v.rank w.rank⟩

/-- The verdict on a score. A score that is not a number is below no threshold. -/
def ofScore (score : Single) : Verdict :=
  if score < 70 then belowRecommended
  else if score < 85 then someConcerns
  else acceptable

/-- The name of a verdict in documents. -/
def name : Verdict → String
  | belowRecommended => "BelowRecommended"
  | someConcerns => "SomeConcerns"
  | acceptable => "Acceptable"

/-- A verdict in words. -/
def description : Verdict → String
  | belowRecommended => "below recommended threshold"
  | someConcerns => "some concerns"
  | acceptable => "acceptable"

/-- The JSON form of a verdict. -/
def codec : Json.Codec Verdict := .choice all name

end Verdict

/-- What may be worth a warning about a board. -/
inductive Warning where
  | phaseFilterAbsent
  | temperatureSensingInadequate
  | currentSensingLimited
  | mosfetReliability
  | capacitorMounting
  | gateDriverLimited
  | singleSensorThermalEstimation
  | mosfetProtectionEnhanced
  | highVoltagePack
  | lowSideCurrentSensing
deriving DecidableEq

namespace Warning

/-- All warnings, in the order in which reports list them. -/
def all : List Warning := [phaseFilterAbsent, temperatureSensingInadequate,
  currentSensingLimited, mosfetReliability, capacitorMounting, gateDriverLimited,
  singleSensorThermalEstimation, mosfetProtectionEnhanced, highVoltagePack,
  lowSideCurrentSensing]

/-- The name of a warning in documents. -/
def name : Warning → String
  | phaseFilterAbsent => "PhaseFilterAbsent"
  | temperatureSensingInadequate => "TemperatureSensingInadequate"
  | currentSensingLimited => "CurrentSensingLimited"
  | mosfetReliability => "MosfetReliability"
  | capacitorMounting => "CapacitorMounting"
  | gateDriverLimited => "GateDriverLimited"
  | singleSensorThermalEstimation => "SingleSensorThermalEstimation"
  | mosfetProtectionEnhanced => "MosfetProtectionEnhanced"
  | highVoltagePack => "HighVoltagePack"
  | lowSideCurrentSensing => "LowSideCurrentSensing"

/-- The name of a warning for other programs. -/
def code : Warning → String
  | phaseFilterAbsent => "HW_PHASE_FILTER_ABSENT"
  | temperatureSensingInadequate => "HW_TEMP_SENSING_INADEQUATE"
  | currentSensingLimited => "HW_CURRENT_SENSING_LIMITED"
  | mosfetReliability => "HW_MOSFET_RELIABILITY"
  | capacitorMounting => "HW_CAPACITOR_MOUNTING"
  | gateDriverLimited => "HW_GATE_DRIVER_LIMITED"
  | singleSensorThermalEstimation => "HW_THERMAL_ESTIMATION"
  | mosfetProtectionEnhanced => "HW_MOSFET_PROTECTION"
  | highVoltagePack => "HW_HIGH_VOLTAGE_PACK"
  | lowSideCurrentSensing => "HW_LOW_SIDE_CURRENT_SENSING"

/-- Whether the warning asks for action before the board is run. -/
def isCritical (w : Warning) : Bool := w = phaseFilterAbsent

/-- Whether the warning goes with points taken off the score. The others inform. -/
def deducts (w : Warning) : Bool := w ≠ highVoltagePack ∧ w ≠ lowSideCurrentSensing

/-- Whether the warning holds of a board after a pass. -/
def isRaised (p : Profile) (s : Snapshot) : Warning → Bool
  | phaseFilterAbsent => !s.phaseFilterPresent
  | temperatureSensingInadequate => !s.temperatureSensorValid
  | currentSensingLimited => !s.currentSensingCalibrated
  | mosfetReliability => !s.mosfetHealthOk
  | capacitorMounting => !s.capacitorHealthOk
  | gateDriverLimited => !s.gateDriverOk
  | singleSensorThermalEstimation => p.singleTemperatureSensor
  | mosfetProtectionEnhanced => p.mosfetQualityIssues
  | highVoltagePack => Defect.highVoltage.isActive p
  | lowSideCurrentSensing => p.currentSensingLowSideOnly

/-- The JSON form of a warning. -/
def codec : Json.Codec Warning := .choice all name

end Warning

/-- Standing advice for boards of this family. -/
inductive Advice where
  | disablePhaseFilterSetting
  | useConservativeMotorParameters
  | monitorTemperatures
  | limitSwitchingFrequency
  | considerGateResistorModification
  | ensureThermalManagement
  | regularHardwareInspection
deriving DecidableEq

namespace Advice

/-- All advice, the most important first. -/
def all : Vector Advice 7 := #v[disablePhaseFilterSetting, useConservativeMotorParameters,
  monitorTemperatures, limitSwitchingFrequency, considerGateResistorModification,
  ensureThermalManagement, regularHardwareInspection]

/-- The place of a piece of advice in that order. -/
def rank : Advice → Nat
  | disablePhaseFilterSetting => 0
  | useConservativeMotorParameters => 1
  | monitorTemperatures => 2
  | limitSwitchingFrequency => 3
  | considerGateResistorModification => 4
  | ensureThermalManagement => 5
  | regularHardwareInspection => 6

/-- The name of a piece of advice in documents. -/
def name : Advice → String
  | disablePhaseFilterSetting => "DisablePhaseFilterSetting"
  | useConservativeMotorParameters => "UseConservativeMotorParameters"
  | monitorTemperatures => "MonitorTemperatures"
  | limitSwitchingFrequency => "LimitSwitchingFrequency"
  | considerGateResistorModification => "ConsiderGateResistorModification"
  | ensureThermalManagement => "EnsureThermalManagement"
  | regularHardwareInspection => "RegularHardwareInspection"

/-- The JSON form of a piece of advice. -/
def codec : Json.Codec Advice := .choice all.toList name

end Advice

/-- A report on a board. -/
structure Report where
  score : Single
  warningCount : UInt32
  faultCount : UInt32
  verdict : Verdict
  warnings : Json.Bounded Warning 10
  recommendations : Vector Advice 7
deriving DecidableEq

namespace Report

/-- The report on a board after a pass. -/
def ofPass (p : Profile) (s : Snapshot) : Report where
  score := s.score
  warningCount := s.warnings
  faultCount := s.faults
  verdict := .ofScore s.score
  warnings := ⟨Warning.all.filter (·.isRaised p s), List.length_filter_le ..⟩
  recommendations := Advice.all

/-- Whether the report lists a critical warning. -/
def hasCriticalWarning (r : Report) : Bool := r.warnings.toList.any (·.isCritical)

/-! ## JSON form -/

open Json (Field Codec Row)

/-- The fields of a report. -/
abbrev fields : List Field := [
  .required "hardware_score" .single,
  .required "warning_count" .word32,
  .required "fault_count" .word32,
  .required "verdict" Verdict.codec,
  .required "warnings" (.bounded Warning.codec 10),
  .required "recommendations" (.vector Advice.codec 7)]

/-- A report as the values of its fields. -/
def toRow (r : Report) : Row fields :=
  (r.score, r.warningCount, r.faultCount, r.verdict, r.warnings, r.recommendations, ())

/-- The report with the given values. -/
def ofRow : Row fields → Report
  | (score, warningCount, faultCount, verdict, warnings, recommendations, ()) =>
    { score, warningCount, faultCount, verdict, warnings, recommendations }

/-- The JSON form of a report. -/
def codec : Codec Report := .record "HardwareReport" fields toRow ofRow

end Report

end BoardHealth
