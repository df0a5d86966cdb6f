import BoardHealth.Profile

/-!
# Audit

For every defect that a board has, the limits that answer for it must lie within
fixed bounds. The audit lists the requirements that a profile breaks; those for
defects it does not have cannot be broken. A limit breaks a bound by lying beyond
it, so one that is not a number breaks none.
-/

namespace BoardHealth

/-- The requirements, by how they are broken. -/
inductive Violation where
  | hfiParametersUnsafe
  | thermalMarginInsufficient
  | mosfetLimitsNotConservative
  | switchingTimingUnsafe
  | highVoltageLimitNotConservative
deriving DecidableEq

namespace Violation

/-- All requirements, in the order in which they are looked at. -/
def all : List Violation := [hfiParametersUnsafe, thermalMarginInsufficient,
  mosfetLimitsNotConservative, switchingTimingUnsafe, highVoltageLimitNotConservative]

/-- The name of a violation in documents. -/
def name : Violation → String
  | hfiParametersUnsafe => "HfiParametersUnsafe"
  | thermalMarginInsufficient => "ThermalMarginInsufficient"
  | mosfetLimitsNotConservative => "MosfetLimitsNotConservative"
  | switchingTimingUnsafe => "SwitchingTimingUnsafe"
  | highVoltageLimitNotConservative => "HighVoltageLimitNotConservative"

/-- The name of a violation in logs. -/
def code : Violation → String
  | hfiParametersUnsafe => "AUDIT_HFI_PARAMETERS"
  | thermalMarginInsufficient => "AUDIT_THERMAL_MARGIN"
  | mosfetLimitsNotConservative => "AUDIT_MOSFET_LIMITS"
  | switchingTimingUnsafe => "AUDIT_SWITCHING_TIMING"
  | highVoltageLimitNotConservative => "AUDIT_HIGH_VOLTAGE_LIMIT"

/-- A violation in words. -/
def text : Violation → String
  | hfiParametersUnsafe => "HFI parameters not safe for missing phase filters"
  | thermalMarginInsufficient => "Insufficient thermal safety margin"
  | mosfetLimitsNotConservative => "MOSFET limits not conservative enough"
  | switchingTimingUnsafe => "Switching frequency/dead time not safe"
  | highVoltageLimitNotConservative => "High voltage limits not conservative enough"

/-- Whether a profile breaks the requirement. -/
def isFound (p : Profile) : Violation → Bool
  | hfiParametersUnsafe =>
    !p.phaseFiltersPresent && (p.hfiVoltageScaleMax > 1 || p.hfiBandwidthMax > 300)
  | thermalMarginInsufficient =>
    p.singleTemperatureSensor && p.tempSafetyMargin < 5
  | mosfetLimitsNotConservative =>
    p.mosfetQualityIssues
      && (p.mosfetCurrentLimitConservative > 200 || p.mosfetVoltageLimitConservative > 75)
  | switchingTimingUnsafe =>
    p.gateResistorIssues && (p.switchingFrequencySafe > 15000 || p.deadTimeMin < 400)
  | highVoltageLimitNotConservative =>
    p.voltageMaxAbsolute > 80 && p.voltageMaxSafe > 75

/-- The JSON form of a violation. -/
def codec : Json.Codec Violation := .choice all name

end Violation

/-- The outcome of an audit. -/
structure Audit where
  violations : Json.Bounded Violation 5
deriving DecidableEq

/-- Audits a profile. -/
def Profile.audit (p : Profile) : Audit where
  violations := ⟨Violation.all.filter (·.isFound p), List.length_filter_le ..⟩

namespace Audit

/-- Whether nothing was found. -/
def passed (a : Audit) : Bool := a.violations.toList.isEmpty

/-- Whether a violation was found. -/
def contains (a : Audit) (v : Violation) : Bool := a.violations.toList.contains v

/-! ## JSON form -/

open Json (Field Codec Row)

/-- The fields of an audit. -/
abbrev fields : List Field := [.required "violations" (.bounded Violation.codec 5)]

/-- An audit as the values of its fields. -/
def toRow (a : Audit) : Row fields := (a.violations, ())

/-- The audit with the given values. -/
def ofRow : Row fields → Audit
  | (violations, ()) => { violations }

/-- The JSON form of an audit. -/
def codec : Codec Audit := .record "SafetyAudit" fields toRow ofRow

end Audit

end BoardHealth
