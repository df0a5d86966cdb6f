import BoardHealth.Json.Record

/-!
# Board profiles

A profile describes one variant of a motor-controller board: the manufacturing
defects it is known to have and the limits it is to be run within. It is given
once and never changed. What is left unsaid about a board is what holds of a
healthy one.
-/

namespace BoardHealth

/-- A board variant. The default values are those of a healthy board. -/
structure Profile where
  phaseFiltersPresent : Bool := true
  singleTemperatureSensor : Bool := false
  currentSensingLowSideOnly : Bool := false
  currentSensingLimitedAccuracy : Bool := false
  mosfetQualityIssues : Bool := false
  capacitorReliabilityIssues : Bool := false
  gateResistorIssues : Bool := false
  /-- The highest pack voltage that the board can ever see. -/
  voltageMaxAbsolute : Single := 60
  currentMaxSafe : Single := 150
  /-- The highest voltage that the board is to be run at. -/
  voltageMaxSafe : Single := 57
  hfiVoltageScaleMax : Single := 2
  hfiBandwidthMax : Single := 500
  tempSafetyMargin : Single := 5
  mosfetCurrentLimitConservative : Single := 150
  mosfetVoltageLimitConservative : Single := 57
  /-- In hertz. -/
  switchingFrequencySafe : UInt32 := 20000
  /-- In nanoseconds. -/
  deadTimeMin : UInt32 := 300
  tempEstimationRequired : Bool := false
  tempDeratingAggressive : Bool := false
  mosfetFailureDetection : Bool := false
  rippleCurrentLimitFactor : Single := 1
deriving DecidableEq

namespace Profile

/-- A board without known defects. -/
def healthy : Profile := {}

/-- The Flipsky 75200 Pro V2.0: no phase filters, one thermistor, low-side shunts,
unreliable MOSFETs, loose capacitors and marginal gate resistors, rated for packs
of 20 cells. -/
def flipsky75200ProV2 : Profile where
  phaseFiltersPresent := false
  singleTemperatureSensor := true
  currentSensingLowSideOnly := true
  currentSensingLimitedAccuracy := true
  mosfetQualityIssues := true
  capacitorReliabilityIssues := true
  gateResistorIssues := true
  voltageMaxAbsolute := 84
  currentMaxSafe := 150
  voltageMaxSafe := 75
  hfiVoltageScaleMax := 1.5
  hfiBandwidthMax := 300
  tempSafetyMargin := 10
  mosfetCurrentLimitConservative := 180
  mosfetVoltageLimitConservative := 70
  switchingFrequencySafe := 13000
  deadTimeMin := 500
  tempEstimationRequired := true
  tempDeratingAggressive := true
  mosfetFailureDetection := true
  rippleCurrentLimitFactor := 0.8

/-- The number of temperature sensors on the power stage. -/
def temperatureSensors (p : Profile) : Nat :=
  if p.singleTemperatureSensor then 1 else 2

/-! ## JSON form -/

open Json (Field Codec Row)

/-- The fields of a profile, each with the value of a healthy board where none is
given. -/
abbrev fields : List Field := [
  .defaulting "phase_filters_present" .boolean healthy.phaseFiltersPresent,
  .defaulting "single_temperature_sensor" .boolean healthy.singleTemperatureSensor,
  .defaulting "current_sensing_low_side_only" .boolean healthy.currentSensingLowSideOnly,
  .defaulting "current_sensing_limited_accuracy" .boolean healthy.currentSensingLimitedAccuracy,
  .defaulting "mosfet_quality_issues" .boolean healthy.mosfetQualityIssues,
  .defaulting "capacitor_reliability_issues" .boolean healthy.capacitorReliabilityIssues,
  .defaulting "gate_resistor_issues" .boolean healthy.gateResistorIssues,
  .defaulting "voltage_max_absolute" .single healthy.voltageMaxAbsolute,
  .defaulting "current_max_safe" .single healthy.currentMaxSafe,
  .defaulting "voltage_max_safe" .single healthy.voltageMaxSafe,
  .defaulting "hfi_voltage_scale_max" .single healthy.hfiVoltageScaleMax,
  .defaulting "hfi_bandwidth_max" .single healthy.hfiBandwidthMax,
  .defaulting "temp_safety_margin" .single healthy.tempSafetyMargin,
  .defaulting "mosfet_current_limit_conservative" .single
    healthy.mosfetCurrentLimitConservative,
  .defaulting "mosfet_voltage_limit_conservative" .single
    healthy.mosfetVoltageLimitConservative,
  .defaulting "switching_frequency_safe" .word32 healthy.switchingFrequencySafe,
  .defaulting "dead_time_min_ns" .word32 healthy.deadTimeMin,
  .defaulting "temp_estimation_required" .boolean healthy.tempEstimationRequired,
  .defaulting "temp_derating_aggressive" .boolean healthy.tempDeratingAggressive,
  .defaulting "mosfet_failure_detection" .boolean healthy.mosfetFailureDetection,
  .defaulting "ripple_current_limit_factor" .single healthy.rippleCurrentLimitFactor]

/-- A profile as the values of its fields. -/
def toRow (p : Profile) : Row fields :=
  (p.phaseFiltersPresent, p.singleTemperatureSensor, p.currentSensingLowSideOnly,
    p.currentSensingLimitedAccuracy, p.mosfetQualityIssues, p.capacitorReliabilityIssues,
    p.gateResistorIssues, p.voltageMaxAbsolute, p.currentMaxSafe, p.voltageMaxSafe,
    p.hfiVoltageScaleMax, p.hfiBandwidthMax, p.tempSafetyMargin,
    p.mosfetCurrentLimitConservative, p.mosfetVoltageLimitConservative,
    p.switchingFrequencySafe, p.deadTimeMin, p.tempEstimationRequired,
    p.tempDeratingAggressive, p.mosfetFailureDetection, p.rippleCurrentLimitFactor, ())

/-- The profile with the given values. -/
def ofRow : Row fields → Profile
  | (phaseFiltersPresent, singleTemperatureSensor, currentSensingLowSideOnly,
      currentSensingLimitedAccuracy, mosfetQualityIssues, capacitorReliabilityIssues,
      gateResistorIssues, voltageMaxAbsolute, currentMaxSafe, voltageMaxSafe,
      hfiVoltageScaleMax, hfiBandwidthMax, tempSafetyMargin,
      mosfetCurrentLimitConservative, mosfetVoltageLimitConservative,
      switchingFrequencySafe, deadTimeMin, tempEstimationRequired,
      tempDeratingAggressive, mosfetFailureDetection, rippleCurrentLimitFactor, ()) =>
    { phaseFiltersPresent, singleTemperatureSensor, currentSensingLowSideOnly,
      currentSensingLimitedAccuracy, mosfetQualityIssues, capacitorReliabilityIssues,
      gateResistorIssues, voltageMaxAbsolute, currentMaxSafe, voltageMaxSafe,
      hfiVoltageScaleMax, hfiBandwidthMax, tempSafetyMargin,
      mosfetCurrentLimitConservative, mosfetVoltageLimitConservative,
      switchingFrequencySafe, deadTimeMin, tempEstimationRequired,
      tempDeratingAggressive, mosfetFailureDetection, rippleCurrentLimitFactor }

/-- The JSON form of a profile. -/
def codec : Codec Profile := .record "HardwareCapabilityProfile" fields toRow ofRow

end Profile

end BoardHealth
