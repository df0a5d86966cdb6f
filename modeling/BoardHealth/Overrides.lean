import BoardHealth.Defect

/-!
# Overrides

The cautious values in force, published for the control loop to pick up. Each
protection sets a group of parameters of its own.
-/

namespace BoardHealth

/-- The parameters that protections set. A parameter without a value is left to
the control loop. -/
structure Overrides where
  hfiInjectionVoltageMax : Option Single := none
  hfiBandwidthMax : Option Single := none
  hfiConservativeMode : Bool := false
  tempEstimationEnabled : Bool := false
  aggressiveDerating : Bool := false
  tempSafetyMargin : Option Single := none
  fetDerateStart : Option Single := none
  fetDerateEnd : Option Single := none
  motorDerateStart : Option Single := none
  motorDerateEnd : Option Single := none
  currentMax : Option Single := none
  voltageMax : Option Single := none
  mosfetFailureDetection : Bool := false
  rippleCurrentLimitFactor : Option Single := none
  capacitorMonitoring : Bool := false
  switchingFrequency : Option UInt32 := none
  deadTime : Option UInt32 := none
  fieldWeakeningThreshold : Option Single := none
  highVoltageMode : Bool := false
deriving DecidableEq

namespace Overrides

/-- Nothing is overridden. -/
def empty : Overrides := {}

/-- Whether anything is overridden, be it with a value that is not a number. -/
def isAny (o : Overrides) : Bool := o ≠ empty

/-- The overrides with a protection in force. -/
def publish (o : Overrides) : Protection → Overrides
  | .phaseFilter injectionVoltage bandwidth =>
    { o with
      hfiInjectionVoltageMax := injectionVoltage
      hfiBandwidthMax := bandwidth
      hfiConservativeMode := true }
  | .thermal margin fetStart fetEnd motorStart motorEnd =>
    { o with
      tempEstimationEnabled := true
      aggressiveDerating := true
      tempSafetyMargin := margin
      fetDerateStart := fetStart
      fetDerateEnd := fetEnd
      motorDerateStart := motorStart
      motorDerateEnd := motorEnd }
  | .mosfet current voltage =>
    { o with
      currentMax := current
      voltageMax := voltage
      mosfetFailureDetection := true }
  | .capacitor rippleFactor =>
    { o with
      rippleCurrentLimitFactor := rippleFactor
      capacitorMonitoring := true }
  | .gateDriver switchingFrequency deadTime =>
    { o with
      switchingFrequency := switchingFrequency
      deadTime := deadTime }
  | .highVoltage fieldWeakening =>
    { o with
      fieldWeakeningThreshold := fieldWeakening
      highVoltageMode := true }

/-! ## JSON form -/

open Json (Field Codec Row)

/-- The fields of the overrides. -/
abbrev fields : List Field := [
  .optional "hfi_injection_voltage_max" .single,
  .optional "hfi_bandwidth_max_hz" .single,
  .required "hfi_conservative_mode" .boolean,
  .required "temp_estimation_enabled" .boolean,
  .required "aggressive_derating" .boolean,
  .optional "temp_safety_margin_c" .single,
  .optional "fet_derate_start_c" .single,
  .optional "fet_derate_end_c" .single,
  .optional "motor_derate_start_c" .single,
  .optional "motor_derate_end_c" .single,
  .optional "current_max" .single,
  .optional "voltage_max" .single,
  .required "mosfet_failure_detection" .boolean,
  .optional "ripple_current_limit_factor" .single,
  .required "capacitor_monitoring" .boolean,
  .optional "switching_frequency_hz" .word32,
  .optional "dead_time_ns" .word32,
  .optional "field_weakening_threshold_v" .single,
  .required "high_voltage_mode" .boolean]

/-- The overrides as the values of their fields. -/
def toRow (o : Overrides) : Row fields :=
  (o.hfiInjectionVoltageMax, o.hfiBandwidthMax, o.hfiConservativeMode,
    o.tempEstimationEnabled, o.aggressiveDerating, o.tempSafetyMargin, o.fetDerateStart,
    o.fetDerateEnd, o.motorDerateStart, o.motorDerateEnd, o.currentMax, o.voltageMax,
    o.mosfetFailureDetection, o.rippleCurrentLimitFactor, o.capacitorMonitoring,
    o.switchingFrequency, o.deadTime, o.fieldWeakeningThreshold, o.highVoltageMode, ())

/-- The overrides with the given values. -/
def ofRow : Row fields → Overrides
  | (hfiInjectionVoltageMax, hfiBandwidthMax, hfiConservativeMode, tempEstimationEnabled,
      aggressiveDerating, tempSafetyMargin, fetDerateStart, fetDerateEnd, motorDerateStart,
      motorDerateEnd, currentMax, voltageMax, mosfetFailureDetection,
      rippleCurrentLimitFactor, capacitorMonitoring, switchingFrequency, deadTime,
      fieldWeakeningThreshold, highVoltageMode, ()) =>
    { hfiInjectionVoltageMax, hfiBandwidthMax, hfiConservativeMode, tempEstimationEnabled,
      aggressiveDerating, tempSafetyMargin, fetDerateStart, fetDerateEnd, motorDerateStart,
      motorDerateEnd, currentMax, voltageMax, mosfetFailureDetection,
      rippleCurrentLimitFactor, capacitorMonitoring, switchingFrequency, deadTime,
      fieldWeakeningThreshold, highVoltageMode }

/-- The JSON form of the overrides. -/
def codec : Codec Overrides := .record "SafetyOverrides" fields toRow ofRow

end Overrides

end BoardHealth
