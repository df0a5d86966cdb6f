import BoardHealth.Profile

/-!
# Loading profiles

A profile is accepted if its limits make sense together; whether they are
cautious enough for the board's defects is for the audit to say. The limits are
looked at in a fixed order, and the first fault found is reported.
-/

namespace BoardHealth

/-- The limits that are looked at one by one. -/
inductive Limit where
  | voltageMaxAbsolute
  | currentMaxSafe
  | voltageMaxSafe
  | hfiVoltageScaleMax
  | hfiBandwidthMax
  | mosfetCurrentLimitConservative
  | mosfetVoltageLimitConservative
  | tempSafetyMargin
  | switchingFrequencySafe
deriving DecidableEq

/-- The name of a limit, as documents give it. -/
def Limit.name : Limit → String
  | voltageMaxAbsolute => "voltage_max_absolute"
  | currentMaxSafe => "current_max_safe"
  | voltageMaxSafe => "voltage_max_safe"
  | hfiVoltageScaleMax => "hfi_voltage_scale_max"
  | hfiBandwidthMax => "hfi_bandwidth_max"
  | mosfetCurrentLimitConservative => "mosfet_current_limit_conservative"
  | mosfetVoltageLimitConservative => "mosfet_voltage_limit_conservative"
  | tempSafetyMargin => "temp_safety_margin"
  | switchingFrequencySafe => "switching_frequency_safe"

/-- Why a profile is refused. -/
inductive ProfileError where
  /-- The document is no profile. -/
  | unreadable (cause : Json.DecodeError)
  | notFinite (limit : Limit)
  | notPositive (limit : Limit) (value : Single)
  /-- The board is to be run at more than it may ever see. -/
  | safeVoltageAboveAbsolute (safe absolute : Single)
  | rippleFactorOutOfRange (factor : Single)
deriving DecidableEq

/-- The wording of a refusal. -/
def ProfileError.message : ProfileError → String
  | unreadable cause => "Failed to parse hardware profile: " ++ cause.message
  | notFinite limit => "Profile limit '" ++ limit.name ++ "' is not a finite number"
  | notPositive limit value =>
    "Profile limit '" ++ limit.name ++ "' must be positive, got " ++ value.plainText
  | safeVoltageAboveAbsolute safe absolute =>
    "Safe voltage " ++ safe.plainText ++ "V exceeds absolute maximum "
      ++ absolute.plainText ++ "V"
  | rippleFactorOutOfRange factor =>
    "Ripple current limit factor " ++ factor.plainText ++ " outside (0, 1]"

namespace Profile

/-- The limits that have to be positive. -/
def positiveLimits (p : Profile) : List (Limit × Single) := [
  (.voltageMaxAbsolute, p.voltageMaxAbsolute),
  (.currentMaxSafe, p.currentMaxSafe),
  (.voltageMaxSafe, p.voltageMaxSafe),
  (.hfiVoltageScaleMax, p.hfiVoltageScaleMax),
  (.hfiBandwidthMax, p.hfiBandwidthMax),
  (.mosfetCurrentLimitConservative, p.mosfetCurrentLimitConservative),
  (.mosfetVoltageLimitConservative, p.mosfetVoltageLimitConservative)]

/-- What is wrong with a limit that has to be positive. -/
def positiveFault? : Limit × Single → Option ProfileError
  | (limit, value) =>
    if !value.isFinite then some (.notFinite limit)
    else if value ≤ 0 then some (.notPositive limit value)
    else none

/-- What is wrong with the temperature margin, which may be zero. -/
def marginFault? (p : Profile) : Option ProfileError :=
  if !p.tempSafetyMargin.isFinite then some (.notFinite .tempSafetyMargin)
  else if p.tempSafetyMargin < 0 then some (.notPositive .tempSafetyMargin p.tempSafetyMargin)
  else none

/-- What is wrong with the switching frequency. -/
def frequencyFault? (p : Profile) : Option ProfileError :=
  if p.switchingFrequencySafe = 0 then some (.notPositive .switchingFrequencySafe 0)
  else none

/-- What is wrong with the two voltages together. -/
def voltageFault? (p : Profile) : Option ProfileError :=
  if p.voltageMaxSafe > p.voltageMaxAbsolute then
    some (.safeVoltageAboveAbsolute p.voltageMaxSafe p.voltageMaxAbsolute)
  else none

/-- What is wrong with the ripple current factor, which lies in `(0, 1]`. -/
def rippleFault? (p : Profile) : Option ProfileError :=
  let factor := p.rippleCurrentLimitFactor
  if !factor.isFinite ∨ factor ≤ 0 ∨ factor > 1 then some (.rippleFactorOutOfRange factor)
  else none

/-- The first thing that is wrong with a profile. -/
def fault? (p : Profile) : Option ProfileError :=
  p.positiveLimits.findSome? positiveFault? <|> p.marginFault? <|> p.frequencyFault?
    <|> p.voltageFault? <|> p.rippleFault?

/-- Accepts a profile that has no fault. -/
def validate (p : Profile) : Except ProfileError Unit :=
  match p.fault? with
  | some e => .error e
  | none => .ok ()

/-- The profile that a document describes, if it is acceptable. -/
def load (text : String) : Except ProfileError Profile :=
  match codec.decode text with
  | .error cause => .error (.unreadable cause)
  | .ok p => p.validate.map fun _ => p

end Profile

end BoardHealth
