import BoardHealth.Profile

/-!
# Defects and their protections

Six classes of defect are known, and each has one protection: cautious values for
a few parameters of the control loop. A protection takes its values from the
profile of the board, or is the same for all boards.
-/

namespace BoardHealth

/-- The known classes of defect. -/
inductive Defect where
  | phaseFilter
  | thermal
  | mosfet
  | capacitor
  | gateDriver
  | highVoltage
deriving DecidableEq

namespace Defect

/-- All classes, in the order in which their protections engage. -/
def all : List Defect := [phaseFilter, thermal, mosfet, capacitor, gateDriver, highVoltage]

/-- The place of a class in that order. -/
def index : Defect → Fin 6
  | phaseFilter => 0
  | thermal => 1
  | mosfet => 2
  | capacitor => 3
  | gateDriver => 4
  | highVoltage => 5

/-- The name of a class in documents. -/
def name : Defect → String
  | phaseFilter => "PhaseFilter"
  | thermal => "Thermal"
  | mosfet => "Mosfet"
  | capacitor => "Capacitor"
  | gateDriver => "GateDriver"
  | highVoltage => "HighVoltage"

/-- The name of a class in logs. -/
def code : Defect → String
  | phaseFilter => "PHASE_FILTER_SAFETY"
  | thermal => "THERMAL_SAFETY"
  | mosfet => "MOSFET_SAFETY"
  | capacitor => "CAPACITOR_SAFETY"
  | gateDriver => "GATE_DRIVER_SAFETY"
  | highVoltage => "HIGH_VOLTAGE_SAFETY"

/-- Whether a board has the defect. A pack above 75 V counts as one. -/
def isActive (p : Profile) : Defect → Bool
  | phaseFilter => !p.phaseFiltersPresent
  | thermal => p.singleTemperatureSensor
  | mosfet => p.mosfetQualityIssues
  | capacitor => p.capacitorReliabilityIssues
  | gateDriver => p.gateResistorIssues
  | highVoltage => p.voltageMaxAbsolute > 75

/-- The JSON form of a class. -/
def codec : Json.Codec Defect := .choice all name

end Defect

/-- The values that a protection sets. -/
inductive Protection where
  /-- Bounds for the signal injected by the position estimator. -/
  | phaseFilter (injectionVoltage bandwidth : Single)
  /-- A margin, and the temperatures between which power stage and motor are
  derated. -/
  | thermal (margin fetStart fetEnd motorStart motorEnd : Single)
  | mosfet (current voltage : Single)
  | capacitor (rippleFactor : Single)
  | gateDriver (switchingFrequency deadTime : UInt32)
  /-- The voltage at which field weakening sets in. -/
  | highVoltage (fieldWeakening : Single)
deriving DecidableEq

namespace Protection

/-- The class of defect that the protection is for. -/
def defect : Protection → Defect
  | phaseFilter .. => .phaseFilter
  | thermal .. => .thermal
  | mosfet .. => .mosfet
  | capacitor .. => .capacitor
  | gateDriver .. => .gateDriver
  | highVoltage .. => .highVoltage

end Protection

/-- The protection of a board against a class of defect. -/
def Defect.protection (p : Profile) : Defect → Protection
  | phaseFilter => .phaseFilter 0.5 200
  | thermal => .thermal p.tempSafetyMargin 80 90 75 85
  | mosfet => .mosfet p.mosfetCurrentLimitConservative p.mosfetVoltageLimitConservative
  | capacitor => .capacitor p.rippleCurrentLimitFactor
  | gateDriver => .gateDriver p.switchingFrequencySafe p.deadTimeMin
  | highVoltage => .highVoltage 60

end BoardHealth
