import BoardHealth.Proofs.Engagement
import BoardHealth.Proofs.Limits

/-!
# Published values are safe to follow

Three parts of the library have a say in what a control loop is told to do. A
profile that validates has limits that are numbers; one that passes the audit has
none beyond a bound that its defects call for; and the latches publish such limits
under conditions of their own. Taken together they leave no gap: each limit that is
published was audited, because the defect that engages its protection is the one
for which the audit looks at it (`Consistent.margin_of_passed` and its like). So

> `overrides_within_bounds`: on a board that passes both, whatever is published is
> safe, and nothing is published for a defect that the board does not have.
-/

namespace BoardHealth

/-- Overrides that are safe to follow: each parameter that has a value lies within
bounds and is a number. -/
structure Overrides.WithinBounds (o : Overrides) : Prop where
  hfiInjectionVoltageMax :
    ∀ v, o.hfiInjectionVoltageMax = some v → v.isFinite = true ∧ v ≤ 1
  hfiBandwidthMax : ∀ v, o.hfiBandwidthMax = some v → v.isFinite = true ∧ v ≤ 300
  tempSafetyMargin : ∀ v, o.tempSafetyMargin = some v → v.isFinite = true ∧ 5 ≤ v
  fetDerateStart : ∀ v, o.fetDerateStart = some v → v.isFinite = true
  fetDerateEnd : ∀ v, o.fetDerateEnd = some v → v.isFinite = true
  motorDerateStart : ∀ v, o.motorDerateStart = some v → v.isFinite = true
  motorDerateEnd : ∀ v, o.motorDerateEnd = some v → v.isFinite = true
  currentMax : ∀ v, o.currentMax = some v → v.isFinite = true ∧ 0 < v ∧ v ≤ 200
  voltageMax : ∀ v, o.voltageMax = some v → v.isFinite = true ∧ 0 < v ∧ v ≤ 75
  rippleCurrentLimitFactor :
    ∀ v, o.rippleCurrentLimitFactor = some v → v.isFinite = true ∧ 0 < v ∧ v ≤ 1
  switchingFrequency : ∀ v, o.switchingFrequency = some v → 1 ≤ v ∧ v ≤ 15000
  deadTime : ∀ v, o.deadTime = some v → 400 ≤ v
  fieldWeakeningThreshold : ∀ v, o.fieldWeakeningThreshold = some v → v.isFinite = true

namespace Profile.Consistent

variable {p : Profile} (h : p.Consistent) (hpassed : p.audit.passed = true)

include h hpassed

/-- With a single sensor, the margin was audited. -/
theorem margin_of_passed (hdefect : Defect.thermal.isActive p = true) :
    p.tempSafetyMargin.isFinite = true ∧ 5 ≤ p.tempSafetyMargin := by
  have hdefect : p.singleTemperatureSensor = true := hdefect
  have hfound := passed_audit_iff.mp hpassed .thermalMarginInsufficient
  rw [Violation.isFound, hdefect, Bool.true_and, decide_eq_false_iff_not] at hfound
  exact ⟨h.margin.1, (Binary.not_lt_iff h.margin.1 (by decide)).mp hfound⟩

/-- With doubtful MOSFETs, their limits were audited. -/
theorem mosfet_of_passed (hdefect : Defect.mosfet.isActive p = true) :
    (p.mosfetCurrentLimitConservative.isFinite = true ∧ 0 < p.mosfetCurrentLimitConservative
        ∧ p.mosfetCurrentLimitConservative ≤ 200)
      ∧ (p.mosfetVoltageLimitConservative.isFinite = true ∧ 0 < p.mosfetVoltageLimitConservative
        ∧ p.mosfetVoltageLimitConservative ≤ 75) := by
  have hdefect : p.mosfetQualityIssues = true := hdefect
  have hfound := passed_audit_iff.mp hpassed .mosfetLimitsNotConservative
  rw [Violation.isFound, hdefect, Bool.true_and, Bool.or_eq_false_iff, decide_eq_false_iff_not,
    decide_eq_false_iff_not] at hfound
  obtain ⟨hcurrent, hpos⟩ := h.positive
    (.mosfetCurrentLimitConservative, p.mosfetCurrentLimitConservative) (by simp [positiveLimits])
  obtain ⟨hvoltage, hpos'⟩ := h.positive
    (.mosfetVoltageLimitConservative, p.mosfetVoltageLimitConservative) (by simp [positiveLimits])
  exact ⟨⟨hcurrent, hpos, (Binary.not_lt_iff (by decide) hcurrent).mp hfound.1⟩,
    ⟨hvoltage, hpos', (Binary.not_lt_iff (by decide) hvoltage).mp hfound.2⟩⟩

/-- With marginal gate resistors, the timing was audited. -/
theorem timing_of_passed (hdefect : Defect.gateDriver.isActive p = true) :
    (1 ≤ p.switchingFrequencySafe ∧ p.switchingFrequencySafe ≤ 15000) ∧ 400 ≤ p.deadTimeMin := by
  have hdefect : p.gateResistorIssues = true := hdefect
  have hfound := passed_audit_iff.mp hpassed .switchingTimingUnsafe
  rw [Violation.isFound, hdefect, Bool.true_and, Bool.or_eq_false_iff, decide_eq_false_iff_not,
    decide_eq_false_iff_not] at hfound
  have hpos : p.switchingFrequencySafe.toNat ≠ 0 := fun h0 =>
    h.frequency (UInt32.toNat_inj.mp h0)
  exact ⟨⟨UInt32.le_iff_toNat_le.mpr (Nat.one_le_iff_ne_zero.mpr hpos), UInt32.not_lt.mp hfound.1⟩,
    UInt32.not_lt.mp hfound.2⟩

end Profile.Consistent

/-- What latches publish that serve one board only, if it validates and passes the
audit, is safe to follow. -/
theorem Latches.Serves.withinBounds {l : Latches} {p : Profile} (h : l.Serves p)
    (hconsistent : p.Consistent) (hpassed : p.audit.passed = true) :
    l.overrides.WithinBounds where
  hfiInjectionVoltageMax v hv := by
    obtain ⟨-, rfl⟩ :=
      h.eq_of_published .phaseFilter (·.hfiInjectionVoltageMax) (fun _ => rfl) rfl rfl hv
    decide
  hfiBandwidthMax v hv := by
    obtain ⟨-, rfl⟩ := h.eq_of_published .phaseFilter (·.hfiBandwidthMax) (fun _ => rfl) rfl rfl hv
    decide
  tempSafetyMargin v hv := by
    obtain ⟨hdefect, rfl⟩ :=
      h.eq_of_published .thermal (·.tempSafetyMargin) (fun _ => rfl) rfl rfl hv
    exact hconsistent.margin_of_passed hpassed hdefect
  fetDerateStart v hv := by
    obtain ⟨-, rfl⟩ := h.eq_of_published .thermal (·.fetDerateStart) (fun _ => rfl) rfl rfl hv
    decide
  fetDerateEnd v hv := by
    obtain ⟨-, rfl⟩ := h.eq_of_published .thermal (·.fetDerateEnd) (fun _ => rfl) rfl rfl hv
    decide
  motorDerateStart v hv := by
    obtain ⟨-, rfl⟩ := h.eq_of_published .thermal (·.motorDerateStart) (fun _ => rfl) rfl rfl hv
    decide
  motorDerateEnd v hv := by
    obtain ⟨-, rfl⟩ := h.eq_of_published .thermal (·.motorDerateEnd) (fun _ => rfl) rfl rfl hv
    decide
  currentMax v hv := by
    obtain ⟨hdefect, rfl⟩ := h.eq_of_published .mosfet (·.currentMax) (fun _ => rfl) rfl rfl hv
    exact (hconsistent.mosfet_of_passed hpassed hdefect).1
  voltageMax v hv := by
    obtain ⟨hdefect, rfl⟩ := h.eq_of_published .mosfet (·.voltageMax) (fun _ => rfl) rfl rfl hv
    exact (hconsistent.mosfet_of_passed hpassed hdefect).2
  rippleCurrentLimitFactor v hv := by
    obtain ⟨-, rfl⟩ :=
      h.eq_of_published .capacitor (·.rippleCurrentLimitFactor) (fun _ => rfl) rfl rfl hv
    exact hconsistent.ripple
  switchingFrequency v hv := by
    obtain ⟨hdefect, rfl⟩ :=
      h.eq_of_published .gateDriver (·.switchingFrequency) (fun _ => rfl) rfl rfl hv
    exact (hconsistent.timing_of_passed hpassed hdefect).1
  deadTime v hv := by
    obtain ⟨hdefect, rfl⟩ := h.eq_of_published .gateDriver (·.deadTime) (fun _ => rfl) rfl rfl hv
    exact (hconsistent.timing_of_passed hpassed hdefect).2
  fieldWeakeningThreshold v hv := by
    obtain ⟨-, rfl⟩ :=
      h.eq_of_published .highVoltage (·.fieldWeakeningThreshold) (fun _ => rfl) rfl rfl hv
    decide

namespace Monitor

/-- **Published values are safe to follow.** Let the profile of a board validate and
pass the audit. Whatever is asked of its monitor and in whatever order, each
parameter published lies within its bounds and is a number, and the parameters of a
class of defect that the board does not have are left to the control loop. -/
theorem overrides_within_bounds (p : Profile) (t : Telemetry) (ops : List Operation)
    (hvalid : p.validate = .ok ()) (hpassed : p.audit.passed = true) :
    let o := ((new p t).run ops).latches.overrides
    o.WithinBounds ∧ ∀ d, d.isActive p = false → o.only d = .empty := by
  intro o
  have hserves : ((new p t).run ops).latches.Serves p := serves_of_run p t ops
  refine ⟨hserves.withinBounds (Profile.validate_eq_ok_iff.mp hvalid) hpassed, ?_⟩
  intro d hinactive
  have hreleased : ((new p t).run ops).latches.isApplied d = false := by
    rw [Bool.eq_false_iff]
    intro happlied
    rw [hserves.isActive d happlied] at hinactive
    exact Bool.noConfusion hinactive
  rw [hserves.only, hreleased]
  cases d <;> rfl

/-- A board that has every defect, one limit of which lies right on its bound. Its
protections engage before the start, are released, and engage again. -/
theorem overrides_within_bounds_of_every_defect :
    let p : Profile := { Profile.flipsky75200ProV2 with
      hfiVoltageScaleMax := 1, mosfetCurrentLimitConservative := 200, deadTimeMin := 400 }
    let t : Telemetry := { motorTemp := .nan, inputVoltage := .infinity }
    let ops : List Operation := [.apply .mosfet, .validate 1, .start 2, .resetLatches,
      .apply .gateDriver, .update 2000000, .apply .mosfet]
    let o := ((new p t).run ops).latches.overrides
    p.validate = .ok () ∧ p.audit.passed = true
      ∧ o.currentMax = some 200 ∧ o.deadTime = some 400 ∧ o.tempSafetyMargin = none
      ∧ o.WithinBounds ∧ ∀ d, d.isActive p = false → o.only d = .empty := by
  intro p t ops o
  have hvalid : p.validate = .ok () := by rfl
  have hpassed : p.audit.passed = true := by decide
  exact ⟨hvalid, hpassed, by decide, by decide, by decide,
    overrides_within_bounds p t ops hvalid hpassed⟩

end Monitor

end BoardHealth
