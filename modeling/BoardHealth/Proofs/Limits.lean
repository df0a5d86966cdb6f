import BoardHealth.Audit
import BoardHealth.Profile.Loading
import BoardHealth.Proofs.NumberOrder

/-!
# What an accepted profile promises

Loading and auditing a profile both look for faults and say nothing of what is
left when there are none. Here is what is left. A profile passes `validate` exactly
if it is `Consistent`: its limits are numbers and lie on the right side of zero and
of each other (`validate_eq_ok_iff`). It passes the audit exactly if no requirement
is found broken (`passed_audit_iff`). An audit alone promises nothing about a limit
that is not a number; with `Consistent` at hand, not beyond a bound means within it.
-/

namespace BoardHealth.Profile

/-- The limits of a profile are numbers that make sense together. -/
structure Consistent (p : Profile) : Prop where
  positive : ∀ entry ∈ p.positiveLimits, entry.2.isFinite = true ∧ 0 < entry.2
  margin : p.tempSafetyMargin.isFinite = true ∧ 0 ≤ p.tempSafetyMargin
  frequency : p.switchingFrequencySafe ≠ 0
  voltage : p.voltageMaxSafe ≤ p.voltageMaxAbsolute
  ripple : p.rippleCurrentLimitFactor.isFinite = true ∧ 0 < p.rippleCurrentLimitFactor
    ∧ p.rippleCurrentLimitFactor ≤ 1

section Faults

variable (p : Profile)

theorem positiveFault?_eq_none_iff (entry : Limit × Single) :
    positiveFault? entry = none ↔ entry.2.isFinite = true ∧ 0 < entry.2 := by
  obtain ⟨limit, value⟩ := entry
  show (if (!value.isFinite) = true then _ else _ : Option ProfileError) = none ↔ _
  cases hfinite : value.isFinite with
  | false => simp
  | true => simp [← Binary.not_le_iff hfinite (y := 0) (by decide)]

theorem marginFault?_eq_none_iff :
    p.marginFault? = none ↔ p.tempSafetyMargin.isFinite = true ∧ 0 ≤ p.tempSafetyMargin := by
  unfold marginFault?
  cases hfinite : p.tempSafetyMargin.isFinite with
  | false => simp
  | true => simp [← Binary.not_lt_iff hfinite (y := 0) (by decide)]

theorem frequencyFault?_eq_none_iff :
    p.frequencyFault? = none ↔ p.switchingFrequencySafe ≠ 0 := by
  simp [frequencyFault?]

theorem voltageFault?_eq_none_iff (hsafe : p.voltageMaxSafe.isFinite = true)
    (habsolute : p.voltageMaxAbsolute.isFinite = true) :
    p.voltageFault? = none ↔ p.voltageMaxSafe ≤ p.voltageMaxAbsolute := by
  rw [← Binary.not_lt_iff habsolute hsafe]
  simp [voltageFault?]

theorem rippleFault?_eq_none_iff :
    p.rippleFault? = none ↔ p.rippleCurrentLimitFactor.isFinite = true
      ∧ 0 < p.rippleCurrentLimitFactor ∧ p.rippleCurrentLimitFactor ≤ 1 := by
  unfold rippleFault?
  cases hfinite : p.rippleCurrentLimitFactor.isFinite with
  | false => simp [hfinite]
  | true =>
    rw [← Binary.not_le_iff hfinite (y := 0) (by decide),
      ← Binary.not_lt_iff (x := 1) (by decide) hfinite]
    simp [hfinite]

end Faults

variable {p : Profile}

/-- A profile has no fault exactly if its limits make sense together. -/
theorem fault?_eq_none_iff : p.fault? = none ↔ p.Consistent := by
  have hparts : p.fault? = none ↔ p.positiveLimits.findSome? positiveFault? = none
      ∧ p.marginFault? = none ∧ p.frequencyFault? = none ∧ p.voltageFault? = none
      ∧ p.rippleFault? = none := by
    simp only [fault?, Option.orElse_eq_orElse, Option.orElse_eq_or, Option.or_eq_none_iff]
  have hpositive : p.positiveLimits.findSome? positiveFault? = none ↔
      ∀ entry ∈ p.positiveLimits, entry.2.isFinite = true ∧ 0 < entry.2 := by
    simp only [List.findSome?_eq_none_iff, positiveFault?_eq_none_iff]
  rw [hparts, hpositive, marginFault?_eq_none_iff, frequencyFault?_eq_none_iff,
    rippleFault?_eq_none_iff]
  -- That the two voltages are numbers is among the first requirements.
  have hvoltages (h : ∀ entry ∈ p.positiveLimits, entry.2.isFinite = true ∧ 0 < entry.2) :
      p.voltageFault? = none ↔ p.voltageMaxSafe ≤ p.voltageMaxAbsolute :=
    p.voltageFault?_eq_none_iff (h (.voltageMaxSafe, p.voltageMaxSafe) (by simp [positiveLimits])).1
      (h (.voltageMaxAbsolute, p.voltageMaxAbsolute) (by simp [positiveLimits])).1
  constructor
  · rintro ⟨hp, hm, hf, hv, hr⟩
    exact ⟨hp, hm, hf, (hvoltages hp).mp hv, hr⟩
  · rintro ⟨hp, hm, hf, hv, hr⟩
    exact ⟨hp, hm, hf, (hvoltages hp).mpr hv, hr⟩

/-- **What validation promises.** A profile is accepted exactly if its limits make
sense together. -/
theorem validate_eq_ok_iff : p.validate = .ok () ↔ p.Consistent := by
  rw [← fault?_eq_none_iff]
  unfold validate
  cases p.fault? <;> simp

/-- An audit lists the requirements that are found broken. -/
theorem mem_violations_iff (v : Violation) :
    v ∈ p.audit.violations.toList ↔ v.isFound p = true := by
  have hall : v ∈ Violation.all := by cases v <;> decide
  show v ∈ Violation.all.filter (·.isFound p) ↔ _
  rw [List.mem_filter]
  exact and_iff_right hall

/-- An audit passes if it lists nothing. -/
theorem passed_iff_eq_nil : p.audit.passed = true ↔ p.audit.violations.toList = [] :=
  List.isEmpty_iff

/-- **What an audit promises.** It passes exactly if no requirement is broken. -/
theorem passed_audit_iff : p.audit.passed = true ↔ ∀ v : Violation, v.isFound p = false := by
  rw [passed_iff_eq_nil, List.eq_nil_iff_forall_not_mem]
  exact forall_congr' fun v => by rw [mem_violations_iff, Bool.not_eq_true]

end BoardHealth.Profile
