import BoardHealth.Proofs.Limits
import BoardHealth.Proofs.Step
import BoardHealth.Proofs.WholeNumbers

/-!
# The bounds of an audit

For each class of defect an audit asks that certain limits keep within bounds. Here the
bounds are written down as they are to be kept (`Violation.bounds`), while an audit looks
for limits that lie beyond them. For numbers the two agree. A limit that is not a number
lies beyond no bound and keeps none (`Bound.isCrossed_iff`), so an audit does not see it:

> `unknown_limit_passes`: the requirement of such a limit is not kept and not listed.
> `mem_violations_iff_crossed`: what an audit lists, for every profile.
-/

namespace BoardHealth

/-- What is asked of a limit. -/
inductive Bound where
  | atMost (limit : Single) (bound : Nat)
  | atLeast (limit : Single) (bound : Nat)
  | wordAtMost (limit bound : UInt32)
  | wordAtLeast (limit bound : UInt32)

namespace Bound

/-- Whether the limit keeps within the bound. -/
def Holds : Bound → Prop
  | atMost limit bound => limit ≤ .ofNat bound
  | atLeast limit bound => .ofNat bound ≤ limit
  | wordAtMost limit bound => limit ≤ bound
  | wordAtLeast limit bound => bound ≤ limit

/-- Whether the limit is not a number. -/
def IsUnknown : Bound → Prop
  | atMost limit _ | atLeast limit _ => limit = .nan
  | wordAtMost _ _ | wordAtLeast _ _ => False

/-- Whether the limit lies beyond the bound. -/
def isCrossed : Bound → Bool
  | atMost limit bound => limit > .ofNat bound
  | atLeast limit bound => limit < .ofNat bound
  | wordAtMost limit bound => limit > bound
  | wordAtLeast limit bound => limit < bound

/-- A limit lies beyond a bound if it is a number that does not keep it. -/
theorem isCrossed_iff (b : Bound) : b.isCrossed = true ↔ ¬b.Holds ∧ ¬b.IsUnknown := by
  have hbound : ∀ n, (.ofNat n : Single) ≠ .nan := fun _ => Binary.signed_ne_nan
  have hword : ∀ {limit bound : UInt32}, bound < limit ↔ ¬limit ≤ bound ∧ ¬False := by
    intro limit bound
    rw [UInt32.not_le]
    exact (and_iff_left not_false).symm
  cases b with
  | atMost limit bound =>
    exact decide_eq_true_iff.trans (Binary.lt_iff_of_left_ne_nan (hbound bound))
  | atLeast limit bound =>
    exact decide_eq_true_iff.trans (Binary.lt_iff_of_right_ne_nan (hbound bound))
  | wordAtMost limit bound => exact decide_eq_true_iff.trans hword
  | wordAtLeast limit bound => exact decide_eq_true_iff.trans hword

end Bound

namespace Violation

/-- Whether the requirement is one for a board like this. -/
def concerns (p : Profile) : Violation → Bool
  | hfiParametersUnsafe => !p.phaseFiltersPresent
  | thermalMarginInsufficient => p.singleTemperatureSensor
  | mosfetLimitsNotConservative => p.mosfetQualityIssues
  | switchingTimingUnsafe => p.gateResistorIssues
  | highVoltageLimitNotConservative => p.voltageMaxAbsolute > 80

/-- What the requirement asks of the limits. -/
def bounds (p : Profile) : Violation → List Bound
  | hfiParametersUnsafe => [.atMost p.hfiVoltageScaleMax 1, .atMost p.hfiBandwidthMax 300]
  | thermalMarginInsufficient => [.atLeast p.tempSafetyMargin 5]
  | mosfetLimitsNotConservative =>
    [.atMost p.mosfetCurrentLimitConservative 200, .atMost p.mosfetVoltageLimitConservative 75]
  | switchingTimingUnsafe =>
    [.wordAtMost p.switchingFrequencySafe 15000, .wordAtLeast p.deadTimeMin 400]
  | highVoltageLimitNotConservative => [.atMost p.voltageMaxSafe 75]

/-- A requirement is found broken if it is one for the board and a limit lies beyond its
bound. -/
theorem isFound_eq (p : Profile) (v : Violation) :
    v.isFound p = (v.concerns p && (v.bounds p).any (·.isCrossed)) := by
  cases v <;> simp only [bounds, List.any_cons, List.any_nil, Bool.or_false] <;> rfl

end Violation

/-- What is asked of a limit that is not a number is not kept, and the audit passes. Here
the board has no phase filters and its voltage scale is not a number. -/
theorem Profile.unknown_limit_passes :
    ¬∀ (p : Profile) (v : Violation), v ∈ p.audit.violations.toList ↔
      v.concerns p = true ∧ ∃ b ∈ v.bounds p, ¬b.Holds := by
  intro h
  let p : Profile :=
    { Profile.healthy with
      phaseFiltersPresent := false
      hfiVoltageScaleMax := .nan
      hfiBandwidthMax := 300 }
  have hbroken : .hfiParametersUnsafe ∈ p.audit.violations.toList := by
    refine (h p .hfiParametersUnsafe).mpr ⟨rfl, .atMost .nan 1, List.mem_cons_self, ?_⟩
    show ¬(.nan : Single) ≤ .ofNat 1
    decide
  exact absurd hbroken (by decide)

/-- **What an audit lists.** For every profile, the audit lists a requirement exactly if it
is one for the board and a limit is a number that does not keep its bound. A limit that is
not a number keeps no bound, but is not listed for that. The list is in order and names
nothing twice, the audit passes if it is empty, and a monitor's audit is that of its board
at all times. -/
theorem Profile.mem_violations_iff_crossed (p : Profile) :
    let listed := p.audit.violations.toList
    (∀ v, v ∈ listed ↔ v.concerns p = true ∧ ∃ b ∈ v.bounds p, ¬b.Holds ∧ ¬b.IsUnknown)
      ∧ listed.Sublist Violation.all ∧ listed.Nodup
      ∧ (p.audit.passed = true ↔ listed = [])
      ∧ ∀ (t : Telemetry) (ops : List Operation), ((Monitor.new p t).run ops).audit = p.audit := by
  intro listed
  have hsublist : listed.Sublist Violation.all := List.filter_sublist
  have hall : Violation.all.Nodup := by decide
  refine ⟨?_, hsublist, hall.sublist hsublist, p.passed_iff_eq_nil, ?_⟩
  · intro v
    rw [p.mem_violations_iff, v.isFound_eq, Bool.and_eq_true, List.any_eq_true]
    simp only [Bound.isCrossed_iff]
  · intro t ops
    show ((Monitor.new p t).run ops).profile.audit = p.audit
    rw [Monitor.run_profile]
    rfl

end BoardHealth
