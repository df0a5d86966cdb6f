import BoardHealth.Proofs.Score

/-!
# Every deduction is exact

What a pass takes off is told here on its own, in two tables: six defects of a board cost
points, two of them twice, and three kinds of reading do (`ScoredDefect.table`,
`Excursion.table`). The score is 100 less the points that are taken off, to the last bit,
since every number that it goes through is whole and small (`isExactly_deduct_take`), and
it never comes near the bounds that it is held between.

> `lost_set`: what a defect costs does not depend on the others.
> `exact_pass`: the score, the counters and the flags of a pass, for any board and any
> readings, those that are not numbers included.
-/

namespace BoardHealth

namespace Check

variable (costs : List (Bool × Nat))

/-- The deductions that are made, in order. -/
def made : List Nat := (costs.filter (·.1)).map (·.2)

/-- What is lost is the sum of the deductions. -/
theorem sum_made : (made costs).sum = lost costs := by
  unfold made
  induction costs with
  | nil => rfl
  | cons cost costs ih =>
    obtain ⟨holds, points⟩ := cost
    rw [lost_cons, ← ih]
    cases holds with
    | false => exact (Nat.zero_add _).symm
    | true => exact List.sum_cons

/-- There are as many deductions as conditions that hold. -/
theorem length_made : (made costs).length = (costs.map (·.1)).count true := by
  unfold made
  rw [List.length_map, ← List.countP_eq_length_filter, List.count, List.countP_map]
  exact List.countP_congr fun cost _ => by simp

/-- There are no more deductions than conditions. -/
theorem length_made_le : (made costs).length ≤ costs.length := by
  unfold made
  rw [List.length_map]
  exact List.length_filter_le ..

end Check

/-! ## The board -/

/-- The defects that cost a board points. -/
inductive ScoredDefect where
  | phaseFilters
  | temperatureSensor
  | currentSensing
  | mosfets
  | capacitors
  | gateResistors
deriving DecidableEq

namespace ScoredDefect

/-- The deductions, in the order in which a pass makes them. -/
def table : List (ScoredDefect × Nat) := [
  (phaseFilters, 15),
  (temperatureSensor, 10),
  (currentSensing, 8),
  (mosfets, 12),
  (capacitors, 8),
  (gateResistors, 7),
  (temperatureSensor, 5),
  (mosfets, 8)]

/-- What the defect costs in all. -/
def points : ScoredDefect → Nat
  | phaseFilters => 15
  | temperatureSensor => 10 + 5
  | currentSensing => 8
  | mosfets => 12 + 8
  | capacitors => 8
  | gateResistors => 7

/-- Whether a board has the defect. -/
def isPresent (p : Profile) : ScoredDefect → Bool
  | phaseFilters => !p.phaseFiltersPresent
  | temperatureSensor => p.singleTemperatureSensor
  | currentSensing => p.currentSensingLimitedAccuracy
  | mosfets => p.mosfetQualityIssues
  | capacitors => p.capacitorReliabilityIssues
  | gateResistors => p.gateResistorIssues

/-- The board with the defect or without it, and otherwise as it is. -/
def set (p : Profile) (present : Bool) : ScoredDefect → Profile
  | phaseFilters => { p with phaseFiltersPresent := !present }
  | temperatureSensor => { p with singleTemperatureSensor := present }
  | currentSensing => { p with currentSensingLimitedAccuracy := present }
  | mosfets => { p with mosfetQualityIssues := present }
  | capacitors => { p with capacitorReliabilityIssues := present }
  | gateResistors => { p with gateResistorIssues := present }

/-- What a table of deductions has for a board. -/
def costsIn (table : List (ScoredDefect × Nat)) (p : Profile) : List (Bool × Nat) :=
  table.map fun entry => (entry.1.isPresent p, entry.2)

theorem sum_table (d : ScoredDefect) : ((table.filter (·.1 = d)).map (·.2)).sum = d.points := by
  cases d <;> rfl

/-- Only the defect itself is set. -/
theorem isPresent_set (p : Profile) (present : Bool) (d e : ScoredDefect) :
    e.isPresent (d.set p present) = if e = d then present else e.isPresent p := by
  cases d <;> cases e <;> first | rfl | exact Bool.not_not present

/-- A defect costs the deductions that a table has for it, whatever else is wrong with the
board. -/
theorem lost_set (p : Profile) (d : ScoredDefect) (table : List (ScoredDefect × Nat)) :
    Check.lost (costsIn table (d.set p true)) =
      Check.lost (costsIn table (d.set p false)) + ((table.filter (·.1 = d)).map (·.2)).sum := by
  induction table with
  | nil => rfl
  | cons entry table ih =>
    obtain ⟨e, points⟩ := entry
    have hcons : ∀ present, Check.lost (costsIn ((e, points) :: table) (d.set p present)) =
        (if e.isPresent (d.set p present) then points else 0)
          + Check.lost (costsIn table (d.set p present)) :=
      fun present => Check.lost_cons ..
    rw [hcons, hcons, isPresent_set, isPresent_set, ih]
    by_cases hsame : e = d
    · rw [if_pos hsame, if_pos hsame, if_pos rfl, if_neg Bool.false_ne_true,
        List.filter_cons_of_pos (by simpa using hsame), List.map_cons, List.sum_cons]
      omega
    · rw [if_neg hsame, if_neg hsame, List.filter_cons_of_neg (by simpa using hsame)]
      omega

end ScoredDefect

/-! ## The readings -/

/-- The readings that cost points when they are out of range, or unknown. -/
inductive Excursion where
  | temperature
  | voltage
  | current

namespace Excursion

/-- The deductions, in the order in which a pass makes them. -/
def table : List (Excursion × Nat) := [(temperature, 5), (voltage, 3), (current, 3)]

/-- Whether a reading is out of range, or unknown. -/
def isPresent (p : Profile) (t : Telemetry) : Excursion → Bool
  | temperature => t.motorTemp.isFinite = false ∨ t.fetTemp.isFinite = false
      ∨ 85 < t.motorTemp ∨ 85 < t.fetTemp
  | voltage => t.inputVoltage.isFinite = false ∨ t.inputVoltage < 10
      ∨ p.voltageMaxSafe < t.inputVoltage
  | current => t.totalCurrent.isFinite = false ∨ p.currentMaxSafe < t.totalCurrent.abs

/-- What the readings cost. -/
def costs (p : Profile) (t : Telemetry) : List (Bool × Nat) :=
  table.map fun entry => (entry.1.isPresent p t, entry.2)

/-- These are the conditions that a pass looks at. -/
theorem map_fst_costs (p : Profile) (t : Telemetry) : (costs p t).map (·.1) = t.faults p := by
  have htemperature : temperature.isPresent p t = t.isTooHot := by
    simp [isPresent, Telemetry.isTooHot, Bool.or_assoc]
  have hvoltage : voltage.isPresent p t = t.isVoltageOutOfRange p := by
    simp [isPresent, Telemetry.isVoltageOutOfRange, Bool.or_assoc,
      Bool.or_comm (decide (t.inputVoltage < 10))]
  have hcurrent : current.isPresent p t = t.isOverCurrent p := by
    simp [isPresent, Telemetry.isOverCurrent]
  show [temperature.isPresent p t, voltage.isPresent p t, current.isPresent p t] = _
  rw [htemperature, hvoltage, hcurrent]
  rfl

end Excursion

/-! ## A pass -/

section Pass

variable (p : Profile) (t : Telemetry)

/-- A pass looks at what the two tables have. -/
theorem costs_eq :
    costs p t = ScoredDefect.costsIn ScoredDefect.table p ++ Excursion.costs p t := by
  have hreadings : Excursion.costs p t = ((Excursion.costs p t).map (·.1)).zip [5, 3, 3] := rfl
  rw [hreadings, Excursion.map_fst_costs]
  rfl

/-- The points lost at any time of a pass are not more than those lost in the end. -/
theorem lost_take_le (costs : List (Bool × Nat)) (k : Nat) :
    Check.lost (costs.take k) ≤ Check.lost costs := by
  have hsplit := Check.lost_append (costs.take k) (costs.drop k)
  rw [List.take_append_drop] at hsplit
  omega

/-- After each condition the score is exactly what is left of 100. -/
theorem isExactly_deduct_take (k : Nat) :
    (Check.deduct 100 ((p.checks ++ t.checks p).take k)).IsExactly
      (100 - Check.lost ((costs p t).take k)) := by
  have hlost := lost_costs_le p t
  have hsofar := lost_take_le (costs p t) k
  show (Check.deduct (.ofNat 100) ((p.checks ++ t.checks p).take k)).IsExactly _
  rw [checks_eq, ← List.map_take, Check.deduct_ofNat (by decide) (by omega)]
  exact Binary.isExactly_ofNat (by omega)

/-- The bounds that the score is held between change nothing. -/
theorem score_eq_deduct : (diagnose p t).score = Check.deduct 100 (p.checks ++ t.checks p) := by
  have hlost := lost_costs_le p t
  have hdeduct : Check.deduct (.ofNat 100) (p.checks ++ t.checks p) =
      .ofNat (100 - Check.lost (costs p t)) := by
    rw [checks_eq, Check.deduct_ofNat (by decide) (by omega)]
  rw [score_diagnose, ← hdeduct]
  rfl

/-- What is lost to a defect is lost in any pass. -/
theorem lost_costs_set (d : ScoredDefect) :
    Check.lost (costs (d.set p true) t) = Check.lost (costs (d.set p false) t) + d.points := by
  have hreadings : Excursion.costs (d.set p true) t = Excursion.costs (d.set p false) t := by
    cases d <;> rfl
  rw [costs_eq, costs_eq, Check.lost_append, Check.lost_append, ScoredDefect.lost_set,
    d.sum_table, hreadings]
  omega

/-- The score of a board with the defect is lower by what the defect costs. -/
theorem score_sub_score_set (d : ScoredDefect) :
    (diagnose (d.set p false) t).score - (diagnose (d.set p true) t).score = .ofNat d.points := by
  have hset := lost_costs_set p t d
  have hworse := lost_costs_le (d.set p true) t
  rw [score_diagnose, score_diagnose, Binary.ofNat_sub_ofNat (by omega) (by omega)]
  refine congrArg Binary.ofNat ?_
  omega

end Pass

/-- **Every deduction is exact.** Take any board and any readings. The score of a pass is
exactly 100 less the points for the defects and for the readings out of range, which are
at most 84; so it is at every stage of the pass, and the bounds that it is held between
change nothing. The pass counts the deductions of each kind. A defect costs the same
points whatever else is wrong and whatever is read, and the flags are those of the board. -/
theorem exact_pass (p : Profile) (t : Telemetry) :
    let s := diagnose p t
    let board := Check.made (ScoredDefect.costsIn ScoredDefect.table p)
    let readings := Check.made (Excursion.costs p t)
    s.score.IsExactly (100 - (board.sum + readings.sum))
      ∧ board.sum + readings.sum ≤ 84
      ∧ (∀ k, (Check.deduct 100 ((p.checks ++ t.checks p).take k)).IsExactly
          (100 - Check.lost
            ((ScoredDefect.costsIn ScoredDefect.table p ++ Excursion.costs p t).take k)))
      ∧ s.score = Check.deduct 100 (p.checks ++ t.checks p)
      ∧ s.warnings.toNat = board.length ∧ board.length ≤ 8
      ∧ s.faults.toNat = readings.length ∧ readings.length ≤ 3
      ∧ (∀ d : ScoredDefect, (diagnose (d.set p false) t).score
          - (diagnose (d.set p true) t).score = .ofNat d.points)
      ∧ s = {
          phaseFilterPresent := p.phaseFiltersPresent
          temperatureSensorValid := !p.singleTemperatureSensor
          currentSensingCalibrated := !p.currentSensingLimitedAccuracy
          mosfetHealthOk := !p.mosfetQualityIssues
          capacitorHealthOk := !p.capacitorReliabilityIssues
          gateDriverOk := !p.gateResistorIssues
          thermalEstimationEnabled := p.tempEstimationRequired
          thermalProtectionEnhanced := p.tempDeratingAggressive
          mosfetProtectionEnhanced := p.mosfetFailureDetection
          score := s.score
          faults := s.faults
          warnings := s.warnings } := by
  intro s board readings
  have hlost : board.sum + readings.sum = Check.lost (costs p t) := by
    rw [Check.sum_made, Check.sum_made, costs_eq, Check.lost_append]
  have hbound := lost_costs_le p t
  have hscore : s.score = .ofNat (100 - Check.lost (costs p t)) := score_diagnose p t
  refine ⟨?_, by omega, ?_, ?_, ?_, ?_, ?_, ?_, ?_, ?_⟩
  · rw [hscore, hlost]
    exact Binary.isExactly_ofNat (by omega)
  · intro k
    rw [← costs_eq]
    exact isExactly_deduct_take p t k
  · exact score_eq_deduct p t
  · rw [toNat_diagnose_warnings, Check.length_made]
    rfl
  · exact Check.length_made_le _
  · rw [toNat_diagnose_faults, ← Excursion.map_fst_costs, Check.length_made]
  · exact Check.length_made_le _
  · exact score_sub_score_set p t
  · have hsensor : s.temperatureSensorValid = !p.singleTemperatureSensor :=
      p.two_le_temperatureSensors
    exact congrArg (fun valid => { s with temperatureSensorValid := valid }) hsensor

end BoardHealth
