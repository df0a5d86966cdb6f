import BoardHealth.Proofs.Ledger
import BoardHealth.Proofs.WholeNumbers
import Mathlib.Data.List.Forall2

/-!
# The score of a pass

Each condition that a pass looks at costs a whole number of points, 84 in all, so no
subtraction is rounded and the score stays within its bounds:

> `score_diagnose`: the score is 100 less the points of the conditions that hold.
> `isAcceptable_diagnose`: a board is acceptable if it has lost less than 40.

With more conditions that hold, more are counted and more points are lost
(`count_true_le`, `lost_zip_le`).
-/

namespace BoardHealth

namespace Check

/-- The check of a condition that costs a whole number of points. -/
def ofCost (cost : Bool × Nat) : Check := ⟨cost.1, .ofNat cost.2⟩

/-- The points that are lost to the conditions that hold. -/
def lost (costs : List (Bool × Nat)) : Nat :=
  (costs.map fun cost => if cost.1 then cost.2 else 0).sum

theorem lost_cons (cost : Bool × Nat) (costs : List (Bool × Nat)) :
    lost (cost :: costs) = (if cost.1 then cost.2 else 0) + lost costs :=
  List.sum_cons

theorem lost_append (costs costs' : List (Bool × Nat)) :
    lost (costs ++ costs') = lost costs + lost costs' := by
  rw [lost, List.map_append, List.sum_append]
  rfl

/-- No more points are lost than there are. -/
theorem lost_zip_le_sum (conditions : List Bool) (points : List Nat) :
    lost (conditions.zip points) ≤ points.sum := by
  induction conditions generalizing points with
  | nil => exact Nat.zero_le _
  | cons condition conditions ih =>
    cases points with
    | nil => exact Nat.zero_le _
    | cons point points =>
      rw [List.zip_cons_cons, lost_cons, List.sum_cons]
      have hrest := ih points
      split <;> omega

/-- As long as there are points left, they are taken off exactly. -/
theorem deduct_ofNat {costs : List (Bool × Nat)} {n : Nat} (hn : n < 2 ^ 24)
    (hcosts : lost costs ≤ n) :
    deduct (.ofNat n) (costs.map ofCost) = .ofNat (n - lost costs) := by
  induction costs generalizing n with
  | nil => rfl
  | cons cost costs ih =>
    rw [lost_cons] at hcosts ⊢
    show deduct (if cost.1 then .ofNat n - .ofNat cost.2 else .ofNat n) (costs.map ofCost) = _
    split
    next hholds =>
      rw [if_pos hholds] at hcosts
      rw [Binary.ofNat_sub_ofNat hn (by omega), ih (by omega) (by omega), Nat.sub_sub]
    next hfails =>
      rw [if_neg hfails, Nat.zero_add] at hcosts
      rw [ih hn hcosts, Nat.zero_add]

/-! ### More conditions that hold -/

section Compare

variable {conditions conditions' : List Bool}
  (h : List.Forall₂ (fun c c' => c = true → c' = true) conditions conditions')

include h

/-- More conditions are counted. -/
theorem count_true_le : conditions.count true ≤ conditions'.count true := by
  induction h with
  | nil => exact Nat.le_refl _
  | @cons condition condition' _ _ hholds _ ih =>
    have hhead : (if condition == true then 1 else 0) ≤ if condition' == true then 1 else 0 := by
      cases condition with
      | false => exact Nat.zero_le _
      | true => rw [hholds rfl]
    rw [List.count_cons, List.count_cons]
    exact Nat.add_le_add ih hhead

/-- More points are lost. -/
theorem lost_zip_le (points : List Nat) :
    lost (conditions.zip points) ≤ lost (conditions'.zip points) := by
  induction h generalizing points with
  | nil => exact Nat.le_refl _
  | @cons condition condition' _ _ hholds _ ih =>
    cases points with
    | nil => exact Nat.le_refl _
    | cons point points =>
      have hhead : (if condition then point else 0) ≤ if condition' then point else 0 := by
        cases condition with
        | false => exact Nat.zero_le _
        | true => rw [hholds rfl]
      rw [List.zip_cons_cons, List.zip_cons_cons, lost_cons, lost_cons]
      exact Nat.add_le_add hhead (ih points)

end Compare

end Check

/-- The readings that are out of range, on a board of this profile. -/
def Telemetry.faults (t : Telemetry) (p : Profile) : List Bool :=
  [t.isTooHot, t.isVoltageOutOfRange p, t.isOverCurrent p]

/-- What a pass looks at, each condition with the points that it costs. -/
def costs (p : Profile) (t : Telemetry) : List (Bool × Nat) :=
  p.deductions.zip [15, 10, 8, 12, 8, 7, 5, 8] ++ (t.faults p).zip [5, 3, 3]

variable (p : Profile) (t : Telemetry)

/-- A pass checks the conditions of the board and of the readings. -/
theorem checks_eq : p.checks ++ t.checks p = (costs p t).map Check.ofCost := by
  rw [Profile.checks, p.temperatureSensors_lt_two]
  rfl

/-- A board with every defect that is run beyond all limits keeps 16 points. -/
theorem lost_costs_le : Check.lost (costs p t) ≤ 84 := by
  have hboard := Check.lost_zip_le_sum p.deductions [15, 10, 8, 12, 8, 7, 5, 8]
  have hreadings := Check.lost_zip_le_sum (t.faults p) [5, 3, 3]
  rw [costs, Check.lost_append]
  exact Nat.add_le_add hboard hreadings

/-- **The score of a pass** is 100 less the points of the conditions that hold. -/
theorem score_diagnose : (diagnose p t).score = .ofNat (100 - Check.lost (costs p t)) := by
  have hlost := lost_costs_le p t
  show (Check.deduct (.ofNat 100) (p.checks ++ t.checks p)).clamp (.ofNat 0) (.ofNat 100) = _
  rw [checks_eq, Check.deduct_ofNat (by decide) (by omega),
    Binary.clamp_ofNat (Nat.zero_le _) (Nat.sub_le ..) (by decide)]

/-- A board may be run as it is configured if it has lost less than 40 points. -/
theorem isAcceptable_diagnose :
    (diagnose p t).isAcceptable = true ↔ Check.lost (costs p t) < 40 := by
  show decide (.ofNat 60 < (diagnose p t).score) = true ↔ _
  rw [decide_eq_true_iff, score_diagnose, Binary.ofNat_lt_ofNat (by decide) (by omega)]
  omega

/-- A pass counts the readings that are out of range. -/
theorem toNat_diagnose_faults : (diagnose p t).faults.toNat = (t.faults p).count true := by
  have hfew : (t.checks p).length < 2 ^ 32 := show 3 < 2 ^ 32 by decide
  exact Check.toNat_failing hfew

end BoardHealth
