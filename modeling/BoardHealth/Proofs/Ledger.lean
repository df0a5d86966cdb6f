import BoardHealth.Proofs.Journal
import Mathlib.Algebra.GroupWithZero.Nat

/-!
# The ledger of a run

A monitor keeps its running counters twice, as totals of its own and in the
snapshot it publishes, and its operations touch them in different ways: a start
blanks the snapshot but not the totals, passes add to both, a reset sets both to
zero but leaves the score. `Balanced` is what holds between all these and the
journal of the run; every call keeps it (`Balanced.enter`), so it holds after
every run:

> `counters_of_run`: the counters are those of the passes since the last reset,
> summed up to the largest number that fits, and all else in the snapshot is what
> the last pass found.

What a pass counts as warnings depends on the profile alone: `deductions` lists
the eight conditions of a board that take points off.
-/

namespace BoardHealth

/-- The conditions of a board that take points off in every pass. A single
temperature sensor and doubtful MOSFETs do so twice. -/
def Profile.deductions (p : Profile) : List Bool := [
  !p.phaseFiltersPresent,
  p.singleTemperatureSensor,
  p.currentSensingLimitedAccuracy,
  p.mosfetQualityIssues,
  p.capacitorReliabilityIssues,
  p.gateResistorIssues,
  p.singleTemperatureSensor,
  p.mosfetQualityIssues]

/-- Too few sensors means a single one. -/
theorem Profile.temperatureSensors_lt_two (p : Profile) :
    decide (p.temperatureSensors < 2) = p.singleTemperatureSensor := by
  unfold temperatureSensors
  cases p.singleTemperatureSensor <;> rfl

/-- Enough sensors means more than one. -/
theorem Profile.two_le_temperatureSensors (p : Profile) :
    decide (2 ≤ p.temperatureSensors) = !p.singleTemperatureSensor := by
  rw [← p.temperatureSensors_lt_two, ← decide_not, decide_eq_decide, Nat.not_lt]

/-- A short list of checks is counted without overflow. -/
theorem Check.toNat_failing {checks : List Check} (h : checks.length < 2 ^ 32) :
    (failing checks).toNat = (checks.map (·.fails)).count true := by
  have hcount : (checks.map (·.fails)).count true = checks.countP (·.fails) := by
    rw [List.count, List.countP_map]
    exact List.countP_congr fun check _ => by simp
  rw [hcount]
  exact UInt32.toNat_ofNat_of_lt' (Nat.lt_of_le_of_lt List.countP_le_length h)

/-- A pass warns of each condition that takes points off. -/
theorem toNat_diagnose_warnings (p : Profile) (t : Telemetry) :
    (diagnose p t).warnings.toNat = p.deductions.count true := by
  have hfails : p.checks.map (·.fails) = p.deductions := by
    rw [Profile.checks, p.temperatureSensors_lt_two]
    rfl
  have hfew : p.checks.length < 2 ^ 32 := show 8 < 2 ^ 32 by decide
  rw [← hfails]
  exact Check.toNat_failing hfew

/-- A count that stopped at the largest number does so again with more added. -/
theorem toNat_addSaturating_of_min {a : UInt32} {n : Nat} (h : a.toNat = min n (2 ^ 32 - 1))
    (b : UInt32) : (addSaturating a b).toNat = min (n + b.toNat) (2 ^ 32 - 1) := by
  rw [toNat_addSaturating, h]
  show min (min n (2 ^ 32 - 1) + b.toNat) (2 ^ 32 - 1) = _
  omega

namespace Journal

/-- The warnings of all passes since the last reset, on a board of this profile. -/
def warnings (p : Profile) (j : Journal) : Nat := j.passes.length * p.deductions.count true

/-- The faults of all passes since the last reset, on a board of this profile. -/
def faults (p : Profile) (j : Journal) : Nat :=
  (j.passes.map fun t => (diagnose p t).faults.toNat).sum

/-- Without a pass there is nothing to warn of. -/
theorem warnings_eq_zero {p : Profile} {j : Journal} (h : j.passes = []) : j.warnings p = 0 := by
  rw [warnings, h]
  exact Nat.zero_mul _

/-- Without a pass there is no fault. -/
theorem faults_eq_zero {p : Profile} {j : Journal} (h : j.passes = []) : j.faults p = 0 := by
  rw [faults, h]
  rfl

/-- What the last pass found; before the first, nothing. -/
def findings (p : Profile) (j : Journal) : Snapshot := j.lastPass.elim .blank (diagnose p)

/-- The books of the monitor agree with the journal. -/
structure Balanced (p : Profile) (j : Journal) (m : Monitor) : Prop where
  warnings : m.totalWarnings.toNat = min (j.warnings p) (2 ^ 32 - 1)
  faults : m.totalFaults.toNat = min (j.faults p) (2 ^ 32 - 1)
  snapshot : m.snapshot =
    { j.findings p with warnings := m.totalWarnings, faults := m.totalFaults }

/-- The books are in balance where the counters are zero and no pass is on record. -/
theorem Balanced.of_passes_eq_nil {p : Profile} {j : Journal} {m : Monitor} (h : j.passes = [])
    (hwarnings : m.totalWarnings = 0) (hfaults : m.totalFaults = 0)
    (hsnapshot : m.snapshot = { j.findings p with warnings := 0, faults := 0 }) :
    Balanced p j m where
  warnings := by rw [hwarnings, warnings_eq_zero h]; rfl
  faults := by rw [hfaults, faults_eq_zero h]; rfl
  snapshot := by rw [hwarnings, hfaults, hsnapshot]

/-- Every call keeps the books in balance. -/
theorem Balanced.enter {p : Profile} {j : Journal} {m : Monitor} (op : Operation)
    (hfollows : Follows p j m) (h : Balanced p j m) :
    Balanced p (j.enter op (m.step op).answer) (m.step op).after := by
  by_cases hreset : op = .resetDiagnostics
  · -- A reset clears the counters on both sides; the last pass stays.
    subst hreset
    refine .of_passes_eq_nil rfl rfl rfl ?_
    show { m.snapshot with warnings := 0, faults := 0 } =
      ({ j.findings p with warnings := 0, faults := 0 } : Snapshot)
    rw [h.snapshot]
  have hpasses := hfollows.passes_enter op
  have hlast := hfollows.lastPass_enter op
  rw [if_neg hreset] at hpasses
  cases hstores : m.storesPass op with
  | false =>
    rw [hstores, if_neg Bool.false_ne_true] at hpasses hlast
    obtain ⟨hw, hf, hs⟩ := m.step_of_not_storesPass op hstores hreset
    refine ⟨?_, ?_, ?_⟩
    · rw [hw, h.warnings, Journal.warnings, Journal.warnings, hpasses]
    · rw [hf, h.faults, Journal.faults, Journal.faults, hpasses]
    · rw [hs, hw, hf, h.snapshot, findings, findings, hlast]
  | true =>
    rw [hstores, if_pos rfl] at hpasses hlast
    obtain ⟨hw, hf, hs⟩ := m.step_of_storesPass op hstores
    rw [hfollows.pass_eq] at hw hf hs
    refine ⟨?_, ?_, ?_⟩
    · rw [hw, toNat_addSaturating_of_min h.warnings, toNat_diagnose_warnings, Journal.warnings,
        Journal.warnings, hpasses, List.length_append, Nat.add_mul, List.length_singleton,
        Nat.one_mul]
    · rw [hf, toNat_addSaturating_of_min h.faults, Journal.faults, Journal.faults, hpasses,
        List.map_append, List.sum_append]
      rfl
    · rw [hs, hw, hf, findings, hlast]
      rfl

end Journal

namespace Monitor

/-- **The ledger of a run.** Whatever is asked of a monitor and in whatever order,
it is initialized once a start was asked for, and its counters are those of the
passes since the last reset: each pass counts every condition of the board that
takes points off, and the readings that it found out of range. They stop at the
largest number that fits. The monitor's own totals are the published ones, and all
else in the snapshot is what the last pass found, or blank before the first. -/
theorem counters_of_run (p : Profile) (t : Telemetry) (ops : List Operation) :
    let m := (new p t).run ops
    let j := Journal.ofCalls t ((new p t).calls ops)
    m.isInitialized = j.started
      ∧ m.snapshot.warnings.toNat =
        min (j.passes.length * p.deductions.count true) (2 ^ 32 - 1)
      ∧ m.snapshot.faults.toNat =
        min (j.passes.map fun t => (diagnose p t).faults.toNat).sum (2 ^ 32 - 1)
      ∧ m.totalWarnings = m.snapshot.warnings ∧ m.totalFaults = m.snapshot.faults
      ∧ m.snapshot = { j.lastPass.elim .blank (diagnose p) with
          warnings := m.snapshot.warnings, faults := m.snapshot.faults } := by
  intro m j
  have hnew : Journal.Balanced p { readings := t } (new p t) :=
    .of_passes_eq_nil rfl rfl rfl rfl
  obtain ⟨hfollows, hw, hf, hs⟩ := run_induction (Journal.Balanced p) hnew
    (fun j m op hfollows h => h.enter op hfollows) ops
  have htotalWarnings : m.totalWarnings = m.snapshot.warnings := by rw [hs]
  have htotalFaults : m.totalFaults = m.snapshot.faults := by rw [hs]
  refine ⟨hfollows.started, ?_, ?_, htotalWarnings, htotalFaults, ?_⟩
  · rw [← htotalWarnings]
    exact hw
  · rw [← htotalFaults]
    exact hf
  · rw [← htotalWarnings, ← htotalFaults]
    exact hs

end Monitor

end BoardHealth
