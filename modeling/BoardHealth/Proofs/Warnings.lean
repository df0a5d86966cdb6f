import BoardHealth.Proofs.Engagement
import BoardHealth.Proofs.Ledger

/-!
# Warnings, points and latches agree

What is wrong with a board is told in four places: as points taken off its score, as
flags of a snapshot, as warnings of a report, and as latches that are set. Each is
written on its own. `Warning.isWarranted` says which warnings a board gives cause
for, by its profile alone, and the others are compared with it:

> `isRaised_diagnose`: the flags of a pass raise exactly these warnings.
> `countP_deducts`: those that deduct are as many as the deductions of the score.
> `Defect.isActive_eq_isWarranted`: a class of defect has warnings of its own, and
> they are warranted exactly if the board has the defect.

A report `Accounts` for a board if its list is right in all these ways. The main
statement is

> `warnings_agree_with_latches`: so is the report of the first start, whatever came
> before, and the latches set then are those of the defects it lists; every later
> report lists the same.
-/

namespace BoardHealth

namespace Warning

/-- Whether a board gives cause for the warning, whatever passes find. -/
def isWarranted (p : Profile) : Warning → Bool
  | phaseFilterAbsent => !p.phaseFiltersPresent
  | temperatureSensingInadequate => p.singleTemperatureSensor
  | currentSensingLimited => p.currentSensingLimitedAccuracy
  | mosfetReliability => p.mosfetQualityIssues
  | capacitorMounting => p.capacitorReliabilityIssues
  | gateDriverLimited => p.gateResistorIssues
  | singleSensorThermalEstimation => p.singleTemperatureSensor
  | mosfetProtectionEnhanced => p.mosfetQualityIssues
  | highVoltagePack => p.voltageMaxAbsolute > 75
  | lowSideCurrentSensing => p.currentSensingLowSideOnly

variable (p : Profile)

theorem mem_all (w : Warning) : w ∈ all := by cases w <;> decide

/-- Whatever its counters, a snapshot of a pass raises the warnings that the board
gives cause for. -/
theorem isRaised_diagnose (t : Telemetry) (faults warnings : UInt32) (w : Warning) :
    w.isRaised p { diagnose p t with faults, warnings } = w.isWarranted p := by
  have hsensor : (!decide (2 ≤ p.temperatureSensors)) = p.singleTemperatureSensor := by
    rw [p.two_le_temperatureSensors, Bool.not_not]
  cases w with
  | temperatureSensingInadequate => exact hsensor
  | phaseFilterAbsent | singleSensorThermalEstimation | mosfetProtectionEnhanced
  | highVoltagePack | lowSideCurrentSensing => rfl
  | _ => exact Bool.not_not _

/-- The warnings that deduct are as many as the deductions. -/
theorem countP_deducts :
    (all.filter (·.isWarranted p)).countP (·.deducts) = p.deductions.count true := by
  calc (all.filter (·.isWarranted p)).countP (·.deducts)
      = (all.filter (·.deducts)).countP (·.isWarranted p) := by
        rw [List.countP_filter, List.countP_filter]
        exact List.countP_congr fun w _ => by rw [Bool.and_comm]
    _ = ((all.filter (·.deducts)).map (·.isWarranted p)).count true := by
        rw [List.count, List.countP_map]
        exact List.countP_congr fun w _ => by simp
    _ = p.deductions.count true := rfl

end Warning

/-- The warnings that a class of defect is worth. -/
def Defect.warnings : Defect → List Warning
  | phaseFilter => [.phaseFilterAbsent]
  | thermal => [.temperatureSensingInadequate, .singleSensorThermalEstimation]
  | mosfet => [.mosfetReliability, .mosfetProtectionEnhanced]
  | capacitor => [.capacitorMounting]
  | gateDriver => [.gateDriverLimited]
  | highVoltage => [.highVoltagePack]

/-- A board gives cause for the warnings of a class exactly if it has the defect. -/
theorem Defect.isActive_eq_isWarranted {d : Defect} {w : Warning} (h : w ∈ d.warnings)
    (p : Profile) : w.isWarranted p = d.isActive p := by
  cases d <;> cases w <;> first | rfl | exact absurd h (by decide)

/-- The list of a report is right for a board: it names each warning that the board
gives cause for and no other, once and in the standing order, and as many of them
deduct as the report has counted. -/
structure Report.Accounts (r : Report) (p : Profile) : Prop where
  deducting : r.warnings.toList.countP (·.deducts) = r.warningCount.toNat
  inOrder : r.warnings.toList.Sublist Warning.all
  nodup : r.warnings.toList.Nodup
  mem_iff : ∀ w, w ∈ r.warnings.toList ↔ w.isWarranted p = true

namespace Report

variable {p : Profile} {r : Report}

/-- A report that filters the warnings by what the board gives cause for. -/
theorem Accounts.of_filter (hlist : r.warnings.toList = Warning.all.filter (·.isWarranted p))
    (hcount : r.warningCount.toNat = p.deductions.count true) : r.Accounts p where
  deducting := by rw [hlist, hcount, Warning.countP_deducts]
  inOrder := by rw [hlist]; exact List.filter_sublist
  nodup := by
    have hall : Warning.all.Nodup := by decide
    rw [hlist]
    exact hall.filter _
  mem_iff w := by simp [hlist, Warning.mem_all]

/-- A report is critical exactly if it lists the missing phase filters. -/
theorem hasCriticalWarning_iff :
    r.hasCriticalWarning = true ↔ .phaseFilterAbsent ∈ r.warnings.toList := by
  show r.warnings.toList.any (fun w => decide (w = .phaseFilterAbsent)) = true ↔ _
  simp

end Report

namespace Journal

variable {p : Profile} {j : Journal} {m : Monitor}

/-- The first start is the first pass. -/
structure Opened (j : Journal) : Prop where
  passes : j.started = false → j.passes = []
  lastPass : j.started = true → j.lastPass ≠ none

/-- No call makes a pass before the first start. -/
theorem Opened.enter (h : j.Opened) (op : Operation) (hfollows : Follows p j m) :
    (j.enter op (m.step op).answer).Opened := by
  refine ⟨?_, ?_⟩
  · intro hnew
    have hstart : j.started = false ∧ op.isStart = false := Bool.or_eq_false_iff.mp hnew
    have hstores : m.storesPass op = false := by
      have hinit : m.isInitialized = false := hfollows.started.trans hstart.1
      cases op with
      | start => exact absurd hstart.2.symm Bool.false_ne_true
      | update now => rw [Monitor.storesPass, hinit]; rfl
      | validate now => exact hinit
      | _ => rfl
    rw [hfollows.passes_enter, hstores, h.passes hstart.1]
    split <;> rfl
  · intro hstarted
    rw [hfollows.lastPass_enter]
    cases hstores : m.storesPass op with
    | true => exact Option.some_ne_none j.readings
    | false =>
      -- A start that makes no pass is not the first.
      have hbefore : j.started = true := by
        have hor : (j.started || op.isStart) = true := hstarted
        rw [Bool.or_eq_true] at hor
        refine hor.elim id fun hstart => ?_
        cases op with
        | start now =>
          rw [Monitor.storesPass, Bool.not_eq_false', hfollows.started] at hstores
          exact hstores
        | _ => exact absurd hstart Bool.false_ne_true
      exact h.lastPass hbefore

/-- A monitor that is started reports the warnings that its board gives cause for. -/
theorem Balanced.warnings_report (h : Balanced p j m) (hfollows : Follows p j m)
    (hopened : j.Opened) (hstarted : j.started = true) :
    m.report.warnings.toList = Warning.all.filter (·.isWarranted p) := by
  obtain ⟨t, hlast⟩ := Option.ne_none_iff_exists'.mp (hopened.lastPass hstarted)
  have hsnapshot : m.snapshot =
      { diagnose p t with warnings := m.totalWarnings, faults := m.totalFaults } := by
    rw [h.snapshot, findings, hlast]
    rfl
  show Warning.all.filter (·.isRaised m.profile m.snapshot) = _
  rw [hfollows.profile, hsnapshot]
  exact List.filter_congr fun w _ => w.isRaised_diagnose p t _ _

/-- A monitor reports as many deductions as its passes made. -/
theorem Balanced.warningCount_report (h : Balanced p j m) :
    m.report.warningCount.toNat = min (j.passes.length * p.deductions.count true) (2 ^ 32 - 1) := by
  have hcount : m.report.warningCount = m.totalWarnings := by
    show m.snapshot.warnings = _
    rw [h.snapshot]
  rw [hcount]
  exact h.warnings

end Journal

namespace Monitor

/-- What holds between a monitor and its journal after every run. -/
theorem balanced_of_run (p : Profile) (t : Telemetry) (ops : List Operation) :
    let m := (new p t).run ops
    let j := Journal.ofCalls t ((new p t).calls ops)
    Journal.Follows p j m ∧ Journal.Balanced p j m ∧ j.Opened := by
  refine run_induction (fun j m => Journal.Balanced p j m ∧ j.Opened) ?_ ?_ ops
  · exact ⟨.of_passes_eq_nil rfl rfl rfl rfl, fun _ => rfl, nofun⟩
  · rintro j m op hfollows ⟨hbalanced, hopened⟩
    exact ⟨hbalanced.enter op hfollows, hopened.enter op hfollows⟩

/-- A monitor that was started lists the warnings that its board gives cause for. -/
theorem warnings_of_run (p : Profile) (t : Telemetry) (ops : List Operation)
    (h : ((new p t).run ops).isInitialized = true) :
    ((new p t).run ops).report.warnings.toList = Warning.all.filter (·.isWarranted p) := by
  obtain ⟨hfollows, hbalanced, hopened⟩ := balanced_of_run p t ops
  exact hbalanced.warnings_report hfollows hopened (hfollows.started.symm.trans h)

/-- The first start makes the first pass. -/
theorem length_passes_of_start (p : Profile) (t : Telemetry) {before : List Operation}
    (hnew : ((new p t).run before).isInitialized = false) (now : UInt32) :
    (Journal.ofCalls t ((new p t).calls (before ++ [.start now]))).passes.length = 1 := by
  obtain ⟨hfollows, -, hopened⟩ := balanced_of_run p t before
  rw [ofCalls_concat, hfollows.passes_enter, hopened.passes (hfollows.started.symm.trans hnew),
    storesPass, hnew]
  rfl

/-- **Warnings, points and latches agree.** The report on a pass accounts for its
board. Let a monitor be started for the first time, whatever was asked of it before.
It answers with a report that accounts for the board; the latches then set are those
of the board's defects, each exactly if the warnings of its class are listed, and
that of the missing phase filters exactly if the report is critical. Whatever is
asked of the monitor afterwards, its report lists the same warnings, and counts those
that deduct once for each pass since the last reset, up to the largest number that
fits. -/
theorem warnings_agree_with_latches (p : Profile) (t : Telemetry) :
    (Report.ofPass p (diagnose p t)).Accounts p
      ∧ ∀ (before later : List Operation) (now : UInt32), before.any (·.isStart) = false →
          let effect := ((new p t).run before).start now
          let report := effect.after.report
          let latches := effect.after.latches
          let report' := (effect.after.run later).report
          let passes :=
            (Journal.ofCalls t ((new p t).calls (before ++ .start now :: later))).passes
          effect.answer = some report
            ∧ report.Accounts p
            ∧ (∀ d, latches.isApplied d = d.isActive p)
            ∧ (∀ d, ∀ w ∈ d.warnings, latches.isApplied d = true ↔ w ∈ report.warnings.toList)
            ∧ (latches.isApplied .phaseFilter = true ↔ report.hasCriticalWarning = true)
            ∧ report'.warnings.toList = report.warnings.toList
            ∧ report'.warningCount.toNat =
                min (passes.length * report.warnings.toList.countP (·.deducts)) (2 ^ 32 - 1) := by
  refine ⟨.of_filter ?_ (toNat_diagnose_warnings p t), ?_⟩
  · exact List.filter_congr fun w _ => w.isRaised_diagnose p t _ _
  intro before later now hnone effect report latches report' passes
  have hnew : ((new p t).run before).isInitialized = false := by
    rw [run_isInitialized, hnone]
    rfl
  have hstart : (new p t).run (before ++ [.start now]) = effect.after := run_concat ..
  have hend : (new p t).run (before ++ .start now :: later) = effect.after.run later := by
    rw [run_append]; rfl
  have hinit : effect.after.isInitialized = true := by
    rw [← hstart, run_isInitialized, List.any_append]
    simp [Operation.isStart]
  have hinit' : (effect.after.run later).isInitialized = true := by
    rw [run_isInitialized, hinit, Bool.true_or]
  have hlist : report.warnings.toList = Warning.all.filter (·.isWarranted p) := by
    have hrun := warnings_of_run p t (before ++ [.start now])
    rw [hstart] at hrun
    exact hrun hinit
  have hlist' : report'.warnings.toList = Warning.all.filter (·.isWarranted p) := by
    have hrun := warnings_of_run p t (before ++ .start now :: later)
    rw [hend] at hrun
    exact hrun hinit'
  have hcount := (balanced_of_run p t (before ++ [.start now])).2.1.warningCount_report
  have hcount' := (balanced_of_run p t (before ++ .start now :: later)).2.1.warningCount_report
  rw [hstart, length_passes_of_start p t hnew] at hcount
  rw [hend] at hcount'
  have hfew : p.deductions.count true ≤ 8 := List.count_le_length
  have haccounts : report.Accounts p := .of_filter hlist (hcount.trans (by omega))
  have happlied : ∀ d, latches.isApplied d = d.isActive p :=
    isApplied_start hnew (run_profile _ before) (serves_of_run p t before) now
  have hlisted : ∀ d, ∀ w ∈ d.warnings,
      latches.isApplied d = true ↔ w ∈ report.warnings.toList := by
    intro d w hw
    rw [happlied, haccounts.mem_iff, Defect.isActive_eq_isWarranted hw]
  refine ⟨?_, haccounts, happlied, hlisted, ?_, hlist'.trans hlist.symm, ?_⟩
  · exact (start_answer _ now).trans (if_neg (by rw [hnew]; exact Bool.false_ne_true))
  · rw [hlisted .phaseFilter .phaseFilterAbsent (List.mem_singleton_self _),
      Report.hasCriticalWarning_iff]
  · rw [hlist, Warning.countP_deducts]
    exact hcount'

/-- A board with every defect, asked for much before its start. Three passes are made
from then on, and one more is forgotten by a reset. -/
theorem warnings_agree_with_latches_of_every_defect :
    let p := Profile.flipsky75200ProV2
    let before : List Operation := [.validate 5, .apply .mosfet, .resetLatches, .apply .thermal,
      .observe { motorTemp := .nan }, .resetDiagnostics, .update 3]
    let later : List Operation := [.resetDiagnostics, .validate 20, .resetLatches, .start 30,
      .update 2000000, .update 2000001, .validate 2000002]
    let effect := ((new p {}).run before).start 10
    let report := effect.after.report
    let report' := (effect.after.run later).report
    before.any (·.isStart) = false
      ∧ effect.answer = some report
      ∧ report.Accounts p
      ∧ (∀ d, effect.after.latches.isApplied d = d.isActive p)
      ∧ report'.warnings.toList = report.warnings.toList
      ∧ report.warnings.toList = Warning.all
      ∧ report.warningCount = 8 ∧ report'.warningCount.toNat = 24 := by
  intro p before later effect report report'
  have hnone : before.any (·.isStart) = false := by decide
  obtain ⟨hanswer, haccounts, happlied, -, -, hlist, hcount⟩ :=
    (warnings_agree_with_latches p {}).2 before later 10 hnone
  exact ⟨hnone, hanswer, haccounts, happlied, hlist, by decide, by decide,
    hcount.trans (by decide)⟩

end Monitor

end BoardHealth
