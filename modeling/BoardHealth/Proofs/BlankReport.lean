import BoardHealth.Proofs.OneStart
import BoardHealth.Proofs.Warnings

/-!
# Reports without a pass

A report lists what the last pass found. Before the first start there is none, and the
report is on a blank snapshot, which finds nothing in order (`isRaised_blank`): six
warnings are listed then whatever the board, the critical one among them. The other four
are read off the profile and are right at all times.

> `report_blames_healthy_board`: a healthy board is warned of before its start.
> `mem_warnings_iff`: what a report lists after any run, and when it is critical.
-/

namespace BoardHealth

namespace Warning

/-- Whether the warning is raised by a flag of the snapshot. The others are raised by the
profile alone. -/
def readsSnapshot : Warning → Bool
  | phaseFilterAbsent | temperatureSensingInadequate | currentSensingLimited
  | mosfetReliability | capacitorMounting | gateDriverLimited => true
  | _ => false

/-- A blank snapshot raises each warning that it can, and the profile those that it gives
cause for. -/
theorem isRaised_blank (p : Profile) (w : Warning) :
    w.isRaised p .blank = (w.readsSnapshot || w.isWarranted p) := by
  cases w <;> rfl

end Warning

namespace Monitor

/-- Without a start there is no pass, and the snapshot stays blank. -/
theorem snapshot_of_run_without_start (p : Profile) (t : Telemetry) {ops : List Operation}
    (hnone : ops.any (·.isStart) = false) : ((new p t).run ops).snapshot = .blank :=
  ((isDormant_new p t).run hnone).untouched.1

/-- The report of a monitor that was not started lists a missing filter of a healthy
board. -/
theorem report_blames_healthy_board :
    ¬ ∀ (p : Profile) (t : Telemetry) (ops : List Operation) (w : Warning),
      w ∈ ((new p t).run ops).report.warnings.toList → w.isWarranted p = true := by
  intro h
  have hlisted : .phaseFilterAbsent ∈ ((new .healthy {}).run []).report.warnings.toList := by
    decide
  have hblamed := h .healthy {} [] .phaseFilterAbsent hlisted
  exact absurd hblamed (by decide)

/-- **What a report blames a board for.** After any run the report lists exactly the
warnings that the board gives cause for, and as long as no start was asked for also each
of the six that it reads off a snapshot. So from the first start on every warning is one
of the board's own, and the report is critical only for want of phase filters. -/
theorem mem_warnings_iff (p : Profile) (t : Telemetry) (ops : List Operation) :
    let report := ((new p t).run ops).report
    (∀ w, w ∈ report.warnings.toList ↔
        w.isWarranted p = true ∨ ops.any (·.isStart) = false ∧ w.readsSnapshot = true)
      ∧ (report.hasCriticalWarning = true ↔
        p.phaseFiltersPresent = false ∨ ops.any (·.isStart) = false) := by
  intro report
  have hlisted : ∀ w, w ∈ report.warnings.toList ↔
      w.isWarranted p = true ∨ ops.any (·.isStart) = false ∧ w.readsSnapshot = true := by
    intro w
    have hinit : ((new p t).run ops).isInitialized = ops.any (·.isStart) := run_isInitialized ..
    cases hstarted : ops.any (·.isStart) with
    | true =>
      have hlist : report.warnings.toList = Warning.all.filter (·.isWarranted p) :=
        warnings_of_run p t ops (hinit.trans hstarted)
      simp [hlist, Warning.mem_all]
    | false =>
      have hlist : report.warnings.toList = Warning.all.filter (·.isRaised p .blank) := by
        show Warning.all.filter
          (·.isRaised ((new p t).run ops).profile ((new p t).run ops).snapshot) = _
        rw [run_profile, snapshot_of_run_without_start p t hstarted]
        rfl
      rw [hlist, List.mem_filter, Warning.isRaised_blank]
      cases w.readsSnapshot <;> simp [Warning.mem_all]
  refine ⟨hlisted, ?_⟩
  rw [Report.hasCriticalWarning_iff, hlisted]
  simp [Warning.isWarranted, Warning.readsSnapshot]

end Monitor

end BoardHealth
