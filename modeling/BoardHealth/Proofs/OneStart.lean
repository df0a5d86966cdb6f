import BoardHealth.Proofs.Step

/-!
# One start

A monitor lives through two phases. Before its first start it is dormant: whatever is
asked of it, it differs from a new one in the readings at hand and in its latches alone
(`IsDormant.run`), so there is no pass, no count and no mark of time that a call which
came too early could have left behind. From the first start on, any other does nothing,
and the time of the first is kept (`run_initializedAt`).

> `only_first_start`: both phases, for every run.
-/

namespace BoardHealth

/-- The time of a start. -/
def Operation.startTime? : Operation → Option UInt32
  | start now => some now
  | _ => none

namespace Monitor

/-- But for the readings at hand and the latches the monitor is new. -/
def IsDormant (p : Profile) (m : Monitor) : Prop :=
  m = { new p m.telemetry with latches := m.latches }

section Dormant

variable {p : Profile} {m : Monitor}

theorem isDormant_new (p : Profile) (t : Telemetry) : (new p t).IsDormant p := rfl

theorem IsDormant.isInitialized_eq (h : m.IsDormant p) : m.isInitialized = false := by
  rw [h]
  rfl

/-- A dormant monitor has found, counted, recorded and marked nothing. -/
theorem IsDormant.untouched (h : m.IsDormant p) :
    m.snapshot = .blank ∧ m.totalWarnings = 0 ∧ m.totalFaults = 0 ∧ m.history = .empty
      ∧ m.refresh.lastUpdate = 0 := by
  rw [h]
  exact ⟨rfl, rfl, rfl, rfl, rfl⟩

/-- Only a start wakes a dormant monitor. -/
theorem IsDormant.step (h : m.IsDormant p) {op : Operation} (hop : op.isStart = false) :
    (m.step op).after.IsDormant p := by
  have hnew := h.isInitialized_eq
  rw [step_after]
  cases op with
  | start now => exact absurd hop.symm Bool.false_ne_true
  | update now | validate now =>
    dsimp only
    rw [hnew]
    exact h
  | resetDiagnostics =>
    -- A reset sets to zero what is zero.
    show m.resetDiagnostics = { new p m.telemetry with latches := m.latches }
    rw [h]
    rfl
  | resetLatches =>
    show m.resetLatches = { new p m.telemetry with latches := .released }
    rw [h]
    rfl
  | apply d =>
    show { m with latches := (m.latches.apply d m.profile).2 } =
      { new p m.telemetry with latches := (m.latches.apply d m.profile).2 }
    rw [h]
    rfl
  | observe t =>
    show m.observe t = { new p t with latches := m.latches }
    rw [h]
    rfl
  | _ => exact h

/-- A run without a start leaves a dormant monitor dormant. -/
theorem IsDormant.run (h : m.IsDormant p) {ops : List Operation}
    (hnone : ops.any (·.isStart) = false) : (m.run ops).IsDormant p := by
  induction ops generalizing m with
  | nil => exact h
  | cons op ops ih =>
    rw [List.any_cons, Bool.or_eq_false_iff] at hnone
    exact ih (h.step hnone.1) hnone.2

end Dormant

/-- The time of the start is that of the first, and stays. -/
theorem run_initializedAt (m : Monitor) (ops : List Operation) :
    (m.run ops).initializedAt =
      if m.isInitialized then m.initializedAt
      else (ops.findSome? (·.startTime?)).getD m.initializedAt := by
  induction ops generalizing m with
  | nil => exact (ite_self _).symm
  | cons op ops ih =>
    show ((m.step op).after.run ops).initializedAt = _
    rw [ih, step_isInitialized, step_initializedAt]
    cases hinit : m.isInitialized with
    | true =>
      rw [Bool.true_or, if_pos rfl, if_pos rfl]
      cases op <;> rfl
    | false =>
      rw [Bool.false_or, if_neg Bool.false_ne_true]
      cases op <;> rfl

/-- **One start.** Take any run of a new monitor. As long as no start was asked for, the
monitor is new but for its readings and latches: its snapshot is blank, nothing was
counted, recorded or marked, and updates and validations are refused and change nothing.
The first start, and only the first, answers with a report. Any other answers with none
and changes nothing, so latches that were released since stay released. The time of the
start is that of the first. -/
theorem only_first_start (p : Profile) (t : Telemetry) (ops : List Operation) :
    let m := (new p t).run ops
    (ops.any (·.isStart) = false →
        m = { new p m.telemetry with latches := m.latches }
          ∧ m.snapshot = .blank ∧ m.totalWarnings = 0 ∧ m.totalFaults = 0
          ∧ m.history = .empty ∧ m.refresh.lastUpdate = 0
          ∧ ∀ now, m.step (.update now) = ⟨.decision false, m, []⟩
            ∧ m.step (.validate now) = ⟨.decision false, m, []⟩)
      ∧ (∀ now, (m.start now).answer =
          if ops.any (·.isStart) then none else some (m.start now).after.report)
      ∧ (ops.any (·.isStart) = true → ∀ now,
          m.step (.start now) = ⟨.started none, m, []⟩
            ∧ (m.resetLatches.step (.start now)).after.latches = .released)
      ∧ m.initializedAt = (ops.findSome? (·.startTime?)).getD 0 := by
  intro m
  have hinit : m.isInitialized = ops.any (·.isStart) := run_isInitialized ..
  refine ⟨?_, ?_, ?_, run_initializedAt ..⟩
  · intro hnone
    have hnew : m.isInitialized = false := hinit.trans hnone
    have hdormant : m.IsDormant p := (isDormant_new p t).run hnone
    obtain ⟨hsnapshot, hwarnings, hfaults, hhistory, hmark⟩ := hdormant.untouched
    refine ⟨hdormant, hsnapshot, hwarnings, hfaults, hhistory, hmark, fun now => ?_⟩
    have hdenied : (m.isInitialized && m.refresh.isDue now) = false := by
      rw [hnew, Bool.false_and]
    exact ⟨step_update_of_denied hdenied, step_validate_of_not_initialized hnew now⟩
  · intro now
    rw [start_answer, hinit]
  · intro hstarted now
    have hon : m.isInitialized = true := hinit.trans hstarted
    have hreleased : m.resetLatches.isInitialized = true := hon
    refine ⟨step_start_of_initialized hon now, ?_⟩
    rw [step_start_of_initialized hreleased]
    rfl

/-- A board with every defect, asked for much before its start, and again after the
counters and the latches were reset. -/
theorem only_first_start_of_every_defect :
    let early : List Operation := [.update 2000000, .validate 4, .apply .thermal,
      .observe { motorTemp := .nan }, .resetLatches, .apply .mosfet, .resetDiagnostics]
    let ops := early ++ [.start 5, .validate 6, .resetDiagnostics]
    let m := (new .flipsky75200ProV2 {}).run early
    let m' := (new .flipsky75200ProV2 {}).run ops
    early.any (·.isStart) = false ∧ ops.any (·.isStart) = true
      ∧ m.snapshot = .blank ∧ m.step (.update 3000000) = ⟨.decision false, m, []⟩
      ∧ (m.start 5).answer = some (m.start 5).after.report
      ∧ m'.step (.start 9) = ⟨.started none, m', []⟩
      ∧ (m'.resetLatches.step (.start 9)).after.latches = .released
      ∧ m'.initializedAt = 5 := by
  intro early ops m m'
  have hnone : early.any (·.isStart) = false := by decide
  have hstarted : ops.any (·.isStart) = true := by decide
  obtain ⟨hdormant, hfirst, -, -⟩ := only_first_start .flipsky75200ProV2 {} early
  obtain ⟨-, -, hagain, htime⟩ := only_first_start .flipsky75200ProV2 {} ops
  obtain ⟨-, hblank, -, -, -, -, hdenied⟩ := hdormant hnone
  exact ⟨hnone, hstarted, hblank, (hdenied 3000000).1, hfirst 5, (hagain hstarted 9).1,
    (hagain hstarted 9).2, htime⟩

end Monitor

end BoardHealth
