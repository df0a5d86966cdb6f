import BoardHealth.Monitor.Run

/-!
# What an operation changes

`step_after` says once what each operation makes of a monitor, conditions
included. The lemmas behind it read off one part of the monitor at a time, so that
a law about one part need not look at the others:

> `step_profile`, `step_telemetry`, `step_isInitialized`: what a pass depends on.
> `step_totalWarnings`, `step_totalFaults`, `step_snapshot`: what passes add up to.
> `step_history`: the rejections; `step_refresh`: the time of the last refresh.
> `step_latches`: the protections engaged; `step_initializedAt`: the time of the start.

> `step_start_of_initialized`, `step_update_of_denied`, `step_validate_of_not_initialized`:
> what is turned down leaves the monitor as it is.

> `run_append`, `run_profile`, `run_isInitialized`: runs of operations.

An operation stores a pass when `storesPass` says so, and in no other case does it
touch the counters but to set them to zero.
-/

namespace BoardHealth

/-- Whether the operation asks the monitor to start. -/
def Operation.isStart : Operation → Bool
  | start _ => true
  | _ => false

namespace Monitor

variable (m : Monitor) (op : Operation)

/-- The monitor after its first start. -/
def started (now : UInt32) : Monitor :=
  { m.store m.pass with
    latches := (m.latches.applyAll m.profile).2
    refresh := m.refresh.mark now
    isInitialized := true
    initializedAt := now }

/-- The monitor after a refresh. -/
def refreshed (now : UInt32) : Monitor :=
  { m.store m.pass with refresh := m.refresh.mark now }

/-- The monitor after its board was judged. -/
def judged (now : UInt32) : Monitor :=
  { m.store m.pass with
    history := if m.pass.isAcceptable then m.history else (m.history.record? now).getD m.history }

/-- What an operation makes of a monitor. -/
theorem step_after : (m.step op).after =
    match op with
    | .start now => if m.isInitialized then m else m.started now
    | .update now => if m.isInitialized && m.refresh.isDue now then m.refreshed now else m
    | .validate now => if m.isInitialized then m.judged now else m
    | .resetDiagnostics => m.resetDiagnostics
    | .resetLatches => m.resetLatches
    | .apply d => { m with latches := (m.latches.apply d m.profile).2 }
    | .observe t => m.observe t
    | _ => m := by
  cases op with
  | start now =>
    show (m.start now).after = if m.isInitialized then m else m.started now
    unfold start
    split <;> rfl
  | update now =>
    show (m.update now).after =
      if m.isInitialized && m.refresh.isDue now then m.refreshed now else m
    unfold update
    split <;> rfl
  | validate now =>
    show (m.validate now).after = _
    unfold validate
    cases m.isInitialized with
    | false => rfl
    | true =>
      show (if m.pass.isAcceptable then _ else _ : Effect Bool).after = m.judged now
      unfold judged
      split <;> rfl
  | _ => rfl

/-! ## What a pass depends on -/

@[simp] theorem step_profile : (m.step op).after.profile = m.profile := by
  rw [step_after]
  cases op with
  | start | update | validate =>
    dsimp only
    split <;> rfl
  | _ => rfl

@[simp] theorem step_telemetry :
    (m.step op).after.telemetry = match op with
      | .observe t => t
      | _ => m.telemetry := by
  rw [step_after]
  cases op with
  | start | update | validate =>
    dsimp only
    split <;> rfl
  | _ => rfl

@[simp] theorem step_isInitialized :
    (m.step op).after.isInitialized = (m.isInitialized || op.isStart) := by
  rw [step_after]
  cases op with
  | start now =>
    dsimp only
    split
    next h => rw [h]; rfl
    next => exact (Bool.or_true _).symm
  | update | validate =>
    dsimp only
    split <;> exact (Bool.or_false _).symm
  | _ => exact (Bool.or_false _).symm

/-! ## Counters and findings -/

/-- Whether the operation makes a pass that is stored: the first start, a refresh
that is due, and every validation of a monitor that is initialized. -/
def storesPass (m : Monitor) : Operation → Bool
  | .start _ => !m.isInitialized
  | .update now => m.isInitialized && m.refresh.isDue now
  | .validate _ => m.isInitialized
  | _ => false

/-- A pass adds its counters to the totals, and its findings take the place of the
ones before. -/
theorem step_of_storesPass (h : m.storesPass op = true) :
    (m.step op).after.totalWarnings = addSaturating m.totalWarnings m.pass.warnings
      ∧ (m.step op).after.totalFaults = addSaturating m.totalFaults m.pass.faults
      ∧ (m.step op).after.snapshot = (m.store m.pass).snapshot := by
  rw [step_after]
  cases op with
  | start now =>
    have hnew : m.isInitialized = false := by simpa [storesPass] using h
    dsimp only
    rw [if_neg (by rw [hnew]; exact Bool.false_ne_true)]
    exact ⟨rfl, rfl, rfl⟩
  | update now =>
    have hdue : (m.isInitialized && m.refresh.isDue now) = true := h
    dsimp only
    rw [if_pos hdue]
    exact ⟨rfl, rfl, rfl⟩
  | validate now =>
    have hinit : m.isInitialized = true := h
    dsimp only
    rw [if_pos hinit]
    exact ⟨rfl, rfl, rfl⟩
  | _ => exact absurd h Bool.false_ne_true

/-- Without a pass, and but for a reset, counters and findings stay. -/
theorem step_of_not_storesPass (h : m.storesPass op = false) (hreset : op ≠ .resetDiagnostics) :
    (m.step op).after.totalWarnings = m.totalWarnings
      ∧ (m.step op).after.totalFaults = m.totalFaults
      ∧ (m.step op).after.snapshot = m.snapshot := by
  rw [step_after]
  cases op with
  | start now =>
    have hinit : m.isInitialized = true := by simpa [storesPass] using h
    dsimp only
    rw [if_pos hinit]
    exact ⟨rfl, rfl, rfl⟩
  | update now =>
    have hdue : ¬(m.isInitialized && m.refresh.isDue now) = true := by
      rw [show (m.isInitialized && m.refresh.isDue now) = false from h]
      exact Bool.false_ne_true
    dsimp only
    rw [if_neg hdue]
    exact ⟨rfl, rfl, rfl⟩
  | validate now =>
    have hnew : m.isInitialized = false := h
    dsimp only
    rw [if_neg (by rw [hnew]; exact Bool.false_ne_true)]
    exact ⟨rfl, rfl, rfl⟩
  | resetDiagnostics => exact absurd rfl hreset
  | _ => exact ⟨rfl, rfl, rfl⟩

/-! ## Rejections and the time of the last refresh -/

/-- The history takes up the time of a rejection and nothing else. -/
theorem step_history :
    (m.step op).after.history = match op with
      | .validate now =>
        if m.isInitialized && !m.pass.isAcceptable then (m.history.record? now).getD m.history
        else m.history
      | .resetDiagnostics => .empty
      | _ => m.history := by
  rw [step_after]
  cases op with
  | start | update =>
    dsimp only
    split <;> rfl
  | validate now =>
    cases hinit : m.isInitialized with
    | false => rfl
    | true =>
      show (if m.pass.isAcceptable then _ else _ : FaultHistory) = _
      cases m.pass.isAcceptable <;> rfl
  | _ => rfl

/-- Only the first start and the refreshes that are due mark the time. -/
theorem step_refresh :
    (m.step op).after.refresh = match op with
      | .start now => if m.isInitialized then m.refresh else m.refresh.mark now
      | .update now =>
        if m.isInitialized && m.refresh.isDue now then m.refresh.mark now else m.refresh
      | _ => m.refresh := by
  rw [step_after]
  cases op with
  | start | update | validate =>
    dsimp only
    split <;> rfl
  | _ => rfl

/-! ## Latches -/

/-- Only the first start, a request and a release touch the latches. -/
theorem step_latches :
    (m.step op).after.latches = match op with
      | .start _ => if m.isInitialized then m.latches else (m.latches.applyAll m.profile).2
      | .resetLatches => .released
      | .apply d => (m.latches.apply d m.profile).2
      | _ => m.latches := by
  rw [step_after]
  cases op with
  | start | update | validate =>
    dsimp only
    split <;> rfl
  | _ => rfl

/-- Only the first start sets the time of the start. -/
theorem step_initializedAt :
    (m.step op).after.initializedAt = match op with
      | .start now => if m.isInitialized then m.initializedAt else now
      | _ => m.initializedAt := by
  rw [step_after]
  cases op with
  | start | update | validate =>
    dsimp only
    split <;> rfl
  | _ => rfl

/-! ## What is turned down -/

section TurnedDown

variable {m}

/-- A second start does nothing. -/
theorem step_start_of_initialized (h : m.isInitialized = true) (now : UInt32) :
    m.step (.start now) = ⟨.started none, m, []⟩ := by
  show (m.start now).map Answer.started = _
  rw [start, if_pos h]
  rfl

/-- A refresh that is not granted does nothing. -/
theorem step_update_of_denied {now : UInt32}
    (h : (m.isInitialized && m.refresh.isDue now) = false) :
    m.step (.update now) = ⟨.decision false, m, []⟩ := by
  show (m.update now).map Answer.decision = _
  rw [update, h, if_neg Bool.false_ne_true]
  rfl

/-- A validation before the start does nothing. -/
theorem step_validate_of_not_initialized (h : m.isInitialized = false) (now : UInt32) :
    m.step (.validate now) = ⟨.decision false, m, []⟩ := by
  show (m.validate now).map Answer.decision = _
  rw [validate, h]
  rfl

end TurnedDown

/-! ## Answers -/

/-- The first start answers with a report on the monitor it leaves, any other with
none. -/
theorem start_answer (now : UInt32) :
    (m.start now).answer = if m.isInitialized then none else some (m.start now).after.report := by
  unfold start
  cases m.isInitialized <;> rfl

/-- A refresh is granted to a monitor that is initialized if it is due. -/
theorem step_update_answer (now : UInt32) :
    (m.step (.update now)).answer = .decision (m.isInitialized && m.refresh.isDue now) := by
  show Answer.decision (m.update now).answer = _
  unfold update
  split
  next h => rw [h]
  next h => rw [Bool.eq_false_iff.mpr h]

/-- A validation accepts the board of a monitor that is initialized if the pass it
makes is acceptable. -/
theorem step_validate_answer (now : UInt32) :
    (m.step (.validate now)).answer = .decision (m.isInitialized && m.pass.isAcceptable) := by
  show Answer.decision (m.validate now).answer = _
  unfold validate
  cases m.isInitialized with
  | false => rfl
  | true =>
    show Answer.decision (if m.pass.isAcceptable then _ else _ : Effect Bool).answer = _
    cases m.pass.isAcceptable <;> rfl

/-! ## Runs -/

/-- A run goes on where the one before it ended. -/
theorem run_append (m : Monitor) (ops ops' : List Operation) :
    m.run (ops ++ ops') = (m.run ops).run ops' :=
  List.foldl_append

/-- A run ends with its last operation. -/
theorem run_concat (m : Monitor) (ops : List Operation) (op : Operation) :
    m.run (ops ++ [op]) = ((m.run ops).step op).after :=
  m.run_append ops [op]

/-- A run does not change the board. -/
theorem run_profile (m : Monitor) (ops : List Operation) : (m.run ops).profile = m.profile := by
  induction ops generalizing m with
  | nil => rfl
  | cons op ops ih => exact (ih _).trans (m.step_profile op)

/-- A monitor is initialized once a start was asked for. -/
theorem run_isInitialized (m : Monitor) (ops : List Operation) :
    (m.run ops).isInitialized = (m.isInitialized || ops.any (·.isStart)) := by
  induction ops generalizing m with
  | nil => exact (Bool.or_false _).symm
  | cons op ops ih =>
    show ((m.step op).after.run ops).isInitialized = _
    rw [ih, step_isInitialized, List.any_cons, Bool.or_assoc]

end Monitor

end BoardHealth
