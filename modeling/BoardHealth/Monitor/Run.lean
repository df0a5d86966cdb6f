import BoardHealth.Monitor

/-!
# Runs

A run is a sequence of operations on a monitor. Every way to use a monitor is an
operation here, those that only read it included, so that what holds of all runs
holds of all uses.
-/

namespace BoardHealth

/-- The ways to use a monitor. -/
inductive Operation where
  | start (now : UInt32)
  | update (now : UInt32)
  | validate (now : UInt32)
  /-- A pass that is not stored. -/
  | pass
  | resetDiagnostics
  | resetLatches
  | apply (defect : Defect)
  | observe (telemetry : Telemetry)
  | report
  | snapshot
  /-- Only the faults of the snapshot. -/
  | faultCount
  | history
  | overrides
  | latches
  | profile
  | telemetry
  | isInitialized
  | initializedAt
  | audit
  /-- Only whether an audit finds nothing; the audit is made all the same. -/
  | passesAudit
deriving DecidableEq

/-- What operations answer. -/
inductive Answer where
  | started (report : Option Report)
  | decision (value : Bool)
  | done
  | snapshot (value : Snapshot)
  | telemetry (value : Telemetry)
  | report (value : Report)
  | history (value : FaultHistory)
  | overrides (value : Overrides)
  | latches (value : Latches)
  | profile (value : Profile)
  | count (value : UInt32)
  /-- In microseconds. -/
  | time (value : UInt32)
  | audit (value : Audit)
deriving DecidableEq

/-- An effect with another form of answer. -/
def Effect.map {α β : Type} (f : α → β) (e : Effect α) : Effect β :=
  ⟨f e.answer, e.after, e.events⟩

namespace Monitor

/-- Carries out an operation. -/
def step (m : Monitor) : Operation → Effect Answer
  | .start now => (m.start now).map .started
  | .update now => (m.update now).map .decision
  | .validate now => (m.validate now).map .decision
  | .pass => ⟨.snapshot m.pass, m, m.telemetry.events⟩
  | .resetDiagnostics => ⟨.done, m.resetDiagnostics, []⟩
  | .resetLatches => ⟨.done, m.resetLatches, []⟩
  | .apply defect => (m.apply defect).map .decision
  | .observe telemetry => ⟨.telemetry telemetry, m.observe telemetry, []⟩
  | .report => ⟨.report m.report, m, []⟩
  | .snapshot => ⟨.snapshot m.snapshot, m, []⟩
  | .faultCount => ⟨.count m.snapshot.faults, m, []⟩
  | .history => ⟨.history m.history, m, []⟩
  | .overrides => ⟨.overrides m.latches.overrides, m, []⟩
  | .latches => ⟨.latches m.latches, m, []⟩
  | .profile => ⟨.profile m.profile, m, []⟩
  | .telemetry => ⟨.telemetry m.telemetry, m, []⟩
  | .isInitialized => ⟨.decision m.isInitialized, m, []⟩
  | .initializedAt => ⟨.time m.initializedAt, m, []⟩
  | .audit => ⟨.audit m.audit, m, m.audit.events⟩
  | .passesAudit => ⟨.decision m.audit.passed, m, m.audit.events⟩

/-- The effects of a sequence of operations, each on the monitor that the one
before left. -/
def effects (m : Monitor) : List Operation → List (Effect Answer)
  | [] => []
  | op :: ops => m.step op :: (m.step op).after.effects ops

/-- The monitor after a sequence of operations. -/
def run (m : Monitor) (ops : List Operation) : Monitor :=
  ops.foldl (fun m op => (m.step op).after) m

/-- The events of a sequence of operations, in order. -/
def log (m : Monitor) (ops : List Operation) : List Event :=
  (m.effects ops).flatMap (·.events)

end Monitor

end BoardHealth
