import BoardHealth.Event
import BoardHealth.FaultHistory
import BoardHealth.Latches
import BoardHealth.Throttle

/-!
# Monitors

A monitor watches one board: it owns the state that operations on the board leave
behind. It is initialized once; until then it refreshes and accepts nothing. Each
operation that has a time is given it, in microseconds on a counter of 32 bits.

An operation is a function from a monitor to its answer, the monitor afterwards
and the events it gives rise to. Readings of the state that change nothing are
functions of the monitor.
-/

namespace BoardHealth

/-- Watches one board. -/
structure Monitor where
  profile : Profile
  telemetry : Telemetry
  /-- The last pass, but for its counters, which are running totals. -/
  snapshot : Snapshot := .blank
  totalWarnings : UInt32 := 0
  totalFaults : UInt32 := 0
  /-- When the configuration was rejected. -/
  history : FaultHistory := .empty
  latches : Latches := .released
  refresh : Throttle := {}
  isInitialized : Bool := false
  initializedAt : UInt32 := 0
deriving DecidableEq

/-- What an operation answers, the monitor it leaves, and its events in order. -/
structure Effect (α : Type) where
  answer : α
  after : Monitor
  events : List Event

namespace Monitor

/-- A monitor for a board, not yet initialized. -/
def new (profile : Profile) (telemetry : Telemetry) : Monitor := { profile, telemetry }

/-- A pass over the board with the readings at hand, its counters those of this
pass alone. -/
def pass (m : Monitor) : Snapshot := diagnose m.profile m.telemetry

/-- The monitor with a pass stored and its counters added to the totals. -/
def store (m : Monitor) (pass : Snapshot) : Monitor :=
  let totalWarnings := addSaturating m.totalWarnings pass.warnings
  let totalFaults := addSaturating m.totalFaults pass.faults
  { m with
    totalWarnings
    totalFaults
    snapshot := { pass with warnings := totalWarnings, faults := totalFaults } }

/-- The report on the stored snapshot. -/
def report (m : Monitor) : Report := .ofPass m.profile m.snapshot

/-- The audit of the board's profile. -/
def audit (m : Monitor) : Audit := m.profile.audit

/-- Engages the protections that the board needs and makes the first pass; answers
with the report on it. A monitor that is initialized stays as it is and gives no
answer. -/
def start (m : Monitor) (now : UInt32) : Effect (Option Report) :=
  if m.isInitialized then ⟨none, m, []⟩
  else
    let (engaged, latches) := m.latches.applyAll m.profile
    let started := { m with snapshot := .blank, initializedAt := now, latches }
    let stored := started.store started.pass
    let after := { stored with refresh := stored.refresh.mark now, isInitialized := true }
    let report := after.report
    ⟨some report, after, engaged.map .engaged ++ m.telemetry.events ++ [.initialized report.score
      report.warningCount report.faultCount report.verdict latches.appliedCount]⟩

/-- Makes a pass if one is due, and answers whether it was. -/
def update (m : Monitor) (now : UInt32) : Effect Bool :=
  if m.isInitialized && m.refresh.isDue now then
    let pass := m.pass
    let after := { m with refresh := m.refresh.mark now }.store pass
    ⟨true, after, m.telemetry.events ++ [.refreshed now after.snapshot.score pass.faults]⟩
  else ⟨false, m, []⟩

/-- Makes a pass and answers whether the board may be run as it is configured. If
not, the time is recorded. A monitor's own history always has room for it. -/
def validate (m : Monitor) (now : UInt32) : Effect Bool :=
  if !m.isInitialized then ⟨false, m, []⟩
  else
    let stored := m.store m.pass
    if stored.snapshot.isAcceptable then ⟨true, stored, m.telemetry.events⟩
    else
      let after := { stored with history := (stored.history.record? now).getD stored.history }
      ⟨false, after,
        m.telemetry.events ++ [.rejected after.snapshot.score now after.history.size]⟩

/-- Sets the counters to zero and forgets the rejections. The score stays until
the next pass, and so do the latches. -/
def resetDiagnostics (m : Monitor) : Monitor :=
  { m with
    totalWarnings := 0
    totalFaults := 0
    snapshot := { m.snapshot with warnings := 0, faults := 0 }
    history := .empty }

/-- Releases the latches. -/
def resetLatches (m : Monitor) : Monitor := { m with latches := .released }

/-- Asks for the protection against a class of defect; answers whether it
engages. -/
def apply (m : Monitor) (d : Defect) : Effect Bool :=
  let (engages, latches) := m.latches.apply d m.profile
  ⟨engages, { m with latches },
    (m.latches.engagement? d m.profile).toList.map .engaged⟩

/-- The monitor with other readings at hand. -/
def observe (m : Monitor) (telemetry : Telemetry) : Monitor := { m with telemetry }

end Monitor

end BoardHealth
