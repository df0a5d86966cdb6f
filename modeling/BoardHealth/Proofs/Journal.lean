import BoardHealth.Proofs.Step

/-!
# The journal of a run

A `Journal` says what a run has come to from its calls and their answers alone,
without a look at the state of the monitor: whether a start was asked for, which
readings are at hand, with which readings passes were made, and at which times a
configuration was rejected. Laws about whole runs compare the monitor with it.

`Journal.Follows` is what every journal and its monitor have in common, and
`run_induction` is the induction over a run: what holds of a new monitor and an
empty journal, and is kept by every call, holds after every run.
-/

namespace BoardHealth

/-- The calls of a run, each with its answer. -/
def Monitor.calls (m : Monitor) (ops : List Operation) : List (Operation × Answer) :=
  ops.zip ((m.effects ops).map (·.answer))

/-- What a run has come to so far. -/
structure Journal where
  /-- Whether a start was asked for. -/
  started : Bool := false
  /-- The readings at hand. -/
  readings : Telemetry
  /-- The readings of the passes since the counters were last reset, in order. -/
  passes : List Telemetry := []
  /-- The readings of the last pass of all. -/
  lastPass : Option Telemetry := none
  /-- When the configuration was rejected since the counters were last reset, in
  order. -/
  rejections : List UInt32 := []

namespace Journal

/-- Whether a call made a pass: the first start does, an update that is granted,
and a validation after the start. -/
def isPass (j : Journal) : Operation → Answer → Bool
  | .start _, _ => !j.started
  | .update _, answer => answer = .decision true
  | .validate _, _ => j.started
  | _, _ => false

/-- The time of a call that rejected the configuration of a started board. -/
def rejection? (j : Journal) : Operation → Answer → Option UInt32
  | .validate now, answer => if j.started ∧ answer = .decision false then some now else none
  | _, _ => none

/-- The journal with a call and its answer entered. -/
def enter (j : Journal) (op : Operation) (answer : Answer) : Journal where
  started := j.started || op.isStart
  readings := match op with
    | .observe t => t
    | _ => j.readings
  passes :=
    if op = .resetDiagnostics then []
    else if j.isPass op answer then j.passes ++ [j.readings]
    else j.passes
  lastPass := if j.isPass op answer then some j.readings else j.lastPass
  rejections :=
    if op = .resetDiagnostics then [] else j.rejections ++ (j.rejection? op answer).toList

/-- The journal of a run that begins with the given readings at hand. -/
def ofCalls (readings : Telemetry) (calls : List (Operation × Answer)) : Journal :=
  calls.foldl (fun j call => j.enter call.1 call.2) { readings }

/-- The journal and the monitor agree on what passes depend on. -/
structure Follows (p : Profile) (j : Journal) (m : Monitor) : Prop where
  profile : m.profile = p
  started : m.isInitialized = j.started
  readings : m.telemetry = j.readings

namespace Follows

variable {p : Profile} {j : Journal} {m : Monitor}

/-- A call keeps the journal and the monitor in agreement. -/
theorem enter (h : Follows p j m) (op : Operation) :
    Follows p (j.enter op (m.step op).answer) (m.step op).after where
  profile := by rw [Monitor.step_profile, h.profile]
  started := by rw [Monitor.step_isInitialized, h.started]; rfl
  readings := by
    rw [Monitor.step_telemetry, h.readings]
    rfl

/-- The journal tells passes from their answers as the monitor makes them. -/
theorem isPass_eq (h : Follows p j m) (op : Operation) :
    j.isPass op (m.step op).answer = m.storesPass op := by
  cases op with
  | start now => rw [isPass, Monitor.storesPass, h.started]
  | update now =>
    rw [isPass, Monitor.step_update_answer, Monitor.storesPass]
    cases m.isInitialized && m.refresh.isDue now <;> rfl
  | validate now => rw [isPass, Monitor.storesPass, h.started]
  | _ => rfl

/-- The passes on record are those of the monitor. -/
theorem passes_enter (h : Follows p j m) (op : Operation) :
    (j.enter op (m.step op).answer).passes =
      if op = .resetDiagnostics then []
      else if m.storesPass op then j.passes ++ [j.readings] else j.passes := by
  rw [← h.isPass_eq]
  rfl

/-- The last pass on record is that of the monitor. -/
theorem lastPass_enter (h : Follows p j m) (op : Operation) :
    (j.enter op (m.step op).answer).lastPass =
      if m.storesPass op then some j.readings else j.lastPass := by
  rw [← h.isPass_eq]
  rfl

/-- The monitor's next pass is made with the readings of the journal. -/
theorem pass_eq (h : Follows p j m) : m.pass = diagnose p j.readings := by
  rw [Monitor.pass, h.profile, h.readings]

end Follows

end Journal

namespace Monitor

/-- The effects of a run that goes on. -/
theorem effects_append (m : Monitor) (ops ops' : List Operation) :
    m.effects (ops ++ ops') = m.effects ops ++ (m.run ops).effects ops' := by
  induction ops generalizing m with
  | nil => rfl
  | cons op ops ih => exact congrArg (m.step op :: ·) (ih (m.step op).after)

/-- Each operation has one effect. -/
theorem length_effects (m : Monitor) (ops : List Operation) :
    (m.effects ops).length = ops.length := by
  induction ops generalizing m with
  | nil => rfl
  | cons op ops ih => exact congrArg (· + 1) (ih (m.step op).after)

/-- The calls of a run with one more operation. -/
theorem calls_concat (m : Monitor) (ops : List Operation) (op : Operation) :
    m.calls (ops ++ [op]) = m.calls ops ++ [(op, ((m.run ops).step op).answer)] := by
  have hlength : ops.length = ((m.effects ops).map (·.answer)).length := by
    rw [List.length_map, length_effects]
  rw [calls, effects_append, List.map_append, List.zip_append hlength]
  rfl

/-- The journal of a run with one more operation has one more entry. -/
theorem ofCalls_concat (p : Profile) (t : Telemetry) (ops : List Operation) (op : Operation) :
    Journal.ofCalls t ((new p t).calls (ops ++ [op])) =
      (Journal.ofCalls t ((new p t).calls ops)).enter op
        (((new p t).run ops).step op).answer := by
  rw [calls_concat, Journal.ofCalls, List.foldl_append]
  rfl

/-- **Induction over a run.** What holds of a new monitor and its empty journal,
and is kept by every call, holds after every run. -/
theorem run_induction {p : Profile} {t : Telemetry} (I : Journal → Monitor → Prop)
    (hnew : I { readings := t } (new p t))
    (hcall : ∀ j m op, Journal.Follows p j m → I j m →
      I (j.enter op (m.step op).answer) (m.step op).after)
    (ops : List Operation) :
    Journal.Follows p (.ofCalls t ((new p t).calls ops)) ((new p t).run ops)
      ∧ I (.ofCalls t ((new p t).calls ops)) ((new p t).run ops) := by
  -- The calls so far are in the journal, so journal and monitor stay general.
  have hrun : ∀ (ops : List Operation) (j : Journal) (m : Monitor),
      Journal.Follows p j m → I j m →
      Journal.Follows p ((m.calls ops).foldl (fun j call => j.enter call.1 call.2) j) (m.run ops)
        ∧ I ((m.calls ops).foldl (fun j call => j.enter call.1 call.2) j) (m.run ops) := by
    intro ops
    induction ops with
    | nil => intro j m hfollows hI; exact ⟨hfollows, hI⟩
    | cons op ops ih =>
      intro j m hfollows hI
      exact ih _ _ (hfollows.enter op) (hcall j m op hfollows hI)
  exact hrun ops _ _ ⟨rfl, rfl, rfl⟩ hnew

end Monitor

end BoardHealth
