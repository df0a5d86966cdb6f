import BoardHealth.Proofs.FaultRing
import BoardHealth.Proofs.Journal

/-!
# Rejections on record

A monitor's fault history is what the ring makes of the rejections since the last
reset. This is `Kept`, an invariant of every run. What the ring holds is known from
`Recorded`, so

> `history_of_run`: read backwards from its write index, the history is the end of
> the rejections, the newest first.

Nothing else reaches the history: a pass that a start or a refresh makes does not,
however bad the score, nor does the refusal of a monitor that was not started.
-/

namespace BoardHealth

namespace Journal

variable {p : Profile} {j : Journal} {m : Monitor}

/-- The journal tells rejections from their answers as the monitor makes them. -/
theorem Follows.rejection?_validate (h : Follows p j m) (now : UInt32) :
    j.rejection? (.validate now) (m.step (.validate now)).answer =
      if m.isInitialized && !m.pass.isAcceptable then some now else none := by
  rw [rejection?, Monitor.step_validate_answer, ← h.started]
  cases m.isInitialized <;> cases m.pass.isAcceptable <;> rfl

/-- A rejection comes from a validation that finds the board not acceptable. -/
theorem Follows.of_rejection?_eq_some (h : Follows p j m) {op : Operation} {time : UInt32}
    (hsome : j.rejection? op (m.step op).answer = some time) :
    op = .validate time ∧ (m.isInitialized && !m.pass.isAcceptable) = true := by
  cases op with
  | validate now =>
    rw [h.rejection?_validate] at hsome
    split at hsome
    next hrejects => exact ⟨congrArg _ (Option.some.inj hsome), hrejects⟩
    next => exact absurd hsome nofun
  | _ => exact absurd hsome nofun

/-- An operation that neither rejects the board nor resets leaves the history. -/
theorem Follows.step_history_of_none (h : Follows p j m) {op : Operation}
    (hreset : op ≠ .resetDiagnostics) (hnone : j.rejection? op (m.step op).answer = none) :
    (m.step op).after.history = m.history := by
  rw [Monitor.step_history]
  cases op with
  | validate now =>
    rw [h.rejection?_validate] at hnone
    dsimp only
    split
    next hrejects =>
      rw [if_pos hrejects] at hnone
      exact absurd hnone nofun
    next => rfl
  | resetDiagnostics => exact absurd rfl hreset
  | _ => rfl

/-- The history of the monitor is what the ring makes of the rejections. -/
def Kept (j : Journal) (m : Monitor) : Prop :=
  FaultHistory.empty.recordAll? j.rejections = some m.history

/-- The ring takes one more rejection. -/
theorem Kept.record (h : Kept j m) (now : UInt32) :
    ∃ history, m.history.record? now = some history
      ∧ FaultHistory.empty.recordAll? (j.rejections ++ [now]) = some history := by
  obtain ⟨h', hall, hrec⟩ := FaultHistory.recordAll?_eq_some (h := .empty) (by decide) j.rejections
  rw [Kept, hall] at h
  obtain rfl := Option.some.inj h
  obtain ⟨h'', hrecord, -⟩ := hrec.concat now
  refine ⟨h'', hrecord, ?_⟩
  rw [FaultHistory.recordAll?, List.foldlM_append]
  show (FaultHistory.empty.recordAll? j.rejections >>= _) = _
  rw [hall]
  show (m.history.record? now >>= pure) = _
  rw [hrecord]
  rfl

/-- Every call keeps the history in step with the rejections. -/
theorem Kept.enter (op : Operation) (hfollows : Follows p j m) (h : Kept j m) :
    Kept (j.enter op (m.step op).answer) (m.step op).after := by
  by_cases hreset : op = .resetDiagnostics
  · subst hreset
    rfl
  have hrejections : (j.enter op (m.step op).answer).rejections =
      j.rejections ++ (j.rejection? op (m.step op).answer).toList := if_neg hreset
  rw [Kept, hrejections]
  cases hr : j.rejection? op (m.step op).answer with
  | none =>
    rw [hfollows.step_history_of_none hreset hr, Option.toList_none, List.append_nil]
    exact h
  | some time =>
    obtain ⟨rfl, hrejects⟩ := hfollows.of_rejection?_eq_some hr
    obtain ⟨history, hrecord, hall⟩ := h.record time
    rw [Monitor.step_history, Option.toList_some, hall]
    dsimp only
    rw [if_pos hrejects, hrecord, Option.getD_some]

end Journal

namespace Monitor

/-- After every run the ring holds the rejections since the last reset. -/
theorem recorded_of_run (p : Profile) (t : Telemetry) (ops : List Operation) :
    FaultHistory.Recorded .empty (Journal.ofCalls t ((new p t).calls ops)).rejections
      ((new p t).run ops).history := by
  have hkept := (run_induction (t := t) (fun j m => j.Kept m) rfl
    (fun j m op hfollows h => h.enter op hfollows) ops (p := p)).2
  obtain ⟨h', hall, hrec⟩ := FaultHistory.recordAll?_eq_some (h := .empty) (by decide) _
  rw [Journal.Kept, hall] at hkept
  rwa [Option.some.inj hkept] at hrec

/-- **Rejections on record.** Whatever is asked of a monitor and in whatever order,
its history holds the end of the rejections since the last reset: as many as there
are slots, the newest first when they are read backwards from the write index, and
zero in the slots not yet in use. The next rejection always finds room. An
operation that neither rejects the board nor resets leaves the history as it is. -/
theorem history_of_run (p : Profile) (t : Telemetry) (ops : List Operation) :
    let m := (new p t).run ops
    let j := Journal.ofCalls t ((new p t).calls ops)
    m.isInitialized = j.started
      ∧ m.history.recorded.toNat = min j.rejections.length (2 ^ 32 - 1)
      ∧ m.history.size = min j.rejections.length 16
      ∧ (m.history.isEmpty = true ↔ j.rejections = [])
      ∧ m.history.writeIndex.toNat = j.rejections.length % 16
      ∧ (∀ now, (m.history.record? now).isSome = true)
      ∧ m.history.recent = j.rejections.reverse.take m.history.size
      ∧ (∀ i, i ∉ m.history.slotsInUse → m.history.slots.get i = 0)
      ∧ m.history.latest? = j.rejections.getLast?
      ∧ ∀ op, op ≠ .resetDiagnostics → j.rejection? op (m.step op).answer = none →
          (m.step op).after.history = m.history := by
  intro m j
  obtain ⟨hfollows, hkept⟩ := run_induction (t := t) (fun j m => j.Kept m) rfl
    (fun j m op hfollows h => h.enter op hfollows) ops
  obtain ⟨h', hall, hrec⟩ := FaultHistory.recordAll?_eq_some (h := .empty) (by decide) j.rejections
  have hhistory : h' = m.history := Option.some.inj (hall.symm.trans hkept)
  rw [hhistory] at hrec
  refine ⟨hfollows.started, hrec.recorded_eq, hrec.size_eq, hrec.isEmpty_iff,
    hrec.writeIndex_eq, ?_, hrec.recent_eq, fun i hi => hrec.slot_eq_zero hi, hrec.latest?_eq,
    fun op hreset hnone => hfollows.step_history_of_none hreset hnone⟩
  intro now
  obtain ⟨h'', hrecord, -⟩ := hrec.concat now
  rw [hrecord]
  rfl

end Monitor

end BoardHealth
