import BoardHealth.Proofs.Events
import BoardHealth.Proofs.Rejections
import Mathlib.Data.List.Induction

/-!
# The log of a run

What an operation logs is known from `BoardHealth.Proofs.Events`. What a whole run
has logged of one kind follows by induction from the run's last operation, and can
be read off the state that the run ends in:

> `Rejected`: the rejections logged are as many as were recorded, and the last of
> them tells how the history stands.
> `countP_warnsOf_logSince`: there is one warning for each latch that is set.
> `countP_initialized_log`, `countP_refreshed_log`: there is one event for the first
> start, and one for each refresh.

Resets take back what was logged before. `logSince` is therefore what was logged
since an operation was last called for. The main statement is

> `log_of_run`: the log mirrors the state, and what is turned down is not logged.
-/

namespace BoardHealth

namespace Monitor

variable {p : Profile} {t : Telemetry}

/-- What was logged since an operation was last called for. -/
def logSince (m : Monitor) (mark : Operation) (ops : List Operation) : List Event :=
  (ops.zip (m.effects ops)).foldl
    (fun log call => if call.1 = mark then [] else log ++ call.2.events) []

/-- The last operation has the last events. -/
theorem log_concat (m : Monitor) (ops : List Operation) (op : Operation) :
    m.log (ops ++ [op]) = m.log ops ++ ((m.run ops).step op).events := by
  rw [log, effects_append, List.flatMap_append]
  exact congrArg _ (List.append_nil _)

/-- The last operation has the last events, or takes back those before. -/
theorem logSince_concat (m : Monitor) (mark : Operation) (ops : List Operation) (op : Operation) :
    m.logSince mark (ops ++ [op]) =
      if op = mark then [] else m.logSince mark ops ++ ((m.run ops).step op).events := by
  rw [logSince, effects_append, List.zip_append (m.length_effects ops).symm, List.foldl_append]
  rfl

/-! ## Rejections -/

/-- The rejections logged and the history tell the same. -/
structure Rejected (rejected : List Event) (h : FaultHistory) : Prop where
  recorded : h.recorded.toNat = min rejected.length (2 ^ 32 - 1)
  latest : (rejected.getLast?.map fun e => (e.fields.lookup "now_us", e.fields.lookup "history")) =
    h.latest?.map fun now => (some (.count now.toNat), some (.count h.size))

/-- One more rejection is one more on record. -/
theorem Rejected.concat {rejected : List Event} {h h' : FaultHistory} {times : List UInt32}
    (hrejected : Rejected rejected h) (hrec : FaultHistory.Recorded .empty times h) {now : UInt32}
    (hrecord : h.record? now = some h') (score : Single) :
    Rejected (rejected ++ [.rejected score now h'.size]) h' := by
  obtain ⟨h'', hsome, hrec''⟩ := hrec.concat now
  obtain rfl := Option.some.inj (hrecord.symm.trans hsome)
  refine ⟨?_, ?_⟩
  · have hrecorded := hrejected.recorded
    rw [hrec.recorded_eq] at hrecorded
    rw [hrec''.recorded_eq, List.length_append, List.length_append, List.length_singleton,
      List.length_singleton]
    omega
  · rw [hrec''.latest?_eq, List.getLast?_concat, List.getLast?_concat]
    rfl

/-- **Rejections in the log.** -/
theorem rejected_logSince (p : Profile) (t : Telemetry) (ops : List Operation) :
    Rejected (((new p t).logSince .resetDiagnostics ops).filter
      (·.isLine .warn "Hardware configuration rejected")) ((new p t).run ops).history := by
  induction ops using List.reverseRecOn with
  | nil => exact ⟨rfl, rfl⟩
  | append_singleton ops op ih =>
    have hrec := recorded_of_run p t ops
    rw [logSince_concat, run_concat, step_history]
    by_cases hreset : op = .resetDiagnostics
    · subst hreset
      exact ⟨rfl, rfl⟩
    rw [if_neg hreset, List.filter_append, filter_rejected_step]
    cases op with
    | validate now =>
      dsimp only
      split
      next hrejects =>
        obtain ⟨h', hrecord, -⟩ := hrec.concat now
        have hjudged : (((new p t).run ops).judged now).history = h' := by
          have hbad : ((new p t).run ops).pass.isAcceptable = false := by simp_all
          rw [judged, hrecord, hbad, if_neg Bool.false_ne_true, Option.getD_some]
        rw [hjudged, hrecord, Option.getD_some]
        exact ih.concat hrec hrecord _
      next =>
        rw [List.append_nil]
        exact ih
    | resetDiagnostics => exact absurd rfl hreset
    | _ =>
      rw [List.append_nil]
      exact ih

/-! ## Latches, the first start and refreshes -/

/-- Since the last release there is one warning for each latch that is set. -/
theorem countP_warnsOf_logSince (p : Profile) (t : Telemetry) (ops : List Operation) (d : Defect) :
    ((new p t).logSince .resetLatches ops).countP (·.warnsOf d.code) =
      (((new p t).run ops).latches.isApplied d).toNat := by
  induction ops using List.reverseRecOn with
  | nil => cases d <;> rfl
  | append_singleton ops op ih =>
    rw [logSince_concat, run_concat]
    by_cases hrelease : op = .resetLatches
    · subst hrelease
      cases d <;> rfl
    · rw [if_neg hrelease, List.countP_append, ih, countP_warnsOf_step,
        ← countP_engagedBy _ op hrelease, Nat.add_comm]

/-- There is one event for the first start, if there was one. -/
theorem countP_initialized_log (p : Profile) (t : Telemetry) (ops : List Operation) :
    ((new p t).log ops).countP (·.isLine .info "Hardware adaptations initialized") =
      ((new p t).run ops).isInitialized.toNat := by
  induction ops using List.reverseRecOn with
  | nil => rfl
  | append_singleton ops op ih =>
    rw [log_concat, run_concat, List.countP_append, ih, ← countP_initialized_step, Nat.add_comm]

/-- There is one event for each refresh that was granted. -/
theorem countP_refreshed_log (m : Monitor) (ops : List Operation) :
    (m.log ops).countP (·.isLine .debug "Diagnostics refreshed") =
      (m.calls ops).countP fun call => call.1.isUpdate && call.2 = .decision true := by
  induction ops using List.reverseRecOn with
  | nil => rfl
  | append_singleton ops op ih =>
    rw [log_concat, calls_concat, List.countP_append, List.countP_append, ih,
      countP_refreshed_step, List.countP_singleton]
    cases op.isUpdate && decide (((m.run ops).step op).answer = .decision true) <;> rfl

/-- **The log mirrors the state.** Since the counters were last reset there are as
many rejections in the log as on record, and the last of them names the latest time
and the size of the history. Since the latches were last released there is one
warning for each that is set and none for the others. A monitor that is initialized
has logged this once, and each refresh once when it was granted. A pass, stored or
not, warns once of each group of readings that holds one that is not finite. An
audit, be it asked for its verdict alone, has one error for each violation, in
order, and a summary, and there is no other error. What is turned down changes
nothing, and nothing is logged but passes, audits and requests that are granted. -/
theorem log_of_run (p : Profile) (t : Telemetry) (ops : List Operation) :
    let m := (new p t).run ops
    let rejected := ((new p t).logSince .resetDiagnostics ops).filter
      (·.isLine .warn "Hardware configuration rejected")
    m.history.recorded.toNat = min rejected.length (2 ^ 32 - 1)
      ∧ (rejected.getLast?.map fun e => (e.fields.lookup "now_us", e.fields.lookup "history")) =
        (m.history.latest?.map fun now => (some (.count now.toNat), some (.count m.history.size)))
      ∧ (∀ d : Defect, ((new p t).logSince .resetLatches ops).countP (·.warnsOf d.code) =
          (m.latches.isApplied d).toNat)
      ∧ ((new p t).log ops).countP (·.isLine .info "Hardware adaptations initialized") =
        m.isInitialized.toNat
      ∧ ((new p t).log ops).countP (·.isLine .debug "Diagnostics refreshed") =
        ((new p t).calls ops).countP (fun call => call.1.isUpdate && call.2 = .decision true)
      ∧ ∀ op,
        let events := (m.step op).events
        events.countP (·.isLine .debug "Diagnostics refreshed") =
            (op.isUpdate && (m.step op).answer = .decision true).toNat
          ∧ (∀ group ∈ m.telemetry.groups, events.countP (·.isLine .warn group.2) =
              (m.makesPass op && !group.1.all (·.isFinite)).toNat)
          ∧ (op.isAudit = true → events.map (fun e => (e.level, e.message)) = p.auditLines)
          ∧ (op.isAudit = false → ∀ e ∈ events, e.level ≠ .error)
          ∧ (m.turnsDown op = true → (m.step op).after = m ∧ events = [])
          ∧ (m.makesPass op = false → op.isAudit = false →
              (m.step op).answer ≠ .decision true → events = []) := by
  intro m rejected
  obtain ⟨hrecorded, hlatest⟩ := rejected_logSince p t ops
  refine ⟨hrecorded, hlatest, countP_warnsOf_logSince p t ops, countP_initialized_log p t ops,
    countP_refreshed_log _ ops, fun op => ⟨m.countP_refreshed_step op,
      fun group hgroup => m.countP_groups_step op hgroup, ?_,
      fun h e he => m.level_ne_error op h he, m.step_of_turnsDown op, m.events_eq_nil op⟩⟩
  intro haudit
  have hprofile : m.profile = p := run_profile _ ops
  rw [← hprofile]
  exact m.audit_lines op haudit

end Monitor

end BoardHealth
