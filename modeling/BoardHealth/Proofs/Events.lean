import BoardHealth.Proofs.Engagement

/-!
# What an operation logs

Events are handed out by many operations, and what they report happens elsewhere: in
the latches, the history, the counters. `step_events` says once which events an
operation has: those of the protections that engage, those of the readings that a
pass is made with, and its `outcome`. Each kind of event is found in one of the
three only, so a count of one kind is a count over that one:

> `countP_warnsOf_step`: warnings under a code come from the protections.
> `countP_groups_step`: a pass warns once of each group of readings that holds one
> that is not finite.
> `filter_rejected_step`, `countP_initialized_step`, `countP_refreshed_step`: an
> outcome is logged where the state changes accordingly, and nowhere else.
-/

namespace BoardHealth

/-! ## Lines -/

theorem Defect.code_inj {d e : Defect} : d.code = e.code ↔ d = e := by
  cases d <;> cases e <;> decide

namespace Event

/-- Whether the event is logged at a level and with a message. -/
def isLine (level : Level) (message : String) (e : Event) : Bool :=
  e.level = level && e.message = message

/-- Whether the event is a warning under a code. -/
def warnsOf (code : String) (e : Event) : Bool :=
  e.level = .warn && ("code", Datum.text code) ∈ e.fields

/-- An event has no other level than its own. -/
theorem isLine_eq_false {e : Event} {level : Level} (h : e.level ≠ level) (message : String) :
    e.isLine level message = false := by
  rw [isLine, decide_eq_false h, Bool.false_and]

/-- The warning of a protection is under the code of its class and no other. -/
theorem warnsOf_engaged (d : Defect) (protection : Protection) :
    (engaged protection).warnsOf d.code = decide (protection.defect = d) := by
  have hfields : ("code", .text d.code) ∉ protectionFields protection := by
    cases protection <;> simp [protectionFields]
  simp [warnsOf, level, fields, hfields, Defect.code_inj, eq_comm]

end Event

namespace Telemetry

/-- The readings that are looked at together, each group with the warning that is
due if one of them is not a finite number. -/
def groups (t : Telemetry) : List (List Single × String) := [
  ([t.motorTemp, t.fetTemp], "Non-finite temperature reading"),
  ([t.inputVoltage], "Non-finite input voltage reading"),
  ([t.totalCurrent], "Non-finite current reading")]

variable {t : Telemetry}

/-- The readings of a pass give rise to warnings of three kinds. -/
theorem cases_of_mem_events {e : Event} (h : e ∈ t.events) :
    e = .temperatureNotFinite t.motorTemp t.fetTemp ∨ e = .voltageNotFinite t.inputVoltage
      ∨ e = .currentNotFinite t.totalCurrent := by
  simp only [events, List.mem_append] at h
  rcases h with (h | h) | h <;> split at h <;> simp_all

/-- Each group of readings that holds one that is not finite has one warning. -/
theorem countP_events {group : List Single × String} (h : group ∈ t.groups) :
    t.events.countP (·.isLine .warn group.2) = (!group.1.all (·.isFinite)).toNat := by
  have hcount : ∀ (b : Bool) (e : Event), (if b then [] else [e]).countP (·.isLine .warn group.2) =
      (!b && e.isLine .warn group.2).toNat := by
    intro b e
    cases b <;> cases hline : e.isLine .warn group.2 <;> simp [hline]
  rw [events, List.countP_append, List.countP_append, hcount, hcount, hcount]
  simp only [groups, List.mem_cons, List.not_mem_nil, or_false] at h
  rcases h with rfl | rfl | rfl <;> simp [Event.isLine, Event.level, Event.message]

end Telemetry

namespace Latches

variable {l : Latches} {p : Profile}

/-- The latch of a class is set by the protection that engages. -/
theorem countP_engagement? (d e : Defect) :
    (l.engagement? e p).toList.countP (·.defect = d) + (l.isApplied d).toNat =
      ((l.apply e p).2.isApplied d).toNat := by
  rw [isApplied_apply, engagement?, ← engages]
  cases hengages : l.engages e p with
  | false => simp
  | true =>
    -- It engages because its latch is not set.
    have hfree : l.isApplied e = false := by simp_all [engages]
    by_cases hd : d = e
    · subst hd
      simp [Defect.defect_protection, hfree]
    · simp [Defect.defect_protection, hd, eq_comm]

/-- Each protection that engages sets the latch of its class. -/
theorem countP_applyEach (ds : List Defect) (d : Defect) :
    (l.applyEach p ds).1.countP (·.defect = d) + (l.isApplied d).toNat =
      ((l.applyEach p ds).2.isApplied d).toNat := by
  induction ds generalizing l with
  | nil => exact Nat.zero_add _
  | cons e ds ih =>
    show ((l.engagement? e p).toList ++ ((l.apply e p).2.applyEach p ds).1).countP _ + _ =
      (((l.apply e p).2.applyEach p ds).2.isApplied d).toNat
    rw [List.countP_append, ← ih, ← countP_engagement?]
    omega

end Latches

/-- An audit logs errors, or that all is well. -/
theorem Audit.countP_events (a : Audit) {level : Level} (message : String) (hlevel : level ≠ .error)
    (hpassed : Event.auditPassed.isLine level message = false) :
    a.events.countP (·.isLine level message) = 0 := by
  rw [List.countP_eq_zero]
  intro e he
  rw [events, List.mem_append, List.mem_map, List.mem_singleton] at he
  rw [Bool.not_eq_true]
  rcases he with ⟨v, -, rfl⟩ | rfl
  · exact Event.isLine_eq_false (e := .auditFound v) hlevel.symm message
  · split
    next => exact hpassed
    next => exact Event.isLine_eq_false (e := .auditFailed _) hlevel.symm message

/-- The lines that an audit of the board has in a log: what it finds, in order, and
a summary. -/
def Profile.auditLines (p : Profile) : List (Level × String) :=
  (Violation.all.filter (·.isFound p)).map (fun v => (.error, "Safety failure: " ++ v.text))
    ++ [if Violation.all.any (·.isFound p) then (.error, "Critical safety failures detected")
      else (.info, "All safety mechanisms validated")]

namespace Operation

/-- Whether the operation asks for a refresh. -/
def isUpdate : Operation → Bool
  | update _ => true
  | _ => false

/-- Whether the operation audits the board. -/
def isAudit : Operation → Bool
  | audit | passesAudit => true
  | _ => false

end Operation

namespace Monitor

/-! ## The events of an operation -/

section Step

variable (m : Monitor) (op : Operation)

/-- The protections that engage in an operation. -/
def engagedBy (m : Monitor) : Operation → List Protection
  | .start _ => if m.isInitialized then [] else (m.latches.applyAll m.profile).1
  | .apply d => (m.latches.engagement? d m.profile).toList
  | _ => []

/-- Whether the operation makes a pass, be it stored or not. -/
def makesPass (m : Monitor) (op : Operation) : Bool := m.storesPass op || op = .pass

/-- The events that report how an operation ended. -/
def outcome (m : Monitor) : Operation → List Event
  | .start now =>
    if m.isInitialized then []
    else
      let report := (m.started now).report
      [.initialized report.score report.warningCount report.faultCount report.verdict
        (m.started now).latches.appliedCount]
  | .update now =>
    if m.isInitialized && m.refresh.isDue now then [.refreshed now m.pass.score m.pass.faults]
    else []
  | .validate now =>
    if m.isInitialized && !m.pass.isAcceptable then
      [.rejected m.pass.score now (m.judged now).history.size]
    else []
  | .audit | .passesAudit => m.audit.events
  | _ => []

/-- The events of an operation. -/
theorem step_events : (m.step op).events =
    (m.engagedBy op).map .engaged ++ (if m.makesPass op then m.telemetry.events else [])
      ++ m.outcome op := by
  cases op with
  | start now =>
    show (m.start now).events = _
    unfold start makesPass storesPass engagedBy outcome
    cases m.isInitialized <;> rfl
  | update now =>
    have hpass : m.makesPass (.update now) = (m.isInitialized && m.refresh.isDue now) :=
      Bool.or_false _
    rw [hpass]
    show (m.update now).events = [] ++ (if m.isInitialized && m.refresh.isDue now then _ else [])
      ++ (if m.isInitialized && m.refresh.isDue now then _ else [])
    unfold update
    split <;> rfl
  | validate now =>
    show (m.validate now).events = _
    unfold validate makesPass storesPass engagedBy outcome judged
    cases m.isInitialized with
    | false => rfl
    | true =>
      show (if m.pass.isAcceptable then _ else _ : Effect Bool).events = _
      cases m.pass.isAcceptable with
      | false => rfl
      | true => exact (List.append_nil _).symm
  | apply d =>
    show _ = (_ ++ []) ++ []
    rw [List.append_nil, List.append_nil]
    rfl
  | pass => exact (List.append_nil _).symm
  | _ => rfl

/-- What an operation ended with is a warning only if it is a rejection. -/
theorem cases_of_mem_outcome {e : Event} (h : e ∈ m.outcome op) :
    e.level ≠ .warn ∨ ∃ score now history, e = .rejected score now history := by
  cases op with
  | start now | update now =>
    have hif : e ∈ if _ then _ else _ := h
    split at hif <;> simp_all [Event.level]
  | validate now =>
    have hif : e ∈ if _ then _ else _ := h
    split at hif
    next => exact .inr ⟨_, _, _, List.mem_singleton.mp hif⟩
    next => exact absurd hif List.not_mem_nil
  | audit | passesAudit =>
    left
    have haudit : e ∈ m.audit.events := h
    rw [Audit.events, List.mem_append, List.mem_map, List.mem_singleton] at haudit
    rcases haudit with ⟨v, -, rfl⟩ | rfl
    · exact nofun
    · split <;> exact nofun
  | _ => exact absurd h List.not_mem_nil

/-- Events of one kind are counted in each of the three places. -/
theorem countP_step (P : Event → Bool) : (m.step op).events.countP P =
    (m.engagedBy op).countP (fun protection => P (.engaged protection))
      + (if m.makesPass op then m.telemetry.events.countP P else 0)
      + (m.outcome op).countP P := by
  rw [step_events, List.countP_append, List.countP_append, List.countP_map,
    apply_ite (List.countP P)]
  rfl

/-- Warnings under the code of a class come from the protections that engage. -/
theorem countP_warnsOf_step (d : Defect) :
    (m.step op).events.countP (·.warnsOf d.code) =
      (m.engagedBy op).countP (fun protection => protection.defect = d) := by
  have hreadings : m.telemetry.events.countP (·.warnsOf d.code) = 0 := by
    rw [List.countP_eq_zero]
    intro e he
    rcases Telemetry.cases_of_mem_events he with rfl | rfl | rfl <;>
      simp [Event.warnsOf, Event.fields]
  have houtcome : (m.outcome op).countP (·.warnsOf d.code) = 0 := by
    rw [List.countP_eq_zero]
    intro e he
    rcases m.cases_of_mem_outcome op he with hlevel | ⟨score, now, history, rfl⟩
    · simp [Event.warnsOf, hlevel]
    · simp [Event.warnsOf, Event.fields]
  rw [countP_step, hreadings, houtcome, ite_self]
  simp only [Event.warnsOf_engaged, Nat.add_zero]

/-- A pass warns once of each group of readings that holds one that is not finite;
without a pass there is no such warning. -/
theorem countP_groups_step {group : List Single × String} (h : group ∈ m.telemetry.groups) :
    (m.step op).events.countP (·.isLine .warn group.2) =
      (m.makesPass op && !group.1.all (·.isFinite)).toNat := by
  -- A group's warning has a message of its own.
  have hengaged : ∀ protection : Protection,
      (Event.engaged protection).isLine .warn group.2 = false := by
    intro protection
    simp only [Telemetry.groups, List.mem_cons, List.not_mem_nil, or_false] at h
    rcases h with rfl | rfl | rfl <;> cases protection <;> simp [Event.isLine, Event.message]
  have hrejected : ∀ score now history,
      (Event.rejected score now history).isLine .warn group.2 = false := by
    intro score now history
    simp only [Telemetry.groups, List.mem_cons, List.not_mem_nil, or_false] at h
    rcases h with rfl | rfl | rfl <;> simp [Event.isLine, Event.message]
  have houtcome : (m.outcome op).countP (·.isLine .warn group.2) = 0 := by
    rw [List.countP_eq_zero]
    intro e he
    rw [Bool.not_eq_true]
    rcases m.cases_of_mem_outcome op he with hlevel | ⟨score, now, history, rfl⟩
    · exact Event.isLine_eq_false hlevel _
    · exact hrejected score now history
  rw [countP_step, houtcome, Telemetry.countP_events h]
  simp only [hengaged, List.countP_false]
  cases m.makesPass op <;> simp

/-- Events of another kind than protections and readings are those of the outcome. -/
theorem filter_step {P : Event → Bool} (hengaged : ∀ protection, P (.engaged protection) = false)
    (hreadings : ∀ e ∈ m.telemetry.events, P e = false) :
    (m.step op).events.filter P = (m.outcome op).filter P := by
  have hprotections : ((m.engagedBy op).map Event.engaged).filter P = [] := by
    rw [List.filter_eq_nil_iff]
    intro e he
    obtain ⟨protection, -, rfl⟩ := List.mem_map.mp he
    rw [hengaged]
    exact Bool.false_ne_true
  have hpass : m.telemetry.events.filter P = [] := by
    rw [List.filter_eq_nil_iff]
    intro e he
    rw [hreadings e he]
    exact Bool.false_ne_true
  rw [step_events, List.filter_append, List.filter_append, hprotections, apply_ite (List.filter P),
    hpass, List.filter_nil, ite_self]
  rfl

/-- What is not a warning is logged when an operation ends. -/
theorem countP_isLine_step {level : Level} (message : String) (hlevel : level ≠ .warn) :
    (m.step op).events.countP (·.isLine level message) =
      (m.outcome op).countP (·.isLine level message) := by
  have hwarn : ∀ e : Event, e.level = .warn → e.isLine level message = false := by
    intro e he
    rw [← he] at hlevel
    exact Event.isLine_eq_false hlevel.symm message
  have hreadings : ∀ e ∈ m.telemetry.events, e.isLine level message = false := by
    intro e he
    rcases Telemetry.cases_of_mem_events he with rfl | rfl | rfl <;> exact hwarn _ rfl
  rw [List.countP_eq_length_filter, List.countP_eq_length_filter,
    m.filter_step op (fun _ => hwarn _ rfl) hreadings]

/-- The first start is logged as such, and nothing else is. -/
theorem countP_initialized_step :
    (m.step op).events.countP (·.isLine .info "Hardware adaptations initialized")
        + m.isInitialized.toNat
      = (m.step op).after.isInitialized.toNat := by
  rw [countP_isLine_step m op _ (by decide), step_isInitialized]
  cases op with
  | start now =>
    show (if m.isInitialized then _ else _ : List Event).countP _ + _ = _
    cases m.isInitialized <;> rfl
  | update now =>
    show (if m.isInitialized && m.refresh.isDue now then _ else _ : List Event).countP _ + _ = _
    cases m.isInitialized <;> cases m.refresh.isDue now <;> rfl
  | validate now =>
    show (if m.isInitialized && !m.pass.isAcceptable then _ else _ : List Event).countP _ + _ = _
    cases m.isInitialized <;> cases m.pass.isAcceptable <;> rfl
  | audit | passesAudit =>
    show m.audit.events.countP _ + _ = (m.isInitialized || false).toNat
    rw [Audit.countP_events _ _ (by decide) rfl, Bool.or_false, Nat.zero_add]
  | _ =>
    show 0 + _ = (m.isInitialized || false).toNat
    rw [Bool.or_false, Nat.zero_add]

/-- A refresh that is granted is logged as such, and nothing else is. -/
theorem countP_refreshed_step :
    (m.step op).events.countP (·.isLine .debug "Diagnostics refreshed") =
      (op.isUpdate && (m.step op).answer = .decision true).toNat := by
  rw [countP_isLine_step m op _ (by decide)]
  cases op with
  | start now =>
    show (if m.isInitialized then _ else _ : List Event).countP _ = _
    cases m.isInitialized <;> rfl
  | update now =>
    rw [step_update_answer]
    show (if m.isInitialized && m.refresh.isDue now then _ else _ : List Event).countP _ = _
    cases m.isInitialized && m.refresh.isDue now <;> rfl
  | validate now =>
    show (if m.isInitialized && !m.pass.isAcceptable then _ else _ : List Event).countP _ = _
    cases m.isInitialized && !m.pass.isAcceptable <;> rfl
  | audit | passesAudit =>
    show m.audit.events.countP _ = _
    rw [Audit.countP_events _ _ (by decide) rfl]
    rfl
  | _ => rfl

/-- A rejection is logged where the history takes up its time. -/
theorem filter_rejected_step :
    (m.step op).events.filter (·.isLine .warn "Hardware configuration rejected") =
      match op with
      | .validate now =>
        if m.isInitialized && !m.pass.isAcceptable then
          [.rejected m.pass.score now (m.judged now).history.size]
        else []
      | _ => [] := by
  have hengaged : ∀ protection : Protection,
      (Event.engaged protection).isLine .warn "Hardware configuration rejected" = false := by
    intro protection
    cases protection <;> simp [Event.isLine, Event.message]
  have hreadings : ∀ e ∈ m.telemetry.events,
      e.isLine .warn "Hardware configuration rejected" = false := by
    intro e he
    rcases Telemetry.cases_of_mem_events he with rfl | rfl | rfl <;>
      simp [Event.isLine, Event.message]
  rw [m.filter_step op hengaged hreadings]
  cases op with
  | start now =>
    show (if m.isInitialized then _ else _ : List Event).filter _ = _
    split <;> rfl
  | update now =>
    show (if m.isInitialized && m.refresh.isDue now then _ else _ : List Event).filter _ = _
    split <;> rfl
  | validate now =>
    show (if m.isInitialized && !m.pass.isAcceptable then _ else _ : List Event).filter _ = _
    cases m.isInitialized && !m.pass.isAcceptable <;> rfl
  | audit | passesAudit =>
    show m.audit.events.filter _ = []
    have hnone : m.audit.events.countP (·.isLine .warn "Hardware configuration rejected") = 0 :=
      m.audit.countP_events _ (by decide) rfl
    rwa [← List.length_eq_zero_iff, ← List.countP_eq_length_filter]
  | _ => rfl

/-- The latches that are set, but for a release, are those of the protections that
engage. -/
theorem countP_engagedBy (h : op ≠ .resetLatches) (d : Defect) :
    (m.engagedBy op).countP (·.defect = d) + (m.latches.isApplied d).toNat =
      ((m.step op).after.latches.isApplied d).toNat := by
  rw [step_latches]
  cases op with
  | start now =>
    dsimp only [engagedBy]
    split
    next => exact Nat.zero_add _
    next => exact Latches.countP_applyEach Defect.all d
  | apply e => exact Latches.countP_engagement? d e
  | resetLatches => exact absurd rfl h
  | _ => exact Nat.zero_add _

/-- An audit has its lines, be it asked for as such or for its verdict alone. -/
theorem audit_lines (h : op.isAudit = true) :
    (m.step op).events.map (fun e => (e.level, e.message)) = m.profile.auditLines := by
  have hlines : m.audit.events.map (fun e => (e.level, e.message)) = m.profile.auditLines := by
    rw [Audit.events, List.map_append, List.map_map, Profile.auditLines]
    congr 1
    have hpassed : m.audit.passed = !Violation.all.any (·.isFound m.profile) := by
      show (Violation.all.filter (·.isFound m.profile)).isEmpty = _
      rw [Bool.eq_iff_iff]
      simp
    rw [hpassed]
    cases Violation.all.any (·.isFound m.profile) <;> rfl
  cases op with
  | audit | passesAudit => exact hlines
  | _ => exact absurd h Bool.false_ne_true

/-- No other operation logs an error. -/
theorem level_ne_error (h : op.isAudit = false) {e : Event} (he : e ∈ (m.step op).events) :
    e.level ≠ .error := by
  rw [step_events, List.mem_append, List.mem_append, List.mem_map] at he
  rcases he with (⟨protection, -, rfl⟩ | hreadings) | houtcome
  · exact nofun
  · split at hreadings
    next =>
      rcases Telemetry.cases_of_mem_events hreadings with rfl | rfl | rfl <;> exact nofun
    next => exact absurd hreadings List.not_mem_nil
  · cases op with
    | start now | update now | validate now =>
      have hif : e ∈ if _ then _ else _ := houtcome
      split at hif <;> simp_all [Event.level]
    | audit | passesAudit => exact absurd h.symm Bool.false_ne_true
    | _ => exact absurd houtcome List.not_mem_nil

/-- Whether the operation comes too early, too late or for nothing. -/
def turnsDown (m : Monitor) : Operation → Bool
  | .start _ => m.isInitialized
  | .update now => !(m.isInitialized && m.refresh.isDue now)
  | .validate _ => !m.isInitialized
  | .apply d => !m.latches.engages d m.profile
  | _ => false

/-- What is turned down leaves no trace. -/
theorem step_of_turnsDown (h : m.turnsDown op = true) :
    (m.step op).after = m ∧ (m.step op).events = [] := by
  cases op with
  | start now =>
    rw [step_start_of_initialized h]
    exact ⟨rfl, rfl⟩
  | update now =>
    rw [step_update_of_denied ((Bool.not_eq_true' _).mp h)]
    exact ⟨rfl, rfl⟩
  | validate now =>
    rw [step_validate_of_not_initialized ((Bool.not_eq_true' _).mp h)]
    exact ⟨rfl, rfl⟩
  | apply d =>
    have hidle : m.latches.engages d m.profile = false := (Bool.not_eq_true' _).mp h
    have hengagement : m.latches.engagement? d m.profile = none := by
      rw [Latches.engagement?, ← Latches.engages, hidle]
      rfl
    show { m with latches := (m.latches.apply d m.profile).2 } = m
      ∧ (m.latches.engagement? d m.profile).toList.map Event.engaged = []
    rw [Latches.apply, hengagement]
    exact ⟨rfl, rfl⟩
  | _ => exact absurd h Bool.false_ne_true

/-- Without a pass, an audit or a yes there is nothing to log. -/
theorem events_eq_nil (hpass : m.makesPass op = false) (haudit : op.isAudit = false)
    (hanswer : (m.step op).answer ≠ .decision true) : (m.step op).events = [] := by
  have hstores : m.storesPass op = false := (Bool.or_eq_false_iff.mp hpass).1
  cases op with
  | start now =>
    have hstarted : m.isInitialized = true := (Bool.not_eq_false' _).mp hstores
    exact (m.step_of_turnsDown (.start now) hstarted).2
  | update now =>
    exact (m.step_of_turnsDown (.update now) ((Bool.not_eq_true' _).mpr hstores)).2
  | validate now =>
    exact (m.step_of_turnsDown (.validate now) ((Bool.not_eq_true' _).mpr hstores)).2
  | apply d =>
    cases hengages : m.latches.engages d m.profile with
    | true =>
      refine absurd ?_ hanswer
      show Answer.decision (m.latches.apply d m.profile).1 = _
      rw [Latches.apply_fst, hengages]
    | false => exact (m.step_of_turnsDown (.apply d) ((Bool.not_eq_true' _).mpr hengages)).2
  | pass => exact absurd hpass.symm Bool.false_ne_true
  | audit | passesAudit => exact absurd haudit.symm Bool.false_ne_true
  | _ => rfl

end Step

end Monitor

end BoardHealth
