import BoardHealth.Proofs.Rejections
import BoardHealth.Proofs.Score

/-!
# A worse board

A board is no better than another if it has all the other's defects and its limits
are no wider. Then every condition that costs the other points in a pass costs it
points as well, whatever the readings are. Over a run this is a relation between two
monitors, one for each board, that are asked the same:

> `NoBetter.step`: every operation keeps the relation.
> `no_better_of_run`: the worse board is never judged better.

The two monitors refresh at the same times, since neither a defect nor a limit has a
say in that, so their counters stay in order as passes add to them.
-/

namespace BoardHealth

/-- The board has each scored defect of the other, and its limits are no wider. -/
structure Profile.NoBetterThan (p' p : Profile) : Prop where
  phaseFilters : p.phaseFiltersPresent = false → p'.phaseFiltersPresent = false
  temperatureSensor : p.singleTemperatureSensor = true → p'.singleTemperatureSensor = true
  currentSensing :
    p.currentSensingLimitedAccuracy = true → p'.currentSensingLimitedAccuracy = true
  mosfets : p.mosfetQualityIssues = true → p'.mosfetQualityIssues = true
  capacitors : p.capacitorReliabilityIssues = true → p'.capacitorReliabilityIssues = true
  gateResistors : p.gateResistorIssues = true → p'.gateResistorIssues = true
  voltage : p'.voltageMaxSafe ≤ p.voltageMaxSafe
  current : p'.currentMaxSafe ≤ p.currentMaxSafe

namespace Profile.NoBetterThan

variable {p p' : Profile} (h : p'.NoBetterThan p) (t : Telemetry)

include h

/-- The conditions of the better board hold of the other as well. -/
theorem deductions :
    List.Forall₂ (fun c c' => c = true → c' = true) p.deductions p'.deductions := by
  have hfilters : (!p.phaseFiltersPresent) = true → (!p'.phaseFiltersPresent) = true := by
    rw [Bool.not_eq_true', Bool.not_eq_true']
    exact h.phaseFilters
  exact .cons hfilters <| .cons h.temperatureSensor <| .cons h.currentSensing <|
    .cons h.mosfets <| .cons h.capacitors <| .cons h.gateResistors <|
    .cons h.temperatureSensor <| .cons h.mosfets .nil

/-- Readings beyond the wider limits are beyond the narrower ones as well. -/
theorem faults :
    List.Forall₂ (fun c c' => c = true → c' = true) (t.faults p) (t.faults p') := by
  have hvoltage : t.isVoltageOutOfRange p = true → t.isVoltageOutOfRange p' = true := by
    simp only [Telemetry.isVoltageOutOfRange, Bool.or_eq_true, decide_eq_true_iff]
    rintro ((hunknown | habove) | hbelow)
    · exact .inl (.inl hunknown)
    · exact .inl (.inr (Binary.lt_of_le_of_lt h.voltage habove))
    · exact .inr hbelow
  have hcurrent : t.isOverCurrent p = true → t.isOverCurrent p' = true := by
    simp only [Telemetry.isOverCurrent, Bool.or_eq_true, decide_eq_true_iff]
    rintro (hunknown | habove)
    · exact .inl hunknown
    · exact .inr (Binary.lt_of_le_of_lt h.current habove)
  exact .cons id <| .cons hvoltage <| .cons hcurrent .nil

/-- A pass takes no fewer points off. -/
theorem lost_costs : Check.lost (costs p t) ≤ Check.lost (costs p' t) := by
  rw [costs, costs, Check.lost_append, Check.lost_append]
  exact Nat.add_le_add (Check.lost_zip_le h.deductions _) (Check.lost_zip_le (h.faults t) _)

/-- A pass does not give a better score. -/
theorem score : (diagnose p' t).score ≤ (diagnose p t).score := by
  have hlost := h.lost_costs t
  rw [score_diagnose, score_diagnose, Binary.ofNat_le_ofNat (by omega) (by omega)]
  omega

/-- A pass that accepts the board accepts the better one. -/
theorem isAcceptable (haccepted : (diagnose p' t).isAcceptable = true) :
    (diagnose p t).isAcceptable = true := by
  rw [isAcceptable_diagnose] at haccepted ⊢
  exact Nat.lt_of_le_of_lt (h.lost_costs t) haccepted

/-- A pass gives no fewer warnings. -/
theorem warnings : (diagnose p t).warnings ≤ (diagnose p' t).warnings := by
  rw [UInt32.le_iff_toNat_le, toNat_diagnose_warnings, toNat_diagnose_warnings]
  exact Check.count_true_le h.deductions

/-- A pass finds no fewer faults. -/
theorem faults_le : (diagnose p t).faults ≤ (diagnose p' t).faults := by
  rw [UInt32.le_iff_toNat_le, toNat_diagnose_faults, toNat_diagnose_faults]
  exact Check.count_true_le (h.faults t)

end Profile.NoBetterThan

/-- Sums are in order if what is summed is, even where they stop. -/
theorem addSaturating_le {a a' b b' : UInt32} (ha : a ≤ a') (hb : b ≤ b') :
    addSaturating a b ≤ addSaturating a' b' := by
  rw [UInt32.le_iff_toNat_le] at ha hb ⊢
  rw [toNat_addSaturating, toNat_addSaturating]
  omega

/-- A sum is no less than what was there before. -/
theorem le_addSaturating (a b : UInt32) : a ≤ addSaturating a b := by
  have hlt := a.toNat_lt
  rw [UInt32.le_iff_toNat_le, toNat_addSaturating]
  show a.toNat ≤ min (a.toNat + b.toNat) (2 ^ 32 - 1)
  omega

/-- One rejection adds at most one, whether or not it finds room. -/
theorem FaultHistory.recorded_record?_le (h : FaultHistory) (time : UInt32) :
    ((h.record? time).getD h).recorded ≤ addSaturating h.recorded 1 := by
  unfold record?
  split
  next => exact UInt32.le_refl _
  next => exact le_addSaturating _ _

namespace Monitor

/-- A monitor whose board was never judged better than that of another monitor that
was asked the same. -/
structure NoBetter (m' m : Monitor) : Prop where
  profile : m'.profile.NoBetterThan m.profile
  telemetry : m'.telemetry = m.telemetry
  isInitialized : m'.isInitialized = m.isInitialized
  refresh : m'.refresh = m.refresh
  totalWarnings : m.totalWarnings ≤ m'.totalWarnings
  totalFaults : m.totalFaults ≤ m'.totalFaults
  score : m'.snapshot.score ≤ m.snapshot.score
  warnings : m.snapshot.warnings ≤ m'.snapshot.warnings
  faults : m.snapshot.faults ≤ m'.snapshot.faults
  recorded : m.history.recorded ≤ m'.history.recorded
  /-- The next rejection finds room. -/
  writeIndex : m'.history.writeIndex.toNat < 16

namespace NoBetter

variable {m m' : Monitor} (h : NoBetter m' m) (op : Operation)

include h

/-- The two make passes at the same times. -/
theorem storesPass : m'.storesPass op = m.storesPass op := by
  cases op with
  | start now => rw [Monitor.storesPass, Monitor.storesPass, h.isInitialized]
  | update now => rw [Monitor.storesPass, Monitor.storesPass, h.isInitialized, h.refresh]
  | validate now => exact h.isInitialized
  | _ => rfl

/-- The next pass of the one is no better than that of the other. -/
theorem pass_eq : m'.pass = diagnose m'.profile m.telemetry := by
  rw [Monitor.pass, h.telemetry]

/-- What is rejected for the better board is rejected for the other. -/
theorem rejects (hrejects : (m.isInitialized && !m.pass.isAcceptable) = true) :
    (m'.isInitialized && !m'.pass.isAcceptable) = true := by
  rw [Bool.and_eq_true, Bool.not_eq_true', ← Bool.not_eq_true] at hrejects ⊢
  rw [h.isInitialized, h.pass_eq]
  exact ⟨hrejects.1, fun haccepted => hrejects.2 (h.profile.isAcceptable _ haccepted)⟩

/-- Counters and scores stay in order. -/
theorem counters_step :
    let n := (m.step op).after
    let n' := (m'.step op).after
    n.totalWarnings ≤ n'.totalWarnings ∧ n.totalFaults ≤ n'.totalFaults
      ∧ n'.snapshot.score ≤ n.snapshot.score ∧ n.snapshot.warnings ≤ n'.snapshot.warnings
      ∧ n.snapshot.faults ≤ n'.snapshot.faults := by
  intro n n'
  by_cases hreset : op = .resetDiagnostics
  · subst hreset
    exact ⟨UInt32.le_refl 0, UInt32.le_refl 0, h.score, UInt32.le_refl 0, UInt32.le_refl 0⟩
  cases hstores : m.storesPass op with
  | false =>
    obtain ⟨hw, hf, hs⟩ := m.step_of_not_storesPass op hstores hreset
    obtain ⟨hw', hf', hs'⟩ := m'.step_of_not_storesPass op ((h.storesPass op).trans hstores) hreset
    rw [hw, hw', hf, hf', hs, hs']
    exact ⟨h.totalWarnings, h.totalFaults, h.score, h.warnings, h.faults⟩
  | true =>
    obtain ⟨hw, hf, hs⟩ := m.step_of_storesPass op hstores
    obtain ⟨hw', hf', hs'⟩ := m'.step_of_storesPass op ((h.storesPass op).trans hstores)
    have hwarnings := addSaturating_le h.totalWarnings (h.profile.warnings m.telemetry)
    have hfaults := addSaturating_le h.totalFaults (h.profile.faults_le m.telemetry)
    have hscore := h.profile.score m.telemetry
    rw [hw, hw', hf, hf', hs, hs', h.pass_eq]
    exact ⟨hwarnings, hfaults, hscore, hwarnings, hfaults⟩

/-- The rejections on record stay in order. -/
theorem history_step :
    (m.step op).after.history.recorded ≤ (m'.step op).after.history.recorded
      ∧ (m'.step op).after.history.writeIndex.toNat < 16 := by
  rw [step_history, step_history]
  cases op with
  | validate now =>
    dsimp only
    cases hrejects' : m'.isInitialized && !m'.pass.isAcceptable with
    | false =>
      have hrejects : ¬(m.isInitialized && !m.pass.isAcceptable) = true := by
        intro hrejects
        rw [h.rejects hrejects] at hrejects'
        exact Bool.noConfusion hrejects'
      rw [if_neg hrejects]
      exact ⟨h.recorded, h.writeIndex⟩
    | true =>
      rw [if_pos rfl, FaultHistory.record?_of_lt h.writeIndex, Option.getD_some]
      refine ⟨?_, ?_⟩
      · -- The better board adds at most one, the other exactly one.
        refine UInt32.le_trans ?_ (addSaturating_le h.recorded (UInt32.le_refl 1))
        split
        next => exact m.history.recorded_record?_le now
        next => exact le_addSaturating _ _
      · show ((m'.history.writeIndex + 1) % 16).toNat < 16
        rw [UInt64.toNat_mod]
        exact Nat.mod_lt _ (by decide)
  | resetDiagnostics => exact ⟨UInt32.le_refl 0, (by decide : (0 : UInt64).toNat < 16)⟩
  | _ => exact ⟨h.recorded, h.writeIndex⟩

/-- Every operation keeps the one monitor from being judged better than the other. -/
theorem step : NoBetter (m'.step op).after (m.step op).after := by
  obtain ⟨htotalWarnings, htotalFaults, hscore, hwarnings, hfaults⟩ := h.counters_step op
  obtain ⟨hrecorded, hindex⟩ := h.history_step op
  refine ⟨?_, ?_, ?_, ?_, htotalWarnings, htotalFaults, hscore, hwarnings, hfaults, hrecorded,
    hindex⟩
  · rw [step_profile, step_profile]
    exact h.profile
  · rw [step_telemetry, step_telemetry, h.telemetry]
  · rw [step_isInitialized, step_isInitialized, h.isInitialized]
  · rw [step_refresh, step_refresh, h.isInitialized, h.refresh]

/-- So does a run. -/
theorem run (ops : List Operation) : NoBetter (m'.run ops) (m.run ops) := by
  induction ops generalizing m m' with
  | nil => exact h
  | cons op ops ih => exact ih (h.step op)

/-- The two are granted the same refreshes. -/
theorem update_answer (now : UInt32) : (m'.update now).answer = (m.update now).answer := by
  rw [Answer.decision.inj (m'.step_update_answer now),
    Answer.decision.inj (m.step_update_answer now), h.isInitialized, h.refresh]

/-- The two report their first start at the same time. -/
theorem start_answer (now : UInt32) :
    (m'.start now).answer.isSome = (m.start now).answer.isSome := by
  rw [Monitor.start_answer, Monitor.start_answer, h.isInitialized]
  cases m.isInitialized <;> rfl

/-- If the one is accepted, so is the other. -/
theorem validate_answer (now : UInt32) (haccepted : (m'.validate now).answer = true) :
    (m.validate now).answer = true := by
  rw [Answer.decision.inj (m'.step_validate_answer now), h.isInitialized, h.pass_eq,
    Bool.and_eq_true] at haccepted
  rw [Answer.decision.inj (m.step_validate_answer now), Bool.and_eq_true]
  exact ⟨haccepted.1, h.profile.isAcceptable _ haccepted.2⟩

end NoBetter

/-- **A worse board is never judged better.** Let two monitors watch two boards of which
one is no better than the other, begin with the same readings, whatever they are, and
be asked the same. At every point of the run they are granted the same refreshes and
report a first start at the same time, and if the worse board is accepted then so is
the better one. The worse board's score is no higher, and its warnings, faults and
rejections on record are no fewer. -/
theorem no_better_of_run {p p' : Profile} (h : p'.NoBetterThan p) (t : Telemetry)
    (ops : List Operation) :
    let m := (new p t).run ops
    let m' := (new p' t).run ops
    (∀ now, (m'.update now).answer = (m.update now).answer)
      ∧ (∀ now, (m'.start now).answer.isSome = (m.start now).answer.isSome)
      ∧ (∀ now, (m'.validate now).answer = true → (m.validate now).answer = true)
      ∧ m'.snapshot.score ≤ m.snapshot.score
      ∧ m.snapshot.warnings ≤ m'.snapshot.warnings
      ∧ m.snapshot.faults ≤ m'.snapshot.faults
      ∧ m.history.recorded ≤ m'.history.recorded := by
  intro m m'
  have hnew : NoBetter (new p' t) (new p t) := {
    profile := h
    telemetry := rfl
    isInitialized := rfl
    refresh := rfl
    totalWarnings := UInt32.le_refl 0
    totalFaults := UInt32.le_refl 0
    score := (by decide : (0 : Single) ≤ 0)
    warnings := UInt32.le_refl 0
    faults := UInt32.le_refl 0
    recorded := UInt32.le_refl 0
    writeIndex := (by decide : (0 : UInt64).toNat < 16) }
  have hrun : NoBetter m' m := hnew.run ops
  exact ⟨hrun.update_answer, hrun.start_answer, hrun.validate_answer, hrun.score, hrun.warnings,
    hrun.faults, hrun.recorded⟩

/-- A healthy board next to one with every defect and the same safe limits, at a
voltage that is not known. -/
theorem no_better_of_run_of_every_defect :
    let p := Profile.healthy
    let p' := { Profile.flipsky75200ProV2 with voltageMaxSafe := 57 }
    let ops : List Operation := [.update 3, .start 5, .observe { inputVoltage := .nan },
      .validate 7, .update 1000006, .validate 1000007]
    let m := (new p {}).run ops
    let m' := (new p' {}).run ops
    p'.NoBetterThan p
      ∧ (∀ now, (m'.validate now).answer = true → (m.validate now).answer = true)
      ∧ m'.snapshot.score ≤ m.snapshot.score
      ∧ m.snapshot.warnings ≤ m'.snapshot.warnings
      ∧ m.snapshot.faults ≤ m'.snapshot.faults
      ∧ m.history.recorded ≤ m'.history.recorded
      ∧ m.snapshot.score = 97 ∧ m'.snapshot.score = 24
      ∧ m.snapshot.warnings = 0 ∧ m'.snapshot.warnings = 32
      ∧ m.history.recorded = 0 ∧ m'.history.recorded = 2 := by
  intro p p' ops
  have h : p'.NoBetterThan p := ⟨by decide, by decide, by decide, by decide, by decide, by decide,
    by decide, by decide⟩
  obtain ⟨-, -, haccepted, hscore, hwarnings, hfaults, hrecorded⟩ := no_better_of_run h {} ops
  exact ⟨h, haccepted, hscore, hwarnings, hfaults, hrecorded, by decide, by decide, by decide,
    by decide, by decide, by decide⟩

end Monitor

end BoardHealth
