import BoardHealth.Proofs.Journal

/-!
# Diagnostics and latches do not interfere

A monitor keeps two things at once, what passes over the board have found and which
protections have engaged. Here is why neither has a say in the other. `unwinding`
compares a run with the one that is left when some of its operations are deleted:
if a relation between the two monitors is kept by the operations that stay, asked of
both, and by those that go, asked of the one only, then whatever stays answers alike.
It is used with two relations:

> `AgreesButForLatches`: the monitors differ in their latches at most.
> `LatchesAgree`: the monitors agree on their latches and on what these depend on.

A start belongs to both sides. The first one engages protections and makes a pass,
and any other does nothing, so the latches only care where among their own operations
the first one stands (`startsOnce`). The main statement is

> `diagnostics_and_latches_apart`: each side's operations can be deleted without
> the other noticing, and it does not matter how the two are interleaved.
-/

namespace BoardHealth

namespace Operation

/-- Whether the operation asks for a protection or releases the latches. -/
def isLatching : Operation → Bool
  | apply _ | resetLatches => true
  | _ => false

/-- Whether the operation asks for a protection. -/
def isApply : Operation → Bool
  | apply _ => true
  | _ => false

/-- Whether the operation answers with what the latches hold. -/
def readsLatches : Operation → Bool
  | overrides | latches => true
  | _ => false

/-- Whether the operation neither moves nor reads the latches, the first start
excepted. -/
def isDiagnostic (op : Operation) : Bool := !op.isLatching && !op.readsLatches

/-- Operations without the starts that come too late. -/
def startsOnce (started : Bool) : List Operation → List Operation
  | [] => []
  | op :: ops =>
    if started && op.isStart then startsOnce started ops
    else op :: startsOnce (started || op.isStart) ops

end Operation

namespace Monitor

/-- The operations of a kind in a run, each with its answer. -/
def answersTo (m : Monitor) (kind : Operation → Bool) (ops : List Operation) :
    List (Operation × Answer) :=
  (m.calls ops).filter fun call => kind call.1

theorem answersTo_cons (m : Monitor) (kind : Operation → Bool) (op : Operation)
    (ops : List Operation) : m.answersTo kind (op :: ops) =
      if kind op then (op, (m.step op).answer) :: (m.step op).after.answersTo kind ops
      else (m.step op).after.answersTo kind ops :=
  List.filter_cons

/-- **Unwinding.** A relation between two monitors that is kept by the operations that
stay, asked of both, and by those that are deleted, asked of the first only, is kept by
a run and what is left of it. If what is looked at stays and is answered alike, it is
answered alike in the run and in what is left of it. -/
theorem unwinding {R : Monitor → Monitor → Prop} {stays seen : Operation → Bool}
    (hstays : ∀ {m m'} op, stays op = true → R m m' → R (m.step op).after (m'.step op).after)
    (hgoes : ∀ {m m'} op, stays op = false → R m m' → R (m.step op).after m')
    (hseen : ∀ {m m'} op, seen op = true → R m m' →
      stays op = true ∧ (m.step op).answer = (m'.step op).answer)
    (ops : List Operation) {m m' : Monitor} (h : R m m') :
    R (m.run ops) (m'.run (ops.filter stays))
      ∧ m.answersTo seen ops = m'.answersTo seen (ops.filter stays) := by
  induction ops generalizing m m' with
  | nil => exact ⟨h, rfl⟩
  | cons op ops ih =>
    cases hop : stays op with
    | true =>
      obtain ⟨hrun, hanswers⟩ := ih (hstays op hop h)
      rw [List.filter_cons_of_pos hop, answersTo_cons, answersTo_cons]
      refine ⟨hrun, ?_⟩
      split
      next hlook => rw [hanswers, (hseen op hlook h).2]
      next => exact hanswers
    | false =>
      obtain ⟨hrun, hanswers⟩ := ih (hgoes op hop h)
      have hunseen : ¬seen op = true := by
        intro hlook
        rw [(hseen op hlook h).1] at hop
        exact Bool.noConfusion hop
      rw [List.filter_cons_of_neg (by simp [hop]), answersTo_cons, if_neg hunseen]
      exact ⟨hrun, hanswers⟩

/-! ## What diagnostics depend on -/

/-- The two monitors differ in their latches at most. -/
def AgreesButForLatches (m m' : Monitor) : Prop := m = { m' with latches := m.latches }

namespace AgreesButForLatches

variable {m m' : Monitor}

/-- Whatever is asked of both, they still differ in their latches at most. -/
theorem step (h : m.AgreesButForLatches m') (op : Operation) :
    (m.step op).after.AgreesButForLatches (m'.step op).after := by
  unfold AgreesButForLatches at h ⊢
  rw [step_after, step_after, h]
  cases op with
  | start | update | validate =>
    dsimp only
    split <;> rfl
  | _ => rfl

/-- What moves or reads the latches leaves all else alone. -/
theorem step_left (h : m.AgreesButForLatches m') {op : Operation}
    (hop : op.isDiagnostic = false) : (m.step op).after.AgreesButForLatches m' := by
  unfold AgreesButForLatches at h ⊢
  rw [step_after, h]
  cases op with
  | apply | resetLatches | overrides | latches => rfl
  | _ => exact absurd hop.symm Bool.false_ne_true

/-- All else answers alike. -/
theorem answer (h : m.AgreesButForLatches m') {op : Operation} (hop : op.isDiagnostic = true) :
    (m.step op).answer = (m'.step op).answer := by
  cases op with
  | start now =>
    have hafter := h.step (.start now)
    have hreport : (m.start now).after.report = (m'.start now).after.report := by
      show (m.step (.start now)).after.report = (m'.step (.start now)).after.report
      rw [hafter]
      rfl
    have hinit : m.isInitialized = m'.isInitialized := by rw [h]
    show Answer.started (m.start now).answer = .started (m'.start now).answer
    rw [start_answer, start_answer, hinit, hreport]
  | update now =>
    rw [step_update_answer, step_update_answer, h]
  | validate now =>
    rw [step_validate_answer, step_validate_answer, h]
    rfl
  | apply | resetLatches | overrides | latches => exact absurd hop Bool.false_ne_true
  | _ =>
    rw [h]
    rfl

end AgreesButForLatches

/-- Deleting operations on the latches, or readings of them, is noticed by nothing but
readings of the latches. -/
theorem diagnostics_of_filter (m : Monitor) {stays : Operation → Bool}
    (hstays : ∀ op, op.isDiagnostic = true → stays op = true) (ops : List Operation) :
    (m.run ops).AgreesButForLatches (m.run (ops.filter stays))
      ∧ m.answersTo Operation.isDiagnostic ops =
        m.answersTo Operation.isDiagnostic (ops.filter stays) := by
  refine unwinding (fun op _ h => h.step op) ?_ (fun op hop h => ⟨hstays op hop, h.answer hop⟩)
    ops rfl
  intro m m' op hgoes h
  refine h.step_left (Bool.eq_false_iff.mpr fun hop => ?_)
  rw [hstays op hop] at hgoes
  exact Bool.noConfusion hgoes

/-! ## What latches depend on -/

/-- The two monitors agree on their latches and on what these depend on. -/
structure LatchesAgree (m m' : Monitor) : Prop where
  profile : m.profile = m'.profile
  isInitialized : m.isInitialized = m'.isInitialized
  latches : m.latches = m'.latches

namespace LatchesAgree

variable {m m' : Monitor}

/-- Whatever is asked of both, they still agree. -/
theorem step (h : m.LatchesAgree m') (op : Operation) :
    (m.step op).after.LatchesAgree (m'.step op).after where
  profile := by rw [step_profile, step_profile, h.profile]
  isInitialized := by rw [step_isInitialized, step_isInitialized, h.isInitialized]
  latches := by rw [step_latches, step_latches, h.profile, h.isInitialized, h.latches]

/-- What neither moves the latches nor starts the monitor leaves them alone. -/
theorem step_left (h : m.LatchesAgree m') {op : Operation}
    (hop : (op.isStart || op.isLatching) = false) : (m.step op).after.LatchesAgree m' := by
  obtain ⟨hstart, hlatching⟩ := Bool.or_eq_false_iff.mp hop
  refine ⟨?_, ?_, ?_⟩
  · rw [step_profile, h.profile]
  · rw [step_isInitialized, hstart, Bool.or_false, h.isInitialized]
  · rw [step_latches]
    cases op with
    | start => exact absurd hstart.symm Bool.false_ne_true
    | apply | resetLatches => exact absurd hlatching.symm Bool.false_ne_true
    | _ => exact h.latches

/-- What moves or reads the latches answers alike. -/
theorem answer (h : m.LatchesAgree m') {op : Operation}
    (hop : (op.isLatching || op.readsLatches) = true) :
    (m.step op).answer = (m'.step op).answer := by
  cases op with
  | apply d =>
    show Answer.decision (m.latches.apply d m.profile).1 = .decision (m'.latches.apply d _).1
    rw [h.latches, h.profile]
  | resetLatches => rfl
  | overrides =>
    show Answer.overrides m.latches.overrides = .overrides m'.latches.overrides
    rw [h.latches]
  | latches => exact congrArg Answer.latches h.latches
  | _ => exact absurd hop Bool.false_ne_true

end LatchesAgree

/-- Starts that come too late do nothing, so that nothing else notices when they are
deleted. -/
theorem run_startsOnce (m : Monitor) {seen : Operation → Bool}
    (hseen : ∀ op, op.isStart = true → seen op = false) (ops : List Operation) :
    m.run (Operation.startsOnce m.isInitialized ops) = m.run ops
      ∧ m.answersTo seen (Operation.startsOnce m.isInitialized ops) = m.answersTo seen ops := by
  induction ops generalizing m with
  | nil => exact ⟨rfl, rfl⟩
  | cons op ops ih =>
    obtain ⟨hrun, hanswers⟩ := ih (m.step op).after
    rw [step_isInitialized] at hrun hanswers
    rw [Operation.startsOnce]
    split
    next hlate =>
      obtain ⟨hinit, hstart⟩ := Bool.and_eq_true_iff.mp hlate
      have hstays : (m.step op).after = m := by
        rw [step_after]
        cases op with
        | start now => exact if_pos hinit
        | _ => exact absurd hstart Bool.false_ne_true
      rw [hstays, hinit, Bool.true_or] at hrun hanswers
      refine ⟨?_, ?_⟩
      · rw [hinit, hrun]
        show m.run ops = (m.step op).after.run ops
        rw [hstays]
      · rw [hinit, hanswers, answersTo_cons, hseen op hstart, hstays]
        rfl
    next =>
      refine ⟨hrun, ?_⟩
      rw [answersTo_cons, answersTo_cons, hanswers]

/-- Deleting what does not concern the latches, and the starts that come too late, is
not noticed by the latches. -/
theorem latches_of_filter (m : Monitor) {stays seen : Operation → Bool}
    (hstays : ∀ op, (op.isStart || op.isLatching) = true → stays op = true)
    (hseen : ∀ op, seen op = true → (op.isLatching || op.readsLatches) = true ∧ stays op = true)
    (ops : List Operation) :
    let left := (Operation.startsOnce m.isInitialized ops).filter stays
    (m.run ops).LatchesAgree (m.run left) ∧ m.answersTo seen ops = m.answersTo seen left := by
  have hstart : ∀ op, op.isStart = true → seen op = false := by
    intro op hop
    rw [Bool.eq_false_iff]
    intro hlook
    cases op with
    | start => exact absurd (hseen _ hlook).1 Bool.false_ne_true
    | _ => exact absurd hop Bool.false_ne_true
  have hgoes : ∀ {m m' : Monitor} (op : Operation), stays op = false → m.LatchesAgree m' →
      (m.step op).after.LatchesAgree m' := by
    intro m m' op hgone h
    refine h.step_left (Bool.eq_false_iff.mpr fun hop => ?_)
    rw [hstays op hop] at hgone
    exact Bool.noConfusion hgone
  obtain ⟨hrun, hanswers⟩ := m.run_startsOnce hstart ops
  rw [← hrun, ← hanswers]
  exact unwinding (R := LatchesAgree) (fun op _ h => h.step op) hgoes
    (fun op hlook h => ⟨(hseen op hlook).2, h.answer (hseen op hlook).1⟩) _ ⟨rfl, rfl, rfl⟩

/-- **Diagnostics and latches do not interfere.** Take any run of a new monitor.

Deleted what moves the latches, all that is left answers as before, but for readings of
the latches, and the monitor ends as before, but for its latches.

Deleted all but the first start and what moves the latches, the requests for
protections are answered as before, and the latches end as before.

Two runs with the same diagnostics in order, and the same operations on the latches in
order, the first start among them, end with the same monitor and give the same answers,
however the two are interleaved. -/
theorem diagnostics_and_latches_apart (p : Profile) (t : Telemetry) (ops : List Operation) :
    let m := new p t
    let diagnosed := ops.filter fun op => !op.isLatching
    let latched := (Operation.startsOnce false ops).filter fun op => op.isStart || op.isLatching
    m.answersTo (·.isDiagnostic) diagnosed = m.answersTo (·.isDiagnostic) ops
      ∧ m.run ops = { m.run diagnosed with latches := (m.run ops).latches }
      ∧ m.answersTo (·.isApply) latched = m.answersTo (·.isApply) ops
      ∧ (m.run latched).latches = (m.run ops).latches
      ∧ ∀ ops' : List Operation,
        ops'.filter (·.isDiagnostic) = ops.filter (·.isDiagnostic) →
        (Operation.startsOnce false ops').filter (fun op => op.isStart || !op.isDiagnostic) =
          (Operation.startsOnce false ops).filter (fun op => op.isStart || !op.isDiagnostic) →
        m.run ops' = m.run ops
          ∧ m.answersTo (·.isDiagnostic) ops' = m.answersTo (·.isDiagnostic) ops
          ∧ m.answersTo (!·.isDiagnostic) ops' = m.answersTo (!·.isDiagnostic) ops := by
  intro m diagnosed latched
  have hkeeps : ∀ op : Operation, op.isDiagnostic = true → (!op.isLatching) = true :=
    fun op hop => (Bool.and_eq_true_iff.mp hop).1
  have hrequest : ∀ op : Operation, op.isApply = true →
      (op.isLatching || op.readsLatches) = true ∧ (op.isStart || op.isLatching) = true := by
    intro op hop
    cases op with
    | apply => exact ⟨rfl, rfl⟩
    | _ => exact absurd hop Bool.false_ne_true
  obtain ⟨hdiagnosed, hanswers⟩ := m.diagnostics_of_filter hkeeps ops
  obtain ⟨hlatched, hengaged⟩ := m.latches_of_filter (fun _ hop => hop) hrequest ops
  refine ⟨hanswers.symm, hdiagnosed, hengaged.symm, hlatched.latches.symm, ?_⟩
  intro ops' hsameDiagnostics hsameLatching
  -- Each run is compared with what is left of it, and that is the same for both.
  have hkind : ∀ op : Operation, (!op.isDiagnostic) = (op.isLatching || op.readsLatches) := by
    intro op
    rw [Operation.isDiagnostic, Bool.not_and, Bool.not_not, Bool.not_not]
  have hmoves : ∀ op : Operation, (op.isStart || op.isLatching) = true →
      (op.isStart || !op.isDiagnostic) = true := by
    intro op hop
    rw [hkind, ← Bool.or_assoc, hop, Bool.true_or]
  have hlooks : ∀ op : Operation, (!op.isDiagnostic) = true →
      (op.isLatching || op.readsLatches) = true ∧ (op.isStart || !op.isDiagnostic) = true := by
    intro op hop
    rw [← hkind, hop, Bool.or_true]
    exact ⟨rfl, rfl⟩
  have hitself : ∀ op : Operation, op.isDiagnostic = true → op.isDiagnostic = true :=
    fun _ hop => hop
  obtain ⟨hrun, hseen⟩ := m.diagnostics_of_filter hitself ops
  obtain ⟨hrun', hseen'⟩ := m.diagnostics_of_filter hitself ops'
  obtain ⟨hheld, hlooked⟩ := m.latches_of_filter hmoves hlooks ops
  obtain ⟨hheld', hlooked'⟩ := m.latches_of_filter hmoves hlooks ops'
  rw [hsameDiagnostics] at hrun' hseen'
  rw [show m.isInitialized = false from rfl, hsameLatching] at hheld' hlooked'
  refine ⟨?_, hseen'.trans hseen.symm, hlooked'.trans hlooked.symm⟩
  rw [hrun, hrun', hheld.latches, hheld'.latches]
  rfl

/-- A run of a board with every defect, interleaved in two ways. -/
theorem diagnostics_and_latches_apart_of_every_defect :
    let p := Profile.flipsky75200ProV2
    let m := new p {}
    let ops : List Operation := [.update 3, .apply .thermal, .start 5, .resetLatches,
      .observe { inputVoltage := .nan }, .validate 7, .apply .mosfet, .start 8, .overrides,
      .resetDiagnostics, .validate 9]
    let ops' : List Operation := [.apply .thermal, .update 3, .start 5,
      .observe { inputVoltage := .nan }, .validate 7, .start 8, .resetDiagnostics, .resetLatches,
      .apply .mosfet, .validate 9, .overrides]
    (ops'.filter (·.isDiagnostic) = ops.filter (·.isDiagnostic))
      ∧ ((Operation.startsOnce false ops').filter (fun op => op.isStart || !op.isDiagnostic) =
          (Operation.startsOnce false ops).filter (fun op => op.isStart || !op.isDiagnostic))
      ∧ m.run ops' = m.run ops
      ∧ m.answersTo (·.isDiagnostic) ops' = m.answersTo (·.isDiagnostic) ops
      ∧ m.answersTo (!·.isDiagnostic) ops' = m.answersTo (!·.isDiagnostic) ops
      ∧ (m.run ops).latches.appliedCount = 1
      ∧ (m.run ops).history.recorded = 1 := by
  intro p m ops ops'
  have hdiagnostics : ops'.filter (·.isDiagnostic) = ops.filter (·.isDiagnostic) := rfl
  have hlatching :
      (Operation.startsOnce false ops').filter (fun op => op.isStart || !op.isDiagnostic) =
        (Operation.startsOnce false ops).filter (fun op => op.isStart || !op.isDiagnostic) := rfl
  obtain ⟨-, -, -, -, hinterleaved⟩ := diagnostics_and_latches_apart p {} ops
  obtain ⟨hrun, hseen, hlooked⟩ := hinterleaved ops' hdiagnostics hlatching
  exact ⟨hdiagnostics, hlatching, hrun, hseen, hlooked, by decide, by decide⟩

end Monitor

end BoardHealth
