import BoardHealth.Audit
import BoardHealth.FaultHistory
import BoardHealth.Latches
import BoardHealth.Proofs.Json.Written
import BoardHealth.Report
import BoardHealth.Throttle

/-!
# Reading back telemetry, passes, protections and reports

What is written for a value of any type is read back as the value, as long as every
number in it is finite. For a number that is not finite `null` is written. Where a
number has to stand the text is then refused, and where it may be absent it is read as
absent: `null` is also what is written for an absent number, so this is the one loss.

> `faithful_of_written`: the types with a JSON form, each with its numbers.
-/

namespace BoardHealth

namespace Json

/-- What is written for a value is read as the value if its numbers are finite. `plain`
are the numbers that have to stand in a value, `optional` those that stand where there
may be none, and `forget` is the value without those of the latter that are not finite. -/
structure Codec.Faithful {α : Type} (codec : Codec α) (plain optional : α → List Single)
    (forget : α → α) : Prop where
  restores : ∀ v, (∀ x ∈ plain v ++ optional v, ReadsBack x) → ∀ text ∈ codec.texts v,
    (∀ x ∈ plain v ++ optional v, x.isFinite = true) → codec.decode text = .ok v
  refuses : ∀ v, (∀ x ∈ plain v ++ optional v, ReadsBack x) → ∀ text ∈ codec.texts v,
    (∃ x ∈ plain v, x.isFinite = false) →
      ∃ cause, codec.decode text = .error cause ∧ cause.category.name = "data"
        ∧ cause.message = "invalid type: null, expected f32"
  forgets : ∀ v, (∀ x ∈ plain v ++ optional v, ReadsBack x) → ∀ text ∈ codec.texts v,
    (∀ x ∈ plain v, x.isFinite = true) → codec.decode text = .ok (forget v)

theorem Codec.Faithful.of_readsAs {α : Type} {codec : Codec α} {plain optional : α → List Single}
    {forget : α → α}
    (h : ∀ v, (∀ x ∈ plain v ++ optional v, ReadsBack x) →
      codec.ReadsAs v (unlessNull ((plain v).all (·.isFinite)) (forget v)))
    (hforget : ∀ v, (∀ x ∈ optional v, x.isFinite = true) → forget v = v) :
    codec.Faithful plain optional forget := by
  have hforgets : ∀ v, (∀ x ∈ plain v ++ optional v, ReadsBack x) → ∀ text ∈ codec.texts v,
      (∀ x ∈ plain v, x.isFinite = true) → codec.decode text = .ok (forget v) := by
    intro v hdigits text htext hfinite
    rw [(h v hdigits).decode htext, unlessNull_of_finite hfinite]
  refine ⟨?_, ?_, hforgets⟩
  · intro v hdigits text htext hfinite
    rw [hforgets v hdigits text htext fun x hx => hfinite x (List.mem_append_left _ hx),
      hforget v fun x hx => hfinite x (List.mem_append_right _ hx)]
  · intro v hdigits text htext hinfinite
    refine ⟨.wrongType .null .single, ?_, rfl, rfl⟩
    rw [(h v hdigits).decode htext, unlessNull_of_not_finite hinfinite]

end Json

open Json

/-! ## Names -/

theorem Violation.readsAs (v : Violation) : codec.ReadsAs v (.ok v) :=
  Codec.readsAs_choice (by cases v <;> rfl)

theorem Verdict.readsAs (v : Verdict) : codec.ReadsAs v (.ok v) :=
  Codec.readsAs_choice (by cases v <;> rfl)

theorem Warning.readsAs (w : Warning) : codec.ReadsAs w (.ok w) :=
  Codec.readsAs_choice (by cases w <;> rfl)

theorem Advice.readsAs (a : Advice) : codec.ReadsAs a (.ok a) :=
  Codec.readsAs_choice (by cases a <;> rfl)

/-! ## Structures -/

theorem Telemetry.readsAs (t : Telemetry) (hdigits : ∀ x ∈ t.readings, ReadsBack x) :
    codec.ReadsAs t (Codec.unlessNull (t.readings.all (·.isFinite)) t) := by
  simp only [readings, List.forall_mem_cons] at hdigits
  obtain ⟨h1, h2, h3, h4, -⟩ := hdigits
  have hrow : Row.ReadsAs fields t.toRow [t.motorTemp.isFinite, t.fetTemp.isFinite,
      t.inputVoltage.isFinite, t.totalCurrent.isFinite] t.toRow :=
    ⟨Codec.readsAs_single h1, Codec.readsAs_single h2, Codec.readsAs_single h3,
      Codec.readsAs_single h4, trivial⟩
  exact Codec.readsAs_record (by decide) hrow

theorem Snapshot.readsAs (s : Snapshot) (hdigits : ReadsBack s.score) :
    codec.ReadsAs s (Codec.unlessNull ([s.score].all (·.isFinite)) s) := by
  have hrow : Row.ReadsAs fields s.toRow [true, true, true, true, true, true, true, true, true,
      s.score.isFinite, true, true] s.toRow :=
    ⟨Codec.readsAs_boolean _, Codec.readsAs_boolean _, Codec.readsAs_boolean _,
      Codec.readsAs_boolean _, Codec.readsAs_boolean _, Codec.readsAs_boolean _,
      Codec.readsAs_boolean _, Codec.readsAs_boolean _, Codec.readsAs_boolean _,
      Codec.readsAs_single hdigits, Codec.readsAs_word32 _, Codec.readsAs_word32 _, trivial⟩
  exact Codec.readsAs_record (by decide) hrow

theorem Report.readsAs (r : Report) (hdigits : ReadsBack r.score) :
    codec.ReadsAs r (Codec.unlessNull ([r.score].all (·.isFinite)) r) := by
  have hrow : Row.ReadsAs fields r.toRow [r.score.isFinite, true, true, true, true, true]
      r.toRow :=
    ⟨Codec.readsAs_single hdigits, Codec.readsAs_word32 _, Codec.readsAs_word32 _,
      r.verdict.readsAs, Codec.readsAs_bounded fun w _ => w.readsAs,
      Codec.readsAs_vector fun a _ => a.readsAs, trivial⟩
  exact Codec.readsAs_record (by decide) hrow

theorem Audit.readsAs (a : Audit) : codec.ReadsAs a (.ok a) := by
  have hrow : Row.ReadsAs fields a.toRow [true] a.toRow :=
    ⟨Codec.readsAs_bounded fun v _ => v.readsAs, trivial⟩
  exact Codec.readsAs_record (by decide) hrow

theorem FaultHistory.readsAs (h : FaultHistory) : codec.ReadsAs h (.ok h) := by
  have hrow : Row.ReadsAs fields h.toRow [true, true, true] h.toRow :=
    ⟨Codec.readsAs_vector fun time _ => Codec.readsAs_word32 time, Codec.readsAs_word64 _,
      Codec.readsAs_word32 _, trivial⟩
  exact Codec.readsAs_record (by decide) hrow

theorem Throttle.readsAs (t : Throttle) : codec.ReadsAs t (.ok t) := by
  have hrow : Row.ReadsAs fields t.toRow [true, true] t.toRow :=
    ⟨Codec.readsAs_word32 _, Codec.readsAs_word32 _, trivial⟩
  exact Codec.readsAs_record (by decide) hrow

/-! ## Overrides -/

namespace Overrides

/-- The parameters that are numbers in single precision. -/
def optionals (o : Overrides) : List (Option Single) := [
  o.hfiInjectionVoltageMax, o.hfiBandwidthMax, o.tempSafetyMargin, o.fetDerateStart,
  o.fetDerateEnd, o.motorDerateStart, o.motorDerateEnd, o.currentMax, o.voltageMax,
  o.rippleCurrentLimitFactor, o.fieldWeakeningThreshold]

/-- The numbers that are set. -/
def singles (o : Overrides) : List Single := o.optionals.filterMap id

/-- The overrides without the numbers that are not finite. -/
def finiteOnly (o : Overrides) : Overrides :=
  { o with
    hfiInjectionVoltageMax := o.hfiInjectionVoltageMax.filter (·.isFinite)
    hfiBandwidthMax := o.hfiBandwidthMax.filter (·.isFinite)
    tempSafetyMargin := o.tempSafetyMargin.filter (·.isFinite)
    fetDerateStart := o.fetDerateStart.filter (·.isFinite)
    fetDerateEnd := o.fetDerateEnd.filter (·.isFinite)
    motorDerateStart := o.motorDerateStart.filter (·.isFinite)
    motorDerateEnd := o.motorDerateEnd.filter (·.isFinite)
    currentMax := o.currentMax.filter (·.isFinite)
    voltageMax := o.voltageMax.filter (·.isFinite)
    rippleCurrentLimitFactor := o.rippleCurrentLimitFactor.filter (·.isFinite)
    fieldWeakeningThreshold := o.fieldWeakeningThreshold.filter (·.isFinite) }

/-- What holds of the numbers that are set holds of each parameter that has one. -/
theorem forall_optionals {o : Overrides} {P : Single → Prop} (h : ∀ x ∈ o.singles, P x) :
    ∀ x ∈ o.optionals, ∀ y ∈ x, P y := by
  intro x hx y hy
  exact h y (List.mem_filterMap.mpr ⟨x, hx, hy⟩)

theorem filter_isFinite {x : Option Single} (h : ∀ y ∈ x, y.isFinite = true) :
    x.filter (·.isFinite) = x := by
  cases x with
  | none => rfl
  | some y => rw [Option.filter_some, if_pos (h y rfl)]

theorem finiteOnly_eq_self (o : Overrides) (h : ∀ x ∈ o.singles, x.isFinite = true) :
    o.finiteOnly = o := by
  have hoptionals := forall_optionals h
  simp only [optionals, List.forall_mem_cons] at hoptionals
  obtain ⟨h1, h2, h3, h4, h5, h6, h7, h8, h9, h10, h11, -⟩ := hoptionals
  rw [finiteOnly, filter_isFinite h1, filter_isFinite h2, filter_isFinite h3, filter_isFinite h4,
    filter_isFinite h5, filter_isFinite h6, filter_isFinite h7, filter_isFinite h8,
    filter_isFinite h9, filter_isFinite h10, filter_isFinite h11]

theorem readsAs (o : Overrides) (hdigits : ∀ x ∈ o.singles, ReadsBack x) :
    codec.ReadsAs o (.ok o.finiteOnly) := by
  have hoptionals := forall_optionals hdigits
  simp only [optionals, List.forall_mem_cons] at hoptionals
  obtain ⟨h1, h2, h3, h4, h5, h6, h7, h8, h9, h10, h11, -⟩ := hoptionals
  have hrow : Row.ReadsAs fields o.toRow (List.replicate 19 true) o.finiteOnly.toRow :=
    ⟨Codec.readsAs_optional_single h1, Codec.readsAs_optional_single h2,
      Codec.readsAs_boolean _, Codec.readsAs_boolean _, Codec.readsAs_boolean _,
      Codec.readsAs_optional_single h3, Codec.readsAs_optional_single h4,
      Codec.readsAs_optional_single h5, Codec.readsAs_optional_single h6,
      Codec.readsAs_optional_single h7, Codec.readsAs_optional_single h8,
      Codec.readsAs_optional_single h9, Codec.readsAs_boolean _,
      Codec.readsAs_optional_single h10, Codec.readsAs_boolean _,
      Codec.readsAs_optional_word32 _, Codec.readsAs_optional_word32 _,
      Codec.readsAs_optional_single h11, Codec.readsAs_boolean _, trivial⟩
  exact Codec.readsAs_record (by decide +kernel) hrow

end Overrides

namespace Latches

/-- The latches with the numbers that are not finite gone from their overrides. -/
def finiteOnly (l : Latches) : Latches := { l with overrides := l.overrides.finiteOnly }

theorem readsAs (l : Latches) (hdigits : ∀ x ∈ l.overrides.singles, ReadsBack x) :
    codec.ReadsAs l (.ok l.finiteOnly) := by
  have hrow : Row.ReadsAs fields l.toRow [true, true] l.finiteOnly.toRow :=
    ⟨Codec.readsAs_vector fun b _ => Codec.readsAs_boolean b, l.overrides.readsAs hdigits,
      trivial⟩
  exact Codec.readsAs_record (by decide) hrow

end Latches

/-- **Reading back what was written.** Every value of a type with a JSON form is read
back from its text as it was if its numbers are finite, provided that each of them is
read back from its digits. A number that is not finite is refused where a number has to
stand; overrides, which need have no number, are read without it, and otherwise as they
were. -/
theorem faithful_of_written :
    Telemetry.codec.Faithful Telemetry.readings (fun _ => []) id
      ∧ Snapshot.codec.Faithful (fun s => [s.score]) (fun _ => []) id
      ∧ Overrides.codec.Faithful (fun _ => []) Overrides.singles Overrides.finiteOnly
      ∧ Latches.codec.Faithful (fun _ => []) (·.overrides.singles) Latches.finiteOnly
      ∧ FaultHistory.codec.Faithful (fun _ => []) (fun _ => []) id
      ∧ Throttle.codec.Faithful (fun _ => []) (fun _ => []) id
      ∧ Audit.codec.Faithful (fun _ => []) (fun _ => []) id
      ∧ Report.codec.Faithful (fun r => [r.score]) (fun _ => []) id := by
  refine ⟨?_, ?_, ?_, ?_, ?_, ?_, ?_, ?_⟩
  · refine .of_readsAs (fun t hdigits => ?_) fun _ _ => rfl
    exact t.readsAs fun x hx => hdigits x (List.mem_append_left _ hx)
  · refine .of_readsAs (fun s hdigits => ?_) fun _ _ => rfl
    exact s.readsAs (hdigits s.score (List.mem_append_left _ (List.mem_singleton_self _)))
  · refine .of_readsAs (fun o hdigits => ?_) fun o hfinite => o.finiteOnly_eq_self hfinite
    exact o.readsAs hdigits
  · refine .of_readsAs (fun l hdigits => ?_) fun l hfinite => ?_
    · exact l.readsAs hdigits
    · rw [Latches.finiteOnly, l.overrides.finiteOnly_eq_self hfinite]
  · exact .of_readsAs (fun h _ => h.readsAs) fun _ _ => rfl
  · exact .of_readsAs (fun t _ => t.readsAs) fun _ _ => rfl
  · exact .of_readsAs (fun a _ => a.readsAs) fun _ _ => rfl
  · refine .of_readsAs (fun r hdigits => ?_) fun _ _ => rfl
    exact r.readsAs (hdigits r.score (List.mem_append_left _ (List.mem_singleton_self _)))

/-- Overrides with a number and one that is not finite, the telemetry of a hot board, and
telemetry that is not finite. -/
theorem faithful_of_written_overrides :
    (∀ text ∈ Overrides.codec.texts
        { hfiBandwidthMax := some 200, currentMax := some .nan, deadTime := some 400 },
      Overrides.codec.decode text = .ok { hfiBandwidthMax := some 200, deadTime := some 400 })
      ∧ (∀ text ∈ Telemetry.codec.texts { fetTemp := 90.5 },
        Telemetry.codec.decode text = .ok { fetTemp := 90.5 })
      ∧ ∀ text ∈ Telemetry.codec.texts { fetTemp := .infinity },
        ∃ cause, Telemetry.codec.decode text = .error cause ∧ cause.category.name = "data"
          ∧ cause.message = "invalid type: null, expected f32" := by
  obtain ⟨htelemetry, -, hoverrides, -⟩ := faithful_of_written
  refine ⟨fun text htext => ?_, fun text htext => ?_, fun text htext => ?_⟩
  · exact hoverrides.forgets
      { hfiBandwidthMax := some 200, currentMax := some .nan, deadTime := some 400 }
      (by decide +kernel) text htext nofun
  · exact htelemetry.restores { fetTemp := 90.5 } (by decide +kernel) text htext
      (by decide +kernel)
  · exact htelemetry.refuses { fetTemp := .infinity } (by decide +kernel) text htext
      ⟨.infinity, by simp [Telemetry.readings], by decide +kernel⟩

end BoardHealth
