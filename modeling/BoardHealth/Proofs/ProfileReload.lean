import BoardHealth.Profile.Loading
import BoardHealth.Proofs.Json.Written
import BoardHealth.Proofs.ProfileDocuments

/-!
# Saving and reloading profiles

A profile that was written is loaded as the same profile, or refused for what is wrong
with it. Its fields would have the values of a healthy board if a document did not
mention them; what is written mentions them all, and a limit that is not finite is
written as `null`, which is not taken for a field that is left out.

> `load_written`: what loading makes of what is written for a profile.
-/

namespace BoardHealth.Profile

open Json

/-- The limits that are numbers in single precision. -/
def singles (p : Profile) : List Single := [
  p.voltageMaxAbsolute, p.currentMaxSafe, p.voltageMaxSafe, p.hfiVoltageScaleMax,
  p.hfiBandwidthMax, p.tempSafetyMargin, p.mosfetCurrentLimitConservative,
  p.mosfetVoltageLimitConservative, p.rippleCurrentLimitFactor]

/-- A profile is read back unless one of its limits is not finite. -/
theorem readsAs (p : Profile) (hdigits : ∀ x ∈ p.singles, ReadsBack x) :
    codec.ReadsAs p (Codec.unlessNull (p.singles.all (·.isFinite)) p) := by
  simp only [singles, List.forall_mem_cons] at hdigits
  obtain ⟨h1, h2, h3, h4, h5, h6, h7, h8, h9, -⟩ := hdigits
  have hrow : Row.ReadsAs fields p.toRow
      [true, true, true, true, true, true, true, p.voltageMaxAbsolute.isFinite,
        p.currentMaxSafe.isFinite, p.voltageMaxSafe.isFinite, p.hfiVoltageScaleMax.isFinite,
        p.hfiBandwidthMax.isFinite, p.tempSafetyMargin.isFinite,
        p.mosfetCurrentLimitConservative.isFinite, p.mosfetVoltageLimitConservative.isFinite,
        true, true, true, true, true, p.rippleCurrentLimitFactor.isFinite] p.toRow :=
    ⟨Codec.readsAs_boolean _, Codec.readsAs_boolean _, Codec.readsAs_boolean _,
      Codec.readsAs_boolean _, Codec.readsAs_boolean _, Codec.readsAs_boolean _,
      Codec.readsAs_boolean _, Codec.readsAs_single h1, Codec.readsAs_single h2,
      Codec.readsAs_single h3, Codec.readsAs_single h4, Codec.readsAs_single h5,
      Codec.readsAs_single h6, Codec.readsAs_single h7, Codec.readsAs_single h8,
      Codec.readsAs_word32 _, Codec.readsAs_word32 _, Codec.readsAs_boolean _,
      Codec.readsAs_boolean _, Codec.readsAs_boolean _, Codec.readsAs_single h9, trivial⟩
  exact Codec.readsAs_record distinctNames_fields hrow

theorem load_of_decode {text : String} {p : Profile} (h : codec.decode text = .ok p) :
    load text = p.validate.map fun _ => p := by
  rw [load, h]

theorem load_of_decode_error {text : String} {cause : DecodeError}
    (h : codec.decode text = .error cause) : load text = .error (.unreadable cause) := by
  rw [load, h]

/-- **Saving and reloading a profile.** Take a profile whose finite limits are read back
from their digits, and its text, on one line or indented. If all limits are finite, the
text is loaded as the profile itself if it has no fault, and is refused for its fault
otherwise. If a limit is not finite, the text is refused for a `null` in place of a
number; no limit of a healthy board takes its place. -/
theorem load_written (p : Profile) (hdigits : ∀ x ∈ p.singles, ReadsBack x) :
    ∀ text ∈ codec.texts p,
      ((∀ x ∈ p.singles, x.isFinite = true) →
        (p.validate = .ok () → load text = .ok p)
          ∧ ∀ e, p.validate = .error e → load text = .error e)
      ∧ ((∃ x ∈ p.singles, x.isFinite = false) →
        ∃ cause, load text = .error (.unreadable cause)
          ∧ cause.category.name = "data"
          ∧ cause.message = "invalid type: null, expected f32") := by
  intro text htext
  have hdecode := (p.readsAs hdigits).decode htext
  refine ⟨fun hfinite => ?_, fun hinfinite => ?_⟩
  · rw [Codec.unlessNull_of_finite hfinite] at hdecode
    rw [load_of_decode hdecode]
    refine ⟨fun hvalid => ?_, fun e hfault => ?_⟩
    · rw [hvalid]
      rfl
    · rw [hfault]
      rfl
  · rw [Codec.unlessNull_of_not_finite hinfinite] at hdecode
    exact ⟨.wrongType .null .single, load_of_decode_error hdecode, rfl, rfl⟩

/-- A board with every defect: as it is, with a fault, and with a limit that is not a
number. -/
theorem load_written_of_every_defect :
    (∀ text ∈ codec.texts flipsky75200ProV2, load text = .ok flipsky75200ProV2)
      ∧ (∀ text ∈ codec.texts { flipsky75200ProV2 with switchingFrequencySafe := 0 },
        load text = .error (.notPositive .switchingFrequencySafe 0))
      ∧ ∀ text ∈ codec.texts { flipsky75200ProV2 with currentMaxSafe := .nan },
        ∃ cause, load text = .error (.unreadable cause) ∧ cause.category.name = "data"
          ∧ cause.message = "invalid type: null, expected f32" := by
  have hdigits : ∀ x ∈ .nan :: flipsky75200ProV2.singles, ReadsBack x := by decide +kernel
  have hfinite : ∀ x ∈ flipsky75200ProV2.singles, x.isFinite = true := by decide +kernel
  refine ⟨fun text htext => ?_, fun text htext => ?_, fun text htext => ?_⟩
  · have hload := load_written _ (fun x hx => hdigits x (List.mem_cons_of_mem _ hx)) text htext
    exact (hload.1 hfinite).1 rfl
  · have hload := load_written { flipsky75200ProV2 with switchingFrequencySafe := 0 }
      (fun x hx => hdigits x (List.mem_cons_of_mem _ hx)) text htext
    exact (hload.1 hfinite).2 _ rfl
  · have hload := load_written { flipsky75200ProV2 with currentMaxSafe := .nan }
      (by decide +kernel) text htext
    exact hload.2 ⟨.nan, by simp [singles], rfl⟩

end BoardHealth.Profile
