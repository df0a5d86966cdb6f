import BoardHealth.Audit
import BoardHealth.FaultHistory
import BoardHealth.Latches
import BoardHealth.Profile.Loading
import BoardHealth.Proofs.Json.CutRecords
import BoardHealth.Proofs.Json.Entries
import BoardHealth.Report
import BoardHealth.Telemetry
import BoardHealth.Throttle

/-!
# Documents that are cut

A document that is cut is never taken for a whole one, wherever it is cut: not one of a
profile either, whose fields have the values of a healthy board where a document does not
mention them.

> `cut_documents_refused`: what is made of what is left of a document.
-/

namespace BoardHealth

open Json

/-! ## Names -/

theorem Violation.stopsAtCuts : codec.StopsAtCuts := Codec.stopsAtCuts_choice all name

theorem Verdict.stopsAtCuts : codec.StopsAtCuts := Codec.stopsAtCuts_choice all name

theorem Warning.stopsAtCuts : codec.StopsAtCuts := Codec.stopsAtCuts_choice all name

theorem Advice.stopsAtCuts : codec.StopsAtCuts := Codec.stopsAtCuts_choice all.toList name

/-! ## Structures -/

theorem Profile.stopsAtCuts_fields : ∀ f ∈ fields, f.codec.StopsAtCuts := by
  have hflag := Codec.stopsAtCuts_boolean
  have hlimit := Codec.stopsAtCuts_single
  have hcount := Codec.stopsAtCuts_word32
  simp only [fields, List.forall_mem_cons]
  exact ⟨hflag, hflag, hflag, hflag, hflag, hflag, hflag, hlimit, hlimit, hlimit, hlimit, hlimit,
    hlimit, hlimit, hlimit, hcount, hcount, hflag, hflag, hflag, hlimit, nofun⟩

theorem Telemetry.stopsAtCuts_fields : ∀ f ∈ fields, f.codec.StopsAtCuts := by
  simp only [fields, List.forall_mem_cons]
  exact ⟨Codec.stopsAtCuts_single, Codec.stopsAtCuts_single, Codec.stopsAtCuts_single,
    Codec.stopsAtCuts_single, nofun⟩

theorem Snapshot.stopsAtCuts_fields : ∀ f ∈ fields, f.codec.StopsAtCuts := by
  have hflag := Codec.stopsAtCuts_boolean
  have hnumber := Codec.stopsAtCuts_single
  have hcount := Codec.stopsAtCuts_word32
  simp only [fields, List.forall_mem_cons]
  exact ⟨hflag, hflag, hflag, hflag, hflag, hflag, hflag, hflag, hflag, hnumber, hcount, hcount,
    nofun⟩

theorem Overrides.stopsAtCuts_fields : ∀ f ∈ fields, f.codec.StopsAtCuts := by
  have hlimit := Codec.stopsAtCuts_optional Codec.stopsAtCuts_single
  have hsetting := Codec.stopsAtCuts_optional Codec.stopsAtCuts_word32
  have hflag := Codec.stopsAtCuts_boolean
  simp only [fields, List.forall_mem_cons]
  exact ⟨hlimit, hlimit, hflag, hflag, hflag, hlimit, hlimit, hlimit, hlimit, hlimit, hlimit,
    hlimit, hflag, hlimit, hflag, hsetting, hsetting, hlimit, hflag, nofun⟩

theorem Latches.stopsAtCuts_fields : ∀ f ∈ fields, f.codec.StopsAtCuts := by
  simp only [fields, List.forall_mem_cons]
  exact ⟨Codec.stopsAtCuts_vector Codec.stopsAtCuts_boolean 6,
    Codec.stopsAtCuts_record Overrides.stopsAtCuts_fields, nofun⟩

theorem FaultHistory.stopsAtCuts_fields : ∀ f ∈ fields, f.codec.StopsAtCuts := by
  simp only [fields, List.forall_mem_cons]
  exact ⟨Codec.stopsAtCuts_vector Codec.stopsAtCuts_word32 16, Codec.stopsAtCuts_word64,
    Codec.stopsAtCuts_word32, nofun⟩

theorem Throttle.stopsAtCuts_fields : ∀ f ∈ fields, f.codec.StopsAtCuts := by
  simp only [fields, List.forall_mem_cons]
  exact ⟨Codec.stopsAtCuts_word32, Codec.stopsAtCuts_word32, nofun⟩

theorem Audit.stopsAtCuts_fields : ∀ f ∈ fields, f.codec.StopsAtCuts := by
  simp only [fields, List.forall_mem_cons]
  exact ⟨Codec.stopsAtCuts_bounded Violation.stopsAtCuts 5, nofun⟩

theorem Report.stopsAtCuts_fields : ∀ f ∈ fields, f.codec.StopsAtCuts := by
  simp only [fields, List.forall_mem_cons]
  exact ⟨Codec.stopsAtCuts_single, Codec.stopsAtCuts_word32, Codec.stopsAtCuts_word32,
    Verdict.stopsAtCuts, Codec.stopsAtCuts_bounded Warning.stopsAtCuts 10,
    Codec.stopsAtCuts_vector Advice.stopsAtCuts 7, nofun⟩

/-- **Documents that are cut are refused**, whichever structure they are of and wherever
they are cut. Nothing is wrong with what is left but that it ends, unless a numeral is
cut. In particular no profile is loaded from what is left of one, be its defects mentioned
in the part that is lost. -/
theorem cut_documents_refused :
    Profile.codec.RefusesFronts ∧ Telemetry.codec.RefusesFronts ∧ Snapshot.codec.RefusesFronts
      ∧ Overrides.codec.RefusesFronts ∧ Latches.codec.RefusesFronts
      ∧ FaultHistory.codec.RefusesFronts ∧ Throttle.codec.RefusesFronts
      ∧ Audit.codec.RefusesFronts ∧ Report.codec.RefusesFronts
      ∧ ∀ (text : String) (p : Profile), Profile.codec.decode text = .ok p →
        (∀ c ∈ text.toList.getLast?, isBlank c = false) →
        ∀ front back, text.toList = front ++ back → back ≠ [] →
          ∃ e, Profile.load (.ofList front) = .error (.unreadable e)
            ∧ e.category.name ≠ "data"
            ∧ (¬CutsNumeral .between front back → e.category.name = "eof") := by
  have hprofile : Profile.codec.RefusesFronts :=
    Codec.refusesFronts_record Profile.stopsAtCuts_fields
  refine ⟨hprofile, Codec.refusesFronts_record Telemetry.stopsAtCuts_fields,
    Codec.refusesFronts_record Snapshot.stopsAtCuts_fields,
    Codec.refusesFronts_record Overrides.stopsAtCuts_fields,
    Codec.refusesFronts_record Latches.stopsAtCuts_fields,
    Codec.refusesFronts_record FaultHistory.stopsAtCuts_fields,
    Codec.refusesFronts_record Throttle.stopsAtCuts_fields,
    Codec.refusesFronts_record Audit.stopsAtCuts_fields,
    Codec.refusesFronts_record Report.stopsAtCuts_fields, ?_⟩
  intro text p hdecode hlast front back htext hback
  obtain ⟨e, he, hkind⟩ := hprofile text p hdecode hlast front back htext hback
  exact ⟨e, by rw [Profile.load, he], hkind⟩

/-- A profile that lists one defect, cut in front of its closing bracket, and a throttle
that is cut within its interval. -/
theorem cut_documents_refused_of_list :
    (∃ e, Profile.load "[false" = .error (.unreadable e) ∧ e.category.name = "eof")
      ∧ ∃ e, Throttle.codec.decode "[10000" = .error e ∧ e.category.name ≠ "data" := by
  obtain ⟨-, -, -, -, -, -, hthrottle, -, -, hload⟩ := cut_documents_refused
  have hlast : ∀ text : String, text.toList.getLast? = some ']' →
      ∀ c ∈ text.toList.getLast?, isBlank c = false := by
    rintro text htext c hc
    obtain rfl : ']' = c := Option.some.inj (htext.symm.trans hc)
    rfl
  constructor
  · have hread : (Profile.codec.decode "[false]").isOk = true := by decide +kernel
    obtain ⟨p, hdecode⟩ := exists_of_isOk hread
    have hbetween : ¬CutsNumeral .between "[false".toList "]".toList := by
      rintro ⟨hspot, -⟩
      exact absurd hspot (by decide)
    obtain ⟨e, he, -, hkind⟩ := hload "[false]" p hdecode (hlast _ rfl) "[false".toList
      "]".toList rfl (List.cons_ne_nil _ _)
    exact ⟨e, he, hkind hbetween⟩
  · have hread : (Throttle.codec.decode "[1000000,5]").isOk = true := by decide +kernel
    obtain ⟨t, hdecode⟩ := exists_of_isOk hread
    obtain ⟨e, he, hkind, -⟩ := hthrottle "[1000000,5]" t hdecode (hlast _ rfl) "[10000".toList
      "00,5]".toList rfl (List.cons_ne_nil _ _)
    exact ⟨e, he, hkind⟩

end BoardHealth
