import BoardHealth.Proofs.PublishedState

/-!
# Verdicts and acceptance

A verdict stands for a band of scores (`Verdict.Covers`), and the three bands leave no
number out. The verdict on a number is that of its band, so a higher score gets no lower
verdict, and a board that may not be run as it is configured gets the lowest. A score that
is not a number is in no band. It lies below no threshold, so the verdict on it is the
highest, while no board may be run with it:

> `unknown_score_acceptable`: such a score is refused and has the verdict `acceptable`.
> `verdict_of_pass`: what a report's verdict says of the score, for every snapshot.
> `Monitor.verdict_of_run`: a monitor gives every score it computes the verdict of its band.
-/

namespace BoardHealth

namespace Verdict

variable {x y : Single} {v : Verdict}

/-- The scores that the verdict stands for. -/
def Covers : Verdict → Single → Prop
  | belowRecommended, score => score < 70
  | someConcerns, score => 70 ≤ score ∧ score < 85
  | acceptable, score => 85 ≤ score

theorem belowRecommended_le (v : Verdict) : belowRecommended ≤ v := Nat.zero_le v.rank

theorem le_acceptable (v : Verdict) : v ≤ acceptable := by
  cases v <;> decide

/-- How a score comes to its verdict: it is below where the next one begins, and not below
where this one does. -/
theorem ofScore_cases (x : Single) :
    (ofScore x = .belowRecommended ∧ x < 70)
      ∨ (ofScore x = .someConcerns ∧ ¬x < 70 ∧ x < 85)
      ∨ (ofScore x = .acceptable ∧ ¬x < 70 ∧ ¬x < 85) := by
  unfold ofScore
  by_cases hconcern : x < 70
  · rw [if_pos hconcern]
    exact .inl ⟨rfl, hconcern⟩
  · rw [if_neg hconcern]
    by_cases haccept : x < 85
    · rw [if_pos haccept]
      exact .inr (.inl ⟨rfl, hconcern, haccept⟩)
    · rw [if_neg haccept]
      exact .inr (.inr ⟨rfl, hconcern, haccept⟩)

/-- The verdict on a number stands for it. -/
theorem covers_ofScore (hx : x ≠ .nan) : (ofScore x).Covers x := by
  -- A score that is not a number is not below a threshold either, but does not reach it.
  have hreaches : ∀ {n : Nat}, ¬x < .ofNat n → .ofNat n ≤ x :=
    (Binary.not_lt_iff_of_ne_nan hx Binary.signed_ne_nan).mp
  rcases ofScore_cases x with ⟨hv, hlow⟩ | ⟨hv, hreached, hlow⟩ | ⟨hv, -, hreached⟩
  · rw [hv]
    exact hlow
  · rw [hv]
    exact ⟨hreaches hreached, hlow⟩
  · rw [hv]
    exact hreaches hreached

/-- What a verdict stands for is given no other. -/
theorem ofScore_of_covers (h : v.Covers x) : ofScore x = v := by
  unfold ofScore
  cases v with
  | belowRecommended => exact if_pos h
  | someConcerns =>
    obtain ⟨hlow, hhigh⟩ := h
    rw [if_neg (Binary.not_lt_of_le hlow), if_pos hhigh]
  | acceptable =>
    have hlow : ¬x < 70 := by
      intro hlow
      exact absurd (Binary.lt_of_le_of_lt h hlow) (by decide)
    rw [if_neg hlow, if_neg (Binary.not_lt_of_le h)]

/-- The scores with a given verdict: those of its band, and with the highest verdict also
the one that is not a number. -/
theorem ofScore_eq_iff : ofScore x = v ↔ v.Covers x ∨ v = .acceptable ∧ x = .nan := by
  constructor
  · intro hv
    by_cases hx : x = .nan
    · rw [hx] at hv
      exact .inr ⟨hv.symm, hx⟩
    · rw [← hv]
      exact .inl (covers_ofScore hx)
  · rintro (hcovers | ⟨rfl, rfl⟩)
    · exact ofScore_of_covers hcovers
    · rfl

/-- A higher score gets no lower verdict. -/
theorem ofScore_mono (h : x ≤ y) : ofScore x ≤ ofScore y := by
  rcases ofScore_cases y with ⟨hv, hlow⟩ | ⟨hv, -, hlow⟩ | ⟨hv, -, -⟩
  · have hx : ofScore x = .belowRecommended := ofScore_of_covers (Binary.lt_of_le_of_lt h hlow)
    rw [hx]
    exact belowRecommended_le _
  · have hx : x < 85 := Binary.lt_of_le_of_lt h hlow
    rw [hv]
    rcases ofScore_cases x with ⟨hv', -⟩ | ⟨hv', -, -⟩ | ⟨-, -, hreached⟩
    · rw [hv']
      exact belowRecommended_le _
    · rw [hv']
      exact Nat.le_refl _
    · exact absurd hx hreached
  · rw [hv]
    exact le_acceptable _

/-- A number that is refused is below all thresholds. -/
theorem ofScore_of_refused (hx : x ≠ .nan) (hrefused : isAcceptableScore x = false) :
    ofScore x = .belowRecommended := by
  have hle : x ≤ 60 :=
    (Binary.not_lt_iff_of_ne_nan Binary.signed_ne_nan hx).mp (of_decide_eq_false hrefused)
  have hlow : x < 70 := Binary.lt_of_le_of_lt hle (by decide)
  exact ofScore_of_covers hlow

end Verdict

namespace Report

/-- A score that is not a number is refused, and has the verdict that is meant for 85 and
more. -/
theorem unknown_score_acceptable :
    (¬∀ (p : Profile) (s : Snapshot), (ofPass p s).verdict = .acceptable → 85 ≤ s.score)
      ∧ ¬∀ (p : Profile) (s : Snapshot),
        s.isAcceptable = false → (ofPass p s).verdict = .belowRecommended := by
  let s : Snapshot := { Snapshot.blank with score := .nan }
  have hverdict : (ofPass .healthy s).verdict = .acceptable := rfl
  constructor
  · intro h
    have hscore : 85 ≤ s.score := h .healthy s hverdict
    exact (Binary.ne_nan_of_le hscore).2 rfl
  · intro h
    have hlowest : (ofPass .healthy s).verdict = .belowRecommended := h .healthy s rfl
    rw [hverdict] at hlowest
    cases hlowest

/-- **What a report's verdict says of the score.** For every board and every snapshot, the
verdict is that of the band which the score lies in, or the highest if the score is not a
number. A snapshot that is refused has the lowest verdict, unless its score is not a number:
such a snapshot is refused and has another. A snapshot with a higher score has no lower
verdict, be it of the same board or not. -/
theorem verdict_of_pass (p : Profile) (s : Snapshot) :
    let verdict := (ofPass p s).verdict
    (∀ v, verdict = v ↔ v.Covers s.score ∨ v = .acceptable ∧ s.score = .nan)
      ∧ (s.isAcceptable = false ∧ verdict ≠ .belowRecommended ↔ s.score = .nan)
      ∧ ∀ (p' : Profile) (s' : Snapshot),
        s.score ≤ s'.score → verdict ≤ (ofPass p' s').verdict := by
  intro verdict
  refine ⟨fun v => Verdict.ofScore_eq_iff, ?_, fun p' s' hle => Verdict.ofScore_mono hle⟩
  constructor
  · rintro ⟨hrefused, hverdict⟩
    by_contra hnumber
    exact hverdict (Verdict.ofScore_of_refused hnumber hrefused)
  · intro hnan
    have hverdict : verdict = .acceptable := Verdict.ofScore_eq_iff.mpr (.inr ⟨rfl, hnan⟩)
    refine ⟨?_, ?_⟩
    · show isAcceptableScore s.score = false
      rw [hnan]
      rfl
    · rw [hverdict]
      intro h
      cases h

end Report

/-- **A monitor's verdict keeps to its band.** No reading makes a monitor's score anything
but a number. So after any run the verdict of its report stands for the score, and a
snapshot that is refused is reported with the lowest verdict. -/
theorem Monitor.verdict_of_run (p : Profile) (t : Telemetry) (ops : List Operation) :
    let m := (new p t).run ops
    m.report.verdict.Covers m.snapshot.score
      ∧ (m.snapshot.isAcceptable = false → m.report.verdict = .belowRecommended) := by
  intro m
  obtain ⟨n, hscore, -⟩ := exists_score_of_run p t ops
  have hnumber : m.snapshot.score ≠ .nan := by
    rw [hscore]
    exact Binary.signed_ne_nan
  exact ⟨Verdict.covers_ofScore hnumber, Verdict.ofScore_of_refused hnumber⟩

end BoardHealth
