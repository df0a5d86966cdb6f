import BoardHealth.Proofs.ExactScore
import BoardHealth.Proofs.Json.WholeNumerals
import BoardHealth.Proofs.Rejections
import BoardHealth.Proofs.RoundTrips
import BoardHealth.Proofs.Warnings

/-!
# What a monitor publishes is read back

A number that is not finite has no JSON form, and a reading may well be none. But no
reading reaches what a monitor publishes other than through its score, and a score is a
small whole number whatever was read (`exists_score_of_run`). Such a number is read back
from its digits (`readsBack_ofNat`), so

> `published_is_restored`: in every state that a run reaches, the snapshot, the report and
> the history of rejections are read back from their texts as they are, and a history that
> was read back goes on as the one that was written.
-/

namespace BoardHealth

namespace Json

/-- Every text of the value is read back as the value. -/
def Codec.Restores {α : Type} (codec : Codec α) (a : α) : Prop :=
  ∀ text ∈ codec.texts a, codec.decode text = .ok a

theorem Codec.ReadsAs.restores {α : Type} {codec : Codec α} {a : α}
    (h : codec.ReadsAs a (.ok a)) : codec.Restores a :=
  fun _ htext => h.decode htext

end Json

open Json

/-- A snapshot whose score is read back is read back. -/
theorem Snapshot.restores {s : Snapshot} (hfinite : s.score.isFinite = true)
    (hdigits : ReadsBack s.score) : codec.Restores s := by
  have hread := s.readsAs hdigits
  rw [Codec.unlessNull_of_finite (List.forall_mem_singleton.mpr hfinite)] at hread
  exact hread.restores

/-- A report whose score is read back is read back. -/
theorem Report.restores {r : Report} (hfinite : r.score.isFinite = true)
    (hdigits : ReadsBack r.score) : codec.Restores r := by
  have hread := r.readsAs hdigits
  rw [Codec.unlessNull_of_finite (List.forall_mem_singleton.mpr hfinite)] at hread
  exact hread.restores

namespace Monitor

/-- After every run the score is a whole number: zero before the first pass, and between
16 and 100 from then on. -/
theorem exists_score_of_run (p : Profile) (t : Telemetry) (ops : List Operation) :
    let m := (new p t).run ops
    let j := Journal.ofCalls t ((new p t).calls ops)
    ∃ n, m.snapshot.score = .ofNat n
      ∧ if j.lastPass.isSome then 16 ≤ n ∧ n ≤ 100 else n = 0 := by
  intro m j
  obtain ⟨-, hbalanced, -⟩ := balanced_of_run p t ops
  have hscore : m.snapshot.score = (j.findings p).score := by rw [hbalanced.snapshot]
  cases hlast : j.lastPass with
  | none =>
    refine ⟨0, ?_, rfl⟩
    rw [hscore, Journal.findings, hlast]
    rfl
  | some readings =>
    have hlost := lost_costs_le p readings
    refine ⟨100 - Check.lost (costs p readings), ?_, ?_⟩
    · rw [hscore, Journal.findings, hlast]
      exact score_diagnose p readings
    · show 16 ≤ _ ∧ _ ≤ 100
      omega

/-- **What a monitor publishes is read back.** Take any run of a new monitor, whatever the
readings are. Its score is a whole number, zero before the first pass and between 16 and
100 from then on. The snapshot, the report and the history of rejections are read back
from their texts as they are. A history that was read back takes up any further times as
the one that was written does, and holds the end of all rejections then. -/
theorem published_is_restored (p : Profile) (t : Telemetry) (ops : List Operation) :
    let m := (new p t).run ops
    let j := Journal.ofCalls t ((new p t).calls ops)
    (∃ n, m.snapshot.score.IsExactly n
        ∧ if j.lastPass.isSome then 16 ≤ n ∧ n ≤ 100 else n = 0)
      ∧ Snapshot.codec.Restores m.snapshot
      ∧ Report.codec.Restores m.report
      ∧ FaultHistory.codec.Restores m.history
      ∧ ∃ restored, FaultHistory.codec.decode (FaultHistory.codec.text m.history) = .ok restored
        ∧ ∀ times : List UInt32, ∃ later,
          restored.recordAll? times = some later ∧ m.history.recordAll? times = some later
            ∧ later.recent = (j.rejections ++ times).reverse.take later.size
            ∧ later.latest? = (j.rejections ++ times).getLast?
            ∧ later.size = min (j.rejections ++ times).length 16
            ∧ later.writeIndex.toNat = (j.rejections ++ times).length % 16 := by
  intro m j
  obtain ⟨n, hscore, hrange⟩ := exists_score_of_run p t ops
  have hsmall : n < 101 := by
    split at hrange <;> omega
  have hfinite : m.snapshot.score.isFinite = true := by
    rw [hscore]
    exact Magnitude.isFinite_ofNat (by omega)
  have hdigits : ReadsBack m.snapshot.score := by
    rw [hscore]
    exact readsBack_ofNat (by omega)
  have hhistory : FaultHistory.codec.Restores m.history := m.history.readsAs.restores
  refine ⟨⟨n, ?_, hrange⟩, Snapshot.restores hfinite hdigits, Report.restores hfinite hdigits,
    hhistory, m.history, hhistory _ List.mem_cons_self, ?_⟩
  · rw [hscore]
    exact Binary.isExactly_ofNat (by omega)
  · intro times
    obtain ⟨later, hall, hrec⟩ := (recorded_of_run p t ops).recordAll? times
    exact ⟨later, hall, hall, hrec.recent_eq, hrec.latest?_eq, hrec.size_eq, hrec.writeIndex_eq⟩

end Monitor

end BoardHealth
