import BoardHealth.Proofs.FaultRing
import BoardHealth.Proofs.RoundTrips

/-!
# Histories read from documents

A history that was read from a document may stand anywhere: any times in its slots, any
count of records, and a write index in the ring or beside it. Beside the ring there is no
room, and requests to record are turned down until somebody resets the history
(`serveAll_record_of_outside`). In the ring every request is carried out, and what is on
record is known from `Recorded`, whatever the slots and the count were before.

> `restored_history_serves`: what comes of any history that is asked to record and reset.
-/

namespace BoardHealth.FaultHistory

open Json

/-- What a history can be asked for. -/
inductive Request where
  | record (time : UInt32)
  | reset

/-- Whether a request is carried out, and the history afterwards. A request that is turned
down leaves the history as it is. -/
def serve (h : FaultHistory) : Request → Bool × FaultHistory
  | .record time => ((h.record? time).isSome, (h.record? time).getD h)
  | .reset => (true, .empty)

/-- Which of the requests are carried out, one after the other, and the history after the
last. -/
def serveAll (h : FaultHistory) : List Request → List Bool × FaultHistory
  | [] => ([], h)
  | r :: requests =>
    let (carriedOut, last) := (h.serve r).2.serveAll requests
    ((h.serve r).1 :: carriedOut, last)

section Requests

variable {h h' : FaultHistory} {times : List UInt32}

theorem serveAll_append (requests later : List Request) :
    h.serveAll (requests ++ later) =
      ((h.serveAll requests).1 ++ ((h.serveAll requests).2.serveAll later).1,
        ((h.serveAll requests).2.serveAll later).2) := by
  induction requests generalizing h with
  | nil => rfl
  | cons r requests ih =>
    rw [List.cons_append, serveAll, ih]
    rfl

/-- After a reset nothing is left of what was before. -/
theorem serveAll_reset (earlier later : List Request) :
    h.serveAll (earlier ++ .reset :: later) =
      ((h.serveAll earlier).1 ++ true :: (empty.serveAll later).1, (empty.serveAll later).2) := by
  rw [serveAll_append]
  rfl

/-- A write index beside the ring leaves no room. -/
theorem record?_of_le (hw : 16 ≤ h.writeIndex.toNat) (time : UInt32) : h.record? time = none := by
  rw [record?, dif_neg (Nat.not_lt.mpr hw)]

theorem serveAll_record_of_outside (hw : 16 ≤ h.writeIndex.toNat) (times : List UInt32) :
    h.serveAll (times.map .record) = (List.replicate times.length false, h) := by
  induction times with
  | nil => rfl
  | cons time times ih =>
    have hserve : h.serve (.record time) = (false, h) := by
      rw [serve, record?_of_le hw]
      rfl
    rw [List.map_cons, serveAll, hserve, ih]
    rfl

/-- Times that are all recorded are requests that are all carried out. -/
theorem serveAll_record_of_eq_some (hall : h.recordAll? times = some h') :
    h.serveAll (times.map .record) = (List.replicate times.length true, h') := by
  induction times generalizing h with
  | nil =>
    obtain rfl : h = h' := Option.some.inj hall
    rfl
  | cons time times ih =>
    rw [recordAll?, List.foldlM_cons] at hall
    obtain ⟨h₁, hrecord, hlater⟩ := Option.bind_eq_some_iff.mp hall
    have hserve : h.serve (.record time) = (true, h₁) := by
      rw [serve, hrecord]
      rfl
    rw [List.map_cons, serveAll, hserve, ih hlater]
    rfl

end Requests

/-- **Histories read from documents.** Any history at all can be read from a document.

If its write index lies beside the ring, no request to record is carried out, and the
history stays as it is. If it lies in the ring, all are. The write index has then gone
around the ring, and the count has gone up or stays at its largest value. A slot holds the
last time that was sent to it, or what it held before if there is none; the latest time is
the last one sent, and the history is not empty.

The latest time of a history that is not empty stands in front of its write index, beside
the ring as well. After a reset it serves as one that is new, whatever was before. -/
theorem restored_history_serves (h : FaultHistory) (times : List UInt32) :
    let w := h.writeIndex.toNat
    (∀ text ∈ codec.texts h, codec.decode text = .ok h)
      ∧ (16 ≤ w → h.serveAll (times.map .record) = (List.replicate times.length false, h))
      ∧ (w < 16 → ∃ h', h.serveAll (times.map .record) = (List.replicate times.length true, h')
          ∧ h'.writeIndex.toNat = (w + times.length) % 16
          ∧ h'.recorded.toNat = min (h.recorded.toNat + times.length) (2 ^ 32 - 1)
          ∧ (∀ (i : Fin 16) (n : Nat) (hn : n < times.length), (w + n) % 16 = i →
              (∀ k, n < k → k < times.length → (w + k) % 16 ≠ i) → h'.slots.get i = times[n])
          ∧ (∀ i : Fin 16, (∀ n < times.length, (w + n) % 16 ≠ i) →
              h'.slots.get i = h.slots.get i)
          ∧ h'.size = min h'.recorded.toNat 16
          ∧ (times ≠ [] → h'.latest? = times.getLast? ∧ h'.isEmpty = false))
      ∧ (0 < h.recorded → h.latest? = some (h.slots.get (.ofNat 16 (w + 15))))
      ∧ ∀ earlier later, h.serveAll (earlier ++ .reset :: later) =
          ((h.serveAll earlier).1 ++ true :: (empty.serveAll later).1,
            (empty.serveAll later).2) := by
  intro w
  refine ⟨fun text htext => h.readsAs.decode htext,
    fun hw => serveAll_record_of_outside hw times, ?_, latest?_eq_some, serveAll_reset⟩
  intro hw
  obtain ⟨h', hall, hrec⟩ := recordAll?_eq_some hw times
  refine ⟨h', serveAll_record_of_eq_some hall, hrec.writeIndex, hrec.recorded,
    fun i n hn hi hlast => hrec.slot_eq_last hn hi hlast, fun i hother => hrec.kept i i.isLt hother,
    rfl, fun htimes => ⟨hrec.latest?_eq_getLast? htimes, ?_⟩⟩
  exact decide_eq_false (UInt32.pos_iff_ne_zero.mp (hrec.recorded_pos htimes))

/-- A full history whose count is at its largest value takes two more times across the end
of the ring; one with its write index beside the ring takes them after a reset. -/
example :
    let full : FaultHistory :=
      { slots := .replicate 16 7, writeIndex := 15, recorded := 4294967295 }
    let beside : FaultHistory := { full with writeIndex := 16 }
    (full.serveAll [.record 1, .record 2]).2.latest? = some 2
      ∧ (full.serveAll [.record 1, .record 2]).2.recorded = 4294967295
      ∧ (beside.serveAll [.record 1, .reset, .record 2]).1 = [false, true, true] := by
  decide

end BoardHealth.FaultHistory
