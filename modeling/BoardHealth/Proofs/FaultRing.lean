import BoardHealth.FaultHistory
import Mathlib.Algebra.Group.Nat.Defs

/-!
# What a fault history holds

A history is a ring: the time recorded as number `n` goes to the slot that lies `n`
behind the write index, around the ring, and stays there until 16 more were
recorded. `Recorded` says this of a history and the one it has become after a list
of times, wherever its write index stood in the ring:

> `recordAll?_eq_some`: a history whose write index lies in the ring takes any
> number of times, and ends as `Recorded` says.
> `Recorded.recordAll?`: so it does in two parts.

`recent` reads a history backwards from its write index. For a history that began
empty it gives back the times last recorded, the newest first (`Recorded.recent_eq`).
-/

namespace BoardHealth

namespace FaultHistory

/-- The history with times recorded one after the other, unless the write index is
outside the ring. -/
def recordAll? (h : FaultHistory) (times : List UInt32) : Option FaultHistory :=
  times.foldlM record? h

/-- The slots in use, backwards from the write index and around the ring. -/
def slotsInUse (h : FaultHistory) : List (Fin 16) :=
  (List.range h.size).map fun k => Fin.ofNat 16 (h.writeIndex.toNat + 15 - k)

/-- The times on record, the newest first. -/
def recent (h : FaultHistory) : List UInt32 := h.slotsInUse.map fun i => h.slots[i]

/-- What a history `h` has become after times were recorded: where they are, and
what is left of before. -/
structure Recorded (h : FaultHistory) (times : List UInt32) (h' : FaultHistory) : Prop where
  writeIndex : h'.writeIndex.toNat = (h.writeIndex.toNat + times.length) % 16
  recorded : h'.recorded.toNat = min (h.recorded.toNat + times.length) (2 ^ 32 - 1)
  newest : ∀ n (hn : n < times.length), times.length ≤ n + 16 →
    h'.slots[(h.writeIndex.toNat + n) % 16] = times[n]
  kept : ∀ i (hi : i < 16), (∀ n < times.length, (h.writeIndex.toNat + n) % 16 ≠ i) →
    h'.slots[i] = h.slots[i]

/-- A write index in the ring leaves room for a record. -/
theorem record?_of_lt {h : FaultHistory} (hw : h.writeIndex.toNat < 16) (time : UInt32) :
    h.record? time = some {
      slots := h.slots.set h.writeIndex.toNat time
      writeIndex := (h.writeIndex + 1) % 16
      recorded := addSaturating h.recorded 1 } := by
  rw [record?, dif_pos hw]

/-- Nothing recorded, nothing changed. -/
theorem Recorded.nil {h : FaultHistory} (hw : h.writeIndex.toNat < 16) : Recorded h [] h where
  writeIndex := (Nat.mod_eq_of_lt hw).symm
  recorded := by
    have hlt := h.recorded.toNat_lt
    show _ = min h.recorded.toNat _
    omega
  newest n hn := absurd hn (Nat.not_lt_zero n)
  kept _ _ _ := rfl

/-- The write index of a history that recorded lies in the ring, far from where sums of it
wrap around. -/
theorem Recorded.writeIndex_lt {h h' : FaultHistory} {times : List UInt32}
    (hrec : Recorded h times h') : h'.writeIndex.toNat < 16 := by
  rw [hrec.writeIndex]
  exact Nat.mod_lt _ (by decide)

/-- One more time on record. -/
theorem Recorded.concat {h h' : FaultHistory} {times : List UInt32} (hrec : Recorded h times h')
    (time : UInt32) :
    ∃ h'', h'.record? time = some h'' ∧ Recorded h (times ++ [time]) h'' := by
  have hw := hrec.writeIndex_lt
  refine ⟨_, record?_of_lt hw time, ?_, ?_, ?_, ?_⟩
  · show ((h'.writeIndex + 1) % 16).toNat = _
    rw [UInt64.toNat_mod, UInt64.toNat_add, hrec.writeIndex, List.length_append]
    show ((h.writeIndex.toNat + times.length) % 16 + 1) % 2 ^ 64 % 16 =
      (h.writeIndex.toNat + (times.length + 1)) % 16
    omega
  · show (addSaturating h'.recorded 1).toNat = _
    rw [toNat_addSaturating, hrec.recorded, List.length_append]
    show min (min _ _ + 1) (2 ^ 32 - 1) = min (_ + (times.length + 1)) _
    omega
  · intro n hn hnew
    rw [List.length_append, List.length_singleton] at hn hnew
    show (h'.slots.set h'.writeIndex.toNat time)[(h.writeIndex.toNat + n) % 16] = _
    rw [Vector.getElem_set]
    rcases Nat.lt_or_ge n times.length with hlt | hge
    · -- Fewer than 16 records lie between the two, so they have different slots.
      have hne : h'.writeIndex.toNat ≠ (h.writeIndex.toNat + n) % 16 := by
        rw [hrec.writeIndex]
        omega
      rw [if_neg hne, List.getElem_append_left hlt]
      exact hrec.newest n hlt (by omega)
    · -- The new record itself.
      have heq : n = times.length := by omega
      subst heq
      rw [if_pos hrec.writeIndex, List.getElem_concat_length rfl]
  · intro i hi hother
    rw [List.length_append, List.length_singleton] at hother
    show (h'.slots.set h'.writeIndex.toNat time)[i] = _
    rw [Vector.getElem_set, if_neg]
    · exact hrec.kept i hi fun n hn => hother n (by omega)
    · rw [hrec.writeIndex]
      exact hother times.length (by omega)

/-- A history that took up some times takes up any others behind them. -/
theorem Recorded.recordAll? {h h' : FaultHistory} {earlier : List UInt32}
    (hrec : Recorded h earlier h') (later : List UInt32) :
    ∃ h'', h'.recordAll? later = some h'' ∧ Recorded h (earlier ++ later) h'' := by
  induction later generalizing earlier h' with
  | nil =>
    rw [List.append_nil]
    exact ⟨h', rfl, hrec⟩
  | cons time later ih =>
    obtain ⟨h₁, hrecord, hrec₁⟩ := hrec.concat time
    obtain ⟨h'', hall, hrec''⟩ := ih hrec₁
    refine ⟨h'', ?_, ?_⟩
    · rw [FaultHistory.recordAll?, List.foldlM_cons, hrecord]
      exact hall
    · rw [List.append_assoc] at hrec''
      exact hrec''

/-- **Records around the ring.** A history whose write index lies in the ring takes
any number of times. -/
theorem recordAll?_eq_some {h : FaultHistory} (hw : h.writeIndex.toNat < 16)
    (times : List UInt32) : ∃ h', h.recordAll? times = some h' ∧ Recorded h times h' :=
  (Recorded.nil hw).recordAll? times

/-- The slot of the latest time, wherever the write index is: the width of a word is a whole
number of rounds, so that it does not matter whether the sum wraps around. -/
theorem latestIndex_eq (h : FaultHistory) :
    h.latestIndex = Fin.ofNat 16 (h.writeIndex.toNat + 15) := by
  apply Fin.ext
  show ((h.writeIndex + 16 - 1) % 16).toNat = (h.writeIndex.toNat + 15) % 16
  rw [UInt64.toNat_mod, UInt64.toNat_sub, UInt64.toNat_add]
  show (2 ^ 64 - 1 + (h.writeIndex.toNat + 16) % 2 ^ 64) % 2 ^ 64 % 16 = _
  omega

/-- Below the last 16 words the sum does not wrap around: the slot is found alike where sums
are checked. -/
theorem latestIndex_of_lt {h : FaultHistory} (hw : h.writeIndex.toNat + 16 < 2 ^ 64) :
    (h.writeIndex + 16).toNat = h.writeIndex.toNat + 16
      ∧ (h.writeIndex + 16 - 1).toNat = h.writeIndex.toNat + 16 - 1
      ∧ (h.latestIndex : Nat) = (h.writeIndex.toNat + 16 - 1) % 16 := by
  have hsum : (h.writeIndex + 16).toNat = h.writeIndex.toNat + 16 := by
    rw [UInt64.toNat_add]
    exact Nat.mod_eq_of_lt hw
  refine ⟨hsum, ?_, ?_⟩
  · rw [UInt64.toNat_sub, hsum]
    show (2 ^ 64 - 1 + (h.writeIndex.toNat + 16)) % 2 ^ 64 = _
    omega
  · rw [latestIndex_eq]
    rfl

/-- The latest time stands in front of the write index, wherever that is. -/
theorem latest?_eq_some {h : FaultHistory} (hpos : 0 < h.recorded) :
    h.latest? = some (h.slots.get (.ofNat 16 (h.writeIndex.toNat + 15))) := by
  have hempty : h.isEmpty = false := decide_eq_false (UInt32.pos_iff_ne_zero.mp hpos)
  rw [latest?, hempty, if_neg Bool.false_ne_true]
  exact congrArg (fun i => some (h.slots.get i)) h.latestIndex_eq

namespace Recorded

variable {h h' : FaultHistory} {times : List UInt32}

/-- A slot holds the last time that was sent to it. -/
theorem slot_eq_last (hrec : Recorded h times h') {i : Fin 16} {n : Nat} (hn : n < times.length)
    (hi : (h.writeIndex.toNat + n) % 16 = i)
    (hlast : ∀ k, n < k → k < times.length → (h.writeIndex.toNat + k) % 16 ≠ i) :
    h'.slots.get i = times[n] := by
  -- The time sent 16 places later goes to the same slot.
  have hnewest : times.length ≤ n + 16 := by
    apply Nat.not_lt.mp
    intro hlater
    exact hlast (n + 16) (by omega) hlater (by omega)
  rw [← hrec.newest n hn hnewest]
  exact getElem_congr_idx hi.symm

theorem recorded_pos (hrec : Recorded h times h') (htimes : times ≠ []) : 0 < h'.recorded := by
  have hlength := List.length_pos_iff.mpr htimes
  rw [UInt32.lt_iff_toNat_lt, hrec.recorded]
  show 0 < _
  omega

/-- The latest time is the last one recorded. -/
theorem latest?_eq_getLast? (hrec : Recorded h times h') (htimes : times ≠ []) :
    h'.latest? = times.getLast? := by
  have hlength := List.length_pos_iff.mpr htimes
  rw [latest?_eq_some (hrec.recorded_pos htimes),
    hrec.slot_eq_last (n := times.length - 1) (by omega) ?_ ?_]
  · rw [List.getLast?_eq_getElem?, List.getElem?_eq_getElem (by omega)]
  · show _ = (h'.writeIndex.toNat + 15) % 16
    rw [hrec.writeIndex]
    omega
  · intro k hk hk'
    omega

end Recorded

/-! ## Histories that began empty -/

namespace Recorded

variable {times : List UInt32} {h : FaultHistory} (hrec : Recorded .empty times h)

include hrec

theorem writeIndex_eq : h.writeIndex.toNat = times.length % 16 := by
  rw [hrec.writeIndex]
  show (0 + times.length) % 16 = _
  rw [Nat.zero_add]

theorem recorded_eq : h.recorded.toNat = min times.length (2 ^ 32 - 1) := by
  rw [hrec.recorded]
  show min (0 + times.length) _ = _
  rw [Nat.zero_add]

theorem size_eq : h.size = min times.length 16 := by
  rw [size, hrec.recorded_eq]
  omega

theorem isEmpty_iff : h.isEmpty = true ↔ times = [] := by
  have hzero : h.recorded = 0 ↔ h.recorded.toNat = 0 := UInt32.toNat_inj.symm
  rw [isEmpty, decide_eq_true_iff, hzero, hrec.recorded_eq, ← List.length_eq_zero_iff]
  omega

/-- Reading `k` slots back from the write index finds the time recorded `k` before
the last, if that is not too long ago. -/
theorem slot_eq {i : Fin 16} {k : Nat} (hk : k < times.length) (hlast : k < 16)
    (hi : i.val = (h.writeIndex.toNat + 15 - k) % 16) :
    h.slots[i] = times[times.length - 1 - k] := by
  have hslot : i.val = (FaultHistory.empty.writeIndex.toNat + (times.length - 1 - k)) % 16 := by
    rw [hi, hrec.writeIndex_eq]
    show _ = (0 + (times.length - 1 - k)) % 16
    omega
  rw [Fin.getElem_fin, getElem_congr_idx hslot]
  exact hrec.newest _ (by omega) (by omega)

/-- The times on record are the last ones, the newest first. -/
theorem recent_eq : h.recent = times.reverse.take h.size := by
  have hsize := hrec.size_eq
  apply List.ext_getElem
  · simp only [recent, slotsInUse, List.length_map, List.length_range, List.length_take,
      List.length_reverse]
    omega
  · intro k hk _
    have hin : k < h.size := by simpa [recent, slotsInUse] using hk
    have hslot := hrec.slot_eq (i := Fin.ofNat 16 (h.writeIndex.toNat + 15 - k)) (k := k)
      (by omega) (by omega) rfl
    simp only [recent, slotsInUse, List.getElem_map, List.getElem_range, List.getElem_take,
      List.getElem_reverse]
    exact hslot

/-- A slot that is not in use was never written to. -/
theorem slot_eq_zero {i : Fin 16} (hi : i ∉ h.slotsInUse) : h.slots[i] = 0 := by
  have hsize := hrec.size_eq
  have hnever : ∀ n < times.length, (FaultHistory.empty.writeIndex.toNat + n) % 16 ≠ i.val := by
    intro n hn heq
    have hn' : n % 16 = i.val := by rw [← heq]; exact congrArg (· % 16) (Nat.zero_add n).symm
    apply hi
    -- Counted back from the last record, and by whole rounds less, `n` is in use.
    refine List.mem_map.mpr ⟨(times.length - 1 - n) % 16, List.mem_range.mpr (by omega), ?_⟩
    apply Fin.ext
    show (h.writeIndex.toNat + 15 - (times.length - 1 - n) % 16) % 16 = i.val
    rw [hrec.writeIndex_eq]
    omega
  rw [Fin.getElem_fin, hrec.kept i.val i.isLt hnever]
  exact Vector.getElem_replicate ..

/-- The latest time is the last one recorded, if there is any. -/
theorem latest?_eq : h.latest? = times.getLast? := by
  cases hempty : h.isEmpty with
  | true =>
    rw [hrec.isEmpty_iff.mp hempty, latest?, hempty]
    rfl
  | false =>
    refine hrec.latest?_eq_getLast? fun hnil => ?_
    rw [hrec.isEmpty_iff.mpr hnil] at hempty
    exact Bool.noConfusion hempty

end Recorded

end FaultHistory

end BoardHealth
