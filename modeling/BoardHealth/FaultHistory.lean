import BoardHealth.Json.Record

/-!
# Fault history

The times of the last 16 rejections of a board, in microseconds, kept in a ring:
once it is full, each record takes the place of the oldest. A history that was
read from a document may have a write index outside the ring; nothing can be
recorded then until it is reset.
-/

namespace BoardHealth

/-- A running count that stays at its largest value. -/
def addSaturating (a b : UInt32) : UInt32 := .ofNat (min (a.toNat + b.toNat) (UInt32.size - 1))

theorem toNat_addSaturating (a b : UInt32) :
    (addSaturating a b).toNat = min (a.toNat + b.toNat) (UInt32.size - 1) :=
  UInt32.toNat_ofNat_of_lt' (Nat.lt_of_le_of_lt (Nat.min_le_right ..) (by decide))

/-- A ring of 16 times. -/
structure FaultHistory where
  slots : Vector UInt32 16 := Vector.replicate 16 0
  /-- The slot that the next record goes to. -/
  writeIndex : UInt64 := 0
  /-- The number of records since the last reset, those written over included. -/
  recorded : UInt32 := 0
deriving DecidableEq

namespace FaultHistory

/-- Without records. -/
def empty : FaultHistory := {}

/-- The history with a time recorded, unless the write index is outside the ring. -/
def record? (h : FaultHistory) (time : UInt32) : Option FaultHistory :=
  if inRing : h.writeIndex.toNat < 16 then
    some {
      slots := h.slots.set h.writeIndex.toNat time
      writeIndex := (h.writeIndex + 1) % 16
      recorded := addSaturating h.recorded 1 }
  else none

/-- The number of slots in use. -/
def size (h : FaultHistory) : Nat := min h.recorded.toNat 16

/-- Whether nothing was recorded. -/
def isEmpty (h : FaultHistory) : Bool := h.recorded = 0

/-- The slot in front of the write index, around the ring. The sum is one of words and
wraps around for the last 16 of them, which a history has as write index only if it was
read so; a build that checks its sums stops there instead. -/
def latestIndex (h : FaultHistory) : Fin 16 :=
  ⟨((h.writeIndex + 16 - 1) % 16).toNat, by
    rw [UInt64.toNat_mod]; exact Nat.mod_lt _ (by decide)⟩

/-- The time recorded last. -/
def latest? (h : FaultHistory) : Option UInt32 :=
  if h.isEmpty then none else some h.slots[h.latestIndex]

/-! ## JSON form -/

open Json (Field Codec Row)

/-- The fields of a history. -/
abbrev fields : List Field := [
  .required "slots" (.vector .word32 16),
  .required "write_index" .word64,
  .required "recorded" .word32]

/-- A history as the values of its fields. -/
def toRow (h : FaultHistory) : Row fields := (h.slots, h.writeIndex, h.recorded, ())

/-- The history with the given values. -/
def ofRow : Row fields → FaultHistory
  | (slots, writeIndex, recorded, ()) => { slots, writeIndex, recorded }

/-- The JSON form of a history. -/
def codec : Codec FaultHistory := .record "FaultHistoryLog" fields toRow ofRow

end FaultHistory

end BoardHealth
