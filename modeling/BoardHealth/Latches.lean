import BoardHealth.Overrides

/-!
# Latches

Each protection engages once: the first time it is asked for on a board that has
the defect. Its latch is then set, and neither another request nor another profile
changes the published values until all latches are released.
-/

namespace BoardHealth

/-- Which protections have engaged, by the index of their class, and the values
they have published. -/
structure Latches where
  applied : Vector Bool 6 := Vector.replicate 6 false
  overrides : Overrides := .empty
deriving DecidableEq

namespace Latches

/-- Nothing has engaged. -/
def released : Latches := {}

/-- Whether the latch of a class is set. -/
def isApplied (l : Latches) (d : Defect) : Bool := l.applied[d.index]

/-- The number of latches that are set. -/
def appliedCount (l : Latches) : Nat := l.applied.toList.countP id

/-- The protection that engages if it is asked for now. -/
def engagement? (l : Latches) (d : Defect) (p : Profile) : Option Protection :=
  if d.isActive p && !l.isApplied d then some (d.protection p) else none

/-- The latches with a protection engaged. -/
def engage (l : Latches) (protection : Protection) : Latches where
  applied := l.applied.set protection.defect.index true
  overrides := l.overrides.publish protection

/-- Asks for the protection against a class of defect: whether it engages, and the
latches afterwards. -/
def apply (l : Latches) (d : Defect) (p : Profile) : Bool × Latches :=
  match l.engagement? d p with
  | none => (false, l)
  | some protection => (true, l.engage protection)

/-- Asks for protections one after the other: those that engage, and the latches
afterwards. -/
def applyEach (l : Latches) (p : Profile) : List Defect → List Protection × Latches
  | [] => ([], l)
  | d :: ds =>
    let (engaged, after) := (l.apply d p).2.applyEach p ds
    ((l.engagement? d p).toList ++ engaged, after)

/-- Asks for all protections. -/
def applyAll (l : Latches) (p : Profile) : List Protection × Latches :=
  l.applyEach p Defect.all

/-! ## JSON form -/

open Json (Field Codec Row)

/-- The fields of the latches. -/
abbrev fields : List Field := [
  .required "applied" (.vector .boolean 6),
  .required "overrides" Overrides.codec]

/-- The latches as the values of their fields. -/
def toRow (l : Latches) : Row fields := (l.applied, l.overrides, ())

/-- The latches with the given values. -/
def ofRow : Row fields → Latches
  | (applied, overrides, ()) => { applied, overrides }

/-- The JSON form of the latches. -/
def codec : Codec Latches := .record "SafetyLatchController" fields toRow ofRow

end Latches

end BoardHealth
