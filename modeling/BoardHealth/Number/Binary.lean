/-!
# Binary floating-point numbers

A number of a binary format is not-a-number, or a sign and a magnitude. A
magnitude is named by its *rank*, its place among the format's non-negative
numbers in increasing order: zero has rank 0, the smallest positive number rank
1, and infinity the last rank. So comparing two numbers compares two signed
ranks, and the even one of two neighbours is the one of even rank.

Every finite number is a whole multiple of the smallest positive one, the
format's *unit*. Arithmetic is exact arithmetic on units followed by
`Magnitude.nearest`, the one place where a result is rounded.
-/

namespace BoardHealth

/-- Powers of natural numbers are those of the core library, whatever else is
imported. -/
instance (priority := high) powNat : Pow Nat Nat := instPowNat

/-- A binary format: the number of stored fraction bits, and the exponent field
that marks infinity. -/
structure Format where
  fractionBits : Nat
  topExponent : Nat

namespace Format

/-- Single precision: 32 bits, 23 of them the fraction. -/
def single : Format := ⟨23, 255⟩

/-- Double precision: 64 bits, 52 of them the fraction. -/
def double : Format := ⟨52, 2047⟩

/-- The rank of infinity, one past the largest finite number. -/
def infinityRank (F : Format) : Nat := F.topExponent * 2 ^ F.fractionBits

/-- The unit is `2 ^ -unitBits`: the smallest positive number. -/
def unitBits (F : Format) : Nat := F.topExponent / 2 - 1 + F.fractionBits

/-- The number at a rank, counted in units. Each run of `2 ^ fractionBits` ranks
is evenly spaced, and from the second run on each is spaced twice as wide as the
one before. At the rank of infinity this is the number that the next wider
exponent would stand for. -/
def units (F : Format) (rank : Nat) : Nat :=
  let run := rank / 2 ^ F.fractionBits
  let step := rank % 2 ^ F.fractionBits
  if run = 0 then step else (2 ^ F.fractionBits + step) * 2 ^ (run - 1)

/-- The rank of the largest number that is at most `n` units. -/
def rankBelow (F : Format) (n : Nat) : Nat :=
  let run := n.log2 - F.fractionBits
  n / 2 ^ run + run * 2 ^ F.fractionBits

end Format

/-- A non-negative number of a format, infinity included, by its rank. -/
structure Magnitude (F : Format) where
  rank : Nat
  rank_le : rank ≤ F.infinityRank
deriving DecidableEq

namespace Magnitude

variable {F : Format}

/-- The magnitude at a rank; ranks past infinity stand for infinity. -/
def ofRank (rank : Nat) : Magnitude F :=
  ⟨min rank F.infinityRank, Nat.min_le_right ..⟩

/-- Infinity. -/
def infinity : Magnitude F := ofRank F.infinityRank

/-- The magnitude in units; meaningful below infinity. -/
def units (m : Magnitude F) : Nat := F.units m.rank

/-- Whether the magnitude is a number rather than infinity. -/
def isFinite (m : Magnitude F) : Bool := m.rank < F.infinityRank

/-- The magnitude nearest to `numerator / denominator`. Halfway between two
neighbours the one of even rank is taken, and from halfway past the largest
number on it is infinity. -/
def nearest (numerator denominator : Nat) : Magnitude F :=
  let scaled := numerator * 2 ^ F.unitBits
  let below := F.rankBelow (scaled / denominator)
  let halves := (F.units below + F.units (below + 1)) * denominator
  ofRank <|
    if 2 * scaled < halves then below
    else if halves < 2 * scaled then below + 1
    else below + below % 2

/-- The rounded product of two finite magnitudes. -/
def mul (a b : Magnitude F) : Magnitude F :=
  nearest (a.units * b.units) (2 ^ (2 * F.unitBits))

/-- The rounded quotient of two finite magnitudes. -/
def div (a b : Magnitude F) : Magnitude F :=
  nearest a.units b.units

end Magnitude

/-- A number of a binary format: not-a-number, or a sign and a magnitude. Zero
and infinity exist with both signs. -/
inductive Binary (F : Format) where
  | nan
  | signed (negative : Bool) (magnitude : Magnitude F)
deriving DecidableEq

/-- Single-precision numbers. -/
abbrev Single := Binary .single

/-- Double-precision numbers. -/
abbrev Double := Binary .double

namespace Binary

variable {F : Format}

/-- The number nearest to a signed fraction. -/
def ofRatio (negative : Bool) (numerator denominator : Nat) : Binary F :=
  .signed negative (.nearest numerator denominator)

/-- The number nearest to a whole number. -/
def ofInt (n : Int) : Binary F := ofRatio (n < 0) n.natAbs 1

instance (n : Nat) : OfNat (Binary F) n := ⟨ofRatio false n 1⟩

instance : OfScientific (Binary F) where
  ofScientific mantissa negativeExponent exponent :=
    if negativeExponent then ofRatio false mantissa (10 ^ exponent)
    else ofRatio false (mantissa * 10 ^ exponent) 1

/-- Positive infinity. -/
def infinity : Binary F := .signed false .infinity

/-- Whether the number is neither infinite nor not-a-number. -/
def isFinite : Binary F → Bool
  | nan => false
  | signed _ m => m.isFinite

/-- The place of a number in increasing order, both zeros at 0. -/
def place (negative : Bool) (m : Magnitude F) : Int :=
  if negative then -(m.rank : Int) else m.rank

/-- Numeric equality: the zeros are equal, not-a-number equals nothing. -/
def equals : Binary F → Binary F → Bool
  | signed a m, signed b n => place a m == place b n
  | _, _ => false

/-- Numeric order: not-a-number is neither below nor above anything. -/
def less : Binary F → Binary F → Bool
  | signed a m, signed b n => place a m < place b n
  | _, _ => false

instance : LT (Binary F) := ⟨fun x y => x.less y = true⟩

instance : LE (Binary F) := ⟨fun x y => x.less y = true ∨ x.equals y = true⟩

instance (x y : Binary F) : Decidable (x < y) :=
  inferInstanceAs (Decidable (x.less y = true))

instance (x y : Binary F) : Decidable (x ≤ y) :=
  inferInstanceAs (Decidable (x.less y = true ∨ x.equals y = true))

/-- The number without its sign. -/
def abs : Binary F → Binary F
  | nan => nan
  | signed _ m => signed false m

/-- A finite number in units, with its sign. -/
def signedUnits (negative : Bool) (m : Magnitude F) : Int :=
  if negative then -(m.units : Int) else m.units

/-- The rounded difference. Equal numbers differ by positive zero, except that
negative zero less positive zero is negative zero; infinities of one sign have no
difference. -/
def sub : Binary F → Binary F → Binary F
  | signed a m, signed b n =>
    if m.isFinite && n.isFinite then
      let units := signedUnits a m - signedUnits b n
      if units = 0 then signed (a && m.rank == 0 && !b) (.ofRank 0)
      else ofRatio (units < 0) units.natAbs (2 ^ F.unitBits)
    else if m.isFinite then signed (!b) n
    else if n.isFinite || a != b then signed a m
    else nan
  | _, _ => nan

instance : Sub (Binary F) := ⟨sub⟩

/-- The number held between two bounds. -/
def clamp (x low high : Binary F) : Binary F :=
  if x < low then low else if high < x then high else x

/-- The number of another format nearest to this one. -/
def convert {G : Format} : Binary F → Binary G
  | nan => nan
  | signed negative m =>
    if m.isFinite then ofRatio negative m.units (2 ^ F.unitBits)
    else signed negative .infinity

end Binary

end BoardHealth
