import BoardHealth.Number.Binary

/-!
# Decimal text of binary numbers

A number is written with the fewest digits that still read back to it: the
coarsest decimal grid with a point that rounds to the number is taken, and on
that grid the point nearest to it. What remains to choose is up to a
`DecimalLayout`: where an exact tie goes, and which numbers are written with an
exponent.
-/

namespace BoardHealth

/-- The decimal number `coefficient * 10 ^ exponent`. -/
structure Decimal where
  coefficient : Nat
  exponent : Int
deriving DecidableEq

/-- Where a number goes that lies halfway between two points of a decimal grid. -/
inductive Tie where
  | toEven
  | up
deriving DecidableEq

namespace Tie

/-- The point taken halfway between `below` and `below + 1`. -/
def resolve (tie : Tie) (below : Nat) : Nat :=
  match tie with
  | toEven => below + below % 2
  | up => below + 1

end Tie

namespace Magnitude

variable {F : Format}

/-- Every finite magnitude is a whole multiple of `10 ^ -unitBits`, since
`2 ^ -k = 5 ^ k * 10 ^ -k`. This is twice that multiple for a number of units:
twice, so that the midpoints between neighbours are whole as well. -/
def doubledDecimal (F : Format) (units : Nat) : Nat :=
  2 * units * 5 ^ F.unitBits

/-- Whether a point of the doubled decimal scale rounds to this magnitude. The
two midpoints around it do exactly if its rank is even. -/
def isRoundedFrom (m : Magnitude F) (point : Nat) : Bool :=
  let scale := 5 ^ F.unitBits
  let low := (F.units (m.rank - 1) + F.units m.rank) * scale
  let high := (F.units m.rank + F.units (m.rank + 1)) * scale
  if m.rank % 2 = 0 then low ≤ point && point ≤ high
  else low < point && point < high

/-- Search the grids of spacing `10 ^ step`, from coarse to fine, for the point
next to the magnitude that rounds to it; with two of them, the nearer. On the
finest grid the magnitude is itself a point. -/
def searchGrid (tie : Tie) (m : Magnitude F) : (step : Nat) → Nat × Nat
  | 0 => (m.units * 5 ^ F.unitBits, 0)
  | step + 1 =>
    let value := doubledDecimal F m.units
    let spacing := 2 * 10 ^ (step + 1)
    let below := value / spacing
    let above := below + 1
    match m.isRoundedFrom (below * spacing), m.isRoundedFrom (above * spacing) with
    | false, false => searchGrid tie m step
    | true, false => (below, step + 1)
    | false, true => (above, step + 1)
    | true, true =>
      let gone := value - below * spacing
      (if 2 * gone < spacing then below
        else if spacing < 2 * gone then above
        else tie.resolve below, step + 1)

/-- The shortest decimal that rounds to a finite magnitude. The search starts
at a grid that is coarser than the magnitude. -/
def shortest (tie : Tie) (m : Magnitude F) : Decimal :=
  if m.rank = 0 then ⟨0, 0⟩
  else
    let (coefficient, step) :=
      searchGrid tie m ((m.units * 5 ^ F.unitBits).log2 / 3 + 1)
    ⟨coefficient, (step : Int) - F.unitBits⟩

end Magnitude

/-- How decimals are laid out as text. -/
structure DecimalLayout where
  /-- Where an exact tie between two shortest decimals goes. -/
  tie : Tie
  /-- Whether numbers whose first digit stands for this power of ten are written
  without an exponent. -/
  positional : Int → Bool
  /-- Whether whole numbers written without an exponent end in `.0`. -/
  marksWhole : Bool

namespace DecimalLayout

/-- Every number in full, and whole numbers as whole numbers. -/
def plain : DecimalLayout := ⟨.up, fun _ => true, false⟩

/-- The digits with the decimal point in its place. -/
def writePositional (layout : DecimalLayout) (digits : List Char) (exponent : Int) : List Char :=
  let leading := digits.length + exponent
  if 0 ≤ exponent then
    digits ++ List.replicate exponent.toNat '0' ++ (if layout.marksWhole then ['.', '0'] else [])
  else if 0 < leading then
    digits.take leading.toNat ++ '.' :: digits.drop leading.toNat
  else
    ['0', '.'] ++ List.replicate (-leading).toNat '0' ++ digits

/-- One digit, the others after a point, and the exponent with its sign. -/
def writeScientific (digits : List Char) (first : Int) : List Char :=
  let mantissa := match digits with
    | digit :: others@(_ :: _) => digit :: '.' :: others
    | digits => digits
  mantissa ++ 'e' :: (if first < 0 then '-' else '+') :: Nat.toDigits 10 first.natAbs

/-- The text of a decimal. -/
def write (layout : DecimalLayout) (d : Decimal) : List Char :=
  let digits := Nat.toDigits 10 d.coefficient
  let first := digits.length - 1 + d.exponent
  if layout.positional first then layout.writePositional digits d.exponent
  else writeScientific digits first

end DecimalLayout

namespace Binary

variable {F : Format}

/-- The text of a number: its sign and its shortest decimal, or `NaN`, `inf`,
`-inf`. -/
def text (layout : DecimalLayout) : Binary F → List Char
  | nan => ['N', 'a', 'N']
  | signed negative m =>
    let magnitude :=
      if m.isFinite then layout.write (m.shortest layout.tie) else ['i', 'n', 'f']
    if negative then '-' :: magnitude else magnitude

/-- The number as it stands in messages: written in full. -/
def plainText (x : Binary F) : String := String.ofList (x.text .plain)

end Binary

end BoardHealth
