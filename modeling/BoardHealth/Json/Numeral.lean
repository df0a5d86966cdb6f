import BoardHealth.Json.Reader

/-!
# JSON numbers

A numeral is read as it is written, and then valued. Whole numbers that fit 64
bits are integers. Any other numeral is a fraction, valued in double precision:
its first digits as one whole number, as many as fit 64 bits, times or over a
power of ten. Each step is rounded to nearest on its own, so the value can differ
from the written decimal in the last place.
-/

namespace BoardHealth.Json

/-- A number as it is written. -/
structure Numeral where
  negative : Bool
  whole : List Char
  /-- The digits behind the point; none if there is no point. -/
  fraction : List Char
  /-- Whether the exponent is negative, and its digits. -/
  exponent : Option (Bool × List Char)
deriving DecidableEq

/-- What a numeral stands for. -/
inductive Number where
  | integer (value : Int)
  | real (value : Double)
deriving DecidableEq

/-- The value of a decimal digit. -/
def digitValue (c : Char) : Nat := c.toNat - '0'.toNat

/-- The number that a row of digits stands for. -/
def digitsValue (digits : List Char) : Nat :=
  digits.foldl (fun n c => n * 10 + digitValue c) 0

/-- Appends digits to a number for as long as it stays below `2 ^ 64`; the number
and the digits left over. -/
def absorb (kept : Nat) : List Char → Nat × List Char
  | [] => (kept, [])
  | d :: ds =>
    let longer := kept * 10 + digitValue d
    if longer < UInt64.size then absorb longer ds else (kept, d :: ds)

/-- A magnitude times a power of ten; none if it becomes too large. The powers
from `10 ^ -308` to `10 ^ 308` are taken in one step, smaller ones in two, and
with the ones below `10 ^ -616` nothing is left of a number below `2 ^ 64`. -/
def scaleByTen (m : Magnitude .double) (exponent : Int) : Option (Magnitude .double) :=
  let power (n : Nat) : Magnitude .double := .nearest (10 ^ n) 1
  if 308 < exponent then
    if m.rank = 0 then some m else none
  else if 0 ≤ exponent then
    let product := m.mul (power exponent.toNat)
    if product.isFinite then some product else none
  else if -308 ≤ exponent then some (m.div (power (-exponent).toNat))
  else if -616 ≤ exponent then
    some ((m.div (power 308)).div (power (-exponent - 308).toNat))
  else some (.ofRank 0)

namespace Numeral

/-- The power of ten that the exponent stands for. -/
def exponentValue (n : Numeral) : Int :=
  match n.exponent with
  | none => 0
  | some (negative, digits) => if negative then -(digitsValue digits : Int) else digitsValue digits

/-- The numeral as a fraction: the digits that were kept, scaled by the written
exponent, by the whole digits left over and by the fraction digits kept. -/
def real? (n : Numeral) : Option Double :=
  let (wholeKept, wholeLeft) := absorb 0 n.whole
  let (kept, fractionLeft) := absorb wholeKept n.fraction
  let fractionKept := n.fraction.length - fractionLeft.length
  let exponent := (wholeLeft.length : Int) - fractionKept + n.exponentValue
  (scaleByTen (.nearest kept 1) exponent).map (.signed n.negative)

/-- The numeral as an integer, if it is written as one and fits: from `-2 ^ 63`
to `2 ^ 64 - 1`, negative zero excepted. -/
def integer? (n : Numeral) : Option Int :=
  if n.fraction = [] ∧ n.exponent = none then
    let value := digitsValue n.whole
    if n.negative then
      if 0 < value ∧ value ≤ UInt64.size / 2 then some (-(value : Int)) else none
    else if value < UInt64.size then some value else none
  else none

/-- What the numeral stands for, unless it is too large for double precision. -/
def value (n : Numeral) : Except DecodeError Number :=
  match n.integer? with
  | some i => .ok (.integer i)
  | none =>
    match n.real? with
    | some x => .ok (.real x)
    | none => .error .numberTooLarge

end Numeral

namespace Reader

/-- Takes the next character off if it passes the test. -/
def takeIf (p : Char → Bool) : Reader (Option Char) := do
  match ← peek with
  | some c =>
    if p c then
      advance
      pure (some c)
    else pure none
  | none => pure none

/-- One digit or more. `atEnd` is the cause given if the text ends instead. -/
def digits (atEnd : DecodeError) : Reader (List Char) := do
  let found ← takeWhile Char.isDigit
  if found.isEmpty then
    match ← peek with
    | none => fail atEnd
    | some _ => fail .badNumber
  else pure found

/-- The whole part of a numeral: no zero stands in front of another digit. -/
def wholeDigits (atEnd : DecodeError) : Reader (List Char) := do
  let found ← digits atEnd
  match found with
  | '0' :: _ :: _ => fail .badNumber
  | _ => pure found

/-- The point and the digits behind it, if there is a point. -/
def fractionDigits (atEnd : DecodeError) : Reader (List Char) := do
  match ← takeIf (· == '.') with
  | none => pure []
  | some _ => digits atEnd

/-- The exponent, if there is one. -/
def exponentDigits (atEnd : DecodeError) : Reader (Option (Bool × List Char)) := do
  match ← takeIf (fun c => c == 'e' || c == 'E') with
  | none => pure none
  | some _ =>
    let sign ← takeIf (fun c => c == '+' || c == '-')
    let found ← digits atEnd
    pure (some (sign == some '-', found))

/-- A numeral. `atEnd` is the cause given where the text ends in place of a
digit. -/
def numeral (atEnd : DecodeError) : Reader Numeral := do
  let sign ← takeIf (· == '-')
  let whole ← wholeDigits atEnd
  let fraction ← fractionDigits atEnd
  let exponent ← exponentDigits atEnd
  pure ⟨sign.isSome, whole, fraction, exponent⟩

/-- A number. -/
def number : Reader Number := do
  let n ← numeral .endInValue
  ofExcept n.value

/-- Passes over a numeral, of any size. -/
def passNumeral : Reader Unit := do
  let _ ← numeral .badNumber

end Reader

/-- Whether a character begins a numeral. -/
def beginsNumeral (c : Char) : Bool := c == '-' || c.isDigit

/-- The single-precision number nearest to a number. -/
def Number.toSingle : Number → Single
  | integer n => .ofInt n
  | real x => x.convert

/-- A number as what was found. -/
def Number.found : Number → Found
  | integer n => .integer n
  | real x => .real x

end BoardHealth.Json
