import BoardHealth.Json.Skip

/-!
# The grammar of JSON

What a well-formed text is, said without a reader: blanks, numerals, strings and
values. A value may have blanks between its tokens and nest to any depth, and its
strings may hold any numeric escape. What a string spells (`Spells`) is said apart
from that, since surrogates without their partners spell nothing.

The grammar is the second side of every law about reading. A reader is measured by
what it makes of a text of the grammar, wherever that text stands (`Reader.Takes`).
-/

namespace BoardHealth.Json

/-- Any number of blanks. -/
def IsBlanks (text : List Char) : Prop := ∀ c ∈ text, isBlank c = true

/-- One digit or more. -/
def IsDigits (text : List Char) : Prop := text ≠ [] ∧ ∀ c ∈ text, c.isDigit = true

/-! ## Numerals -/

/-- The text of an exponent. -/
inductive IsExponent : Option (Bool × List Char) → List Char → Prop
  | absent : IsExponent none []
  | present {mark : Char} {sign digits : List Char} (hmark : mark = 'e' ∨ mark = 'E')
      (hsign : sign = [] ∨ sign = ['+'] ∨ sign = ['-']) (hdigits : IsDigits digits) :
      IsExponent (some (sign == ['-'], digits)) (mark :: (sign ++ digits))

/-- The text of a numeral. No zero stands in front of another digit, and digits stand
on both sides of a point. -/
inductive IsNumeral : Numeral → List Char → Prop
  | intro {n : Numeral} {exponent : List Char} (hwhole : IsDigits n.whole)
      (hzero : n.whole.head? = some '0' → n.whole = ['0'])
      (hfraction : ∀ c ∈ n.fraction, c.isDigit = true)
      (hexponent : IsExponent n.exponent exponent) :
      IsNumeral n ((if n.negative then ['-'] else []) ++ (n.whole ++
        ((if n.fraction = [] then [] else '.' :: n.fraction) ++ exponent)))

/-! ## Strings -/

/-- A character that stands for itself inside a string. -/
def IsPlain (c : Char) : Prop := c ≠ '"' ∧ c ≠ '\\' ∧ 0x20 ≤ c.toNat

/-- What stands between the quotation marks of a string. -/
inductive IsStringBody : List Char → Prop
  | nil : IsStringBody []
  | plain {c : Char} {body : List Char} (hc : IsPlain c) (h : IsStringBody body) :
      IsStringBody (c :: body)
  | short {c meant : Char} {body : List Char} (hc : Reader.simpleEscape? c = some meant)
      (h : IsStringBody body) : IsStringBody ('\\' :: c :: body)
  | unit {a b c d : Char} {unit : Nat} {body : List Char}
      (hunit : hexNumber? [a, b, c, d] = some unit) (h : IsStringBody body) :
      IsStringBody ('\\' :: 'u' :: a :: b :: c :: d :: body)

/-- What stands between the quotation marks of a string with the given content. A
character outside the basic plane may be written as a pair of surrogates; without its
partner a surrogate spells nothing. -/
inductive Spells : List Char → List Char → Prop
  | nil : Spells [] []
  | plain {c : Char} {content body : List Char} (hc : IsPlain c) (h : Spells content body) :
      Spells (c :: content) (c :: body)
  | short {c meant : Char} {content body : List Char} (hc : Reader.simpleEscape? c = some meant)
      (h : Spells content body) : Spells (meant :: content) ('\\' :: c :: body)
  | unit {a b c d : Char} {unit : Nat} {content body : List Char}
      (hunit : hexNumber? [a, b, c, d] = some unit) (hlow : isLowSurrogate unit = false)
      (hhigh : isHighSurrogate unit = false) (h : Spells content body) :
      Spells (Char.ofNat unit :: content) ('\\' :: 'u' :: a :: b :: c :: d :: body)
  | pair {a b c d a' b' c' d' : Char} {high low : Nat} {content body : List Char}
      (hunit : hexNumber? [a, b, c, d] = some high) (hhigh : isHighSurrogate high = true)
      (hunit' : hexNumber? [a', b', c', d'] = some low) (hlow : isLowSurrogate low = true)
      (h : Spells content body) :
      Spells (Char.ofNat ((high - 0xD800) * 0x400 + (low - 0xDC00) + 0x10000) :: content)
        ('\\' :: 'u' :: a :: b :: c :: d :: '\\' :: 'u' :: a' :: b' :: c' :: d' :: body)

theorem Spells.isStringBody {content body : List Char} (h : Spells content body) :
    IsStringBody body := by
  induction h with
  | nil => exact .nil
  | plain hc _ ih => exact .plain hc ih
  | short hc _ ih => exact .short hc ih
  | unit hunit _ _ _ ih => exact .unit hunit ih
  | pair hunit _ hunit' _ _ ih => exact .unit hunit (.unit hunit' ih)

/-! ## Values -/

/-- A value without brackets. -/
inductive IsScalar : List Char → Prop
  | null : IsScalar ['n', 'u', 'l', 'l']
  | yes : IsScalar ['t', 'r', 'u', 'e']
  | no : IsScalar ['f', 'a', 'l', 's', 'e']
  | number {n : Numeral} {text : List Char} (h : IsNumeral n text) : IsScalar text
  | string {body : List Char} (h : IsStringBody body) : IsScalar ('"' :: (body ++ ['"']))

/-- The character that opens a bracket. -/
def Bracket.opening : Bracket → Char
  | list => '['
  | object => '{'

/-- What stands in front of a value inside a bracket: nothing in a list, a key and a
colon in an object. -/
inductive IsLabel : Bracket → List Char → Prop
  | list : IsLabel .list []
  | object {indent key gap : List Char} (hindent : IsBlanks indent) (hkey : IsStringBody key)
      (hgap : IsBlanks gap) : IsLabel .object (indent ++ '"' :: (key ++ '"' :: (gap ++ [':'])))

mutual

/-- A value. -/
inductive IsValue : List Char → Prop
  | scalar {text : List Char} (h : IsScalar text) : IsValue text
  | empty (b : Bracket) {blanks : List Char} (h : IsBlanks blanks) :
      IsValue (b.opening :: (blanks ++ [b.closing]))
  | filled {b : Bracket} {items : List Char} (h : IsItems b items) :
      IsValue (b.opening :: (items ++ [b.closing]))

/-- The items of a list or an object, with commas between them. -/
inductive IsItems : Bracket → List Char → Prop
  | last {b : Bracket} {label lead value trail : List Char} (hlabel : IsLabel b label)
      (hlead : IsBlanks lead) (hvalue : IsValue value) (htrail : IsBlanks trail) :
      IsItems b (label ++ (lead ++ (value ++ trail)))
  | more {b : Bracket} {label lead value trail items : List Char} (hlabel : IsLabel b label)
      (hlead : IsBlanks lead) (hvalue : IsValue value) (htrail : IsBlanks trail)
      (hitems : IsItems b items) :
      IsItems b (label ++ (lead ++ (value ++ (trail ++ ',' :: items))))

end

end BoardHealth.Json
