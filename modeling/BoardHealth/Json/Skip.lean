import BoardHealth.Json.StringLiteral
import BoardHealth.Json.Numeral

/-!
# Passing over values

The value of a key that a record does not know is passed over: its form is
checked and its content is not. The brackets that are open are kept on a stack,
so that values may nest to any depth.
-/

namespace BoardHealth.Json

/-- A bracket that is open. -/
inductive Bracket where
  | list
  | object
deriving DecidableEq

namespace Bracket

/-- The character that closes the bracket. -/
def closing : Bracket → Char
  | list => ']'
  | object => '}'

/-- The cause given where the text ends behind a value inside the bracket. -/
def endError : Bracket → DecodeError
  | list => .endInList
  | object => .endInObject

/-- The cause given where neither a comma nor the closing bracket follows. -/
def separatorError : Bracket → DecodeError
  | list => .listSeparatorExpected
  | object => .objectSeparatorExpected

end Bracket

/-- Where between the tokens of a value a text stands. -/
inductive Place where
  /-- In front of a value. -/
  | value
  /-- Behind an opening bracket. -/
  | opened (bracket : Bracket)
  /-- Behind a value. -/
  | after
deriving DecidableEq

/-- The places a text can pass without reading a character come in this order. -/
def Place.rank : Place → Nat
  | after => 0
  | value => 1
  | opened _ => 2

namespace Reader

/-- Passes over a value that has no brackets. -/
def passScalar : Reader Unit := do
  match ← peek with
  | some 'n' => keyword ['n', 'u', 'l', 'l']
  | some 't' => keyword ['t', 'r', 'u', 'e']
  | some 'f' => keyword ['f', 'a', 'l', 's', 'e']
  | some '"' =>
    advance
    passString
  | some c => if beginsNumeral c then passNumeral else fail .valueExpected
  | none => fail .endInValue

/-- Passes over what stands in front of a value inside a bracket: nothing in a
list, a key and a colon in an object. -/
def passLabel : Bracket → Reader Unit
  | .list => pure ()
  | .object => do
    blanks
    match ← peek with
    | some '"' =>
      advance
      passString
      colon
    | some _ => fail .keyNotString
    | none => fail .endInObject

/-- Passes over the rest of a value, from a place inside the brackets that are
open, the innermost first. -/
def runSkip (place : Place) (outer : List Bracket) (text : List Char) : Outcome Unit :=
  match place, outer with
  | .value, outer =>
    match h : text.dropWhile isBlank with
    | [] => .error .endInValue
    | c :: rest =>
      have := length_lt_of_dropWhile h
      if c = '[' then runSkip (.opened .list) outer rest
      else if c = '{' then runSkip (.opened .object) outer rest
      else
        match h' : passScalar.run (c :: rest) with
        | .error e => .error e
        | .ok (_, rest') =>
          have := List.length_cons ▸ passScalar.length_le h'
          runSkip .after outer rest'
  | .opened b, outer =>
    match h : text.dropWhile isBlank with
    | [] => .error b.endError
    | c :: rest =>
      have := length_lt_of_dropWhile h
      if c = b.closing then runSkip .after outer rest
      else
        match h' : (passLabel b).run (c :: rest) with
        | .error e => .error e
        | .ok (_, rest') =>
          have := List.length_cons ▸ (passLabel b).length_le h'
          runSkip .value (b :: outer) rest'
  | .after, [] => .ok ((), text)
  | .after, b :: outer =>
    match h : text.dropWhile isBlank with
    | [] => .error b.endError
    | c :: rest =>
      have := length_lt_of_dropWhile h
      if c = ',' then
        match h' : (passLabel b).run rest with
        | .error e => .error e
        | .ok (_, rest') =>
          have := (passLabel b).length_le h'
          runSkip .value (b :: outer) rest'
      else if c = b.closing then runSkip .after outer rest
      else .error b.separatorError
termination_by (text.length, place.rank)
decreasing_by
  all_goals simp only [Prod.lex_def, Place.rank]; omega

theorem runSkip_suffix (place : Place) (outer : List Bracket) {text : List Char} {value : Unit}
    {rest : List Char} (h : runSkip place outer text = .ok (value, rest)) : rest <:+ text := by
  fun_induction runSkip place outer text with
  | case1 | case4 | case6 | case8 | case11 | case12 | case15 => cases h
  | case10 => cases h; exact List.suffix_refl _
  | case2 _ _ _ hd _ ih | case3 _ _ _ hd _ _ ih | case7 _ _ _ _ hd _ ih
  | case14 _ _ _ _ hd _ _ ih =>
    exact (ih h).trans ((List.suffix_cons ..).trans (suffix_of_dropWhile hd))
  | case5 _ _ _ _ hd _ _ _ _ _ hx _ ih | case9 _ _ _ _ _ hd _ _ _ _ hx _ ih =>
    exact (ih h).trans ((leaves_suffix _ hx).trans (suffix_of_dropWhile hd))
  | case13 _ _ _ _ _ _ hx _ hd _ ih =>
    exact (ih h).trans ((leaves_suffix _ hx).trans
      ((List.suffix_cons ..).trans (suffix_of_dropWhile hd)))

/-- Passes over a value. -/
def passValue : Reader Unit where
  run := runSkip .value []
  leaves_suffix h := runSkip_suffix _ _ h

end Reader

end BoardHealth.Json
