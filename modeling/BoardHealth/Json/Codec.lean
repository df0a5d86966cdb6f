import BoardHealth.Json.Document
import BoardHealth.Json.Skip

/-!
# Codecs

A codec is the JSON form of a type: how its values are written and how they are
read back. Codecs of parts make codecs of optional values, of lists and of
enumerations here, and of records in `BoardHealth.Json.Record`.
-/

namespace BoardHealth.Json

/-- The JSON form of a type. -/
structure Codec (α : Type) where
  reader : Reader α
  encode : α → Document

/-- At most `bound` values in order. -/
structure Bounded (α : Type) (bound : Nat) where
  toList : List α
  length_le : toList.length ≤ bound
deriving DecidableEq

namespace Bounded

variable {α : Type} {bound : Nat}

/-- No values. -/
def empty : Bounded α bound := ⟨[], Nat.zero_le _⟩

/-- One more value in front. -/
def cons (a : α) (xs : Bounded α bound) : Bounded α (bound + 1) :=
  ⟨a :: xs.toList, Nat.succ_le_succ xs.length_le⟩

end Bounded

/-- Whole numbers are marked, and numbers below `1e-6` and from `1e13` on have an
exponent. -/
def singleLayout : DecimalLayout :=
  ⟨.toEven, fun first => -6 ≤ first && first ≤ 12, true⟩

namespace Reader

variable {α : Type}

/-- Refuses the value that begins with `c` for being no `expected`. A value
without brackets is read first, so what is wrong with its form comes before; a
bracket is refused as it stands. -/
def mismatch (c : Char) (expected : Shape) : Reader α := do
  if c = 'n' then
    keyword ['n', 'u', 'l', 'l']
    fail (.wrongType .null expected)
  else if c = 't' then
    keyword ['t', 'r', 'u', 'e']
    fail (.wrongType (.boolean true) expected)
  else if c = 'f' then
    keyword ['f', 'a', 'l', 's', 'e']
    fail (.wrongType (.boolean false) expected)
  else if beginsNumeral c then
    let n ← number
    fail (.wrongType n.found expected)
  else if c = '"' then
    advance
    let content ← stringContent
    fail (.wrongType (.string content) expected)
  else if c = '[' then fail (.wrongType .list expected)
  else if c = '{' then fail (.wrongType .object expected)
  else fail .valueExpected

/-- Reads `true` or `false`. -/
def boolean : Reader Bool := do
  let c ← valueStart
  if c = 't' then
    keyword ['t', 'r', 'u', 'e']
    pure true
  else if c = 'f' then
    keyword ['f', 'a', 'l', 's', 'e']
    pure false
  else mismatch c .boolean

/-- Reads `null`. -/
def null : Reader Unit := do
  let c ← valueStart
  if c = 'n' then keyword ['n', 'u', 'l', 'l'] else mismatch c .null

/-- Reads any number. -/
def single : Reader Single := do
  let c ← valueStart
  if beginsNumeral c then
    let n ← number
    pure n.toSingle
  else mismatch c .single

/-- Reads an integer from 0 up to a limit. -/
def word (limit : Nat) (shape : Shape) : Reader Nat := do
  let c ← valueStart
  if beginsNumeral c then
    match ← number with
    | .integer n =>
      if 0 ≤ n ∧ n < limit then pure n.toNat else fail (.outOfRange n shape)
    | .real x => fail (.wrongType (.real x) shape)
  else mismatch c shape

/-- Reads `null` or a value. -/
def optional (item : Reader α) : Reader (Option α) := do
  blanks
  match ← peek with
  | some 'n' =>
    keyword ['n', 'u', 'l', 'l']
    pure none
  | _ => some <$> item

/-- Reads the last `left` of `size` elements. -/
def elements (item : Reader α) (size : Nat) : (left : Nat) → Reader (Vector α left)
  | 0 => pure #v[]
  | left + 1 => do
    if ← nextElement (left + 1 == size) then
      let a ← item
      let others ← elements item size left
      pure ((#v[a] ++ others).cast (Nat.add_comm 1 left))
    else fail (.wrongLength (size - (left + 1)) (.vector size))

/-- Reads a list of exactly `size` elements. -/
def vector (item : Reader α) (size : Nat) : Reader (Vector α size) := do
  let c ← valueStart
  if c = '[' then
    advance
    let items ← elements item size size
    closeList
    pure items
  else mismatch c (.vector size)

/-- Reads the elements for which there still is room among `bound`. One too many
is read before it is refused. -/
def elementsUpTo (item : Reader α) (bound : Nat) : (room : Nat) → Reader (Bounded α room)
  | 0 => do
    if ← nextElement (bound == 0) then
      let _ ← item
      fail (.wrongLength (bound + 1) .list)
    else pure .empty
  | room + 1 => do
    if ← nextElement (room + 1 == bound) then
      let a ← item
      let others ← elementsUpTo item bound room
      pure (others.cons a)
    else pure .empty

/-- Reads a list of at most `bound` elements. -/
def bounded (item : Reader α) (bound : Nat) : Reader (Bounded α bound) := do
  let c ← valueStart
  if c = '[' then
    advance
    let items ← elementsUpTo item bound bound
    closeList
    pure items
  else mismatch c .list

/-- The value of a name. -/
def named (all : List α) (name : α → String) (found : List Char) : Reader α :=
  match all.find? fun a => (name a).toList = found with
  | some a => pure a
  | none => fail (.unknownName found (all.map name))

/-- Reads a name: a string, or an object with the name as its only key and
`null` for its value. -/
def choice (all : List α) (name : α → String) : Reader α := do
  let c ← valueStart
  if c = '"' then
    advance
    let found ← stringContent
    named all name found
  else if c = '{' then
    advance
    blanks
    match ← peek with
    | none => fail .endInObject
    | some '}' => fail .valueExpected
    | some '"' =>
      advance
      let found ← stringContent
      let a ← named all name found
      colon
      null
      blanks
      match ← peek with
      | none => fail .endInObject
      | some '}' =>
        advance
        pure a
      | some _ => fail .valueExpected
    | some _ => fail .keyNotString
  else fail .valueExpected

end Reader

namespace Codec

variable {α : Type}

/-- The value that a whole text stands for, or why there is none. -/
def decode (codec : Codec α) (text : String) : Except DecodeError α :=
  codec.reader.decode text.toList

/-- The text of a value on one line. -/
def text (codec : Codec α) (a : α) : String := (codec.encode a).text .compact

/-- The indented text of a value. -/
def indentedText (codec : Codec α) (a : α) : String := (codec.encode a).text .indented

/-- `true` and `false`. -/
def boolean : Codec Bool := ⟨.boolean, .boolean⟩

/-- Numbers in single precision. What is not finite is written as `null` and
cannot be read back. -/
def single : Codec Single where
  reader := .single
  encode x := if x.isFinite then .number (x.text singleLayout) else .null

/-- Integers of 32 bits. -/
def word32 : Codec UInt32 where
  reader := do
    let n ← Reader.word UInt32.size .word32
    pure (.ofNat n)
  encode n := .number (Nat.toDigits 10 n.toNat)

/-- Integers of 64 bits. -/
def word64 : Codec UInt64 where
  reader := do
    let n ← Reader.word UInt64.size .word64
    pure (.ofNat n)
  encode n := .number (Nat.toDigits 10 n.toNat)

/-- Values that may be absent, in which case `null` stands for them. -/
def optional (item : Codec α) : Codec (Option α) where
  reader := .optional item.reader
  encode
    | none => .null
    | some a => item.encode a

/-- Lists of one fixed length. -/
def vector (item : Codec α) (size : Nat) : Codec (Vector α size) where
  reader := .vector item.reader size
  encode items := .list (items.toList.map item.encode)

/-- Lists of bounded length. -/
def bounded (item : Codec α) (bound : Nat) : Codec (Bounded α bound) where
  reader := .bounded item.reader bound
  encode items := .list (items.toList.map item.encode)

/-- Enumerations, each value by its name. -/
def choice (all : List α) (name : α → String) : Codec α where
  reader := .choice all name
  encode a := .string (name a).toList

end Codec

end BoardHealth.Json
