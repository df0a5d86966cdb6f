/-!
# Writing JSON

A document is written on one line without blanks, or indented: two blanks for
each bracket that is open, one item on a line, and one blank behind a key's colon.
-/

namespace BoardHealth.Json

/-- A JSON value about to be written. Numbers come with their text, and the
members of an object in their order. -/
inductive Document where
  | null
  | boolean (value : Bool)
  | number (text : List Char)
  | string (content : List Char)
  | list (items : List Document)
  | object (members : List (String × Document))

/-- How a document is laid out on lines. -/
inductive Layout where
  | compact
  | indented
deriving DecidableEq

namespace Layout

/-- What stands in front of an item or a closing bracket at a depth. -/
def lineBreak (layout : Layout) (depth : Nat) : List Char :=
  match layout with
  | compact => []
  | indented => '\n' :: List.replicate (2 * depth) ' '

/-- What stands between a key and its value. -/
def colon : Layout → List Char
  | compact => [':']
  | indented => [':', ' ']

end Layout

/-- A character inside a string. Quotation marks, backslashes and control
characters are escaped. -/
def escapeChar (c : Char) : List Char :=
  match c with
  | '"' => ['\\', '"']
  | '\\' => ['\\', '\\']
  | '\x08' => ['\\', 'b']
  | '\x0c' => ['\\', 'f']
  | '\n' => ['\\', 'n']
  | '\r' => ['\\', 'r']
  | '\t' => ['\\', 't']
  | c =>
    if c.toNat < 0x20 then
      ['\\', 'u', '0', '0', Nat.digitChar (c.toNat / 16), Nat.digitChar (c.toNat % 16)]
    else [c]

/-- A text as a string. -/
def quote (content : List Char) : List Char :=
  '"' :: content.flatMap escapeChar ++ ['"']

namespace Document

mutual

/-- The text of a document inside as many brackets as `depth` says. -/
def write (layout : Layout) (depth : Nat) : Document → List Char
  | null => ['n', 'u', 'l', 'l']
  | boolean true => ['t', 'r', 'u', 'e']
  | boolean false => ['f', 'a', 'l', 's', 'e']
  | number text => text
  | string content => quote content
  | list [] => ['[', ']']
  | list (item :: items) =>
    '[' :: layout.lineBreak (depth + 1) ++ write layout (depth + 1) item
      ++ writeItems layout (depth + 1) items ++ layout.lineBreak depth ++ [']']
  | object [] => ['{', '}']
  | object ((key, value) :: members) =>
    '{' :: layout.lineBreak (depth + 1) ++ quote key.toList ++ layout.colon
      ++ write layout (depth + 1) value ++ writeMembers layout (depth + 1) members
      ++ layout.lineBreak depth ++ ['}']

/-- The items of a list behind the first. -/
def writeItems (layout : Layout) (depth : Nat) : List Document → List Char
  | [] => []
  | item :: items =>
    ',' :: layout.lineBreak depth ++ write layout depth item ++ writeItems layout depth items

/-- The members of an object behind the first. -/
def writeMembers (layout : Layout) (depth : Nat) : List (String × Document) → List Char
  | [] => []
  | (key, value) :: members =>
    ',' :: layout.lineBreak depth ++ quote key.toList ++ layout.colon
      ++ write layout depth value ++ writeMembers layout depth members

end

/-- The text of a whole document. -/
def text (document : Document) (layout : Layout) : String :=
  String.ofList (document.write layout 0)

end Document

end BoardHealth.Json
