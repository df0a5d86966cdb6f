import BoardHealth.Json.Error

/-!
# Readers

A reader takes a value off the front of a text or names the cause for which it
cannot. What it leaves is always an end of what it was given, so readers that
repeat themselves on the rest come to an end; the monad operations carry this
along.
-/

namespace BoardHealth.Json

/-- A value and the text behind it, or the cause of a refusal. -/
abbrev Outcome (α : Type) := Except DecodeError (α × List Char)

/-- Takes a value off the front of a text. -/
structure Reader (α : Type) where
  run : List Char → Outcome α
  leaves_suffix : ∀ {text value rest}, run text = .ok (value, rest) → rest <:+ text

/-- The blanks of JSON: space, tab, line feed and carriage return. -/
def isBlank (c : Char) : Bool :=
  c == ' ' || c == '\t' || c == '\n' || c == '\r'

namespace Reader

variable {α β : Type}

/-- Reads nothing. -/
protected def pure (a : α) : Reader α where
  run text := .ok (a, text)
  leaves_suffix h := by cases h; exact List.suffix_refl _

/-- Reads with one reader and goes on with another behind it. -/
protected def bind (x : Reader α) (f : α → Reader β) : Reader β where
  run text :=
    match x.run text with
    | .error e => .error e
    | .ok (a, rest) => (f a).run rest
  leaves_suffix h := by
    split at h
    · cases h
    · next a rest hx => exact ((f a).leaves_suffix h).trans (x.leaves_suffix hx)

instance : Monad Reader where
  pure := Reader.pure
  bind := Reader.bind

@[simp] theorem run_pure (a : α) (text : List Char) :
    (pure a : Reader α).run text = .ok (a, text) := rfl

theorem run_bind (x : Reader α) (f : α → Reader β) (text : List Char) :
    (x >>= f).run text =
      match x.run text with
      | .error e => .error e
      | .ok (a, rest) => (f a).run rest := rfl

/-- What is left is no longer than what was given. -/
theorem length_le (x : Reader α) {text : List Char} {a : α} {rest : List Char}
    (h : x.run text = .ok (a, rest)) : rest.length ≤ text.length :=
  (x.leaves_suffix h).length_le

theorem suffix_of_dropWhile {p : Char → Bool} {text rest : List Char} {c : Char}
    (h : text.dropWhile p = c :: rest) : c :: rest <:+ text :=
  h ▸ List.dropWhile_suffix p

theorem length_lt_of_dropWhile {p : Char → Bool} {text rest : List Char} {c : Char}
    (h : text.dropWhile p = c :: rest) : rest.length < text.length :=
  (suffix_of_dropWhile h).length_le

/-- Refuses the text. -/
def fail (e : DecodeError) : Reader α where
  run _ := .error e
  leaves_suffix h := by cases h

/-- Goes on with a value that is already known, or refuses the text. -/
def ofExcept : Except DecodeError α → Reader α
  | .ok a => pure a
  | .error e => fail e

/-- The next character, which stays in place; none at the end. -/
def peek : Reader (Option Char) where
  run text := .ok (text.head?, text)
  leaves_suffix h := by cases h; exact List.suffix_refl _

/-- The next character, taken off; none at the end. -/
def next : Reader (Option Char) where
  run text := .ok (text.head?, text.tail)
  leaves_suffix h := by cases h; exact List.tail_suffix _

/-- All characters up to the first that fails the test. -/
def takeWhile (p : Char → Bool) : Reader (List Char) where
  run text := .ok (text.takeWhile p, text.dropWhile p)
  leaves_suffix h := by cases h; exact List.dropWhile_suffix p

/-- Passes over the next character. -/
def advance : Reader Unit := do
  let _ ← next

/-- Passes over blanks. -/
def blanks : Reader Unit := do
  let _ ← takeWhile isBlank

/-- Passes over blanks to the first character of a value, which stays in place. -/
def valueStart : Reader Char := do
  blanks
  match ← peek with
  | none => fail .endInValue
  | some c => pure c

/-- Reads the given characters of a keyword. -/
def keyword : List Char → Reader Unit
  | [] => pure ()
  | c :: cs => do
    match ← next with
    | none => fail .endInValue
    | some d => if d = c then keyword cs else fail .keywordExpected

/-- Reads the colon between a key and its value. -/
def colon : Reader Unit := do
  blanks
  match ← peek with
  | none => fail .endInObject
  | some ':' => advance
  | some _ => fail .colonExpected

/-- Whether another element of a list follows; passes over the comma in front of
it. The closing bracket stays in place. -/
def nextElement (first : Bool) : Reader Bool := do
  blanks
  match ← peek with
  | none => fail .endInList
  | some ']' => pure false
  | some c =>
    if first then pure true
    else if c = ',' then
      advance
      blanks
      match ← peek with
      | none => fail .endInValue
      | some ']' => fail .trailingComma
      | some _ => pure true
    else fail .listSeparatorExpected

/-- Reads the closing bracket of a list that is to have no further element. -/
def closeList : Reader Unit := do
  blanks
  match ← peek with
  | none => fail .endInList
  | some ']' => advance
  | some ',' =>
    advance
    blanks
    match ← peek with
    | some ']' => fail .trailingComma
    | _ => fail .trailingText
  | some _ => fail .trailingText

/-- Reads a value that is the whole text but for blanks around it. -/
def whole (x : Reader α) : Reader α := do
  let a ← x
  blanks
  match ← peek with
  | none => pure a
  | some _ => fail .trailingText

/-- The value of a whole text, or why it has none. -/
def decode (x : Reader α) (text : List Char) : Except DecodeError α :=
  (x.whole.run text).map (·.1)

end Reader

end BoardHealth.Json
