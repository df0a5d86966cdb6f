import BoardHealth.Json.Reader

/-!
# JSON strings

A string runs up to the first quotation mark that is not escaped. Its characters
are read one by one, escapes with a reader of their own: `unescape` where the
content matters, `passEscape` where only the form does. The first refuses
surrogates without their partners, the second takes any four hexadecimal digits.
-/

namespace BoardHealth.Json

/-- The value of a hexadecimal digit. -/
def hexDigit? (c : Char) : Option Nat :=
  if '0' ≤ c && c ≤ '9' then some (c.toNat - '0'.toNat)
  else if 'a' ≤ c && c ≤ 'f' then some (c.toNat - 'a'.toNat + 10)
  else if 'A' ≤ c && c ≤ 'F' then some (c.toNat - 'A'.toNat + 10)
  else none

/-- The number that four hexadecimal digits stand for. -/
def hexNumber? (digits : List Char) : Option Nat :=
  digits.foldlM (fun n c => (hexDigit? c).map (n * 16 + ·)) 0

/-- The code units at which surrogate pairs begin. -/
def isHighSurrogate (unit : Nat) : Bool := 0xD800 ≤ unit && unit < 0xDC00

/-- The code units at which surrogate pairs end. -/
def isLowSurrogate (unit : Nat) : Bool := 0xDC00 ≤ unit && unit < 0xE000

namespace Reader

variable {α : Type}

/-- The four hexadecimal digits of a numeric escape. A text with less than four
bytes left has ended; otherwise anything but four digits is a bad escape. -/
def hexUnit : Reader Nat where
  run
    | a :: b :: c :: d :: rest =>
      match hexNumber? [a, b, c, d] with
      | some unit => .ok (unit, rest)
      | none => .error .badEscape
    | short =>
      if short.foldl (fun bytes c => bytes + c.utf8Size) 0 < 4 then .error .endInString
      else .error .badEscape
  leaves_suffix {text _ _} h := by
    match text with
    | a :: b :: c :: d :: rest =>
      dsimp only at h
      split at h
      · cases h; exact ⟨[a, b, c, d], rfl⟩
      · cases h
    | [] | [_] | [_, _] | [_, _, _] =>
      dsimp only at h
      split at h <;> cases h

/-- The given character inside a string, where the second half of a surrogate
pair has to follow. -/
def pairCharacter (c : Char) : Reader Unit := do
  match ← next with
  | none => fail .endInString
  | some d => if d = c then pure () else fail .surrogateUnpaired

/-- The character of a numeric escape: a code unit, or a pair of surrogates. -/
def unicodeEscape : Reader Char := do
  let unit ← hexUnit
  if isLowSurrogate unit then fail .surrogateMisplaced
  else if isHighSurrogate unit then
    pairCharacter '\\'
    pairCharacter 'u'
    let low ← hexUnit
    if isLowSurrogate low then
      pure (Char.ofNat ((unit - 0xD800) * 0x400 + (low - 0xDC00) + 0x10000))
    else fail .surrogateMisplaced
  else pure (Char.ofNat unit)

/-- The character that stands behind a backslash for itself or for a control
character. -/
def simpleEscape? : Char → Option Char
  | '"' => some '"'
  | '\\' => some '\\'
  | '/' => some '/'
  | 'b' => some '\x08'
  | 'f' => some '\x0c'
  | 'n' => some '\n'
  | 'r' => some '\r'
  | 't' => some '\t'
  | _ => none

/-- What follows a backslash: a numeric escape, read with the given reader, or a
character with a meaning of its own. -/
def escape (numeric : Reader α) (simple : Char → α) : Reader α := do
  match ← next with
  | none => fail .endInString
  | some 'u' => numeric
  | some c =>
    match simpleEscape? c with
    | some meant => pure (simple meant)
    | none => fail .badEscape

/-- The character of an escape. -/
def unescape : Reader Char := escape unicodeEscape id

/-- Passes over an escape. -/
def passEscape : Reader Unit :=
  escape (do let _ ← hexUnit) fun _ => ()

/-- Reads up to the closing quotation mark. `seen` holds what was read already,
the last first. -/
def runString (onPlain : Char → α) (onEscape : Reader α) (seen : List α) :
    List Char → Outcome (List α)
  | [] => .error .endInString
  | c :: rest =>
    if c = '"' then .ok (seen.reverse, rest)
    else if c = '\\' then
      match h : onEscape.run rest with
      | .error e => .error e
      | .ok (a, rest') =>
        have := onEscape.length_le h
        runString onPlain onEscape (a :: seen) rest'
    else if c.toNat < 0x20 then .error .controlCharacter
    else runString onPlain onEscape (onPlain c :: seen) rest
termination_by text => text.length
decreasing_by all_goals simp only [List.length_cons]; omega

theorem runString_suffix (onPlain : Char → α) (onEscape : Reader α) (seen : List α)
    {text : List Char} {value : List α} {rest : List Char}
    (h : runString onPlain onEscape seen text = .ok (value, rest)) : rest <:+ text := by
  fun_induction runString onPlain onEscape seen text with
  | case1 => cases h
  | case2 seen rest' => cases h; exact List.suffix_cons ..
  | case3 => cases h
  | case4 seen rest' a rest'' hx _ _ ih =>
    exact (ih h).trans ((onEscape.leaves_suffix hx).trans (List.suffix_cons ..))
  | case5 => cases h
  | case6 seen c rest' _ _ _ ih => exact (ih h).trans (List.suffix_cons ..)

/-- The items of a string, from behind its opening quotation mark on. -/
def string (onPlain : Char → α) (onEscape : Reader α) : Reader (List α) where
  run := runString onPlain onEscape []
  leaves_suffix h := runString_suffix _ _ _ h

/-- The content of a string, from behind its opening quotation mark on. -/
def stringContent : Reader (List Char) := string id unescape

/-- Passes over a string, from behind its opening quotation mark on. -/
def passString : Reader Unit := do
  let _ ← string (fun _ => ()) passEscape

end Reader

end BoardHealth.Json
