import BoardHealth.Text.Unprintable

/-!
# Quoted text in messages

A message shows a text it complains about between quotation marks, with
everything escaped that would not be seen as itself.
-/

namespace BoardHealth.Text

/-- A character as it stands between the quotation marks. -/
def showChar (c : Char) : List Char :=
  match c with
  | '"' => ['\\', '"']
  | '\\' => ['\\', '\\']
  | '\n' => ['\\', 'n']
  | '\r' => ['\\', 'r']
  | '\t' => ['\\', 't']
  | '\x00' => ['\\', '0']
  | c =>
    if isUnprintable c then
      ['\\', 'u', '{'] ++ Nat.toDigits 16 c.toNat ++ ['}']
    else [c]

/-- The text between quotation marks. -/
def quoted (text : List Char) : List Char :=
  '"' :: text.flatMap showChar ++ ['"']

end BoardHealth.Text
