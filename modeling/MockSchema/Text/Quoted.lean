/-
  MockSchema.Text.Quoted — a text in double quotes as messages show it: the quote, the
  backslash and the usual control characters are escaped, and what could not be seen is
  shown by its number.
-/

import MockSchema.Text.Class
import MockSchema.Text.Hidden

namespace MockSchema.Text

/-- A number in lower-case hexadecimal digits. -/
def hex (n : Nat) : List Char := Nat.toDigits 16 n

def quoteChar (c : Char) : List Char :=
  match c with
  | '\x00' => ['\\', '0']
  | '\t' => ['\\', 't']
  | '\n' => ['\\', 'n']
  | '\r' => ['\\', 'r']
  | '"' => ['\\', '"']
  | '\\' => ['\\', '\\']
  | c =>
    if c.toNat < 0x20 || inRanges hiddenRanges c.toNat then
      ['\\', 'u', '\x7b'] ++ hex c.toNat ++ ['\x7d']
    else [c]

def quoted (s : String) : String := "\"" ++ String.ofList (s.toList.flatMap quoteChar) ++ "\""

end MockSchema.Text
