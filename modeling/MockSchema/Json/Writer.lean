/-
  MockSchema.Json.Writer — the compact JSON text of a value: no blanks, keys in their order,
  and in strings only the quote, the backslash and the characters below U+0020 escaped.
-/

import MockSchema.Value.Basic
import MockSchema.Decimal.Notation

namespace MockSchema.Json

def hexDigit (n : Nat) : Char := Nat.digitChar (n % 16)

def escape (c : Char) : List Char :=
  match c with
  | '"' => ['\\', '"']
  | '\\' => ['\\', '\\']
  | '\x08' => ['\\', 'b']
  | '\x0c' => ['\\', 'f']
  | '\n' => ['\\', 'n']
  | '\r' => ['\\', 'r']
  | '\t' => ['\\', 't']
  | c =>
    if c.toNat < 0x20 then ['\\', 'u', '0', '0', hexDigit (c.toNat / 16), hexDigit c.toNat]
    else [c]

def quote (s : String) : String := "\"" ++ String.ofList (s.toList.flatMap escape) ++ "\""

mutual

def write : Value → String
  | .null => "null"
  | .bool true => "true"
  | .bool false => "false"
  | .int n => toString n
  | .float x => Decimal.valueText x
  | .str s => quote s
  | .list xs => "[" ++ ",".intercalate (writeAll xs) ++ "]"
  | .object fields => "\x7b" ++ ",".intercalate (writeFields fields) ++ "\x7d"

def writeAll : List Value → List String
  | [] => []
  | v :: vs => write v :: writeAll vs

def writeFields : List (String × Value) → List String
  | [] => []
  | (k, v) :: fields => (quote k ++ ":" ++ write v) :: writeFields fields

end

end MockSchema.Json
