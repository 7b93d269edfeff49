/-
  MockSchema.Expr.Display — the text of a value as `str()` gives it: a string is its own text,
  and inside lists and dictionaries it stands in single quotes with the backslash and the
  single quote escaped. Keys are quoted and not escaped.
-/

import MockSchema.Value.Basic
import MockSchema.Decimal.Notation

namespace MockSchema.Display

def escape (c : Char) : List Char :=
  if c == '\\' then ['\\', '\\'] else if c == '\x27' then ['\\', '\x27'] else [c]

mutual

/-- A value as it is written in the expression language. -/
def written : Value → String
  | .null => "None"
  | .bool true => "True"
  | .bool false => "False"
  | .int n => toString n
  | .float x => Decimal.valueText x
  | .str s => "'" ++ String.ofList (s.toList.flatMap escape) ++ "'"
  | .list xs => "[" ++ ", ".intercalate (writtenAll xs) ++ "]"
  | .object fields => "\x7b" ++ ", ".intercalate (writtenFields fields) ++ "\x7d"

def writtenAll : List Value → List String
  | [] => []
  | v :: vs => written v :: writtenAll vs

def writtenFields : List (String × Value) → List String
  | [] => []
  | (k, v) :: fields => ("'" ++ k ++ "': " ++ written v) :: writtenFields fields

end

def text : Value → String
  | .str s => s
  | v => written v

end MockSchema.Display
