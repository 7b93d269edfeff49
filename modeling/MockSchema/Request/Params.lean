/-
  MockSchema.Request.Params — the environment that a request gives to a schema: its query,
  path and header parameters and its body.

  Header names are stored in lower case. A parameter given as a string can be taken for the
  number it spells, an integer first and a finite float else.
-/

import MockSchema.Decimal.Read
import MockSchema.Request.Decode
import MockSchema.Schema.Env

namespace MockSchema.Params

def coerce (raw : String) : Value :=
  let asFloat : Value :=
    match Decimal.float? raw.toList with
    | some x => if x.isFinite then .float x else .str raw
    | none => .str raw
  match Decimal.integer? raw.toList with
  | some n => if InRange n then .int n else asFloat
  | none => asFloat

def coerceValue : Value → Value
  | .str raw => coerce raw
  | v => v

def coerceAll (params : Dict Value) : Dict Value := Dict.mapValues coerceValue params

/-- Header names without upper-case ASCII letters; of two that become the same, the later
value stays at the earlier place. -/
def lowerNames (headers : Dict Value) : Dict Value :=
  Dict.ofList (headers.map fun kv => (String.ofList (kv.1.toList.map Char.toLower), kv.2))

end Params

open Params in
/-- The environment of a request, with its parameters as numbers where `coerced`. -/
def RequestData.environment (d : RequestData) (coerced : Bool) : Env :=
  let f := if coerced then coerceAll else id
  [("query", .object (f d.query)), ("path", .object (f d.path)),
   ("header", .object (f (lowerNames d.header))), ("body", d.body)]

end MockSchema
