/-
  MockSchema.Request.Decode — requests out of values.

  A request is an object. Its `op` is `render` or `example`, and `render` if it has none. A
  render needs a `schema` and can have `request` data and an `env`; an example needs an
  `example`. Other fields are ignored. What is wrong is found in this order: the `op`, then
  the types of the fields in their order, then a missing field.

  Request data is an object, or the list of its fields in their order; a field that is absent
  is empty.
-/

import MockSchema.Decimal.Notation
import MockSchema.Text.Quoted
import MockSchema.Value.Basic

namespace MockSchema

/-- What the four parts of a request hold. -/
structure RequestData where
  query : Dict Value
  path : Dict Value
  header : Dict Value
  body : Value

def RequestData.empty : RequestData := ⟨[], [], [], .null⟩

inductive Request where
  | render (schema : Value) (data : RequestData) (env : Dict Value)
  | expand (v : Value)

/-- What a value was expected to be. -/
inductive Wanted where
  | op
  | map
  | requestData

def Wanted.text : Wanted → String
  | op => "variant identifier"
  | map => "a map"
  | requestData => "struct RequestData"

inductive DecodeError where
  | notAnObject
  | badType (found : Value) (wanted : Wanted)
  | unknownOp (op : String)
  | missing (field : String)
  /-- Request data as a list of more than four fields, alone or in a request. -/
  | tooLong (length : Nat)
  | tooLongInRequest (length : Nat)

/-- How a message names a value of the wrong type. -/
def foundText : Value → String
  | .null => "null"
  | .bool b => "boolean `" ++ (if b then "true" else "false") ++ "`"
  | .int n => "integer `" ++ toString n ++ "`"
  | .float x => "floating point `" ++ Decimal.valueText x ++ "`"
  | .str s => "string " ++ Text.quoted s
  | .list _ => "sequence"
  | .object _ => "map"

def DecodeError.text : DecodeError → String
  | notAnObject => "request must be a JSON object"
  | badType found wanted => "invalid type: " ++ foundText found ++ ", expected " ++ wanted.text
  | unknownOp op => "unknown variant `" ++ op ++ "`, expected `render` or `example`"
  | missing field => "missing field `" ++ field ++ "`"
  | tooLong length => "invalid length " ++ toString length ++ ", expected fewer elements in array"
  | tooLongInRequest length =>
    "invalid length " ++ toString length ++ ", expected 4 elements in sequence"

namespace Request

abbrev Result (α : Type) := Except DecodeError α

def map (v : Value) : Result (Dict Value) :=
  match v with
  | .object fields => .ok fields
  | v => .error (.badType v .map)

/-! ## Data -/

def dataField (d : RequestData) (key : String) (v : Value) : Result RequestData :=
  match key with
  | "query" => (map v).map fun m => { d with query := m }
  | "path" => (map v).map fun m => { d with path := m }
  | "header" => (map v).map fun m => { d with header := m }
  | "body" => .ok { d with body := v }
  | _ => .ok d

/-- Data from the list of its fields; `tooLong` tells what a longer list is. -/
def dataOfList (tooLong : Nat → DecodeError) (vs : List Value) : Result RequestData := do
  let d ← (["query", "path", "header", "body"].zip vs).foldlM
    (fun d kv => dataField d kv.1 kv.2) RequestData.empty
  if 4 < vs.length then throw (tooLong vs.length) else return d

def dataWith (tooLong : Nat → DecodeError) (v : Value) : Result RequestData :=
  match v with
  | .object fields => fields.foldlM (fun d kv => dataField d kv.1 kv.2) RequestData.empty
  | .list vs => dataOfList tooLong vs
  | v => .error (.badType v .requestData)

/-- Request data that stands alone. -/
def data (v : Value) : Result RequestData := dataWith .tooLong v

/-! ## Requests -/

inductive Op where
  | render
  | expand
  deriving DecidableEq, Repr

def op (fields : Dict Value) : Result Op :=
  match Dict.get? fields "op" with
  | none => .ok .render
  | some (.str "render") => .ok .render
  | some (.str "example") => .ok .expand
  | some (.str s) => .error (.unknownOp s)
  | some v => .error (.badType v .op)

/-- The fields of a render request as far as they are read. -/
structure RenderParts where
  schema : Option Value
  data : RequestData
  env : Dict Value

def renderField (p : RenderParts) (key : String) (v : Value) : Result RenderParts :=
  match key with
  | "schema" => .ok { p with schema := some v }
  | "request" => (dataWith .tooLongInRequest v).map fun d => { p with data := d }
  | "env" => (map v).map fun m => { p with env := m }
  | _ => .ok p

def decode (v : Value) : Result Request :=
  match v with
  | .object fields => do
    match ← op fields with
    | .render => do
      let p ← fields.foldlM (fun p kv => renderField p kv.1 kv.2) ⟨none, RequestData.empty, []⟩
      match p.schema with
      | some schema => return .render schema p.data p.env
      | none => throw (.missing "schema")
    | .expand =>
      match Dict.get? fields "example" with
      | some v => return .expand v
      | none => throw (.missing "example")
  | _ => .error .notAnObject

end Request

end MockSchema
