/-
  MockSchema.Session — answering requests one after another.

  Every request gets one response; a failure is a response too. A render starts from nothing
  but the source and the request; what a session keeps from one request to the next are the
  cursors of examples.
-/

import MockSchema.Example.Expand
import MockSchema.Request.Params
import MockSchema.Schema.Render

namespace MockSchema

inductive Response where
  | ok (data : Value)
  | error (code path message : String)

namespace Response

def toValue : Response → Value
  | ok data => .object [("status", .str "ok"), ("data", data)]
  | error code path message =>
    .object [("status", .str "error"), ("code", .str code), ("path", .str path),
      ("message", .str message)]

def ofSchemaError (e : SchemaError) : Response := .error e.cause.code e.path e.message

def ofExampleError (e : ExampleError) : Response := .error e.code e.location e.message

def badRequest (message : String) : Response := .error "CLI_BAD_REQUEST" "" message

def ofDecodeError : DecodeError → Response
  | .notAnObject => badRequest DecodeError.notAnObject.text
  | e => badRequest ("invalid request: " ++ e.text)

end Response

namespace Session

/-- The names of the request's own environment come after those of its data. -/
def renderEnv (coerced : Bool) (d : RequestData) (env : Dict Value) : Env :=
  env.foldl (fun e kv => Env.bind e kv.1 kv.2) (d.environment coerced)

def render (src : Source) (coerced : Bool) (schema : Value) (d : RequestData)
    (env : Dict Value) : Response :=
  match Render.once src (renderEnv coerced d env) schema with
  | .ok v => .ok v
  | .error e => .ofSchemaError e

def expand (v : Value) (cursors : Cursors) : Response × Cursors :=
  match Example.expand v cursors with
  | (.ok v, cursors) => (.ok v, cursors)
  | (.error e, cursors) => (.ofExampleError e, cursors)

/-- Answer a request; the cursors are all that is kept. -/
def handle (src : Source) (coerced : Bool) (request : Value) (cursors : Cursors) :
    Response × Cursors :=
  match Request.decode request with
  | .error e => (.ofDecodeError e, cursors)
  | .ok (.render schema d env) => (render src coerced schema d env, cursors)
  | .ok (.expand v) => expand v cursors

/-- Answer requests in their order, from these cursors on. -/
def handleAll (src : Source) (coerced : Bool) : List Value → Cursors → List Response
  | [], _ => []
  | r :: rs, cursors =>
    let (response, cursors) := handle src coerced r cursors
    response :: handleAll src coerced rs cursors

end Session

end MockSchema
