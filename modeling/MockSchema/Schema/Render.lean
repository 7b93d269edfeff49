/-
  MockSchema.Schema.Render — running a plan: bind the rows, compute the fields of each and
  filter it, order the rows that are left, project them, and select the result.

  Rows are built and filtered one after another, the fields of a row in their order, so the
  first failure in that order is the outcome. A nested plan runs as part of a field, for the
  row as it is then.
-/

import MockSchema.Expr.Index
import MockSchema.Order.Insertion
import MockSchema.Schema.Env
import MockSchema.Schema.Planning
import MockSchema.Schema.Row

namespace MockSchema.Render

abbrev Result (α : Type) := Except SchemaError α

/-- An expression's outcome, as the key that holds the expression sees it. -/
def evaluated {α : Type} (key : String) (r : Except EvalError α) : Result α :=
  match r with
  | .ok v => .ok v
  | .error e => .error ⟨.expression (.failed e), [key]⟩

def inside {α : Type} (key : String) (r : Result α) : Result α :=
  match r with
  | .ok v => .ok v
  | .error e => .error (e.inside key)

/-! ## Rows to start from -/

def candidates (src : Source) (env : Env) (b : Binding) : Result (List Row) :=
  match b with
  | .fresh => .ok [[]]
  | .name _ =>
    match Dict.get? env Env.it with
    | none => .ok [[]]
    | some .null => .ok [[]]
    | some (.object row) => .ok [row]
    | some v => .error ⟨.node (.rowNotObject v.typeName), [Keyword.name]⟩
  | .entity _ name =>
    match src.entity name with
    | .ok rows => .ok rows
    | .error e => .error ⟨.store e, [Keyword.entity]⟩

/-! ## Order -/

/-- Does the plan ask for the opposite order? -/
def isReversed (env : Env) (frame : Frame) : Result Bool :=
  match frame.reverse with
  | none => .ok false
  | some (.flag b) => .ok b
  | some (.formula f) => evaluated Keyword.reverse (f.test env.withoutRow)

/-- A row with the key it is sorted by. -/
structure Keyed where
  key : Value
  row : Row

def keyed (env : Env) (rowName : Option String) (sort : Formula) : List Row → Result (List Keyed)
  | [] => .ok []
  | row :: rows => do
    let key ← evaluated Keyword.sort (sort.eval (env.withRow rowName row))
    return ⟨key, row⟩ :: (← keyed env rowName sort rows)

def compareKeys (reversed : Bool) (a b : Keyed) : Except EvalError Ordering :=
  (Value.order a.key b.key).map fun o => if reversed then o.swap else o

/-- The rows in the order that the plan asks for; equal keys keep their order either way. -/
def ordered (env : Env) (frame : Frame) (rows : List Row) : Result (List Row) := do
  let reversed ← isReversed env frame
  match frame.sort with
  | none => return if reversed then rows.reverse else rows
  | some sort =>
    let ks ← keyed env frame.binding.rowName sort rows
    let ks ← evaluated Keyword.sort (Order.sort (compareKeys reversed) ks)
    return ks.map (·.row)

/-! ## Result -/

/-- Take elements out of their places in this order; a place yields its element once. -/
def takeOut {α : Type} : List (Option α) → List Nat → List α
  | _, [] => []
  | slots, p :: ps =>
    match slots[p]? with
    | some (some x) => x :: takeOut (slots.set p none) ps
    | _ => takeOut slots ps

/-- The list of rows, one of them, or some of them. An index outside the list and a step of
zero select null. -/
def select (rows : List Row) : Option Item → Value
  | none => .list (rows.map .object)
  | some (.index i) =>
    match (Index.position? rows.length i).bind (rows[·]?) with
    | some row => .object row
    | none => .null
  | some (.slice start stop step) =>
    match Index.positions? rows.length start stop step with
    | some ps => .list ((takeOut (rows.map some) ps).map .object)
    | none => .null

/-! ## Plans -/

def keeps (env : Env) (frame : Frame) (row : Row) : Result Bool :=
  match frame.filter with
  | none => .ok true
  | some f => evaluated Keyword.filter (f.test (env.withRow frame.binding.rowName row))

/-- Build each row and keep it if it passes. -/
def keepRows (build : Row → Result Row) (keep : Row → Result Bool) : List Row → Result (List Row)
  | [] => .ok []
  | row :: rows => do
    let row ← build row
    let kept ← keep row
    let rest ← keepRows build keep rows
    return if kept then row :: rest else rest

def merge (field : Field) (row : Row) (v : Value) : Result Row :=
  match Row.merge row field.target v with
  | .ok row => .ok row
  | .error type => .error ⟨.node (.badSplice type), [field.key]⟩

mutual

/-- The value of a plan in an environment. -/
def run (src : Source) (env : Env) : Plan → Result Value
  | .mk frame fields => do
    let rows ← candidates src env frame.binding
    let rows ← keepRows (build src env frame.binding.rowName fields) (keeps env frame) rows
    let rows ← ordered env frame rows
    return select (rows.map frame.projection.apply) frame.item
  termination_by structural p => p

/-- A row with the fields computed into it, each seeing those before it. -/
def build (src : Source) (env : Env) (rowName : Option String) : List Field → Row → Result Row
  | [], row => .ok row
  | .mk key target rules :: fields, row => do
    let v ← lastOf src env rowName key row rules .null
    let row ← merge (.mk key target rules) row v
    build src env rowName fields row
  termination_by structural fields => fields

/-- Run all rules of a field; the last one's value counts. -/
def lastOf (src : Source) (env : Env) (rowName : Option String) (key : String) (row : Row) :
    List Rule → Value → Result Value
  | [], v => .ok v
  | rule :: rules, _ => do
    let v ← valueOf src env rowName key row rule
    lastOf src env rowName key row rules v
  termination_by structural rules => rules

def valueOf (src : Source) (env : Env) (rowName : Option String) (key : String) (row : Row) :
    Rule → Result Value
  | .formula f => evaluated key (f.eval (env.withRow rowName row))
  | .node p => inside key (run src (env.enter rowName row) p)
  termination_by structural rule => rule

end

/-- Plan a value and run the plan; the cache keeps what was compiled. -/
def apply (src : Source) (env : Env) (v : Value) (cache : Cache) : Result Value × Cache :=
  match Planning.plan src v cache with
  | (.ok p, cache) => (run src env p, cache)
  | (.error e, cache) => (.error e, cache)

/-- The value of a node, with a cache of its own. -/
def once (src : Source) (env : Env) (v : Value) : Result Value := (apply src env v []).1

end MockSchema.Render
