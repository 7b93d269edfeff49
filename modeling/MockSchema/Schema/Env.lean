/-
  MockSchema.Schema.Env — the names that the expressions of a node see.

  An environment is a dictionary of values. While a row is built, `it` and the row's own name,
  if the node gives it one, stand for the row as it is so far, whatever the environment says
  (`Env.withRow`); a nested node gets an environment in which both are bound to it
  (`Env.enter`). `__reverse__` concerns no row and sees the environment without `it`
  (`Env.withoutRow`).
-/

import MockSchema.Expr.Eval
import MockSchema.Store.Source

namespace MockSchema

abbrev Env := Dict Value

namespace Env

/-- The name of the row under construction. -/
def it : String := "it"

def bind (env : Env) (name : String) (v : Value) : Env := Dict.put env name v

def scope (env : Env) : Scope := Dict.get? env

def withRow (env : Env) (rowName : Option String) (row : Row) : Scope := fun name =>
  if name = it ∨ rowName = some name then some (.object row) else Dict.get? env name

def withoutRow (env : Env) : Scope := fun name => if name = it then none else Dict.get? env name

/-- The environment of a node nested in the row. -/
def enter (env : Env) (rowName : Option String) (row : Row) : Env :=
  let env := bind env it (.object row)
  match rowName with
  | some a => bind env a (.object row)
  | none => env

end Env

end MockSchema
