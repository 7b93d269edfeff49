/-
  MockSchema.Schema.Plan — a schema node after validation: what its rows start from, the
  fields that are computed into each row in order, and what is done with the rows then. All
  its expressions are compiled; a rule is an expression or the plan of a nested node.
-/

import MockSchema.Expr.Eval
import MockSchema.Schema.Name

namespace MockSchema

/-- What the rows of a node start from: one empty row, the row that encloses the node, or
the rows of an entity. -/
inductive Binding where
  | fresh
  | name (n : String)
  | entity (rowName : Option String) (name : String)

/-- The name that the current row has besides `it`. -/
def Binding.rowName : Binding → Option String
  | fresh => none
  | name n => some n
  | entity a _ => a

inductive Reverse where
  | flag (b : Bool)
  | formula (f : Formula)

inductive Selection where
  | all
  | only (names : List String)
  | except (names : List String)

/-- Which fields a row keeps, and which of them get another name. -/
structure Projection where
  selection : Selection
  renames : List NamePair

/-- What is taken from the list of rows. -/
inductive Item where
  | index (i : Int)
  | slice (start stop step : Option Int)

/-- All of a plan but its fields. -/
structure Frame where
  binding : Binding
  filter : Option Formula
  sort : Option Formula
  reverse : Option Reverse
  projection : Projection
  item : Option Item

mutual

inductive Rule where
  | formula (f : Formula)
  | node (p : Plan)

/-- The last of a field's rules gives its value. -/
inductive Field where
  | mk (key : String) (target : Target) (rules : List Rule)

inductive Plan where
  | mk (frame : Frame) (fields : List Field)

end

namespace Field

def key : Field → String
  | mk k _ _ => k

def target : Field → Target
  | mk _ t _ => t

def rules : Field → List Rule
  | mk _ _ rs => rs

end Field

namespace Plan

def frame : Plan → Frame
  | mk f _ => f

def fields : Plan → List Field
  | mk _ fs => fs

def rowName (p : Plan) : Option String := p.frame.binding.rowName

end Plan

end MockSchema
