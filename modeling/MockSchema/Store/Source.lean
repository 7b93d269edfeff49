/-
  MockSchema.Store.Source — named resources: an entity is a list of rows, a helper is a schema
  node that other nodes can name.

  A `Source` answers a look-up with the resource or with the reason why there is none. It also
  lists the names under which a helper can be found at all, so a source is finite; `Memory` is
  a source that holds its resources as values and checks their shape on every look-up.
-/

import MockSchema.Text.Class
import MockSchema.Value.Basic

namespace MockSchema

/-- A row of an entity, or of a result: an object. -/
abbrev Row := Dict Value

inductive Resource where
  | entity
  | helper
  deriving DecidableEq, Repr

namespace Resource

def text : Resource → String
  | entity => "entity"
  | helper => "helper"

/-- What a resource has to be. -/
def shape : Resource → String
  | entity => "a list of objects"
  | helper => "an object"

end Resource

/-- Why the content of a resource could not be used. -/
inductive ContentError where
  | malformedJson
  | unreadable

def ContentError.text : ContentError → String
  | malformedJson => "malformed text"
  | unreadable => "failed to read file"

inductive StoreError where
  | notFound (kind : Resource) (name : String)
  | badContent (kind : Resource) (name : String) (why : ContentError)
  | badShape (kind : Resource) (name : String)

namespace StoreError

def code : StoreError → String
  | notFound _ _ => "PQL_NOT_FOUND"
  | badContent _ _ _ => "PQL_PARSE_ERROR"
  | badShape _ _ => "PQL_SHAPE_ERROR"

def message : StoreError → String
  | notFound kind name => kind.text ++ " not found (" ++ name ++ ")"
  | badContent kind name why => kind.text ++ " is not valid JSON (" ++ name ++ "): " ++ why.text
  | badShape kind name => kind.text ++ " must be " ++ kind.shape ++ " (" ++ name ++ ")"

end StoreError

/-- Names of resources are single words; no other name is looked up. -/
def isResourceName (name : String) : Bool := Text.isWord name.toList

structure Source where
  entity : String → Except StoreError (List Row)
  helper : String → Except StoreError Row
  helperNames : List String
  helper_known : ∀ name node, helper name = .ok node → name ∈ helperNames

namespace Source

/-- The rows of a list of objects. -/
def rows? : List Value → Option (List Row)
  | [] => some []
  | .object fields :: vs => (rows? vs).map (fields :: ·)
  | _ :: _ => none

def entityOf (name : String) (v : Value) : Except StoreError (List Row) :=
  match v with
  | .list vs =>
    match rows? vs with
    | some rows => .ok rows
    | none => .error (.badShape .entity name)
  | _ => .error (.badShape .entity name)

def helperOf (name : String) (v : Value) : Except StoreError Row :=
  match v with
  | .object node => .ok node
  | _ => .error (.badShape .helper name)

end Source

/-- Lay a node's keys over a template: the node's win, but for the one that names the
template, which stays the template's own. -/
def overTemplate (template node : Row) : Row :=
  Dict.overlay template (node.filter (·.1 != "__helper__"))

/-- The template `name` under the keys of a node. -/
def Source.expand (src : Source) (name : String) (node : Row) : Except StoreError Row :=
  (src.helper name).map (overTemplate · node)

/-! ## Resources in memory -/

structure Memory where
  entities : Dict Value
  helpers : Dict Value

namespace Memory

def empty : Memory := ⟨[], []⟩

def insertEntity (m : Memory) (name : String) (v : Value) : Memory :=
  { m with entities := Dict.put m.entities name v }

def insertHelper (m : Memory) (name : String) (v : Value) : Memory :=
  { m with helpers := Dict.put m.helpers name v }

def entity (m : Memory) (name : String) : Except StoreError (List Row) :=
  match Dict.get? m.entities name with
  | some v => Source.entityOf name v
  | none => .error (.notFound .entity name)

def helper (m : Memory) (name : String) : Except StoreError Row :=
  match Dict.get? m.helpers name with
  | some v => Source.helperOf name v
  | none => .error (.notFound .helper name)

theorem helper_known (m : Memory) (name : String) (node : Row) (h : m.helper name = .ok node) :
    name ∈ Dict.keys m.helpers := by
  unfold helper at h
  split at h
  · rename_i v hv; exact Dict.mem_keys_of_get? hv
  · cases h

def source (m : Memory) : Source := ⟨m.entity, m.helper, Dict.keys m.helpers, m.helper_known⟩

end Memory

end MockSchema
