/-
  MockSchema.Schema.Error — what planning and rendering a schema node can fail with, and
  where: the trail of field keys from the outermost node to the failing key.
-/

import MockSchema.Expr.Error
import MockSchema.Store.Source

namespace MockSchema

/-- What is wrong with the build of a node, or with a value that a rule yields. -/
inductive StructureError where
  | notObject
  | badHelperName
  | helperCycle (chain : List String)
  | nameAndEntity
  | badBindingName
  | badEntityName
  | badFieldKey
  | noRules
  | badRule
  | notExpression
  | emptyExpression
  | badReverse
  | notStrings
  | onlyAndExcept
  | onlyAndRename
  | badName (entry : String)
  | badRename (entry : String)
  | badItem
  | nullIndex
  | badIndexCount (n : Nat)
  | rowNotObject (type : String)
  | badSplice (type : String)

def StructureError.text : StructureError → String
  | notObject => "schema node must be an object"
  | badHelperName => "expected a helper name"
  | helperCycle chain => "helper cycle (" ++ " -> ".intercalate chain ++ ")"
  | nameAndEntity => "__name__ and __from__ cannot both be defined"
  | badBindingName => "expected an identifier"
  | badEntityName => "expected \"alias:Entity\" or \"Entity\""
  | badFieldKey => "invalid field key"
  | noRules => "rule list must not be empty"
  | badRule => "rule must be an expression string or a schema node"
  | notExpression => "expected an expression string"
  | emptyExpression => "empty expression"
  | badReverse => "expected a boolean or an expression string"
  | notStrings => "expected a list of strings"
  | onlyAndExcept => "__only__ and __except__ cannot both be defined"
  | onlyAndRename => "__only__ and __rename__ cannot both be defined"
  | badName entry => "invalid name '" ++ entry ++ "'"
  | badRename entry => "expected \"outer:inner\", got '" ++ entry ++ "'"
  | badItem => "expected a list of integers or nulls"
  | nullIndex => "a single index cannot be null"
  | badIndexCount n => "expected 1 to 3 indices, got " ++ toString n
  | rowNotObject type => "current row must be an object, got " ++ type
  | badSplice type => "spliced value must be an object or null, got " ++ type ++ "; consider __item__"

inductive SchemaCause where
  | expression (e : ExprError)
  | node (e : StructureError)
  | store (e : StoreError)

namespace SchemaCause

def code : SchemaCause → String
  | expression (.malformed _) => "PQL_SYNTAX_ERROR"
  | expression (.failed _) => "PQL_RUNTIME_ERROR"
  | node _ => "PQL_STRUCTURE_ERROR"
  | store e => e.code

/-- Does the failure come from the node alone, whatever the data? -/
def isStructural : SchemaCause → Bool
  | expression (.malformed _) => true
  | node _ => true
  | _ => false

def reason : SchemaCause → String
  | expression e => e.message
  | node e => e.text
  | store e => e.message

end SchemaCause

structure SchemaError where
  cause : SchemaCause
  trail : List String

namespace SchemaError

/-- The keys of a trail, separated by slashes; an empty key at its end leaves no trace. -/
def pathOf : List String → String
  | [] => ""
  | k :: ks => if pathOf ks == "" then k else k ++ "/" ++ pathOf ks

def path (e : SchemaError) : String := pathOf e.trail

def message (e : SchemaError) : String := e.path ++ ": " ++ e.cause.reason

/-- The error as the node around it sees it, in whose field `key` it arose. -/
def inside (key : String) (e : SchemaError) : SchemaError := { e with trail := key :: e.trail }

end SchemaError

end MockSchema
