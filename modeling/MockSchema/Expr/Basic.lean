/-
  MockSchema.Expr.Basic — the trees of the expression language and the spelling of its
  operators and builtin functions.

  An expression is a literal, a name, a display of a list or a dictionary, an operator, a
  chain of comparisons, a choice, a subscript, a slice, a member or a call of one of twelve
  builtins. Nothing else can be called, so a name is the only way to reach outside.
-/

import MockSchema.Value.Basic

namespace MockSchema

inductive UnaryOp where
  | not
  | neg
  | pos
  deriving DecidableEq, Repr

def UnaryOp.symbol : UnaryOp → String
  | not => "not"
  | neg => "-"
  | pos => "+"

inductive BinaryOp where
  | add
  | sub
  | mul
  | div
  | floorDiv
  | mod
  | pow
  deriving DecidableEq, Repr

def BinaryOp.symbol : BinaryOp → String
  | add => "+"
  | sub => "-"
  | mul => "*"
  | div => "/"
  | floorDiv => "//"
  | mod => "%"
  | pow => "**"

inductive Relation where
  | eq
  | ne
  | lt
  | le
  | gt
  | ge
  | mem
  | notMem
  | is
  | isNot
  deriving DecidableEq, Repr

def Relation.symbol : Relation → String
  | eq => "=="
  | ne => "!="
  | lt => "<"
  | le => "<="
  | gt => ">"
  | ge => ">="
  | mem => "in"
  | notMem => "not in"
  | is => "is"
  | isNot => "is not"

inductive Builtin where
  | len
  | str
  | int
  | float
  | bool
  | abs
  | min
  | max
  | sum
  | round
  | sorted
  | list
  deriving DecidableEq, Repr

namespace Builtin

def all : List Builtin := [len, str, int, float, bool, abs, min, max, sum, round, sorted, list]

def name : Builtin → String
  | len => "len"
  | str => "str"
  | int => "int"
  | float => "float"
  | bool => "bool"
  | abs => "abs"
  | min => "min"
  | max => "max"
  | sum => "sum"
  | round => "round"
  | sorted => "sorted"
  | list => "list"

def ofName? (s : String) : Option Builtin := all.find? (·.name == s)

end Builtin

inductive Expr where
  | literal (v : Value)
  | name (n : String)
  | list (items : List Expr)
  | dict (entries : List (Expr × Expr))
  | unary (op : UnaryOp) (e : Expr)
  | binary (op : BinaryOp) (a b : Expr)
  | and (a b : Expr)
  | or (a b : Expr)
  /-- A chain such as `a < b <= c`: the first operand, then each link. -/
  | compare (first : Expr) (links : List (Relation × Expr))
  /-- The value of `yes if c else no`. -/
  | conditional (c yes no : Expr)
  | index (target i : Expr)
  | slice (target : Expr) (start stop step : Option Expr)
  | member (target : Expr) (name : String)
  | call (f : Builtin) (args : List Expr)
  deriving Inhabited

end MockSchema
