/-
  MockSchema.Expr.Eval — the value of an expression in a scope.

  Operands are evaluated from left to right and the first failure is the outcome. `and`, `or`,
  the choice and a chain of comparisons leave out what they do not need; each operand of a
  chain is evaluated once.
-/

import MockSchema.Expr.Call
import MockSchema.Expr.Index
import MockSchema.Expr.Parse

namespace MockSchema

/-- What each name stands for. -/
abbrev Scope := String → Option Value

/-- A dictionary from pairs whose keys have to be strings; a later pair replaces an earlier. -/
def Value.ofPairs (pairs : List (Value × Value)) : Except EvalError Value := do
  let fields ← pairs.foldlM (fun fields (k, v) =>
    match k with
    | .str k => .ok (Dict.put fields k v)
    | k => .error (.badDictKey k.typeName)) []
  return .object fields

namespace Expr

mutual

def eval (scope : Scope) : Expr → Except EvalError Value
  | .literal v => .ok v
  | .name n =>
    match scope n with
    | some v => .ok v
    | none => .error (.unbound n)
  | .list items => do
    return .list (← evalAll scope items)
  | .dict entries => do Value.ofPairs (← evalPairs scope entries)
  | .unary op e => do Arith.unary op (← eval scope e)
  | .binary op a b => do
    let a ← eval scope a
    let b ← eval scope b
    Arith.binary op a b
  | .and a b => do
    let a ← eval scope a
    if a.truthy then eval scope b else return a
  | .or a b => do
    let a ← eval scope a
    if a.truthy then return a else eval scope b
  | .compare first links => do
    let first ← eval scope first
    return .bool (← evalLinks scope first links)
  | .conditional c yes no => do
    let c ← eval scope c
    if c.truthy then eval scope yes else eval scope no
  | .index target i => do
    let target ← eval scope target
    let i ← eval scope i
    Index.get target i
  | .slice target start stop step => do
    let target ← eval scope target
    let start ← evalBound scope start
    let stop ← evalBound scope stop
    let step ← evalBound scope step
    Index.slice target start stop step
  | .member target n => do Index.member (← eval scope target) n
  | .call f args => do f.call (← evalAll scope args)
  termination_by structural e => e

def evalAll (scope : Scope) : List Expr → Except EvalError (List Value)
  | [] => .ok []
  | e :: es => do
    let v ← eval scope e
    return v :: (← evalAll scope es)
  termination_by structural es => es

def evalPairs (scope : Scope) : List (Expr × Expr) → Except EvalError (List (Value × Value))
  | [] => .ok []
  | (k, v) :: kvs => do
    let k ← eval scope k
    let v ← eval scope v
    return (k, v) :: (← evalPairs scope kvs)
  termination_by structural kvs => kvs

/-- Do all links hold, beginning with this operand? -/
def evalLinks (scope : Scope) (left : Value) : List (Relation × Expr) → Except EvalError Bool
  | [] => .ok true
  | (r, e) :: links => do
    let right ← eval scope e
    if ← left.holds r right then evalLinks scope right links else return false
  termination_by structural links => links

/-- An absent bound is null. -/
def evalBound (scope : Scope) : Option Expr → Except EvalError Value
  | none => .ok .null
  | some e => eval scope e
  termination_by structural e => e

end

end Expr

/-- A compiled expression with the text it came from. -/
structure Formula where
  source : String
  tree : Expr

namespace Formula

def compile (source : String) : Except SyntaxError Formula := do
  return ⟨source, ← Expr.parse source⟩

def eval (f : Formula) (scope : Scope) : Except EvalError Value := f.tree.eval scope

def test (f : Formula) (scope : Scope) : Except EvalError Bool := (f.eval scope).map Value.truthy

end Formula

/-! ## A cache of compiled expressions -/

/-- Compiled expressions by their texts. -/
abbrev Cache := Dict Formula

namespace Cache

/-- The compiled form of a text and the cache that knows it; a text that does not compile
leaves the cache as it is. -/
def compile (cache : Cache) (source : String) : Except SyntaxError Formula × Cache :=
  match Dict.get? cache source with
  | some f => (.ok f, cache)
  | none =>
    match Formula.compile source with
    | .ok f => (.ok f, Dict.put cache source f)
    | .error e => (.error e, cache)

end Cache

end MockSchema
