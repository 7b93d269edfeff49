/-
  MockSchema.Schema.Planning — from a schema node to its plan.

  Everything about a node is checked before a row is looked at, its fields first and in
  their order. A node that names a helper is planned as the helper's template with the node's
  keys laid over it. `Names` holds the helpers that are open around a node; naming one of
  them again is a cycle. Each expansion opens another helper of the source, so `planWithin`
  recurses on how many of them are left, and within one expansion on the node.

  Texts are compiled through a cache, which keeps what was compiled before a failure.
-/

import MockSchema.Schema.Error
import MockSchema.Schema.Plan

namespace MockSchema.Planning

/-- A step of planning: it may fail, and the cache is kept even so. -/
abbrev Planner := ExceptT SchemaError (StateM Cache)

def malformed {α : Type} (key : String) (e : StructureError) : Planner α :=
  throw ⟨.node e, [key]⟩

/-- The outcome of a check at a key. -/
def check {α : Type} (key : String) (r : Except StructureError α) : Planner α :=
  match r with
  | .ok a => return a
  | .error e => malformed key e

def compile (key source : String) : Planner Formula := do
  let cache ← get
  let (r, cache) := cache.compile source
  set cache
  match r with
  | .ok f => return f
  | .error e => throw ⟨.expression (.malformed e), [key]⟩

def expression (key : String) (v : Value) : Planner Formula :=
  match v with
  | .str source => if Text.isBlankText source then malformed key .emptyExpression else compile key source
  | _ => malformed key .notExpression

/-! ## Keywords -/

def binding (node : Row) : Planner Binding :=
  match Dict.get? node Keyword.name, Dict.get? node Keyword.entity with
  | some _, some _ => malformed Keyword.name .nameAndEntity
  | some (.str n), none =>
    if isName n then return .name n else malformed Keyword.name .badBindingName
  | some _, none => malformed Keyword.name .badBindingName
  | none, some (.str s) =>
    match NamePair.ofText? s with
    | some p => return .entity p.outer p.inner
    | none => malformed Keyword.entity .badEntityName
  | none, some _ => malformed Keyword.entity .badEntityName
  | none, none => return .fresh

def optionalExpression (node : Row) (key : String) : Planner (Option Formula) :=
  match Dict.get? node key with
  | some v => some <$> expression key v
  | none => return none

def reverse (node : Row) : Planner (Option Reverse) :=
  match Dict.get? node Keyword.reverse with
  | none => return none
  | some (.bool b) => return some (.flag b)
  | some (.str s) => (some ∘ .formula) <$> expression Keyword.reverse (.str s)
  | some _ => malformed Keyword.reverse .badReverse

def strings? : List Value → Option (List String)
  | [] => some []
  | .str s :: vs => (strings? vs).map (s :: ·)
  | _ :: _ => none

/-- The strings listed under a key, if the node has it. -/
def stringList (node : Row) (key : String) : Planner (Option (List String)) :=
  match Dict.get? node key with
  | none => return none
  | some (.list vs) =>
    match strings? vs with
    | some ss => return some ss
    | none => malformed key .notStrings
  | some _ => malformed key .notStrings

def namePairs : List String → Except StructureError (List NamePair)
  | [] => .ok []
  | s :: ss => do
    match NamePair.ofText? s with
    | some p => return p :: (← namePairs ss)
    | none => throw (.badName s)

/-- Pairs that have both names. -/
def renamePairs : List String → Except StructureError (List NamePair)
  | [] => .ok []
  | s :: ss => do
    match NamePair.ofText? s with
    | some ⟨some outer, inner⟩ => return ⟨some outer, inner⟩ :: (← renamePairs ss)
    | _ => throw (.badRename s)

def exceptNames (ss : List String) : Except StructureError (List String) :=
  match ss.find? (!isName ·) with
  | some s => .error (.badName s)
  | none => .ok ss

def projection (node : Row) : Planner Projection := do
  let only ← stringList node Keyword.only
  let except ← stringList node Keyword.except
  let rename ← stringList node Keyword.rename
  match only with
  | some names =>
    if except.isSome then malformed Keyword.only .onlyAndExcept
    else if rename.isSome then malformed Keyword.only .onlyAndRename
    else do
      let pairs ← check Keyword.only (namePairs names)
      return ⟨.only (pairs.map (·.inner)), pairs.filter (·.outer.isSome)⟩
  | none => do
    let selection ← match except with
      | some names => .except <$> check Keyword.except (exceptNames names)
      | none => pure .all
    let renames ← check Keyword.rename (renamePairs (rename.getD []))
    return ⟨selection, renames⟩

/-- The indices of an item: integers that arithmetic knows, or null. -/
def indices? : List Value → Option (List (Option Int))
  | [] => some []
  | .null :: vs => (indices? vs).map (none :: ·)
  | .int n :: vs => if InRange n then (indices? vs).map (some n :: ·) else none
  | _ :: _ => none

def itemOf (v : Value) : Except StructureError Item :=
  match v with
  | .list vs =>
    match indices? vs with
    | none => .error .badItem
    | some [some i] => .ok (.index i)
    | some [none] => .error .nullIndex
    | some [start, stop] => .ok (.slice start stop none)
    | some [start, stop, step] => .ok (.slice start stop step)
    | some is => .error (.badIndexCount is.length)
  | _ => .error .badItem

def item (node : Row) : Planner (Option Item) :=
  match Dict.get? node Keyword.item with
  | some v => some <$> check Keyword.item (itemOf v)
  | none => return none

/-! ## Nodes -/

/-- A failure of a nested node, as its field sees it. -/
def inside {α : Type} (key : String) (p : Planner α) : Planner α :=
  tryCatch p fun e => throw (e.inside key)

/-- The plan of a node whose fields are planned already: the keywords after the binding. -/
def frame (node : Row) (b : Binding) : Planner Frame := do
  let filter ← optionalExpression node Keyword.filter
  let sort ← optionalExpression node Keyword.sort
  let rev ← reverse node
  let proj ← projection node
  let it ← item node
  return ⟨b, filter, sort, rev, proj, it⟩

def targetOf (key : String) : Planner Target :=
  match Target.ofKey? key with
  | some t => return t
  | none => malformed key .badFieldKey

variable (expand : Value → Row → Planner Plan)

mutual

/-- Plan a rule; `expand` plans a nested node that names a helper. -/
def planRule (key : String) : Value → Planner Rule
  | .str s => .formula <$> expression key (.str s)
  | .object node => inside key do
    match Dict.get? node Keyword.helper with
    | some helper => .node <$> expand helper node
    | none => do
      let b ← binding node
      let fields ← planFields node
      return .node (.mk (← frame node b) fields)
  | _ => malformed key .badRule
  termination_by structural v => v

def planRules (key : String) : List Value → Planner (List Rule)
  | [] => return []
  | v :: vs => do
    let r ← planRule key v
    return r :: (← planRules key vs)
  termination_by structural vs => vs

/-- A field has one rule, or a list of at least one. -/
def planFields : List (String × Value) → Planner (List Field)
  | [] => return []
  | (key, v) :: fields => do
    if isKeyword key then planFields fields
    else do
      let target ← targetOf key
      let rules ← match v with
        | .list [] => malformed key .noRules
        | .list vs => planRules key vs
        | v => (fun r => [r]) <$> planRule key v
      return .mk key target rules :: (← planFields fields)
  termination_by structural fields => fields

end

/-- The plan of a node, given how nodes that name a helper are planned. -/
def planNode (node : Row) : Planner Plan := do
  match Dict.get? node Keyword.helper with
  | some helper => expand helper node
  | none => do
    let b ← binding node
    let fields ← planFields expand node
    return .mk (← frame node b) fields

/-! ## Helpers -/

/-- The helpers that are open around a node, outermost first. -/
abbrev Names := List String

/-- Plan a node that names a helper: `next` plans the template under the node's keys. -/
def expandHelper (src : Source) (next : Names → Row → Planner Plan) (opened : Names)
    (helper : Value) (node : Row) : Planner Plan :=
  match helper with
  | .str name =>
    if opened.contains name then malformed Keyword.helper (.helperCycle (opened ++ [name]))
    else
      match src.expand name node with
      | .ok merged => next (opened ++ [name]) merged
      | .error e => throw ⟨.store e, [Keyword.helper]⟩
  | _ => malformed Keyword.helper .badHelperName

/-- Plan a node with at most `n` expansions inside one another. -/
def planWithin (src : Source) : Nat → Names → Row → Planner Plan
  | 0, opened, node =>
    planNode (expandHelper src
      (fun opened _ => malformed Keyword.helper (.helperCycle opened)) opened) node
  | n + 1, opened, node => planNode (expandHelper src (planWithin src n) opened) node

/-- The plan of a value, which has to be a node. -/
def plan (src : Source) (v : Value) : Planner Plan :=
  match v with
  | .object node => planWithin src src.helperNames.length [] node
  | _ => throw ⟨.node .notObject, []⟩

end MockSchema.Planning
