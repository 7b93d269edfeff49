/-
  MockSchema.Expr.Index — elements, slices and members of values.

  An index from the end is negative. A slice clamps its bounds to the sequence and then takes
  every `step`-th position on the way from the first bound to the second, which it leaves out;
  a string counts by characters.
-/

import MockSchema.Expr.Display
import MockSchema.Expr.Error

namespace MockSchema.Index

/-! ## Positions -/

/-- The position that an index means in a sequence of `length` elements. -/
def position? (length : Nat) (i : Int) : Option Nat :=
  let i := if i < 0 then i + length else i
  if 0 ≤ i ∧ i < length then some i.toNat else none

/-- A bound counted from the end if negative, moved into `[low, high]`. -/
def clamp (length : Nat) (low high bound : Int) : Int :=
  max low (min high (if bound < 0 then bound + length else bound))

/-- `from, from + step, …` while below `stop`; `step` is positive. A position beyond the
largest integer ends the sequence. -/
def ascending (step stop : Int) : Nat → Int → List Nat
  | 0, _ => []
  | n + 1, i =>
    if i < stop then
      i.toNat :: if i + step ≤ largest then ascending step stop n (i + step) else []
    else []

/-- `from, from + step, …` while above `stop`; `step` is negative. -/
def descending (step stop : Int) : Nat → Int → List Nat
  | 0, _ => []
  | n + 1, i =>
    if stop < i then
      i.toNat :: if smallest ≤ i + step then descending step stop n (i + step) else []
    else []

/-- The positions of `[start:stop:step]`; there are none for step zero. -/
def positions? (length : Nat) (start stop step : Option Int) : Option (List Nat) :=
  let step := step.getD 1
  let n : Int := length
  if step = 0 then none
  else if 0 < step then
    let first := (start.map (clamp length 0 n)).getD 0
    let last := (stop.map (clamp length 0 n)).getD n
    some (ascending step last length first)
  else
    let first := (start.map (clamp length (-1) (n - 1))).getD (n - 1)
    let last := (stop.map (clamp length (-1) (n - 1))).getD (-1)
    some (descending step last length first)

/-! ## Elements -/

def sequenceIndex (kind : SequenceKind) (i : Value) : Except EvalError Int :=
  match i.int? with
  | some n => .ok n
  | none => .error (.badIndex kind i.typeName)

/-- The element of a sequence at an index. -/
def element {α : Type} (kind : SequenceKind) (xs : List α) (i : Value) : Except EvalError α := do
  let i ← sequenceIndex kind i
  match (position? xs.length i).bind (xs[·]?) with
  | some x => return x
  | none => throw (.outOfRange kind)

/-- The value of `target[i]`. -/
def get (target i : Value) : Except EvalError Value :=
  match target with
  | .list xs => element .list xs i
  | .str s => (element .string s.toList i).map fun c => .str (String.singleton c)
  | .object fields =>
    match i with
    | .str k =>
      match Dict.get? fields k with
      | some v => .ok v
      | none => .error (.missingKey k)
    | k => .error (.missingKey (Display.text k))
  | v => .error (.notSubscriptable v.typeName)

/-- The value of `target.name`. -/
def member (target : Value) (name : String) : Except EvalError Value :=
  match target with
  | .object fields =>
    match Dict.get? fields name with
    | some v => .ok v
    | none => .error (.noAttribute target.typeName name)
  | v => .error (.noAttribute v.typeName name)

/-! ## Slices -/

/-- A bound of a slice: an integer, or null if it is left out. -/
def bound (v : Value) : Except EvalError (Option Int) :=
  match v with
  | .null => .ok none
  | v =>
    match v.int? with
    | some n => .ok (some n)
    | none => .error .badBound

def pick {α : Type} (xs : List α) (start stop step : Option Int) : Except EvalError (List α) :=
  match positions? xs.length start stop step with
  | some ps => .ok (ps.filterMap (xs[·]?))
  | none => .error .zeroStep

/-- The value of `target[start:stop:step]`. -/
def slice (target start stop step : Value) : Except EvalError Value := do
  let start ← bound start
  let stop ← bound stop
  let step ← bound step
  match target with
  | .list xs => return .list (← pick xs start stop step)
  | .str s => return .str (String.ofList (← pick s.toList start stop step))
  | v => throw (.notSubscriptable v.typeName)

end MockSchema.Index
