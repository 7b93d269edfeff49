/-
  MockSchema.Expr.Call — the builtin functions, on evaluated arguments.

  `list`, `sorted`, `min`, `max` and `sum` run over the elements of a list, the characters of a
  string or the keys of a dictionary. `min` and `max` keep the first of equal candidates.
-/

import MockSchema.Decimal.Read
import MockSchema.Expr.Arith
import MockSchema.Expr.Display
import MockSchema.Order.Insertion
import MockSchema.Value.Order

namespace MockSchema.Builtin

open MockSchema.Arith (Result ofFloat ofInt ofNum)

/-! ## Arguments -/

def oneArgument (f : Builtin) : List Value → Except EvalError Value
  | [v] => .ok v
  | vs => .error (.notOneArgument f vs.length)

def optionalArgument (f : Builtin) : List Value → Except EvalError (Option Value)
  | [] => .ok none
  | [v] => .ok (some v)
  | vs => .error (.moreThanOneArgument f vs.length)

def oneOrTwoArguments (f : Builtin) : List Value → Except EvalError (Value × Option Value)
  | [v] => .ok (v, none)
  | [v, w] => .ok (v, some w)
  | vs => .error (.notOneOrTwoArguments f vs.length)

def iterate (v : Value) : Except EvalError (List Value) :=
  match v with
  | .list xs => .ok xs
  | .str s => .ok (s.toList.map fun c => .str (String.singleton c))
  | .object fields => .ok ((Dict.keys fields).map .str)
  | v => .error (.notIterable v.typeName)

/-! ## Numbers -/

/-- The integer part of a float that is a whole number in range. -/
def wholeToInt (x : Float) : Result :=
  if x < Float.ofInt smallest || Float.ofInt largest ≤ x then .error .overflow
  else .ok (.int x.toInt64.toInt)

def toInt (v : Value) : Result :=
  match v with
  | .str s =>
    match Decimal.integer? ((Text.trim s.toList).filter (· != '_')) with
    | some n => if InRange n then .ok (.int n) else .error (.badIntText s)
    | none => .error (.badIntText s)
  | v =>
    match v.num? with
    | some (.int n) => .ok (.int n)
    | some (.float x) => wholeToInt (Decimal.trunc x)
    | none => .error (.badIntArgument v.typeName)

def toFloat (v : Value) : Result :=
  match v with
  | .str s =>
    match Decimal.float? (Text.trim s.toList) with
    | some x => ofFloat x
    | none => .error (.badFloatText s)
  | v =>
    match v.num? with
    | some n => ofFloat n.toFloat
    | none => .error (.badFloatArgument v.typeName)

def absolute (v : Value) : Result :=
  match v.num? with
  | some (.int n) => ofInt n.natAbs
  | some (.float x) => ofFloat x.abs
  | none => .error (.noAbsolute v.typeName)

/-- The number of places that `round` is given; null counts as none. -/
def places (digits : Option Value) : Except EvalError (Option Int) :=
  match digits with
  | none => .ok none
  | some .null => .ok none
  | some d =>
    match d.int? with
    | some n => .ok (some n)
    | none => .error .badDigits

/-- Rounded at a decimal place; more than 308 places either way are as good as 308. -/
def roundAt (x : Float) (d : Int) : Result :=
  let scale := Decimal.powerOfTen (if d < -308 then -308 else if 308 < d then 308 else d)
  ofFloat (Decimal.roundHalfEven (x * scale) / scale)

def rounded (v : Value) (digits : Option Value) : Result :=
  match v.num? with
  | none => .error (.notRoundable v.typeName)
  | some n => do
    match n, ← places digits with
    | .int n, _ => return .int n
    | .float x, none => wholeToInt (Decimal.roundHalfEven x)
    | .float x, some d => roundAt x d

/-! ## Collections -/

def length (v : Value) : Result :=
  match v with
  | .str s => .ok (.int s.length)
  | .list xs => .ok (.int xs.length)
  | .object fields => .ok (.int fields.length)
  | v => .error (.noLength v.typeName)

def sortValues (xs : List Value) : Except EvalError (List Value) := Order.sort Value.order xs

/-- The first candidate that no later one is `side` of. -/
def extreme (side : Ordering) (best : Value) (vs : List Value) : Result :=
  vs.foldlM (fun best v => do return if (← Value.order v best) == side then v else best) best

def candidates (f : Builtin) : List Value → Except EvalError (List Value)
  | [] => .error (.noArgument f)
  | [v] => iterate v
  | vs => .ok vs

def extremeOf (f : Builtin) (side : Ordering) (args : List Value) : Result := do
  match ← candidates f args with
  | [] => throw (.emptySequence f)
  | v :: vs => extreme side v vs

def total (v : Value) (start : Option Value) : Result := do
  let xs ← iterate v
  match start.getD (.int 0) with
  | .str _ => throw .sumOfStrings
  | s => xs.foldlM (Arith.binary .add) s

def call (f : Builtin) (args : List Value) : Result :=
  match f with
  | len => do length (← oneArgument f args)
  | str => do
    match ← optionalArgument f args with
    | some v => return .str (Display.text v)
    | none => return .str ""
  | int => do toInt (← oneArgument f args)
  | float => do toFloat (← oneArgument f args)
  | bool => do
    match ← optionalArgument f args with
    | some v => return .bool v.truthy
    | none => return .bool false
  | abs => do absolute (← oneArgument f args)
  | min => extremeOf f .lt args
  | max => extremeOf f .gt args
  | sum => do
    let (v, start) ← oneOrTwoArguments f args
    total v start
  | round => do
    let (v, digits) ← oneOrTwoArguments f args
    rounded v digits
  | sorted => do
    let xs ← iterate (← oneArgument f args)
    return .list (← sortValues xs)
  | list => do
    match ← optionalArgument f args with
    | some v => return .list (← iterate v)
    | none => return .list []

end MockSchema.Builtin
