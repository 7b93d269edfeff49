/-
  MockSchema.Value.Order — equality, ordering and membership of values.

  Numbers are compared by size across truth values, integers and floats. Lists compare by their
  first elements that differ, and only numbers, strings and lists are ordered at all. Objects
  are equal when they have the same keys with equal values, in any order.
-/

import MockSchema.Expr.Error

namespace MockSchema

def Num.same : Num → Num → Bool
  | .int m, .int n => m == n
  | x, y => x.toFloat == y.toFloat

def Num.order : Num → Num → Ordering
  | .int m, .int n => compare m n
  | x, y => if x.toFloat < y.toFloat then .lt else if y.toFloat < x.toFloat then .gt else .eq

namespace Value

mutual

def same : Value → Value → Bool
  | null, null => true
  | str s, str t => s == t
  | list xs, list ys => sameAll xs ys
  | object f, object g => f.length == g.length && sameFields f g
  | a, b =>
    match a.num?, b.num? with
    | some x, some y => x.same y
    | _, _ => false

def sameAll : List Value → List Value → Bool
  | [], [] => true
  | x :: xs, y :: ys => same x y && sameAll xs ys
  | _, _ => false

/-- Every field of the first object is in the second, with an equal value. -/
def sameFields : List (String × Value) → List (String × Value) → Bool
  | [], _ => true
  | (k, v) :: f, g =>
    (match Dict.get? g k with
      | some w => same v w
      | none => false) && sameFields f g

end

mutual

def order : Value → Value → Except EvalError Ordering
  | str s, str t => .ok (compare s t)
  | list xs, list ys => orderAll xs ys
  | a, b =>
    match a.num?, b.num? with
    | some x, some y => .ok (x.order y)
    | _, _ => .error (.unordered "<" a.typeName b.typeName)

def orderAll : List Value → List Value → Except EvalError Ordering
  | [], [] => .ok .eq
  | [], _ :: _ => .ok .lt
  | _ :: _, [] => .ok .gt
  | x :: xs, y :: ys => if same x y then orderAll xs ys else order x y

end

/-- `is` holds between two nulls and between equal truth values only. -/
def identical : Value → Value → Bool
  | null, null => true
  | bool a, bool b => a == b
  | _, _ => false

/-- Is `t` a part of `s`? -/
def isPart (t : List Char) : List Char → Bool
  | [] => t.isEmpty
  | c :: s => t.isPrefixOf (c :: s) || isPart t s

def contains (container item : Value) : Except EvalError Bool :=
  match container with
  | list xs => .ok (xs.any fun v => same v item)
  | object fields =>
    match item with
    | str k => .ok (Dict.has fields k)
    | _ => .ok false
  | str s =>
    match item with
    | str t => .ok (isPart t.toList s.toList)
    | v => .error (.badNeedle v.typeName)
  | v => .error (.notContainer v.typeName)

/-- A test on the order of two values, failing in the name of `r`. -/
def ordered (r : Relation) (a b : Value) (test : Ordering → Bool) : Except EvalError Bool :=
  match order a b with
  | .ok o => .ok (test o)
  | .error _ => .error (.unordered r.symbol a.typeName b.typeName)

def holds (r : Relation) (a b : Value) : Except EvalError Bool :=
  match r with
  | .eq => .ok (same a b)
  | .ne => .ok (!same a b)
  | .lt => ordered r a b (· == .lt)
  | .le => ordered r a b (· != .gt)
  | .gt => ordered r a b (· == .gt)
  | .ge => ordered r a b (· != .lt)
  | .mem => contains b a
  | .notMem => (contains b a).map (!·)
  | .is => .ok (identical a b)
  | .isNot => .ok (!identical a b)

end Value

end MockSchema
