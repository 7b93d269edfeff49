/-
  MockSchema.Expr.Arith — arithmetic on values.

  Two integers stay integers, exactly, or the operation fails with `overflow`; a division by
  `/`, a negative power and a float on either side make the result a float, which has to be
  finite. Strings and lists can be concatenated and repeated.
-/

import MockSchema.Decimal.Rounding
import MockSchema.Expr.Error

namespace MockSchema.Arith

abbrev Result := Except EvalError Value

/-- No string and no list is repeated to more than this length. -/
def maxRepeatLength : Nat := 0x1000000

def ofFloat (x : Float) : Result := if x.isFinite then .ok (.float x) else .error .notFinite

def ofInt (n : Int) : Result := if InRange n then .ok (.int n) else .error .overflow

def ofNum : Num → Result
  | .int n => .ok (.int n)
  | .float x => ofFloat x

/-! ## Integers -/

/-- `a^e` if it is in range. A base beyond ±1 leaves the range at the 64th power at the latest,
and an exponent takes 32 bits at most. -/
def power (a : Int) (e : Nat) : Result :=
  if 0x100000000 ≤ e then .error .overflow
  else if a.natAbs ≤ 1 then .ok (.int (if e = 0 then 1 else if e % 2 = 0 then a * a else a))
  else if 64 ≤ e then .error .overflow
  else ofInt (a.pow e)

/-- The quotient leaves the range only for the smallest integer and -1; the remainder is
refused along with it. -/
def quotientFits (a b : Int) : Bool := !(a == smallest && b == -1)

def ints (op : BinaryOp) (a b : Int) : Result :=
  match op with
  | .add => ofInt (a + b)
  | .sub => ofInt (a - b)
  | .mul => ofInt (a * b)
  | .div =>
    if b = 0 then .error (.divisionByZero .int) else ofFloat (Float.ofInt a / Float.ofInt b)
  | .floorDiv =>
    if b = 0 then .error (.divisionByZero .intFloorOrMod)
    else if quotientFits a b then .ok (.int (a.fdiv b)) else .error .overflow
  | .mod =>
    if b = 0 then .error (.divisionByZero .intFloorOrMod)
    else if quotientFits a b then .ok (.int (a.fmod b)) else .error .overflow
  | .pow =>
    if 0 ≤ b then power a b.toNat
    else if a = 0 then .error (.divisionByZero .power)
    else ofFloat ((Float.ofInt a).pow (Float.ofInt b))

/-! ## Floats -/

/-- The remainder with the sign of the divisor. -/
def floorMod (a b : Float) : Float :=
  let r := Decimal.remainder a b
  if r != 0 && (r < 0) != (b < 0) then r + b else r

def floats (op : BinaryOp) (a b : Float) : Result :=
  match op with
  | .add => ofFloat (a + b)
  | .sub => ofFloat (a - b)
  | .mul => ofFloat (a * b)
  | .div => if b == 0 then .error (.divisionByZero .float) else ofFloat (a / b)
  | .floorDiv => if b == 0 then .error (.divisionByZero .floatFloor) else ofFloat (a / b).floor
  | .mod => if b == 0 then .error (.divisionByZero .floatMod) else ofFloat (floorMod a b)
  | .pow =>
    if a == 0 && b < 0 then .error (.divisionByZero .power)
    else
      let r := a.pow b
      if r.isNaN then .error .powerDomain else ofFloat r

def nums (op : BinaryOp) : Num → Num → Result
  | .int a, .int b => ints op a b
  | x, y => floats op x.toFloat y.toFloat

/-! ## Sequences -/

/-- How often `count` says to repeat something of this length; a negative number is zero. -/
def times (kind : SequenceKind) (length : Nat) (count : Value) : Except EvalError Nat :=
  match count.int? with
  | none => .error (.badRepeat count.typeName)
  | some n => if maxRepeatLength < length * n.toNat then .error (.repeatTooLong kind) else .ok n.toNat

def repeatString (s : String) (count : Value) : Result :=
  (times .string s.utf8ByteSize count).map fun n =>
    .str (if s.isEmpty then s else n.repeat (· ++ s) "")

def repeatList (xs : List Value) (count : Value) : Result :=
  (times .list xs.length count).map fun n =>
    .list (if xs.isEmpty then xs else n.repeat (xs ++ ·) [])

/-! ## Operators -/

def sequences (op : BinaryOp) (a b : Value) : Result :=
  match op, a, b with
  | .add, .str s, .str t => .ok (.str (s ++ t))
  | .add, .list xs, .list ys => .ok (.list (xs ++ ys))
  | .mul, .str s, n => repeatString s n
  | .mul, .list xs, n => repeatList xs n
  | .mul, n, .str s => repeatString s n
  | .mul, n, .list xs => repeatList xs n
  | _, _, _ => .error (.badBinary op a.typeName b.typeName)

def binary (op : BinaryOp) (a b : Value) : Result :=
  match a.num?, b.num? with
  | some x, some y => nums op x y
  | _, _ => sequences op a b

def unary (op : UnaryOp) (v : Value) : Result :=
  match op with
  | .not => .ok (.bool (!v.truthy))
  | .neg =>
    match v.num? with
    | some (.int n) => ofInt (-n)
    | some (.float x) => ofFloat (-x)
    | none => .error (.badUnary op.symbol v.typeName)
  | .pos =>
    match v.num? with
    | some n => ofNum n
    | none => .error (.badUnary op.symbol v.typeName)

end MockSchema.Arith
