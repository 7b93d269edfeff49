/-
  MockSchema.Decimal.Rounding — the operations on finite floats that the float unit does not
  offer: the whole part, rounding a half to the even neighbour, powers of ten and the exact
  remainder of a division.
-/

import MockSchema.Decimal.Shortest

namespace MockSchema.Decimal

def trunc (x : Float) : Float := if x < 0 then x.ceil else x.floor

/-- The nearest whole number, a half going to the even neighbour. -/
def roundHalfEven (x : Float) : Float :=
  if (x - trunc x).abs == 0.5 then 2 * (x / 2).round else x.round

/-- `result · square^n` by squaring; the first argument bounds the number of binary digits of
the exponent. -/
def powerLoop : Nat → Nat → Float → Float → Float
  | 0, _, _, result => result
  | fuel + 1, n, square, result =>
    let result := if n % 2 == 1 then result * square else result
    if n / 2 == 0 then result else powerLoop fuel (n / 2) (square * square) result

/-- `10^d`; a negative power is the reciprocal of the positive one. -/
def powerOfTen (d : Int) : Float :=
  let p := powerLoop 16 d.natAbs 10 1
  if d < 0 then 1 / p else p

/-- What is left of `x` after taking away as many `y` as fit; it has the sign of `x`. -/
def remainder (x y : Float) : Float :=
  match binary? x, binary? y with
  | some a, some b =>
    if b.m == 0 then 0 / 0
    else
      let q := min a.q b.q
      let r := a.m * twoTo (a.q - q).toNat % (b.m * twoTo (b.q - q).toNat)
      let r := (Float.ofNat r).scaleB q
      if a.negative then -r else r
  | _, _ => 0 / 0

end MockSchema.Decimal
