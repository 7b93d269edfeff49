/-
  MockSchema.Decimal.Binary — floats as binary numbers m · 2^q: taking a float apart, and the
  float nearest to a decimal.

  The floats next to a positive number lie on the grid of multiples of 2^q for which the number
  has 53 binary digits before the point, or on the finest grid, q = -1074. `nearest` rounds
  to that grid, a half to the even multiple; a multiple too large for a float is infinite.
-/

namespace MockSchema.Decimal

def twoTo (n : Nat) : Nat := Nat.pow 2 n

def tenTo (n : Nat) : Nat := Nat.pow 10 n

/-- `m · 2^q`, negated if `negative`. -/
structure Binary where
  negative : Bool
  m : Nat
  q : Int

/-- The exact value of a float; infinities and NaN have none. -/
def binary? (x : Float) : Option Binary :=
  let bits := x.toBits.toNat
  let negative := bits / twoTo 63 == 1
  let e : Nat := bits / twoTo 52 % twoTo 11
  let fraction : Nat := bits % twoTo 52
  if e == 0x7FF then none
  else if e == 0 then some ⟨negative, fraction, -1074⟩
  else some ⟨negative, twoTo 52 + fraction, Int.ofNat e - 1075⟩

/-- The natural number nearest to `n / d`, of two the even one. -/
def halfEven (n d : Nat) : Nat :=
  let k := n / d
  let r := n % d
  if 2 * r < d || (2 * r == d && k % 2 == 0) then k else k + 1

/-- The grid for `n / d`. The two logarithms leave 53 or 54 digits before the point. -/
def gridOf (n d : Nat) : Int :=
  let q := max ((n.log2 : Int) - d.log2 - 53) (-1074)
  if n * twoTo (-q).toNat < d * twoTo q.toNat * twoTo 53 then q else q + 1

def nearestQuotient (n d : Nat) : Float :=
  let q := gridOf n d
  (Float.ofNat (halfEven (n * twoTo (-q).toNat) (d * twoTo q.toNat))).scaleB q

/-- The float nearest to `m · 10^e`. Far outside the range of floats the answer is known
without computing the power. -/
def nearest (m : Nat) (e : Int) : Float :=
  if m = 0 then 0
  else
    let size := ((Nat.toDigits 10 m).length : Int) + e
    if 310 < size then 1 / 0
    else if size < -325 then 0
    else nearestQuotient (m * tenTo e.toNat) (tenTo (-e).toNat)

end MockSchema.Decimal
