/-
  MockSchema.Decimal.Shortest — the shortest decimal that reads back as a given float.

  A positive finite float is m · 2^q. The reals that round to it form an interval: half a
  unit to either side, a quarter below where the unit halves (m = 2^52), with its ends when m is
  even. `shortest` looks at the grids of decimals with 1, 2, … 17 digits, coarse to fine:
  on each grid only the two neighbours of the float matter, the first grid with one of them
  in the interval wins, and of two the nearer. A tie is settled by `Tie`.
-/

import MockSchema.Decimal.Binary

namespace MockSchema.Decimal

inductive Tie where
  | even
  | up

/-- The decimal `digits · 10^exponent`. -/
structure Digits where
  digits : Nat
  exponent : Int

def digitCount (n : Nat) : Nat := (Nat.toDigits 10 n).length

/-- The greatest `e` with `10^e ≤ n / d`, for positive `n` and `d`. -/
def magnitude (n d : Nat) : Int :=
  if d ≤ n then (digitCount (n / d) : Int) - 1
  else
    let e := digitCount d - digitCount n
    if d ≤ n * tenTo e then -(e : Int) else -(e : Int) - 1

/-- The neighbour of `m · 2^q` on the grid of multiples of `10^k` that reads back, if any. -/
def onGrid (tie : Tie) (m : Nat) (q k : Int) : Option Nat :=
  let a := twoTo (q - 2).toNat * tenTo (-k).toNat
  let b := twoTo (2 - q).toNat * tenTo k.toNat
  let below := if m == twoTo 52 && -1074 < q then 1 else 2
  let inside (d : Nat) : Bool :=
    if m % 2 == 0 then (4 * m - below) * a ≤ d * b && d * b ≤ (4 * m + 2) * a
    else (4 * m - below) * a < d * b && d * b < (4 * m + 2) * a
  let d := 4 * m * a / b
  let short := 4 * m * a - d * b
  let excess := (d + 1) * b - 4 * m * a
  match inside d, inside (d + 1) with
  | true, true =>
    if short < excess then some d
    else if excess < short then some (d + 1)
    else match tie with
      | .even => some (if d % 2 == 0 then d else d + 1)
      | .up => some (d + 1)
  | true, false => some d
  | false, true => some (d + 1)
  | false, false => none

def firstGrid (tie : Tie) (m : Nat) (q : Int) : Nat → Int → Digits
  | 0, k => ⟨m, k⟩
  | n + 1, k =>
    match onGrid tie m q k with
    | some d => ⟨d, k⟩
    | none => firstGrid tie m q n (k - 1)

/-- Move trailing zeros into the exponent. -/
def strip : Nat → Digits → Digits
  | 0, d => d
  | n + 1, d =>
    if d.digits % 10 == 0 && d.digits != 0 then strip n ⟨d.digits / 10, d.exponent + 1⟩ else d

/-- The shortest decimal that reads back as `m · 2^q`, `0 < m`; 17 digits always suffice. -/
def shortest (tie : Tie) (m : Nat) (q : Int) : Digits :=
  strip 20 (firstGrid tie m q 17 (magnitude (m * twoTo q.toNat) (twoTo (-q).toNat)))

end MockSchema.Decimal
