/-
  MockSchema.Decimal.Notation — how a float is written. Both layouts use the shortest digits
  that read back.

  `valueText` is the text of a float inside a value: positional from 10^-5 up to below 10^16,
  always with a point, and otherwise scientific with the exponent's sign written. An exact
  tie between two shortest texts goes to the even digit.
  `plainText` is the text of a float in an error message: always positional and without a
  point when nothing follows it. There a tie goes up.
-/

import MockSchema.Decimal.Shortest

namespace MockSchema.Decimal

def zeros (n : Nat) : String := String.ofList (List.replicate n '0')

/-- The digits with the point at its place: `whole` follows an integer. -/
def positional (whole : String) (d : Digits) : String :=
  let ds := Nat.toDigits 10 d.digits
  let point := (ds.length : Int) + d.exponent
  if 0 ≤ d.exponent then String.ofList ds ++ zeros d.exponent.toNat ++ whole
  else if 0 < point then
    String.ofList (ds.take point.toNat) ++ "." ++ String.ofList (ds.drop point.toNat)
  else "0." ++ zeros (-point).toNat ++ String.ofList ds

def scientific (d : Digits) : String :=
  let ds := Nat.toDigits 10 d.digits
  let e := (ds.length : Int) + d.exponent - 1
  let mantissa :=
    if ds.length ≤ 1 then String.ofList ds
    else String.ofList (ds.take 1) ++ "." ++ String.ofList (ds.drop 1)
  mantissa ++ "e" ++ (if e < 0 then "-" else "+") ++ toString e.natAbs

def signed (negative : Bool) (text : String) : String := if negative then "-" ++ text else text

def valueText (x : Float) : String :=
  match binary? x with
  | none => "null"
  | some ⟨negative, 0, _⟩ => signed negative "0.0"
  | some ⟨negative, m, q⟩ =>
    let d := shortest .even m q
    let e := (digitCount d.digits : Int) + d.exponent - 1
    signed negative (if -5 ≤ e ∧ e ≤ 15 then positional ".0" d else scientific d)

def plainText (x : Float) : String :=
  match binary? x with
  | none => if x != x then "NaN" else if x < 0 then "-inf" else "inf"
  | some ⟨negative, 0, _⟩ => signed negative "0"
  | some ⟨negative, m, q⟩ => signed negative (positional "" (shortest .up m q))

end MockSchema.Decimal
