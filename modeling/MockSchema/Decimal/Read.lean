/-
  MockSchema.Decimal.Read — the numbers that a text spells: integers with an optional sign,
  and floats in the general grammar (sign; digits with a point among or around them; an
  exponent; or the words for infinity and NaN in any case).
-/

import MockSchema.Decimal.Binary
import MockSchema.Text.Class

namespace MockSchema.Decimal

open MockSchema.Text

def digitValue (c : Char) : Nat := c.toNat - '0'.toNat

def natOfDigits (ds : List Char) : Nat := ds.foldl (fun n c => 10 * n + digitValue c) 0

/-- The sign that a text may open with, and what follows it. -/
def sign : List Char → Bool × List Char
  | '-' :: cs => (true, cs)
  | '+' :: cs => (false, cs)
  | cs => (false, cs)

def allDigits (cs : List Char) : Bool := !cs.isEmpty && cs.all isDigit

/-- An integer: a sign at most, then digits only. -/
def integer? (cs : List Char) : Option Int :=
  let (negative, ds) := sign cs
  if allDigits ds then
    some (if negative then -(natOfDigits ds : Int) else natOfDigits ds)
  else none

/-- The exponent that ends a float: nothing, or `e` with an integer. -/
def exponent? : List Char → Option Int
  | [] => some 0
  | 'e' :: cs => integer? cs
  | 'E' :: cs => integer? cs
  | _ => none

def unsigned? (cs : List Char) : Option Float :=
  let whole := cs.takeWhile isDigit
  let (fraction, rest) :=
    match cs.dropWhile isDigit with
    | '.' :: r => (r.takeWhile isDigit, r.dropWhile isDigit)
    | r => ([], r)
  if whole.isEmpty && fraction.isEmpty then none
  else (exponent? rest).map fun e => nearest (natOfDigits (whole ++ fraction)) (e - fraction.length)

def float? (cs : List Char) : Option Float :=
  let (negative, r) := sign cs
  let magnitude :=
    match String.ofList (r.map Char.toLower) with
    | "inf" => some (1 / 0)
    | "infinity" => some (1 / 0)
    | "nan" => some (0 / 0)
    | _ => unsigned? r
  magnitude.map fun x => if negative then -x else x

end MockSchema.Decimal
