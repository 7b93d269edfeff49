/-
  MockSchema.Json.Reader — reading JSON text strictly: no comments, nothing after the value,
  no raw control characters and no lone surrogates in strings, and no more nesting of arrays
  and objects than `levels`. A key given twice keeps its first place and its last value.

  A number without point and exponent that fits 64 bits is an integer, but `-0` is a float;
  every other number is a float, and one beyond the range of floats is refused. A float is
  computed from the digits that fit 64 bits and a power of ten (`float`); for up to 15 digits
  and powers up to 22 that is the nearest float.

  Each reader takes the text that is left and returns what it read with the rest.
-/

import MockSchema.Value.Basic
import MockSchema.Decimal.Read

namespace MockSchema.Json

open MockSchema.Text MockSchema.Decimal

abbrev Reader (α : Type) := List Char → Option (α × List Char)

def isSpace (c : Char) : Bool := c == ' ' || c == '\n' || c == '\t' || c == '\r'

def skipSpace (cs : List Char) : List Char := cs.dropWhile isSpace

/-- The rest after `word`, if the text begins with it. -/
def after : List Char → List Char → Option (List Char)
  | [], cs => some cs
  | _ :: _, [] => none
  | w :: ws, c :: cs => if w = c then after ws cs else none

/-! ## Strings -/

def hex4 : Reader Nat
  | a :: b :: c :: d :: cs => do
    let a ← hexValue? a
    let b ← hexValue? b
    let c ← hexValue? c
    let d ← hexValue? d
    return (((a * 16 + b) * 16 + c) * 16 + d, cs)
  | _ => none

/-- What follows `\u`: one unit, or a leading surrogate and its escaped partner. -/
def unicodeEscape : Reader Char := fun cs => do
  let (n, cs) ← hex4 cs
  if 0xDC00 ≤ n && n < 0xE000 then none
  else if 0xD800 ≤ n && n < 0xDC00 then
    let cs ← after ['\\', 'u'] cs
    let (m, cs) ← hex4 cs
    if 0xDC00 ≤ m && m < 0xE000 then
      return (Char.ofNat (0x10000 + (n - 0xD800) * 0x400 + (m - 0xDC00)), cs)
    else none
  else return (Char.ofNat n, cs)

/-- What follows a backslash. -/
def escaped : Reader Char
  | '"' :: cs => some ('"', cs)
  | '\\' :: cs => some ('\\', cs)
  | '/' :: cs => some ('/', cs)
  | 'b' :: cs => some ('\x08', cs)
  | 'f' :: cs => some ('\x0c', cs)
  | 'n' :: cs => some ('\n', cs)
  | 'r' :: cs => some ('\r', cs)
  | 't' :: cs => some ('\t', cs)
  | 'u' :: cs => unicodeEscape cs
  | _ => none

/-- What stands before the closing quote, which no backslash precedes; `done` holds what was
read, last first. -/
def quoted (done : List Char) : Reader (List Char)
  | [] => none
  | '"' :: cs => some (done.reverse, cs)
  | '\\' :: c :: cs => quoted (c :: '\\' :: done) cs
  | c :: cs => quoted (c :: done) cs

/-- The characters that a text between quotes means; as many steps as it has characters are
enough. -/
def meant : Nat → List Char → List Char → Option (List Char)
  | _, done, [] => some done.reverse
  | 0, _, _ :: _ => none
  | n + 1, done, '\\' :: cs => do
    let (c, cs) ← escaped cs
    meant n (c :: done) cs
  | n + 1, done, c :: cs => if c.toNat < 0x20 then none else meant n (c :: done) cs

def string : Reader String
  | '"' :: cs => do
    let (inner, cs) ← quoted [] cs
    return (String.ofList (← meant inner.length [] inner), cs)
  | _ => none

/-! ## Numbers -/

/-- Digits without a leading zero, or a single zero. -/
def wholePart (cs : List Char) : Option (List Char × List Char) :=
  match cs with
  | '0' :: c :: r => if isDigit c then none else some (['0'], c :: r)
  | _ =>
    let ds := cs.takeWhile isDigit
    if ds.isEmpty then none else some (ds, cs.dropWhile isDigit)

def someDigits (cs : List Char) : Option (List Char × List Char) :=
  let ds := cs.takeWhile isDigit
  if ds.isEmpty then none else some (ds, cs.dropWhile isDigit)

def fractionPart : List Char → Option (Option (List Char) × List Char)
  | '.' :: cs => (someDigits cs).map fun (ds, r) => (some ds, r)
  | cs => some (none, cs)

def exponentPart (cs : List Char) : Option (Option Int × List Char) :=
  match cs with
  | [] => some (none, cs)
  | c :: r =>
    if c == 'e' || c == 'E' then
      let (negative, r) := sign r
      (someDigits r).map fun (ds, r) =>
        (some (if negative then -(natOfDigits ds : Int) else natOfDigits ds), r)
    else some (none, cs)

/-- Digits after `n`, as long as the number fits 64 bits, and the digits that are left. -/
def significand (n : Nat) : List Char → Nat × List Char
  | [] => (n, [])
  | c :: cs =>
    let m := 10 * n + digitValue c
    if m < 0x10000000000000000 then significand m cs else (n, c :: cs)

/-- The float `m · 10^e`, by a multiplication or a division of floats: of two roundings, one
for the power of ten and one for the result. Only what is finite counts. -/
def scaled (m : Nat) (e : Int) : Option Float :=
  let x := Float.ofNat m
  if m = 0 then some 0
  else if 308 < e then none
  else if 0 ≤ e then
    let y := x * nearest 1 e
    if y.isFinite then some y else none
  else if -308 ≤ e then some (x / nearest 1 (-e))
  else if -616 ≤ e then some (x / nearest 1 308 / nearest 1 (-e - 308))
  else some 0

/-- A number with a point, an exponent or more than 64 bits. Digits behind those that fit are
dropped: in the whole part they count as zeros. -/
def float (whole fraction : List Char) (exponent : Int) : Option Float :=
  let (m, left) := significand 0 whole
  let (m, dropped) := significand m fraction
  scaled m (exponent + left.length - (fraction.length - dropped.length))

def number : Reader Value := fun cs => do
  let (negative, cs) := match cs with
    | '-' :: r => (true, r)
    | _ => (false, cs)
  let (whole, cs) ← wholePart cs
  let (fraction, cs) ← fractionPart cs
  let (exponent, cs) ← exponentPart cs
  let n := natOfDigits whole
  if fraction.isNone && exponent.isNone && negative && n != 0 && n ≤ 0x8000000000000000 then
    return (.int (-(n : Int)), cs)
  else if fraction.isNone && exponent.isNone && !negative && n < 0x10000000000000000 then
    return (.int n, cs)
  else
    let x ← float whole (fraction.getD []) (exponent.getD 0)
    return (.float (if negative then -x else x), cs)

/-! ## Values -/

variable {α κ : Type}

/-- The elements of an array after its `[` and a first look for `]`; the first argument bounds
their number. -/
def elements (item : Reader α) : Nat → Reader (List α)
  | 0, _ => none
  | n + 1, cs => do
    let (v, cs) ← item (skipSpace cs)
    match skipSpace cs with
    | ',' :: cs => do
      let (vs, cs) ← elements item n cs
      return (v :: vs, cs)
    | ']' :: cs => return ([v], cs)
    | _ => none

def entries (key : Reader κ) (item : Reader α) : Nat → Reader (List (κ × α))
  | 0, _ => none
  | n + 1, cs => do
    let (k, cs) ← key (skipSpace cs)
    let cs ← after [':'] (skipSpace cs)
    let (v, cs) ← item (skipSpace cs)
    match skipSpace cs with
    | ',' :: cs => do
      let (kvs, cs) ← entries key item n cs
      return ((k, v) :: kvs, cs)
    | '\x7d' :: cs => return ([(k, v)], cs)
    | _ => none

def array (size : Nat) (item : Reader Value) (cs : List Char) : Option (Value × List Char) :=
  match skipSpace cs with
  | ']' :: cs => some (.list [], cs)
  | cs => (elements item size cs).map fun (vs, r) => (.list vs, r)

def object (size : Nat) (item : Reader Value) (cs : List Char) : Option (Value × List Char) :=
  match skipSpace cs with
  | '\x7d' :: cs => some (.object [], cs)
  | cs => (entries string item size cs).map fun (kvs, r) => (.object (Dict.ofList kvs), r)

/-- A value, given how the values inside it are read and a bound on their number. -/
def one (size : Nat) (item : Reader Value) : Reader Value
  | '[' :: cs => array size item cs
  | '\x7b' :: cs => object size item cs
  | '"' :: cs => (string ('"' :: cs)).map fun (s, r) => (.str s, r)
  | 'n' :: cs => (after ['u', 'l', 'l'] cs).map (.null, ·)
  | 't' :: cs => (after ['r', 'u', 'e'] cs).map (.bool true, ·)
  | 'f' :: cs => (after ['a', 'l', 's', 'e'] cs).map (.bool false, ·)
  | cs => number cs

/-- A value nested less than `levels` deep. -/
def value (size : Nat) : Nat → Reader Value
  | 0 => fun cs =>
    match cs with
    | '[' :: _ => none
    | '\x7b' :: _ => none
    | _ => one size (fun _ => none) cs
  | n + 1 => one size (value size n)

/-- Arrays and objects may nest this deep in a text. -/
def levels : Nat := 127

def readWithin (levels : Nat) (s : String) : Option Value :=
  let cs := s.toList
  match value cs.length levels (skipSpace cs) with
  | some (v, rest) => if (skipSpace rest).isEmpty then some v else none
  | none => none

def read (s : String) : Option Value := readWithin levels s

end MockSchema.Json
