/-
  MockSchema.Json.Skip — passing over a JSON value that nobody will look at. Only its form
  counts: it can nest to any depth, its numbers can be of any size, and an escape in a string
  needs four hexadecimal digits but no character behind them.
-/

import MockSchema.Json.Reader

namespace MockSchema.Json

def skipString : Reader Unit
  | [] => none
  | '"' :: cs => some ((), cs)
  | '\\' :: 'u' :: a :: b :: c :: d :: cs =>
    if [a, b, c, d].all fun h => (Text.hexValue? h).isSome then skipString cs else none
  | '\\' :: c :: cs =>
    if ['"', '\\', '/', 'b', 'f', 'n', 'r', 't'].contains c then skipString cs else none
  | c :: cs => if c.toNat < 0x20 then none else skipString cs

def skipKey : Reader Unit
  | '"' :: cs => skipString cs
  | _ => none

def skipNumber : Reader Unit := fun cs => do
  let cs := match cs with
    | '-' :: r => r
    | _ => cs
  let (_, cs) ← wholePart cs
  let (_, cs) ← fractionPart cs
  let (_, cs) ← exponentPart cs
  return ((), cs)

/-- Pass over a value, given how the values inside it are passed over and a bound on their
number. -/
def skipOne (size : Nat) (item : Reader Unit) : Reader Unit
  | '[' :: cs =>
    match skipSpace cs with
    | ']' :: cs => some ((), cs)
    | cs => (elements item size cs).map fun (_, r) => ((), r)
  | '\x7b' :: cs =>
    match skipSpace cs with
    | '\x7d' :: cs => some ((), cs)
    | cs => (entries skipKey item size cs).map fun (_, r) => ((), r)
  | '"' :: cs => skipString cs
  | 'n' :: cs => (after ['u', 'l', 'l'] cs).map ((), ·)
  | 't' :: cs => (after ['r', 'u', 'e'] cs).map ((), ·)
  | 'f' :: cs => (after ['a', 'l', 's', 'e'] cs).map ((), ·)
  | cs => skipNumber cs

def skipWithin (size : Nat) : Nat → Reader Unit
  | 0 => fun _ => none
  | n + 1 => skipOne size (skipWithin size n)

/-- A value nests less deep than its text is long. -/
def skip : Reader Unit := fun cs => skipWithin cs.length (cs.length + 1) cs

end MockSchema.Json
