/-
  MockSchema.Example.Expand — from a stored example to a response.

  A list in an example stands for one of its elements, in turn. A key `k[]` says how often the
  value under `k` is wanted: `false` or nothing for once, a count for a list of that many (in
  reverse if negative), `true` for the value as it is written, as a list, `null` for null, and
  a list of counts for one of them, in turn. At the root, `@` is left out, and the value under
  `$` replaces the whole.

  Each list draws by its location: the path of keys to it, with `~` and `/` in a key escaped.
  What was drawn before a failure stays drawn.
-/

import MockSchema.Example.Cursors
import MockSchema.Json.Writer

namespace MockSchema

/-- What is wrong with a repeat; values are given by their texts. -/
inductive RepeatCause where
  | notInteger (number : String)
  | tooLarge
  | badCount (value : String)
  | tooMany (count : Int)
  | unsupported (value : String)

/-- No value is repeated more often than this. -/
def maxRepeat : Nat := 10000

def RepeatCause.text : RepeatCause → String
  | notInteger number => number ++ " is not an integer"
  | tooLarge => "count too large"
  | badCount value => "count " ++ value ++ " must be null or a non-negative integer"
  | tooMany count => "count " ++ toString count ++ " exceeds " ++ toString maxRepeat
  | unsupported value => "unsupported repeat " ++ value

structure ExampleError where
  location : String
  cause : RepeatCause

namespace ExampleError

def code (_ : ExampleError) : String := "EXAMPLE_INVALID_REPEAT"

def message (e : ExampleError) : String :=
  "invalid repeat at '" ++ e.location ++ "': " ++ e.cause.text

end ExampleError

namespace Example

/-- A step of an expansion: it may fail, and the cursors are kept even so. -/
abbrev Expansion := ExceptT ExampleError (StateM Cursors)

/-! ## Locations -/

def escapeChar (c : Char) : List Char :=
  if c == '~' then ['~', '0'] else if c == '/' then ['~', '1'] else [c]

def escape (key : String) : String := String.ofList (key.toList.flatMap escapeChar)

/-- The location of `key` in the object at `location`. -/
def pointer (location key : String) : String := location ++ "/" ++ escape key

/-- The key that says how often the value under `key` is wanted. -/
def repeatKey (key : String) : String := key ++ "[]"

/-- Does a key say something about another key, or contain what could be taken for it? -/
def isAnnotation : List Char → Bool
  | '[' :: ']' :: _ => true
  | _ :: cs => isAnnotation cs
  | [] => false

/-! ## Draws -/

def draw (location : String) (length : Nat) : Expansion (Option Nat) := do
  let cursors ← get
  let (p, cursors) := cursors.advance location length
  set cursors
  return p

/-- The element of a list whose turn it is, or null. -/
def pick (xs : List Value) (location : String) : Expansion Value := do
  match (← draw location xs.length).bind (xs[·]?) with
  | some v => return v
  | none => return .null

/-! ## Repeats -/

def refuse {α : Type} (location : String) (cause : RepeatCause) : Expansion α :=
  throw ⟨location, cause⟩

/-- The values of `n` runs, the last first. -/
def runs (one : Expansion Value) : Nat → List Value → Expansion (List Value)
  | 0, done => return done
  | n + 1, done => do runs one n ((← one) :: done)

/-- As many values as `n` says, each by running `one`. -/
def count (one : Expansion Value) (n : Int) (repeatLocation : String) : Expansion Value := do
  if maxRepeat < n.natAbs then refuse repeatLocation (.tooMany n)
  else
    let vs ← runs one n.natAbs []
    return .list (if n < 0 then vs else vs.reverse)

/-- A count out of a list of counts. -/
def listedCount (one : Expansion Value) (v : Value) (repeatLocation : String) :
    Expansion Value :=
  match v with
  | .null => return .null
  | .int n =>
    if n < 0 then refuse repeatLocation (.badCount (Json.write v))
    else if InRange n then count one n repeatLocation
    else refuse repeatLocation .tooLarge
  | v => refuse repeatLocation (.badCount (Json.write v))

/-- The value that a repeat asks for, where `one` gives the value once. -/
def repeated (one : Expansion Value) (v how : Value) (repeatLocation : String) :
    Expansion Value :=
  match how with
  | .bool false => one
  | .bool true =>
    match v with
    | .list xs => return .list xs
    | v => return .list [v]
  | .null => return .null
  | .int n =>
    if InRange n then count one n repeatLocation
    else refuse repeatLocation (.notInteger (Json.write how))
  | .float x => refuse repeatLocation (.notInteger (Json.write (.float x)))
  | .list counts => do
    match (← draw repeatLocation counts.length).bind (counts[·]?) with
    | some v => listedCount one v repeatLocation
    | none => return .null
  | how => refuse repeatLocation (.unsupported (Json.write how))

/-! ## Values -/

mutual

def single (location : String) : Value → Expansion Value
  | .list xs => pick xs location
  | .object fields => do return .object (← entries location fields fields [])
  | v => return v
  termination_by structural v => v

/-- The expanded entries of an object, put into `done` in their order; `all` holds the object's
repeats. -/
def entries (location : String) (all : List (String × Value)) :
    List (String × Value) → Dict Value → Expansion (Dict Value)
  | [], done => return done
  | (key, v) :: fields, done => do
    if isAnnotation key.toList then entries location all fields done
    else
      let one := single (pointer location key) v
      let out ← match Dict.get? all (repeatKey key) with
        | some how => repeated one v how (pointer location (repeatKey key))
        | none => one
      entries location all fields (Dict.put done key out)
  termination_by structural fields => fields

end

/-- The root key that is left out. -/
def chainKey : String := "@"

/-- The root key whose value replaces the whole. -/
def unwrapKey : String := "$"

def withoutChain : Value → Value
  | .object fields => .object (fields.filter (·.1 != chainKey))
  | v => v

def unwrap : Value → Value
  | .object fields => (Dict.get? fields unwrapKey).getD (.object fields)
  | v => v

def expand (v : Value) : Expansion Value := do
  return unwrap (← single "" (withoutChain v))

/-- Expand a value at the root as if a repeat were given for it. -/
def expandWith (v how : Value) : Expansion Value := repeated (single "" v) v how "[]"

end Example

end MockSchema
