/-
  MockSchema.Program.Lines — input as lines of bytes, and the answers to lines of requests.

  A line ends with a line feed, which is not part of it, nor is one carriage return before
  it; the last line can do without. A blank line is no request. A line that is no text ends
  the answers, a line that is no JSON gets a response like any other.
-/

import MockSchema.Json.Reader
import MockSchema.Log
import MockSchema.Program.Failure
import MockSchema.Session

namespace MockSchema.Program

def lineFeed : UInt8 := 10

def carriageReturn : UInt8 := 13

def splitLines : List UInt8 → List (List UInt8)
  | [] => []
  | b :: bs =>
    if b = lineFeed then [] :: splitLines bs
    else match splitLines bs with
      | [] => [[b]]
      | l :: ls => (b :: l) :: ls

/-- A line without a carriage return at its end. -/
def chomp (line : List UInt8) : List UInt8 :=
  if line.getLast? = some carriageReturn then line.dropLast else line

def decodeText? (bytes : List UInt8) : Option String := String.fromUTF8? ⟨bytes.toArray⟩

/-- A response and the event that it is. -/
structure Answer where
  response : Response
  event : Event

def rejection (message : String) : Answer := ⟨.badRequest message, .requestRejected⟩

/-- What a response to a request tells about it. -/
def eventOf (request : Value) (r : Response) : Event :=
  match Request.decode request, r with
  | .error _, _ => .requestRejected
  | .ok (.render ..), .ok _ => .renderComplete
  | .ok (.expand _), .ok _ => .exampleExpanded
  | .ok _, .error .. => .renderFailed

/-- Answer a text that should be a request. -/
def answerText (src : Source) (coerced : Bool) (s : String) (cursors : Cursors) :
    Answer × Cursors :=
  match Json.read s with
  | none => (rejection "JSON error: malformed text", cursors)
  | some request =>
    let (r, cursors) := Session.handle src coerced request cursors
    (⟨r, eventOf request r⟩, cursors)

/-- Answer the first line of an input; there has to be something in it. -/
def answerFirst (src : Source) (coerced : Bool) (input : List UInt8) : Except Failure Answer :=
  match decodeText? ((splitLines input).headD []) with
  | none => .error .badInput
  | some s =>
    if Text.isBlankText s then .ok (rejection "Empty input")
    else .ok (answerText src coerced s []).1

/-- Answer a line, unless it is blank. -/
def answerLine (src : Source) (coerced : Bool) (line : List UInt8) (cursors : Cursors) :
    Except Failure (Option Answer × Cursors) :=
  match decodeText? (chomp line) with
  | none => .error .badInput
  | some s =>
    if Text.isBlankText s then .ok (none, cursors)
    else
      let (a, cursors) := answerText src coerced s cursors
      .ok (some a, cursors)

/-- Answer lines as far as they are text. -/
def answerLines (src : Source) (coerced : Bool) : List (List UInt8) → Cursors →
    List Answer × Option Failure
  | [], _ => ([], none)
  | line :: lines, cursors =>
    match answerLine src coerced line cursors with
    | .error f => ([], some f)
    | .ok (a, cursors) =>
      let (as, f) := answerLines src coerced lines cursors
      (a.toList ++ as, f)

end MockSchema.Program
