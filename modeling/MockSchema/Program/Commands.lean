/-
  MockSchema.Program.Commands — what the commands do, as steps on a `World`: the files, and
  what the run has written, changed and reported so far.

  A run that fails keeps all it did before.
-/

import MockSchema.Config.Read
import MockSchema.Program.Arguments
import MockSchema.Program.Lines

namespace MockSchema.Program

/-- A change of the files. -/
inductive Change where
  | write (path content : String)
  | makeDirs (path : String)

namespace Change

def failure : Change → Failure
  | write _ _ => .unwritableConfig
  | makeDirs path => .cannotMakeDir path

/-- The files after a change, which can stop half way, and whether it was made. -/
def apply (d : Disk) : Change → Disk × Bool
  | write path content =>
    match d.write? path content.toUTF8 with
    | some d => (d, true)
    | none => (d, false)
  | makeDirs path => d.makeDirs path

end Change

structure World where
  disk : Disk
  /-- The rest is in the order in which it came about. -/
  changes : List Change
  out : List Response
  events : List Event

def World.ofDisk (d : Disk) : World := ⟨d, [], [], []⟩

abbrev Run := EStateM Failure World

namespace Run

def disk : Run Disk := return (← get).disk

def change (c : Change) : Run Unit := do
  let w ← get
  let (d, made) := c.apply w.disk
  set { w with disk := d, changes := w.changes ++ [c] }
  if !made then throw c.failure

def respond (r : Response) : Run Unit := modify fun w => { w with out := w.out ++ [r] }

def note (e : Event) : Run Unit := modify fun w => { w with events := w.events ++ [e] }

def answer (as : List Answer) : Run Unit := modify fun w =>
  { w with
    out := w.out ++ as.map (·.response)
    events := w.events ++ as.flatMap fun a => [.requestReceived, a.event] }

/-- Input that is no text was received, but there is no request in it. -/
def reject (f : Failure) : Run Unit := do
  note .requestReceived
  throw f

end Run

open Run

/-! ## Configuration -/

/-- The settings in a file. -/
def loadConfig (d : Disk) (path : String) : Except Failure Config :=
  match d.readText path with
  | .error why => .error (.unreadableConfig why)
  | .ok s =>
    match Config.ofText? s with
    | none => .error .malformedConfig
    | some c =>
      match c.check with
      | .error fault => .error (.badConfig fault)
      | .ok _ => .ok c

/-- The configuration for a place where there is none: data next to it. -/
def defaultConfigAt (path : String) : Config :=
  match Path.parent? path with
  | some parent => .withDataDir (Path.join parent "data")
  | none => .withDataDir "data"

/-- Write a default configuration unless something is there; tells whether it was written. -/
def writeDefaultConfig (path : String) : Run Bool := do
  if (← disk).exists? path then return false
  change (.write path (defaultConfigAt path).text)
  return true

def prepare (path : String) : Run Config := do
  match loadConfig (← disk) path with
  | .error f => throw f
  | .ok c =>
    note .configLoaded
    return c

/-! ## Commands -/

def makeDataDirs (c : Config) (created : Bool) : Run Unit := do
  if c.isReady (← disk) then throw .alreadyInitialized
  change (.makeDirs c.entityPath)
  change (.makeDirs c.helperPath)
  note .initialized
  respond <| .ok <| .object
    [("initialized", .bool true), ("config_created", .bool created), ("data_dir", .str c.dataDir)]

/-- The resources, if their directories exist. -/
def resources (c : Config) : Run Source := do
  let d ← disk
  if !c.isReady d then throw .notInitialized
  return (c.folder d).source

/-- Answer the first line of the input. -/
def evalInput (c : Config) (input : List UInt8) : Run Unit := do
  match answerFirst (← resources c) c.coerceParams input with
  | .error f => reject f
  | .ok a => answer [a]

/-- Answer all lines of the input in a session of their own. -/
def serveInput (c : Config) (input : List UInt8) : Run Unit := do
  let src ← resources c
  note .serving
  let (answers, failure) := answerLines src c.coerceParams (splitLines input) []
  answer answers
  match failure with
  | some f => reject f
  | none => note .shutdownComplete

def run (call : Call) (input : List UInt8) : Run Unit := do
  match call.command with
  | .setUp =>
    let created ← writeDefaultConfig call.config
    makeDataDirs (← prepare call.config) created
  | .answerOne => evalInput (← prepare call.config) input
  | .serve => serveInput (← prepare call.config) input

end MockSchema.Program
