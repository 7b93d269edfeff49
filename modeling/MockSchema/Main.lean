/-
  MockSchema.Main — the program. A command runs on a picture of the files it can need; what it
  changed there is then done to the files themselves. A serving program takes a new picture
  for every line, so it answers from the files as they are.
-/

import MockSchema.Program.Commands

namespace MockSchema.Program

/-! ## Pictures of the files -/

/-- Add what is at a path, without what is below a directory. What cannot be read blocks the
way as a directory does. -/
def see (d : Disk) (path : String) : IO Disk := do
  let p := System.mkFilePath [path]
  let asDir := (d.layDirs path (Path.components path)).1
  if ← p.isDir then return asDir
  if !(← p.pathExists) then return d
  try
    return (d.write? path (← IO.FS.readBinFile p)).getD d
  catch _ => return asDir

/-- Add what is on the way to a path as well. -/
partial def seeWay (d : Disk) (path : String) : IO Disk := do
  match Path.parent? path with
  | some parent => see (← seeWay d parent) path
  | none => see d path

/-- Add the files of a directory. -/
def seeFiles (d : Disk) (dir : String) : IO Disk := do
  let d ← seeWay d dir
  let p := System.mkFilePath [dir]
  if !(← p.isDir) then return d
  (← p.readDir).foldlM (fun d e => see d (Path.join dir e.fileName)) d

def seeNothing : IO Disk := do
  let here := toString (← IO.currentDir)
  return (Disk.makeDirs ⟨.dir [], Path.components here⟩ here).1

def seeResources (d : Disk) (c : Config) : IO Disk := do
  seeFiles (← seeFiles d c.entityPath) c.helperPath

/-- All that a command with this configuration can look at. -/
def seeAll (path : String) : IO Disk := do
  let d ← seeWay (← seeNothing) path
  match loadConfig d path with
  | .ok c => seeResources d c
  | .error _ => seeResources d (defaultConfigAt path)

/-! ## Effects -/

/-- Make a directory after those above it. -/
partial def makeWay (path : String) : IO Unit := do
  if path.isEmpty || (← (System.mkFilePath [path]).isDir) then return
  if let some parent := Path.parent? path then makeWay parent
  IO.FS.createDir path

def perform : Change → IO Unit
  | .write path content => IO.FS.writeFile path content
  | .makeDirs path => do
    if !Path.isUsable path then throw (IO.userError "no such path")
    makeWay path

/-- Do the changes; the first that cannot be done ends them. -/
def performAll : List Change → IO (Option Failure)
  | [] => return none
  | c :: cs => do
    let failed ← try
      perform c
      pure false
    catch _ => pure true
    if failed then return some c.failure else performAll cs

/-- The level of the log, from the environment before the configuration. -/
def threshold (c : Config) : IO (Option LogLevel) := do
  match ← IO.getEnv "PQLMOCK_LOG" with
  | some "off" => return none
  | some s => return (LogLevel.ofName? s).or (LogLevel.ofName? c.logLevel)
  | none => return LogLevel.ofName? c.logLevel

def log (c : Config) (e : Event) : IO Unit := do
  if let some level ← threshold c then
    if let some line := e.line? level c.logFormat then IO.eprintln line

def respond (r : Response) : IO Unit := do
  let out ← IO.getStdout
  out.putStrLn (Json.write r.toValue)
  out.flush

def fail (f : Failure) : IO UInt32 := do
  IO.eprintln f.text
  return 1

/-! ## Input -/

/-- The bytes up to the next line feed; none at the end of the input. -/
partial def readLine (input : IO.FS.Stream) (line : Array UInt8) : IO (List UInt8) := do
  let bytes ← input.read 1
  match bytes.data.toList with
  | [] => return line.toList
  | b :: _ => if b = lineFeed then return (line.push b).toList else readLine input (line.push b)

/-! ## Commands -/

/-- The settings that a run goes by once the files are what it made of them. -/
def settings (w : World) (path : String) : Config :=
  match loadConfig w.disk path with
  | .ok c => c
  | .error _ => defaultConfigAt path

/-- Run a command to its end. -/
def runOnce (call : Call) (input : List UInt8) : IO UInt32 := do
  let result := (run call input).run (World.ofDisk (← seeAll call.config))
  let (w, failure) := match result with
    | .ok _ w => (w, none)
    | .error f w => (w, some f)
  if let some f ← performAll w.changes then return ← fail f
  w.events.forM (log (settings w call.config))
  w.out.forM respond
  match failure with
  | some f => fail f
  | none => return 0

partial def serveLines (c : Config) (input : IO.FS.Stream) (cursors : Cursors) : IO UInt32 := do
  let line ← readLine input #[]
  if line.isEmpty then
    log c .shutdownComplete
    return 0
  let d ← seeResources (← seeNothing) c
  match answerLine (c.folder d).source c.coerceParams (line.filter (· != lineFeed)) cursors with
  | .error f =>
    log c .requestReceived
    fail f
  | .ok (none, cursors) => serveLines c input cursors
  | .ok (some a, cursors) =>
    log c .requestReceived
    log c a.event
    respond a.response
    serveLines c input cursors

def serveAll (path : String) : IO UInt32 := do
  match loadConfig (← seeAll path) path with
  | .error f => fail f
  | .ok c =>
    log c .configLoaded
    if c.isReady (← seeResources (← seeNothing) c) then
      log c .serving
      serveLines c (← IO.getStdin) []
    else fail .notInitialized

end MockSchema.Program

open MockSchema.Program in
def main (args : List String) : IO UInt32 := do
  match Arguments.parse args with
  | .error halt =>
    if halt.isMisuse then
      IO.eprintln halt.text
      return 2
    else
      IO.println halt.text
      return 0
  | .ok call =>
    match call.command with
    | .setUp => runOnce call []
    | .answerOne => runOnce call (← readLine (← IO.getStdin) #[])
    | .serve => serveAll call.config
