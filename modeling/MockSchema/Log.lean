/-
  MockSchema.Log — the events of a run, and which of them a log of a given level shows.
-/

import MockSchema.Json.Writer

namespace MockSchema

inductive LogLevel where
  | trace
  | debug
  | info
  | warn
  | error
  deriving DecidableEq, Repr

namespace LogLevel

def all : List LogLevel := [trace, debug, info, warn, error]

def name : LogLevel → String
  | trace => "trace"
  | debug => "debug"
  | info => "info"
  | warn => "warn"
  | error => "error"

/-- The level as a log line shows it. -/
def label : LogLevel → String
  | trace => "TRACE"
  | debug => "DEBUG"
  | info => "INFO"
  | warn => "WARN"
  | error => "ERROR"

def ofName? (s : String) : Option LogLevel := all.find? (·.name == s)

def rank : LogLevel → Nat
  | trace => 0
  | debug => 1
  | info => 2
  | warn => 3
  | error => 4

/-- A log of level `l` shows what is as grave as `l` or graver. -/
def shows (l event : LogLevel) : Bool := l.rank ≤ event.rank

end LogLevel

inductive LogFormat where
  | text
  | json
  deriving DecidableEq, Repr

namespace LogFormat

def name : LogFormat → String
  | text => "text"
  | json => "json"

def ofName? (s : String) : Option LogFormat := [text, json].find? (·.name == s)

end LogFormat

inductive Event where
  | configLoaded
  | initialized
  | serving
  | shutdownComplete
  | requestReceived
  /-- A request that could not be decoded. -/
  | requestRejected
  | renderComplete
  /-- A render or an example that failed. -/
  | renderFailed
  | exampleExpanded
  deriving DecidableEq, Repr

namespace Event

def all : List Event :=
  [configLoaded, initialized, serving, shutdownComplete, requestReceived, requestRejected,
   renderComplete, renderFailed, exampleExpanded]

def name : Event → String
  | configLoaded => "CONFIG_LOADED"
  | initialized => "INITIALIZED"
  | serving => "SERVING"
  | shutdownComplete => "SHUTDOWN_COMPLETE"
  | requestReceived => "REQUEST_RECEIVED"
  | requestRejected => "REQUEST_REJECTED"
  | renderComplete => "RENDER_COMPLETE"
  | renderFailed => "RENDER_FAILED"
  | exampleExpanded => "EXAMPLE_EXPANDED"

/-- Failures are warnings, single requests are for debugging. -/
def level : Event → LogLevel
  | requestRejected => .warn
  | renderFailed => .warn
  | requestReceived => .debug
  | renderComplete => .debug
  | exampleExpanded => .debug
  | _ => .info

/-- The line for an event in a log, where the log shows it. -/
def line? (threshold : LogLevel) (format : LogFormat) (e : Event) : Option String :=
  if threshold.shows e.level then
    some <| match format with
      | .text => e.level.label ++ " " ++ e.name
      | .json =>
        Json.write (.object [("level", .str e.level.label), ("event", .str e.name)])
  else none

end Event

end MockSchema
