/-
  MockSchema.Program.Arguments — the command line: one command, and for each command the
  option `--config` with the path of the configuration.

  The value of the option is the argument after it, unless that is a flag, or what stands
  behind its `=`. An occurrence of the option is settled when the next flag comes or the line
  ends; only then it is known whether it had a value, and whether it was the first.
-/

import MockSchema.Text.Class

namespace MockSchema.Program

inductive Command where
  /-- Make a default configuration and the directories of resources. -/
  | setUp
  /-- Answer one request. -/
  | answerOne
  /-- Answer requests until the input ends. -/
  | serve
  deriving DecidableEq, Repr

namespace Command

def all : List Command := [setUp, answerOne, serve]

def name : Command → String
  | setUp => "init"
  | answerOne => "eval"
  | serve => "start"

def ofName? (s : String) : Option Command := all.find? (·.name == s)

end Command

/-- What to do, and with which configuration. -/
structure Call where
  command : Command
  config : String
  deriving DecidableEq, Repr

def usage : String :=
  "\n".intercalate
    ["pqlmock - declarative mock response renderer", "", "Usage: pqlmock <COMMAND>", "",
     "Commands:", "  init   Write a default config and create the data directories",
     "  eval   Handle one request from stdin and exit",
     "  start  Serve newline-delimited requests from stdin until EOF",
     "  help   Print this message or the help of the given subcommand(s)", "", "Options:",
     "      --config <CONFIG>  Path to configuration file, for every command but help",
     "  -h, --help             Print help", "  -V, --version          Print version"]

/-- Why a command line gives nothing to do. -/
inductive Halt where
  | help
  | version
  | missingCommand
  | unknownCommand
  | unknownArgument
  | missingValue
  | repeatedOption
  /-- A flag that takes no value has one. -/
  | unwantedValue
  deriving DecidableEq, Repr

namespace Halt

/-- Help and version are what the user asked for; the rest is wrong use. -/
def isMisuse : Halt → Bool
  | help => false
  | version => false
  | _ => true

/-- What the user sees. -/
def text : Halt → String
  | help => usage
  | version => "pqlmock 0.1.0"
  | missingCommand => usage
  | unknownCommand => "error: unrecognized subcommand"
  | unknownArgument => "error: unexpected argument"
  | missingValue => "error: a value is required for '--config <CONFIG>' but none was supplied"
  | repeatedOption => "error: the argument '--config <CONFIG>' cannot be used multiple times"
  | unwantedValue => "error: a flag that takes no value has one"

end Halt

namespace Arguments

def defaultConfig : String := "./pqlmock.json"

/-! ## Words -/

/-- How an argument looks. A single dash is a plain word. -/
inductive Word where
  | plain (s : String)
  | short (flag : Char)
  | long (flag : String) (value : Option String)
  /-- The two dashes after which nothing is a flag. -/
  | dashes

def longWord (cs : List Char) : Word :=
  let flag := cs.takeWhile (· != '=')
  match cs.dropWhile (· != '=') with
  | [] => .long (String.ofList flag) none
  | _ :: value => .long (String.ofList flag) (some (String.ofList value))

def word (s : String) : Word :=
  match s.toList with
  | ['-', '-'] => .dashes
  | '-' :: '-' :: cs => longWord cs
  | '-' :: c :: _ => .short c
  | _ => .plain s

/-! ## The option of a command -/

/-- The option as far as the line is read. -/
structure Slot where
  value : Option String
  /-- An occurrence that is not settled, with its value if that is known. -/
  pending : Option (Option String)

namespace Slot

def empty : Slot := ⟨none, none⟩

def settle (s : Slot) : Except Halt Slot :=
  match s.pending with
  | none => .ok s
  | some none => .error .missingValue
  | some (some v) =>
    if s.value.isSome then .error .repeatedOption
    else if v.isEmpty then .error .missingValue
    else .ok ⟨some v, none⟩

end Slot

/-- The arguments of a command. -/
def options (s : Slot) : List String → Except Halt Slot
  | [] => s.settle
  | w :: ws =>
    match word w with
    | .plain v =>
      match s.pending with
      | some none => options { s with pending := some (some v) } ws
      | _ => .error .unknownArgument
    | .long "config" value => do
      let s ← s.settle
      match value with
      | none => options { s with pending := some none } ws
      | some v => options (← Slot.settle { s with pending := some (some v) }) ws
    | .long "help" none => s.settle.bind fun _ => .error .help
    | .long "help" (some _) => .error .unwantedValue
    | .long _ _ => .error .unknownArgument
    | .short 'h' => s.settle.bind fun _ => .error .help
    | .short _ => .error .unknownArgument
    | .dashes => if ws.isEmpty then s.settle else .error .unknownArgument

/-! ## The command -/

def isCommand (s : String) : Bool := s == "help" || (Command.ofName? s).isSome

/-- Help about a command; no command has commands of its own. -/
def helpAbout : List String → Halt
  | [] => .help
  | [s] => if isCommand s then .help else .unknownCommand
  | _ => .unknownCommand

def plain (s : String) (ws : List String) : Except Halt Call :=
  if s = "help" then .error (helpAbout ws)
  else match Command.ofName? s with
    | none => .error .unknownCommand
    | some command => do
      let slot ← options Slot.empty ws
      return ⟨command, slot.value.getD defaultConfig⟩

/-- After two dashes no word names a command any more. -/
def afterDashes : List String → Halt
  | [] => .missingCommand
  | s :: _ => if isCommand s then .unknownArgument else .unknownCommand

def parse : List String → Except Halt Call
  | [] => .error .missingCommand
  | w :: ws =>
    match word w with
    | .plain s => plain s ws
    | .short 'h' => .error .help
    | .short 'V' => .error .version
    | .short _ => .error .unknownArgument
    | .long "help" none => .error .help
    | .long "version" none => .error .version
    | .long "help" (some _) => .error .unwantedValue
    | .long "version" (some _) => .error .unwantedValue
    | .long _ _ => .error .unknownArgument
    | .dashes => .error (afterDashes ws)

end Arguments

end MockSchema.Program
