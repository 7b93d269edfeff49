/-
  MockSchema.Program.Failure — what ends a run. A request that cannot be answered is not
  among it: it gets a response that says so.
-/

import MockSchema.Config.Basic
import MockSchema.Text.Quoted

namespace MockSchema.Program

inductive Failure where
  | unreadableConfig (why : Obstacle)
  | malformedConfig
  | badConfig (fault : Config.Fault)
  | unwritableConfig
  | cannotMakeDir (path : String)
  /-- The input is no text. -/
  | badInput
  | alreadyInitialized
  | notInitialized

namespace Failure

def code : Failure → String
  | unreadableConfig _ => "CLI_CONFIG_ERROR"
  | malformedConfig => "CLI_CONFIG_ERROR"
  | badConfig _ => "CLI_CONFIG_ERROR"
  | unwritableConfig => "CLI_CONFIG_ERROR"
  | cannotMakeDir _ => "CLI_IO_ERROR"
  | badInput => "CLI_IO_ERROR"
  | alreadyInitialized => "CLI_ALREADY_INITIALIZED"
  | notInitialized => "CLI_NOT_INITIALIZED"

def message : Failure → String
  | unreadableConfig .missing => "Failed to read config: no such file"
  | unreadableConfig .blocked => "Failed to read config: not a text file"
  | malformedConfig => "Invalid config JSON: malformed text"
  | badConfig fault => fault.message
  | unwritableConfig => "Failed to write config: the path cannot be written"
  | cannotMakeDir path =>
    "Failed to create directory " ++ Text.quoted path ++ ": something is in the way"
  | badInput => "stream did not contain valid UTF-8"
  | alreadyInitialized => "Data directory already initialized"
  | notInitialized => "Data directory not initialized. Run 'pqlmock init' first."

def text (f : Failure) : String := f.code ++ ": " ++ f.message

end Failure

end MockSchema.Program
