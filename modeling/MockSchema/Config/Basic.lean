/-
  MockSchema.Config.Basic — the settings of a program: where its resources are, whether
  parameters are taken for numbers, and what it logs.

  The directories of resources are below the data directory. `check` lets through relative
  paths without `..` only, so joining one to the data directory does not lead out of it.
-/

import MockSchema.Files.Path
import MockSchema.Log
import MockSchema.Store.Folder

namespace MockSchema

structure Config where
  dataDir : String
  entityDir : String
  helperDir : String
  coerceParams : Bool
  logLevel : String
  logFormat : LogFormat

namespace Config

/-- The default settings for a data directory. -/
def withDataDir (dir : String) : Config := ⟨dir, "entity", "helper", true, "info", .text⟩

def entityPath (c : Config) : String := Path.join c.dataDir c.entityDir

def helperPath (c : Config) : String := Path.join c.dataDir c.helperDir

/-- The resources of a program with these settings. -/
def folder (c : Config) (d : Disk) : Folder := ⟨d, c.entityPath, c.helperPath⟩

/-- Both directories of resources exist. -/
def isReady (c : Config) (d : Disk) : Bool := d.isDir c.entityPath && d.isDir c.helperPath

/-! ## Text -/

def fieldLine (key value : String) : String := "  " ++ Json.quote key ++ ": " ++ value

/-- The settings as a JSON file, a line for each. -/
def text (c : Config) : String :=
  let lines :=
    [fieldLine "data_dir" (Json.quote c.dataDir), fieldLine "entity_dir" (Json.quote c.entityDir),
     fieldLine "helper_dir" (Json.quote c.helperDir),
     fieldLine "coerce_params" (if c.coerceParams then "true" else "false"),
     fieldLine "log_level" (Json.quote c.logLevel),
     fieldLine "log_format" (Json.quote c.logFormat.name)]
  "\x7b\n" ++ ",\n".intercalate lines ++ "\n\x7d\n"

/-! ## Check -/

inductive Fault where
  | blank (key : String)
  | logLevel (found : String)
  | outside (key dir : String)

def Fault.message : Fault → String
  | blank key => key ++ " must not be empty"
  | logLevel found =>
    "Invalid log_level: '" ++ found ++ "'. Must be one of " ++
      ", ".intercalate (LogLevel.all.map LogLevel.name) ++ "."
  | outside key dir =>
    "Invalid " ++ key ++ ": '" ++ dir ++ "'. Must be a relative path inside data_dir."

/-- A path that leads down from where it starts. -/
def leadsDown (dir : String) : Bool :=
  !Path.isAbsolute dir && !(Path.components dir).contains ".."

def checkDir (key dir : String) : Except Fault Unit :=
  if Text.isBlankText dir then .error (.blank key)
  else if leadsDown dir then .ok ()
  else .error (.outside key dir)

def check (c : Config) : Except Fault Unit := do
  if Text.isBlankText c.dataDir then throw (.blank "data_dir")
  if (LogLevel.ofName? c.logLevel).isNone then throw (.logLevel c.logLevel)
  checkDir "entity_dir" c.entityDir
  checkDir "helper_dir" c.helperDir

end Config

end MockSchema
