/-
  MockSchema.Config.Read — settings out of JSON text: an object of settings in any order, or
  an array of them in a fixed one.

  Only the data directory has to be there. An object can have keys that are no settings, whose
  values nobody looks at, but no setting twice; an array has no more than its places.
-/

import MockSchema.Config.Basic
import MockSchema.Json.Skip

namespace MockSchema.Config

open MockSchema.Json

inductive Key where
  | dataDir
  | entityDir
  | helperDir
  | coerceParams
  | logLevel
  | logFormat
  deriving DecidableEq, Repr

namespace Key

/-- The settings, in the order of their places in an array. -/
def all : List Key := [dataDir, entityDir, helperDir, coerceParams, logLevel, logFormat]

def text : Key → String
  | dataDir => "data_dir"
  | entityDir => "entity_dir"
  | helperDir => "helper_dir"
  | coerceParams => "coerce_params"
  | logLevel => "log_level"
  | logFormat => "log_format"

def ofText? (s : String) : Option Key := all.find? (·.text == s)

end Key

/-- The settings that were read so far. -/
structure Draft where
  dataDir : Option String
  entityDir : Option String
  helperDir : Option String
  coerceParams : Option Bool
  logLevel : Option String
  logFormat : Option LogFormat

def bool : Reader Bool
  | 't' :: cs => (after ['r', 'u', 'e'] cs).map (true, ·)
  | 'f' :: cs => (after ['a', 'l', 's', 'e'] cs).map (false, ·)
  | _ => none

def formatName : Reader LogFormat := fun cs => do
  let (s, cs) ← string cs
  return (← LogFormat.ofName? s, cs)

/-- A format is named by a string, or by the only key of an object, with nothing under it. -/
def format : Reader LogFormat
  | '\x7b' :: cs => do
    let (f, cs) ← formatName (skipSpace cs)
    let cs ← after [':'] (skipSpace cs)
    let cs ← after ['n', 'u', 'l', 'l'] (skipSpace cs)
    let cs ← after ['\x7d'] (skipSpace cs)
    return (f, cs)
  | cs => formatName cs

namespace Draft

def empty : Draft := ⟨none, none, none, none, none, none⟩

def has (d : Draft) : Key → Bool
  | .dataDir => d.dataDir.isSome
  | .entityDir => d.entityDir.isSome
  | .helperDir => d.helperDir.isSome
  | .coerceParams => d.coerceParams.isSome
  | .logLevel => d.logLevel.isSome
  | .logFormat => d.logFormat.isSome

/-- Read the value of a setting. -/
def setting (d : Draft) (key : Key) : Reader Draft := fun cs =>
  match key with
  | .dataDir => (string cs).map fun (s, r) => ({ d with dataDir := some s }, r)
  | .entityDir => (string cs).map fun (s, r) => ({ d with entityDir := some s }, r)
  | .helperDir => (string cs).map fun (s, r) => ({ d with helperDir := some s }, r)
  | .coerceParams => (bool cs).map fun (b, r) => ({ d with coerceParams := some b }, r)
  | .logLevel => (string cs).map fun (s, r) => ({ d with logLevel := some s }, r)
  | .logFormat => (format cs).map fun (f, r) => ({ d with logFormat := some f }, r)

def entry (d : Draft) : Reader Draft := fun cs => do
  let (k, cs) ← string (skipSpace cs)
  let cs ← after [':'] (skipSpace cs)
  match Key.ofText? k with
  | some key => if d.has key then none else d.setting key (skipSpace cs)
  | none => (skip (skipSpace cs)).map fun (_, r) => (d, r)

def entries : Nat → Draft → Reader Draft
  | 0, _, _ => none
  | n + 1, d, cs => do
    let (d, cs) ← d.entry cs
    match skipSpace cs with
    | ',' :: cs => entries n d cs
    | '\x7d' :: cs => some (d, cs)
    | _ => none

def elements : List Key → Draft → Reader Draft
  | [], _, _ => none
  | key :: keys, d, cs => do
    let (d, cs) ← d.setting key (skipSpace cs)
    match skipSpace cs with
    | ',' :: cs => elements keys d cs
    | ']' :: cs => some (d, cs)
    | _ => none

def read : Reader Draft
  | '\x7b' :: cs =>
    match skipSpace cs with
    | '\x7d' :: cs => some (empty, cs)
    | cs => entries cs.length empty cs
  | '[' :: cs => elements Key.all empty cs
  | _ => none

/-- The settings, with defaults for those that are absent. -/
def config? (d : Draft) : Option Config := do
  let base := withDataDir (← d.dataDir)
  return {
    dataDir := base.dataDir
    entityDir := d.entityDir.getD base.entityDir
    helperDir := d.helperDir.getD base.helperDir
    coerceParams := d.coerceParams.getD base.coerceParams
    logLevel := d.logLevel.getD base.logLevel
    logFormat := d.logFormat.getD base.logFormat }

end Draft

/-- The settings in a text, not checked. -/
def ofText? (s : String) : Option Config :=
  match Draft.read (skipSpace s.toList) with
  | some (d, rest) => if (skipSpace rest).isEmpty then d.config? else none
  | none => none

end MockSchema.Config
