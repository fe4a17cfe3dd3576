import InlineRepl.Path
import InlineRepl.Json.Basic
import InlineRepl.Json.Record

/-!
# Settings

Three paths that the user may set, and the version of the record that holds them.
-/

namespace InlineRepl

open Json (Raw Record)

/-- The durable settings. -/
structure Settings where
  schema : UInt32 := 0
  /-- Replaces the lookup of the interpreter. -/
  interpreter : Option Path := none
  /-- The interpreter of notebooks. -/
  notebookInterpreter : Option Path := none
  bridgeScript : Option Path := none
  deriving Repr, DecidableEq

/-- Which path a command sets. -/
inductive SettingKey where
  | interpreter
  | notebookInterpreter
  | bridgeScript
  deriving Repr, DecidableEq

/-- A command that sets a path. -/
structure SettingCommand where
  name : String
  description : String
  key : SettingKey
  deriving Repr, DecidableEq

namespace SettingCommand

/-- The commands offered to editors. -/
def all : List SettingCommand :=
  [⟨"fsharp-exe", "F#: Set the path to the F# executable for clients", .interpreter⟩,
    ⟨"ifsharp-exe", "F#: Set the path to ifsharp for clients", .notebookInterpreter⟩]

end SettingCommand

/-- The name under which a setting is shown. -/
def SettingKey.name (key : SettingKey) : String :=
  match SettingCommand.all.find? fun command => decide (command.key = key) with
  | some command => command.name
  | none => "bridge-script"

namespace Settings

/-- The version that is written. -/
def currentSchema : UInt32 := 1

/-- Settings with nothing set. -/
def fresh : Settings :=
  { schema := currentSchema }

/-- The value of a setting. -/
def get (settings : Settings) : SettingKey → Option Path
  | .interpreter => settings.interpreter
  | .notebookInterpreter => settings.notebookInterpreter
  | .bridgeScript => settings.bridgeScript

/-- Sets or clears a setting; the empty path clears it too. -/
def set (settings : Settings) (key : SettingKey) (value : Option Path) : Settings :=
  let value := value.filter fun p => !p.isEmpty
  match key with
  | .interpreter => { settings with interpreter := value }
  | .notebookInterpreter => { settings with notebookInterpreter := value }
  | .bridgeScript => { settings with bridgeScript := value }

/-- Settings of an earlier version become settings of the current one. -/
def upgrade (settings : Settings) : Settings :=
  if settings.schema = 0 then { settings with schema := currentSchema } else settings

def toJson (settings : Settings) : Json :=
  let path (p : Path) : Json := .str p.text
  .obj (Json.present
    [("schema", some (.nat settings.schema.toNat)), ("interpreter", settings.interpreter.map path),
      ("notebookInterpreter", settings.notebookInterpreter.map path),
      ("bridgeScript", settings.bridgeScript.map path)])

def ofRaw? (r : Raw) : Option Settings := do
  let path (r : Raw) : Option Path := r.text?.map Path.mk
  let record ← Record.ofRaw ["schema", "interpreter", "notebookInterpreter", "bridgeScript"] r
  let schema ← record.defaulted "schema" 0 Raw.word32?
  let interpreter ← record.optional "interpreter" path
  let notebookInterpreter ← record.optional "notebookInterpreter" path
  let bridgeScript ← record.optional "bridgeScript" path
  return { schema, interpreter, notebookInterpreter, bridgeScript }

/-- The settings that a file's text holds. A text that is no settings record counts as none. -/
def ofText (text : String) : Settings :=
  match Json.readText ofRaw? text with
  | some settings => settings.upgrade
  | none => fresh

/-- The text of a settings file. -/
def fileText (settings : Settings) : String :=
  settings.toJson.pretty

end Settings

end InlineRepl
