import InlineRepl.Command.Environment
import InlineRepl.Invocation.Basic
import InlineRepl.Report.Envelope

/-!
# Settings from the command line

Viewing the settings and what they lead to, and changing one of them: the file is read, the setting
is set, and the whole record is written back.
-/

namespace InlineRepl.Configure

/-! ## Viewing -/

/-- The settings and what they lead to. -/
structure View where
  file : Path
  settings : Settings
  /-- The interpreter that would be started. -/
  interpreter : Option Path
  bridge : BridgeScript
  deriving Repr, DecidableEq

/-- The view of a settings file. -/
def View.of (env : Environment) (file : Path) : View :=
  let settings := Settings.load env.tree file
  { file
    settings
    interpreter := Probe.resolveWith settings.interpreter fun _ => env.lookup none
    bridge := BridgeScript.locate env.tree.view env.bridgePlaces settings.bridgeScript }

def View.toJson (view : View) : Json :=
  .obj [("path", .str view.file.text), ("settings", view.settings.toJson),
    ("resolvedInterpreter", Json.strOrNull (view.interpreter.map Path.text)),
    ("bridgeScript", .str view.bridge.path.text), ("bridgePresent", .bool view.bridge.present)]

/-- A path, or the word for none. -/
def orUnset (path : Option Path) : String :=
  (path.map Path.text).getD "(unset)"

/-- A name in the first column. -/
def column (name : String) : String :=
  name ++ String.ofList (List.replicate (14 - name.length) ' ')

/-- The view as text. -/
def View.render (view : View) : String :=
  let row (key : SettingKey) : String := column key.name ++ orUnset (view.settings.get key) ++ "\n"
  let missing := if view.bridge.present then "" else " (missing)"
  "settings: " ++ view.file.text ++ "\n" ++
    row .interpreter ++ row .notebookInterpreter ++ row .bridgeScript ++
    "\ninterpreter:  " ++ orUnset view.interpreter ++ "\n" ++
    "bridge:       " ++ view.bridge.path.text ++ missing ++ "\n"

/-! ## Changing -/

/-- A setting that has been changed. -/
structure Change where
  key : SettingKey
  value : Option Path
  previous : Option Path
  deriving Repr, DecidableEq

def Change.toJson (change : Change) : Json :=
  .obj [("setting", .str change.key.name), ("value", Json.strOrNull (change.value.map Path.text)),
    ("previous", Json.strOrNull (change.previous.map Path.text))]

/-- The change as text. -/
def Change.render (change : Change) : String :=
  match change.value with
  | some path => change.key.name ++ " = " ++ path.text ++ "\n"
  | none => change.key.name ++ " cleared\n"

/-- Changes one setting in a file. -/
def apply (tree : Tree) (file : Path) (key : SettingKey) (value : Option Path) :
    Except CommandFault (Change × Tree) :=
  let old := Settings.load tree file
  let new := old.set key value
  match new.save tree file with
  | .ok tree => .ok ({ key, value := new.get key, previous := old.get key }, tree)
  | .error _ => .error (.internal ("failed to write " ++ file.text))

/-! ## Running -/

/-- Carries an action out. -/
def run (env : Environment) (file : Path) (format : OutputFormat) : ConfigAction → Outcome
  | .view =>
    let view := View.of env file
    { ending := .done
      tree := env.tree
      out :=
        if format = .text then view.render
        else (Envelope.success "config" view.toJson).print format }
  | .set key value =>
    match apply env.tree file key value with
    | .error fault => { ending := .failed fault, tree := env.tree }
    | .ok (change, tree) =>
      { ending := .done
        tree
        out :=
          if format = .text then change.render
          else (Envelope.success "config" change.toJson).print format }

end InlineRepl.Configure
