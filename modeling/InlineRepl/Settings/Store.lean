import InlineRepl.Settings.Basic
import InlineRepl.Tree.Change

/-!
# The settings file

Loading never fails: a file that is missing, unreadable or damaged counts as settings with nothing
set. Saving writes the whole record.
-/

namespace InlineRepl.Settings

/-- The settings in a file. -/
def load (tree : Tree) (file : Path) : Settings :=
  match tree.readText file with
  | .ok text => ofText text
  | .error _ => fresh

/-- Writes the settings to a file and makes the directories above it. -/
def save (settings : Settings) (tree : Tree) (file : Path) : Except FileFault Tree := do
  let tree ←
    match file.parent? with
    | some dir => tree.makeAll dir
    | none => pure tree
  tree.writeText file settings.fileText

/-- The user's own settings file, below the configuration directory that the environment names, or
else below the home directory, or else below the directory that the system has for it. -/
def userFile (configHome home configDir : Option Path) : Path :=
  let dir := ((configHome.or (home.map fun dir => dir.join ⟨".config"⟩)).or configDir).getD ⟨"."⟩
  (dir.join ⟨"fsi-eval"⟩).join ⟨"settings.json"⟩

end InlineRepl.Settings
