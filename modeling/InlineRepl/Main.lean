import InlineRepl.Command.Run

/-!
# The program

The outer layer: the files that a run may look at are read into a directory tree, the run is
carried out on that tree, its text is printed, and the files that it has changed are written back.
No process is started from here, so every launch fails.
-/

namespace InlineRepl.Outer

/-- The variables that a run looks at. -/
def variableNames : List String :=
  ["PATH", "HOME", "XDG_CONFIG_HOME", "XDG_DATA_HOME", "FSI_BRIDGE_SCRIPT", "CLICOLOR_FORCE",
    "NO_COLOR"]

/-- A path and everything above it, the path first. The fuel bounds the directories above. -/
def upward : Nat → Path → List Path
  | 0, p => [p]
  | fuel + 1, p => p :: ((p.parent?.map (upward fuel)).getD [])

/-- The paths that decide where a project begins. -/
def rootPaths (p : Path) : List Path :=
  (upward p.components.length p).flatMap fun dir =>
    [dir, dir.join ⟨ProjectRoot.defaultMarker⟩]

/-- The paths that a command names. -/
def commandPaths (cwd : Path) : Command → List Path
  | .eval args => args.file :: args.images.toList
  | .connect args => [args.dir.getD cwd]
  | .config _ => []

/-- The paths that a run looks at once its settings are known. -/
def lookupPaths (env : Environment) (searchPath : String) (settings : Settings) : List Path :=
  BridgeScript.candidates env.bridgePlaces settings.bridgeScript ++
    (SearchPath.directories env.home searchPath).map fun dir => dir.join ⟨interpreterCommand⟩

/-- Puts what stands at a path into a tree. Files count as executable: only those on the search path
are asked, and nothing is started. -/
def observe (cwd : Path) (tree : Tree) (path : Path) : IO Tree := do
  let full := cwd.join path
  try
    let real ← IO.FS.realPath full.text
    let place : Path := ⟨real.toString⟩
    let tree := if place = full then tree else tree.plantLink full place
    if ← real.isDir then
      return (tree.makeAll place).toOption.getD tree
    else
      let bytes ← IO.FS.readBinFile real
      return (tree.plant place bytes.data.toList).allowExecution place
  catch _ => return tree

/-- Writes back what a run has changed. -/
def restore (before after : Tree) : IO Unit := do
  for (place, entry) in after.entries.reverse do
    if before.at? place = some entry then
      continue
    let path := (Tree.pathOf place).text
    match entry with
    | .directory => IO.FS.createDirAll path
    | .file bytes _ => IO.FS.writeBinFile path ⟨bytes.toArray⟩
    | .link _ | .device => pure ()

/-- The tree that a run is carried out on. -/
def gather (cwd : Path) (env : Environment) (searchPath : String) (invocation : Invocation) :
    IO Tree := do
  let store := invocation.settingsFile env
  let named := store :: commandPaths cwd invocation.command
  let tree ← named.foldlM (observe cwd) env.tree
  let roots := named.flatMap fun path =>
    rootPaths ((tree.canonical path).toOption.getD (cwd.join path))
  let tree ← roots.foldlM (observe cwd) tree
  (lookupPaths env searchPath (Settings.load tree store)).foldlM (observe cwd) tree

/-- Runs the program on the words of its command line. -/
def run (words : List String) : IO UInt32 := do
  let currentDir ← try pure (some (Path.mk (← IO.currentDir).toString)) catch _ => pure none
  let cwd := currentDir.getD ⟨"/"⟩
  let programDir := (Path.mk (← IO.appPath).toString).parent?
  let named ← variableNames.filterMapM fun name =>
    return (← IO.getEnv name).map fun value => (name, value)
  let tree := (Tree.makeAll {} cwd).toOption.getD {}
  let environment (tree : Tree) : Environment :=
    { Environment.ofVariables tree programDir named with currentDir }
  let env := environment { tree with cwd := Tree.steps cwd }
  let env ←
    match Invocation.read words with
    | .ok invocation =>
      pure (environment (← gather cwd env ((named.lookup "PATH").getD "") invocation))
    | .error _ => pure env
  let result := env.run words
  IO.print result.out
  IO.eprint result.err
  restore env.tree result.tree
  return UInt32.ofNat (result.code.getD 0)

end InlineRepl.Outer

/-- The program. -/
def main (words : List String) : IO UInt32 :=
  InlineRepl.Outer.run words
