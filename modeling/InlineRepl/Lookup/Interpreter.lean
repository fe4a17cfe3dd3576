import InlineRepl.Lookup.FileView

/-!
# Finding the interpreter

A configured interpreter is taken as it is. Otherwise the command is looked up on the search path,
and an answer once found is kept until the configuration changes; a failure is not kept.
-/

namespace InlineRepl

/-- The command that starts an interpreter. -/
def interpreterCommand : String := "fsharpi"

/-- An interpreter: the command that is run and the executable behind it. -/
structure Interpreter where
  command : String
  executable : Path
  deriving Repr, DecidableEq

/-! ## The search path -/

namespace SearchPath

/-- A search directory; a first component `~` stands for the home directory, if there is one that is
not empty. -/
def expandHome (home : Option Path) (dir : Path) : Path :=
  match dir.components, home.filter fun p => !p.isEmpty with
  | .name "~" :: rest, some home =>
    rest.foldl (fun p component =>
      match component with
      | .name n => p.join ⟨n⟩
      | .up => p.join ⟨".."⟩
      | _ => p) home
  | _, _ => dir

/-- The directories of a search path. -/
def directories (home : Option Path) (searchPath : String) : List Path :=
  (Text.split ':' searchPath.toList).map fun piece => expandHome home ⟨String.ofList piece⟩

/-- The first file of the given name on a search path that may be executed. -/
def find (files : FileView) (home : Option Path) (searchPath command : String) : Option Path :=
  ((directories home searchPath).map fun dir => dir.join ⟨command⟩).find? files.isExecutable

end SearchPath

/-! ## The probe -/

/-- What is known about the interpreter. -/
structure Probe where
  /-- The configured interpreter. -/
  override : Option Path := none
  /-- A search path to use in place of the environment's. -/
  searchPath : Option String := none
  /-- The executable last found. -/
  resolved : Option Path := none
  deriving Repr, DecidableEq

namespace Probe

/-- The configured interpreter, unless it is the empty path. -/
def chosen? (override : Option Path) : Option Path :=
  override.filter fun p => !p.isEmpty

/-- The executable that a configuration and a lookup yield. The lookup is made only where nothing is
configured, and may do what it likes besides. -/
def executableBy {m : Type → Type} [Monad m] (override : Option Path) (lookup : m (Option Path)) :
    m (Option Path) :=
  match chosen? override with
  | some p => pure (some p)
  | none => lookup

/-- The executable that a configuration and a lookup that only answers yield. -/
def resolveWith (override : Option Path) (lookup : Unit → Option Path) : Option Path :=
  Id.run (executableBy override (pure (lookup ())))

/-- Uses another search path, and forgets what was found. -/
def setSearchPath (probe : Probe) (searchPath : String) : Probe :=
  { probe with searchPath := some searchPath, resolved := none }

/-- Configures another interpreter, and forgets what was found. -/
def setOverride (probe : Probe) (override : Option Path) : Probe :=
  { probe with override, resolved := none }

/-- The interpreter. The lookup, on the search path to use, is made only when nothing is known. -/
def resolveBy {m : Type → Type} [Monad m] (probe : Probe)
    (lookup : Option String → m (Option Path)) : m (Option Interpreter × Probe) := do
  let resolved ←
    match probe.resolved with
    | some p => pure (some p)
    | none => executableBy probe.override (lookup probe.searchPath)
  return (resolved.map fun executable => { command := interpreterCommand, executable },
    { probe with resolved })

/-- The interpreter, by a lookup that only answers. -/
def resolve (probe : Probe) (lookup : Option String → Option Path) :
    Option Interpreter × Probe :=
  Id.run (probe.resolveBy fun searchPath => pure (lookup searchPath))

end Probe

end InlineRepl
