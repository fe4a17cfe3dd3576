import InlineRepl.Lookup.FileView

/-!
# Project roots

The directory an interpreter runs in: the nearest one at or above a path that does not hold the
marker file. The walk up ends at the empty path and at the root, neither of which is ever a project,
and where a step has led back to the path that it began at.
-/

namespace InlineRepl.ProjectRoot

/-- The file whose directory is walked past. -/
def defaultMarker : String := "__init__.py"

/-- A directory that does not hold the marker. -/
def accepts (files : FileView) (marker : String) (p : Path) : Bool :=
  files.isDirectory p && !files.hasPath (p.join ⟨marker⟩)

/-- A walk up from a path. -/
structure Walk where
  /-- Where it stands. -/
  current : Path
  /-- Where it stood before its last step. -/
  previous : Option Path := none
  deriving Repr, DecidableEq

/-- What a walk does next. -/
inductive Stride where
  /-- It ends, at a root or without one. -/
  | ends (root : Option Path)
  | goesOn (walk : Walk)
  deriving Repr, DecidableEq

namespace Walk

/-- The last step has made no progress. -/
def stuck (walk : Walk) : Bool :=
  walk.previous.any fun p => p.same walk.current

/-- Ends the walk or takes a step up. -/
def stride (files : FileView) (marker : String) (walk : Walk) : Stride :=
  if walk.current.isEmpty then .ends none
  else
    match walk.current.parent? with
    | none => .ends none
    | some up =>
      if walk.stuck then .ends none
      else if accepts files marker walk.current then .ends (some walk.current)
      else .goesOn { current := up, previous := some walk.current }

/-- Takes strides until the walk ends. The fuel bounds them. -/
def finish (files : FileView) (marker : String) : Nat → Walk → Option Path
  | 0, _ => none
  | fuel + 1, walk =>
    match walk.stride files marker with
    | .ends root => root
    | .goesOn next => finish files marker fuel next

end Walk

/-- The project root of a path. Every step up drops a component, so one stride more than there are
components reaches the end. -/
def locate (files : FileView) (marker : String) (p : Path) : Option Path :=
  Walk.finish files marker (p.components.length + 1) { current := p }

end InlineRepl.ProjectRoot
