import InlineRepl.Lookup.FileView

/-!
# Finding the bridge script

The first of these that is a file: the configured path, the one the environment names, the one
beside the running program, the one among the user's data. Where none is, the first candidate is
named.
-/

namespace InlineRepl

/-- A bridge script and whether it is there. -/
structure BridgeScript where
  path : Path
  present : Bool
  deriving Repr, DecidableEq

/-- Where bridge scripts are looked for besides the configured path. -/
structure BridgePlaces where
  /-- The script that the environment names. -/
  named : Option Path := none
  /-- The directory of the running program. -/
  programDir : Option Path := none
  /-- The directory of the user's data. -/
  dataDir : Option Path := none
  deriving Repr, DecidableEq

namespace BridgeScript

/-- The script's path inside an installation. -/
def relativePath : Path := ⟨"fs-src/ltfsclient/ltfsclient.fsx"⟩

/-- The candidates, the preferred one first. -/
def candidates (places : BridgePlaces) (configured : Option Path) : List Path :=
  configured.toList ++ places.named.toList ++
    (places.programDir.map fun dir => dir.join relativePath).toList ++
    (places.dataDir.map fun dir => (dir.join ⟨"fsi-eval"⟩).join relativePath).toList

/-- The bridge script to use. -/
def locate (files : FileView) (places : BridgePlaces) (configured : Option Path) : BridgeScript :=
  match (candidates places configured).find? files.isFile with
  | some path => { path, present := true }
  | none => { path := (candidates places configured).head?.getD relativePath, present := false }

end BridgeScript

end InlineRepl
