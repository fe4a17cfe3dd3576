import InlineRepl.Host.Basic

/-!
# The connector

How a session is started by hand: a name, a description, and the directory that the user picks.
-/

namespace InlineRepl

/-- A way to start a session by hand. -/
structure Connector where
  name : String
  description : String
  deriving Repr, DecidableEq

namespace Connector

/-- The connector of F# projects. -/
def fsharp : Connector :=
  { name := "F#", description := "Select a directory to serve as the root of your F# project." }

/-- The command for the directory that was picked; none when the user gave up. -/
def connect (_ : Connector) (picked : Option Path) : Option HostCommand :=
  picked.map HostCommand.connect

end Connector

end InlineRepl
