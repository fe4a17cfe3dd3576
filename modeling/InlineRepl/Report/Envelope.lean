import InlineRepl.Command.Fault
import InlineRepl.Invocation.Basic
import InlineRepl.Json.Basic

/-!
# Envelopes

The JSON value that every command ends with when its output is meant for programs: what the command
yielded, or why it failed.
-/

namespace InlineRepl

/-- How a command ended. -/
inductive Envelope where
  | success (command : String) (data : Json)
  | failure (command code message : String)
  deriving Repr

namespace Envelope

def toJson : Envelope → Json
  | success command data =>
    .obj [("ok", .bool true), ("command", .str command), ("data", data)]
  | failure command code message =>
    .obj [("ok", .bool false), ("command", .str command),
      ("error", .obj [("code", .str code), ("message", .str message)])]

/-- The envelope of a fault. -/
def ofFault (command : String) (fault : CommandFault) : Envelope :=
  failure command fault.code fault.message

/-- An envelope as output of the given format, which is not text. -/
def print (envelope : Envelope) (format : OutputFormat) : String :=
  match format with
  | .ndjson => envelope.toJson.compact ++ "\n"
  | _ => envelope.toJson.pretty ++ "\n"

end Envelope

end InlineRepl
