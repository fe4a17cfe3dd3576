import InlineRepl.Image.Base64
import InlineRepl.Wire.Position

/-!
# What can go wrong with a session

The causes, their wording, and the two classes that callers tell apart: a send to a session that is
gone, and a start that was refused before any process existed.
-/

namespace InlineRepl

/-- Why an operation on a session failed. -/
inductive SessionFault where
  /-- Neither a configured interpreter nor one on the search path. -/
  | interpreterNotFound (command : String)
  | bridgeNotFound (path : String)
  /-- What a start needs is not there, so none was tried. -/
  | launchRefused (reason : String)
  /-- The process could not be started. -/
  | launchFailed (reason : String)
  /-- A line of the control channel was no record. -/
  | malformedRecord (reason : String)
  /-- The session's channel has been closed. -/
  | channelClosed (session : SessionId)
  | io (reason : String)
  | json (reason : String)
  /-- A picture was no base64. -/
  | image (fault : Base64.Fault)
  deriving Repr, DecidableEq

namespace SessionFault

/-- The wording of a fault. -/
def message : SessionFault → String
  | interpreterNotFound command =>
    "F# interactive (" ++ command ++ ") not found. Install it or set fsharp-exe."
  | bridgeNotFound path => "Bridge script not found at " ++ path
  | launchRefused reason => "Refusing to launch interpreter: " ++ reason
  | launchFailed reason => "Failed to launch interpreter: " ++ reason
  | malformedRecord reason => "Protocol error: " ++ reason
  | channelClosed session => "Control channel closed for session " ++ session.display
  | io reason => "I/O error: " ++ reason
  | json reason => "JSON error: " ++ reason
  | image fault => "Invalid image payload: " ++ fault.message

/-- A send was tried on a session that is gone. -/
def isChannelClosed : SessionFault → Bool
  | channelClosed _ => true
  | _ => false

/-- The fault arose before any process existed. -/
def isPrecondition : SessionFault → Bool
  | interpreterNotFound _ | bridgeNotFound _ | launchRefused _ => true
  | _ => false

end SessionFault

end InlineRepl
