import InlineRepl.Path
import InlineRepl.Session.Fault

/-!
# Why a command fails

The causes, their wording, and the code under which programs that read the output know them.
-/

namespace InlineRepl

/-- Why a command failed. Lines count from one. -/
inductive CommandFault where
  /-- The script cannot be read. -/
  | document (path : Path)
  | invalidWatch (start stop : UInt32)
  | invertedBlock (start stop : UInt32)
  | lineOutOfRange (line count : UInt32)
  /-- A popup was shown in place of a result. -/
  | aborted (reason : String)
  | timeout (seconds : UInt64) (awaited : String)
  | session (fault : SessionFault)
  /-- Files, records and everything else that should not fail. -/
  | internal (reason : String)
  deriving Repr, DecidableEq

namespace CommandFault

/-- Two line numbers with a colon between them. -/
def span (start stop : UInt32) : String :=
  toString start.toNat ++ ":" ++ toString stop.toNat

/-- The wording of a fault. -/
def message : CommandFault → String
  | document path => "cannot read " ++ path.text
  | invalidWatch start stop =>
    "lines " ++ span start stop ++ " are outside the document or overlap another watch"
  | invertedBlock start stop => "block " ++ span start stop ++ " ends before it starts"
  | lineOutOfRange line count =>
    "line " ++ toString line.toNat ++ " is outside the document (" ++ toString count.toNat ++
      " lines)"
  | aborted reason => reason
  | timeout seconds awaited =>
    "timeout after " ++ toString seconds.toNat ++ "s waiting for: " ++ awaited
  | session fault => fault.message
  | internal reason => reason

/-- The code of a fault. -/
def code : CommandFault → String
  | document _ => "DOCUMENT_UNREADABLE"
  | invalidWatch .. | invertedBlock .. | lineOutOfRange .. => "INVALID_RANGE"
  | aborted _ => "ABORTED"
  | timeout .. => "TIMEOUT"
  | session fault =>
    if fault.isChannelClosed then "CHANNEL_CLOSED"
    else if fault.isPrecondition then "PRECONDITION_FAILED"
    else "SESSION_ERROR"
  | internal _ => "INTERNAL_ERROR"

/-- The user has already been shown why. -/
def isReported : CommandFault → Bool
  | aborted _ => true
  | _ => false

end CommandFault

end InlineRepl
