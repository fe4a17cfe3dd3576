import InlineRepl.Control.Server
import InlineRepl.Lookup.Interpreter
import InlineRepl.Process.Ledger
import InlineRepl.Session.Handshake

/-!
# Sessions

One interpreter process and one control client, for one project root.
-/

namespace InlineRepl

/-- A live session. -/
structure Session where
  client : Client
  root : Path
  /-- The document the session was started for. -/
  origin : Option DocumentId
  interpreter : Interpreter
  bridge : Path
  handshake : Handshake := {}
  /-- A bridge is connected. -/
  attached : Bool := false
  process : Option ProcessHandle := none
  deriving Repr, DecidableEq

namespace Session

/-- The session's id is its client's. -/
def id (session : Session) : SessionId :=
  session.client.session

/-- How far the start has got. -/
def stage (session : Session) : Stage :=
  session.handshake.stage

/-- The handshake has been completed. -/
def isConnected (session : Session) : Bool :=
  session.handshake.isConnected

/-- The handshake is still open. -/
def isConnecting (session : Session) : Bool :=
  match session.stage with
  | .spawning | .connecting => true
  | .connected | .failed => false

/-- Takes a process over. A session owns one at most, so the one before it is told to end. -/
def attachProcess (session : Session) (ledger : Ledger) (handle : ProcessHandle) :
    Session × Ledger :=
  let ledger :=
    match session.process with
    | some previous => (ledger.kill previous).2
    | none => ledger
  ({ session with process := some handle, handshake := session.handshake.spawned }, ledger)

/-- Tells the session's process to end. The answer is whether there was one to hear it. -/
def kill (session : Session) (ledger : Ledger) : Bool × Session × Ledger :=
  match session.process with
  | none => (false, session, ledger)
  | some handle =>
    match ledger.kill handle with
    | (heard, ledger) => (heard, { session with process := none }, ledger)

/-- Forgets the session; the handle of its process is lost with it. -/
def dropped (session : Session) (ledger : Ledger) : Ledger :=
  match session.process with
  | none => ledger
  | some handle => ledger.drop handle

end Session

end InlineRepl
