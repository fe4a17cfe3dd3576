import InlineRepl.Board
import InlineRepl.Document.Evaluation
import InlineRepl.Lookup.BridgeScript
import InlineRepl.Lookup.ProjectRoot
import InlineRepl.Notice
import InlineRepl.Process.Launch
import InlineRepl.Session.Event
import InlineRepl.Session.Registry
import InlineRepl.Settings.Basic

/-!
# The session host

The host owns the sessions, the control server and the settings. What it tells its surroundings is
kept as a list of calls, in order; what it asks of them comes as a value, `Surroundings`, fixed
while one message is handled.
-/

namespace InlineRepl

/-- A line of the console that belongs to a file. -/
structure LogEntry where
  file : String
  line : String
  content : String
  deriving Repr, DecidableEq

/-- What the host tells its surroundings. -/
inductive Call where
  /-- Work has begun; the label says what kind, or nothing. -/
  | beginWorking (label : String)
  | endWorking
  | popup (popup : Popup)
  | openUrl (url : String)
  | showResult (doc : DocumentId) (anchor : Anchor) (result : InlineResult)
  | updateWatch (doc : DocumentId) (watch : WatchId) (value : String)
  /-- The document should be saved. -/
  | save (doc : DocumentId)
  | log (entry : LogEntry)
  /-- A process is to be started. -/
  | launch (session : SessionId) (spec : LaunchSpec)
  /-- The settings are to be written to a file. -/
  | persist (file : Path) (settings : Settings)
  deriving Repr, DecidableEq

/-- What the host asks of its surroundings. -/
structure Surroundings where
  files : FileView
  /-- Looks the interpreter up on the given search path, or on the environment's. -/
  lookup : Option String → Option Path
  bridgePlaces : BridgePlaces
  /-- Starts a process and gives its number, or says why it could not. -/
  launch : SessionId → LaunchSpec → Except SessionFault (Option Nat)
  /-- Saves a document and gives its path, if it is on disk now. -/
  save : DocumentId → Option Path

/-- The state of the host. -/
structure Host where
  settings : Settings
  /-- Where changed settings are written. -/
  store : Option Path := none
  port : UInt16 := 0
  probe : Probe
  registry : Registry := {}
  server : ControlServer := {}
  ledger : Ledger := {}
  /-- Everything the surroundings were told, in order. -/
  calls : List Call := []
  deriving Repr, DecidableEq

/-- What a connection attempt starts from. -/
structure ConnectTarget where
  origin : Option DocumentId
  path : Option Path
  deriving Repr, DecidableEq

/-- What users ask of the host. -/
inductive HostCommand where
  | evaluate (evaluation : Evaluation)
  /-- Find or start the session of a project. -/
  | connect (dir : Path)
  /-- End the session of a project root. -/
  | disconnect (root : Path)
  /-- A button of a popup was chosen. -/
  | choose (choice : Choice)
  | configure (key : SettingKey) (value : Option Path)
  deriving Repr, DecidableEq

namespace Host

/-- The label shown while an interpreter starts. -/
def connectingLabel : String := "Connecting.."

/-- A host that has just been started. -/
def start (settings : Settings) (store : Option Path) (searchPath : Option String)
    (port : UInt16) : Host :=
  { settings, store, port, probe := { override := settings.interpreter, searchPath } }

/-- Tells the surroundings something. -/
def tell (host : Host) (call : Call) : Host :=
  { host with calls := host.calls ++ [call] }

/-- Closes the control lane of a session. -/
def closeLane (host : Host) (id : SessionId) : Host :=
  { host with server := (host.server.remove id).2 }

/-- Takes a session out of the registry and ends its process. -/
def release (host : Host) (id : SessionId) : Host :=
  match host.registry.remove id with
  | none => host
  | some (session, registry) =>
    { host with registry, ledger := (session.kill host.ledger).2.2 }

/-- Takes a session out of the registry; its process has ended already. -/
def forget (host : Host) (id : SessionId) : Host :=
  match host.registry.remove id with
  | none => host
  | some (session, registry) =>
    { host with registry, ledger := session.dropped host.ledger }

end Host

end InlineRepl
