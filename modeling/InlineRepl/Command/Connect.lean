import InlineRepl.Command.Environment
import InlineRepl.Connector
import InlineRepl.Invocation.Basic
import InlineRepl.Report.Envelope

/-!
# Connecting from the command line

Starts the session of a project and waits until it has connected, was given up, or the limit is
reached. The session is ended at the end of the command, unless it is held until it ends by itself.
-/

namespace InlineRepl.Connect

/-- How the wait for a session ended. -/
inductive Verdict where
  | connected (session : Session)
  | aborted (reason : String)
  | timedOut
  | waiting
  deriving Repr, DecidableEq

/-- What the state of a host says about the wait, if it says anything. A popup comes first. -/
def decided? (screen : Screen) (host : Host) : Option Verdict :=
  match (screen.terminal host).firstPopup with
  | some header => some (.aborted header)
  | none =>
    match host.registry.sessions.find? Session.isConnected with
    | some session => some (.connected session)
    | none => if host.registry.isEmpty then some (.aborted "session ended") else none

/-- How far a wait has come. -/
structure Waited where
  verdict : Verdict
  host : Host
  /-- The time at which it ended. -/
  time : Nat
  /-- The moments not yet met. -/
  rest : List (Nat × Moment) := []

/-- Waits for a session to connect, from a time on. -/
def wait (screen : Screen) (host : Host) (time : Nat) : List (Nat × Moment) → Waited
  | [] => { verdict := (decided? screen host).getD .waiting, host, time }
  | (next, moment) :: moments =>
    match decided? screen host with
    | some verdict => { verdict, host, time, rest := (next, moment) :: moments }
    | none =>
      match moment with
      | .limit => { verdict := .timedOut, host, time := next, rest := moments }
      | .quiet => wait screen host next moments
      | .event event => wait screen (host.handleEvent event) next moments

/-- Serves a session until it has ended. The answer is whether it has, and when it was last served.
-/
def hold (host : Host) (session : SessionId) (time : Nat) :
    List (Nat × Moment) → Bool × Host × Nat
  | [] => (false, host, time)
  | (next, .event event) :: moments =>
    let host := host.handleEvent event
    if host.registry.contains session then hold host session next moments else (true, host, next)
  | (next, _) :: moments => hold host session next moments

/-- The JSON value of a connected session. -/
def report (port : UInt16) (session : Session) : Json :=
  .obj [("session", session.id.toJson), ("root", .str session.root.text),
    ("interpreter", .str session.interpreter.executable.text), ("controlPort", .nat port.toNat)]

/-- A connected session as text. -/
def render (port : UInt16) (color : Bool) (session : Session) : String :=
  Text.styledIf color "1;32" "Connected" ++ " " ++ session.root.text ++ " (session " ++
    session.id.display ++ ", control port " ++ toString port.toNat ++ ")\n"

/-- The directory of a project: the one that is given, or else the current one, if it can be told.
It is spelled from the root if it exists. -/
def directory (env : Environment) (given : Option Path) : Option Path :=
  (given.or env.currentDir).map fun dir =>
    match env.tree.canonical dir with
    | .ok path => path
    | .error _ => dir

/-- Waits for the session of a host that has been told to connect, and reports it. -/
def await (env : Environment) (format : OutputFormat) (args : ConnectArgs) (started : Host) :
    Outcome :=
  let screen : Screen := { echo := false, color := env.color }
  let limit := args.timeout.toNat * 1000
  if env.reaches args.timeout = false then
    Outcome.ofTerminal (screen.terminal started) env.tree .overflow
  else
    -- Only its limit ends this wait early, so it has patience up to then.
    let waited := wait screen started 0 (env.moments started limit limit)
    let host := waited.host
    let tree := env.treeAt started waited.time
    let terminal := screen.terminal host
    match waited.verdict with
    | .connected session =>
      let line :=
        if format = .text then render host.port env.color session
        else (Envelope.success "connect" (report host.port session)).print format
      if args.hold = false then
        { ending := .done, tree, out := terminal.out ++ line, err := terminal.err }
      else
        match hold host session.id waited.time waited.rest with
        | (ended, later, time) =>
          let terminal := (later.calls.drop host.calls.length).foldl Terminal.hear
            (terminal.complain "Press Ctrl-C to disconnect.")
          let terminal := if ended then terminal.complain "Interpreter exited." else terminal
          { ending := if ended then .done else .waiting
            tree := env.treeAt started time
            out := terminal.out ++ line
            err := terminal.err }
    | .aborted reason => Outcome.ofTerminal terminal tree (.failed (.aborted reason))
    | .timedOut =>
      Outcome.ofTerminal terminal tree
        (.failed (.timeout (shownLimit args.timeout) "interpreter to connect"))
    | .waiting => Outcome.ofTerminal terminal tree .waiting

/-- Carries a connection out. -/
def run (env : Environment) (file : Path) (format : OutputFormat) (args : ConnectArgs) : Outcome :=
  match env.startHost file with
  | .error fault => Outcome.ofFault env.tree (.session fault)
  | .ok host =>
    match Connector.fsharp.connect (directory env args.dir) with
    | none =>
      { ending := .failed (.aborted "no directory selected")
        err := Connector.fsharp.description ++ "\n"
        tree := env.tree }
    | some command => await env format args (host.handleCommand env.around command)

end InlineRepl.Connect
