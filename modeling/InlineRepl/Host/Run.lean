import InlineRepl.Host.Connect
import InlineRepl.Host.Dispatch

/-!
# Commands and events

Everything that reaches the host: evaluations, commands, session events, and the end. Events of a
session that is not registered are ignored.
-/

namespace InlineRepl.Host

/-- Sends an evaluation, connecting first if need be. -/
def submit (host : Host) (around : Surroundings) (evaluation : Evaluation) :
    Except SessionFault Unit × Host :=
  let host := host.tell (.beginWorking "")
  match host.tryConnect around { origin := some evaluation.origin, path := evaluation.path } with
  | (client, host) =>
    match host.server.send client evaluation.request with
    | .ok server => (.ok (), { host with server })
    | .error fault =>
      -- A start that was given up or failed has ended the work already.
      (.error fault,
        if host.registry.contains client.session then host.tell .endWorking else host)

/-- Evaluates part of a document. -/
def evaluate (host : Host) (around : Surroundings) (doc : Document) (scope : Scope) :
    Except SessionFault Unit × Host :=
  host.submit around (Evaluation.ofDocument doc scope)

/-- Ends the session of a root. The answer is whether there was one. -/
def disconnect (host : Host) (root : Path) : Bool × Host :=
  match host.registry.findByRoot? root with
  | none => (false, host)
  | some session => (true, (host.closeLane session.id).release session.id)

/-- Changes a setting, and writes all of them if there is a file for them. -/
def configure (host : Host) (key : SettingKey) (value : Option Path) : Host :=
  let settings := host.settings.set key value
  let host := { host with settings }
  let host :=
    match key with
    | .interpreter => { host with probe := host.probe.setOverride settings.interpreter }
    | _ => host
  match host.store with
  | some file => host.tell (.persist file settings)
  | none => host

/-- Does what a popup's button asks for. -/
def choose (host : Host) (around : Surroundings) : Choice → Host
  | .openUrl url => host.tell (.openUrl url)
  | .saveAndRetry doc =>
    ((host.tell (.save doc)).tryConnect around { origin := some doc, path := around.save doc }).2
  | .dismiss => host

/-- Handles a command. -/
def handleCommand (host : Host) (around : Surroundings) : HostCommand → Host
  | .evaluate evaluation => (host.submit around evaluation).2
  | .connect dir => (host.tryConnect around { origin := none, path := some dir }).2
  | .disconnect root => (host.disconnect root).2
  | .choose choice => host.choose around choice
  | .configure key value => host.configure key value

/-- The process of a session has ended. -/
def onExit (host : Host) (id : SessionId) (session : Session) : Host :=
  match session.handshake.onExit with
  | (.afterConnect, _) => (host.closeLane id).forget id
  | (.failed report, handshake) =>
    failSession
      { host with registry := host.registry.modify id fun s => { s with handshake } } id report

/-- Handles an event of a registered session. -/
def onHappening (host : Host) (id : SessionId) (session : Session) : Happening → Host
  | .stdout text =>
    match session.handshake.onStdout text with
    | (completed, handshake) =>
      let host :=
        { host with registry := host.registry.modify id fun s => { s with handshake } }
      if completed then host.tell .endWorking else host
  | .stderr text =>
    let handshake := session.handshake.onStderr text
    { host with registry := host.registry.modify id fun s => { s with handshake } }
  | .exit _ => host.onExit id session
  | .attached =>
    { host with registry := host.registry.modify id fun s => { s with attached := true } }
  | .detached =>
    { host with registry := host.registry.modify id fun s => { s with attached := false } }
  | .inbound inbound => host.dispatch inbound

/-- Handles an event. -/
def handleEvent (host : Host) (event : SessionEvent) : Host :=
  match host.registry.get? event.session with
  | none => host
  | some session => host.onHappening event.session session event.happening

/-- Ends every session. -/
def shutdown (host : Host) : Host :=
  host.registry.ids.foldl (fun host id => (host.closeLane id).release id) host

end InlineRepl.Host
