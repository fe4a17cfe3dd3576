import InlineRepl.Host.Basic

/-!
# Connecting

Finding the session of a project, or starting one: an id is taken and its lane opened, then the
interpreter, the bridge script and the project root have to be there, in this order; then the
process is started. A client comes back in any case. When something is missing the user is told,
and the client is closed already.
-/

namespace InlineRepl.Host

/-- Gives a connection attempt up and says why. -/
def abortConnect (host : Host) (id : SessionId) (popup : Popup) : Host :=
  ((host.closeLane id).tell .endWorking).tell (.popup popup)

/-- Reports a failed start and lets the session go. -/
def failSession (host : Host) (id : SessionId) (report : String) : Host :=
  (((host.tell .endWorking).tell (.popup (.connectFailed report))).closeLane id).release id

/-- Hands a started process to its session. -/
def adopt (host : Host) (id : SessionId) (pid : Option Nat) : Host :=
  match host.ledger.start id pid with
  | (handle, ledger) =>
    match host.registry.get? id with
    | none => { host with ledger := ledger.drop handle }
    | some session =>
      match session.attachProcess ledger handle with
      | (session, ledger) =>
        { host with ledger, registry := host.registry.modify id fun _ => session }

/-- What keeps a registered session from being started. -/
def refusal? (registry : Registry) (id : SessionId) : Option SessionFault :=
  match registry.get? id with
  | none => some (.launchRefused "session is not registered")
  | some session =>
    if session.interpreter.executable.isEmpty then
      some (.launchRefused "no interpreter executable")
    else if session.root.isEmpty then some (.launchRefused "no project root")
    else none

/-- The process that serves a session. -/
def specOf (host : Host) (session : Session) : LaunchSpec :=
  LaunchSpec.bridge session.interpreter.command session.bridge.bytes host.port session.id
    session.interpreter.executable.bytes session.root

/-- Starts the process of a registered session. -/
def launch (host : Host) (around : Surroundings) (id : SessionId) : Host :=
  match refusal? host.registry id, host.registry.get? id with
  | some _, _ => host
  | none, none => host
  | none, some session =>
    let spec := host.specOf session
    let host := (host.tell (.beginWorking connectingLabel)).tell (.launch id spec)
    match around.launch id spec with
    | .ok pid => host.adopt id pid
    | .error fault => host.failSession id fault.message

/-- Registers a session; the one it puts out is ended. -/
def register (host : Host) (session : Session) : Host :=
  let insertion := host.registry.insert session
  let ledger :=
    match insertion.replaced with
    | some replaced => replaced.dropped host.ledger
    | none => host.ledger
  let host := { host with registry := insertion.registry, ledger }
  match insertion.displaced with
  | none => host
  | some displaced =>
    let host := host.closeLane displaced.id
    { host with ledger := (displaced.kill host.ledger).2.2 }

/-- Starts a session for a target whose root no session serves. -/
def startSession (host : Host) (around : Surroundings) (target : ConnectTarget)
    (root : Option Path) : Client × Host :=
  match host.registry.nextId with
  | (id, registry) =>
    match host.server.open_ id with
    | (client, server) =>
      match host.probe.resolve around.lookup with
      | (interpreter, probe) =>
        let host := { host with registry, server, probe }
        let bridge :=
          BridgeScript.locate around.files around.bridgePlaces host.settings.bridgeScript
        match interpreter, bridge.present, root with
        | none, _, _ => (client, host.abortConnect id (.interpreterMissing interpreterCommand))
        | some _, false, _ => (client, host.abortConnect id (.bridgeMissing bridge.path))
        | some _, true, none => (client, host.abortConnect id (.unsavedDocument target.origin))
        | some interpreter, true, some root =>
          let session : Session :=
            { client, root, origin := target.origin, interpreter, bridge := bridge.path }
          (client, (host.register session).launch around id)

/-- The project root of a target. -/
def rootOf (around : Surroundings) (target : ConnectTarget) : Option Path :=
  target.path.bind (ProjectRoot.locate around.files ProjectRoot.defaultMarker)

/-- Finds the session of a target, or starts one. -/
def tryConnect (host : Host) (around : Surroundings) (target : ConnectTarget) : Client × Host :=
  let root := rootOf around target
  match root.bind host.registry.findByRoot? with
  | some session => (session.client, host)
  | none => host.startSession around target root

end InlineRepl.Host
