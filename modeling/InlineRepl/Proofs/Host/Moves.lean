import InlineRepl.Proofs.Host.Frame
import InlineRepl.Proofs.Host.Life
import InlineRepl.Proofs.Process.Custody
import Mathlib.Logic.Relation

/-!
# The moves that a host is made of

Whatever a host does comes down to six kinds of `Host.Move`: something is told, a lane is opened,
closed or used, a session is changed, one goes with its process stopped, one comes without a
process, or the launcher has started a process. `Host.Moves` is a chain of moves. No assumption is
made about the state that the host is in, nor about what its surroundings answer.

Results:
* `moves_register`, `moves_launch`, `moves_tryConnect`, `moves_submit`, `moves_disconnect`,
  `moves_handleEvent`, `moves_take`, `moves_shutdown`: each of them is a chain of moves.
* `moves_act`: and so is all that a host does.
-/

namespace InlineRepl

/-- The session that a call has started a process for. -/
def Surroundings.started (around : Surroundings) : Call → Option SessionId
  | .launch id spec =>
    match around.launch id spec with
    | .ok _ => some id
    | .error _ => none
  | _ => none

theorem Surroundings.started_of_ok {around : Surroundings} {id : SessionId} {spec : LaunchSpec}
    {pid : Option Nat} (h : around.launch id spec = .ok pid) :
    around.started (.launch id spec) = some id := by
  simp only [started, h]

theorem Surroundings.started_of_error {around : Surroundings} {id : SessionId} {spec : LaunchSpec}
    {fault : SessionFault} (h : around.launch id spec = .error fault) :
    around.started (.launch id spec) = none := by
  simp only [started, h]

namespace Host

variable {host after : Host} {around : Surroundings} {session : Session} {id : SessionId}

/-- **What a host is made of.** -/
inductive Move (around : Surroundings) (host : Host) : Host → Prop
  /-- The surroundings are told something that starts no process, and what changes besides is
  neither a session nor a lane nor a fate. -/
  | note {after : Host} (more : List Call) (quiet : more.filterMap around.started = [])
      (calls : after.calls = host.calls ++ more)
      (sessions : after.registry.sessions = host.registry.sessions)
      (server : after.server = host.server) (ledger : after.ledger = host.ledger) :
      Move around host after
  | lane {server : ControlServer} (change : host.server.Change server) :
      Move around host { host with server }
  /-- A session changes, and keeps its client and its process. -/
  | revise (id : SessionId) (change : Session → Session)
      (client : ∀ s, (change s).client = s.client)
      (process : ∀ s, (change s).process = s.process) :
      Move around host { host with registry := host.registry.modify id change }
  /-- A session goes, and its process is stopped. -/
  | leave {session : Session} (registered : host.registry.get? session.id = some session)
      {registry : Registry} (sessions : registry.sessions = host.registry.without session.id)
      {fate : Fate} (ended : fate.Ended) :
      Move around host { host with registry, ledger := host.ledger.part session.process fate }
  /-- A session comes that has no process yet. -/
  | enter {session : Session} (fresh : ∀ s ∈ host.registry.sessions, s.id ≠ session.id)
      (moored : host.server.Moors session.client) (process : session.process = none)
      {registry : Registry} (sessions : registry.sessions = session :: host.registry.sessions) :
      Move around host { host with registry }
  /-- The launcher has started a process, which is handed to its session. -/
  | start {id : SessionId} {spec : LaunchSpec} {pid : Option Nat}
      (launched : around.launch id spec = .ok pid) :
      Move around host ((host.tell (.launch id spec)).adopt id pid)

/-- One move after the other. -/
def Moves (around : Surroundings) : Host → Host → Prop :=
  Relation.ReflTransGen (Move around)

theorem Moves.refl (host : Host) : Moves around host host :=
  Relation.ReflTransGen.refl

theorem Moves.trans {last : Host} (h : Moves around host after) (hl : Moves around after last) :
    Moves around host last :=
  Relation.ReflTransGen.trans h hl

theorem Move.moves (h : Move around host after) : Moves around host after :=
  Relation.ReflTransGen.single h

/-! ## Small changes -/

/-- Nothing but what the surroundings are told and what no invariant reads. -/
theorem moves_note (calls : after.calls = host.calls)
    (sessions : after.registry.sessions = host.registry.sessions)
    (server : after.server = host.server) (ledger : after.ledger = host.ledger) :
    Moves around host after :=
  (Move.note [] rfl (calls.trans (List.append_nil _).symm) sessions server ledger).moves

theorem moves_tell {call : Call} (h : around.started call = none) (host : Host) :
    Moves around host (host.tell call) := by
  have hmove : Move around host (host.tell call) :=
    .note [call] (List.filterMap_cons_none h) rfl rfl rfl rfl
  exact hmove.moves

theorem moves_closeLane (host : Host) (id : SessionId) : Moves around host (host.closeLane id) :=
  (Move.lane (.remove id)).moves

theorem moves_release (host : Host) (id : SessionId) : Moves around host (host.release id) := by
  unfold release Registry.remove
  cases hg : host.registry.get? id with
  | none => exact Moves.refl host
  | some session =>
    obtain rfl := (Registry.mem_of_get? hg).2
    dsimp only
    rw [Session.kill_eq_part]
    exact (Move.leave hg rfl (.inl rfl)).moves

theorem moves_forget (host : Host) (id : SessionId) : Moves around host (host.forget id) := by
  unfold forget Registry.remove
  cases hg : host.registry.get? id with
  | none => exact Moves.refl host
  | some session =>
    obtain rfl := (Registry.mem_of_get? hg).2
    dsimp only
    rw [Session.dropped_eq_part]
    exact (Move.leave hg rfl (.inr rfl)).moves

theorem moves_failSession (host : Host) (id : SessionId) (report : String) :
    Moves around host (host.failSession id report) :=
  (moves_tell rfl host).trans ((moves_tell rfl _).trans
    ((moves_closeLane _ id).trans (moves_release _ id)))

theorem moves_abortConnect (host : Host) (id : SessionId) (popup : Popup) :
    Moves around host (host.abortConnect id popup) :=
  (moves_closeLane host id).trans ((moves_tell rfl _).trans (moves_tell rfl _))

/-! ## Connecting -/

/-- A session of the id goes, if there is one. -/
theorem moves_without (host : Host) (id : SessionId) {registry : Registry}
    (sessions : registry.sessions = host.registry.without id) {fate : Fate} (ended : fate.Ended) :
    Moves around host
      { host with
        registry
        ledger := host.ledger.part ((host.registry.get? id).bind Session.process) fate } := by
  cases hg : host.registry.get? id with
  | none => exact moves_note rfl (sessions.trans (Registry.without_of_get?_none hg)) rfl rfl
  | some session =>
    obtain rfl := (Registry.mem_of_get? hg).2
    exact (Move.leave hg sessions ended).moves

/-- The host once a session has come in and the processes of those that it puts out are stopped. -/
def entered (host : Host) (session : Session) : Host :=
  { host with
    registry := (host.registry.insert session).registry
    ledger := (host.ledger.part
      ((host.registry.insert session).replaced.bind Session.process) .dropped).part
        ((host.registry.insert session).displaced.bind Session.process) .killed }

/-- **A registration** closes the lane of a session of the same root. -/
theorem register_eq (host : Host) (session : Session) :
    host.register session =
      match (host.registry.insert session).displaced with
      | none => host.entered session
      | some displaced => (host.entered session).closeLane displaced.id := by
  unfold register entered
  dsimp only
  cases (host.registry.insert session).replaced <;>
    cases (host.registry.insert session).displaced <;>
    simp only [Session.kill_eq_part, Session.dropped_eq_part, closeLane] <;> rfl

theorem registry_register :
    (host.register session).registry = (host.registry.insert session).registry := by
  rw [register_eq]
  split <;> rfl

/-- A session that comes in leads to the host with it, once those that it puts out have gone. -/
theorem moves_entered (host : Host) (moored : host.server.Moors session.client)
    (process : session.process = none) : Moves around host (host.entered session) := by
  obtain ⟨hreplaced, hdisplaced⟩ := Registry.insert_cases host.registry session
  let cleared : Host :=
    { host with
      registry := { host.registry with sessions := host.registry.without session.id }
      ledger := host.ledger.part ((host.registry.get? session.id).bind Session.process) .dropped }
  have hcleared : Moves around host cleared := moves_without host session.id rfl (.inr rfl)
  have hfresh : ∀ s ∈ cleared.registry.sessions, s.id ≠ session.id :=
    fun s hs => (mem_without.mp hs).2
  unfold entered
  rw [hreplaced]
  rcases hdisplaced with ⟨hnone, hsessions⟩ | ⟨displaced, hsome, hne, hg, hsessions⟩
  · rw [hnone]
    exact hcleared.trans (Move.enter hfresh moored process hsessions).moves
  · have hfound : cleared.registry.get? displaced.id = some displaced :=
      (Registry.find?_without hne).trans hg
    let left : Host :=
      { cleared with
        registry := { cleared.registry with sessions := cleared.registry.without displaced.id }
        ledger := cleared.ledger.part displaced.process .killed }
    have hleft : Moves around cleared left := (Move.leave hfound rfl (.inl rfl)).moves
    have hmoored : left.server.Moors session.client := moored
    have henter : Move around left
        { left with registry := (host.registry.insert session).registry } :=
      .enter (fun s hs => hfresh s (List.mem_filter.mp hs).1) hmoored process hsessions
    rw [hsome]
    exact hcleared.trans (hleft.trans henter.moves)

theorem moves_register (host : Host) (moored : host.server.Moors session.client)
    (process : session.process = none) : Moves around host (host.register session) := by
  rw [register_eq]
  split
  · exact moves_entered host moored process
  · exact (moves_entered host moored process).trans (moves_closeLane _ _)

/-- **A launch** starts a process for the session, fails and lets the session go, or is refused. -/
theorem moves_launch (host : Host) (id : SessionId) :
    Moves around host (host.launch around id) := by
  rcases launch_outcome host around id with
    hl | ⟨session, -, ⟨pid, hstarted, hl⟩ | ⟨fault, hfailed, hl⟩⟩
  · rw [hl]
    exact Moves.refl host
  · rw [hl]
    exact (moves_tell rfl host).trans (Move.start hstarted).moves
  · rw [hl]
    exact (moves_tell rfl host).trans
      ((moves_tell (Surroundings.started_of_error hfailed) _).trans (moves_failSession _ _ _))

/-- A lane is opened for the next id. -/
theorem moves_opened (host : Host) : Moves around host (host.opened around) := by
  let taken : Host :=
    { host with
      registry := host.registry.nextId.2
      probe := (host.probe.resolve around.lookup).2 }
  have htaken : Moves around host taken := moves_note rfl rfl rfl rfl
  have hopen : Move around taken (host.opened around) := .lane (.open_ host.registry.nextId.1)
  exact htaken.trans hopen.moves

theorem moves_tryConnect (host : Host) (target : ConnectTarget) :
    Moves around host (host.tryConnect around target).2 := by
  rcases tryConnect_cases host around target with ⟨_, _, -, -, ht⟩ | ⟨-, ht⟩
  · rw [ht]
    exact Moves.refl host
  rcases startSession_cases host around target (rootOf around target) with
    ⟨popup, hs⟩ | ⟨interpreter, bridge, root, -, -, hs⟩
  · rw [ht, hs]
    exact (moves_opened host).trans (moves_abortConnect _ _ popup)
  · rw [ht, hs]
    have hregister : Moves around (host.opened around)
        ((host.opened around).register (host.newSession target interpreter bridge root)) :=
      moves_register _ (ControlServer.moors_open_ host.server host.registry.nextId.1) rfl
    exact (moves_opened host).trans (hregister.trans (moves_launch _ _))

/-! ## What users ask for -/

theorem moves_submit (host : Host) (evaluation : Evaluation) :
    Moves around host (host.submit around evaluation).2 := by
  have hconnect : Moves around host ((host.tell (.beginWorking "")).tryConnect around
      { origin := some evaluation.origin, path := evaluation.path }).2 :=
    (moves_tell rfl host).trans (moves_tryConnect _ _)
  unfold submit
  dsimp only
  split
  · rename_i hsend
    exact hconnect.trans (Move.lane (.traffic (ControlServer.traffic_send hsend))).moves
  · split
    · exact hconnect.trans (moves_tell rfl _)
    · exact hconnect

theorem moves_disconnect (host : Host) (root : Path) :
    Moves around host (host.disconnect root).2 := by
  unfold disconnect
  split
  · exact Moves.refl host
  · exact (moves_closeLane host _).trans (moves_release _ _)

theorem moves_configure (host : Host) (key : SettingKey) (value : Option Path) :
    Moves around host (host.configure key value) := by
  have hset : ∀ (settings : Settings) (probe : Probe),
      Moves around host { host with settings, probe } := fun _ _ => moves_note rfl rfl rfl rfl
  unfold configure
  cases key with
  | interpreter =>
    dsimp only
    split
    · exact (hset _ _).trans (moves_tell rfl _)
    · exact hset _ _
  | notebookInterpreter | bridgeScript =>
    dsimp only
    split
    · exact (hset _ _).trans (moves_tell rfl _)
    · exact hset _ _

theorem moves_handleCommand (host : Host) (command : HostCommand) :
    Moves around host (host.handleCommand around command) := by
  cases command with
  | evaluate evaluation => exact moves_submit host evaluation
  | connect dir => exact moves_tryConnect host _
  | disconnect root => exact moves_disconnect host root
  | choose choice =>
    cases choice with
    | openUrl url => exact moves_tell rfl host
    | saveAndRetry doc => exact (moves_tell rfl host).trans (moves_tryConnect _ _)
    | dismiss => exact Moves.refl host
  | configure key value => exact moves_configure host key value

/-! ## Events -/

/-- No response starts a process. -/
theorem started_callOf {inbound : Inbound} {call : Call} (h : callOf inbound = some call) :
    around.started call = none := by
  unfold callOf at h
  dsimp only at h
  split at h
  iterate 3
    · obtain rfl := Option.some.inj h
      rfl
  · split at h
    · obtain rfl := Option.some.inj h
      rfl
    · exact absurd h nofun
  · obtain rfl := Option.some.inj h
    rfl
  · obtain ⟨watch, -, rfl⟩ := Option.map_eq_some_iff.mp h
    rfl

theorem moves_dispatch (host : Host) (inbound : Inbound) :
    Moves around host (host.dispatch inbound) := by
  unfold dispatch
  dsimp only
  split
  · rename_i hcall
    exact (moves_tell rfl host).trans (moves_tell (started_callOf hcall) _)
  · exact moves_tell rfl host

/-- A session's handshake goes on. -/
theorem moves_handshake (host : Host) (id : SessionId) (handshake : Handshake) :
    Moves around host
      { host with registry := host.registry.modify id fun s => { s with handshake } } :=
  (Move.revise id (fun s => { s with handshake }) (fun _ => rfl) fun _ => rfl).moves

theorem moves_onExit (host : Host) (id : SessionId) (session : Session) :
    Moves around host (host.onExit id session) := by
  unfold onExit
  split
  · exact (moves_closeLane host id).trans (moves_forget _ id)
  · exact (moves_handshake host id _).trans (moves_failSession _ _ _)

theorem moves_handleEvent (host : Host) (event : SessionEvent) :
    Moves around host (host.handleEvent event) := by
  exact handleEvent_keeps (Moves around host) (Moves.refl host)
    (fun _ _ => Move.moves (.revise event.session _ (fun _ => rfl) fun _ => rfl))
    (fun after h => h.trans (moves_tell rfl after))
    (fun session _ _ _ => moves_onExit host _ session) fun inbound _ => moves_dispatch host inbound

/-! ## All that a host does -/

/-- **Every turn is a chain of moves**, with the answers that it has been given. -/
theorem moves_take (host : Host) {turn : Turn}
    (answers : ∀ other, turn.around? = some other → other = around) :
    Moves around host (host.take turn) := by
  cases turn with
  | tryConnect other target =>
    obtain rfl := answers other rfl
    exact moves_tryConnect host target
  | evaluate other doc scope =>
    obtain rfl := answers other rfl
    exact moves_submit host _
  | submit other evaluation =>
    obtain rfl := answers other rfl
    exact moves_submit host evaluation
  | disconnect root => exact moves_disconnect host root
  | configure key value => exact moves_configure host key value
  | command other command =>
    obtain rfl := answers other rfl
    exact moves_handleCommand host command
  | event event => exact moves_handleEvent host event
  | greet hello =>
    simp only [take]
    split
    · rename_i hgreet
      exact (Move.lane (.traffic (ControlServer.traffic_greet hgreet))).moves
    · exact Moves.refl host
  | transmit lane =>
    simp only [take]
    split
    · rename_i hsent
      exact (Move.lane (.traffic (ControlServer.traffic_transmit hsent))).moves
    · exact Moves.refl host
  | hangUp lane => exact (Move.lane (.traffic (ControlServer.traffic_hangUp _ lane))).moves

theorem moves_shutdown (host : Host) : Moves around host host.shutdown :=
  shutdown_keeps (Moves around host)
    (fun after id h => h.trans ((moves_closeLane after id).trans (moves_release _ id)))
    (Moves.refl host)

/-- **All that a host does is a chain of moves**, with the answers that it has been given. -/
theorem moves_act (host : Host) {deed : Deed}
    (answers : ∀ other, deed.around? = some other → other = around) :
    Moves around host (host.act deed) := by
  cases deed with
  | take turn => exact moves_take host answers
  | shutdown => exact moves_shutdown host

end Host

end InlineRepl
