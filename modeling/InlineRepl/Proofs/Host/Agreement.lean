import InlineRepl.Proofs.Host.Coherence
import InlineRepl.Proofs.Host.Ids
import InlineRepl.Proofs.Session.Handshake

/-!
# The stores of a host agree in every run

Each entry point of the host keeps it coherent, whatever the files and the launcher answer, and
whatever the lookup answers but the empty path. So a host stays coherent over every run.

Results:
* `Coherent.tryConnect`, `Coherent.submit`, `Coherent.disconnect`, `Coherent.configure`,
  `Coherent.handleCommand`, `Coherent.handleEvent`: the entry points one by one.
* `Coherent.take`: every turn keeps a host coherent, as long as ids are left.
* `run_coherent`: so does every run with fewer than 2 ^ 64 connection attempts.
* `stores_agree_in_every_run`: what this means for each of the stores.
-/

namespace InlineRepl

namespace Host

variable {host : Host} {around : Surroundings} {session : Session} {id : SessionId}

/-! ## Connecting -/

/-- Reporting a failed start lets its session go. -/
theorem Coherent.failSession {waiting : Option SessionId} (h : host.Coherent waiting)
    (hm : session ∈ host.registry.sessions) (hw : waiting = none ∨ waiting = some session.id)
    (report : String) : (host.failSession session.id report).Coherent none :=
  ((h.tell .endWorking).tell (.popup (.connectFailed report))).release hm hw

/-- **A launch leaves nobody waiting**: the session has its process, or it is gone. -/
theorem Coherent.launch (h : host.Coherent (some session.id))
    (hm : session ∈ host.registry.sessions)
    (hi : session.interpreter.executable.isEmpty = false) (hr : session.root.isEmpty = false) :
    (host.launch around session.id).Coherent none := by
  have hg : host.registry.get? session.id = some session :=
    h.indexed.get?_eq_some_iff.mpr ⟨hm, rfl⟩
  have ha : (host.announced session.id session).Coherent (some session.id) :=
    (h.tell _).tell _
  rcases launch_cases around hg hi hr with ⟨pid, hl⟩ | ⟨fault, hl⟩
  · rw [hl]
    exact ha.adopt hm pid
  · rw [hl]
    exact ha.failSession hm (.inr rfl) _

theorem Coherent.startSession (h : host.Coherent none) (found : around.NamesWhatItFinds)
    (room : host.registry.lastId.toNat + 1 < 2 ^ 64) {target : ConnectTarget} {root : Option Path}
    (hroot : ∀ r, root = some r → r.isEmpty = false ∧ host.registry.findByRoot? r = none) :
    (host.startSession around target root).2.Coherent none := by
  rcases startSession_cases host around target root with
    ⟨popup, hs⟩ | ⟨interpreter, bridge, r, hi, rfl, hs⟩
  · rw [hs]
    exact h.abort room found
  · obtain ⟨hne, hfree⟩ := hroot r rfl
    rw [hs]
    let session := host.newSession target interpreter bridge r
    have hwait : ((host.opened around).register session).Coherent (some session.id) :=
      h.enrol room (Probe.resolve_remembers h.probe found) hfree
    have hm : session ∈ ((host.opened around).register session).registry.sessions := by
      rw [register_opened h room hfree]
      exact List.mem_cons_self
    exact hwait.launch hm (Probe.resolve_nonempty h.probe found hi) hne

/-- **An attempt to connect** keeps the stores in agreement, whatever it ends in. -/
theorem Coherent.tryConnect (h : host.Coherent none) (found : around.NamesWhatItFinds)
    (room : host.registry.lastId.toNat + 1 < 2 ^ 64) (target : ConnectTarget) :
    (host.tryConnect around target).2.Coherent none := by
  rcases tryConnect_cases host around target with ⟨r, session, -, -, ht⟩ | ⟨hfree, ht⟩
  · rw [ht]
    exact h
  · rw [ht]
    exact h.startSession found room fun r hr => ⟨rootOf_nonempty hr, hfree r hr⟩

/-! ## What users ask for -/

theorem Coherent.submit (h : host.Coherent none) (found : around.NamesWhatItFinds)
    (room : host.registry.lastId.toNat + 1 < 2 ^ 64) (evaluation : Evaluation) :
    (host.submit around evaluation).2.Coherent none := by
  have ht := (h.tell (.beginWorking "")).tryConnect found room
    { origin := some evaluation.origin, path := evaluation.path }
  unfold Host.submit
  dsimp only
  split
  · rename_i hsend
    exact ht.traffic (ControlServer.traffic_send hsend)
  · split
    · exact ht.tell _
    · exact ht

theorem Coherent.disconnect (h : host.Coherent none) (root : Path) :
    (host.disconnect root).2.Coherent none := by
  unfold Host.disconnect
  split
  · exact h
  · rename_i session hf
    exact h.release (h.indexed.findByRoot?_eq_some_iff.mp hf).1 (.inl rfl)

/-- A changed setting touches no store; a new interpreter makes the probe forget. -/
theorem Coherent.configure (h : host.Coherent none) (key : SettingKey) (value : Option Path) :
    (host.configure key value).Coherent none := by
  have hset : ∀ (settings : Settings) (probe : Probe), probe.Remembers →
      { host with settings, probe }.Coherent none := by
    intro settings probe hp
    exact ⟨h.indexed, h.sound, h.lane, h.registered, h.waits, h.alive, hp⟩
  unfold Host.configure
  cases key with
  | interpreter =>
    -- A probe with a new override has found nothing yet.
    have hprobe : ∀ override, (host.probe.setOverride override).Remembers :=
      fun _ _ hp => absurd hp nofun
    dsimp only
    split
    · exact (hset _ _ (hprobe _)).tell _
    · exact hset _ _ (hprobe _)
  | notebookInterpreter | bridgeScript =>
    dsimp only
    split
    · exact (hset _ _ h.probe).tell _
    · exact hset _ _ h.probe

theorem Coherent.handleCommand (h : host.Coherent none) (found : around.NamesWhatItFinds)
    {command : HostCommand}
    (room : Turn.commandConnects command = true → host.registry.lastId.toNat + 1 < 2 ^ 64) :
    (host.handleCommand around command).Coherent none := by
  cases command with
  | evaluate evaluation => exact h.submit found (room rfl) evaluation
  | connect dir => exact h.tryConnect found (room rfl) _
  | disconnect root => exact h.disconnect root
  | choose choice =>
    cases choice with
    | openUrl url => exact h.tell _
    | saveAndRetry doc => exact (h.tell (.save doc)).tryConnect found (room rfl) _
    | dismiss => exact h
  | configure key value => exact h.configure key value

/-! ## Events -/

theorem Coherent.dispatch (h : host.Coherent none) (inbound : Inbound) :
    (host.dispatch inbound).Coherent none := by
  unfold Host.dispatch
  dsimp only
  split
  · exact (h.tell _).tell _
  · exact h.tell _

/-- An exit lets the session go, connected or not. -/
theorem Coherent.onExit (h : host.Coherent none) (hm : session ∈ host.registry.sessions) :
    (host.onExit session.id session).Coherent none := by
  unfold Host.onExit
  split
  · exact h.forget hm
  · rename_i report handshake hexit
    -- The failed handshake is written down first, and goes with the session.
    let change : Session → Session := fun s => { s with handshake }
    have hfailed : change session ∈ (host.registry.modify session.id change).sessions :=
      Registry.mem_modify.mpr ⟨session, hm, by simp⟩
    have hindexed : (host.registry.modify session.id change).Indexed :=
      h.indexed.modify session.id (fun _ _ _ => rfl) fun _ _ _ => rfl
    have hfail : ({ host with registry := host.registry.modify session.id change }.failSession
        session.id report) =
          { ((host.tell .endWorking).tell
                (.popup (.connectFailed report))).closeLane session.id with
            registry := host.registry.drop session.id
            ledger := (session.kill host.ledger).2.2 } := by
      have hdrop : (host.registry.modify session.id change).drop session.id =
          host.registry.drop session.id := Registry.drop_modify fun _ => rfl
      have hremove : (host.registry.modify session.id change).remove session.id =
          some (change session, host.registry.drop session.id) :=
        hdrop ▸ Registry.remove_eq hindexed hfailed
      have hledger : ((change session).kill host.ledger).2.2 = (session.kill host.ledger).2.2 := by
        rw [Session.kill_ledger, Session.kill_ledger]
      rw [← hledger]
      exact release_of_remove hremove
    rw [hfail]
    exact h.part (.inl rfl) rfl rfl (fun _ _ hne hk => h.kill_other hm hne hk) rfl

/-- **An event keeps the stores in agreement**, also a late one and one that was made up. -/
theorem Coherent.handleEvent (h : host.Coherent none) (event : SessionEvent) :
    (host.handleEvent event).Coherent none := by
  unfold Host.handleEvent
  split
  · exact h
  rename_i session hg
  obtain ⟨hm, hid⟩ := h.indexed.get?_eq_some_iff.mp hg
  have hstage := (h.alive session hm nofun).stage
  have heq : ∀ s ∈ host.registry.sessions, s.id = event.session → s = session :=
    fun s hs he => h.indexed.eq_of_id hs hm (he.trans hid.symm)
  unfold onHappening
  split
  · rename_i text _
    have hrev := h.revise event.session
      (fun s => { s with handshake := (session.handshake.onStdout text).2 })
      (fun _ => rfl) (fun _ => rfl) (fun _ => rfl)
      fun _ _ _ => Handshake.stage_onStdout hstage
    dsimp only
    split
    · exact hrev.tell _
    · exact hrev
  · rename_i text _
    exact h.revise event.session
      (fun s => { s with handshake := session.handshake.onStderr text })
      (fun _ => rfl) (fun _ => rfl) (fun _ => rfl)
      fun _ _ _ => Handshake.stage_onStderr hstage
  · exact hid ▸ h.onExit hm
  · exact h.revise _ _ (fun _ => rfl) (fun _ => rfl) (fun _ => rfl)
      fun s hs he => heq s hs he ▸ hstage
  · exact h.revise _ _ (fun _ => rfl) (fun _ => rfl) (fun _ => rfl)
      fun s hs he => heq s hs he ▸ hstage
  · exact h.dispatch _

/-! ## Runs -/

/-- **Every turn keeps the stores of a host in agreement**, as long as an id is left for it. -/
theorem Coherent.take (h : host.Coherent none) {turn : Turn}
    (found : ∀ around, turn.around? = some around → around.NamesWhatItFinds)
    (room : turn.connects = true → host.registry.lastId.toNat + 1 < 2 ^ 64) :
    (host.take turn).Coherent none := by
  cases turn with
  | tryConnect around target => exact h.tryConnect (found around rfl) (room rfl) target
  | evaluate around doc scope => exact h.submit (found around rfl) (room rfl) _
  | submit around evaluation => exact h.submit (found around rfl) (room rfl) evaluation
  | disconnect root => exact h.disconnect root
  | configure key value => exact h.configure key value
  | command around command => exact h.handleCommand (found around rfl) room
  | event event => exact h.handleEvent event
  | greet hello =>
    simp only [Host.take]
    split
    · rename_i hgreet
      exact h.traffic (ControlServer.traffic_greet hgreet)
    · exact h
  | transmit lane =>
    simp only [Host.take]
    split
    · rename_i hsent
      exact h.traffic (ControlServer.traffic_transmit hsent)
    · exact h
  | hangUp lane => exact h.traffic (ControlServer.traffic_hangUp _ lane)

/-- **Runs keep the stores of a host in agreement**, as long as ids are left. -/
theorem run_coherent : ∀ (turns : List Turn) (host : Host), host.Coherent none →
    (∀ turn ∈ turns, ∀ around, turn.around? = some around → around.NamesWhatItFinds) →
    host.registry.lastId.toNat + attempts turns < 2 ^ 64 → (host.run turns).Coherent none
  | [], _, h, _, _ => h
  | turn :: turns, host, h, found, room => by
    rw [attempts_cons] at room
    have hstep := lastId_take_le host turn
    have htake : (host.take turn).Coherent none := by
      refine h.take (found turn List.mem_cons_self) fun hc => ?_
      rw [hc, if_pos rfl] at room
      omega
    refine run_coherent turns _ htake
      (fun other hm => found other (List.mem_cons_of_mem _ hm)) ?_
    omega

/-- **The stores of a host, as their readers see them.** -/
structure Agrees (host : Host) : Prop where
  /-- The registered ids are those with a current lane. -/
  slots : ∀ id, host.registry.contains id = true ↔ host.server.contains id = true
  /-- A session holds the open client of its id's current lane. -/
  client : ∀ id session, host.registry.get? id = some session →
    session.client.session = id ∧ host.server.current? id = some session.client.lane ∧
      host.server.isOpen session.client = true
  /-- A session has a process, which nobody has stopped and whose handle nobody has lost. -/
  process : ∀ id session, host.registry.get? id = some session →
    ∃ handle, session.process = some handle ∧ host.ledger.fate? handle.serial = some .running
  stage : ∀ id session, host.registry.get? id = some session →
    session.stage = .connecting ∨ session.stage = .connected
  /-- The index of roots leads from the root of each session to its id, and from no other root. -/
  index : ∀ root id, host.registry.idOfRoot? root = some id ↔
    ∃ session, host.registry.get? id = some session ∧ session.root.same root = true
  /-- No two sessions share a root. -/
  rootsDiffer : ∀ id other session rival, host.registry.get? id = some session →
    host.registry.get? other = some rival → session.root.same rival.root = true → id = other
  /-- A search by root finds the session that stands there, and nothing else. -/
  search : ∀ root session, host.registry.findByRoot? root = some session ↔
    host.registry.get? session.id = some session ∧ session.root.same root = true

theorem Coherent.agrees (h : host.Coherent none) : host.Agrees where
  slots := fun id => by
    rw [Registry.contains_iff, ControlServer.contains_iff]
    constructor
    · rintro ⟨s, hs, rfl⟩
      exact ⟨_, h.lane s hs⟩
    · rintro ⟨n, hn⟩
      exact h.registered id n hn
  client := fun id session hg => by
    obtain ⟨hm, rfl⟩ := h.indexed.get?_eq_some_iff.mp hg
    exact ⟨rfl, h.lane session hm, h.sound.isOpen_of_current (h.lane session hm)⟩
  process := fun id session hg => by
    obtain ⟨hm, rfl⟩ := h.indexed.get?_eq_some_iff.mp hg
    obtain ⟨handle, hp, hr⟩ := (h.alive session hm nofun).running
    refine ⟨handle, hp, ?_⟩
    unfold Ledger.fate?
    rw [hr]
    rfl
  stage := fun id session hg => (h.alive session (h.indexed.get?_eq_some_iff.mp hg).1 nofun).stage
  index := fun root id => by
    rw [h.indexed.idOfRoot?_eq_some_iff]
    constructor
    · rintro ⟨s, hs, hr, hid⟩
      exact ⟨s, h.indexed.get?_eq_some_iff.mpr ⟨hs, hid⟩, hr⟩
    · rintro ⟨s, hg, hr⟩
      obtain ⟨hs, hid⟩ := h.indexed.get?_eq_some_iff.mp hg
      exact ⟨s, hs, hr, hid⟩
  rootsDiffer := fun id other session rival hg ho hr => by
    obtain ⟨hs, rfl⟩ := h.indexed.get?_eq_some_iff.mp hg
    obtain ⟨ht, rfl⟩ := h.indexed.get?_eq_some_iff.mp ho
    rw [h.indexed.eq_of_root hs ht hr]
  search := fun root session => by
    rw [h.indexed.findByRoot?_eq_some_iff, h.indexed.get?_eq_some_iff]
    exact ⟨fun ⟨hm, hr⟩ => ⟨⟨hm, rfl⟩, hr⟩, fun ⟨⟨hm, _⟩, hr⟩ => ⟨hm, hr⟩⟩

/-- **In every run the stores of a host agree**, as long as it makes fewer than 2 ^ 64 connection
attempts: whatever is asked of it, whichever events come, and whatever the files and the launcher
answer. The lookup may answer anything but the empty path, which names no file. -/
theorem stores_agree_in_every_run (settings : Settings) (store : Option Path)
    (searchPath : Option String) (port : UInt16) (turns : List Turn)
    (found : ∀ turn ∈ turns, ∀ around, turn.around? = some around → around.NamesWhatItFinds)
    (few : attempts turns < 2 ^ 64) :
    ((start settings store searchPath port).run turns).Agrees := by
  refine (run_coherent turns _ (start_coherent settings store searchPath port) found ?_).agrees
  show (0 : UInt64).toNat + attempts turns < 2 ^ 64
  simpa using few

/-- The stores agree after a start, two chunks of its output and a disconnect that names no root of
a session. -/
theorem stores_agree_after_a_start :
    let turns : List Turn :=
      [.tryConnect .furnished { origin := some ⟨1⟩, path := some ⟨"/work"⟩ },
        .event { session := ⟨1⟩, happening := .stdout "Conn" },
        .event { session := ⟨1⟩, happening := .stdout "ected" }, .disconnect ⟨"/elsewhere"⟩]
    let host := (start .fresh none none 0).run turns
    host.registry.contains ⟨1⟩ = true ∧ host.Agrees := by
  refine ⟨by decide +kernel, stores_agree_in_every_run .fresh none none 0 _ ?_ (by decide)⟩
  intro turn hm around ha
  obtain rfl | rfl | rfl | rfl : _ ∨ _ ∨ _ ∨ _ := by simpa using hm
  · obtain rfl := Option.some.inj ha
    exact Surroundings.furnished_names
  all_goals exact absurd ha nofun

end Host

end InlineRepl
