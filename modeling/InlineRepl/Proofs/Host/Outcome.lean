import InlineRepl.Proofs.Host.Life

/-!
# A connection attempt is all or nothing

An attempt takes an id, opens a lane, registers a session and asks for a process before it knows
whether it succeeds. It has one of three outcomes.

* `Reuses`: a session stands at the root of the target. Its client is handed out, and nothing of the
  host changes, whatever has become of the interpreter and the bridge script.
* `Starts`: the launcher was asked once and gave a process. The sessions, the index of their roots
  and the current lanes have one entry more, that of a fresh id, and all the others are as they
  were.
* `Fails`: something was missing, or the launcher refused. The sessions, the index and the current
  lanes are as they were, the lane that was opened is closed, and one popup says why.

`Reason` says which popup it is, and what else the surroundings were told before.

Results:
* `Reuses.not_starts`, `Reuses.not_fails`, `Starts.not_fails`: at most one of the three.
* `Enrols.starts`, `Enrols.fails`: where nothing is missing, the launcher decides which it is.
* `Coherent.attempt_cases`: what an attempt does, whatever the lookup answers.
* `Coherent.outcome`: an attempt of a coherent host reuses, starts or fails.
* `attempt_all_or_nothing`: every attempt does exactly one of these, in every state of a host.
-/

namespace InlineRepl

namespace Host

variable {host : Host} {around : Surroundings} {target : ConnectTarget} {root : Path}
  {session : Session} {popup : Popup}

/-! ## Three outcomes -/

/-- **A session is reused**: one stands at the root of the target, its client is handed out, and the
host stays as it was. -/
structure Reuses (host : Host) (around : Surroundings) (target : ConnectTarget) : Prop where
  found : ∃ root session, rootOf around target = some root ∧
    host.registry.findByRoot? root = some session ∧
    (host.tryConnect around target).1 = session.client
  untouched : (host.tryConnect around target).2 = host

/-- **A session is started** at the root of the target, where none stood. -/
structure Starts (host : Host) (around : Surroundings) (target : ConnectTarget)
    (session : Session) : Prop where
  located : rootOf around target = some session.root
  free : host.registry.findByRoot? session.root = none
  /-- The id has never been handed out, and no session is registered under it. -/
  fresh : session.id.val.toNat = host.registry.lastId.toNat + 1 ∧
    host.registry.contains session.id = false
  /-- The launcher is asked once, to start a process in the root, and gives one; nothing else is
  told but that work has begun. -/
  launched : ∃ spec, spec.cwd = session.root ∧ (∃ pid, around.launch session.id spec = .ok pid) ∧
    (host.tryConnect around target).2.calls =
      host.calls ++ [.beginWorking "Connecting..", .launch session.id spec]
  registry : (host.tryConnect around target).2.registry =
    { sessions := session :: host.registry.sessions
      byRoot := (session.root, session.id) :: host.registry.byRoot
      lastId := session.id.val }
  lanes : (host.tryConnect around target).2.server =
    { lanes := host.server.lanes ++ [{ session := session.id }]
      current := (session.id, session.client.lane) :: host.server.current }
  client : (host.tryConnect around target).1 = session.client ∧
    (host.tryConnect around target).2.server.isOpen session.client = true
  processes : (host.tryConnect around target).2.ledger.fates =
    host.ledger.fates ++ [(session.id, .running)]

/-- **Why an attempt fails**: what the surroundings were told until then, and the popup. Either the
first of interpreter, bridge script and root that is missing is named, and the launcher was not
asked; or all three are there and the launcher has refused. -/
inductive Reason (host : Host) (around : Surroundings) (target : ConnectTarget) :
    List Call → Popup → Prop
  | missing {popup : Popup} (lacks : host.Lacks around target (rootOf around target) popup) :
      Reason host around target [] popup
  | refused {interpreter : Interpreter} {root : Path} {spec : LaunchSpec} {fault : SessionFault}
      (hi : (host.probe.resolve around.lookup).1 = some interpreter)
      (hb : (host.bridgeOf around).present = true) (hr : rootOf around target = some root)
      (hcwd : spec.cwd = root) (hl : around.launch host.registry.nextId.1 spec = .error fault) :
      Reason host around target [.beginWorking "Connecting..", .launch host.registry.nextId.1 spec]
        (.connectFailed fault.message)

/-- **An attempt fails**, and leaves nothing but a spent id and a closed lane. -/
structure Fails (host : Host) (around : Surroundings) (target : ConnectTarget) (popup : Popup) :
    Prop where
  free : ∀ root, rootOf around target = some root → host.registry.findByRoot? root = none
  /-- The work is ended and one popup shown, in this order and last of all. -/
  told : ∃ before, host.Reason around target before popup ∧
    (host.tryConnect around target).2.calls = host.calls ++ before ++ [.endWorking, .popup popup]
  registry : (host.tryConnect around target).2.registry =
    { host.registry with lastId := host.registry.lastId + 1 }
  lanes : (host.tryConnect around target).2.server =
    { lanes := host.server.lanes ++
        [{ session := (host.tryConnect around target).1.session, isOpen := false }]
      current := host.server.current }
  closed : (host.tryConnect around target).2.server.isOpen (host.tryConnect around target).1 = false
  processes : (host.tryConnect around target).2.ledger = host.ledger

/-! ## At most one of them -/

theorem Reuses.not_starts (h : host.Reuses around target) :
    ¬ host.Starts around target session := by
  intro hs
  obtain ⟨other, found, hr, hf, -⟩ := h.found
  obtain rfl := Option.some.inj (hr.symm.trans hs.located)
  exact absurd (hf.symm.trans hs.free) nofun

theorem Reuses.not_fails (h : host.Reuses around target) : ¬ host.Fails around target popup := by
  intro hf
  obtain ⟨root, session, hr, hs, -⟩ := h.found
  exact absurd (hs.symm.trans (hf.free root hr)) nofun

/-- What is told last tells a start and a failure apart. -/
theorem Starts.not_fails (h : host.Starts around target session) :
    ¬ host.Fails around target popup := by
  intro hf
  obtain ⟨spec, -, -, hstarted⟩ := h.launched
  obtain ⟨before, -, hfailed⟩ := hf.told
  have hlast := (List.append_inj' (hstarted.symm.trans hfailed) rfl).2
  exact absurd hlast (by simp)

/-! ## At least one of them -/

/-- The next id has no lane yet. -/
theorem Coherent.nextId_free (h : host.Coherent none)
    (room : host.registry.lastId.toNat + 1 < 2 ^ 64) :
    host.server.current? host.registry.nextId.1 = none := by
  cases hc : host.server.current? host.registry.nextId.1 with
  | none => rfl
  | some lane =>
    obtain ⟨s, hs, he⟩ := h.registered _ _ hc
    exact absurd he (h.indexed.nextId_fresh room s hs)

/-- The client of an attempt is open or closed as the lane is that the attempt has opened. -/
theorem isOpen_nextClient {server : ControlServer} {lane : Lane}
    (hl : server.lanes = host.server.lanes ++ [lane]) :
    server.isOpen host.nextClient = lane.isOpen := by
  have hlane : server.lanes[host.nextClient.lane]? = some lane := by
    rw [hl]
    exact List.getElem?_concat_length
  unfold ControlServer.isOpen
  rw [hlane]

/-- **An attempt that lacks something** fails. -/
theorem Coherent.fails_of_lacks (h : host.Coherent none)
    (room : host.registry.lastId.toNat + 1 < 2 ^ 64)
    (free : ∀ root, rootOf around target = some root → host.registry.findByRoot? root = none)
    (lacks : host.Lacks around target (rootOf around target) popup)
    (ht : host.tryConnect around target =
      (host.nextClient, (host.opened around).abortConnect host.registry.nextId.1 popup)) :
    host.Fails around target popup := by
  have hserver : ((host.opened around).abortConnect host.registry.nextId.1 popup).server =
      { lanes := host.server.lanes ++ [{ session := host.nextClient.session, isOpen := false }]
        current := host.server.current } :=
    ControlServer.remove_open_fresh (h.nextId_free room)
  refine ⟨free, ⟨[], .missing lacks, ?_⟩, ?_, ?_, ?_, ?_⟩ <;> rw [ht]
  · rw [List.append_nil]
    exact List.append_assoc host.calls _ _
  · rfl
  · exact hserver
  · exact isOpen_nextClient (congrArg ControlServer.lanes hserver)
  · rfl

/-- The host once the new session has been registered, next to all the others. -/
def enrolled (host : Host) (around : Surroundings) (session : Session) : Host :=
  { host.opened around with registry := host.registry.nextId.2.add session }

/-- **Nothing is missing**: the attempt has registered a session for the root of the target, and
goes on with what the launcher answers. -/
structure Enrols (host : Host) (around : Surroundings) (target : ConnectTarget)
    (session : Session) : Prop where
  complete : ∃ interpreter, (host.probe.resolve around.lookup).1 = some interpreter ∧
    (host.bridgeOf around).present = true
  located : rootOf around target = some session.root
  free : host.registry.findByRoot? session.root = none
  client : session.client = host.nextClient
  process : session.process = none
  waits : (host.enrolled around session).Coherent (some session.id)
  attempt : host.tryConnect around target =
    (session.client,
      match around.launch session.id ((host.enrolled around session).specOf session) with
      | .ok pid =>
        ((host.enrolled around session).announced session.id session).adopt session.id pid
      | .error fault =>
        ((host.enrolled around session).announced session.id session).failSession session.id
          fault.message)

/-- **A session is kept waiting**: the lookup has named an interpreter without a path. The attempt
has registered the session, and nothing is launched for it. -/
structure KeepsWaiting (host : Host) (around : Surroundings) (target : ConnectTarget)
    (session : Session) : Prop where
  nameless : ∃ interpreter, (host.probe.resolve around.lookup).1 = some interpreter ∧
    interpreter.executable.isEmpty = true
  client : session.client = host.nextClient
  attempt : host.tryConnect around target = (session.client, host.enrolled around session)

/-- **What an attempt does**, whatever the lookup answers: it reuses a session, fails for what is
missing, registers a session, or keeps one waiting. -/
theorem Coherent.attempt_cases (h : host.Coherent none)
    (room : host.registry.lastId.toNat + 1 < 2 ^ 64) (target : ConnectTarget) :
    host.Reuses around target ∨ (∃ popup, host.Fails around target popup) ∨
      (∃ session, host.Enrols around target session) ∨
        ∃ session, host.KeepsWaiting around target session := by
  rcases tryConnect_cases host around target with ⟨root, session, hr, hf, ht⟩ | ⟨free, ht⟩
  · exact .inl ⟨⟨root, session, hr, hf, congrArg Prod.fst ht⟩, congrArg Prod.snd ht⟩
  rcases startSession_outcome host around target (rootOf around target) with
    ⟨popup, lacks, hs⟩ | ⟨interpreter, root, hi, hb, hr, hs⟩
  · exact .inr (.inl ⟨popup, h.fails_of_lacks room free lacks (ht.trans hs)⟩)
  let session := host.newSession target interpreter (host.bridgeOf around).path root
  have hadd : (host.opened around).register session = host.enrolled around session :=
    register_opened h room (free root hr)
  have hindexed : (host.enrolled around session).registry.Indexed :=
    (h.indexed.nextId room).add (h.indexed.nextId_fresh room)
      (h.indexed.free_of_findByRoot? (free root hr)) (UInt64.le_refl _)
  have hg : (host.enrolled around session).registry.get? session.id = some session :=
    hindexed.get?_eq_some_iff.mpr ⟨List.mem_cons_self, rfl⟩
  rw [hadd] at hs
  cases hempty : interpreter.executable.isEmpty with
  | true =>
    have hkept : (host.enrolled around session).launch around session.id =
        host.enrolled around session := by
      have hrefused : refusal? (host.enrolled around session).registry session.id =
          some (.launchRefused "no interpreter executable") := by
        unfold refusal?
        rw [hg]
        exact if_pos hempty
      rw [Host.launch, hrefused]
    exact .inr (.inr (.inr ⟨session, ⟨interpreter, hi, hempty⟩, rfl,
      (ht.trans hs).trans (congrArg (Prod.mk _) hkept)⟩))
  | false =>
    have hwait : (host.enrolled around session).Coherent (some session.id) :=
      hadd ▸ h.enrol room (Probe.remembers_of_resolve hi hempty) (free root hr)
    have hlaunch := launch_eq around hg (refusal?_eq_none hg hempty (rootOf_nonempty hr))
    exact .inr (.inr (.inl ⟨session, ⟨interpreter, hi, hb⟩, hr, free root hr, rfl, rfl, hwait,
      (ht.trans hs).trans (congrArg (Prod.mk _) hlaunch)⟩))

/-- Where the lookup names what it finds, no session is kept waiting. -/
theorem Coherent.not_keepsWaiting (h : host.Coherent none) (found : around.NamesWhatItFinds) :
    ¬ host.KeepsWaiting around target session := by
  intro hk
  obtain ⟨interpreter, hi, hempty⟩ := hk.nameless
  exact absurd (hempty.symm.trans (Probe.resolve_nonempty h.probe found hi)) nofun

/-- A session that is registered has its client's id, which is the next one. -/
theorem Enrols.id_eq (e : host.Enrols around target session) :
    session.id = host.registry.nextId.1 :=
  congrArg Client.session e.client

/-- **With a process, the session is started.** -/
theorem Enrols.starts (e : host.Enrols around target session) (h : host.Coherent none)
    (room : host.registry.lastId.toNat + 1 < 2 ^ 64) {pid : Option Nat}
    (hl : around.launch session.id ((host.enrolled around session).specOf session) = .ok pid) :
    ∃ session, host.Starts around target session := by
  let started : Session :=
    { session with
      process := some (host.ledger.start session.id pid).1
      handshake := session.handshake.spawned }
  have hfresh : ∀ s ∈ host.registry.nextId.2.sessions, s.id ≠ session.id :=
    e.id_eq ▸ h.indexed.nextId_fresh room
  have hadded : (host.registry.nextId.2.add session).modify session.id (fun _ => started) =
      host.registry.nextId.2.add started := Registry.modify_add hfresh rfl rfl
  have hg : ((host.enrolled around session).announced session.id session).registry.get? session.id =
      some session := e.waits.indexed.get?_eq_some_iff.mpr ⟨List.mem_cons_self, rfl⟩
  have hadopt : ((host.enrolled around session).announced session.id session).adopt session.id pid =
      _ := adopt_eq hg e.process pid
  have ht := e.attempt
  rw [hl] at ht
  dsimp only at ht
  rw [hadopt] at ht
  have hserver : (host.tryConnect around target).2.server =
      { lanes := host.server.lanes ++ [{ session := session.id }]
        current := (session.id, session.client.lane) :: host.server.current } := by
    rw [ht, e.id_eq, e.client]
    exact ControlServer.open_fresh (h.nextId_free room)
  refine ⟨started, e.located, e.free, ⟨?_, ?_⟩, ⟨_, rfl, ⟨pid, hl⟩, ?_⟩, ?_, hserver,
    ⟨congrArg Prod.fst ht, ?_⟩, ?_⟩
  · show session.id.val.toNat = _
    rw [e.id_eq]
    exact Registry.nextId_lastId room
  · rw [Bool.eq_false_iff, ne_eq, Registry.contains_iff]
    rintro ⟨s, hs, he⟩
    exact hfresh s hs he
  · rw [ht]
    exact List.append_assoc host.calls _ _
  · have hlast : host.registry.nextId.2.lastId = session.id.val :=
      congrArg SessionId.val e.id_eq.symm
    rw [ht]
    refine hadded.trans ?_
    unfold Registry.add
    rw [hlast]
    rfl
  · show (host.tryConnect around target).2.server.isOpen session.client = true
    rw [e.client]
    exact isOpen_nextClient (congrArg ControlServer.lanes hserver)
  · rw [ht]
    rfl

/-- **Without a process, the attempt fails**: the session is let go, and its lane is closed. -/
theorem Enrols.fails (e : host.Enrols around target session) (h : host.Coherent none)
    (room : host.registry.lastId.toNat + 1 < 2 ^ 64) {fault : SessionFault}
    (hl : around.launch session.id ((host.enrolled around session).specOf session) =
      .error fault) :
    host.Fails around target (.connectFailed fault.message) := by
  have hfresh : ∀ s ∈ host.registry.nextId.2.sessions, s.id ≠ session.id :=
    e.id_eq ▸ h.indexed.nextId_fresh room
  have hremove : (host.enrolled around session).registry.remove session.id =
      some (session, host.registry.nextId.2) := by
    rw [Registry.remove_eq e.waits.indexed List.mem_cons_self]
    exact congrArg (fun registry => some (session, registry))
      (Registry.drop_add (h.indexed.nextId room) hfresh)
  have hfail : ((host.enrolled around session).announced session.id session).failSession session.id
      fault.message = _ := release_of_remove hremove
  have ht := e.attempt
  rw [hl] at ht
  dsimp only at ht
  rw [hfail] at ht
  have hserver : (host.tryConnect around target).2.server =
      { lanes := host.server.lanes ++ [{ session := session.client.session, isOpen := false }]
        current := host.server.current } := by
    rw [ht, e.client]
    exact e.id_eq ▸ ControlServer.remove_open_fresh (h.nextId_free room)
  have hclient : (host.tryConnect around target).1 = session.client := congrArg Prod.fst ht
  obtain ⟨interpreter, hi, hb⟩ := e.complete
  refine ⟨fun root hr => ?_, ⟨_, .refused hi hb e.located rfl (e.id_eq ▸ hl), ?_⟩, ?_, ?_, ?_, ?_⟩
  · obtain rfl := Option.some.inj (e.located.symm.trans hr)
    exact e.free
  · rw [ht]
    simp [closeLane, tell, announced, enrolled, opened, connectingLabel, e.id_eq]
  · rw [ht]
    rfl
  · rw [hserver, hclient, e.client]
  · rw [hclient, e.client]
    exact isOpen_nextClient (congrArg ControlServer.lanes hserver)
  · rw [ht]
    show (session.kill host.ledger).2.2 = host.ledger
    rw [Session.kill_ledger, e.process]

/-- **An attempt of a coherent host reuses, starts or fails.** -/
theorem Coherent.outcome (h : host.Coherent none) (found : around.NamesWhatItFinds)
    (room : host.registry.lastId.toNat + 1 < 2 ^ 64) (target : ConnectTarget) :
    host.Reuses around target ∨ (∃ session, host.Starts around target session) ∨
      ∃ popup, host.Fails around target popup := by
  rcases h.attempt_cases room target with hr | hf | ⟨session, e⟩ | ⟨session, hk⟩
  · exact .inl hr
  · exact .inr (.inr hf)
  case inr.inr.inr => exact absurd hk (h.not_keepsWaiting found)
  · cases hl : around.launch session.id ((host.enrolled around session).specOf session) with
    | ok pid => exact .inr (.inl (e.starts h room hl))
    | error fault => exact .inr (.inr ⟨_, e.fails h room hl⟩)

/-- **A connection attempt is all or nothing.** In every state that a host can be in, and for every
target, an attempt does exactly one of the three, whatever the files and the launcher answer. The
lookup may answer anything but the empty path, which names no file. -/
theorem attempt_all_or_nothing (settings : Settings) (store : Option Path)
    (searchPath : Option String) (port : UInt16) {deeds : List Deed} {around : Surroundings}
    (found : ∀ deed ∈ deeds, ∀ other, deed.around? = some other → other.NamesWhatItFinds)
    (names : around.NamesWhatItFinds) (few : tries deeds + 1 < 2 ^ 64) (target : ConnectTarget) :
    let host := (start settings store searchPath port).live deeds
    (host.Reuses around target ∧ (∀ session, ¬ host.Starts around target session) ∧
        ∀ popup, ¬ host.Fails around target popup) ∨
      ((∃ session, host.Starts around target session) ∧ ¬ host.Reuses around target ∧
        ∀ popup, ¬ host.Fails around target popup) ∨
      ((∃ popup, host.Fails around target popup) ∧ ¬ host.Reuses around target ∧
        ∀ session, ¬ host.Starts around target session) := by
  intro host
  obtain ⟨h, room⟩ := reached_coherent settings store searchPath port found few
  rcases h.outcome names room target with hr | ⟨session, hs⟩ | ⟨popup, hf⟩
  · exact .inl ⟨hr, fun _ => hr.not_starts, fun _ => hr.not_fails⟩
  · exact .inr (.inl ⟨⟨session, hs⟩, fun hr => hr.not_starts hs, fun _ => hs.not_fails⟩)
  · exact .inr (.inr ⟨⟨popup, hf⟩, fun hr => hr.not_fails hf, fun _ hs => hs.not_fails hf⟩)

/-- A root whose session was ended by a shutdown is started again. -/
theorem starts_after_a_shutdown :
    let target : ConnectTarget := { origin := none, path := some ⟨"/work"⟩ }
    let host := (start .fresh none none 0).live [.take (.tryConnect .furnished target), .shutdown]
    ∃ session, host.Starts .furnished target session := by
  intro target host
  have found : ∀ deed ∈ [Deed.take (.tryConnect .furnished target), .shutdown], ∀ other,
      deed.around? = some other → other.NamesWhatItFinds := by
    intro deed hm other ho
    obtain rfl | rfl : _ ∨ _ := by simpa using hm
    · obtain rfl := Option.some.inj ho
      exact Surroundings.furnished_names
    · exact absurd ho nofun
  rcases attempt_all_or_nothing .fresh none none 0 found Surroundings.furnished_names (by decide)
    target with ⟨hr, -⟩ | ⟨hs, -⟩ | ⟨⟨popup, hf⟩, -⟩
  · exact absurd (congrArg Host.calls hr.untouched) (by decide +kernel)
  · exact hs
  · exact absurd hf.closed (by decide +kernel)

end Host

end InlineRepl
