import InlineRepl.Proofs.Control.Lanes
import InlineRepl.Proofs.Host.Attempt
import InlineRepl.Proofs.Session.Index

/-!
# The stores of a host agree

A host keeps four stores: its sessions, the index of their roots, the lanes of the control server,
and the fates of processes. `Host.Coherent` says how they agree between two turns: the sessions are
those with a current lane, each holds the client of that lane and a process that nobody has
stopped, and its handshake is under way or done.

While a connection attempt is being made, the session it has registered still waits for its
process. `Host.Coherent` therefore takes the id of the session that waits, if one does; between two
turns none does.

Results:
* `start_coherent`: a host that has just been started is coherent.
* `Coherent.modify`, `Coherent.revise`: a session changes.
* `Coherent.enrol`, `Coherent.adopt`, `Coherent.part`: a session comes in, gets its process, and
  goes.
-/

namespace InlineRepl

/-! ## Fates -/

namespace Ledger

variable {ledger : Ledger} {serial k : Nat}

/-- Settling one fate leaves the others as they are. -/
theorem settle_of_ne {fate : Fate} (h : serial ≠ k) :
    (ledger.settle serial fate).fates[k]? = ledger.fates[k]? := by
  unfold settle
  rw [List.getElem?_modify_ne _ _ h]

/-- Starting a process leaves the earlier fates as they are. -/
theorem start_of_some {session : SessionId} {pid : Option Nat} {entry : SessionId × Fate}
    (h : ledger.fates[k]? = some entry) : (ledger.start session pid).2.fates[k]? = some entry := by
  have hk := (List.getElem?_eq_some_iff.mp h).1
  show (ledger.fates ++ [(session, Fate.running)])[k]? = _
  rw [List.getElem?_append_left hk, h]

theorem start_running {session : SessionId} {pid : Option Nat} :
    (ledger.start session pid).2.fates[(ledger.start session pid).1.serial]? =
      some (session, Fate.running) := by
  show (ledger.fates ++ [(session, Fate.running)])[ledger.fates.length]? = _
  simp

end Ledger

namespace Session

variable {session : Session} {ledger : Ledger}

/-- A session has a process that nobody has stopped, and its handshake is under way or done. -/
structure Alive (session : Session) (ledger : Ledger) : Prop where
  running : ∃ handle, session.process = some handle ∧
    ledger.fates[handle.serial]? = some (session.id, Fate.running)
  stage : session.stage = .connecting ∨ session.stage = .connected

/-- A session that has been registered and has no process yet. -/
structure Waits (session : Session) : Prop where
  process : session.process = none
  stage : session.stage = .spawning

/-- Ending a session's process depends on its handle alone. -/
theorem kill_ledger : (session.kill ledger).2.2 =
    match session.process with
    | none => ledger
    | some handle => (ledger.kill handle).2 := by
  unfold kill
  cases session.process <;> rfl

theorem Alive.of_fates {after : Ledger} (h : session.Alive ledger)
    (hf : ∀ k : Nat, ledger.fates[k]? = some (session.id, Fate.running) →
      after.fates[k]? = some (session.id, Fate.running)) : session.Alive after := by
  obtain ⟨handle, hp, hr⟩ := h.running
  exact ⟨⟨handle, hp, hf _ hr⟩, h.stage⟩

end Session

namespace Host

variable {host after : Host} {waiting : Option SessionId} {id : SessionId} {session s : Session}

/-- **The stores of a host agree**, the session named by `waiting` still being without a process. -/
structure Coherent (waiting : Option SessionId) (host : Host) : Prop where
  indexed : host.registry.Indexed
  sound : host.server.Sound
  /-- A session holds the client of its id's current lane. -/
  lane : ∀ s ∈ host.registry.sessions, host.server.current? s.id = some s.client.lane
  /-- An id with a current lane is registered. -/
  registered : ∀ id n, host.server.current? id = some n → ∃ s ∈ host.registry.sessions, s.id = id
  waits : ∀ s ∈ host.registry.sessions, waiting = some s.id → s.Waits
  alive : ∀ s ∈ host.registry.sessions, waiting ≠ some s.id → s.Alive host.ledger
  probe : host.probe.Remembers

/-- A host that has just been started is coherent. -/
theorem start_coherent (settings : Settings) (store : Option Path) (searchPath : Option String)
    (port : UInt16) : (start settings store searchPath port).Coherent none where
  indexed := Registry.indexed_empty
  sound := ControlServer.sound_empty
  lane := fun _ h => absurd h List.not_mem_nil
  registered := fun _ _ h => absurd h (by simp [start, ControlServer.current?])
  waits := fun _ h => absurd h List.not_mem_nil
  alive := fun _ h => absurd h List.not_mem_nil
  probe := fun _ h => absurd h (by simp [start])

/-! ## Changes that the stores do not see -/

/-- Only the four stores and the probe count. -/
theorem Coherent.of_eq (h : host.Coherent waiting) (hr : after.registry = host.registry)
    (hs : after.server = host.server) (hl : after.ledger = host.ledger)
    (hp : after.probe = host.probe) : after.Coherent waiting := by
  obtain ⟨h1, h2, h3, h4, h5, h6, h7⟩ := h
  refine ⟨?_, ?_, ?_, ?_, ?_, ?_, ?_⟩
  all_goals simpa only [hr, hs, hl, hp]

theorem Coherent.told (h : host.Coherent waiting) (calls : List Call) :
    { host with calls }.Coherent waiting :=
  h.of_eq rfl rfl rfl rfl

theorem Coherent.tell (h : host.Coherent waiting) (call : Call) :
    (host.tell call).Coherent waiting :=
  h.told _

/-- What sends and bridges do to the lanes does not show. -/
theorem Coherent.traffic (h : host.Coherent waiting) {server : ControlServer}
    (ht : host.server.Traffic server) : { host with server }.Coherent waiting where
  indexed := h.indexed
  sound := ht.sound h.sound
  lane := fun s hs => (ht.current? s.id).trans (h.lane s hs)
  registered := fun id n hn => h.registered id n ((ht.current? id).symm.trans hn)
  waits := h.waits
  alive := h.alive
  probe := h.probe

/-- **A session changes** and keeps its client and its root: it is alive afterwards, and no other
session's process has been stopped. -/
theorem Coherent.modify (h : host.Coherent waiting) (hw : waiting = none ∨ waiting = some id)
    {change : Session → Session} {ledger : Ledger}
    (hc : ∀ s ∈ host.registry.sessions, s.id = id → (change s).client = s.client)
    (hr : ∀ s ∈ host.registry.sessions, s.id = id → (change s).root = s.root)
    (ha : ∀ s ∈ host.registry.sessions, s.id = id → (change s).Alive ledger)
    (hl : ∀ (other : SessionId) (k : Nat), host.ledger.fates[k]? = some (other, Fate.running) →
      ledger.fates[k]? = some (other, Fate.running)) :
    { host with registry := host.registry.modify id change, ledger }.Coherent none := by
  have hid : ∀ s ∈ host.registry.sessions, s.id = id → (change s).id = s.id :=
    fun s hs he => congrArg Client.session (hc s hs he)
  refine ⟨h.indexed.modify id hid hr, h.sound, ?_, ?_, fun s _ hn => absurd hn (by simp), ?_,
    h.probe⟩
  · intro t ht
    obtain ⟨s, hs, rfl⟩ := Registry.mem_modify.mp ht
    split
    · rename_i he
      rw [hid s hs he, hc s hs he]
      exact h.lane s hs
    · exact h.lane s hs
  · intro other n hn
    obtain ⟨s, hs, rfl⟩ := h.registered other n hn
    refine ⟨_, Registry.mem_modify.mpr ⟨s, hs, rfl⟩, ?_⟩
    split
    · exact hid s hs ‹_›
    · rfl
  · intro t ht _
    obtain ⟨s, hs, rfl⟩ := Registry.mem_modify.mp ht
    split
    · exact ha s hs ‹_›
    · rename_i hne
      refine (h.alive s hs ?_).of_fates fun k => hl s.id k
      rcases hw with rfl | rfl
      · simp
      · simpa using Ne.symm hne

/-- A change of a session's record that keeps its client, its root, its process and a stage of the
handshake that is under way or done. -/
theorem Coherent.revise (h : host.Coherent none) (id : SessionId) (change : Session → Session)
    (hc : ∀ s, (change s).client = s.client) (hr : ∀ s, (change s).root = s.root)
    (hp : ∀ s, (change s).process = s.process)
    (hg : ∀ s ∈ host.registry.sessions, s.id = id →
      (change s).stage = .connecting ∨ (change s).stage = .connected) :
    { host with registry := host.registry.modify id change }.Coherent none := by
  show { host with registry := host.registry.modify id change, ledger := host.ledger }.Coherent none
  refine h.modify (.inl rfl) (fun s _ _ => hc s) (fun s _ _ => hr s) ?_ fun _ _ hk => hk
  intro s hs he
  obtain ⟨handle, hh, hrun⟩ := (h.alive s hs (by simp)).running
  have hid : (change s).id = s.id := congrArg Client.session (hc s)
  exact ⟨⟨handle, (hp s).trans hh, by rw [hid]; exact hrun⟩, hg s hs he⟩

/-! ## A session goes -/

/-- **A session goes**: its lane is closed, it leaves the registry, and nothing but its own process
may have been stopped. Whoever waited is gone with it. -/
theorem Coherent.part (h : host.Coherent waiting) (hw : waiting = none ∨ waiting = some id)
    (hr : after.registry = host.registry.drop id) (hs : after.server = (host.server.remove id).2)
    (hl : ∀ (other : SessionId) (k : Nat), other ≠ id →
      host.ledger.fates[k]? = some (other, Fate.running) →
      after.ledger.fates[k]? = some (other, Fate.running))
    (hp : after.probe = host.probe) : after.Coherent none := by
  refine ⟨?_, ?_, ?_, ?_, fun s _ hn => absurd hn (by simp), ?_, ?_⟩
  · rw [hr]
    exact h.indexed.drop id
  · rw [hs]
    exact h.sound.remove id
  · intro s hm
    rw [hr] at hm
    obtain ⟨hm, hne⟩ := Registry.mem_drop.mp hm
    rw [hs, ControlServer.current?_remove, if_neg hne]
    exact h.lane s hm
  · intro other n hn
    rw [hs, ControlServer.current?_remove] at hn
    split at hn
    · exact absurd hn (by simp)
    · rename_i hne
      obtain ⟨s, hm, rfl⟩ := h.registered other n hn
      rw [hr]
      exact ⟨s, Registry.mem_drop.mpr ⟨hm, hne⟩, rfl⟩
  · intro s hm _
    rw [hr] at hm
    obtain ⟨hm, hne⟩ := Registry.mem_drop.mp hm
    refine (h.alive s hm ?_).of_fates fun k => hl s.id k hne
    rcases hw with rfl | rfl
    · simp
    · simpa using Ne.symm hne
  · rw [hp]
    exact h.probe

/-- Stopping the process of a session, or losing its handle, leaves the others' running. -/
theorem Coherent.settle_other (h : host.Coherent waiting) (hm : session ∈ host.registry.sessions)
    (handle : ProcessHandle) (hh : session.process = some handle) (fate : Fate) {other : SessionId}
    {k : Nat} (hne : other ≠ session.id) (hk : host.ledger.fates[k]? = some (other, Fate.running)) :
    (host.ledger.settle handle.serial fate).fates[k]? = some (other, Fate.running) := by
  by_cases hw : waiting = some session.id
  · rw [(h.waits session hm hw).process] at hh
    exact absurd hh (by simp)
  · obtain ⟨own, hp, hr⟩ := (h.alive session hm hw).running
    rw [hp] at hh
    obtain rfl := Option.some.inj hh
    rw [Ledger.settle_of_ne, hk]
    rintro rfl
    rw [hr] at hk
    simp only [Option.some.injEq, Prod.mk.injEq] at hk
    exact hne hk.1.symm

/-- Ending the process of a session leaves the others' running. -/
theorem Coherent.kill_other (h : host.Coherent waiting) (hm : session ∈ host.registry.sessions)
    {other : SessionId} {k : Nat} (hne : other ≠ session.id)
    (hk : host.ledger.fates[k]? = some (other, Fate.running)) :
    (session.kill host.ledger).2.2.fates[k]? = some (other, Fate.running) := by
  unfold Session.kill
  split
  · exact hk
  · rename_i handle hh
    exact h.settle_other hm handle hh .killed hne hk

theorem release_of_remove {registry : Registry}
    (h : host.registry.remove id = some (session, registry)) :
    host.release id = { host with registry, ledger := (session.kill host.ledger).2.2 } := by
  unfold Host.release
  rw [h]

theorem forget_of_remove {registry : Registry}
    (h : host.registry.remove id = some (session, registry)) :
    host.forget id = { host with registry, ledger := session.dropped host.ledger } := by
  unfold Host.forget
  rw [h]

/-- Closing a session's lane and releasing it lets it go. -/
theorem Coherent.release (h : host.Coherent waiting) (hm : session ∈ host.registry.sessions)
    (hw : waiting = none ∨ waiting = some session.id) :
    ((host.closeLane session.id).release session.id).Coherent none := by
  have hrel : (host.closeLane session.id).release session.id =
      { host.closeLane session.id with
        registry := host.registry.drop session.id, ledger := (session.kill host.ledger).2.2 } := by
    exact release_of_remove (Registry.remove_eq h.indexed hm)
  rw [hrel]
  exact h.part hw rfl rfl (fun _ _ hne hk => h.kill_other hm hne hk) rfl

/-- Closing a session's lane and forgetting it lets it go. -/
theorem Coherent.forget (h : host.Coherent none) (hm : session ∈ host.registry.sessions) :
    ((host.closeLane session.id).forget session.id).Coherent none := by
  have hforget : (host.closeLane session.id).forget session.id =
      { host.closeLane session.id with
        registry := host.registry.drop session.id, ledger := session.dropped host.ledger } := by
    exact forget_of_remove (Registry.remove_eq h.indexed hm)
  rw [hforget]
  refine h.part (.inl rfl) rfl rfl (fun other k hne hk => ?_) rfl
  show (session.dropped host.ledger).fates[k]? = _
  unfold Session.dropped
  split
  · exact hk
  · rename_i handle hh
    exact h.settle_other hm handle hh .dropped hne hk

/-! ## A session comes -/

/-- **Giving an attempt up** leaves nothing of it but the id it took. -/
theorem Coherent.abort (h : host.Coherent none) {around : Surroundings} {popup : Popup}
    (room : host.registry.lastId.toNat + 1 < 2 ^ 64) (found : around.NamesWhatItFinds) :
    ((host.opened around).abortConnect host.registry.nextId.1 popup).Coherent none := by
  have hfresh := h.indexed.nextId_fresh room
  have hcur : ∀ other,
      ((host.opened around).server.remove host.registry.nextId.1).2.current? other =
      if other = host.registry.nextId.1 then none else host.server.current? other := by
    intro other
    rw [ControlServer.current?_remove]
    split
    · rfl
    · rename_i hne
      rw [opened, ControlServer.current?_open_, if_neg hne]
  refine Coherent.tell (Coherent.tell ?_ _) _
  refine ⟨h.indexed.nextId room, (h.sound.open_ _).remove _, ?_, ?_,
    fun s _ hn => absurd hn (by simp), h.alive, Probe.resolve_remembers h.probe found⟩
  · intro s hs
    exact (hcur s.id).trans ((if_neg (hfresh s hs)).trans (h.lane s hs))
  · intro other n hn
    have hn := (hcur other).symm.trans hn
    split at hn
    · exact absurd hn (by simp)
    · exact h.registered other n hn

/-- Registering the new session puts no other out. -/
theorem register_opened (h : host.Coherent none) {around : Surroundings} {target : ConnectTarget}
    {interpreter : Interpreter} {bridge r : Path} (room : host.registry.lastId.toNat + 1 < 2 ^ 64)
    (hroot : host.registry.findByRoot? r = none) :
    (host.opened around).register (host.newSession target interpreter bridge r) =
      { host.opened around with
        registry := host.registry.nextId.2.add (host.newSession target interpreter bridge r) } := by
  have hins : host.registry.nextId.2.insert (host.newSession target interpreter bridge r) = _ :=
    Registry.insert_fresh (h.indexed.nextId room) (h.indexed.nextId_fresh room)
      (h.indexed.free_of_findByRoot? hroot)
  unfold register
  rw [show (host.opened around).registry = host.registry.nextId.2 from rfl, hins]

/-- **The new session is enrolled**, and waits for its process. -/
theorem Coherent.enrol (h : host.Coherent none) {around : Surroundings} {target : ConnectTarget}
    {interpreter : Interpreter} {bridge r : Path} (room : host.registry.lastId.toNat + 1 < 2 ^ 64)
    (remembers : (host.probe.resolve around.lookup).2.Remembers)
    (hroot : host.registry.findByRoot? r = none) :
    ((host.opened around).register (host.newSession target interpreter bridge r)).Coherent
      (some host.registry.nextId.1) := by
  have hfresh := h.indexed.nextId_fresh room
  have hcur : ∀ other, (host.opened around).server.current? other =
      if other = host.registry.nextId.1 then some host.server.lanes.length
      else host.server.current? other := fun other => ControlServer.current?_open_
  rw [register_opened h room hroot]
  refine ⟨?_, h.sound.open_ _, ?_, ?_, ?_, ?_, remembers⟩
  · exact (h.indexed.nextId room).add hfresh (h.indexed.free_of_findByRoot? hroot)
      (UInt64.le_refl _)
  · intro s hs
    rcases List.mem_cons.mp hs with rfl | hs
    · exact (hcur _).trans (if_pos rfl)
    · exact (hcur s.id).trans ((if_neg (hfresh s hs)).trans (h.lane s hs))
  · intro other n hn
    have hn := (hcur other).symm.trans hn
    split at hn
    · rename_i he
      exact ⟨_, List.mem_cons_self, he.symm⟩
    · obtain ⟨s, hs, he⟩ := h.registered other n hn
      exact ⟨s, List.mem_cons_of_mem _ hs, he⟩
  · intro s hs hw
    rcases List.mem_cons.mp hs with rfl | hs
    · exact ⟨rfl, rfl⟩
    · exact absurd (Option.some.inj hw).symm (hfresh s hs)
  · intro s hs hw
    rcases List.mem_cons.mp hs with rfl | hs
    · exact absurd rfl hw
    · exact h.alive s hs (by simp)

/-- A session that has no process takes the one that is started. -/
theorem adopt_eq (hg : host.registry.get? session.id = some session)
    (hp : session.process = none) (pid : Option Nat) :
    host.adopt session.id pid =
      { host with
        ledger := (host.ledger.start session.id pid).2
        registry := host.registry.modify session.id fun _ =>
          { session with
            process := some (host.ledger.start session.id pid).1
            handshake := session.handshake.spawned } } := by
  unfold Host.adopt
  rw [hg]
  simp only [Session.attachProcess, hp]

/-- **The session that waits gets its process**, and nobody waits any more. -/
theorem Coherent.adopt (h : host.Coherent (some session.id)) (hm : session ∈ host.registry.sessions)
    (pid : Option Nat) : (host.adopt session.id pid).Coherent none := by
  have hwait := h.waits session hm rfl
  rw [adopt_eq (h.indexed.get?_eq_some_iff.mpr ⟨hm, rfl⟩) hwait.process]
  refine h.modify (.inr rfl) ?_ ?_ ?_ fun _ _ hk => Ledger.start_of_some hk
  · intro s hs he
    rw [h.indexed.eq_of_id hs hm he]
  · intro s hs he
    rw [h.indexed.eq_of_id hs hm he]
  · intro s hs he
    refine ⟨⟨_, rfl, Ledger.start_running⟩, .inl ?_⟩
    show session.handshake.spawned.stage = _
    have hstage : session.handshake.stage = .spawning := hwait.stage
    unfold Handshake.spawned
    rw [hstage]

end Host

end InlineRepl
