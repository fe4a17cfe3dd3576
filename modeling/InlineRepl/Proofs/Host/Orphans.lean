import InlineRepl.Proofs.Host.Moves

/-!
# No process is orphaned

A process that has been started is held by the session that it was started for, or it has been
stopped: told to end, or left without a handle, which ends it too. As long as it is held it has had
no signal, and from then on one. `Tended` says so of a host, and
what a shutdown needs besides: that each session's lane was opened for its id.

`launched` reads off a life for which ids the launcher has been asked and has given a process; the
ledger has one entry for each of them, in this order. `Owns` and `Freed` are the two things that can
become of such a process.

Results:
* `Move.tended`, `Move.later`, `Move.books`: what every move keeps.
* `names_live`: the processes in the ledger are those that the launcher has given.
* `Tended.owns_or_frees`: a process is owned by one session or has been stopped, and not both.
* `Freed.live`: a process that has been stopped stays so.
* `isEmpty_shutdown`, `Tended.send_shutdown`: nobody is registered after a shutdown, and no client
  of a session that was registered is served any more.
* `no_process_is_orphaned`: all of this, for every life of a host.
-/

namespace InlineRepl

namespace Host

variable {host after : Host} {around : Surroundings} {session : Session} {id : SessionId}
  {serial : Nat} {fate : Fate}

/-! ## What a move keeps -/

/-- **Every running process is held, and every session has its lane.** -/
structure Tended (host : Host) : Prop where
  custody : Custody host.registry.sessions host.ledger
  sound : host.server.Sound
  moored : ∀ s ∈ host.registry.sessions, host.server.Moors s.client

theorem start_tended (settings : Settings) (store : Option Path) (searchPath : Option String)
    (port : UInt16) : (start settings store searchPath port).Tended :=
  ⟨Custody.empty, ControlServer.sound_empty, fun _ h => absurd h List.not_mem_nil⟩

/-- A process that has been started goes to the session of its id, which lets the one go that it
had; where no session has the id, its handle is lost. -/
theorem adopt_cases (host : Host) (id : SessionId) (pid : Option Nat) :
    (host.registry.get? id = none ∧ host.adopt id pid =
        { host with ledger := (host.ledger.start id pid).2.drop (host.ledger.start id pid).1 }) ∨
      ∃ session, host.registry.get? id = some session ∧ host.adopt id pid =
        { host with
          ledger := (host.ledger.start id pid).2.part session.process .killed
          registry := host.registry.modify id fun _ =>
            { session with
              process := some (host.ledger.start id pid).1
              handshake := session.handshake.spawned } } := by
  unfold adopt
  cases hg : host.registry.get? id with
  | none => exact .inl ⟨rfl, rfl⟩
  | some session =>
    refine .inr ⟨session, rfl, ?_⟩
    dsimp only
    rw [Session.attachProcess_eq]

theorem Tended.adopt (h : host.Tended) (id : SessionId) (pid : Option Nat) :
    (host.adopt id pid).Tended := by
  rcases adopt_cases host id pid with ⟨-, ha⟩ | ⟨session, hg, ha⟩
  · rw [ha]
    exact ⟨h.custody.lose id pid, h.sound, h.moored⟩
  · obtain ⟨hm, rfl⟩ := Registry.mem_of_get? hg
    rw [ha]
    refine ⟨h.custody.attach hm (.inl rfl) rfl rfl, h.sound, fun t ht => ?_⟩
    obtain ⟨s, hs, rfl⟩ := Registry.mem_modify.mp ht
    split
    · exact h.moored session hm
    · exact h.moored s hs

/-- **A move keeps every running process held**, and every session its lane. -/
theorem Move.tended (hmove : Move around host after) (h : host.Tended) : after.Tended := by
  cases hmove with
  | note more _ _ sessions server ledger =>
    refine ⟨?_, ?_, ?_⟩
    · rw [sessions, ledger]
      exact h.custody
    · rw [server]
      exact h.sound
    · rw [sessions, server]
      exact h.moored
  | lane change => exact ⟨h.custody, change.sound h.sound, fun s hs => change.moors (h.moored s hs)⟩
  | revise id change client process =>
    refine ⟨h.custody.revise id (fun s => congrArg Client.session (client s)) process, h.sound,
      fun t ht => ?_⟩
    obtain ⟨s, hs, rfl⟩ := Registry.mem_modify.mp ht
    split
    · exact client s ▸ h.moored s hs
    · exact h.moored s hs
  | leave registered sessions ended =>
    refine ⟨?_, h.sound, fun s hs => ?_⟩
    · show Custody _ _
      rw [sessions]
      exact h.custody.leave (Registry.mem_of_get? registered).1 ended
    · rw [sessions] at hs
      exact h.moored s (mem_without.mp hs).1
  | enter fresh moored process sessions =>
    refine ⟨?_, h.sound, fun s hs => ?_⟩
    · show Custody _ _
      rw [sessions]
      exact h.custody.enter fresh process
    · rw [sessions] at hs
      rcases List.mem_cons.mp hs with rfl | hs
      · exact moored
      · exact h.moored s hs
  | @start id spec pid launched =>
    have htold : (host.tell (.launch id spec)).Tended := ⟨h.custody, h.sound, h.moored⟩
    exact htold.adopt id pid

theorem later_adopt (host : Host) (id : SessionId) (pid : Option Nat) :
    host.ledger.Later (host.adopt id pid).ledger := by
  have hstart := Ledger.Later.start host.ledger id pid
  rcases adopt_cases host id pid with ⟨-, ha⟩ | ⟨session, -, ha⟩
  · rw [ha]
    exact hstart.trans (Ledger.Later.settle _ _ _)
  · rw [ha]
    exact hstart.trans (Ledger.Later.part _ _ _)

/-- **A move leaves settled fates as they are.** -/
theorem Move.later (h : Move around host after) : host.ledger.Later after.ledger := by
  cases h with
  | note _ _ _ _ _ ledger =>
    rw [ledger]
    exact Ledger.Later.refl _
  | lane _ | revise _ _ _ _ | enter _ _ _ _ => exact Ledger.Later.refl _
  | leave _ _ _ => exact Ledger.Later.part _ _ _
  | start _ => exact later_adopt (host.tell _) _ _

theorem names_adopt (host : Host) (id : SessionId) (pid : Option Nat) :
    (host.adopt id pid).ledger.names = host.ledger.names ++ [id] := by
  rcases adopt_cases host id pid with ⟨-, ha⟩ | ⟨session, -, ha⟩
  · rw [ha]
    exact Ledger.names_settle.trans Ledger.names_start
  · rw [ha]
    exact Ledger.names_part.trans Ledger.names_start

theorem calls_adopt (host : Host) (id : SessionId) (pid : Option Nat) :
    (host.adopt id pid).calls = host.calls := by
  rcases adopt_cases host id pid with ⟨-, ha⟩ | ⟨session, -, ha⟩ <;> rw [ha]

/-- **A move enters the processes that it has been given**, and no others. -/
theorem Move.books (h : Move around host after) :
    ∃ more, after.calls = host.calls ++ more ∧
      after.ledger.names = host.ledger.names ++ more.filterMap around.started := by
  have hsame : ∀ {ledger : Ledger}, ledger.names = host.ledger.names →
      ∃ more, host.calls = host.calls ++ more ∧
        ledger.names = host.ledger.names ++ more.filterMap around.started :=
    fun hn => ⟨[], (List.append_nil _).symm, hn.trans (List.append_nil _).symm⟩
  cases h with
  | note more quiet calls _ _ ledger =>
    exact ⟨more, calls, by rw [ledger, quiet, List.append_nil]⟩
  | lane _ | revise _ _ _ _ | enter _ _ _ _ => exact hsame rfl
  | leave _ _ _ => exact hsame Ledger.names_part
  | @start id spec pid launched =>
    refine ⟨[.launch id spec], calls_adopt _ _ _, (names_adopt _ _ _).trans ?_⟩
    rw [List.filterMap_cons_some (Surroundings.started_of_ok launched)]
    rfl

/-! ## What a chain of moves keeps -/

theorem Moves.tended (hl : Moves around host after) (h : host.Tended) : after.Tended := by
  induction hl with
  | refl => exact h
  | tail _ hmove ih => exact hmove.tended ih

theorem Moves.later (hl : Moves around host after) : host.ledger.Later after.ledger := by
  induction hl with
  | refl => exact Ledger.Later.refl _
  | tail _ hmove ih => exact ih.trans hmove.later

theorem Moves.books (hl : Moves around host after) :
    ∃ more, after.calls = host.calls ++ more ∧
      after.ledger.names = host.ledger.names ++ more.filterMap around.started := by
  induction hl with
  | refl => exact ⟨[], (List.append_nil _).symm, (List.append_nil _).symm⟩
  | tail _ hmove ih =>
    obtain ⟨more, hcalls, hnames⟩ := ih
    obtain ⟨rest, hrest, hlast⟩ := hmove.books
    refine ⟨more ++ rest, ?_, ?_⟩
    · rw [hrest, hcalls, List.append_assoc]
    · rw [hlast, hnames, List.filterMap_append, List.append_assoc]

end Host

/-! ## The launcher's calls -/

/-- Surroundings that can start nothing. -/
def Surroundings.barren : Surroundings :=
  { Surroundings.furnished with launch := fun _ _ => .error (.launchFailed "") }

namespace Host

variable {host : Host} {deed : Deed} {id : SessionId} {serial : Nat} {fate : Fate}

/-- What a deed is answered; a deed that asks for no answers can start nothing. -/
def Deed.answers (deed : Deed) : Surroundings :=
  deed.around?.getD .barren

theorem Deed.answers_eq (other : Surroundings) (h : deed.around? = some other) :
    other = deed.answers := by
  unfold answers
  rw [h]
  rfl

/-- **The launcher calls of a deed that gave a process**, by the ids that they were made for. -/
def Deed.launches (host : Host) (deed : Deed) : List SessionId :=
  ((host.act deed).calls.drop host.calls.length).filterMap deed.answers.started

/-- **The launcher calls of a life that gave a process.** -/
def launched (host : Host) : List Deed → List SessionId
  | [] => []
  | deed :: deeds => deed.launches host ++ (host.act deed).launched deeds

theorem names_act (host : Host) (deed : Deed) :
    (host.act deed).ledger.names = host.ledger.names ++ deed.launches host := by
  obtain ⟨more, hcalls, hnames⟩ := (moves_act host Deed.answers_eq).books
  unfold Deed.launches
  rw [hcalls, List.drop_left]
  exact hnames

/-- **The processes in the ledger are those that the launcher has given**, in their order. -/
theorem names_live : ∀ (deeds : List Deed) (host : Host),
    (host.live deeds).ledger.names = host.ledger.names ++ host.launched deeds
  | [], _ => (List.append_nil _).symm
  | deed :: deeds, host => by
    rw [live_cons, names_live deeds (host.act deed), names_act, List.append_assoc]
    rfl

example : (start .fresh none none 0).launched
    [.take (.tryConnect .furnished { origin := none, path := some ⟨"/work"⟩ }), .shutdown] =
      [⟨1⟩] := by
  decide +kernel

theorem Tended.live (h : host.Tended) (deeds : List Deed) : (host.live deeds).Tended :=
  live_keeps Tended (fun after _ ha => (moves_act after Deed.answers_eq).tended ha) deeds h

theorem later_live (host : Host) (deeds : List Deed) :
    host.ledger.Later (host.live deeds).ledger :=
  live_keeps (fun after => host.ledger.Later after.ledger)
    (fun after _ ha => ha.trans (moves_act after Deed.answers_eq).later) deeds (Ledger.Later.refl _)

/-! ## Owned or stopped -/

/-- **A process is owned**: it is running and has had no signal, and the session of the id that it
was started for holds it, and no other does. -/
structure Owns (host : Host) (serial : Nat) (id : SessionId) : Prop where
  running : host.ledger.fates[serial]? = some (id, Fate.running)
  quiet : host.ledger.signals.count serial = 0
  registered : host.registry.contains id = true
  holder : ∀ other session, host.registry.get? other = some session →
    (session.Holds serial ↔ other = id)

/-- **A process has been freed**: it was told to end or its handle was lost, once, and no session
holds it. -/
structure Freed (host : Host) (serial : Nat) (id : SessionId) (fate : Fate) : Prop where
  ended : fate.Ended
  settled : host.ledger.fates[serial]? = some (id, fate)
  once : host.ledger.signals.count serial = 1
  unheld : ∀ other session, host.registry.get? other = some session → ¬ session.Holds serial

theorem Owns.not_freed (h : host.Owns serial id) : ¬ host.Freed serial id fate := by
  intro hf
  have hfate := congrArg Prod.snd (Option.some.inj (h.running.symm.trans hf.settled))
  exact hf.ended.ne_running hfate.symm

theorem Tended.owns (h : host.Tended)
    (hf : host.ledger.fates[serial]? = some (id, Fate.running)) : host.Owns serial id := by
  obtain ⟨s, hs, hh⟩ := h.custody.held serial id hf
  have hid := h.custody.holder_id hs hh hf
  refine ⟨hf, h.custody.once.quiet hf, Registry.contains_iff.mpr ⟨s, hs, hid⟩,
    fun other session hg => ?_⟩
  obtain ⟨hm, rfl⟩ := Registry.mem_of_get? hg
  refine ⟨fun hholds => h.custody.holder_id hm hholds hf, fun he => ?_⟩
  rw [h.custody.eq_of_id hm hs (he.trans hid.symm)]
  exact hh

theorem Tended.freed (h : host.Tended) (hf : host.ledger.fates[serial]? = some (id, fate))
    (hne : fate ≠ .running) : host.Freed serial id fate := by
  refine ⟨h.custody.ended serial id fate hf hne, hf, h.custody.once.signalled hf hne,
    fun other session hg hh => hne ?_⟩
  have hrunning := h.custody.running session (Registry.mem_of_get? hg).1 serial hh
  exact congrArg Prod.snd (Option.some.inj (hf.symm.trans hrunning))

/-- **A process is owned by one session or has been freed**, and not both. -/
theorem Tended.owns_or_frees (h : host.Tended) (hn : host.ledger.names[serial]? = some id) :
    (host.Owns serial id ∧ ∀ fate, ¬ host.Freed serial id fate) ∨
      (∃ fate, host.Freed serial id fate) ∧ ¬ host.Owns serial id := by
  unfold Ledger.names at hn
  rw [List.getElem?_map] at hn
  obtain ⟨⟨other, fate⟩, hf, rfl⟩ := Option.map_eq_some_iff.mp hn
  by_cases hr : fate = .running
  · subst hr
    exact .inl ⟨h.owns hf, fun _ => (h.owns hf).not_freed⟩
  · have hfreed := h.freed hf hr
    exact .inr ⟨⟨fate, hfreed⟩, fun ho => ho.not_freed hfreed⟩

/-- **A process that has been freed stays so**, whatever the host does. -/
theorem Freed.live (hf : host.Freed serial id fate) (h : host.Tended) (deeds : List Deed) :
    (host.live deeds).Freed serial id fate :=
  (h.live deeds).freed (later_live host deeds serial id fate hf.ended.ne_running hf.settled)
    hf.ended.ne_running

/-! ## After a shutdown -/

theorem server_release (host : Host) (id : SessionId) : (host.release id).server = host.server := by
  unfold release
  split <;> rfl

/-- **Letting ids go leaves the sessions of the others.** -/
theorem mem_foldl_release {s : Session} (ids : List SessionId) : ∀ host : Host,
    s ∈ (ids.foldl (fun host id => (host.closeLane id).release id) host).registry.sessions ↔
      s ∈ host.registry.sessions ∧ s.id ∉ ids := by
  induction ids with
  | nil => simp
  | cons id ids ih =>
    intro host
    rw [List.foldl_cons, ih, mem_release, registry_closeLane, List.mem_cons, not_or, and_assoc]

/-- **Letting ids go leaves them without a lane.** -/
theorem current?_foldl_release (ids : List SessionId) : ∀ host : Host,
    (ids.foldl (fun host id => (host.closeLane id).release id) host).server.current? id =
      if id ∈ ids then none else host.server.current? id := by
  induction ids with
  | nil => simp
  | cons first ids ih =>
    intro host
    have hfirst : ((host.closeLane first).release first).server.current? id =
        if id = first then none else host.server.current? id := by
      rw [server_release]
      exact ControlServer.current?_remove
    rw [List.foldl_cons, ih, hfirst]
    by_cases hm : id ∈ ids
    · rw [if_pos hm, if_pos (List.mem_cons_of_mem _ hm)]
    · rw [if_neg hm]
      exact if_congr (by simp [hm]) rfl rfl

/-- **Nobody is registered after a shutdown.** -/
theorem isEmpty_shutdown (host : Host) : host.shutdown.registry.isEmpty = true := by
  refine List.isEmpty_iff.mpr (List.eq_nil_iff_forall_not_mem.mpr fun s hs => ?_)
  obtain ⟨hm, hleft⟩ := (mem_foldl_release host.registry.ids host).mp hs
  exact hleft (Registry.mem_ids.mpr ⟨s, hm, rfl⟩)

/-- **A shutdown closes the client of every session** that was registered. -/
theorem Tended.send_shutdown (h : host.Tended) {session : Session}
    (hg : host.registry.get? id = some session) (request : EvalRequest) :
    host.shutdown.server.send session.client request = .error (.channelClosed id) := by
  obtain ⟨hm, rfl⟩ := Registry.mem_of_get? hg
  have hended : host.shutdown.Tended := h.live [.shutdown]
  obtain ⟨lane, hl, hs⟩ : host.shutdown.server.Moors session.client := by
    refine shutdown_keeps (fun after => after.server.Moors session.client) (fun after id ha => ?_)
      (h.moored session hm)
    rw [server_release]
    exact (ControlServer.Change.remove id).moors ha
  have hcurrent : host.shutdown.server.current? session.client.session = none :=
    (current?_foldl_release host.registry.ids host).trans
      (if_pos (Registry.mem_ids.mpr ⟨session, hm, rfl⟩))
  refine ControlServer.send_closed (Bool.eq_false_iff.mpr fun hopen => ?_) request
  exact absurd (hcurrent.symm.trans ((hended.sound.isOpen_iff hl hs).mp hopen)) nofun

/-! ## Every life -/

/-- **No process is orphaned.** Take any life of a host, and any process that its launcher has given
it: the `serial`-th one, started for `id`. The process is owned by the session of this id alone and
has had no signal, or it has been freed by its one signal, and then it stays so in every
continuation, which gives it no other. After a shutdown nobody is
registered, every process has been freed, and no client of a session that was registered is served
any more. -/
theorem no_process_is_orphaned (settings : Settings) (store : Option Path)
    (searchPath : Option String) (port : UInt16) (deeds : List Deed) :
    let host := (start settings store searchPath port).live deeds
    let handles := (start settings store searchPath port).launched deeds
    (∀ serial id, handles[serial]? = some id →
        (host.Owns serial id ∧ ∀ fate, ¬ host.Freed serial id fate) ∨
          (∃ fate, host.Freed serial id fate ∧ ∀ more, (host.live more).Freed serial id fate) ∧
            ¬ host.Owns serial id) ∧
      host.shutdown.registry.isEmpty = true ∧
      (∀ serial id, handles[serial]? = some id → ∃ fate, host.shutdown.Freed serial id fate) ∧
      ∀ id session, host.registry.get? id = some session → ∀ request,
        host.shutdown.server.send session.client request = .error (.channelClosed id) := by
  intro host handles
  have htended : host.Tended := (start_tended settings store searchPath port).live deeds
  have hnames : host.ledger.names = handles := names_live deeds _
  have hshutdown : host.shutdown.Tended := htended.live [.shutdown]
  refine ⟨fun serial id hh => ?_, isEmpty_shutdown host, fun serial id hh => ?_,
    fun id session => htended.send_shutdown⟩
  · rw [← hnames] at hh
    rcases htended.owns_or_frees hh with ho | ⟨⟨fate, hf⟩, ho⟩
    · exact .inl ho
    · exact .inr ⟨⟨fate, hf, hf.live htended⟩, ho⟩
  · have hlater : host.shutdown.ledger.names[serial]? = some id := by
      have hgrown : host.shutdown.ledger.names = handles ++ host.launched [.shutdown] :=
        hnames ▸ names_live [.shutdown] host
      rw [hgrown, List.getElem?_append_left (List.getElem?_eq_some_iff.mp hh).1, hh]
    rcases hshutdown.owns_or_frees hlater with ⟨ho, -⟩ | ⟨hf, -⟩
    · obtain ⟨s, hs, -⟩ := Registry.contains_iff.mp ho.registered
      rw [List.isEmpty_iff.mp (isEmpty_shutdown host)] at hs
      exact absurd hs List.not_mem_nil
    · exact hf

end Host

end InlineRepl
