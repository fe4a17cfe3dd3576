import InlineRepl.Proofs.Host.Orphans

/-!
# How a session stands

`Host.standing` is all that a host has of one session: its record in the registry, the fate of its
process, its lane in the control server, and whether its client is served. The sessions of a host
share a registry, a ledger and a server, so an event of one of them could reach another; here it is
shown that it does not. What an event of the session itself makes of its standing is
`Standing.hear`, which reads nothing but the standing.

Results:
* `get?_handleEvent`, `handleEvent_cases`: what an event does to the stores of any host.
* `Knows.handleEvent`: a host goes on knowing the sessions that it knew.
* `Knows.heard`, `Knows.unheard`: what an event does to the standing of its own session, and that it
  leaves the standing of every other one.
* `Knows.standing_hear`: a session stands where its own events have left it.
-/

namespace InlineRepl

/-! ## What happens to one session -/

/-- A session once something has happened to it; an exit ends it. -/
def Session.hear (session : Session) : Happening → Option Session
  | .stdout text => some { session with handshake := (session.handshake.onStdout text).2 }
  | .stderr text => some { session with handshake := session.handshake.onStderr text }
  | .exit _ => none
  | .attached => some { session with attached := true }
  | .inbound _ => some session
  | .detached => some { session with attached := false }

/-- What becomes of a session's process when its exit is heard: a connected session is forgotten,
and one that is not is told to end. -/
def Session.release (session : Session) : Fate :=
  if session.isConnected then .dropped else .killed

/-- What happens to a session leaves it its client and its process. -/
theorem Session.hear_keeps {session now : Session} {happening : Happening}
    (h : session.hear happening = some now) :
    now.client = session.client ∧ now.process = session.process := by
  cases happening with
  | exit code => exact absurd h nofun
  | stdout | stderr | attached | inbound | detached =>
    obtain rfl := Option.some.inj h
    exact ⟨rfl, rfl⟩

theorem Session.hear_eq_none {session : Session} {happening : Happening} :
    session.hear happening = none ↔ ∃ code, happening = .exit code := by
  cases happening <;> simp [hear]

namespace Host

variable {host : Host} {session s : Session} {id other : SessionId} {event : SessionEvent}

/-- Takes events one after the other. -/
def hear (host : Host) (events : List SessionEvent) : Host :=
  events.foldl handleEvent host

@[simp] theorem hear_cons (host : Host) (event : SessionEvent) (events : List SessionEvent) :
    host.hear (event :: events) = (host.handleEvent event).hear events := rfl

/-! ## What an event does to the stores -/

theorem get?_release : (host.release id).registry.get? other =
    if other = id then none else host.registry.get? other := by
  refine Eq.trans ?_ Registry.get?_remove
  unfold release
  cases host.registry.remove id <;> rfl

theorem get?_forget : (host.forget id).registry.get? other =
    if other = id then none else host.registry.get? other := by
  refine Eq.trans ?_ Registry.get?_remove
  unfold forget
  cases host.registry.remove id <;> rfl

/-- Whatever happens to a registered session changes its record, and no other. -/
theorem get?_onHappening (hg : host.registry.get? id = some session) (happening : Happening) :
    (host.onHappening id session happening).registry.get? other =
      if other = id then session.hear happening else host.registry.get? other := by
  have hmodify : ∀ {change : Session → Session}, (∀ s, (change s).id = s.id) →
      (host.registry.modify id change).get? other =
        if other = id then some (change session) else host.registry.get? other := by
    intro change hid
    rw [Registry.get?_modify fun s he => (hid s).trans he, hg]
    rfl
  unfold onHappening
  cases happening with
  | stdout text =>
    dsimp only
    split <;> exact hmodify fun _ => rfl
  | stderr text | attached | detached => exact hmodify fun _ => rfl
  | inbound record =>
    dsimp only
    rw [registry_dispatch]
    split
    · rename_i he
      rw [he, hg]
      rfl
    · rfl
  | exit code =>
    show (host.onExit id session).registry.get? other = _
    rcases onExit_cases host id session with ⟨-, hx⟩ | ⟨-, handshake, hx⟩
    · rw [hx]
      exact get?_forget
    · rw [hx]
      have hother : other ≠ id → (host.registry.modify id fun s => { s with handshake }).get?
          other = host.registry.get? other :=
        fun hne => (Registry.get?_handshake handshake).trans (if_neg hne)
      exact get?_release.trans (ite_congr rfl (fun _ => rfl) hother)

/-- **An event changes the record of its session**, and no other. -/
theorem get?_handleEvent (host : Host) (event : SessionEvent) (id : SessionId) :
    (host.handleEvent event).registry.get? id =
      if id = event.session then (host.registry.get? id).bind (·.hear event.happening)
      else host.registry.get? id := by
  cases hg : host.registry.get? event.session with
  | none =>
    rw [handleEvent_unregistered hg]
    split
    · rename_i he
      rw [he, hg]
      rfl
    · rfl
  | some session =>
    rw [handleEvent_registered hg, get?_onHappening hg]
    refine ite_congr rfl (fun he => ?_) fun _ => rfl
    rw [he, hg]
    rfl

theorem ledger_release (host : Host) (id : SessionId) : (host.release id).ledger =
    host.ledger.part ((host.registry.get? id).bind Session.process) .killed := by
  unfold release Registry.remove
  cases host.registry.get? id with
  | none => rfl
  | some session => exact Session.kill_eq_part

theorem ledger_forget (host : Host) (id : SessionId) : (host.forget id).ledger =
    host.ledger.part ((host.registry.get? id).bind Session.process) .dropped := by
  unfold forget Registry.remove
  cases host.registry.get? id with
  | none => rfl
  | some session => exact Session.dropped_eq_part

theorem server_forget : (host.forget id).server = host.server := by
  unfold forget
  split <;> rfl

/-- **An exit** closes the lane of its session and lets its process go. -/
theorem handleEvent_exit (hg : host.registry.get? id = some session) (code : Option Int) :
    let after := host.handleEvent { session := id, happening := .exit code }
    after.server = (host.server.remove id).2 ∧
      after.ledger = host.ledger.part session.process session.release := by
  intro after
  have hafter : after = host.onExit id session := handleEvent_registered hg _
  rw [hafter]
  unfold Session.release
  rcases onExit_cases host id session with ⟨hc, hx⟩ | ⟨hn, handshake, hx⟩
  · rw [hx, if_pos hc]
    have hledger := ledger_forget (host.closeLane id) id
    rw [registry_closeLane, hg] at hledger
    exact ⟨server_forget, hledger⟩
  · rw [hx, if_neg (Bool.eq_false_iff.mp hn)]
    refine ⟨server_release _ _, (ledger_release _ id).trans ?_⟩
    simp only [registry_closeLane, registry_tell, Registry.get?_handshake, hg]
    rfl

/-- **Nothing but the exit of a registered session** reaches the lanes and the processes. -/
theorem handleEvent_stays
    (hx : ∀ code, event.happening = .exit code → host.registry.get? event.session = none) :
    (host.handleEvent event).server = host.server ∧
      (host.handleEvent event).ledger = host.ledger := by
  refine handleEvent_keeps
    (fun after => after.server = host.server ∧ after.ledger = host.ledger) ⟨rfl, rfl⟩
    (fun _ _ => ⟨rfl, rfl⟩) (fun _ h => h)
    (fun session code hg he => absurd (hg.symm.trans (hx code he)) nofun) fun inbound _ => ?_
  unfold dispatch
  dsimp only
  split <;> exact ⟨rfl, rfl⟩

/-- **An event is the exit of a registered session, or leaves the lanes and the processes alone.**
-/
theorem handleEvent_cases (host : Host) (event : SessionEvent) :
    (∃ session code, host.registry.get? event.session = some session ∧
        event = { session := session.id, happening := .exit code } ∧
        (host.handleEvent event).server = (host.server.remove session.id).2 ∧
        (host.handleEvent event).ledger = host.ledger.part session.process session.release) ∨
      (∀ code, event.happening = .exit code → host.registry.get? event.session = none) ∧
        (host.handleEvent event).server = host.server ∧
        (host.handleEvent event).ledger = host.ledger := by
  by_cases hx : ∀ code, event.happening = .exit code → host.registry.get? event.session = none
  · exact .inr ⟨hx, handleEvent_stays hx⟩
  · simp only [not_forall] at hx
    obtain ⟨code, hcode, hsome⟩ := hx
    obtain ⟨session, hg⟩ := Option.ne_none_iff_exists'.mp hsome
    obtain ⟨target, happening⟩ := event
    obtain rfl : happening = .exit code := hcode
    obtain rfl := (Registry.mem_of_get? hg).2
    exact .inl ⟨session, code, hg, rfl, handleEvent_exit hg code⟩

/-! ## Standings -/

/-- How a session stands with a host. -/
structure Standing where
  /-- Its record, if it is registered. -/
  record : Option Session
  /-- What became of the process that it had. -/
  process : Option Fate
  /-- The current lane of its id. -/
  slot : Option Nat
  /-- Its client is served. -/
  isOpen : Bool
  deriving Repr, DecidableEq

/-- How the session stands, which was registered once. -/
def standing (host : Host) (session : Session) : Standing where
  record := host.registry.get? session.id
  process := session.process.bind fun handle => host.ledger.fate? handle.serial
  slot := host.server.current? session.id
  isOpen := host.server.isOpen session.client

/-- What a standing becomes when something happens to the session. -/
def Standing.hear (standing : Standing) (happening : Happening) : Standing :=
  match standing.record with
  | none => standing
  | some session =>
    match session.hear happening with
    | some session => { standing with record := some session }
    | none =>
      { record := none
        process := session.process.map fun _ => session.release
        slot := none
        isOpen := false }

namespace Standing

variable {standing : Standing} {now next : Session} {happening : Happening}

theorem hear_unregistered (h : standing.record = none) : standing.hear happening = standing := by
  unfold hear
  rw [h]

theorem hear_some (h : standing.record = some now) (hn : now.hear happening = some next) :
    standing.hear happening = { standing with record := some next } := by
  unfold hear
  rw [h]
  dsimp only
  rw [hn]

theorem hear_exit (h : standing.record = some now) (code : Option Int) :
    standing.hear (.exit code) =
      { record := none, process := now.process.map fun _ => now.release, slot := none,
        isOpen := false } := by
  unfold hear
  rw [h]
  rfl

end Standing

/-- **A host knows a session**, which may be registered still or have gone: its lane is there, its
process is in the ledger, and its record keeps both. -/
structure Knows (host : Host) (session : Session) : Prop where
  tended : host.Tended
  moored : host.server.Moors session.client
  named : ∀ serial, session.Holds serial → host.ledger.names[serial]? = some session.id
  keeps : ∀ now, host.registry.get? session.id = some now →
    now.client = session.client ∧ now.process = session.process

/-- A host knows the sessions that are registered. -/
theorem Tended.knows (h : host.Tended) (hg : host.registry.get? session.id = some session) :
    host.Knows session := by
  have hm := (Registry.mem_of_get? hg).1
  refine ⟨h, h.moored session hm, fun serial hh => ?_, fun now hnow => ?_⟩
  · exact Ledger.names_of_fates (h.custody.running session hm serial hh)
  · obtain rfl := Option.some.inj (hg.symm.trans hnow)
    exact ⟨rfl, rfl⟩

/-- **A host goes on knowing a session**, whatever it hears. -/
theorem Knows.handleEvent (h : host.Knows session) (event : SessionEvent) :
    (host.handleEvent event).Knows session where
  tended := by
    have hmoves : Moves .barren host (host.handleEvent event) := moves_handleEvent host event
    exact hmoves.tended h.tended
  moored := by
    rcases handleEvent_cases host event with ⟨_, _, -, -, hs, -⟩ | ⟨-, hs, -⟩ <;> rw [hs]
    · exact (ControlServer.Change.remove _).moors h.moored
    · exact h.moored
  named := by
    rcases handleEvent_cases host event with ⟨_, _, -, -, -, hl⟩ | ⟨-, -, hl⟩ <;> rw [hl]
    · rw [Ledger.names_part]
      exact h.named
    · exact h.named
  keeps := by
    intro now hnow
    rw [get?_handleEvent] at hnow
    split at hnow
    · obtain ⟨before, hg, hhear⟩ := Option.bind_eq_some_iff.mp hnow
      have hbefore := h.keeps before hg
      have hkept := Session.hear_keeps hhear
      exact ⟨hkept.1.trans hbefore.1, hkept.2.trans hbefore.2⟩
    · exact h.keeps now hnow

/-- A known session's client is served as long as its lane is the current one of its id. -/
theorem Knows.isOpen_eq (h : host.Knows session) : host.server.isOpen session.client =
    decide (host.server.current? session.id = some session.client.lane) := by
  obtain ⟨lane, hl, hs⟩ := h.moored
  exact Bool.eq_iff_iff.mpr ((h.tended.sound.isOpen_iff hl hs).trans decide_eq_true_iff.symm)

/-- No other session holds the process of a known one. -/
theorem Knows.not_holds (h : host.Knows session) (hs : s ∈ host.registry.sessions)
    (hne : s.id ≠ session.id) {serial : Nat} (hh : session.Holds serial) : ¬ s.Holds serial := by
  intro hsh
  have hname := Ledger.names_of_fates (h.tended.custody.running s hs serial hsh)
  exact hne (Option.some.inj (hname.symm.trans (h.named serial hh)))

/-- **An event leaves the standing of every session that it is not about.** -/
theorem Knows.unheard (h : host.Knows session) (hne : event.session ≠ session.id) :
    (host.handleEvent event).standing session = host.standing session := by
  have hrecord : (host.handleEvent event).registry.get? session.id =
      host.registry.get? session.id :=
    (get?_handleEvent host event session.id).trans (if_neg hne.symm)
  unfold standing
  rw [hrecord, (h.handleEvent event).isOpen_eq, h.isOpen_eq]
  rcases handleEvent_cases host event with ⟨other, code, hg, rfl, hs, hl⟩ | ⟨-, hs, hl⟩
  · have hm := (Registry.mem_of_get? hg).1
    have hslot : (host.server.remove other.id).2.current? session.id =
        host.server.current? session.id :=
      ControlServer.current?_remove.trans (if_neg hne.symm)
    have hfate : ∀ handle, session.process = some handle →
        (host.ledger.part other.process other.release).fate? handle.serial =
          host.ledger.fate? handle.serial :=
      fun handle hh => Ledger.fate?_part
        (Session.not_holds_iff.mp (h.not_holds hm hne ⟨handle, hh, rfl⟩))
    rw [hs, hl, hslot, Option.bind_congr hfate]
  · rw [hs, hl]

/-- **An exit ends the standing of its session**: the record is gone, the process is let go, and
neither the lane nor the client is served. -/
theorem Knows.ended (h : host.Knows session) {now : Session}
    (hg : host.registry.get? session.id = some now) (code : Option Int) :
    (host.handleEvent { session := session.id, happening := .exit code }).standing session =
      { record := none
        process := now.process.map fun _ => now.release
        slot := none
        isOpen := false } := by
  obtain ⟨hserver, hledger⟩ := handleEvent_exit hg code
  have hm := (Registry.mem_of_get? hg).1
  have hprocess := (h.keeps now hg).2
  have hslot : (host.server.remove session.id).2.current? session.id = none :=
    ControlServer.current?_remove.trans (if_pos rfl)
  unfold standing
  rw [(h.handleEvent _).isOpen_eq, get?_handleEvent, if_pos rfl, hg, hserver, hledger, hslot,
    ← hprocess]
  cases hp : now.process with
  | none => rfl
  | some handle =>
    have hrunning := h.tended.custody.running now hm handle.serial ⟨handle, hp, rfl⟩
    exact congrArg (Standing.mk none · none false) (Ledger.fate?_settle hrunning)

/-- **What an event of the session itself makes of its standing** can be read off the standing. -/
theorem Knows.heard (h : host.Knows session) (happening : Happening) :
    (host.handleEvent { session := session.id, happening }).standing session =
      (host.standing session).hear happening := by
  cases hg : host.registry.get? session.id with
  | none =>
    rw [handleEvent_unregistered hg, Standing.hear_unregistered hg]
  | some now =>
    cases hhear : now.hear happening with
    | none =>
      obtain ⟨code, rfl⟩ := Session.hear_eq_none.mp hhear
      rw [Standing.hear_exit hg]
      exact h.ended hg code
    | some next =>
      have hstays : (host.handleEvent { session := session.id, happening }).server = host.server ∧
          (host.handleEvent { session := session.id, happening }).ledger = host.ledger := by
        refine handleEvent_stays fun code hcode => ?_
        obtain rfl : happening = .exit code := hcode
        exact absurd hhear nofun
      rw [Standing.hear_some hg hhear]
      unfold standing
      rw [get?_handleEvent, if_pos rfl, hg, hstays.1, hstays.2]
      exact congrArg (Standing.mk · _ _ _) hhear

/-- **A session stands where its own events have left it**, whatever else the host has heard. -/
theorem Knows.standing_hear : ∀ (events : List SessionEvent) {host : Host}, host.Knows session →
    (host.hear events).standing session =
      (events.filter fun event => decide (event.session = session.id)).foldl
        (fun standing event => standing.hear event.happening) (host.standing session)
  | [], _, _ => rfl
  | event :: events, host, h => by
    rw [hear_cons, Knows.standing_hear events (h.handleEvent event), List.filter_cons]
    by_cases he : event.session = session.id
    · rw [if_pos (decide_eq_true he), List.foldl_cons]
      obtain ⟨target, happening⟩ := event
      obtain rfl : target = session.id := he
      rw [h.heard]
    · rw [if_neg (by simpa using he), h.unheard he]

end Host

end InlineRepl
