import InlineRepl.Proofs.Host.Hearing
import InlineRepl.Proofs.Host.Standing
import InlineRepl.Proofs.Session.Course

/-!
# Sessions do not interfere

The sessions of a host share its registry, its control server and the surroundings that it tells.
Even so, what events do to one of them is what its own events do: the events of the others, among
them exits that tear a session down, leave its record, its process and its lane as they are. A
failed start is reported with what the process of this session has written since its launch, and
with nothing else.

`Deed.Begins` says which deed of a life was the launch of a session, by the lane and the process
that it has. `Session.Continues` says what a session has heard from one state to a later one.

Results:
* `Reports.take`: what a handshake would report, input by input.
* `act_record`: after a deed a session is a newcomer, or continues what it was before.
* `since_launch`: what a session would report, over a life.
* `sessions_do_not_interfere`: all of this, for every life and every sequence of events.
-/

namespace InlineRepl

/-- What a process has written, if the happening is output. -/
def Happening.output : Happening → Option String
  | .stdout text | .stderr text => some text
  | .exit _ | .attached | .inbound _ | .detached => none

/-- The texts that events bring from the process of a session, in order. -/
def written (id : SessionId) (events : List SessionEvent) : List String :=
  events.filterMap fun event => if event.session = id then event.happening.output else none

theorem written_append (id : SessionId) (events more : List SessionEvent) :
    written id (events ++ more) = written id events ++ written id more :=
  List.filterMap_append

/-! ## What a handshake would report -/

namespace Handshake

variable {h : Handshake} {texts : List String} {input : Input} {happening : Happening}

/-- Until it is complete, an exit of the process would report these texts. -/
structure Reports (h : Handshake) (texts : List String) : Prop where
  stage : h.stage ≠ .failed
  buffer : h.isConnected = false → h.buffer = String.join texts

theorem reports_new : Reports {} [] :=
  ⟨by decide, fun _ => rfl⟩

/-- The output in an input. -/
def Input.heard : Input → List String
  | .stdout chunk | .stderr chunk => [chunk]
  | .spawned | .exit => []

/-- **An input adds its output to the report**, unless it is the exit. -/
theorem Reports.take (hr : h.Reports texts) (hx : input ≠ .exit) :
    (h.take input).Reports (texts ++ input.heard) := by
  refine ⟨fun hf => ?_, fun hn => ?_⟩
  · rcases stage_take_failed_iff.mp hf with hf | ⟨he, -⟩
    · exact hr.stage hf
    · exact hx he
  · have hold : h.stage ≠ .connected := fun hc =>
      Bool.eq_false_iff.mp hn (isConnected_iff.mpr (stage_take_connected hc input))
    have hbuffer := hr.buffer (Bool.eq_false_iff.mpr (mt isConnected_iff.mp hold))
    have hkept : input.kept h.stage = String.join input.heard := by
      cases input <;> simp [Input.kept, Input.heard, hold, hr.stage]
    rw [buffer_take, hbuffer, hkept, String.join_append]

end Handshake

namespace Session

variable {session now next : Session} {texts more : List String} {happening : Happening}

/-- A session is the same one as before, and has heard some texts in between. -/
structure Continues (session now : Session) (texts : List String) : Prop where
  client : now.client = session.client
  process : now.process = session.process
  reports : ∀ earlier, session.handshake.Reports earlier →
    now.handshake.Reports (earlier ++ texts)

theorem Continues.refl (session : Session) : session.Continues session [] :=
  ⟨rfl, rfl, fun earlier h => (List.append_nil earlier).symm ▸ h⟩

theorem Continues.trans (h : session.Continues now texts) (hn : now.Continues next more) :
    session.Continues next (texts ++ more) where
  client := hn.client.trans h.client
  process := hn.process.trans h.process
  reports := fun earlier hr => List.append_assoc .. ▸ hn.reports _ (h.reports earlier hr)

/-- The session once a process has been handed to it. -/
def given (session : Session) (handle : ProcessHandle) : Session :=
  { session with process := some handle, handshake := session.handshake.spawned }

/-- **A session that something happens to** hears what its process has written. -/
theorem continues_hear (h : session.hear happening = some now) :
    session.Continues now happening.output.toList := by
  obtain ⟨hclient, hprocess⟩ := hear_keeps h
  refine ⟨hclient, hprocess, fun earlier hr => ?_⟩
  have hsame : now.handshake = session.handshake → now.handshake.Reports (earlier ++ []) := by
    intro he
    rw [he, List.append_nil]
    exact hr
  cases happening with
  | exit code => exact absurd h nofun
  | stdout text =>
    obtain rfl := Option.some.inj h
    have htake : (session.handshake.take (.stdout text)).Reports (earlier ++ [text]) :=
      hr.take nofun
    exact htake
  | stderr text =>
    obtain rfl := Option.some.inj h
    have htake : (session.handshake.take (.stderr text)).Reports (earlier ++ [text]) :=
      hr.take nofun
    exact htake
  | attached | inbound | detached =>
    obtain rfl := Option.some.inj h
    exact hsame rfl

end Session

namespace Host

variable {host : Host} {around : Surroundings} {session now : Session} {id : SessionId}
  {deed : Deed} {other : SessionId}

/-! ## Events -/

theorem continues_handleEvent {event : SessionEvent}
    (hnow : (host.handleEvent event).registry.get? id = some now) :
    ∃ session, host.registry.get? id = some session ∧
      session.Continues now (written id [event]) := by
  rw [get?_handleEvent] at hnow
  split at hnow
  · rename_i he
    obtain ⟨session, hg, hhear⟩ := Option.bind_eq_some_iff.mp hnow
    have hwritten : written id [event] = event.happening.output.toList := by
      unfold written
      rw [List.filterMap_cons, if_pos he.symm]
      cases event.happening.output <;> rfl
    exact ⟨session, hg, hwritten ▸ Session.continues_hear hhear⟩
  · rename_i hne
    have hwritten : written id [event] = [] := by
      unfold written
      rw [List.filterMap_cons, if_neg fun he => hne he.symm]
      rfl
    exact ⟨now, hnow, hwritten ▸ Session.Continues.refl now⟩

/-- **What a session has heard of events** is what its own process has written. -/
theorem continues_hear : ∀ (events : List SessionEvent) {host : Host} {now : Session},
    (host.hear events).registry.get? id = some now →
    ∃ session, host.registry.get? id = some session ∧ session.Continues now (written id events)
  | [], _, now, hnow => ⟨now, hnow, .refl now⟩
  | event :: events, host, now, hnow => by
    obtain ⟨between, hbetween, hlast⟩ := continues_hear events hnow
    obtain ⟨session, hg, hfirst⟩ := continues_handleEvent hbetween
    exact ⟨session, hg, written_append id [event] events ▸ hfirst.trans hlast⟩

/-! ## Deeds -/

/-- A session that has come in: its lane is new, so is its process, and it has heard nothing. -/
structure Comes (host : Host) (session : Session) : Prop where
  lane : host.server.lanes.length ≤ session.client.lane
  process : ∀ serial, session.Holds serial → host.ledger.fates.length ≤ serial
  reports : session.handshake.Reports []

/-- A registration starts no process. -/
theorem names_register : (host.register session).ledger.names = host.ledger.names := by
  have hentered : (host.entered session).ledger.names = host.ledger.names :=
    Ledger.names_part.trans Ledger.names_part
  rw [register_eq]
  split <;> exact hentered

/-- A process that is handed over changes the session of its id, and no other. -/
theorem get?_adopt (hg : host.registry.get? id = some session) (pid : Option Nat) :
    (host.adopt id pid).registry.get? other =
      if other = id then some (session.given (host.ledger.start id pid).1)
      else host.registry.get? other := by
  have hid := (Registry.mem_of_get? hg).2
  have hmodify : (host.registry.modify id fun _ =>
      session.given (host.ledger.start id pid).1).get? other = _ :=
    Registry.get?_modify fun _ _ => hid
  rcases adopt_cases host id pid with ⟨hnone, -⟩ | ⟨s, hs, ha⟩
  · exact absurd (hnone.symm.trans hg) nofun
  · obtain rfl := Option.some.inj (hg.symm.trans hs)
    rw [ha]
    exact hmodify.trans (by rw [hg]; rfl)

/-- **A launch gives the session of its id a process** at most, and changes no other. -/
theorem get?_launch (hg : host.registry.get? id = some session)
    (hnow : (host.launch around id).registry.get? other = some now) :
    other = id ∧ (now = session ∨ ∃ pid, now = session.given (host.ledger.start id pid).1) ∨
      other ≠ id ∧ host.registry.get? other = some now := by
  rcases launch_outcome host around id with hl | ⟨launched, hg', ⟨pid, -, hl⟩ | ⟨fault, -, hl⟩⟩
  · rw [hl] at hnow
    by_cases he : other = id
    · rw [he, hg] at hnow
      exact .inl ⟨he, .inl (Option.some.inj hnow).symm⟩
    · exact .inr ⟨he, hnow⟩
  · obtain rfl := Option.some.inj (hg.symm.trans hg')
    have hadopt : (host.announced id session).registry.get? id = some session := hg
    rw [hl, get?_adopt hadopt] at hnow
    split at hnow
    · rename_i he
      exact .inl ⟨he, .inr ⟨pid, (Option.some.inj hnow).symm⟩⟩
    · rename_i hne
      exact .inr ⟨hne, hnow⟩
  · rw [hl] at hnow
    have hnow := get?_release.symm.trans hnow
    split at hnow
    · exact absurd hnow nofun
    · rename_i hne
      exact .inr ⟨hne, hnow⟩

/-- **An attempt leaves a session as it was, or the session has come in with it.** -/
theorem comes_tryConnect {target : ConnectTarget}
    (hnow : (host.tryConnect around target).2.registry.get? id = some now) :
    host.registry.get? id = some now ∨ host.Comes now := by
  rcases tryConnect_cases host around target with ⟨_, _, -, -, hc⟩ | ⟨-, hc⟩
  · rw [hc] at hnow
    exact .inl hnow
  rcases startSession_cases host around target (rootOf around target) with
    ⟨popup, hs⟩ | ⟨interpreter, bridge, root, -, -, hs⟩
  · rw [hc, hs] at hnow
    exact .inl hnow
  · let session := host.newSession target interpreter bridge root
    let registered := (host.opened around).register session
    have hlane : host.server.lanes.length ≤ session.client.lane := Nat.le_refl _
    have hfates : registered.ledger.fates.length = host.ledger.fates.length := by
      have hnames : registered.ledger.names = host.ledger.names := names_register
      simpa [Ledger.names] using congrArg List.length hnames
    have hnew : host.Comes session :=
      ⟨hlane, fun _ ⟨_, hp, _⟩ => absurd hp nofun, Handshake.reports_new⟩
    have hstarted : ∀ pid,
        host.Comes (session.given (registered.ledger.start session.id pid).1) := by
      intro pid
      refine ⟨hlane, fun serial hh => ?_, ?_⟩
      · obtain ⟨handle, hp, rfl⟩ := hh
        obtain rfl := Option.some.inj hp
        exact hfates.ge
      · have hspawned : (session.handshake.take .spawned).Reports ([] ++ []) :=
          Handshake.reports_new.take nofun
        exact hspawned
    have hinsert : registered.registry =
        ((host.opened around).registry.insert session).registry := registry_register
    have hg : registered.registry.get? session.id = some session :=
      hinsert ▸ Registry.get?_insert_self
    rw [hc, hs] at hnow
    rcases get?_launch hg hnow with ⟨-, rfl | ⟨pid, rfl⟩⟩ | ⟨hne, hold⟩
    · exact .inr hnew
    · exact .inr (hstarted pid)
    · rcases Registry.get?_insert (hinsert ▸ hold) with ⟨he, -⟩ | ⟨-, hold⟩
      · exact absurd he hne
      · exact .inl hold

/-- The event that a deed brings, if it brings one. -/
def Deed.event? : Deed → Option SessionEvent
  | .take (.event event) => some event
  | _ => none

/-- The events that deeds bring, in order. -/
def delivered (deeds : List Deed) : List SessionEvent :=
  deeds.filterMap Deed.event?

theorem delivered_cons (deed : Deed) (deeds : List Deed) :
    delivered (deed :: deeds) = deed.event?.toList ++ delivered deeds := by
  unfold delivered
  rw [List.filterMap_cons]
  cases deed.event? <;> rfl

theorem event?_of_quiet {turn : Turn} (quiet : ∀ event, turn ≠ .event event) :
    (Deed.take turn).event? = none := by
  cases turn with
  | event event => exact absurd rfl (quiet event)
  | _ => rfl

/-- **After a deed a session has come in with it, or continues what it was before.** -/
theorem act_record (host : Host) (deed : Deed)
    (hnow : (host.act deed).registry.get? id = some now) :
    host.Comes now ∨ ∃ session, host.registry.get? id = some session ∧
      session.Continues now (written id deed.event?.toList) := by
  have hstill : deed.event? = none → host.registry.get? id = some now →
      ∃ session, host.registry.get? id = some session ∧
        session.Continues now (written id deed.event?.toList) := by
    intro hquiet hg
    rw [hquiet]
    exact ⟨now, hg, .refl now⟩
  cases deed with
  | shutdown =>
    refine absurd (Registry.mem_of_get? hnow).1 ?_
    have hnone := List.isEmpty_iff.mp (isEmpty_shutdown host)
    show now ∉ host.shutdown.registry.sessions
    rw [hnone]
    exact List.not_mem_nil
  | take turn =>
    have hnow : (host.take turn).registry.get? id = some now := hnow
    cases turn.effect host with
    | still quiet hr =>
      rw [hr] at hnow
      exact .inr (hstill (event?_of_quiet quiet) hnow)
    | attempt quiet calls around target _ _ hr =>
      rw [hr] at hnow
      rcases comes_tryConnect hnow with hg | ⟨hlane, hprocess, hreports⟩
      · exact .inr (hstill (event?_of_quiet quiet) hg)
      · exact .inl ⟨hlane, hprocess, hreports⟩
    | disconnect quiet root _ hr =>
      rw [hr] at hnow
      unfold disconnect at hnow
      split at hnow
      · exact .inr (hstill (event?_of_quiet quiet) hnow)
      · have hnow := get?_release.symm.trans hnow
        split at hnow
        · exact absurd hnow nofun
        · exact .inr (hstill (event?_of_quiet quiet) hnow)
    | event event => exact .inr (continues_handleEvent hnow)

/-! ## Lives -/

/-- **The deed is the launch of a session**: the lane of the session was opened in it, and the
process was started in it. -/
structure Deed.Begins (host : Host) (deed : Deed) (session : Session) : Prop where
  opened : host.server.lanes.length ≤ session.client.lane ∧
    session.client.lane < (host.act deed).server.lanes.length
  launched : ∀ serial, session.Holds serial →
    host.ledger.fates.length ≤ serial ∧ serial < (host.act deed).ledger.fates.length

/-- A session that comes in begins with the deed that it came with. -/
theorem Comes.begins (h : host.Comes now) (htended : (host.act deed).Tended)
    (hnow : (host.act deed).registry.get? id = some now) : deed.Begins host now := by
  have hm := (Registry.mem_of_get? hnow).1
  obtain ⟨lane, hl, -⟩ := htended.moored now hm
  exact ⟨⟨h.lane, (List.getElem?_eq_some_iff.mp hl).1⟩,
    fun serial hh => ⟨h.process serial hh, htended.custody.lt_length hm hh⟩⟩

/-- What a session began with does not depend on what it has heard since. -/
theorem Deed.Begins.continues {texts : List String} (h : deed.Begins host session)
    (hc : session.Continues now texts) : deed.Begins host now := by
  obtain ⟨hopened, hlaunched⟩ := h
  refine ⟨hc.client ▸ hopened, fun serial hh => hlaunched serial ?_⟩
  unfold Session.Holds at hh ⊢
  rwa [hc.process] at hh

/-- **Over a life a session reports what it has heard since its launch**, or, if it was registered
from the start, what it has heard over the whole life. -/
theorem since_launch : ∀ (deeds : List Deed) {host : Host} {now : Session}, host.Tended →
    (host.live deeds).registry.get? id = some now →
    (∃ before deed after, deeds = before ++ deed :: after ∧ deed.Begins (host.live before) now ∧
        now.handshake.Reports (written id (delivered after))) ∨
      ∃ session, host.registry.get? id = some session ∧
        session.Continues now (written id (delivered deeds))
  | [], _, now, _, hnow => .inr ⟨now, hnow, .refl now⟩
  | deed :: deeds, host, now, h, hnow => by
    have hact : (host.act deed).Tended := h.live [deed]
    rcases since_launch deeds hact hnow with
      ⟨before, first, after, rfl, hbegins, hreports⟩ | ⟨next, hnext, hlast⟩
    · exact .inl ⟨deed :: before, first, after, rfl, hbegins, hreports⟩
    · rcases act_record host deed hnext with hcomes | ⟨session, hg, hfirst⟩
      · exact .inl ⟨[], deed, deeds, rfl, (hcomes.begins hact hnext).continues hlast,
          hlast.reports [] hcomes.reports⟩
      · refine .inr ⟨session, hg, ?_⟩
        rw [delivered_cons, written_append]
        exact hfirst.trans hlast

/-- **Sessions do not interfere.** Take any state that a life of a host has led to, any session that
is registered in it, and any events that the host hears then, of whatever sessions.
* The session stands as if the host had heard nothing but the events of this session, in the same
  order: its record, the fate of its process, its lane and its client.
* The session was launched by one of the deeds of that life. If its process exits after the events
  and before it has connected, the popup that reports this shows what the process of this session
  has written since that deed, in order of arrival, and nothing else. -/
theorem sessions_do_not_interfere (settings : Settings) (store : Option Path)
    (searchPath : Option String) (port : UInt16) (deeds : List Deed) {session : Session}
    (registered : ((start settings store searchPath port).live deeds).registry.get? session.id =
      some session) :
    let host := (start settings store searchPath port).live deeds
    (∀ events : List SessionEvent, (host.hear events).standing session =
        (host.hear (events.filter fun event => decide (event.session = session.id))).standing
          session) ∧
      ∃ before deed after, deeds = before ++ deed :: after ∧
        deed.Begins ((start settings store searchPath port).live before) session ∧
        ∀ (events : List SessionEvent) (now : Session) (code : Option Int),
          (host.hear events).registry.get? session.id = some now → now.isConnected = false →
            let exited := (host.hear events).handleEvent
              { session := session.id, happening := .exit code }
            let report := String.join (written session.id (delivered after ++ events))
            ∃ popup, exited.calls = (host.hear events).calls ++ [.endWorking, .popup popup] ∧
              popup = .connectFailed report ∧ popup.detail = some report := by
  intro host
  have hstart := start_tended settings store searchPath port
  have hknows : host.Knows session := (hstart.live deeds).knows registered
  refine ⟨fun events => ?_, ?_⟩
  · rw [hknows.standing_hear, hknows.standing_hear, List.filter_filter]
    simp only [Bool.and_self]
  · rcases since_launch deeds hstart registered with
      ⟨before, deed, after, hdeeds, hbegins, hreports⟩ | ⟨_, hnobody, -⟩
    · refine ⟨before, deed, after, hdeeds, hbegins, fun events now code hnow hn => ?_⟩
      obtain ⟨known, hknown, hheard⟩ := continues_hear events hnow
      obtain rfl := Option.some.inj (registered.symm.trans hknown)
      have hbuffer := (hheard.reports _ hreports).buffer hn
      have hcalls := calls_exit hnow code
      rw [if_neg (Bool.eq_false_iff.mp hn), hbuffer, ← written_append] at hcalls
      exact ⟨_, hcalls, rfl, rfl⟩
    · exact absurd hnobody nofun

/-- The process of another session exits between two texts of a session that does not connect. -/
theorem apart_from_an_exit :
    let around : Surroundings := { Surroundings.furnished with
      files := { Surroundings.furnished.files with isDirectory := fun _ => true } }
    let deeds : List Deed :=
      [.take (.tryConnect around { origin := none, path := some ⟨"/work"⟩ }),
        .take (.tryConnect around { origin := none, path := some ⟨"/play"⟩ }),
        .take (.event ⟨⟨1⟩, .stdout "no "⟩)]
    let events : List SessionEvent := [⟨⟨2⟩, .stderr "?"⟩, ⟨⟨2⟩, .exit none⟩, ⟨⟨1⟩, .stderr "way"⟩]
    let host := (start .fresh none none 0).live deeds
    ∃ session, host.registry.get? ⟨1⟩ = some session ∧ host.registry.contains ⟨2⟩ = true ∧
      (host.hear events).standing session =
        (host.hear [⟨⟨1⟩, .stderr "way"⟩]).standing session ∧
      ∃ popup, ((host.hear events).handleEvent ⟨⟨1⟩, .exit (some 1)⟩).calls =
          (host.hear events).calls ++ [.endWorking, .popup popup] ∧
        popup.detail = some "no way" := by
  intro around deeds events host
  obtain ⟨session, hg⟩ : ∃ session, host.registry.get? ⟨1⟩ = some session :=
    Option.isSome_iff_exists.mp (by decide +kernel)
  obtain ⟨now, hnow, hn⟩ : ∃ now, (host.hear events).registry.get? ⟨1⟩ = some now ∧
      now.isConnected = false := by
    obtain ⟨now, hnow⟩ := Option.isSome_iff_exists.mp
      (show ((host.hear events).registry.get? ⟨1⟩).isSome = true by decide +kernel)
    refine ⟨now, hnow, ?_⟩
    have hall : ((host.hear events).registry.get? ⟨1⟩).any Session.isConnected = false := by
      decide +kernel
    rwa [hnow] at hall
  have hid : session.id = ⟨1⟩ := (Registry.mem_of_get? hg).2
  rw [← hid] at hg hnow
  obtain ⟨hstands, before, deed, after, -, -, hreport⟩ :=
    sessions_do_not_interfere .fresh none none 0 deeds hg
  obtain ⟨popup, hcalls, -, -⟩ := hreport events now (some 1) hnow hn
  have hlast : ((host.hear events).handleEvent ⟨⟨1⟩, .exit (some 1)⟩).calls.getLast? =
      some (.popup (.connectFailed "no way")) := by
    decide +kernel
  rw [hid] at hg hcalls
  refine ⟨session, hg, by decide +kernel, ?_, popup, hcalls, ?_⟩
  · have hown : (events.filter fun event => decide (event.session = session.id)) =
        [⟨⟨1⟩, .stderr "way"⟩] := by
      rw [hid]
      decide
    exact hown ▸ hstands events
  · rw [hcalls, List.getLast?_append] at hlast
    obtain rfl := Call.popup.inj (Option.some.inj hlast)
    rfl

end Host

end InlineRepl
