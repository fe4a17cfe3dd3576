import InlineRepl.Host.Run
import Mathlib.Tactic.Common

/-!
# Turns of a host

`Host.Turn` is everything that can happen to a host between its start and its end: what users ask of
it, the events of its sessions, real, late or invented, and what bridges do to the lanes of its
control server. Each turn brings its own answers of the surroundings, so files come and go,
lookups and launches succeed and fail from one turn to the next. `Host.run` takes turns one after
the other.

`handleEvent_keeps` says what an event can do to a host. `Turn.effect` says what a turn can do to
the registry; what a run keeps of it is read off these four cases.
-/

namespace InlineRepl

namespace Host

/-- One thing that happens to a host. -/
inductive Turn where
  | tryConnect (around : Surroundings) (target : ConnectTarget)
  | evaluate (around : Surroundings) (doc : Document) (scope : Scope)
  | submit (around : Surroundings) (evaluation : Evaluation)
  | disconnect (root : Path)
  | configure (key : SettingKey) (value : Option Path)
  | command (around : Surroundings) (command : HostCommand)
  | event (event : SessionEvent)
  /-- A bridge greets. -/
  | greet (hello : Hello)
  /-- A lane's next request is written to its bridge. -/
  | transmit (lane : Nat)
  /-- A lane's bridge is gone. -/
  | hangUp (lane : Nat)

namespace Turn

/-- The answers of the surroundings that a turn asks for. -/
def around? : Turn → Option Surroundings
  | .tryConnect around _ => some around
  | .evaluate around _ _ => some around
  | .submit around _ => some around
  | .command around _ => some around
  | _ => none

/-- A command makes the host try to connect. -/
def commandConnects : HostCommand → Bool
  | .evaluate _ => true
  | .connect _ => true
  | .choose (.saveAndRetry _) => true
  | _ => false

/-- A turn makes the host try to connect. -/
def connects : Turn → Bool
  | .tryConnect .. => true
  | .evaluate .. => true
  | .submit .. => true
  | .command _ asked => commandConnects asked
  | _ => false

/-- A turn disconnects a root. -/
def disconnects (root : Path) : Turn → Bool
  | .disconnect other => root.same other
  | .command _ (.disconnect other) => root.same other
  | _ => false

end Turn

/-- Takes one turn. -/
def take (host : Host) : Turn → Host
  | .tryConnect around target => (host.tryConnect around target).2
  | .evaluate around doc scope => (host.evaluate around doc scope).2
  | .submit around evaluation => (host.submit around evaluation).2
  | .disconnect root => (host.disconnect root).2
  | .configure key value => host.configure key value
  | .command around command => host.handleCommand around command
  | .event event => host.handleEvent event
  | .greet hello =>
    match host.server.greet hello with
    | some (_, server) => { host with server }
    | none => host
  | .transmit lane =>
    match host.server.transmit lane with
    | some (_, server) => { host with server }
    | none => host
  | .hangUp lane => { host with server := host.server.hangUp lane }

/-- Takes turns one after the other. -/
def run (host : Host) (turns : List Turn) : Host :=
  turns.foldl take host

/-- The number of connection attempts among turns. -/
def attempts (turns : List Turn) : Nat :=
  turns.countP Turn.connects

@[simp] theorem run_nil (host : Host) : host.run [] = host := rfl

@[simp] theorem run_cons (host : Host) (turn : Turn) (turns : List Turn) :
    host.run (turn :: turns) = (host.take turn).run turns := rfl

theorem run_append (host : Host) (turns more : List Turn) :
    host.run (turns ++ more) = (host.run turns).run more :=
  List.foldl_append

theorem attempts_cons (turn : Turn) (turns : List Turn) :
    attempts (turn :: turns) = attempts turns + if turn.connects then 1 else 0 :=
  List.countP_cons

/-! ## What an event does -/

/-- **An exit** lets a connected session go, and is the failure of one that is not connected. -/
theorem onExit_cases (host : Host) (id : SessionId) (session : Session) :
    (session.isConnected = true ∧ host.onExit id session = (host.closeLane id).forget id) ∨
      session.isConnected = false ∧ ∃ handshake, host.onExit id session =
        failSession
          { host with registry := host.registry.modify id fun s => { s with handshake } } id
          session.handshake.buffer := by
  unfold onExit Handshake.onExit Session.isConnected Handshake.isConnected
  cases session.handshake.stage with
  | connected => exact .inl ⟨rfl, rfl⟩
  | spawning | connecting | failed => exact .inr ⟨rfl, _, rfl⟩

/-- **What events keep.** An event of nobody changes nothing. Any other changes the handshake of its
session or whether a bridge is attached to it, and may end the work that is shown; or it is the exit
of the session; or it is a response, which is routed. -/
theorem handleEvent_keeps (kept : Host → Prop) {host : Host} {event : SessionEvent}
    (still : kept host)
    (revised : ∀ (handshake : Session → Handshake) (attached : Session → Bool),
      kept { host with registry := host.registry.modify event.session fun s =>
        { s with handshake := handshake s, attached := attached s } })
    (told : ∀ after, kept after → kept (after.tell .endWorking))
    (exited : ∀ session code, host.registry.get? event.session = some session →
      event.happening = .exit code → kept (host.onExit event.session session))
    (routed : ∀ inbound, event.happening = .inbound inbound → kept (host.dispatch inbound)) :
    kept (host.handleEvent event) := by
  have hheard : ∀ handshake, kept
      { host with registry := host.registry.modify event.session fun s => { s with handshake } } :=
    fun handshake => revised (fun _ => handshake) Session.attached
  unfold handleEvent
  split
  · exact still
  rename_i session hg
  unfold onHappening
  split
  · dsimp only
    split
    · exact told _ (hheard _)
    · exact hheard _
  · exact hheard _
  · rename_i code he
    exact exited session code hg he
  · exact revised Session.handshake fun _ => true
  · exact revised Session.handshake fun _ => false
  · rename_i inbound he
    exact routed inbound he

/-! ## What a turn does to the registry -/

theorem registry_configure (host : Host) (key : SettingKey) (value : Option Path) :
    (host.configure key value).registry = host.registry := by
  unfold configure
  dsimp only
  split <;> split <;> rfl

theorem registry_submit (host : Host) (around : Surroundings) (evaluation : Evaluation) :
    (host.submit around evaluation).2.registry =
      ((host.tell (.beginWorking "")).tryConnect around
        { origin := some evaluation.origin, path := evaluation.path }).2.registry := by
  unfold submit
  dsimp only
  split
  · rfl
  · split <;> rfl

/-- What a turn does to the registry: nothing, or what an attempt, a disconnect or an event does. An
attempt may have been announced before. -/
inductive Turn.Effect (host : Host) : Turn → Prop
  | still {turn : Turn} (quiet : ∀ event, turn ≠ .event event)
    (registry : (host.take turn).registry = host.registry) : Effect host turn
  | attempt {turn : Turn} (quiet : ∀ event, turn ≠ .event event) (calls : List Call)
    (around : Surroundings) (target : ConnectTarget) (answers : turn.around? = some around)
    (connects : turn.connects = true)
    (registry : (host.take turn).registry =
      ({ host with calls }.tryConnect around target).2.registry) : Effect host turn
  | disconnect {turn : Turn} (quiet : ∀ event, turn ≠ .event event) (root : Path)
    (disconnects : ∀ other, turn.disconnects other = other.same root)
    (registry : (host.take turn).registry = (host.disconnect root).2.registry) : Effect host turn
  | event (event : SessionEvent) : Effect host (.event event)

/-- **Every turn has one of four effects on the registry.** -/
theorem Turn.effect (turn : Turn) (host : Host) : turn.Effect host := by
  have hsubmit : ∀ {turn : Turn} (around : Surroundings) (evaluation : Evaluation),
      (∀ event, turn ≠ .event event) → turn.around? = some around → turn.connects = true →
      host.take turn = (host.submit around evaluation).2 → turn.Effect host :=
    fun around evaluation quiet ha hc ht => .attempt quiet _ around _ ha hc
      (ht ▸ registry_submit host around evaluation)
  cases turn with
  | tryConnect around target => exact .attempt nofun host.calls around target rfl rfl rfl
  | evaluate around doc scope => exact hsubmit around _ nofun rfl rfl rfl
  | submit around evaluation => exact hsubmit around evaluation nofun rfl rfl rfl
  | disconnect root => exact .disconnect nofun root (fun _ => rfl) rfl
  | configure key value => exact .still nofun (registry_configure host key value)
  | command around command =>
    cases command with
    | evaluate evaluation => exact hsubmit around evaluation nofun rfl rfl rfl
    | connect dir => exact .attempt nofun host.calls around _ rfl rfl rfl
    | disconnect root => exact .disconnect nofun root (fun _ => rfl) rfl
    | choose choice =>
      cases choice with
      | openUrl url => exact .still nofun rfl
      | saveAndRetry doc => exact .attempt nofun _ around _ rfl rfl rfl
      | dismiss => exact .still nofun rfl
    | configure key value => exact .still nofun (registry_configure host key value)
  | event event => exact .event event
  | greet hello =>
    refine .still nofun ?_
    simp only [Host.take]
    split <;> rfl
  | transmit lane =>
    refine .still nofun ?_
    simp only [Host.take]
    split <;> rfl
  | hangUp lane => exact .still nofun rfl

end Host

/-! ## What surroundings answer -/

/-- A lookup that finds an interpreter names it: what it answers is never the empty path. -/
def Surroundings.NamesWhatItFinds (around : Surroundings) : Prop :=
  ∀ searchPath p, around.lookup searchPath = some p → p.isEmpty = false

/-- A path that ends in a name is not empty. -/
theorem Path.join_nonempty {p q : Path} (h : q.isEmpty = false) : (p.join q).isEmpty = false := by
  have hq : q.text ≠ "" := by simpa [isEmpty] using h
  have happ : ∀ text : String, text ++ q.text ≠ "" := fun text he =>
    hq (String.append_eq_empty_iff.mp he).2
  unfold join
  split
  · exact h
  · split
    · simpa [isEmpty] using happ p.text
    · simp [isEmpty]

/-- A search along a search path names what it finds. -/
theorem SearchPath.find_nonempty {files : FileView} {home : Option Path}
    {searchPath command : String}
    {p : Path} (hc : command ≠ "") (h : find files home searchPath command = some p) :
    p.isEmpty = false := by
  obtain ⟨dir, -, rfl⟩ := List.mem_map.mp (List.mem_of_find?_eq_some h)
  exact Path.join_nonempty (by simpa [Path.isEmpty] using hc)

/-- Surroundings in which the directory `/work` can be connected to. -/
def Surroundings.furnished : Surroundings :=
  let files : FileView :=
    { isDirectory := fun p => p.text == "/work"
      isFile := fun p => p.text == "/lib/bridge.fsx"
      isExecutable := fun p => p.text == "/bin/fsharpi"
      hasPath := fun _ => false }
  { files
    lookup := fun searchPath =>
      SearchPath.find files none (searchPath.getD "/bin") interpreterCommand
    bridgePlaces := { named := some ⟨"/lib/bridge.fsx"⟩ }
    launch := fun _ _ => .ok none
    save := fun _ => none }

theorem Surroundings.furnished_names : furnished.NamesWhatItFinds :=
  fun _ _ h => SearchPath.find_nonempty (by decide) h

end InlineRepl
