import InlineRepl.Proofs.Host.Turn
import InlineRepl.Proofs.Lookup.Probe
import InlineRepl.Proofs.Lookup.ProjectRoot

/-!
# What a connection attempt amounts to

`Host.startSession` takes an id, opens its lane, asks for the interpreter, and then either gives up
or registers a session and launches it. The lemmas here say which of these it was, so that nobody
has to take the function apart again.

Results:
* `tryConnect_cases`: an attempt reuses a session, or starts one.
* `startSession_outcome`: a start is given up for what is missing, or registers and launches.
* `launch_eq`, `launch_outcome`: a launch is kept back, or what the launcher answers decides what it
  amounts to.
* `rootOf_nonempty`, `Probe.resolve_nonempty`: neither a project root nor an interpreter is ever the
  empty path, so no launch is refused.
-/

namespace InlineRepl

/-! ## Interpreters are never empty -/

namespace Probe

/-- What a probe remembers is never the empty path. -/
def Remembers (probe : Probe) : Prop :=
  ∀ p, probe.resolved = some p → p.isEmpty = false

theorem chosen?_nonempty {override : Option Path} {p : Path} (h : chosen? override = some p) :
    p.isEmpty = false := by
  simpa using (Option.filter_eq_some_iff.mp h).2

theorem resolve_remembers {probe : Probe} {lookup : Option String → Option Path}
    (h : probe.Remembers) (found : ∀ searchPath p, lookup searchPath = some p → p.isEmpty = false) :
    (probe.resolve lookup).2.Remembers := by
  intro p hp
  rw [resolve_eq] at hp
  rcases Option.or_eq_some_iff.mp hp with hr | ⟨-, hw⟩
  · exact h p hr
  · rcases Option.or_eq_some_iff.mp hw with hc | ⟨-, hl⟩
    · exact chosen?_nonempty hc
    · exact found _ p hl

/-- A probe that has resolved an executable remembers it. -/
theorem remembers_of_resolve {probe : Probe} {lookup : Option String → Option Path}
    {interpreter : Interpreter} (hi : (probe.resolve lookup).1 = some interpreter)
    (hne : interpreter.executable.isEmpty = false) : (probe.resolve lookup).2.Remembers := by
  intro p hp
  rw [resolve_eq] at hi hp
  obtain ⟨q, hq, rfl⟩ := Option.map_eq_some_iff.mp hi
  obtain rfl := Option.some.inj (hq.symm.trans hp)
  exact hne

/-- An interpreter that a probe resolves has an executable. -/
theorem resolve_nonempty {probe : Probe} {lookup : Option String → Option Path}
    (h : probe.Remembers) (found : ∀ searchPath p, lookup searchPath = some p → p.isEmpty = false)
    {interpreter : Interpreter} (hi : (probe.resolve lookup).1 = some interpreter) :
    interpreter.executable.isEmpty = false := by
  have hremembers := resolve_remembers h found
  rw [resolve_eq] at hi hremembers
  obtain ⟨p, hp, rfl⟩ := Option.map_eq_some_iff.mp hi
  exact hremembers p hp

end Probe

namespace Host

variable {host : Host} {around : Surroundings} {target : ConnectTarget} {root : Option Path}

/-- The host once an id has been taken, its lane opened and the interpreter asked for. -/
def opened (host : Host) (around : Surroundings) : Host :=
  { host with
    registry := host.registry.nextId.2
    server := (host.server.open_ host.registry.nextId.1).2
    probe := (host.probe.resolve around.lookup).2 }

/-- The client of the id that the next attempt takes. -/
def nextClient (host : Host) : Client :=
  (host.server.open_ host.registry.nextId.1).1

/-- The session that an attempt registers. -/
def newSession (host : Host) (target : ConnectTarget) (interpreter : Interpreter)
    (bridge root : Path) :
    Session :=
  { client := host.nextClient, root, origin := target.origin, interpreter, bridge }

/-- The bridge script that an attempt uses. -/
def bridgeOf (host : Host) (around : Surroundings) : BridgeScript :=
  BridgeScript.locate around.files around.bridgePlaces host.settings.bridgeScript

/-- **Something is missing**: the first of interpreter, bridge script and project root that is not
there, and the popup that names it. -/
inductive Lacks (host : Host) (around : Surroundings) (target : ConnectTarget)
    (root : Option Path) : Popup → Prop
  | interpreter (hi : (host.probe.resolve around.lookup).1 = none) :
      Lacks host around target root (.interpreterMissing interpreterCommand)
  | bridge {interpreter : Interpreter}
      (hi : (host.probe.resolve around.lookup).1 = some interpreter)
      (hb : (host.bridgeOf around).present = false) :
      Lacks host around target root (.bridgeMissing (host.bridgeOf around).path)
  | root {interpreter : Interpreter}
      (hi : (host.probe.resolve around.lookup).1 = some interpreter)
      (hb : (host.bridgeOf around).present = true) (hr : root = none) :
      Lacks host around target root (.unsavedDocument target.origin)

/-- **A start is given up because something is missing, or registers a session and launches it.**
The client of the id that it has taken is handed out in any case. -/
theorem startSession_outcome (host : Host) (around : Surroundings) (target : ConnectTarget)
    (root : Option Path) :
    (∃ popup, host.Lacks around target root popup ∧ host.startSession around target root =
        (host.nextClient, (host.opened around).abortConnect host.registry.nextId.1 popup)) ∨
      ∃ interpreter r, (host.probe.resolve around.lookup).1 = some interpreter ∧
        (host.bridgeOf around).present = true ∧ root = some r ∧
        host.startSession around target root =
          (host.nextClient,
            ((host.opened around).register (host.newSession target interpreter
              (host.bridgeOf around).path r)).launch around host.registry.nextId.1) := by
  have hbridge : BridgeScript.locate around.files around.bridgePlaces host.settings.bridgeScript =
      host.bridgeOf around := rfl
  unfold startSession
  dsimp only [Registry.nextId, ControlServer.open_]
  rw [hbridge]
  cases hi : (host.probe.resolve around.lookup).1 with
  | none => exact .inl ⟨_, .interpreter hi, rfl⟩
  | some interpreter =>
    cases hb : (host.bridgeOf around).present with
    | false => exact .inl ⟨_, .bridge hi hb, rfl⟩
    | true =>
      cases root with
      | none => exact .inl ⟨_, .root hi hb rfl, rfl⟩
      | some r => exact .inr ⟨interpreter, r, rfl, rfl, rfl, rfl⟩

/-- A start is given up with a popup, or registers a session and launches it. -/
theorem startSession_cases (host : Host) (around : Surroundings) (target : ConnectTarget)
    (root : Option Path) :
    (∃ popup, (host.startSession around target root).2 =
        (host.opened around).abortConnect host.registry.nextId.1 popup) ∨
      ∃ interpreter bridge r, (host.probe.resolve around.lookup).1 = some interpreter ∧
        root = some r ∧ (host.startSession around target root).2 =
          ((host.opened around).register
              (host.newSession target interpreter bridge r)).launch around
            host.registry.nextId.1 := by
  rcases startSession_outcome host around target root with
    ⟨popup, -, hs⟩ | ⟨interpreter, r, hi, -, hr, hs⟩
  · exact .inl ⟨popup, congrArg Prod.snd hs⟩
  · exact .inr ⟨interpreter, _, r, hi, hr, congrArg Prod.snd hs⟩

/-- **An attempt reuses the session of its root, or starts one** where no session stands. -/
theorem tryConnect_cases (host : Host) (around : Surroundings) (target : ConnectTarget) :
    (∃ r session, rootOf around target = some r ∧ host.registry.findByRoot? r = some session ∧
        host.tryConnect around target = (session.client, host)) ∨
      (∀ r, rootOf around target = some r → host.registry.findByRoot? r = none) ∧
        host.tryConnect around target =
          host.startSession around target (rootOf around target) := by
  unfold tryConnect
  rcases hr : rootOf around target with _ | r
  · exact .inr ⟨fun r h => absurd h (by simp), rfl⟩
  · rcases hf : host.registry.findByRoot? r with _ | session
    · refine .inr ⟨fun r' h => ?_, ?_⟩
      · obtain rfl := Option.some.inj h
        exact hf
      · simp [hf]
    · exact .inl ⟨r, session, rfl, hf, by simp [hf]⟩

theorem rootOf_nonempty {r : Path} (h : rootOf around target = some r) : r.isEmpty = false := by
  obtain ⟨p, -, hp⟩ := Option.bind_eq_some_iff.mp h
  exact (ProjectRoot.locate_root hp).2.1

/-- The host once it has told its surroundings that a process is being started. -/
def announced (host : Host) (id : SessionId) (session : Session) : Host :=
  (host.tell (.beginWorking connectingLabel)).tell (.launch id (host.specOf session))

/-- **A launch that nothing keeps back** asks the launcher once. What it answers decides whether the
session gets its process or the failure is reported. -/
theorem launch_eq {id : SessionId} {session : Session} (around : Surroundings)
    (hg : host.registry.get? id = some session) (href : refusal? host.registry id = none) :
    host.launch around id =
      match around.launch id (host.specOf session) with
      | .ok pid => (host.announced id session).adopt id pid
      | .error fault => (host.announced id session).failSession id fault.message := by
  unfold launch
  rw [href, hg]
  rfl

theorem refusal?_eq_none {id : SessionId} {session : Session}
    (hg : host.registry.get? id = some session)
    (hi : session.interpreter.executable.isEmpty = false) (hr : session.root.isEmpty = false) :
    refusal? host.registry id = none := by
  unfold refusal?
  simp [hg, hi, hr]

/-- **What a launch amounts to**: nothing if it is kept back. Otherwise it is announced, and hands
the process to its session or reports the failure. -/
theorem launch_outcome (host : Host) (around : Surroundings) (id : SessionId) :
    host.launch around id = host ∨ ∃ session, host.registry.get? id = some session ∧
      ((∃ pid, around.launch id (host.specOf session) = .ok pid ∧
          host.launch around id = (host.announced id session).adopt id pid) ∨
        ∃ fault, around.launch id (host.specOf session) = .error fault ∧
          host.launch around id = (host.announced id session).failSession id fault.message) := by
  cases href : refusal? host.registry id with
  | some fault =>
    left
    unfold launch
    rw [href]
  | none =>
    cases hg : host.registry.get? id with
    | none =>
      left
      unfold launch
      rw [href, hg]
    | some session =>
      refine .inr ⟨session, rfl, ?_⟩
      rw [launch_eq around hg href]
      cases around.launch id (host.specOf session) with
      | ok pid => exact .inl ⟨pid, rfl, rfl⟩
      | error fault => exact .inr ⟨fault, rfl, rfl⟩

/-- A launch hands the process to its session or reports the failure. -/
theorem launch_cases {id : SessionId} {session : Session} (around : Surroundings)
    (hg : host.registry.get? id = some session)
    (hi : session.interpreter.executable.isEmpty = false) (hr : session.root.isEmpty = false) :
    (∃ pid, host.launch around id = (host.announced id session).adopt id pid) ∨
      ∃ fault : SessionFault, host.launch around id =
        (host.announced id session).failSession id fault.message := by
  rw [launch_eq around hg (refusal?_eq_none hg hi hr)]
  cases around.launch id (host.specOf session) with
  | ok pid => exact .inl ⟨pid, rfl⟩
  | error fault => exact .inr ⟨fault, rfl⟩

end Host

end InlineRepl
