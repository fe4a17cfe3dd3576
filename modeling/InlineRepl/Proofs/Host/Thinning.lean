import InlineRepl.Proofs.Host.Orphans
import InlineRepl.Proofs.Session.Thinning

/-!
# Who comes in

A session comes in when an attempt registers it. In all else that it does a host lets sessions go,
or changes their handshakes and what is known of their bridges: its registry thins. No assumption is
made about the state that the host is in, nor about what its surroundings answer.

Results:
* `thins_failSession`, `thins_disconnect`, `thins_handleEvent`, `thins_shutdown`: each of them thins
  the registry.
* `act_thins_or_attempts`: a deed thins the registry, or does to it what an attempt does.
* `registry_launch_cases`: a launch thins the registry, or gives the launched session its process.
* `registry_tryConnect_cases`: an attempt leaves the sessions as they are, or registers one at a
  free root and launches it.
-/

namespace InlineRepl.Host

variable {host : Host} {around : Surroundings} {session : Session} {id : SessionId}

/-! ## What thins a registry -/

theorem thins_release (host : Host) (id : SessionId) :
    host.registry.Thins (host.release id).registry := by
  unfold release
  split
  · exact .still
  · rename_i hr
    exact .goes .still hr

theorem thins_forget (host : Host) (id : SessionId) :
    host.registry.Thins (host.forget id).registry := by
  unfold forget
  split
  · exact .still
  · rename_i hr
    exact .goes .still hr

theorem thins_failSession (host : Host) (id : SessionId) (report : String) :
    host.registry.Thins (host.failSession id report).registry :=
  thins_release (((host.tell .endWorking).tell (.popup (.connectFailed report))).closeLane id) id

theorem thins_disconnect (host : Host) (root : Path) :
    host.registry.Thins (host.disconnect root).2.registry := by
  unfold disconnect
  split
  · exact .still
  · rename_i session _
    exact thins_release (host.closeLane session.id) session.id

theorem thins_handshake (registry : Registry) (id : SessionId) (handshake : Handshake) :
    registry.Thins (registry.modify id fun s => { s with handshake }) :=
  .goesOn .still id _ (fun _ => rfl) (fun _ => rfl) fun _ => rfl

theorem thins_onExit (host : Host) (id : SessionId) (session : Session) :
    host.registry.Thins (host.onExit id session).registry := by
  rcases onExit_cases host id session with ⟨-, hx⟩ | ⟨-, handshake, hx⟩
  · rw [hx]
    exact thins_forget (host.closeLane id) id
  · rw [hx]
    let ended : Host :=
      { host with registry := host.registry.modify id fun s => { s with handshake } }
    have hended : host.registry.Thins ended.registry := thins_handshake _ id handshake
    exact hended.trans (thins_failSession ended id session.handshake.buffer)

theorem thins_handleEvent (host : Host) (event : SessionEvent) :
    host.registry.Thins (host.handleEvent event).registry := by
  refine handleEvent_keeps (fun after => host.registry.Thins after.registry) .still
    (fun _ _ => .goesOn .still _ _ (fun _ => rfl) (fun _ => rfl) fun _ => rfl) (fun _ h => h)
    (fun session _ _ _ => thins_onExit host _ session) fun inbound _ => ?_
  rw [registry_dispatch]
  exact .still

theorem thins_shutdown (host : Host) : host.registry.Thins host.shutdown.registry :=
  shutdown_keeps (fun after => host.registry.Thins after.registry)
    (fun after id h => h.trans (thins_release (after.closeLane id) id)) .still

/-- **A deed thins the registry**, or does to it what an attempt does. -/
theorem act_thins_or_attempts (host : Host) (deed : Deed) :
    host.registry.Thins (host.act deed).registry ∨
      ∃ calls around target, deed.around? = some around ∧
        (host.act deed).registry = ({ host with calls }.tryConnect around target).2.registry := by
  cases deed with
  | shutdown => exact .inl (thins_shutdown host)
  | take turn =>
    cases turn.effect host with
    | still _ hr =>
      have hact : (host.act (.take turn)).registry = host.registry := hr
      rw [hact]
      exact .inl .still
    | attempt _ calls around target answers _ hr => exact .inr ⟨calls, around, target, answers, hr⟩
    | disconnect _ root _ hr =>
      have hact : (host.act (.take turn)).registry = (host.disconnect root).2.registry := hr
      rw [hact]
      exact .inl (thins_disconnect host root)
    | event event => exact .inl (thins_handleEvent host event)

/-! ## Attempts -/

/-- **A launch** thins the registry, or gives the launched session its process. -/
theorem registry_launch_cases (host : Host) (around : Surroundings) (id : SessionId) :
    host.registry.Thins (host.launch around id).registry ∨
      ∃ session handle, host.registry.get? id = some session ∧
        (host.launch around id).registry = host.registry.modify id fun _ =>
          { session with process := some handle, handshake := session.handshake.spawned } := by
  rcases launch_outcome host around id with hl | ⟨session, -, ⟨pid, -, hl⟩ | ⟨fault, -, hl⟩⟩
  · rw [hl]
    exact .inl .still
  · rw [hl]
    rcases adopt_cases (host.announced id session) id pid with ⟨-, ha⟩ | ⟨session, hg, ha⟩
    · exact .inl (congrArg Host.registry ha ▸ .still)
    · exact .inr ⟨session, _, hg, congrArg Host.registry ha⟩
  · rw [hl]
    exact .inl (thins_failSession (host.announced id session) id fault.message)

/-- **An attempt leaves the sessions as they are**, or registers one at a free root and launches
it. -/
theorem registry_tryConnect_cases (host : Host) (around : Surroundings) (target : ConnectTarget) :
    (host.tryConnect around target).2.registry = host.registry ∨
      (host.tryConnect around target).2.registry = host.registry.nextId.2 ∨
      ∃ session, rootOf around target = some session.root ∧
        host.registry.findByRoot? session.root = none ∧ (host.tryConnect around target).2 =
          ((host.opened around).register session).launch around session.id := by
  rcases tryConnect_cases host around target with ⟨_, _, -, -, ht⟩ | ⟨hfree, ht⟩
  · rw [ht]
    exact .inl rfl
  rcases startSession_cases host around target (rootOf around target) with
    ⟨popup, hs⟩ | ⟨interpreter, bridge, root, -, hr, hs⟩
  · rw [ht, hs]
    exact .inr (.inl rfl)
  · rw [ht, hs]
    exact .inr (.inr ⟨host.newSession target interpreter bridge root, hr, hfree root hr, rfl⟩)

end InlineRepl.Host
