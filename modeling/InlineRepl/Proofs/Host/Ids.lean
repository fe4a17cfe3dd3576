import InlineRepl.Proofs.Host.Attempt

/-!
# Ids that a host hands out

A host hands out an id at the start of a session and nowhere else, so the last id handed out moves
by one at most in a turn, and only in one that tries to connect.

Results:
* `lastId_tryConnect`: an attempt takes the next id, or none where it reuses a session.
* `lastId_take`: so does a turn, and one that does not connect takes none.
* `lastId_run_le`: a run hands out no more ids than it makes attempts.
-/

namespace InlineRepl

namespace Registry

variable {registry : Registry} {id : SessionId} {session : Session}

theorem lastId_of_remove {after : Registry} (h : registry.remove id = some (session, after)) :
    after.lastId = registry.lastId := by
  unfold remove at h
  split at h
  · exact absurd h (by simp)
  · simp only [Option.some.injEq, Prod.mk.injEq] at h
    obtain ⟨-, rfl⟩ := h
    rfl

theorem lastId_insert : (registry.insert session).registry.lastId = registry.lastId := by
  unfold insert
  dsimp only
  split <;> rfl

end Registry

namespace Host

variable {host : Host} {around : Surroundings} {id : SessionId}

@[simp] theorem registry_tell (call : Call) : (host.tell call).registry = host.registry := rfl

@[simp] theorem registry_closeLane : (host.closeLane id).registry = host.registry := rfl

@[simp] theorem lastId_release : (host.release id).registry.lastId = host.registry.lastId := by
  unfold release
  split
  · rfl
  · rename_i h
    exact Registry.lastId_of_remove h

@[simp] theorem lastId_forget : (host.forget id).registry.lastId = host.registry.lastId := by
  unfold forget
  split
  · rfl
  · rename_i h
    exact Registry.lastId_of_remove h

@[simp] theorem lastId_failSession (report : String) :
    (host.failSession id report).registry.lastId = host.registry.lastId :=
  lastId_release

@[simp] theorem lastId_register (session : Session) :
    (host.register session).registry.lastId = host.registry.lastId := by
  unfold register
  dsimp only
  split <;> exact Registry.lastId_insert

@[simp] theorem lastId_adopt (pid : Option Nat) :
    (host.adopt id pid).registry.lastId = host.registry.lastId := by
  unfold adopt
  dsimp only
  split <;> rfl

@[simp] theorem lastId_launch :
    (host.launch around id).registry.lastId = host.registry.lastId := by
  rcases launch_outcome host around id with hl | ⟨session, -, ⟨pid, -, hl⟩ | ⟨fault, -, hl⟩⟩
  · rw [hl]
  · rw [hl]
    exact lastId_adopt pid
  · rw [hl]
    exact lastId_failSession fault.message

theorem lastId_startSession (target : ConnectTarget) (root : Option Path) :
    (host.startSession around target root).2.registry.lastId = host.registry.lastId + 1 := by
  rcases startSession_cases host around target root with ⟨popup, h⟩ | ⟨_, _, _, -, -, h⟩
  · rw [h]
    rfl
  · rw [h, lastId_launch, lastId_register]
    rfl

/-- **An attempt takes the next id**, or none where it reuses a session. -/
theorem lastId_tryConnect (host : Host) (around : Surroundings) (target : ConnectTarget) :
    (host.tryConnect around target).2.registry.lastId = host.registry.lastId ∨
      (host.tryConnect around target).2.registry.lastId = host.registry.lastId + 1 := by
  rcases tryConnect_cases host around target with ⟨_, _, -, -, h⟩ | ⟨-, h⟩
  · rw [h]
    exact .inl rfl
  · rw [h]
    exact .inr (lastId_startSession _ _)

theorem lastId_handleEvent (event : SessionEvent) :
    (host.handleEvent event).registry.lastId = host.registry.lastId := by
  refine handleEvent_keeps (fun after => after.registry.lastId = host.registry.lastId) rfl
    (fun _ _ => rfl) (fun _ h => h) (fun session _ _ _ => ?_) fun inbound _ => ?_
  · rcases onExit_cases host event.session session with ⟨-, hx⟩ | ⟨-, handshake, hx⟩
    · rw [hx]
      exact lastId_forget
    · rw [hx]
      exact lastId_failSession _
  · unfold dispatch
    dsimp only
    split <;> rfl

theorem lastId_disconnect (root : Path) :
    (host.disconnect root).2.registry.lastId = host.registry.lastId := by
  unfold disconnect
  split
  · rfl
  · exact lastId_release

/-- **A turn takes the next id or none**, and none where it does not try to connect. -/
theorem lastId_take (host : Host) (turn : Turn) :
    (host.take turn).registry.lastId = host.registry.lastId ∨
      (turn.connects = true ∧ (host.take turn).registry.lastId = host.registry.lastId + 1) := by
  cases turn.effect host with
  | still _ hr => exact .inl (congrArg Registry.lastId hr)
  | attempt _ calls around target _ hc hr =>
    rw [hr]
    exact (lastId_tryConnect { host with calls } around target).imp_right fun h => ⟨hc, h⟩
  | disconnect _ root _ hr =>
    rw [hr]
    exact .inl (lastId_disconnect root)
  | event event => exact .inl (lastId_handleEvent event)

theorem lastId_take_le (host : Host) (turn : Turn) :
    (host.take turn).registry.lastId.toNat ≤
      host.registry.lastId.toNat + if turn.connects then 1 else 0 := by
  rcases lastId_take host turn with h | ⟨hc, h⟩
  · rw [h]
    omega
  · rw [h, hc, UInt64.toNat_add]
    have : (1 : UInt64).toNat = 1 := rfl
    simp only [if_true]
    omega

/-- **A run hands out no more ids than it makes attempts.** -/
theorem lastId_run_le : ∀ (turns : List Turn) (host : Host),
    (host.run turns).registry.lastId.toNat ≤ host.registry.lastId.toNat + attempts turns
  | [], host => Nat.le_refl _
  | turn :: turns, host => by
    have h1 := lastId_take_le host turn
    have h2 := lastId_run_le turns (host.take turn)
    rw [run_cons, attempts_cons]
    omega

end Host

end InlineRepl
