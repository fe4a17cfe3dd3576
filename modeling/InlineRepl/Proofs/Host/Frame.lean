import InlineRepl.Proofs.Host.Agreement

/-!
# What a turn leaves of a session

A session keeps its root and its handshake over everything but the output and the exit of its own
process and the disconnection of its root. Nothing but a connection attempt brings a session in, and
the one it brings in has heard nothing yet.

Results:
* `mem_release`, `mem_forget`, `mem_failSession`, `mem_launch`: who stays registered.
* `Coherent.mem_tryConnect`, `Coherent.mem_tryConnect_cases`: who is registered after an attempt.
* `Coherent.mem_disconnect`, `mem_handleEvent_other`: who stays after a disconnection and an event.
* `Coherent.hears_event`: an event does to a handshake what the session's process has said.
-/

namespace InlineRepl

/-- Takes what a process has said. -/
def Handshake.hear (h : Handshake) : Happening → Handshake
  | .stdout text => (h.onStdout text).2
  | .stderr text => h.onStderr text
  | _ => h

namespace Host

variable {host : Host} {around : Surroundings} {session s t : Session} {id : SessionId}

/-! ## Who is registered -/

theorem mem_without : s ∈ host.registry.without id ↔ s ∈ host.registry.sessions ∧ s.id ≠ id :=
  Registry.mem_drop

theorem mem_of_get?_none (hg : host.registry.get? id = none) :
    s ∈ host.registry.sessions ↔ s ∈ host.registry.sessions ∧ s.id ≠ id := by
  refine ⟨fun hm => ⟨hm, fun he => ?_⟩, And.left⟩
  have := List.find?_eq_none.mp hg s hm
  simp [he] at this

theorem mem_release :
    s ∈ (host.release id).registry.sessions ↔ s ∈ host.registry.sessions ∧ s.id ≠ id := by
  unfold release Registry.remove
  cases hg : host.registry.get? id with
  | none => exact mem_of_get?_none hg
  | some session => exact mem_without

theorem mem_forget :
    s ∈ (host.forget id).registry.sessions ↔ s ∈ host.registry.sessions ∧ s.id ≠ id := by
  unfold forget Registry.remove
  cases hg : host.registry.get? id with
  | none => exact mem_of_get?_none hg
  | some session => exact mem_without

theorem mem_failSession {report : String} :
    s ∈ (host.failSession id report).registry.sessions ↔
      s ∈ host.registry.sessions ∧ s.id ≠ id :=
  mem_release

theorem mem_adopt_of_ne {pid : Option Nat} (hm : s ∈ host.registry.sessions) (hne : s.id ≠ id) :
    s ∈ (host.adopt id pid).registry.sessions := by
  unfold adopt
  dsimp only
  split
  · exact hm
  · exact Registry.mem_modify.mpr ⟨s, hm, (if_neg hne).symm⟩

/-- A launch leaves the other sessions where they are. -/
theorem mem_launch (hm : s ∈ host.registry.sessions) (hne : s.id ≠ id) :
    s ∈ (host.launch around id).registry.sessions := by
  rcases launch_outcome host around id with hl | ⟨session, -, ⟨pid, -, hl⟩ | ⟨fault, -, hl⟩⟩
  · rw [hl]
    exact hm
  · rw [hl]
    exact mem_adopt_of_ne hm hne
  · rw [hl]
    exact mem_failSession.mpr ⟨hm, hne⟩

/-- A launch of a session that waits brings in nobody but this session, its handshake begun. -/
theorem Coherent.mem_launch_cases (h : host.Coherent (some session.id))
    (hm : session ∈ host.registry.sessions) (hi : session.interpreter.executable.isEmpty = false)
    (hr : session.root.isEmpty = false)
    (ht : t ∈ (host.launch around session.id).registry.sessions) :
    (t ∈ host.registry.sessions ∧ t.id ≠ session.id) ∨
      t.handshake = session.handshake.spawned := by
  have hg : host.registry.get? session.id = some session :=
    h.indexed.get?_eq_some_iff.mpr ⟨hm, rfl⟩
  rcases launch_cases around hg hi hr with ⟨pid, hl⟩ | ⟨fault, hl⟩
  · rw [hl] at ht
    unfold Host.adopt at ht
    dsimp only at ht
    rw [show (host.announced session.id session).registry = host.registry from rfl, hg] at ht
    obtain ⟨s, hs, rfl⟩ := Registry.mem_modify.mp ht
    split
    · exact .inr rfl
    · exact .inl ⟨hs, ‹_›⟩
  · rw [hl] at ht
    have hold := mem_failSession.mp ht
    exact .inl hold

/-! ## Connecting -/

theorem Coherent.mem_tryConnect (h : host.Coherent none)
    (room : host.registry.lastId.toNat + 1 < 2 ^ 64) (target : ConnectTarget)
    (hm : s ∈ host.registry.sessions) :
    s ∈ (host.tryConnect around target).2.registry.sessions := by
  rcases tryConnect_cases host around target with ⟨_, _, -, -, ht⟩ | ⟨hfree, ht⟩
  · rw [ht]
    exact hm
  rcases startSession_cases host around target (rootOf around target) with
    ⟨popup, hs⟩ | ⟨interpreter, bridge, r, -, hr, hs⟩
  · rw [ht, hs]
    exact hm
  · rw [ht, hs]
    refine mem_launch ?_ (h.indexed.nextId_fresh room s hm)
    rw [register_opened h room (hfree r hr)]
    exact List.mem_cons_of_mem _ hm

/-- **An attempt brings in one session at most**, and its handshake has just begun. -/
theorem Coherent.mem_tryConnect_cases (h : host.Coherent none) (found : around.NamesWhatItFinds)
    (room : host.registry.lastId.toNat + 1 < 2 ^ 64) {target : ConnectTarget}
    (ht : t ∈ (host.tryConnect around target).2.registry.sessions) :
    t ∈ host.registry.sessions ∨ t.handshake = { stage := .connecting } := by
  rcases tryConnect_cases host around target with ⟨_, _, -, -, hc⟩ | ⟨hfree, hc⟩
  · rw [hc] at ht
    exact .inl ht
  rcases startSession_cases host around target (rootOf around target) with
    ⟨popup, hs⟩ | ⟨interpreter, bridge, r, hi, hr, hs⟩
  · rw [hc, hs] at ht
    exact .inl ht
  · rw [hc, hs] at ht
    let session := host.newSession target interpreter bridge r
    have hwait : ((host.opened around).register session).Coherent (some session.id) :=
      h.enrol room (Probe.resolve_remembers h.probe found) (hfree r hr)
    have hadd : (host.opened around).register session =
        { host.opened around with registry := host.registry.nextId.2.add session } :=
      register_opened h room (hfree r hr)
    have hm : session ∈ ((host.opened around).register session).registry.sessions := by
      rw [hadd]
      exact List.mem_cons_self
    rcases hwait.mem_launch_cases hm (Probe.resolve_nonempty h.probe found hi)
      (rootOf_nonempty hr) ht with ⟨hold, hne⟩ | hnew
    · rw [hadd] at hold
      rcases List.mem_cons.mp hold with rfl | hold
      · exact absurd rfl hne
      · exact .inl hold
    · exact .inr hnew

/-! ## Disconnecting -/

/-- Disconnecting a root leaves the sessions of the others. -/
theorem Coherent.mem_disconnect (h : host.Coherent none) {root : Path}
    (hm : s ∈ host.registry.sessions) (hr : s.root.same root = false) :
    s ∈ (host.disconnect root).2.registry.sessions := by
  unfold Host.disconnect
  split
  · exact hm
  · rename_i found hf
    refine mem_release.mpr ⟨hm, fun he => ?_⟩
    obtain ⟨hfm, hfr⟩ := h.indexed.findByRoot?_eq_some_iff.mp hf
    obtain rfl := h.indexed.eq_of_id hm hfm he
    rw [hr] at hfr
    exact absurd hfr (by simp)

theorem mem_of_mem_disconnect {root : Path}
    (ht : t ∈ (host.disconnect root).2.registry.sessions) : t ∈ host.registry.sessions := by
  unfold disconnect at ht
  split at ht
  · exact ht
  · have hold := mem_release.mp ht
    exact hold.1

/-! ## Events -/

theorem registry_dispatch (inbound : Inbound) :
    (host.dispatch inbound).registry = host.registry := by
  unfold dispatch
  dsimp only
  split <;> rfl

theorem mem_modify_other {change : Session → Session} (hm : s ∈ host.registry.sessions)
    (hne : s.id ≠ id) : s ∈ (host.registry.modify id change).sessions :=
  Registry.mem_modify.mpr ⟨s, hm, (if_neg hne).symm⟩

theorem mem_modify_self {change : Session → Session} (hm : s ∈ host.registry.sessions) :
    change s ∈ (host.registry.modify s.id change).sessions :=
  Registry.mem_modify.mpr ⟨s, hm, (if_pos rfl).symm⟩

/-- An event of an id that nobody has changes nothing. -/
theorem handleEvent_unregistered {event : SessionEvent}
    (hg : host.registry.get? event.session = none) :
    host.handleEvent event = host := by
  unfold handleEvent
  rw [hg]

theorem handleEvent_registered (hg : host.registry.get? id = some session)
    (happening : Happening) :
    host.handleEvent { session := id, happening } = host.onHappening id session happening := by
  unfold handleEvent
  rw [hg]

/-- An event leaves the sessions that it is not about where they are. -/
theorem mem_handleEvent_other {event : SessionEvent} (hm : s ∈ host.registry.sessions)
    (hne : s.id ≠ event.session) : s ∈ (host.handleEvent event).registry.sessions := by
  refine handleEvent_keeps (fun after => s ∈ after.registry.sessions) hm
    (fun _ _ => mem_modify_other hm hne) (fun _ h => h) (fun session _ _ _ => ?_)
    fun inbound _ => ?_
  · rcases onExit_cases host event.session session with ⟨-, hx⟩ | ⟨-, handshake, hx⟩
    · rw [hx]
      exact mem_forget.mpr ⟨hm, hne⟩
    · rw [hx]
      exact mem_failSession.mpr ⟨mem_modify_other hm hne, hne⟩
  · rw [registry_dispatch]
    exact hm

/-- **An event of a session** that is no exit leaves it registered, and does to its handshake what
its process has said. -/
theorem Coherent.hears_event (h : host.Coherent none) (hm : s ∈ host.registry.sessions)
    {happening : Happening} (hx : ∀ code, happening ≠ .exit code) :
    ∃ t ∈ (host.handleEvent { session := s.id, happening }).registry.sessions,
      t.id = s.id ∧ t.root = s.root ∧ t.handshake = s.handshake.hear happening := by
  have hg : host.registry.get? s.id = some s := h.indexed.get?_eq_some_iff.mpr ⟨hm, rfl⟩
  unfold Host.handleEvent
  rw [hg]
  cases happening with
  | stdout text =>
    refine ⟨{ s with handshake := (s.handshake.onStdout text).2 }, ?_, rfl, rfl, rfl⟩
    unfold onHappening
    dsimp only
    split <;> exact mem_modify_self hm
  | stderr text => exact ⟨_, mem_modify_self hm, rfl, rfl, rfl⟩
  | exit code => exact absurd rfl (hx code)
  | attached => exact ⟨_, mem_modify_self hm, rfl, rfl, rfl⟩
  | detached => exact ⟨_, mem_modify_self hm, rfl, rfl, rfl⟩
  | inbound record =>
    refine ⟨s, ?_, rfl, rfl, rfl⟩
    unfold onHappening
    rw [registry_dispatch]
    exact hm

/-- An event brings nobody in. -/
theorem id_of_mem_handleEvent {event : SessionEvent}
    (ht : t ∈ (host.handleEvent event).registry.sessions) :
    ∃ s ∈ host.registry.sessions, s.id = t.id := by
  have hmodify : ∀ {id : SessionId} {change : Session → Session},
      t ∈ (host.registry.modify id change).sessions → (∀ s, (change s).id = s.id) →
      ∃ s ∈ host.registry.sessions, s.id = t.id := by
    intro id change ht hid
    obtain ⟨s, hs, rfl⟩ := Registry.mem_modify.mp ht
    refine ⟨s, hs, ?_⟩
    split
    · exact (hid s).symm
    · rfl
  refine handleEvent_keeps
    (fun after => t ∈ after.registry.sessions → ∃ s ∈ host.registry.sessions, s.id = t.id)
    (fun ht => ⟨t, ht, rfl⟩) (fun _ _ ht => hmodify ht fun _ => rfl) (fun _ h => h)
    (fun session _ _ _ ht => ?_) (fun inbound _ ht => ?_) ht
  · rcases onExit_cases host event.session session with ⟨-, hx⟩ | ⟨-, handshake, hx⟩
    · rw [hx] at ht
      exact ⟨t, (mem_forget.mp ht).1, rfl⟩
    · rw [hx] at ht
      exact hmodify (mem_failSession.mp ht).1 fun _ => rfl
  · rw [registry_dispatch] at ht
    exact ⟨t, ht, rfl⟩

end Host

end InlineRepl
