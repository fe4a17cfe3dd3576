import InlineRepl.Proofs.Host.Orphans

/-!
# What a host has been set up with

The settings, the port and what is known of the interpreter are the host's setup. A configuration
changes it, and an attempt may have the interpreter looked up; nothing else touches it.

Results:
* `setup_launch`, `setup_register`, `setup_handleEvent`, `setup_shutdown`: they leave it alone.
* `setup_tryConnect`: an attempt leaves it alone, or has the interpreter looked up.
* `setup_act`: so does every deed that configures nothing.
* `act_configures`, `setup_configure`: what a deed configures, and what comes of it.
-/

namespace InlineRepl.Host

variable {host : Host} {around : Surroundings} {session : Session} {id : SessionId} {deed : Deed}

/-- What a host has been set up with. -/
structure Setup where
  settings : Settings
  store : Option Path
  port : UInt16
  /-- What is known of the interpreter. -/
  probe : Probe

/-- The setup of a host. -/
def setup (host : Host) : Setup :=
  { settings := host.settings, store := host.store, port := host.port, probe := host.probe }

/-! ## What leaves it alone -/

@[simp] theorem setup_release : (host.release id).setup = host.setup := by
  unfold release
  split <;> rfl

@[simp] theorem setup_forget : (host.forget id).setup = host.setup := by
  unfold forget
  split <;> rfl

@[simp] theorem setup_failSession (report : String) :
    (host.failSession id report).setup = host.setup :=
  setup_release

@[simp] theorem setup_register : (host.register session).setup = host.setup := by
  rw [register_eq]
  split <;> rfl

@[simp] theorem setup_adopt (pid : Option Nat) : (host.adopt id pid).setup = host.setup := by
  rcases adopt_cases host id pid with ⟨-, ha⟩ | ⟨session, -, ha⟩ <;>
  · rw [ha]
    rfl

@[simp] theorem setup_launch : (host.launch around id).setup = host.setup := by
  rcases launch_outcome host around id with hl | ⟨session, -, ⟨pid, -, hl⟩ | ⟨fault, -, hl⟩⟩
  · rw [hl]
  · rw [hl]
    exact setup_adopt pid
  · rw [hl]
    exact setup_failSession fault.message

theorem setup_disconnect (root : Path) : (host.disconnect root).2.setup = host.setup := by
  unfold disconnect
  split
  · rfl
  · exact setup_release

theorem setup_dispatch (inbound : Inbound) : (host.dispatch inbound).setup = host.setup := by
  unfold dispatch
  dsimp only
  split <;> rfl

theorem setup_handleEvent (event : SessionEvent) :
    (host.handleEvent event).setup = host.setup := by
  refine handleEvent_keeps (fun after => after.setup = host.setup) rfl (fun _ _ => rfl)
    (fun _ h => h) (fun session _ _ _ => ?_) fun inbound _ => setup_dispatch inbound
  rcases onExit_cases host event.session session with ⟨-, hx⟩ | ⟨-, handshake, hx⟩
  · rw [hx]
    exact setup_forget
  · rw [hx]
    exact setup_failSession _

theorem setup_shutdown (host : Host) : host.shutdown.setup = host.setup :=
  shutdown_keeps (fun after => after.setup = host.setup)
    (fun _ _ h => setup_release.trans h) rfl

/-! ## Attempts -/

/-- The setup once the interpreter has been looked up. -/
def Setup.lookedUp (setup : Setup) (around : Surroundings) : Setup :=
  { setup with probe := (setup.probe.resolve around.lookup).2 }

/-- **An attempt** leaves the setup alone, or has the interpreter looked up. -/
theorem setup_tryConnect (host : Host) (around : Surroundings) (target : ConnectTarget) :
    (host.tryConnect around target).2.setup = host.setup ∨
      (host.tryConnect around target).2.setup = host.setup.lookedUp around := by
  rcases tryConnect_cases host around target with ⟨_, _, -, -, ht⟩ | ⟨-, ht⟩
  · rw [ht]
    exact .inl rfl
  rcases startSession_cases host around target (rootOf around target) with
    ⟨popup, hs⟩ | ⟨interpreter, bridge, root, -, -, hs⟩
  · rw [ht, hs]
    exact .inr rfl
  · rw [ht, hs, setup_launch, setup_register]
    exact .inr rfl

theorem setup_submit (host : Host) (around : Surroundings) (evaluation : Evaluation) :
    (host.submit around evaluation).2.setup = host.setup ∨
      (host.submit around evaluation).2.setup = host.setup.lookedUp around := by
  have hconnect := setup_tryConnect (host.tell (.beginWorking "")) around
    { origin := some evaluation.origin, path := evaluation.path }
  unfold submit
  dsimp only
  split
  · exact hconnect
  · split <;> exact hconnect

/-! ## Deeds -/

/-- The setting that a deed configures, and the value that it is given. -/
def Deed.configures? : Deed → Option (SettingKey × Option Path)
  | .take (.configure key value) => some (key, value)
  | .take (.command _ (.configure key value)) => some (key, value)
  | _ => none

theorem act_configures {key : SettingKey} {value : Option Path}
    (h : deed.configures? = some (key, value)) : host.act deed = host.configure key value := by
  unfold Deed.configures? at h
  split at h
  · obtain ⟨rfl, rfl⟩ := Prod.mk.inj (Option.some.inj h)
    rfl
  · obtain ⟨rfl, rfl⟩ := Prod.mk.inj (Option.some.inj h)
    rfl
  · exact absurd h nofun

/-- **A deed that configures nothing** leaves the setup alone, or has the interpreter looked up. -/
theorem setup_act (host : Host) (h : deed.configures? = none) :
    (host.act deed).setup = host.setup ∨
      ∃ around, deed.around? = some around ∧
        (host.act deed).setup = host.setup.lookedUp around := by
  cases deed with
  | shutdown => exact .inl (setup_shutdown host)
  | take turn =>
    cases turn with
    | tryConnect around target =>
      exact (setup_tryConnect host around target).imp_right fun hl => ⟨around, rfl, hl⟩
    | evaluate around doc scope =>
      exact (setup_submit host around _).imp_right fun hl => ⟨around, rfl, hl⟩
    | submit around evaluation =>
      exact (setup_submit host around evaluation).imp_right fun hl => ⟨around, rfl, hl⟩
    | disconnect root => exact .inl (setup_disconnect root)
    | configure key value => exact absurd h nofun
    | command around command =>
      cases command with
      | evaluate evaluation =>
        exact (setup_submit host around evaluation).imp_right fun hl => ⟨around, rfl, hl⟩
      | connect dir => exact (setup_tryConnect host around _).imp_right fun hl => ⟨around, rfl, hl⟩
      | disconnect root => exact .inl (setup_disconnect root)
      | choose choice =>
        cases choice with
        | openUrl url => exact .inl rfl
        | saveAndRetry doc =>
          exact (setup_tryConnect (host.tell (.save doc)) around _).imp_right
            fun hl => ⟨around, rfl, hl⟩
        | dismiss => exact .inl rfl
      | configure key value => exact absurd h nofun
    | event event => exact .inl (setup_handleEvent event)
    | greet hello =>
      simp only [act, take]
      split <;> exact .inl rfl
    | transmit lane =>
      simp only [act, take]
      split <;> exact .inl rfl
    | hangUp lane => exact .inl rfl

/-- **A configuration** sets the setting; that of the interpreter goes to the probe as well. -/
theorem setup_configure (host : Host) (key : SettingKey) (value : Option Path) :
    (host.configure key value).setup =
      { host.setup with
        settings := host.settings.set key value
        probe := if key = .interpreter then host.probe.setOverride (Probe.chosen? value)
          else host.probe } := by
  unfold configure
  cases key <;>
  · dsimp only
    split <;> rfl

end InlineRepl.Host
