import InlineRepl.Proofs.Host.Setup
import InlineRepl.Proofs.Host.Thinning
import InlineRepl.Proofs.Text.Decoded

/-!
# The interpreter that was configured last

A host asks its probe for an interpreter whenever a session is started, and tells the probe whenever
another interpreter is configured. What the probe does in a life of the host is therefore a history
of its own, and what it answers is read off that history: as long as an interpreter is configured,
it is the one that is launched.

Arguments are texts, so the bytes of an interpreter's path arrive as they are only where they are
UTF-8. Any other path is launched with U+FFFD in the place of some of its bytes.

Results:
* `tells_launch`, `tells_tryConnect`, `tells_act`: which launches a host asks for.
* `probe_act`, `probe_live`: the history of a host's probe, and what has been configured in it.
* `bytesOf_escapeForPlatform_iff`: which paths become arguments unchanged.
* `interpreter_is_never_stale`: what a probe answers after any history, and what a host launches in
  any life.
-/

namespace InlineRepl

namespace Host

variable {host after last : Host} {around : Surroundings} {target : ConnectTarget} {id : SessionId}
  {deed : Deed} {allowed : SessionId → LaunchSpec → Prop}

/-! ## Which launches are asked for -/

/-- **A host asks for nothing but allowed launches** on its way from one state to another. -/
def Tells (allowed : SessionId → LaunchSpec → Prop) (host after : Host) : Prop :=
  ∃ more, after.calls = host.calls ++ more ∧ ∀ id spec, .launch id spec ∈ more → allowed id spec

theorem Tells.trans (h : Tells allowed host after) (hl : Tells allowed after last) :
    Tells allowed host last := by
  obtain ⟨more, hcalls, hmore⟩ := h
  obtain ⟨rest, hlast, hrest⟩ := hl
  refine ⟨more ++ rest, by rw [hlast, hcalls, List.append_assoc], fun id spec hm => ?_⟩
  exact (List.mem_append.mp hm).elim (hmore id spec) (hrest id spec)

theorem Tells.mono {wider : SessionId → LaunchSpec → Prop} (h : Tells allowed host after)
    (le : ∀ id spec, allowed id spec → wider id spec) : Tells wider host after := by
  obtain ⟨more, hcalls, hmore⟩ := h
  exact ⟨more, hcalls, fun id spec hm => le id spec (hmore id spec hm)⟩

theorem tells_of_calls (h : after.calls = host.calls) : Tells allowed host after :=
  ⟨[], h.trans (List.append_nil _).symm, fun _ _ hm => absurd hm List.not_mem_nil⟩

/-- **What is done without the surroundings** asks for no launch: were it to ask for one, a launcher
that always gives a process would have had it entered in the ledger, and one that never gives any
would not. -/
theorem tells_of_moves (h : ∀ around, Moves around host after) : Tells allowed host after := by
  let willing : Surroundings := { Surroundings.barren with launch := fun _ _ => .ok none }
  obtain ⟨more, hcalls, hnone⟩ := (h .barren).books
  obtain ⟨more', hcalls', hall⟩ := (h willing).books
  obtain rfl := List.append_cancel_left (hcalls.symm.trans hcalls')
  have hbarren : more.filterMap Surroundings.barren.started = [] :=
    List.filterMap_eq_nil_iff.mpr fun call _ => by cases call <;> rfl
  rw [hnone, hbarren] at hall
  have hwilling := List.append_cancel_left hall
  refine ⟨more, hcalls, fun id spec hm => ?_⟩
  have hquiet := List.filterMap_eq_nil_iff.mp hwilling.symm _ hm
  exact absurd hquiet nofun

/-- The launch of the process that serves the session of an id. -/
def Serves (host : Host) (id asked : SessionId) (spec : LaunchSpec) : Prop :=
  asked = id ∧ ∃ session, host.registry.get? id = some session ∧ spec = host.specOf session

/-- **A launch** asks for the process that serves its session. -/
theorem tells_launch (host : Host) (around : Surroundings) (id : SessionId) :
    Tells (host.Serves id) host (host.launch around id) := by
  have htold : ∀ session, host.registry.get? id = some session →
      Tells (host.Serves id) host (host.announced id session) := by
    intro session hg
    refine ⟨[.beginWorking connectingLabel, .launch id (host.specOf session)],
      List.append_assoc _ _ _, fun asked spec hm => ?_⟩
    obtain ⟨rfl, rfl⟩ : asked = id ∧ spec = host.specOf session := by simpa using hm
    exact ⟨rfl, session, hg, rfl⟩
  rcases launch_outcome host around id with hl | ⟨session, hg, ⟨pid, -, hl⟩ | ⟨fault, -, hl⟩⟩
  · rw [hl]
    exact tells_of_calls rfl
  · rw [hl]
    exact (htold session hg).trans (tells_of_calls (calls_adopt _ id pid))
  · rw [hl]
    exact (htold session hg).trans (tells_of_moves fun _ => moves_failSession _ _ _)

/-- What an attempt may ask for: a launch of the interpreter that the probe has answered. -/
def Asks (host : Host) (around : Surroundings) (id : SessionId) (spec : LaunchSpec) : Prop :=
  ∃ interpreter script root, (host.probe.resolve around.lookup).1 = some interpreter ∧
    spec = .bridge interpreter.command script host.port id interpreter.executable.bytes root

/-- **An attempt** asks for a launch of the interpreter that the probe has answered. -/
theorem tells_tryConnect (host : Host) (around : Surroundings) (target : ConnectTarget) :
    Tells (host.Asks around) host (host.tryConnect around target).2 := by
  rcases tryConnect_cases host around target with ⟨_, _, -, -, ht⟩ | ⟨-, ht⟩
  · rw [ht]
    exact tells_of_calls rfl
  rcases startSession_cases host around target (rootOf around target) with
    ⟨popup, hs⟩ | ⟨interpreter, bridge, root, hi, -, hs⟩
  · rw [ht, hs]
    have habort : Tells (host.Asks around) (host.opened around)
        ((host.opened around).abortConnect host.registry.nextId.1 popup) :=
      tells_of_moves fun _ => moves_abortConnect _ _ popup
    exact habort
  · rw [ht, hs]
    let session := host.newSession target interpreter bridge root
    let registered := (host.opened around).register session
    have hregister : Tells (host.Asks around) host registered := by
      refine tells_of_calls ?_
      show ((host.opened around).register session).calls = _
      rw [register_eq]
      split <;> rfl
    have hport : registered.port = host.port := by
      have hsetup : registered.setup = (host.opened around).setup := setup_register
      exact congrArg Setup.port hsetup
    have hg : registered.registry.get? session.id = some session := by
      show ((host.opened around).register session).registry.get? _ = _
      rw [registry_register]
      exact Registry.get?_insert_self
    refine hregister.trans ((tells_launch registered around session.id).mono ?_)
    rintro asked spec ⟨rfl, found, hfound, rfl⟩
    obtain rfl := Option.some.inj (hg.symm.trans hfound)
    refine ⟨interpreter, bridge.bytes, root, hi, ?_⟩
    unfold specOf
    rw [hport]
    rfl

theorem tells_submit (host : Host) (around : Surroundings) (evaluation : Evaluation) :
    Tells (host.Asks around) host (host.submit around evaluation).2 := by
  have hbegin : Tells (host.Asks around) host (host.tell (.beginWorking "")) :=
    tells_of_moves fun _ => moves_tell rfl host
  have hconnect := hbegin.trans (tells_tryConnect (host.tell (.beginWorking "")) around
    { origin := some evaluation.origin, path := evaluation.path })
  unfold submit
  dsimp only
  split
  · exact hconnect.trans (tells_of_calls rfl)
  · split
    · exact hconnect.trans (tells_of_moves fun _ => moves_tell rfl _)
    · exact hconnect

/-- **A deed** asks for a launch of the interpreter that the probe has answered, or for none. -/
theorem tells_act (host : Host) (deed : Deed) :
    Tells (fun id spec => ∃ around, deed.around? = some around ∧ host.Asks around id spec) host
      (host.act deed) := by
  have hasks : ∀ {around after}, deed.around? = some around →
      Tells (host.Asks around) host after →
      Tells (fun id spec => ∃ around, deed.around? = some around ∧ host.Asks around id spec) host
        after :=
    fun ha h => h.mono fun _ _ hasked => ⟨_, ha, hasked⟩
  cases deed with
  | shutdown => exact tells_of_moves fun _ => moves_shutdown host
  | take turn =>
    cases turn with
    | tryConnect around target => exact hasks rfl (tells_tryConnect host around target)
    | evaluate around doc scope => exact hasks rfl (tells_submit host around _)
    | submit around evaluation => exact hasks rfl (tells_submit host around evaluation)
    | disconnect root => exact tells_of_moves fun _ => moves_disconnect host root
    | configure key value => exact tells_of_moves fun _ => moves_configure host key value
    | command around command =>
      cases command with
      | evaluate evaluation => exact hasks rfl (tells_submit host around evaluation)
      | connect dir => exact hasks rfl (tells_tryConnect host around _)
      | disconnect root => exact tells_of_moves fun _ => moves_disconnect host root
      | choose choice =>
        cases choice with
        | openUrl url => exact tells_of_moves fun _ => moves_tell rfl host
        | saveAndRetry doc =>
          have hsave : Tells (host.Asks around) host (host.tell (.save doc)) :=
            tells_of_moves fun _ => moves_tell rfl host
          exact hasks rfl (hsave.trans (tells_tryConnect (host.tell (.save doc)) around _))
        | dismiss => exact tells_of_calls rfl
      | configure key value => exact tells_of_moves fun _ => moves_configure host key value
    | event event => exact tells_of_moves fun _ => moves_handleEvent host event
    | greet hello =>
      simp only [act, take]
      split <;> exact tells_of_calls rfl
    | transmit lane =>
      simp only [act, take]
      split <;> exact tells_of_calls rfl
    | hangUp lane => exact tells_of_calls rfl

/-! ## The history of a host's probe -/

/-- The interpreter that a deed configures. -/
def Deed.interpreter? (deed : Deed) : Option (Option Path) :=
  deed.configures?.bind fun configured =>
    if configured.1 = .interpreter then some configured.2 else none

/-- The interpreter configured last in a life, that of the settings where none has been. -/
def configured (settings : Settings) (deeds : List Deed) : Option Path :=
  (deeds.filterMap Deed.interpreter?).getLast?.getD settings.interpreter

theorem chosen?_chosen? (path : Option Path) :
    Probe.chosen? (Probe.chosen? path) = Probe.chosen? path := by
  unfold Probe.chosen?
  rw [Option.filter_filter]
  simp

/-- **What a deed does with the probe**: it configures the interpreter, has it resolved, or leaves
the probe alone. -/
theorem probe_act (host : Host) (deed : Deed) :
    ∃ ops : List Probe.Op, (host.act deed).probe = host.probe.after ops ∧
      ∀ initial before, Probe.chosen? (Probe.lastOverride initial (before ++ ops)) =
        Probe.chosen? (deed.interpreter?.getD (Probe.lastOverride initial before)) := by
  cases hc : deed.configures? with
  | some configured =>
    obtain ⟨key, value⟩ := configured
    have hset : (host.act deed).probe =
        if key = .interpreter then host.probe.setOverride (Probe.chosen? value)
        else host.probe := by
      rw [act_configures hc]
      exact congrArg Setup.probe (setup_configure host key value)
    rw [hset]
    unfold Deed.interpreter?
    rw [hc]
    by_cases hk : key = .interpreter
    · refine ⟨[.setOverride (Probe.chosen? value)], if_pos hk, fun initial before => ?_⟩
      rw [Probe.lastOverride_concat]
      simp only [Option.bind_some, hk, if_true]
      exact chosen?_chosen? value
    · refine ⟨[], if_neg hk, fun initial before => ?_⟩
      simp only [Option.bind_some, if_neg hk, List.append_nil]
      rfl
  | none =>
    unfold Deed.interpreter?
    rw [hc]
    rcases setup_act host hc with hs | ⟨around, -, hs⟩
    · refine ⟨[], congrArg Setup.probe hs, fun initial before => ?_⟩
      rw [List.append_nil]
      rfl
    · refine ⟨[.resolve around.lookup], congrArg Setup.probe hs, fun initial before => ?_⟩
      rw [Probe.lastOverride_concat]
      rfl

/-- **In every life the probe has a history**, and what was configured last in it is what the host
was configured with last. -/
theorem probe_live (settings : Settings) (store : Option Path) (searchPath : Option String)
    (port : UInt16) (deeds : List Deed) :
    ∃ ops : List Probe.Op, ((start settings store searchPath port).live deeds).probe =
        Probe.after { override := settings.interpreter, searchPath } ops ∧
      Probe.chosen? (Probe.lastOverride settings.interpreter ops) =
        Probe.chosen? (configured settings deeds) := by
  induction deeds using List.reverseRecOn with
  | nil => exact ⟨[], rfl, rfl⟩
  | append_singleton deeds deed ih =>
    obtain ⟨ops, hprobe, hlast⟩ := ih
    obtain ⟨more, hact, hmore⟩ :=
      probe_act ((start settings store searchPath port).live deeds) deed
    refine ⟨ops ++ more, ?_, ?_⟩
    · have hlive : (start settings store searchPath port).live (deeds ++ [deed]) =
          ((start settings store searchPath port).live deeds).act deed :=
        List.foldl_concat act _ deed deeds
      rw [hlive, hact, hprobe]
      exact List.foldl_append.symm
    · rw [hmore]
      unfold configured
      rw [Probe.getLast?_filterMap_concat]
      cases deed.interpreter? with
      | some value => rfl
      | none => exact hlast

/-! ## What is launched -/

theorem chosen?_of_nonempty {path : Option Path} {p : Path} (h : path = some p)
    (hp : p.isEmpty = false) : Probe.chosen? path = some p := by
  rw [h]
  exact Option.filter_some_pos (by simpa using hp)

/-- **A path becomes an argument unchanged** exactly where its bytes are UTF-8. -/
theorem bytesOf_escapeForPlatform_iff (path : List UInt8) :
    Text.bytesOf (escapeForPlatform path) = path ↔ (Text.Utf8.decode? path).isSome = true := by
  have hsep : pathSeparator ≠ '\\' := by decide
  unfold escapeForPlatform escapePath
  rw [if_neg hsep, Option.isSome_iff_exists]
  constructor
  · exact fun h => ⟨_, Text.Utf8.decode?_eq_some_iff.mpr h.symm⟩
  · rintro ⟨text, h⟩
    rw [Text.Utf8.decode?_eq_some_iff.mp h, Text.Utf8.decodeLossy_bytesOf]

theorem escapeForPlatform_bytes (p : Path) : escapeForPlatform p.bytes = p.text :=
  Text.bytesOf_injective ((bytesOf_escapeForPlatform_iff p.bytes).mpr (by
    rw [Path.bytes, Text.Utf8.decode?_bytesOf]
    rfl))

/-- **The interpreter is never stale.** After any history of configurations and resolutions, a
resolution answers the interpreter configured last as it is, unless it is the empty path, and makes
no lookup; without one it answers what the first resolution since the last configuration has found
that has found anything, and makes no lookup either; and where there was none, it makes its lookup,
on the search path configured last, and answers what that finds. So in every life of a host,
whatever is configured and connected to in it, each launch passes the interpreter configured last to
the bridge, unless it is the empty path. The argument has the bytes of the path, where these are
UTF-8; every other path is passed altered. -/
theorem interpreter_is_never_stale (settings : Settings) (store : Option Path)
    (searchPath : Option String) (port : UInt16) (deeds : List Deed) (deed : Deed) :
    (∀ (m : Type → Type) [Monad m] [LawfulMonad m] (override : Option Path)
        (searchPath : Option String) (ops : List Probe.Op)
        (lookup : Option String → m (Option Path)),
      let probe := Probe.after { override, searchPath } ops
      (∀ p, Probe.lastOverride override ops = some p → p.isEmpty = false →
        Prod.fst <$> probe.resolveBy lookup =
          pure (some { command := interpreterCommand, executable := p })) ∧
      ((∀ p, Probe.lastOverride override ops = some p → p.isEmpty = true) →
        Prod.fst <$> probe.resolveBy lookup =
          match Probe.firstFound searchPath ops with
          | some p => pure (some { command := interpreterCommand, executable := p })
          | none =>
            Option.map (fun executable => { command := interpreterCommand, executable }) <$>
              lookup (Probe.lastSearchPath searchPath ops))) ∧
    (let host := (start settings store searchPath port).live deeds
      ∃ more, (host.act deed).calls = host.calls ++ more ∧
        ∀ id spec, .launch id spec ∈ more → ∀ p, configured settings deeds = some p →
          p.isEmpty = false → spec.args.getLast? = some p.text ∧
            ∃ script root, spec = .bridge interpreterCommand script host.port id p.bytes root) ∧
    ∀ (command : String) (script interpreter : List UInt8) (id : SessionId) (root : Path),
      ∃ argument,
      (LaunchSpec.bridge command script port id interpreter root).args.getLast? = some argument ∧
        (Text.bytesOf argument = interpreter ↔
          (Text.Utf8.decode? interpreter).isSome = true) := by
  refine ⟨fun m _ _ override searchPath ops lookup => ⟨fun p hp hne => ?_, fun hempty => ?_⟩, ?_,
    fun _ _ interpreter _ _ => ⟨_, rfl, bytesOf_escapeForPlatform_iff interpreter⟩⟩
  · exact Probe.answer_chosen (chosen?_of_nonempty hp hne) lookup
  · refine Probe.answer_unchosen (Option.filter_eq_none_iff.mpr fun p hp => ?_) lookup
    simpa using hempty p hp
  · intro host
    obtain ⟨more, hcalls, hmore⟩ := tells_act host deed
    refine ⟨more, hcalls, fun id spec hm p hp hne => ?_⟩
    obtain ⟨around, -, interpreter, script, root, hi, rfl⟩ := hmore id spec hm
    obtain ⟨ops, hprobe, hlast⟩ := probe_live settings store searchPath port deeds
    have hchosen := hlast.trans (chosen?_of_nonempty hp hne)
    have hanswer : (host.probe.resolve around.lookup).1 = some (Probe.interpreterOf p) := by
      have hhost : host.probe = Probe.after { override := settings.interpreter, searchPath } ops :=
        hprobe
      rw [hhost]
      exact Probe.resolve_chosen hchosen around.lookup
    obtain rfl := Option.some.inj (hi.symm.trans hanswer)
    exact ⟨congrArg some (escapeForPlatform_bytes p), script, root, rfl⟩

/-- A byte that begins no character does not reach the bridge. -/
theorem stray_byte_is_replaced :
    let interpreter : List UInt8 := [0x2F, 0x6F, 0x70, 0x74, 0x2F, 0xFF]
    let spec := LaunchSpec.bridge interpreterCommand (Text.bytesOf "/lib/bridge.fsx") 0 ⟨1⟩
      interpreter ⟨"/work"⟩
    spec.args.getLast? = some "/opt/\uFFFD" ∧ Text.bytesOf "/opt/\uFFFD" ≠ interpreter := by
  decide

/-- A probe that has found an interpreter does not count another lookup; and once another one has
been configured, it is what the next start launches. -/
theorem launched_after_a_configuration :
    let counting : Option String → StateM Nat (Option Path) := fun _ => do
      modify (· + 1)
      return some ⟨"/usr/bin/fsharpi"⟩
    let probe := Probe.after { override := some ⟨""⟩ } [.resolve fun _ => some ⟨"/bin/fsharpi"⟩]
    let connect : Deed := .take (.tryConnect .furnished { origin := none, path := some ⟨"/work"⟩ })
    let host := (start .fresh none none 0).live
      [connect, .take (.disconnect ⟨"/work"⟩),
        .take (.configure .interpreter (some ⟨"/opt/fsharpi"⟩))]
    (Prod.fst <$> probe.resolveBy counting).run 0 =
        (some { command := "fsharpi", executable := ⟨"/bin/fsharpi"⟩ }, 0) ∧
      ∃ id spec, .launch id spec ∈ (host.act connect).calls.drop host.calls.length ∧
        spec.args.getLast? = some "/opt/fsharpi" := by
  intro counting probe connect host
  obtain ⟨hprobe, ⟨more, hcalls, hmore⟩, -⟩ := interpreter_is_never_stale .fresh none none 0
    [connect, .take (.disconnect ⟨"/work"⟩),
      .take (.configure .interpreter (some ⟨"/opt/fsharpi"⟩))] connect
  refine ⟨?_, ?_⟩
  · have hanswer := (hprobe (StateM Nat) (some ⟨""⟩) none
      [.resolve fun _ => some ⟨"/bin/fsharpi"⟩] counting).2 fun p hp => by
        obtain rfl := Option.some.inj hp
        rfl
    exact congrArg (fun answer => answer.run 0) hanswer
  · have hdrop : (host.act connect).calls.drop host.calls.length = more := by
      rw [hcalls]
      exact List.drop_left
    obtain ⟨id, spec, hm⟩ : ∃ id spec,
        .launch id spec ∈ (host.act connect).calls.drop host.calls.length :=
      ⟨⟨2⟩, .bridge "fsharpi" (Text.bytesOf "/lib/bridge.fsx") 0 ⟨2⟩
          (Text.bytesOf "/opt/fsharpi") ⟨"/work"⟩,
        by decide +kernel⟩
    exact ⟨id, spec, hm, (hmore id spec (hdrop ▸ hm) ⟨"/opt/fsharpi"⟩ rfl rfl).1⟩

end Host

end InlineRepl
