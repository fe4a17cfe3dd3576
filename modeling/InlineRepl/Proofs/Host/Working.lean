import InlineRepl.Proofs.Host.Hearing

/-!
# When the working indicator is put out

The indicator is on from a call that work has begun to the next call that it has ended. A start that
fails, at whatever point, ends it; so does a response, and a handshake that completes. A session
that is registered may keep it on. Only two turns let a session go without a word: a disconnection,
and the exit of a process that had connected. If the indicator was on then and the session was the
last one, it stays on with nobody left to put it out.

`Released` says that the indicator is off, `Turn.letsGo` which turns are silent, and `Turn.Strands`
that such a turn leaves the indicator on.

Results:
* `released_tryConnect`, `released_submit`: an attempt after which nobody is registered.
* `idle_take`: the ways in which a turn leaves nobody registered.
* `released_when_idle_iff`: the indicator is off whenever nobody is registered, exactly if no turn
  strands it.
* `stranded_by_a_disconnection`: a run in which one does.
-/

namespace InlineRepl

namespace Host

/-- **The indicator is off**: whenever work was begun, it was ended later. -/
def Released (calls : List Call) : Prop :=
  ∀ before label after, calls = before ++ .beginWorking label :: after → .endWorking ∈ after

variable {host : Host} {around : Surroundings} {target : ConnectTarget} {id : SessionId}
  {calls : List Call} {call : Call}

/-! ## Calls -/

theorem released_nil : Released [] := by
  intro before label after h
  exact absurd h (by simp)

/-- What ends the work puts the indicator out, as long as none is begun afterwards. -/
theorem released_ended (calls : List Call) {more : List Call}
    (quiet : ∀ label, .beginWorking label ∉ more) : Released (calls ++ .endWorking :: more) := by
  intro before label after h
  rcases List.append_eq_append_iff.mp h with ⟨between, -, hsplit⟩ | ⟨between, -, hsplit⟩
  · rcases List.cons_eq_append_iff.mp hsplit with ⟨-, he⟩ | ⟨between, -, he⟩
    · exact absurd (List.cons.inj he).1 (by simp)
    · exact absurd (he ▸ List.mem_append_right _ List.mem_cons_self) (quiet label)
  · rcases List.cons_eq_append_iff.mp hsplit with ⟨-, he⟩ | ⟨between, -, he⟩
    · exact absurd (List.cons.inj he).1 (by simp)
    · exact he ▸ List.mem_append_right _ List.mem_cons_self

/-- A call that begins no work leaves the indicator off. -/
theorem Released.snoc (h : Released calls) (quiet : ∀ label, call ≠ .beginWorking label) :
    Released (calls ++ [call]) := by
  intro before label after hsplit
  rcases List.eq_nil_or_concat after with rfl | ⟨after, last, rfl⟩
  · exact absurd (List.append_inj' hsplit rfl).2 (by simpa using quiet label)
  · rw [List.concat_eq_append, ← List.cons_append, ← List.append_assoc] at hsplit
    have hcalls := (List.append_inj' hsplit rfl).1
    rw [List.concat_eq_append]
    exact List.mem_append_left _ (h before label after hcalls)

theorem released_abortConnect (popup : Popup) :
    Released (host.abortConnect id popup).calls := by
  have hcalls : (host.abortConnect id popup).calls = host.calls ++ [.endWorking, .popup popup] :=
    List.append_assoc host.calls _ _
  rw [hcalls]
  exact released_ended host.calls (by simp)

theorem released_failSession (report : String) :
    Released (host.failSession id report).calls := by
  have hcalls : (host.failSession id report).calls =
      host.calls ++ [.endWorking, .popup (.connectFailed report)] := by
    unfold failSession
    rw [calls_release]
    exact List.append_assoc host.calls _ _
  rw [hcalls]
  exact released_ended host.calls (by simp)

theorem released_dispatch (inbound : Inbound) : Released (host.dispatch inbound).calls := by
  have hended : Released (host.tell .endWorking).calls := released_ended host.calls (by simp)
  unfold dispatch
  dsimp only
  split
  · rename_i call hcall
    refine hended.snoc fun label he => ?_
    subst he
    unfold callOf at hcall
    dsimp only at hcall
    split at hcall
    iterate 3
      · exact absurd hcall (by simp)
    · split at hcall <;> exact absurd hcall (by simp)
    · exact absurd hcall (by simp)
    · exact absurd hcall (by simp)
  · exact hended

/-! ## Nobody is registered -/

theorem get?_of_isEmpty {registry : Registry} (h : registry.isEmpty = true) (id : SessionId) :
    registry.get? id = none := by
  unfold Registry.get?
  rw [List.isEmpty_iff.mp h]
  rfl

theorem findByRoot?_of_isEmpty {registry : Registry} (h : registry.isEmpty = true) (root : Path) :
    registry.findByRoot? root = none := by
  unfold Registry.findByRoot?
  rw [Option.bind_eq_none_iff]
  exact fun id _ => get?_of_isEmpty h id

@[simp] theorem isEmpty_modify (registry : Registry) (id : SessionId)
    (change : Session → Session) : (registry.modify id change).isEmpty = registry.isEmpty :=
  List.isEmpty_map

theorem isEmpty_adopt (pid : Option Nat) :
    (host.adopt id pid).registry.isEmpty = host.registry.isEmpty := by
  unfold adopt
  dsimp only
  split
  · rfl
  · exact isEmpty_modify _ _ _

theorem isEmpty_register (session : Session) :
    (host.register session).registry.isEmpty = false := by
  unfold register
  dsimp only
  split <;> rfl

/-! ## Attempts -/

/-- A launch after which nobody is registered has failed, and said so. -/
theorem released_launch (hsome : host.registry.isEmpty = false)
    (h : (host.launch around id).registry.isEmpty = true) :
    Released (host.launch around id).calls := by
  rcases launch_outcome host around id with hl | ⟨session, -, ⟨pid, -, hl⟩ | ⟨fault, -, hl⟩⟩
  · rw [hl] at h
    exact absurd (hsome.symm.trans h) (by simp)
  · rw [hl, isEmpty_adopt] at h
    exact absurd (hsome.symm.trans h) (by simp)
  · rw [hl]
    exact released_failSession fault.message

/-- **An attempt after which nobody is registered** was given up or has failed, and has put the
indicator out. -/
theorem released_tryConnect (h : (host.tryConnect around target).2.registry.isEmpty = true) :
    Released (host.tryConnect around target).2.calls := by
  rcases tryConnect_cases host around target with ⟨r, session, -, hf, ht⟩ | ⟨-, ht⟩
  · rw [ht] at h
    exact absurd ((findByRoot?_of_isEmpty h r).symm.trans hf) (by simp)
  · rw [ht] at h ⊢
    rcases startSession_cases host around target (rootOf around target) with
      ⟨popup, hs⟩ | ⟨interpreter, bridge, r, -, -, hs⟩
    · rw [hs]
      exact released_abortConnect popup
    · rw [hs] at h ⊢
      exact released_launch (isEmpty_register _) h

/-- So has an evaluation. -/
theorem released_submit {evaluation : Evaluation}
    (h : (host.submit around evaluation).2.registry.isEmpty = true) :
    Released (host.submit around evaluation).2.calls := by
  rw [registry_submit] at h
  have hattempt := released_tryConnect h
  unfold submit
  dsimp only
  split
  · exact hattempt
  · split
    · exact released_ended _ (by simp)
    · exact hattempt

/-! ## Turns -/

/-- The turn lets a session go without a word: a disconnection that finds one, or the exit of a
process that had connected. -/
def Turn.letsGo (host : Host) : Turn → Bool
  | .disconnect root => (host.registry.findByRoot? root).isSome
  | .command _ (.disconnect root) => (host.registry.findByRoot? root).isSome
  | .event ⟨id, .exit _⟩ => (host.registry.get? id).any Session.isConnected
  | _ => false

/-- The turn leaves the indicator on with nobody left to put it out. -/
def Turn.Strands (host : Host) (turn : Turn) : Prop :=
  turn.letsGo host = true ∧ ¬ Released host.calls ∧ (host.take turn).registry.isEmpty = true

theorem calls_disconnect (root : Path) : (host.disconnect root).2.calls = host.calls := by
  unfold disconnect
  split
  · rfl
  · exact calls_release

/-- **A turn that lets a session go says nothing.** -/
theorem calls_letsGo {turn : Turn} (h : turn.letsGo host = true) :
    (host.take turn).calls = host.calls := by
  unfold Turn.letsGo at h
  split at h
  · exact calls_disconnect _
  · exact calls_disconnect _
  · rename_i id code
    obtain ⟨session, hg, hc⟩ := (Option.any_eq_true _ _).mp h
    have htake : host.take (.event ⟨id, .exit code⟩) = host.onExit id session :=
      handleEvent_registered hg _
    rcases onExit_cases host id session with ⟨-, hx⟩ | ⟨hopen, -⟩
    · rw [htake, hx]
      exact calls_forget
    · exact absurd (hc.symm.trans hopen) (by simp)
  · exact absurd h (by simp)

/-- An event after which nobody is registered found nobody, reported a failed start, or let the
session go. -/
theorem idle_handleEvent {event : SessionEvent}
    (h : (host.handleEvent event).registry.isEmpty = true) :
    Released (host.handleEvent event).calls ∨ host.handleEvent event = host ∨
      (Turn.event event).letsGo host = true := by
  obtain ⟨id, happening⟩ := event
  cases hg : host.registry.get? id with
  | none => exact .inr (.inl (handleEvent_unregistered hg))
  | some session =>
    have htake : host.handleEvent ⟨id, happening⟩ = host.onHappening id session happening :=
      handleEvent_registered hg happening
    -- A change of the session leaves it registered.
    have hstays : ∀ change, (host.registry.modify id change).isEmpty ≠ true := by
      intro change he
      rw [isEmpty_modify] at he
      exact absurd ((get?_of_isEmpty he id).symm.trans hg) (by simp)
    rw [htake] at h ⊢
    cases happening with
    | stdout text =>
      unfold onHappening at h
      dsimp only at h
      split at h <;> exact absurd h (hstays _)
    | stderr text => exact absurd h (hstays _)
    | exit code =>
      rcases onExit_cases host id session with ⟨hc, -⟩ | ⟨-, _, hx⟩
      · refine .inr (.inr ?_)
        show (host.registry.get? id).any Session.isConnected = true
        rw [hg]
        exact hc
      · show Released (host.onExit id session).calls ∨ _
        rw [hx]
        exact .inl (released_failSession _)
    | attached => exact absurd h (hstays _)
    | inbound inbound => exact .inl (released_dispatch inbound)
    | detached => exact absurd h (hstays _)

/-- A disconnection found nobody, or let the session go. -/
theorem idle_disconnect (root : Path) :
    (host.disconnect root).2 = host ∨ (host.registry.findByRoot? root).isSome = true := by
  unfold disconnect
  cases host.registry.findByRoot? root with
  | none => exact .inl rfl
  | some session => exact .inr rfl

theorem released_configure (h : Released host.calls) (key : SettingKey) (value : Option Path) :
    Released (host.configure key value).calls := by
  unfold configure
  dsimp only
  split
  · split <;> exact Released.snoc h (by simp)
  · split <;> exact h

/-- **The ways in which a turn leaves nobody registered**: it has put the indicator out, nobody was
registered before and an indicator that was off stays off, or it has let the last session go. -/
theorem idle_take (host : Host) (turn : Turn) (h : (host.take turn).registry.isEmpty = true) :
    Released (host.take turn).calls ∨
      (host.registry.isEmpty = true ∧ (Released host.calls → Released (host.take turn).calls)) ∨
      turn.letsGo host = true := by
  have hstill : (host.take turn).registry = host.registry →
      (Released host.calls → Released (host.take turn).calls) → host.registry.isEmpty = true ∧
        (Released host.calls → Released (host.take turn).calls) :=
    fun hr hc => ⟨hr ▸ h, hc⟩
  have hsame : host.take turn = host → host.registry.isEmpty = true ∧
      (Released host.calls → Released (host.take turn).calls) :=
    fun he => hstill (congrArg registry he) (he.symm ▸ id)
  cases turn with
  | tryConnect around target => exact .inl (released_tryConnect h)
  | evaluate around doc scope => exact .inl (released_submit h)
  | submit around evaluation => exact .inl (released_submit h)
  | disconnect root =>
    exact .inr ((idle_disconnect root).imp_left hsame)
  | configure key value =>
    exact .inr (.inl (hstill (registry_configure host key value)
      fun hr => released_configure hr key value))
  | command around command =>
    cases command with
    | evaluate evaluation => exact .inl (released_submit h)
    | connect dir => exact .inl (released_tryConnect h)
    | disconnect root => exact .inr ((idle_disconnect root).imp_left hsame)
    | choose choice =>
      cases choice with
      | openUrl url => exact .inr (.inl (hstill rfl fun hr => hr.snoc (by simp)))
      | saveAndRetry doc => exact .inl (released_tryConnect h)
      | dismiss => exact .inr (.inl (hsame rfl))
    | configure key value =>
      exact .inr (.inl (hstill (registry_configure host key value)
        fun hr => released_configure hr key value))
  | event event =>
    rcases idle_handleEvent h with hr | hs | hl
    · exact .inl hr
    · exact .inr (.inl (hsame hs))
    · exact .inr (.inr hl)
  | greet hello =>
    have htake : (host.take (.greet hello)).registry = host.registry ∧
        (host.take (.greet hello)).calls = host.calls := by
      simp only [take]
      split <;> exact ⟨rfl, rfl⟩
    exact .inr (.inl (hstill htake.1 fun hr => htake.2 ▸ hr))
  | transmit lane =>
    have htake : (host.take (.transmit lane)).registry = host.registry ∧
        (host.take (.transmit lane)).calls = host.calls := by
      simp only [take]
      split <;> exact ⟨rfl, rfl⟩
    exact .inr (.inl (hstill htake.1 fun hr => htake.2 ▸ hr))
  | hangUp lane => exact .inr (.inl (hstill rfl id))

/-! ## Runs -/

theorem run_concat (host : Host) (turns : List Turn) (turn : Turn) :
    host.run (turns ++ [turn]) = (host.run turns).take turn := by
  rw [run_append, run_cons, run_nil]

/-- A run that strands the indicator nowhere has it off whenever nobody is registered. -/
theorem released_run (h0 : Released host.calls) (turns : List Turn)
    (kept : ∀ before turn, before ++ [turn] <+: turns → ¬ turn.Strands (host.run before))
    (h : (host.run turns).registry.isEmpty = true) : Released (host.run turns).calls := by
  induction turns using List.reverseRecOn with
  | nil => exact h0
  | append_singleton turns turn ih =>
    have ih := ih fun before other hp => kept before other (hp.trans (List.prefix_append _ _))
    have hkept := kept turns turn (List.prefix_refl _)
    rw [run_concat] at h ⊢
    rcases idle_take (host.run turns) turn h with hr | ⟨hidle, hr⟩ | hl
    · exact hr
    · exact hr (ih hidle)
    · rw [calls_letsGo hl]
      exact not_not.mp fun hn => hkept ⟨hl, hn, h⟩

/-- **When the indicator is off whenever nobody is registered.** In every run of a host that has
been started, this is so at the end of each part of the run, exactly if no turn lets the last
session go while the indicator is on. -/
theorem released_when_idle_iff (settings : Settings) (store : Option Path)
    (searchPath : Option String) (port : UInt16) (turns : List Turn) :
    (∀ before, before <+: turns →
        ((start settings store searchPath port).run before).registry.isEmpty = true →
        Released ((start settings store searchPath port).run before).calls) ↔
      ∀ before turn, before ++ [turn] <+: turns →
        ¬ turn.Strands ((start settings store searchPath port).run before) := by
  constructor
  · rintro hall before turn hp ⟨hl, hn, hidle⟩
    refine hn ?_
    have hr := hall _ hp (by rwa [run_concat])
    rwa [run_concat, calls_letsGo hl] at hr
  · intro kept before hp hidle
    exact released_run released_nil before (fun b t hb => kept b t (hb.trans hp)) hidle

/-- **A disconnection strands the indicator** of a session that is still connecting. -/
theorem stranded_by_a_disconnection :
    let turns : List Turn :=
      [.tryConnect .furnished { origin := none, path := some ⟨"/work"⟩ }, .disconnect ⟨"/work"⟩]
    let host := (start .fresh none none 0).run turns
    host.registry.isEmpty = true ∧ ¬ Released host.calls := by
  intro turns host
  have hbegun : host.calls = [] ++ .beginWorking connectingLabel :: host.calls.tail := by
    decide +kernel
  have hsilent : .endWorking ∉ host.calls.tail := by
    decide +kernel
  exact ⟨by decide +kernel, fun h => hsilent (h _ _ _ hbegun)⟩

end Host

end InlineRepl
