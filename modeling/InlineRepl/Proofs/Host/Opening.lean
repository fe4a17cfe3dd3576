import InlineRepl.Proofs.Host.Drawing
import InlineRepl.Proofs.Host.Standing
import InlineRepl.Proofs.Host.Submission

/-!
# The opening of a host

A command has a host of its own, which has just been started when it submits its evaluation. No
session stands there that could be reused, so the host starts one or fails, and a failure is shown:
the evaluation is sent, or one popup says why it was not. `Opening` says which, for every lookup,
also one that names an interpreter without a path: then the evaluation is sent as well, but nothing
is launched for it.

What the host is told afterwards it has received or ignored. `received` is what it has received: the
responses of sessions that are registered when they come. The changes to the board are theirs.

Results:
* `first_submission`: the first evaluation is sent, or one popup is shown.
* `Opening.sent_iff`: so it is sent if and only if no popup has been shown.
* `changes_hear`: what events change is what the responses among them change that are received.
-/

namespace InlineRepl

/-- The popup that a call shows. -/
def Call.popup? : Call → Option Popup
  | .popup shown => some shown
  | _ => none

namespace Host

variable {host : Host} {around : Surroundings} {evaluation : Evaluation} {event : SessionEvent}
  {target : ConnectTarget}

/-- The popups that a host has shown, in order. -/
def popups (host : Host) : List Popup :=
  host.calls.filterMap Call.popup?

/-! ## The first submission -/

/-- **A host without sessions starts one, fails, or keeps one waiting.** -/
theorem Coherent.starts_fails_or_keepsWaiting (h : host.Coherent none)
    (fresh : host.registry = {}) (target : ConnectTarget) :
    (∃ session, host.Starts around target session) ∨ (∃ popup, host.Fails around target popup) ∨
      ∃ session, host.KeepsWaiting around target session := by
  have room : host.registry.lastId.toNat + 1 < 2 ^ 64 := by
    rw [fresh]
    decide
  rcases h.attempt_cases room target with hr | hf | ⟨session, e⟩ | hk
  · obtain ⟨root, session, -, hroot, -⟩ := hr.found
    rw [fresh] at hroot
    exact absurd hroot nofun
  · exact .inr (.inl hf)
  · cases hl : around.launch session.id ((host.enrolled around session).specOf session) with
    | ok pid => exact .inl (e.starts h room hl)
    | error fault => exact .inr (.inl ⟨_, e.fails h room hl⟩)
  · exact .inr (.inr hk)

/-- A session that is the first to be started takes the request. -/
theorem Starts.send {session : Session} (h : host.Starts around target session)
    (fresh : host.server = {}) (request : EvalRequest) :
    ∃ server, (host.tryConnect around target).2.server.send (host.tryConnect around target).1
      request = .ok server := by
  obtain ⟨hclient, hopen⟩ := h.client
  have hlanes : (host.tryConnect around target).2.server.lanes = [{ session := session.id }] := by
    rw [h.lanes, fresh]
    rfl
  unfold ControlServer.isOpen at hopen
  rw [hlanes] at hopen
  unfold ControlServer.send
  rw [hclient, hlanes]
  cases hlane : session.client.lane with
  | zero => exact ⟨_, rfl⟩
  | succ lane =>
    rw [hlane] at hopen
    exact absurd hopen nofun

/-- A session that is the first to be kept waiting takes the request. -/
theorem KeepsWaiting.send {session : Session} (h : host.KeepsWaiting around target session)
    (fresh : host.server = {}) (request : EvalRequest) :
    ∃ server, (host.tryConnect around target).2.server.send (host.tryConnect around target).1
      request = .ok server := by
  rw [h.attempt, h.client]
  show ∃ server, (host.server.open_ host.registry.nextId.1).2.send
    (host.server.open_ host.registry.nextId.1).1 request = .ok server
  rw [fresh]
  exact ⟨_, rfl⟩

/-- **What becomes of the first evaluation.** It is sent, a process having been launched for it; or
it is sent and nothing is launched, because the lookup has named an interpreter without a path; or
one popup says why it was not sent. -/
inductive Opening (host : Host) (around : Surroundings) (evaluation : Evaluation)
    (after : Except SessionFault Unit × Host) : Prop
  | launched {id : SessionId} {spec : LaunchSpec} {pid : Option Nat} (sent : after.1 = .ok ())
      (launch : around.launch id spec = .ok pid)
      (calls : after.2.calls =
        [.beginWorking "", .beginWorking connectingLabel, .launch id spec])
  | waiting {interpreter : Interpreter} (sent : after.1 = .ok ())
      (nameless : (host.probe.resolve around.lookup).1 = some interpreter ∧
        interpreter.executable.isEmpty = true)
      (calls : after.2.calls = [.beginWorking ""])
  | refused {fault : SessionFault} {popup : Popup} {before : List Call}
      (unsent : after.1 = .error fault)
      (reason : (host.tell (.beginWorking "")).Reason around (targetOf evaluation) before popup)
      (calls : after.2.calls = .beginWorking "" :: before ++ [.endWorking, .popup popup])

/-- **The first evaluation is sent, or one popup says why it was not.** -/
theorem first_submission (settings : Settings) (store : Option Path) (searchPath : Option String)
    (port : UInt16) (around : Surroundings) (evaluation : Evaluation) :
    let host := start settings store searchPath port
    host.Opening around evaluation (host.submit around evaluation) := by
  intro host
  have h : (host.tell (.beginWorking "")).Coherent none := (start_coherent ..).tell _
  obtain ⟨after, hafter⟩ : ∃ after, after = host.submit around evaluation := ⟨_, rfl⟩
  rw [← hafter]
  rw [submit_eq] at hafter
  rcases h.starts_fails_or_keepsWaiting rfl (targetOf evaluation) with
    ⟨session, hs⟩ | ⟨popup, hf⟩ | ⟨session, hk⟩
  · obtain ⟨server, hsend⟩ : ∃ server, (host.connectFor around evaluation).2.server.send
        (host.connectFor around evaluation).1 evaluation.request = .ok server := hs.send rfl _
    obtain ⟨spec, -, ⟨pid, hlaunched⟩, hcalls⟩ := hs.launched
    rw [hsend] at hafter
    rw [hafter]
    exact .launched rfl hlaunched hcalls
  · obtain ⟨before, hreason, hcalls⟩ := hf.told
    cases hsend : (host.connectFor around evaluation).2.server.send
        (host.connectFor around evaluation).1 evaluation.request with
    | ok server =>
      have hopen := ControlServer.isOpen_of_send hsend
      exact absurd (hopen.symm.trans hf.closed) nofun
    | error fault =>
      have hgone : (host.connectFor around evaluation).2.registry.contains
          (host.connectFor around evaluation).1.session = false := by
        show ((host.tell _).tryConnect around _).2.registry.contains _ = false
        rw [hf.registry]
        rfl
      rw [hsend, hgone] at hafter
      rw [hafter]
      exact .refused rfl hreason hcalls
  · obtain ⟨server, hsend⟩ : ∃ server, (host.connectFor around evaluation).2.server.send
        (host.connectFor around evaluation).1 evaluation.request = .ok server := hk.send rfl _
    obtain ⟨interpreter, hnameless⟩ := hk.nameless
    rw [hsend] at hafter
    rw [hafter]
    exact .waiting rfl hnameless (congrArg (fun attempt => attempt.2.calls) hk.attempt)

theorem Reason.popups {before : List Call} {popup : Popup}
    (h : host.Reason around target before popup) : before.filterMap Call.popup? = [] := by
  cases h with
  | missing => rfl
  | refused => rfl

/-- **The first evaluation is sent if and only if no popup has been shown.** -/
theorem Opening.sent_iff {after : Except SessionFault Unit × Host}
    (h : host.Opening around evaluation after) : after.1 = .ok () ↔ after.2.popups = [] := by
  unfold popups
  cases h with
  | launched sent _ calls =>
    rw [calls]
    exact iff_of_true sent rfl
  | waiting sent _ calls =>
    rw [calls]
    exact iff_of_true sent rfl
  | refused unsent reason calls =>
    rw [calls, List.cons_append, List.filterMap_cons, List.filterMap_append, reason.popups]
    exact iff_of_false (fun sent => absurd (sent.symm.trans unsent) nofun) (List.cons_ne_nil _ [])

/-! ## What is received -/

/-- The response that an event brings from a registered session. -/
def response? (host : Host) (event : SessionEvent) : Option Inbound :=
  match event.happening with
  | .inbound inbound => if host.registry.contains event.session then some inbound else none
  | _ => none

/-- The responses that a host receives, in order. -/
def received (host : Host) : List SessionEvent → List Inbound
  | [] => []
  | event :: events => (host.response? event).toList ++ (host.handleEvent event).received events

/-- **An event makes the change of the response that is received**, if there is one. -/
theorem changes_event (host : Host) (event : SessionEvent) : (host.handleEvent event).changes =
    host.changes ++ ((host.response? event).toList).filterMap Inbound.change? := by
  by_cases hb : ∃ inbound, event.happening = .inbound inbound
  · obtain ⟨inbound, hinbound⟩ := hb
    unfold response?
    rw [hinbound]
    dsimp only
    cases hg : host.registry.get? event.session with
    | none =>
      have hgone : host.registry.contains event.session = false := by
        unfold Registry.contains
        rw [hg]
        rfl
      rw [handleEvent_unregistered hg, hgone]
      exact (List.append_nil _).symm
    | some session =>
      have hthere : host.registry.contains event.session = true := by
        unfold Registry.contains
        rw [hg]
        rfl
      have hevent : host.handleEvent event = host.dispatch inbound := by
        rw [handleEvent_registered hg, hinbound]
        rfl
      rw [hevent, changes_dispatch, hthere, if_pos rfl, Option.toList_some,
        List.filterMap_eq_flatMap_toList, List.flatMap_singleton]
  · have hstill : ∀ inbound, event.happening ≠ .inbound inbound := fun inbound h => hb ⟨inbound, h⟩
    have hnone : host.response? event = none := by
      unfold response?
      split
      · rename_i inbound h
        exact absurd h (hstill inbound)
      · rfl
    rw [changes_handleEvent hstill, hnone]
    exact (List.append_nil _).symm

/-- **What events change** is what the responses change that are received. -/
theorem changes_hear (events : List SessionEvent) (host : Host) : (host.hear events).changes =
    host.changes ++ (host.received events).filterMap Inbound.change? := by
  induction events generalizing host with
  | nil => exact (List.append_nil _).symm
  | cons event events ih =>
    rw [hear_cons, ih, changes_event, received, List.filterMap_append, List.append_assoc]

end Host

end InlineRepl
