import InlineRepl.Proofs.Board.History
import InlineRepl.Proofs.Host.Orphans
import InlineRepl.Proofs.Host.Working
import InlineRepl.Terminal

/-!
# What is drawn

A host has its terminal draw a result or set a watch when a response says so, and at no other time:
whatever else it does, what it tells its surroundings leaves the board as it is. What the terminal
shows can therefore be read off the responses.

Results:
* `board_ofCalls`, `responses_ofCalls`: a terminal's board and its count, by the changes that the
  calls it has heard make.
* `changes_dispatch`: a response makes its change, if it makes one.
* `changes_handleEvent`, `changes_act`: nothing else makes any.
* `changes_live`: the changes of a life are those of its responses.
-/

namespace InlineRepl

open Board (Change)

/-! ## Terminals -/

/-- The change that a call makes to the board of a terminal. -/
def Call.change? : Call → Option Change
  | .showResult doc anchor result => some (.place doc anchor result)
  | .updateWatch doc watch value => some (.setValue doc watch value)
  | _ => none

namespace Terminal

theorem board_hear (t : Terminal) (call : Call) :
    (t.hear call).board = t.board.changed call.change?.toList := by
  cases call with
  | beginWorking label =>
    unfold hear
    dsimp only
    split <;> rfl
  | _ => rfl

theorem responses_hear (t : Terminal) (call : Call) :
    (t.hear call).responses = t.responses + call.change?.toList.length := by
  cases call with
  | beginWorking label =>
    unfold hear
    dsimp only
    split <;> rfl
  | _ => rfl

theorem heard_foldl : ∀ (calls : List Call) (t : Terminal),
    (calls.foldl hear t).board = t.board.changed (calls.filterMap Call.change?) ∧
      (calls.foldl hear t).responses = t.responses + (calls.filterMap Call.change?).length
  | [], _ => ⟨rfl, rfl⟩
  | call :: calls, t => by
    obtain ⟨hboard, hresponses⟩ := heard_foldl calls (t.hear call)
    rw [List.foldl_cons, hboard, hresponses, board_hear, responses_hear]
    simp only [List.filterMap_eq_flatMap_toList, List.flatMap_cons, List.length_append,
      Nat.add_assoc]
    exact ⟨List.foldl_append.symm, trivial⟩

/-- **A board shows the changes of the calls** that its terminal has heard. -/
theorem board_ofCalls (echo color : Bool) (calls : List Call) :
    (ofCalls echo color calls).board = ({} : Board).changed (calls.filterMap Call.change?) :=
  (heard_foldl calls { echo, color }).1

theorem responses_ofCalls (echo color : Bool) (calls : List Call) :
    (ofCalls echo color calls).responses = (calls.filterMap Call.change?).length :=
  (heard_foldl calls { echo, color }).2.trans (Nat.zero_add _)

end Terminal

/-! ## Responses -/

/-- What a response draws, and for which lines. A picture that cannot be decoded, a print and the
value of a watch draw nothing. -/
def Response.drawing? : Response → Option (Placement × InlineResult)
  | .result value place => some (place, .text value)
  | .success place => some (place, .text Host.successGlyph)
  | .exception text place => some (place, .exception text)
  | .image payload place => (Image.decode payload).toOption.map fun bytes => (place, .image bytes)
  | .print .. | .watch .. => none

/-- The watch that a response sets, and its value. -/
def Response.update? : Response → Option (WatchId × String)
  | .watch value place => place.watch.map fun watch => (watch, value)
  | _ => none

/-- The change that a response makes to the board of a terminal. -/
def Inbound.change? (inbound : Inbound) : Option Change :=
  (inbound.response.drawing?.map fun drawing =>
      .place inbound.origin (Anchor.ofPlacement drawing.1) drawing.2).or
    (inbound.response.update?.map fun update => .setValue inbound.origin update.1 update.2)

namespace Host

variable {host : Host} {around : Surroundings} {session : Session} {id : SessionId} {deed : Deed}
  {inbound : Inbound}

theorem change?_callOf (inbound : Inbound) :
    (callOf inbound).bind Call.change? = inbound.change? := by
  obtain ⟨origin, response⟩ := inbound
  cases response with
  | image payload place =>
    simp only [callOf, Inbound.change?, Response.drawing?, Response.update?]
    cases Image.decode payload <;> rfl
  | watch value place =>
    simp only [callOf, Inbound.change?, Response.drawing?, Response.update?]
    cases place.watch <;> rfl
  | result | success | exception | print => rfl

/-- The changes that a host has had its terminal make. -/
def changes (host : Host) : List Change :=
  host.calls.filterMap Call.change?

theorem changes_tell (host : Host) (call : Call) :
    (host.tell call).changes = host.changes ++ call.change?.toList := by
  unfold changes tell
  rw [List.filterMap_append, List.filterMap_eq_flatMap_toList _ [call], List.flatMap_singleton]

theorem changes_of_calls {after : Host} (h : after.calls = host.calls) :
    after.changes = host.changes :=
  congrArg (List.filterMap Call.change?) h

/-- **A response makes its change**, if it makes one. -/
theorem changes_dispatch (host : Host) (inbound : Inbound) :
    (host.dispatch inbound).changes = host.changes ++ inbound.change?.toList := by
  have htell : (host.tell .endWorking).changes = host.changes :=
    (changes_tell host _).trans (List.append_nil _)
  unfold dispatch
  dsimp only
  rw [← change?_callOf]
  split
  · rename_i call hcall
    rw [changes_tell, htell, hcall]
    rfl
  · rename_i hcall
    rw [htell, hcall]
    exact (List.append_nil _).symm

/-! ## What draws nothing -/

/-- A call that makes no change. -/
theorem changes_tell_still {call : Call} (h : call.change? = none) :
    (host.tell call).changes = host.changes := by
  rw [changes_tell, h]
  exact List.append_nil _

theorem changes_release : (host.release id).changes = host.changes :=
  changes_of_calls calls_release

theorem changes_failSession {report : String} :
    (host.failSession id report).changes = host.changes := by
  unfold failSession
  rw [changes_release]
  show ((host.tell .endWorking).tell _).changes = _
  rw [changes_tell_still rfl, changes_tell_still rfl]

theorem changes_abortConnect {popup : Popup} :
    (host.abortConnect id popup).changes = host.changes := by
  unfold abortConnect
  rw [changes_tell_still rfl, changes_tell_still rfl]
  rfl

theorem changes_register : (host.register session).changes = host.changes := by
  rw [register_eq]
  split <;> rfl

theorem changes_launch : (host.launch around id).changes = host.changes := by
  have htold : ∀ session, (host.announced id session).changes = host.changes := fun session => by
    rw [announced, changes_tell_still rfl, changes_tell_still rfl]
  rcases launch_outcome host around id with hl | ⟨session, -, ⟨pid, -, hl⟩ | ⟨fault, -, hl⟩⟩
  · rw [hl]
  · rw [hl]
    exact (changes_of_calls (calls_adopt _ id pid)).trans (htold session)
  · rw [hl]
    exact changes_failSession.trans (htold session)

theorem changes_tryConnect {target : ConnectTarget} :
    (host.tryConnect around target).2.changes = host.changes := by
  rcases tryConnect_cases host around target with ⟨_, _, -, -, ht⟩ | ⟨-, ht⟩
  · rw [ht]
  rcases startSession_cases host around target (rootOf around target) with
    ⟨popup, hs⟩ | ⟨interpreter, bridge, root, -, -, hs⟩
  · rw [ht, hs, changes_abortConnect]
    rfl
  · rw [ht, hs, changes_launch, changes_register]
    rfl

theorem changes_submit {evaluation : Evaluation} :
    (host.submit around evaluation).2.changes = host.changes := by
  have hconnect : ((host.tell (.beginWorking "")).tryConnect around
      { origin := some evaluation.origin, path := evaluation.path }).2.changes = host.changes :=
    changes_tryConnect.trans (changes_tell_still rfl)
  unfold submit
  dsimp only
  split
  · exact hconnect
  · split
    · exact (changes_tell_still rfl).trans hconnect
    · exact hconnect

theorem changes_configure {key : SettingKey} {value : Option Path} :
    (host.configure key value).changes = host.changes := by
  unfold configure
  cases key <;>
  · dsimp only
    split
    · exact changes_tell_still rfl
    · rfl

theorem changes_handleCommand {command : HostCommand} :
    (host.handleCommand around command).changes = host.changes := by
  cases command with
  | evaluate evaluation => exact changes_submit
  | connect dir => exact changes_tryConnect
  | disconnect root => exact changes_of_calls (calls_disconnect root)
  | choose choice =>
    cases choice with
    | openUrl url => exact changes_tell_still rfl
    | saveAndRetry doc => exact changes_tryConnect.trans (changes_tell_still rfl)
    | dismiss => rfl
  | configure key value => exact changes_configure

theorem changes_onExit : (host.onExit id session).changes = host.changes := by
  rcases onExit_cases host id session with ⟨-, hx⟩ | ⟨-, handshake, hx⟩
  · rw [hx]
    exact changes_of_calls calls_forget
  · rw [hx]
    exact changes_failSession

/-- **No event but a response makes a change.** -/
theorem changes_handleEvent {event : SessionEvent}
    (still : ∀ inbound, event.happening ≠ .inbound inbound) :
    (host.handleEvent event).changes = host.changes := by
  exact handleEvent_keeps (fun after => after.changes = host.changes) rfl (fun _ _ => rfl)
    (fun _ h => (changes_tell_still rfl).trans h) (fun _ _ _ _ => changes_onExit)
    fun inbound he => absurd he (still inbound)

theorem changes_shutdown (host : Host) : host.shutdown.changes = host.changes :=
  shutdown_keeps (fun after => after.changes = host.changes)
    (fun _ _ h => changes_release.trans h) rfl

/-! ## Lives -/

/-- The response that a deed brings, and the session that it comes from. -/
def Deed.response? : Deed → Option (SessionId × Inbound)
  | .take (.event ⟨id, .inbound inbound⟩) => some (id, inbound)
  | _ => none

/-- The responses that deeds bring, in order. -/
def responses (deeds : List Deed) : List Inbound :=
  deeds.filterMap fun deed => deed.response?.map Prod.snd

/-- **Every response finds its session registered** when it comes. -/
def serves (host : Host) : List Deed → Bool
  | [] => true
  | deed :: deeds =>
    (deed.response?.all fun response => host.registry.contains response.1) &&
      (host.act deed).serves deeds

theorem changes_act_still (h : deed.response? = none) :
    (host.act deed).changes = host.changes := by
  cases deed with
  | shutdown => exact changes_shutdown host
  | take turn =>
    cases turn with
    | tryConnect around target => exact changes_tryConnect
    | evaluate around doc scope => exact changes_submit
    | submit around evaluation => exact changes_submit
    | disconnect root => exact changes_of_calls (calls_disconnect root)
    | configure key value => exact changes_configure
    | command around command => exact changes_handleCommand
    | event event =>
      obtain ⟨id, happening⟩ := event
      refine changes_handleEvent fun inbound he => ?_
      obtain rfl : happening = .inbound inbound := he
      exact absurd h nofun
    | greet hello =>
      simp only [act, take]
      split <;> rfl
    | transmit lane =>
      simp only [act, take]
      split <;> rfl
    | hangUp lane => rfl

/-- **A deed makes the change of the response** that it brings to a registered session. -/
theorem changes_act
    (registered : (deed.response?.all fun response => host.registry.contains response.1) = true) :
    (host.act deed).changes =
      host.changes ++ (deed.response?.bind fun response => response.2.change?).toList := by
  cases hr : deed.response? with
  | none => exact (changes_act_still hr).trans (List.append_nil _).symm
  | some response =>
    obtain ⟨id, inbound⟩ := response
    obtain rfl : deed = .take (.event ⟨id, .inbound inbound⟩) := by
      unfold Deed.response? at hr
      split at hr
      · obtain ⟨rfl, rfl⟩ := Prod.mk.inj (Option.some.inj hr)
        rfl
      · exact absurd hr nofun
    obtain ⟨session, hg⟩ := Option.isSome_iff_exists.mp registered
    have hact : host.act (.take (.event ⟨id, .inbound inbound⟩)) = host.dispatch inbound :=
      handleEvent_registered hg _
    rw [hact]
    exact changes_dispatch host inbound

/-- **The changes of a life are those of its responses.** -/
theorem changes_live : ∀ (deeds : List Deed) {host : Host}, host.serves deeds = true →
    (host.live deeds).changes = host.changes ++ (responses deeds).filterMap Inbound.change?
  | [], _, _ => (List.append_nil _).symm
  | deed :: deeds, host, h => by
    obtain ⟨hdeed, hdeeds⟩ := (Bool.and_eq_true _ _).mp h
    rw [live_cons, changes_live deeds hdeeds, changes_act hdeed, List.append_assoc]
    simp only [responses, List.filterMap_filterMap, Option.bind_map]
    rw [List.filterMap_eq_flatMap_toList _ (deed :: deeds), List.flatMap_cons,
      ← List.filterMap_eq_flatMap_toList]
    rfl

end Host

end InlineRepl
