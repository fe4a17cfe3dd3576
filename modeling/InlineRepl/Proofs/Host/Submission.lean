import InlineRepl.Proofs.Control.Exchange
import InlineRepl.Proofs.Host.Outcome
import InlineRepl.Proofs.Host.Working

/-!
# Submitting reaches one queue or none

An evaluation is sent on the client that a connection attempt hands out, whatever the attempt has
come to. `ControlServer.acceptedBy` is what a lane has accepted so far.

* `Delivers`: the lane of one registered session, at the root of the evaluation, has accepted the
  request after all it had accepted before, the other lanes have accepted nothing, and the working
  indicator is on.
* `Withholds`: no lane has accepted anything, and the indicator is off.

Results:
* `acceptedBy_tryConnect`: an attempt to connect has no lane accept anything.
* `Coherent.delivers`, `Coherent.withholds`: what an accepted and a refused evaluation come to.
* `submission_is_exact`: the answer tells which of the two it is, in every state of a host.
-/

namespace InlineRepl

namespace ControlServer

variable {server after : ControlServer} {client : Client} {request : EvalRequest} {lane : Nat}

/-- The requests that a lane has accepted so far, in order. -/
def acceptedBy (server : ControlServer) (lane : Nat) : List EvalRequest :=
  ((server.lanes[lane]?).map Lane.accepted).getD []

/-- A new lane has accepted nothing yet. -/
theorem acceptedBy_append {new : Lane} (h : after.lanes = server.lanes ++ [new])
    (hnew : new.accepted = []) (lane : Nat) : after.acceptedBy lane = server.acceptedBy lane := by
  unfold acceptedBy
  rw [h]
  rcases Nat.lt_trichotomy lane server.lanes.length with hl | rfl | hl
  · rw [List.getElem?_append_left hl]
  · rw [List.getElem?_concat_length, List.getElem?_eq_none (Nat.le_refl _)]
    exact hnew
  · rw [List.getElem?_eq_none (by simpa using Nat.succ_le_of_lt hl),
      List.getElem?_eq_none (Nat.le_of_lt hl)]

/-- **A send that is accepted** adds its request to the lane of its client, at the end, and to no
other. -/
theorem acceptedBy_send (h : server.send client request = .ok after) (lane : Nat) :
    after.acceptedBy lane =
      server.acceptedBy lane ++ if lane = client.lane then [request] else [] := by
  obtain ⟨found, hl, rfl⟩ := send_ok h
  unfold acceptedBy
  rw [lanes_update]
  split
  · rename_i he
    rw [← he, hl, if_pos rfl]
    rfl
  · rename_i hne
    rw [if_neg (Ne.symm hne), List.append_nil]

end ControlServer

namespace Host

variable {host : Host} {around : Surroundings} {target : ConnectTarget} {evaluation : Evaluation}
  {session : Session} {popup : Popup}

/-! ## What an attempt to connect leaves -/

/-- **An attempt to connect** has no lane accept anything. -/
theorem Coherent.acceptedBy_tryConnect (h : host.Coherent none) (found : around.NamesWhatItFinds)
    (room : host.registry.lastId.toNat + 1 < 2 ^ 64) (target : ConnectTarget) (lane : Nat) :
    (host.tryConnect around target).2.server.acceptedBy lane = host.server.acceptedBy lane := by
  rcases h.outcome found room target with hr | ⟨session, hs⟩ | ⟨popup, hf⟩
  · rw [hr.untouched]
  · exact ControlServer.acceptedBy_append (congrArg ControlServer.lanes hs.lanes) rfl lane
  · exact ControlServer.acceptedBy_append (congrArg ControlServer.lanes hf.lanes) rfl lane

/-- An open client that is handed out belongs to a session at the root of the target. -/
theorem Coherent.connected (h : host.Coherent none) (found : around.NamesWhatItFinds)
    (room : host.registry.lastId.toNat + 1 < 2 ^ 64) (target : ConnectTarget)
    (hopen : (host.tryConnect around target).2.server.isOpen (host.tryConnect around target).1 =
      true) :
    ∃ root session, rootOf around target = some root ∧ session.root.same root = true ∧
      session ∈ (host.tryConnect around target).2.registry.sessions ∧
      (host.tryConnect around target).1 = session.client ∧
      ∃ more, (host.tryConnect around target).2.calls = host.calls ++ more ∧
        .endWorking ∉ more := by
  rcases h.outcome found room target with hr | ⟨session, hs⟩ | ⟨popup, hf⟩
  · obtain ⟨root, session, hroot, hfind, hclient⟩ := hr.found
    obtain ⟨hm, hsame⟩ := h.indexed.findByRoot?_eq_some_iff.mp hfind
    refine ⟨root, session, hroot, hsame, ?_, hclient, [], ?_, List.not_mem_nil⟩
    · rw [hr.untouched]
      exact hm
    · rw [hr.untouched, List.append_nil]
  · obtain ⟨spec, -, -, hcalls⟩ := hs.launched
    refine ⟨session.root, session, hs.located, Path.same_refl _, ?_, hs.client.1, _, hcalls,
      by simp⟩
    rw [hs.registry]
    exact List.mem_cons_self
  · exact absurd (hf.closed.symm.trans hopen) nofun

/-- After an attempt whose client has no session the indicator is off. -/
theorem Coherent.released_of_unregistered (h : host.Coherent none)
    (found : around.NamesWhatItFinds) (room : host.registry.lastId.toNat + 1 < 2 ^ 64)
    (target : ConnectTarget)
    (gone : (host.tryConnect around target).2.registry.contains
      (host.tryConnect around target).1.session = false) :
    Released (host.tryConnect around target).2.calls := by
  have absent : ∀ session ∈ (host.tryConnect around target).2.registry.sessions,
      (host.tryConnect around target).1 ≠ session.client := by
    intro session hm hc
    have hcontains := Registry.contains_iff.mpr ⟨session, hm, congrArg Client.session hc.symm⟩
    exact absurd (gone.symm.trans hcontains) nofun
  rcases h.outcome found room target with hr | ⟨session, hs⟩ | ⟨popup, hf⟩
  · obtain ⟨root, session, -, hfind, hclient⟩ := hr.found
    have hm := (h.indexed.findByRoot?_eq_some_iff.mp hfind).1
    exact absurd hclient (absent session (hr.untouched.symm ▸ hm))
  · have hm : session ∈ (host.tryConnect around target).2.registry.sessions := by
      rw [hs.registry]
      exact List.mem_cons_self
    exact absurd hs.client.1 (absent session hm)
  · obtain ⟨before, -, hcalls⟩ := hf.told
    rw [hcalls]
    exact released_ended _ (by simp)

/-! ## What a submission comes to -/

/-- The evaluation makes the host look for this target. -/
def targetOf (evaluation : Evaluation) : ConnectTarget :=
  { origin := some evaluation.origin, path := evaluation.path }

/-- **An evaluation is delivered** to the lane of a session, and to no other. -/
structure Delivers (host : Host) (around : Surroundings) (evaluation : Evaluation)
    (session : Session) : Prop where
  located : ∃ root, rootOf around (targetOf evaluation) = some root ∧ session.root.same root = true
  registered : (host.submit around evaluation).2.registry.get? session.id = some session
  /-- No other session shares the lane. -/
  own : ∀ id other, (host.submit around evaluation).2.registry.get? id = some other →
    other.client.lane = session.client.lane → other = session
  accepted : ∀ lane, (host.submit around evaluation).2.server.acceptedBy lane =
    host.server.acceptedBy lane ++
      if lane = session.client.lane then
        [{ command := "editor.eval.fsharp", origin := evaluation.origin, info := evaluation.info }]
      else []
  working : ¬ Released (host.submit around evaluation).2.calls

/-- **An evaluation is withheld** from every lane. -/
structure Withholds (host : Host) (around : Surroundings) (evaluation : Evaluation) : Prop where
  accepted : ∀ lane, (host.submit around evaluation).2.server.acceptedBy lane =
    host.server.acceptedBy lane
  idle : Released (host.submit around evaluation).2.calls

/-- The attempt that a submission makes. -/
def connectFor (host : Host) (around : Surroundings) (evaluation : Evaluation) : Client × Host :=
  (host.tell (.beginWorking "")).tryConnect around (targetOf evaluation)

/-- **A submission is an attempt to connect and a send**; where the send is refused, a session that
is registered has its work ended. -/
theorem submit_eq (host : Host) (around : Surroundings) (evaluation : Evaluation) :
    host.submit around evaluation =
      match (host.connectFor around evaluation).2.server.send
          (host.connectFor around evaluation).1 evaluation.request with
      | .ok server => (.ok (), { (host.connectFor around evaluation).2 with server })
      | .error fault =>
        (.error fault,
          if (host.connectFor around evaluation).2.registry.contains
              (host.connectFor around evaluation).1.session
          then (host.connectFor around evaluation).2.tell .endWorking
          else (host.connectFor around evaluation).2) :=
  rfl

/-- **An evaluation that is accepted is delivered.** -/
theorem Coherent.delivers (h : host.Coherent none) (found : around.NamesWhatItFinds)
    (room : host.registry.lastId.toNat + 1 < 2 ^ 64)
    (hok : (host.submit around evaluation).1 = .ok ()) :
    ∃ session, host.Delivers around evaluation session := by
  have hbegun : (host.tell (.beginWorking "")).Coherent none := h.tell _
  have hafter := h.submit found room evaluation
  cases hsend : (host.connectFor around evaluation).2.server.send
      (host.connectFor around evaluation).1 evaluation.request with
  | error fault =>
    rw [submit_eq, hsend] at hok
    exact absurd hok nofun
  | ok server =>
    have hhost : (host.submit around evaluation).2 =
        { (host.connectFor around evaluation).2 with server } := by
      rw [submit_eq, hsend]
    obtain ⟨root, session, hroot, hsame, hm, hclient, more, hcalls, hmore⟩ :=
      hbegun.connected found room (targetOf evaluation) (ControlServer.isOpen_of_send hsend)
    have hregistered : session ∈ (host.submit around evaluation).2.registry.sessions := by
      rw [hhost]
      exact hm
    refine ⟨session, ⟨root, hroot, hsame⟩,
      hafter.indexed.get?_eq_some_iff.mpr ⟨hregistered, rfl⟩, fun id other hg hlane => ?_,
      fun lane => ?_, fun hr => hmore ?_⟩
    · have ho := (hafter.indexed.get?_eq_some_iff.mp hg).1
      refine hafter.indexed.eq_of_id ho hregistered (hafter.sound.current_inj
        (hafter.lane session hregistered) ((hafter.lane other ho).trans (congrArg some hlane)))
    · have hkept : (host.connectFor around evaluation).2.server.acceptedBy lane =
          host.server.acceptedBy lane :=
        hbegun.acceptedBy_tryConnect found room (targetOf evaluation) lane
      rw [hhost, ← hkept, ← hclient]
      exact ControlServer.acceptedBy_send hsend lane
    · refine hr host.calls "" more ?_
      rw [hhost]
      exact hcalls.trans (List.append_assoc host.calls _ _)

/-- **An evaluation that is refused is withheld.** -/
theorem Coherent.withholds (h : host.Coherent none) (found : around.NamesWhatItFinds)
    (room : host.registry.lastId.toNat + 1 < 2 ^ 64) {fault : SessionFault}
    (herror : (host.submit around evaluation).1 = .error fault) :
    host.Withholds around evaluation := by
  have hbegun : (host.tell (.beginWorking "")).Coherent none := h.tell _
  cases hsend : (host.connectFor around evaluation).2.server.send
      (host.connectFor around evaluation).1 evaluation.request with
  | ok server =>
    rw [submit_eq, hsend] at herror
    exact absurd herror nofun
  | error fault =>
    have hhost : (host.submit around evaluation).2 =
        if (host.connectFor around evaluation).2.registry.contains
            (host.connectFor around evaluation).1.session
        then (host.connectFor around evaluation).2.tell .endWorking
        else (host.connectFor around evaluation).2 := by
      rw [submit_eq, hsend]
    have hserver : (host.submit around evaluation).2.server =
        (host.connectFor around evaluation).2.server := by
      rw [hhost]
      split <;> rfl
    refine ⟨fun lane => ?_, ?_⟩
    · rw [hserver]
      exact hbegun.acceptedBy_tryConnect found room (targetOf evaluation) lane
    · rw [hhost]
      split
      · exact released_ended _ (by simp)
      · rename_i hgone
        exact hbegun.released_of_unregistered found room (targetOf evaluation)
          (Bool.eq_false_iff.mpr hgone)

/-- **Submitting is exact and never broadcasts.** In every state that a host can be in, and for
every evaluation, an answer without a fault means that the request stands at the end of the lane of
one session, of the root that the evaluation belongs to, and nowhere else, and that the indicator is
on; a fault means that no lane has accepted anything, and that the indicator is off. -/
theorem submission_is_exact (settings : Settings) (store : Option Path)
    (searchPath : Option String) (port : UInt16) {deeds : List Deed} {around : Surroundings}
    (found : ∀ deed ∈ deeds, ∀ other, deed.around? = some other → other.NamesWhatItFinds)
    (names : around.NamesWhatItFinds) (few : tries deeds + 1 < 2 ^ 64)
    (evaluation : Evaluation) :
    let host := (start settings store searchPath port).live deeds
    ((host.submit around evaluation).1 = .ok () →
        ∃ session, host.Delivers around evaluation session) ∧
      ∀ fault, (host.submit around evaluation).1 = .error fault →
        host.Withholds around evaluation := by
  intro host
  obtain ⟨h, room⟩ := reached_coherent settings store searchPath port found few
  exact ⟨h.delivers names room, fun _ => h.withholds names room⟩

/-- A second evaluation is delivered while the bridge is there, and withheld once it has hung up. -/
theorem withheld_after_a_loss :
    let evaluation : Evaluation := { origin := ⟨1⟩, path := some ⟨"/work"⟩, info := {} }
    let before : List Deed :=
      [.take (.submit .furnished evaluation), .take (.greet { session := ⟨1⟩ })]
    let host := (start .fresh none none 0).live before
    let lost := (start .fresh none none 0).live (before ++ [.take (.hangUp 0)])
    (∃ session, host.Delivers .furnished evaluation session) ∧
      lost.Withholds .furnished evaluation := by
  intro evaluation before host lost
  have found : ∀ deed ∈ before ++ [.take (.hangUp 0)], ∀ other, deed.around? = some other →
      other.NamesWhatItFinds := by
    intro deed hm other ho
    obtain rfl | rfl | rfl : _ ∨ _ ∨ _ := by simpa [before] using hm
    · obtain rfl := Option.some.inj ho
      exact Surroundings.furnished_names
    all_goals exact absurd ho nofun
  obtain ⟨hok, -⟩ := submission_is_exact .fresh none none 0
    (fun deed hm => found deed (List.mem_append_left _ hm)) Surroundings.furnished_names
    (by decide) evaluation
  obtain ⟨-, herror⟩ := submission_is_exact .fresh none none 0 found Surroundings.furnished_names
    (by decide) evaluation
  exact ⟨hok (by decide +kernel), herror (.channelClosed ⟨1⟩) (by decide +kernel)⟩

end Host

end InlineRepl
