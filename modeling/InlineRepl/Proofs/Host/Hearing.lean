import InlineRepl.Proofs.Host.Frame
import InlineRepl.Proofs.Process.Supervision

/-!
# A session connects when its process prints the marker

What a supervisor tells of a process reaches the host as events, with anything else in between:
events of other sessions, evaluations, connections, disconnections of other roots, bridges coming
and going. However the output of the process was cut into reads, and whatever bytes it holds, the
session is connected as soon as the bytes read from standard output hold the marker, and not before.
An exit counts as a failed start exactly where they never did.

Results:
* `Coherent.mem_take`: a turn brings in sessions whose handshake has just begun, and no others.
* `Coherent.hears`, `hears_run`: a handshake takes what the session's process says, in order, and
  nothing else.
* `connected_iff_marker_read`: the theorem above, for every run of a host and of a supervisor.
-/

namespace InlineRepl

/-- The happening comes from the process: its output, or its exit. -/
def Happening.ofProcess : Happening → Bool
  | .stdout _ | .stderr _ | .exit _ => true
  | .attached | .inbound _ | .detached => false

namespace Host

variable {host : Host} {s t : Session} {id : SessionId} {turn : Turn}

namespace Turn

/-- What the process of a session says in a turn. -/
def said (id : SessionId) : Turn → List Happening
  | .event what => if what.session = id ∧ what.happening.ofProcess then [what.happening] else []
  | _ => []

theorem said_of_quiet (quiet : ∀ event, turn ≠ .event event) (id : SessionId) :
    turn.said id = [] := by
  cases turn with
  | event event => exact absurd rfl (quiet event)
  | _ => rfl

end Turn

/-- What the process of a session says in turns, in order. -/
def said (id : SessionId) (turns : List Turn) : List Happening :=
  turns.flatMap (Turn.said id)

/-! ## One turn -/

/-- **A turn brings in sessions whose handshake has just begun**, and no others. -/
theorem Coherent.mem_take (h : host.Coherent none)
    (found : ∀ around, turn.around? = some around → around.NamesWhatItFinds)
    (room : turn.connects = true → host.registry.lastId.toNat + 1 < 2 ^ 64)
    (ht : t ∈ (host.take turn).registry.sessions) :
    (∃ s ∈ host.registry.sessions, s.id = t.id) ∨ t.handshake = { stage := .connecting } := by
  have hold : t ∈ host.registry.sessions → (∃ s ∈ host.registry.sessions, s.id = t.id) ∨
      t.handshake = { stage := .connecting } := fun hm => .inl ⟨t, hm, rfl⟩
  cases turn.effect host with
  | still _ hr =>
    rw [hr] at ht
    exact hold ht
  | attempt _ calls around target ha hc hr =>
    rw [hr] at ht
    have hcases := (h.told calls).mem_tryConnect_cases (found around ha) (room hc) ht
    exact hcases.elim hold .inr
  | disconnect _ root _ hr =>
    rw [hr] at ht
    exact hold (mem_of_mem_disconnect ht)
  | event event => exact .inl (id_of_mem_handleEvent ht)

/-- **A turn does to a handshake what the session's process says in it**, as long as it neither
disconnects the session nor brings its exit. -/
theorem Coherent.hears (h : host.Coherent none)
    (room : turn.connects = true → host.registry.lastId.toNat + 1 < 2 ^ 64)
    (hm : s ∈ host.registry.sessions) (hd : turn.disconnects s.root = false)
    (hx : ∀ code, .exit code ∉ turn.said s.id) :
    ∃ t ∈ (host.take turn).registry.sessions,
      t.id = s.id ∧ t.root = s.root ∧
        t.handshake = (turn.said s.id).foldl Handshake.hear s.handshake := by
  have hquiet : (∀ event, turn ≠ .event event) → s ∈ (host.take turn).registry.sessions →
      ∃ t ∈ (host.take turn).registry.sessions, t.id = s.id ∧ t.root = s.root ∧
        t.handshake = (turn.said s.id).foldl Handshake.hear s.handshake := by
    intro quiet hs
    rw [Turn.said_of_quiet quiet]
    exact ⟨s, hs, rfl, rfl, rfl⟩
  cases turn.effect host with
  | still quiet hr => exact hquiet quiet (hr ▸ hm)
  | attempt quiet calls around target _ hc hr =>
    exact hquiet quiet (hr ▸ (h.told calls).mem_tryConnect (room hc) target hm)
  | disconnect quiet root hroot hr =>
    rw [hroot] at hd
    exact hquiet quiet (hr ▸ h.mem_disconnect hm hd)
  | event event =>
    obtain ⟨session, happening⟩ := event
    by_cases he : s.id = session
    · subst he
      have hsaid : ∀ other, (Turn.event ⟨s.id, other⟩).said s.id =
          if other.ofProcess then [other] else [] := by
        intro other
        simp [Turn.said]
      rw [hsaid] at hx ⊢
      have hnx : ∀ code, happening ≠ .exit code := by
        rintro code rfl
        exact hx code List.mem_cons_self
      obtain ⟨t, ht, hid, hroot, hh⟩ := h.hears_event hm hnx
      refine ⟨t, ht, hid, hroot, hh.trans ?_⟩
      cases happening <;> rfl
    · have hsaid : (Turn.event ⟨session, happening⟩).said s.id = [] :=
        if_neg fun hc => he hc.1.symm
      rw [hsaid]
      exact ⟨s, mem_handleEvent_other hm he, rfl, rfl, rfl⟩

/-! ## Runs -/

/-- **In a run a handshake takes what the session's process says**, in order, and nothing else. -/
theorem hears_run : ∀ (turns : List Turn) (host : Host) (s : Session), host.Coherent none →
    (∀ turn ∈ turns, ∀ around, turn.around? = some around → around.NamesWhatItFinds) →
    host.registry.lastId.toNat + attempts turns < 2 ^ 64 → s ∈ host.registry.sessions →
    (∀ turn ∈ turns, turn.disconnects s.root = false) → (∀ code, .exit code ∉ said s.id turns) →
    ∃ t ∈ (host.run turns).registry.sessions,
      t.id = s.id ∧ t.handshake = (said s.id turns).foldl Handshake.hear s.handshake
  | [], _, s, _, _, _, hm, _, _ => ⟨s, hm, rfl, rfl⟩
  | turn :: turns, host, s, h, found, room, hm, hd, hx => by
    rw [attempts_cons] at room
    have hroom : turn.connects = true → host.registry.lastId.toNat + 1 < 2 ^ 64 := by
      intro hc
      rw [hc, if_pos rfl] at room
      omega
    have hsaid : said s.id (turn :: turns) = turn.said s.id ++ said s.id turns :=
      List.flatMap_cons
    rw [hsaid] at hx ⊢
    obtain ⟨next, hnm, hid, hroot, hh⟩ := h.hears hroom hm (hd turn List.mem_cons_self)
      fun code hc => hx code (List.mem_append_left _ hc)
    have htake := h.take (found turn List.mem_cons_self) hroom
    have hlast := lastId_take_le host turn
    rw [← hid] at hx ⊢
    obtain ⟨t, htm, htid, hth⟩ := hears_run turns (host.take turn) next htake
      (fun other ho => found other (List.mem_cons_of_mem _ ho)) (by omega) hnm
      (fun other ho => hroot ▸ hd other (List.mem_cons_of_mem _ ho))
      fun code hc => hx code (List.mem_append_right _ hc)
    refine ⟨t, htm, htid, ?_⟩
    rw [List.foldl_append, hid, ← hh, ← hid]
    exact hth

/-! ## The marker -/

open Handshake (Tracks)
open Text (asciiBytes)

theorem tracks_hear {h : Handshake} {out : List Char} (ht : h.Tracks out) (happening : Happening) :
    (h.hear happening).Tracks (out ++ Output.out.heard happening) := by
  cases happening with
  | stdout text => exact ht.onStdout text
  | stderr text => exact (List.append_nil out).symm ▸ ht.onStderr text
  | _ => exact (List.append_nil out).symm ▸ ht

/-- A handshake that has heard all a supervisor told has found the marker if it was there. -/
theorem tracks_told : ∀ (told : List Happening) {h : Handshake} {out : List Char}, h.Tracks out →
    (told.foldl Handshake.hear h).Tracks (out ++ Supervisor.heard .out told)
  | [], _, out, ht => (List.append_nil out).symm ▸ ht
  | happening :: told, h, out, ht => by
    have hrest := tracks_told told (tracks_hear ht happening)
    rw [List.append_assoc] at hrest
    exact hrest

theorem calls_release : (host.release id).calls = host.calls := by
  unfold release
  split <;> rfl

theorem calls_forget : (host.forget id).calls = host.calls := by
  unfold forget
  split <;> rfl

/-- **An exit is reported as a failed start** unless the handshake is complete. -/
theorem calls_exit (hg : host.registry.get? id = some s) (code : Option Int) :
    (host.handleEvent { session := id, happening := .exit code }).calls =
      host.calls ++
        if s.isConnected then []
        else [.endWorking, .popup (.connectFailed s.handshake.buffer)] := by
  have hexit : host.handleEvent { session := id, happening := .exit code } = host.onExit id s :=
    handleEvent_registered hg _
  rw [hexit]
  rcases onExit_cases host id s with ⟨hc, hx⟩ | ⟨hn, handshake, hx⟩
  · rw [hx, calls_forget, hc, if_pos rfl, List.append_nil]
    rfl
  · rw [hx, hn, if_neg Bool.false_ne_true]
    unfold failSession
    rw [calls_release]
    exact List.append_assoc host.calls _ _

/-- A session that has heard nothing yet is connected when the bytes that a supervisor has read from
standard output hold the marker, once what the supervisor told has been delivered. An exit that
comes then is reported as a failed start unless they do. -/
theorem Coherent.connected_iff (h : host.Coherent none) {turns : List Turn} {stirs : List Stir}
    {supervisor : Supervisor}
    (found : ∀ turn ∈ turns, ∀ around, turn.around? = some around → around.NamesWhatItFinds)
    (room : host.registry.lastId.toNat + attempts turns < 2 ^ 64)
    (hm : s ∈ host.registry.sessions) (fresh : s.handshake = { stage := .connecting })
    (stays : ∀ turn ∈ turns, turn.disconnects s.root = false)
    (watched : ({} : Supervisor).run? stirs = some supervisor)
    (unfinished : supervisor.finished = false) (delivered : said s.id turns = supervisor.told) :
    ∃ now, (host.run turns).registry.get? s.id = some now ∧
      (now.isConnected = true ↔
        asciiBytes Handshake.marker <:+: Supervisor.bytesRead .out stirs) ∧
      ∀ code, ((host.run turns).handleEvent { session := s.id, happening := .exit code }).calls =
        (host.run turns).calls ++ if now.isConnected then []
          else [.endWorking, .popup (.connectFailed now.handshake.buffer)] := by
  have hnoexit : ∀ code, .exit code ∉ said s.id turns := by
    rw [delivered]
    intro code hc
    obtain ⟨output, text, he⟩ := Supervisor.no_exit_before_end rfl watched unfinished hc
    cases output <;> exact absurd he nofun
  obtain ⟨now, hnow, hid, hh⟩ := hears_run turns host s h found room hm stays hnoexit
  have hall := run_coherent turns host h found room
  have htracks := tracks_told supervisor.told Handshake.tracks_start
  rw [← fresh, ← delivered, ← hh, delivered, List.nil_append] at htracks
  refine ⟨now, hall.indexed.get?_eq_some_iff.mpr ⟨hnow, hid⟩, ?_, fun code => ?_⟩
  · rw [← Supervisor.word_told_iff .out watched Handshake.marker_ascii Handshake.marker_ne_nil]
    exact beq_iff_eq.trans htracks.connected_iff
  · rw [← hid]
    exact calls_exit (hall.indexed.get?_eq_some_iff.mpr ⟨hnow, rfl⟩) code

/-- A session that was not registered before a turn has heard nothing after it. -/
theorem Coherent.fresh_of_new (h : host.Coherent none)
    (found : ∀ around, turn.around? = some around → around.NamesWhatItFinds)
    (room : turn.connects = true → host.registry.lastId.toNat + 1 < 2 ^ 64)
    (new : host.registry.contains t.id = false) (ht : t ∈ (host.take turn).registry.sessions) :
    t.handshake = { stage := .connecting } := by
  rcases h.mem_take found room ht with ⟨s, hs, hid⟩ | hfresh
  · rw [Registry.contains_iff.mpr ⟨s, hs, hid⟩] at new
    exact absurd new (by simp)
  · exact hfresh

/-- **A session is connected when the bytes read from its process hold the marker**, and not before.

A turn brings the session in, and its root is not disconnected afterwards. A supervisor reads its
process, in any chunks, and what it has told reaches the host in any run of turns. An exit that
comes then is reported as a failed start unless standard output held the marker. -/
theorem connected_iff_marker_read (settings : Settings) (store : Option Path)
    (searchPath : Option String) (port : UInt16) {before after : List Turn} {session : Session}
    {stirs : List Stir} {supervisor : Supervisor}
    (found : ∀ t ∈ before ++ turn :: after, ∀ around, t.around? = some around →
      around.NamesWhatItFinds)
    (few : attempts (before ++ turn :: after) < 2 ^ 64)
    (new : ((start settings store searchPath port).run before).registry.contains session.id = false)
    (came : (((start settings store searchPath port).run before).take turn).registry.get?
      session.id = some session)
    (stays : ∀ t ∈ after, t.disconnects session.root = false)
    (watched : ({} : Supervisor).run? stirs = some supervisor)
    (unfinished : supervisor.finished = false)
    (delivered : said session.id after = supervisor.told) :
    let host := (start settings store searchPath port).run (before ++ turn :: after)
    let printed := asciiBytes "Connected".toList <:+: Supervisor.bytesRead .out stirs
    (∃ now, host.registry.get? session.id = some now ∧ (now.isConnected = true ↔ printed)) ∧
      ∀ code, let exited := host.handleEvent { session := session.id, happening := .exit code }
        (printed → exited.calls = host.calls) ∧
          (¬ printed → ∃ report,
            exited.calls = host.calls ++ [.endWorking, .popup (.connectFailed report)]) := by
  have hcount : attempts (before ++ turn :: after) =
      attempts before + (attempts after + if turn.connects then 1 else 0) := by
    rw [← attempts_cons]
    exact List.countP_append
  have hzero : (start settings store searchPath port).registry.lastId.toNat = 0 := rfl
  have hlast := lastId_run_le before (start settings store searchPath port)
  have hnext := lastId_take_le ((start settings store searchPath port).run before) turn
  have hbefore := run_coherent before _ (start_coherent settings store searchPath port)
    (fun t ht => found t (List.mem_append_left _ ht)) (by omega)
  have hturn := found turn (List.mem_append_right _ List.mem_cons_self)
  have hroom : turn.connects = true →
      ((start settings store searchPath port).run before).registry.lastId.toNat + 1 < 2 ^ 64 := by
    intro hc
    rw [hc, if_pos rfl] at hcount
    omega
  have hmem := (Registry.mem_of_get? came).1
  obtain ⟨now, hnow, hiff, hexit⟩ := (hbefore.take hturn hroom).connected_iff
    (fun t ht => found t (List.mem_append_right _ (List.mem_cons_of_mem _ ht))) (by omega) hmem
    (hbefore.fresh_of_new hturn hroom new hmem) stays watched unfinished delivered
  rw [← run_cons, ← run_append] at hnow hexit
  refine ⟨⟨now, hnow, hiff⟩, fun code => ⟨fun hp => ?_, fun hp => ?_⟩⟩
  · rw [hexit, if_pos (hiff.mpr hp), List.append_nil]
  · exact ⟨_, (hexit code).trans (by rw [if_neg (mt hiff.mp hp)])⟩

/-- A session is connected by a marker that is cut in two, behind a byte that is not UTF-8 and with
an error between the halves. -/
theorem connected_by_a_cut_marker :
    let turn : Turn := .tryConnect .furnished { origin := some ⟨1⟩, path := some ⟨"/work"⟩ }
    let after : List Turn :=
      [.event ⟨⟨1⟩, .stdout "\uFFFDConn"⟩, .event ⟨⟨1⟩, .stderr "!"⟩, .event ⟨⟨1⟩, .stdout "ected"⟩]
    let host := (start .fresh none none 0).run ([] ++ turn :: after)
    ∃ now, host.registry.get? ⟨1⟩ = some now ∧ now.isConnected = true := by
  intro turn after host
  obtain ⟨session, came⟩ : ∃ session,
      (((start .fresh none none 0).run []).take turn).registry.get? ⟨1⟩ = some session :=
    Option.isSome_iff_exists.mp (by decide +kernel)
  have hid : session.id = ⟨1⟩ := (Registry.mem_of_get? came).2
  have watched : ({} : Supervisor).run?
      [.bytes .out [0xFF, 0x43, 0x6F, 0x6E, 0x6E], .bytes .err [0x21],
        .bytes .out [0x65, 0x63, 0x74, 0x65, 0x64]] =
      some { told := [.stdout "\uFFFDConn", .stderr "!", .stdout "ected"] } := by
    decide +kernel
  have found : ∀ t ∈ [] ++ turn :: after, ∀ around, t.around? = some around →
      around.NamesWhatItFinds := by
    intro t ht around ha
    obtain rfl | rfl | rfl | rfl : _ ∨ _ ∨ _ ∨ _ := by simpa [after] using ht
    · obtain rfl := Option.some.inj ha
      exact Surroundings.furnished_names
    all_goals exact absurd ha nofun
  have stays : ∀ t ∈ after, t.disconnects session.root = false := by
    intro t ht
    obtain rfl | rfl | rfl : _ ∨ _ ∨ _ := by simpa [after] using ht
    all_goals rfl
  rw [← hid] at came ⊢
  obtain ⟨⟨now, hnow, hiff⟩, -⟩ := connected_iff_marker_read .fresh none none 0 found (by decide)
    rfl came stays watched rfl (by rw [hid]; decide +kernel)
  exact ⟨now, hnow, hiff.mpr (by decide +kernel)⟩

end Host

end InlineRepl
