import InlineRepl.Control.Bridge
import InlineRepl.Proofs.Control.Lanes
import Mathlib.Data.List.Induction

/-!
# Clients and bridges on one control server

`Exchange.step` lets everything that has a hand in a control server act, in any order: sessions are
opened, opened again and removed, any clone of a client sends, bridges dial in and greet with
whatever they like, a bridge is written the next request, responds, and is lost.

Connections are numbered by their greetings. An exchange remembers what each of them has claimed,
which requests have been accepted and for which lane, what has been written and on which connection,
and which events have been emitted because of whom. A lane stands for one opened client: opening an
id again makes a new lane.

Results:
* `send_ok`, `greet_some`, `transmit_some`: what it takes for each of them to succeed.
* `transmit_next`: what is next in the queue of an attached lane can be written.
* `greet_none`: who greets in vain.
* `server_step`: a move opens an id, removes one, or leaves all ids as they are.
* `contains_run`: an id is open when it has been opened after it was last removed.
-/

namespace InlineRepl

/-- One request on its way to a bridge. -/
structure Writing where
  connection : Nat
  lane : Nat
  request : EvalRequest

/-- A control server and its history. -/
structure Exchange where
  server : ControlServer := {}
  /-- What each connection has claimed with its greeting, if anything. -/
  claims : List (Option Nat) := []
  /-- Lane and request of every send that was accepted. -/
  accepted : List (Nat × EvalRequest) := []
  written : List Writing := []
  /-- Every event, with the connection that it comes from. -/
  events : List (Nat × SessionEvent) := []

/-- Something that one of the parties does. -/
inductive Exchange.Move where
  | open_ (session : SessionId)
  | remove (session : SessionId)
  | send (client : Client) (request : EvalRequest)
  /-- A new connection greets. -/
  | greet (hello : Hello)
  /-- A connection is written its next request. -/
  | write (connection : Nat)
  | respond (connection : Nat) (record : Inbound)
  /-- A connection is lost. -/
  | lose (connection : Nat)

namespace ControlServer

variable {server after : ControlServer} {client : Client} {request : EvalRequest} {hello : Hello}
  {n : Nat}

theorem send_ok (h : server.send client request = .ok after) :
    ∃ lane, server.lanes[client.lane]? = some lane ∧
      after = server.update client.lane fun l =>
        { l with accepted := l.accepted ++ [request] } := by
  unfold send at h
  split at h
  · rename_i lane hl
    split at h
    · exact ⟨lane, hl, (Except.ok.inj h).symm⟩
    · exact absurd h nofun
  · exact absurd h nofun

theorem greet_some (h : server.greet hello = some (n, after)) :
    ∃ lane, server.current? hello.session = some n ∧ server.lanes[n]? = some lane ∧
      lane.reader = .awaited ∧ after = server.update n fun l => { l with reader := .attached } := by
  unfold greet at h
  split at h
  · exact absurd h nofun
  · rename_i m hc
    split at h
    · rename_i hl
      obtain ⟨rfl, rfl⟩ := Prod.mk.inj (Option.some.inj h)
      exact ⟨_, hc, hl, rfl, rfl⟩
    · exact absurd h nofun

/-- **A greeting is in vain** where the id has no lane, and where its lane has had a bridge. -/
theorem greet_none (h : server.contains hello.session = false ∨
      ∃ n lane, server.current? hello.session = some n ∧ server.lanes[n]? = some lane ∧
        lane.reader ≠ .awaited) : server.greet hello = none := by
  unfold greet
  rcases h with hc | ⟨n, lane, hc, hl, hr⟩
  · have hnone : server.current? hello.session = none := by
      simpa [contains] using hc
    rw [hnone]
  · rw [hc]
    dsimp only
    rw [hl]
    split
    · rename_i he
      obtain rfl := Option.some.inj he
      exact absurd rfl hr
    · rfl

theorem transmit_some (h : server.transmit n = some (request, after)) :
    ∃ lane, server.lanes[n]? = some lane ∧ lane.accepted[lane.written]? = some request ∧
      after = server.update n fun l => { l with written := l.written + 1 } := by
  unfold transmit at h
  split at h
  · rename_i lane hl
    split at h
    · split at h
      · rename_i hr
        obtain ⟨rfl, rfl⟩ := Prod.mk.inj (Option.some.inj h)
        exact ⟨lane, hl, hr, rfl⟩
      · exact absurd h nofun
    · exact absurd h nofun
  · exact absurd h nofun

/-- **A request that is next** in the queue of an attached lane can be written. -/
theorem transmit_next {lane : Lane} (hl : server.lanes[n]? = some lane)
    (hr : lane.reader = .attached) (hq : lane.accepted[lane.written]? = some request) :
    server.transmit n =
      some (request, server.update n fun l => { l with written := l.written + 1 }) := by
  unfold transmit
  rw [hl]
  dsimp only
  rw [if_pos hr, hq]

end ControlServer

namespace Exchange

variable {x : Exchange} {move : Move} {moves : List Move} {n c : Nat}

/-- The lane that a connection is attached to. -/
def attached? (x : Exchange) (connection : Nat) : Option (Nat × Lane) :=
  match x.claims[connection]? with
  | some (some n) =>
    match x.server.lanes[n]? with
    | some lane => if lane.reader = .attached then some (n, lane) else none
    | none => none
  | _ => none

/-- Lets one party act. -/
def step (x : Exchange) : Move → Exchange
  | .open_ session => { x with server := (x.server.open_ session).2 }
  | .remove session => { x with server := (x.server.remove session).2 }
  | .send client request =>
    match x.server.send client request with
    | .ok server => { x with server, accepted := x.accepted ++ [(client.lane, request)] }
    | .error _ => x
  | .greet hello =>
    match x.server.greet hello with
    | some (n, server) =>
      { x with
        server
        claims := x.claims ++ [some n]
        events := x.events ++ [(x.claims.length, ⟨hello.session, .attached⟩)] }
    | none => { x with claims := x.claims ++ [none] }
  | .write connection =>
    match x.attached? connection with
    | some (n, _) =>
      match x.server.transmit n with
      | some (request, server) =>
        { x with server, written := x.written ++ [⟨connection, n, request⟩] }
      | none => x
    | none => x
  | .respond connection record =>
    match x.attached? connection with
    | some (_, lane) =>
      { x with events := x.events ++ [(connection, ⟨lane.session, .inbound record⟩)] }
    | none => x
  | .lose connection =>
    match x.attached? connection with
    | some (n, lane) =>
      { x with
        server := x.server.hangUp n
        events := x.events ++ [(connection, ⟨lane.session, .detached⟩)] }
    | none => x

/-- Lets the parties act one after the other. -/
def run (x : Exchange) (moves : List Move) : Exchange :=
  moves.foldl step x

@[simp] theorem run_nil (x : Exchange) : x.run [] = x := rfl

@[simp] theorem run_cons (x : Exchange) (move : Move) (moves : List Move) :
    x.run (move :: moves) = (x.step move).run moves := rfl

theorem run_snoc (x : Exchange) (moves : List Move) (move : Move) :
    x.run (moves ++ [move]) = (x.run moves).step move :=
  List.foldl_append

/-- The requests accepted for a lane, in the order of the sends. -/
def acceptedOn (x : Exchange) (n : Nat) : List EvalRequest :=
  x.accepted.filterMap fun entry => if entry.1 = n then some entry.2 else none

/-- The requests of a lane that have been written, in order. -/
def writtenOn (x : Exchange) (n : Nat) : List EvalRequest :=
  x.written.filterMap fun writing => if writing.lane = n then some writing.request else none

/-- What is attached has claimed its lane. -/
theorem attached?_eq_some_iff {lane : Lane} : x.attached? c = some (n, lane) ↔
    x.claims[c]? = some (some n) ∧ x.server.lanes[n]? = some lane ∧ lane.reader = .attached := by
  constructor
  · intro h
    unfold attached? at h
    split at h
    · rename_i m hm
      split at h
      · rename_i l hl
        split at h
        · rename_i hr
          obtain ⟨rfl, rfl⟩ := Prod.mk.inj (Option.some.inj h)
          exact ⟨hm, hl, hr⟩
        · exact absurd h nofun
      · exact absurd h nofun
    · exact absurd h nofun
  · rintro ⟨hc, hl, hr⟩
    unfold attached?
    rw [hc]
    dsimp only
    rw [hl]
    dsimp only
    rw [if_pos hr]

/-! ## Which ids are open -/

/-- What a move makes of the ids that are open. -/
def Move.opens (id : SessionId) (isOpen : Bool) : Move → Bool
  | .open_ session => decide (session = id) || isOpen
  | .remove session => decide (session ≠ id) && isOpen
  | _ => isOpen

/-- An id has been opened, and not removed since. -/
def isOpenAfter (id : SessionId) (moves : List Move) : Bool :=
  moves.foldl (Move.opens id) false

/-- **A move opens an id, removes one, or is traffic.** -/
theorem server_step (x : Exchange) (move : Move) :
    (∃ id, move = .open_ id ∧ (x.step move).server = (x.server.open_ id).2) ∨
      (∃ id, move = .remove id ∧ (x.step move).server = (x.server.remove id).2) ∨
      (∀ id, move ≠ .open_ id ∧ move ≠ .remove id) ∧ x.server.Traffic (x.step move).server := by
  cases move with
  | open_ session => exact .inl ⟨session, rfl, rfl⟩
  | remove session => exact .inr (.inl ⟨session, rfl, rfl⟩)
  | send client request =>
    refine .inr (.inr ⟨fun _ => ⟨nofun, nofun⟩, ?_⟩)
    simp only [step]
    split
    · rename_i hsend
      exact ControlServer.traffic_send hsend
    · exact .refl
  | greet hello =>
    refine .inr (.inr ⟨fun _ => ⟨nofun, nofun⟩, ?_⟩)
    simp only [step]
    split
    · rename_i hgreet
      exact ControlServer.traffic_greet hgreet
    · exact .refl
  | write connection =>
    refine .inr (.inr ⟨fun _ => ⟨nofun, nofun⟩, ?_⟩)
    simp only [step]
    split
    · split
      · rename_i hsent
        exact ControlServer.traffic_transmit hsent
      · exact .refl
    · exact .refl
  | respond connection record =>
    refine .inr (.inr ⟨fun _ => ⟨nofun, nofun⟩, ?_⟩)
    simp only [step]
    split <;> exact .refl
  | lose connection =>
    refine .inr (.inr ⟨fun _ => ⟨nofun, nofun⟩, ?_⟩)
    simp only [step]
    split
    · exact ControlServer.traffic_hangUp _ _
    · exact .refl

/-- Whatever is moved, the server changes as a server does. -/
theorem change_step (x : Exchange) (move : Move) : x.server.Change (x.step move).server := by
  rcases x.server_step move with ⟨id, -, h⟩ | ⟨id, -, h⟩ | ⟨-, h⟩
  · rw [h]
    exact .open_ id
  · rw [h]
    exact .remove id
  · exact .traffic h

theorem contains_step (id : SessionId) :
    (x.step move).server.contains id = move.opens id (x.server.contains id) := by
  unfold ControlServer.contains
  rcases x.server_step move with ⟨session, rfl, h⟩ | ⟨session, rfl, h⟩ | ⟨hquiet, h⟩
  · rw [h, ControlServer.current?_open_]
    by_cases he : id = session
    · simp [Move.opens, he]
    · simp [Move.opens, he, Ne.symm he]
  · rw [h, ControlServer.current?_remove]
    by_cases he : id = session
    · simp [Move.opens, he]
    · simp [Move.opens, he, Ne.symm he]
  · rw [h.current?]
    cases move with
    | open_ session => exact absurd rfl (hquiet session).1
    | remove session => exact absurd rfl (hquiet session).2
    | send | greet | write | respond | lose => rfl

/-- **An id has a lane exactly when it is open.** -/
theorem contains_run (id : SessionId) (moves : List Move) :
    (({} : Exchange).run moves).server.contains id = isOpenAfter id moves := by
  induction moves using List.reverseRecOn with
  | nil => rfl
  | append_singleton moves move ih =>
    rw [run_snoc, contains_step, ih]
    unfold isOpenAfter
    rw [List.foldl_append]
    rfl

end Exchange

end InlineRepl
