import InlineRepl.Wire.Request
import InlineRepl.Session.Fault

/-!
# The control server

Every session that is opened gets a *lane*: a queue of requests that one bridge may claim, once. The
server keeps the lane that is current for each session id; opening an id again, and removing it,
closes the lane that was current.

A request is accepted while the lane is open and its bridge, if one ever came, is still there. What
has been accepted is written to the bridge in order, one request at a time. A bridge whose lane is
closed may still be sent some of it before it hangs up.
-/

namespace InlineRepl

/-- Who reads the requests of a lane. -/
inductive Reader where
  /-- Nobody has claimed the queue yet. -/
  | awaited
  | attached
  /-- The bridge that had claimed the queue is gone. -/
  | lost
  deriving Repr, DecidableEq

/-- One opened queue. -/
structure Lane where
  session : SessionId
  isOpen : Bool := true
  reader : Reader := .awaited
  /-- The requests accepted so far, in order. -/
  accepted : List EvalRequest := []
  /-- How many of them the bridge has been sent. -/
  written : Nat := 0
  deriving Repr, DecidableEq

/-- The sending end of a lane. -/
structure Client where
  session : SessionId
  lane : Nat
  deriving Repr, DecidableEq

/-- All lanes ever opened, and the current one of each session id. -/
structure ControlServer where
  lanes : List Lane := []
  current : List (SessionId × Nat) := []
  deriving Repr, DecidableEq

namespace ControlServer

/-- Changes one lane. -/
def update (server : ControlServer) (lane : Nat) (change : Lane → Lane) : ControlServer :=
  { server with lanes := server.lanes.modify lane change }

/-- Closes a lane. -/
def close (server : ControlServer) (lane : Nat) : ControlServer :=
  server.update lane fun l => { l with isOpen := false }

/-- The current lane of a session id. -/
def current? (server : ControlServer) (session : SessionId) : Option Nat :=
  server.current.lookup session

/-- The server has a current lane for the id. -/
def contains (server : ControlServer) (session : SessionId) : Bool :=
  (server.current? session).isSome

/-- The entries of the other ids. -/
def others (server : ControlServer) (session : SessionId) : List (SessionId × Nat) :=
  server.current.filter fun entry => decide (entry.1 ≠ session)

/-- Closes the current lane of an id, if it has one. -/
def closeCurrent (server : ControlServer) (session : SessionId) : ControlServer :=
  match server.current? session with
  | some lane => server.close lane
  | none => server

/-- Opens a lane for an id, in place of the one that was current. -/
def open_ (server : ControlServer) (session : SessionId) : Client × ControlServer :=
  let lane := server.lanes.length
  let closed := server.closeCurrent session
  ({ session, lane },
    { lanes := closed.lanes ++ [{ session }]
      current := (session, lane) :: server.others session })

/-- Closes the current lane of an id and forgets it. The answer is whether there was one. -/
def remove (server : ControlServer) (session : SessionId) : Bool × ControlServer :=
  match server.current? session with
  | some lane => (true, { server.close lane with current := server.others session })
  | none => (false, server)

/-- The client's lane is open. -/
def isOpen (server : ControlServer) (client : Client) : Bool :=
  match server.lanes[client.lane]? with
  | some lane => lane.isOpen
  | none => false

/-- Accepts a request, or refuses it because the lane is closed or its bridge is gone. -/
def send (server : ControlServer) (client : Client) (request : EvalRequest) :
    Except SessionFault ControlServer :=
  match server.lanes[client.lane]? with
  | some lane =>
    if lane.isOpen ∧ lane.reader ≠ .lost then
      .ok (server.update client.lane fun l => { l with accepted := l.accepted ++ [request] })
    else .error (.channelClosed client.session)
  | none => .error (.channelClosed client.session)

/-! ## Bridges -/

/-- A bridge greets. It gets the current lane of the session that it names, unless there is none or
another bridge has claimed it. -/
def greet (server : ControlServer) (hello : Hello) : Option (Nat × ControlServer) :=
  match server.current? hello.session with
  | none => none
  | some lane =>
    match server.lanes[lane]? with
    | some { reader := .awaited, .. } =>
      some (lane, server.update lane fun l => { l with reader := .attached })
    | _ => none

/-- Writes the next request of a lane to its bridge, if there is one to write. -/
def transmit (server : ControlServer) (lane : Nat) : Option (EvalRequest × ControlServer) :=
  match server.lanes[lane]? with
  | some l =>
    if l.reader = .attached then
      match l.accepted[l.written]? with
      | some request =>
        some (request, server.update lane fun l => { l with written := l.written + 1 })
      | none => none
    else none
  | none => none

/-- The bridge of a lane is gone. -/
def hangUp (server : ControlServer) (lane : Nat) : ControlServer :=
  server.update lane fun l =>
    match l.reader with
    | .attached => { l with reader := .lost }
    | _ => l

end ControlServer

end InlineRepl
