import InlineRepl.Control.Server
import InlineRepl.Session.Event
import InlineRepl.Wire.Framing

/-!
# What a bridge writes

The first frame of a connection greets; everything after it is responses. A line that is no record
is dropped and the next one is read. A line that is no text ends the connection.
-/

namespace InlineRepl.Bridge

/-- The greeting that a connection's first frame holds. Blank lines before it do not count, and the
rest of the lines follows it. -/
def greeting : List (List UInt8) → Option (Hello × List (List UInt8))
  | [] => none
  | line :: lines =>
    match Frame.ofLine? Hello.ofRaw? line with
    | none => greeting lines
    | some (.record hello) => some (hello, lines)
    | some _ => none

/-- What the lines after the greeting amount to, up to the end of the connection. -/
def happenings : List (List UInt8) → List Happening
  | [] => [.detached]
  | line :: lines =>
    match Frame.ofLine? Inbound.ofRaw? line with
    | none => happenings lines
    | some (.record inbound) => .inbound inbound :: happenings lines
    | some (.malformed _) => happenings lines
    | some .unreadable => [.detached]

/-- Everything that a connection amounts to, and the server after it: nothing, if its greeting does
not claim a lane. -/
def serve (server : ControlServer) (bytes : List UInt8) : List SessionEvent × ControlServer :=
  match greeting (Text.cutLines 0x0A bytes) with
  | none => ([], server)
  | some (hello, lines) =>
    match server.greet hello with
    | none => ([], server)
    | some (lane, server) =>
      ((Happening.attached :: happenings lines).map fun happening =>
          { session := hello.session, happening },
        server.hangUp lane)

end InlineRepl.Bridge
