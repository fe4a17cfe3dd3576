import InlineRepl.Wire.Response

/-!
# Session events

Everything that happens to a session behind the host's back: output and exit of its process, coming
and going of its bridge, and the bridge's responses.
-/

namespace InlineRepl

/-- What happened. -/
inductive Happening where
  | stdout (text : String)
  | stderr (text : String)
  /-- The process ended; it has a code unless a signal ended it. -/
  | exit (code : Option Int)
  /-- A bridge greeted with the session's id. -/
  | attached
  | inbound (record : Inbound)
  /-- The bridge's connection ended. -/
  | detached
  deriving Repr, DecidableEq

/-- What happened, and to which session. -/
structure SessionEvent where
  session : SessionId
  happening : Happening
  deriving Repr, DecidableEq

end InlineRepl
