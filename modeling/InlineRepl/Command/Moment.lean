import InlineRepl.Session.Event

/-!
# Moments

A command that waits on its host meets one moment after the other: an event, the end of its
patience, or its limit. `Moment.schedule` lays out the moments of a story whose events happen at
known times.
-/

namespace InlineRepl

/-- What a waiting command meets next. -/
inductive Moment where
  | event (event : SessionEvent)
  /-- Nothing has come for as long as the command waits in one go. -/
  | quiet
  /-- The limit has been reached. -/
  | limit
  deriving Repr, DecidableEq

namespace Moment

/-- The moments of a story from the time `now`, each with its time. Events come in order, none
before its time. A command that waits `patience` at most in one go meets a quiet moment in every
longer gap; further quiet moments of the same gap would change nothing. -/
def schedule (patience limit : Nat) : Nat → List (Nat × SessionEvent) → List (Nat × Moment)
  | now, [] =>
    if limit ≤ now then [(now, .limit)] else [(min limit (now + patience), .quiet), (limit, .limit)]
  | now, (time, happened) :: story =>
    let time := max now time
    let lull := (min limit (now + patience), Moment.quiet)
    if limit ≤ now then [(now, .limit)]
    else if limit ≤ time then [lull, (limit, .limit)]
    else if patience ≤ time - now then
      lull :: (time, .event happened) :: schedule patience limit time story
    else (time, .event happened) :: schedule patience limit time story

end Moment

end InlineRepl
