import InlineRepl.Text.Blank

/-!
# The handshake

The bridge prints a marker once it has dialled the control port. Until then everything the process
writes is kept, so that a failed start can be shown as it was.

The marker is looked for in standard output alone, across chunk boundaries: the end of what was read
is kept, in whole characters, one byte short of the marker at least.
-/

namespace InlineRepl

/-- How far an interpreter's start has got. -/
inductive Stage where
  | spawning
  | connecting
  | connected
  | failed
  deriving Repr, DecidableEq

/-- What the exit of a process means for its session. -/
inductive ExitMeaning where
  /-- It had connected; this is no failed start. -/
  | afterConnect
  /-- It ended before it connected, having written `report`. -/
  | failed (report : String)
  deriving Repr, DecidableEq

/-- The output of a starting interpreter. -/
structure Handshake where
  stage : Stage := .spawning
  /-- Both outputs in order of arrival, for the report. -/
  buffer : String := ""
  /-- The end of standard output, which may hold the beginning of the marker. -/
  tail : List Char := []
  deriving Repr, DecidableEq

namespace Handshake

/-- What standard output holds once the bridge is there. -/
def marker : List Char :=
  "Connected".toList

/-- The bytes of a text in UTF-8. -/
def byteCount (cs : List Char) : Nat :=
  cs.foldr (fun c n => c.utf8Size + n) 0

/-- The shortest end of a text, in whole characters, of at least `least` bytes, and its size. -/
def lastBytes (least : Nat) : List Char → List Char × Nat
  | [] => ([], 0)
  | c :: cs =>
    match lastBytes least cs with
    | (kept, size) => if least ≤ size then (kept, size) else (c :: kept, size + c.utf8Size)

/-- The handshake has been completed. -/
def isConnected (h : Handshake) : Bool :=
  h.stage == .connected

/-- The process is running and its output is being watched. -/
def spawned (h : Handshake) : Handshake :=
  match h.stage with
  | .spawning => { h with stage := .connecting }
  | _ => h

/-- Takes a chunk of standard output. The answer is true for the chunk that completes the
handshake. -/
def onStdout (h : Handshake) (chunk : String) : Bool × Handshake :=
  match h.stage with
  | .failed => (false, h)
  | .connected => (false, { h with buffer := h.buffer ++ chunk })
  | .spawning | .connecting =>
    let window := h.tail ++ chunk.toList
    if Text.hasPart marker window then
      (true, { stage := .connected, buffer := h.buffer ++ chunk, tail := [] })
    else
      (false,
        { h with
          buffer := h.buffer ++ chunk
          tail := (lastBytes (marker.length - 1) window).1 })

/-- Takes a chunk of standard error, which counts only until the handshake is over. -/
def onStderr (h : Handshake) (chunk : String) : Handshake :=
  match h.stage with
  | .connected | .failed => h
  | .spawning | .connecting => { h with buffer := h.buffer ++ chunk }

/-- Takes the exit of the process. -/
def onExit (h : Handshake) : ExitMeaning × Handshake :=
  match h.stage with
  | .connected => (.afterConnect, h)
  | _ => (.failed h.buffer, { h with stage := .failed })

end Handshake

end InlineRepl
