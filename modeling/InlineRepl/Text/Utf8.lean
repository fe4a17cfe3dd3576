/-!
# UTF-8 text from bytes

A byte machine: `Utf8.State` says which bytes may come next, `Utf8.step` takes one byte and yields
the pieces that it completes. A piece is a character or a *damaged* stretch, a longest run of bytes
that begins like a character and cannot go on as one. Reading strictly refuses a damaged stretch;
reading lossily puts U+FFFD in its place.

`Chunks` decodes a stream that arrives in chunks. A character that a chunk leaves unfinished is held
back, unless the chunk holds a damaged stretch: then everything is given out at once.
-/

namespace InlineRepl.Text

/-- The bytes of a string. -/
def bytesOf (s : String) : List UInt8 :=
  s.toList.flatMap String.utf8EncodeChar

namespace Utf8

/-- Where the machine stands. -/
inductive State where
  /-- Between two characters. -/
  | ready
  /-- Inside a character: the bits read so far, the range of the next byte, and how many bytes
  come after that one. -/
  | inside (bits : Nat) (low high : UInt8) (after : Nat)
  deriving Repr, DecidableEq

/-- What a stretch of bytes stands for. -/
inductive Piece where
  | char (c : Char)
  | damaged
  deriving Repr, DecidableEq

/-- Reads the first byte of a character. -/
def begin (b : UInt8) : List Piece × State :=
  let n := b.toNat
  if n < 0x80 then ([.char (Char.ofNat n)], .ready)
  else if n < 0xC2 then ([.damaged], .ready)
  else if n < 0xE0 then ([], .inside (n - 0xC0) 0x80 0xBF 0)
  else if n = 0xE0 then ([], .inside 0 0xA0 0xBF 1)
  else if n = 0xED then ([], .inside 0xD 0x80 0x9F 1)
  else if n < 0xF0 then ([], .inside (n - 0xE0) 0x80 0xBF 1)
  else if n = 0xF0 then ([], .inside 0 0x90 0xBF 2)
  else if n < 0xF4 then ([], .inside (n - 0xF0) 0x80 0xBF 2)
  else if n = 0xF4 then ([], .inside 4 0x80 0x8F 2)
  else ([.damaged], .ready)

/-- Reads one byte. A byte that cannot continue a character damages it and begins the next one. -/
def step : State → UInt8 → List Piece × State
  | .ready, b => begin b
  | .inside bits low high after, b =>
    if low ≤ b ∧ b ≤ high then
      let bits := bits * 64 + (b.toNat - 0x80)
      match after with
      | 0 => ([.char (Char.ofNat bits)], .ready)
      | after + 1 => ([], .inside bits 0x80 0xBF after)
    else
      match begin b with
      | (pieces, state) => (.damaged :: pieces, state)

/-- Reads bytes one after the other. -/
def run : State → List UInt8 → List Piece × State
  | state, [] => ([], state)
  | state, b :: bs =>
    match step state b with
    | (pieces, state) =>
      match run state bs with
      | (more, state) => (pieces ++ more, state)

/-- The pieces that the end of the input completes: an unfinished character is damaged. -/
def State.close : State → List Piece
  | .ready => []
  | .inside .. => [.damaged]

/-- The pieces of a whole byte sequence. -/
def pieces (bytes : List UInt8) : List Piece :=
  match run .ready bytes with
  | (pieces, state) => pieces ++ state.close

/-- The character shown for a piece. -/
def Piece.shown : Piece → Char
  | .char c => c
  | .damaged => '\uFFFD'

/-- The character of an undamaged piece. -/
def Piece.char? : Piece → Option Char
  | .char c => some c
  | .damaged => none

/-- The text of the bytes, damaged stretches shown as U+FFFD. -/
def decodeLossy (bytes : List UInt8) : String :=
  String.ofList ((pieces bytes).map Piece.shown)

/-- The text of the bytes, if no stretch of them is damaged. -/
def decode? (bytes : List UInt8) : Option String :=
  ((pieces bytes).mapM Piece.char?).map String.ofList

end Utf8

/-- A stream of text in chunks: where the machine stood when the last chunk ended. -/
structure Chunks where
  state : Utf8.State := .ready
  deriving Repr, DecidableEq

namespace Chunks

/-- The text of pieces, none when there are none. -/
def shown? (pieces : List Utf8.Piece) : Option String :=
  if pieces.isEmpty then none else some (String.ofList (pieces.map Utf8.Piece.shown))

/-- Takes a chunk and gives out the text that it completes, if any. -/
def push (chunks : Chunks) (bytes : List UInt8) : Option String × Chunks :=
  match Utf8.run chunks.state bytes with
  | (pieces, state) =>
    if pieces.any (· == .damaged) then (shown? (pieces ++ state.close), {})
    else (shown? pieces, { state := state })

/-- Gives out what is held back when the stream ends. -/
def finish (chunks : Chunks) : Option String :=
  shown? chunks.state.close

end Chunks

end InlineRepl.Text
