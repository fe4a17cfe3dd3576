import InlineRepl.Text.Utf8

/-!
# Text without terminal control

What a reader sees of a text that was written for a terminal: escape sequences and control bytes
vanish, blanks, line ends and characters stay. `Control.step` takes one byte and says whether it is
seen.

* An escape sequence ends at its final byte. A control string ends at the next escape byte, and at
  the bell or the string terminator where its kind allows that.
* White space inside a sequence is seen, and breaks the sequence off; inside a control string it is
  not.
* Bytes above ASCII inside a sequence belong to it.
-/

namespace InlineRepl.Text

namespace Control

/-- Where the reader stands. -/
inductive State where
  /-- Outside of every sequence, behind a byte that was not seen. -/
  | outside
  /-- Behind a byte that was seen. -/
  | seeing
  /-- Behind the escape byte. -/
  | escape
  /-- Inside an escape sequence of more than two bytes. -/
  | sequence
  /-- Inside a sequence of parameters that a letter ends. -/
  | parameters
  /-- At the start of a device control string: no parameter has come. -/
  | deviceStart
  /-- Among the parameters of a device control string. -/
  | deviceParameters
  /-- Behind the parameters of a device control string. -/
  | deviceMiddle
  /-- Inside a control string that the string terminator ends. -/
  | string
  /-- Inside a control string that the bell ends. -/
  | command
  deriving Repr, DecidableEq

/-- The escape byte. -/
def escapeByte : UInt8 := 0x1B

/-- Controls that end every sequence and are not seen. -/
def isCancel (b : UInt8) : Bool :=
  b == 0x18 || b == 0x1A

/-- White space among the controls. -/
def isSpace (b : UInt8) : Bool :=
  b == 0x09 || b == 0x0A || b == 0x0C || b == 0x0D

/-- The first byte of a character of more than one. -/
def isLead (b : UInt8) : Bool :=
  decide (0xC2 ≤ b ∧ b ≤ 0xF4)

/-- A byte that continues a character. -/
def isContinuation (b : UInt8) : Bool :=
  decide (0x80 ≤ b ∧ b ≤ 0xBF)

/-- A byte that is seen outside of every sequence. -/
def isShown (b : UInt8) : Bool :=
  decide (0x20 ≤ b ∧ b < 0x7F) || isLead b || isSpace b

/-- A byte between two others, both counted in. -/
def within (low high b : UInt8) : Bool :=
  decide (low ≤ b ∧ b ≤ high)

/-- The state that a byte behind the escape byte leads to. -/
def begin (b : UInt8) : State :=
  if b = 0x5B then .parameters
  else if b = 0x5D then .command
  else if b = 0x50 then .deviceStart
  else if b = 0x58 ∨ b = 0x5E ∨ b = 0x5F then .string
  else if within 0x20 0x2F b then .sequence
  else if within 0x30 0x7E b then .outside
  else .escape

/-- The state that a byte at the front of a device control string leads to. -/
def device (state : State) (b : UInt8) : State :=
  if within 0x40 0x7E b then .string
  else if within 0x20 0x2F b then .deviceMiddle
  else if within 0x30 0x3F b then
    match state with
    | .deviceStart => .deviceParameters
    | .deviceParameters => if within 0x3C 0x3F b then .string else .deviceParameters
    | _ => .string
  else state

/-- Takes a byte that nothing before it makes part of a character. -/
def skip (state : State) (b : UInt8) : State × Bool :=
  if b = escapeByte then (.escape, false)
  else if isCancel b then (.outside, false)
  else
    match state with
    | .outside | .seeing => if isShown b then (.seeing, true) else (.outside, false)
    | .escape => if isSpace b then (.seeing, true) else (begin b, false)
    | .sequence =>
      if isSpace b then (.seeing, true)
      else (if within 0x30 0x7E b then .outside else .sequence, false)
    | .parameters =>
      if isSpace b then (.seeing, true)
      else (if within 0x40 0x7E b then .outside else .parameters, false)
    | .deviceStart | .deviceParameters | .deviceMiddle => (device state b, false)
    | .string => (if b = 0x9C then .outside else .string, false)
    | .command => (if b = 0x07 then .outside else .command, false)

/-- Takes a byte. The answer is also whether it is seen. -/
def step (state : State) (b : UInt8) : State × Bool :=
  if state = .seeing ∧ isContinuation b then (.seeing, true) else skip state b

/-- The bytes that are seen. -/
def seen : State → List UInt8 → List UInt8
  | _, [] => []
  | state, b :: bs =>
    match step state b with
    | (state, true) => b :: seen state bs
    | (state, false) => seen state bs

end Control

/-- What a reader sees of a text. -/
def withoutControl (text : String) : String :=
  Utf8.decodeLossy (Control.seen .outside (bytesOf text))

end InlineRepl.Text
