import InlineRepl.Text.Blank
import InlineRepl.Text.Unsigned
import InlineRepl.Wire.Position

/-!
# Line numbers on the command line

People count lines from one; everything behind the command line counts from zero. A line number may
stand between blanks and carry a plus sign. A span is two line numbers with a colon between them.
-/

namespace InlineRepl

/-- Why a text names no line, or no span of lines. -/
inductive LineFault where
  | noNumber (raw : String)
  | zero
  | noSpan (raw : String)
  | inverted (raw : String)
  deriving Repr, DecidableEq

/-- The wording of a fault. -/
def LineFault.message : LineFault → String
  | noNumber raw => "invalid line number: " ++ raw
  | zero => "line numbers start at 1"
  | noSpan raw => "expected S:E, got " ++ raw
  | inverted raw => "range " ++ raw ++ " ends before it starts"

/-- Reads a line number. -/
def readLine (raw : List Char) : Except LineFault UInt32 :=
  match Text.Unsigned.read UInt32.size (Text.trim raw) with
  | .error _ => .error (.noNumber (String.ofList raw))
  | .ok 0 => .error .zero
  | .ok (n + 1) => .ok (UInt32.ofNat n)

/-- Reads a span of lines, split at its first colon. -/
def readSpan (raw : List Char) : Except LineFault LineRange := do
  match Text.splitAtFirst? ':' raw with
  | none => throw (.noSpan (String.ofList raw))
  | some (first, last) =>
    let start ← readLine first
    let stop ← readLine last
    if stop < start then throw (.inverted (String.ofList raw))
    return { start, stop }

end InlineRepl
