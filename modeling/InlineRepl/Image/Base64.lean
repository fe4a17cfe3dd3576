/-!
# Base64

The standard alphabet with padding. `encode` writes groups of three bytes as four symbols;
`decode` accepts exactly what `encode` writes, and says of everything else what is wrong with it:
the faults are looked for in a fixed order, and each names a byte and where it stands.
-/

namespace InlineRepl.Base64

/-! ## The alphabet -/

/-- The symbol of a number below 64. -/
def symbol (n : Nat) : UInt8 :=
  if n < 26 then UInt8.ofNat (65 + n)
  else if n < 52 then UInt8.ofNat (97 + (n - 26))
  else if n < 62 then UInt8.ofNat (48 + (n - 52))
  else if n = 62 then 43
  else 47

/-- The number of a symbol. -/
def value? (b : UInt8) : Option Nat :=
  let n := b.toNat
  if 65 ≤ n ∧ n ≤ 90 then some (n - 65)
  else if 97 ≤ n ∧ n ≤ 122 then some (n - 97 + 26)
  else if 48 ≤ n ∧ n ≤ 57 then some (n - 48 + 52)
  else if n = 43 then some 62
  else if n = 47 then some 63
  else none

/-- The byte that fills up the last group. -/
def pad : UInt8 := 61

/-! ## Writing -/

/-- The symbols of a byte sequence. -/
def encode : List UInt8 → List UInt8
  | a :: b :: c :: rest =>
    let n := (a.toNat * 256 + b.toNat) * 256 + c.toNat
    symbol (n / 262144) :: symbol (n / 4096 % 64) :: symbol (n / 64 % 64) :: symbol (n % 64) ::
      encode rest
  | [a, b] =>
    let n := (a.toNat * 256 + b.toNat) * 4
    [symbol (n / 4096), symbol (n / 64 % 64), symbol (n % 64), pad]
  | [a] =>
    let n := a.toNat * 16
    [symbol (n / 64), symbol (n % 64), pad, pad]
  | [] => []

/-! ## Reading -/

/-- What is wrong with a byte sequence. -/
inductive Fault where
  /-- A byte outside the alphabet, or padding where none may stand. -/
  | symbol (byte : UInt8) (offset : Nat)
  /-- A last group with fewer than two symbols. -/
  | length (symbols : Nat)
  /-- A last group that padding does not fill up to four. -/
  | padding
  /-- A last symbol whose unused bits are not zero. -/
  | lastSymbol (byte : UInt8) (offset : Nat)
  deriving Repr, DecidableEq

/-- The wording of a fault. -/
def Fault.message : Fault → String
  | .symbol byte offset =>
    "Invalid symbol " ++ toString byte.toNat ++ ", offset " ++ toString offset ++ "."
  | .length symbols => "Invalid input length: " ++ toString symbols
  | .padding => "Invalid padding"
  | .lastSymbol byte offset =>
    "Invalid last symbol " ++ toString byte.toNat ++ ", offset " ++ toString offset ++ "."

/-- The number of the symbol at an offset. -/
def valueAt (byte : UInt8) (offset : Nat) : Except Fault Nat :=
  match value? byte with
  | some n => .ok n
  | none => .error (.symbol byte offset)

/-- The symbols of the last group, which begins at `start`: their numbers and bytes, and how many
pads follow. `seen` counts the bytes read, `firstPad` is where the first pad stands among them. -/
def scanLast (start : Nat) (seen : Nat) (firstPad : Option Nat) :
    List UInt8 → Except Fault (List (Nat × UInt8) × Nat)
  | [] => .ok ([], 0)
  | b :: bs =>
    if b = pad then
      if seen < 2 then .error (.symbol pad (start + seen))
      else
        match scanLast start (seen + 1) (firstPad.or (some seen)) bs with
        | .ok (symbols, pads) => .ok (symbols, pads + 1)
        | .error fault => .error fault
    else
      match firstPad with
      | some first => .error (.symbol pad (start + first))
      | none =>
        match valueAt b (start + seen) with
        | .error fault => .error fault
        | .ok n =>
          match scanLast start (seen + 1) none bs with
          | .ok (symbols, pads) => .ok ((n, b) :: symbols, pads)
          | .error fault => .error fault

/-- The bytes of two, three or four symbols, and what is left of the bits. -/
def groupBytes : List Nat → List UInt8 × Nat
  | [a, b] => ([UInt8.ofNat (a * 4 + b / 16)], b % 16)
  | [a, b, c] =>
    ([UInt8.ofNat (a * 4 + b / 16), UInt8.ofNat (b % 16 * 16 + c / 4)], c % 4)
  | [a, b, c, d] =>
    ([UInt8.ofNat (a * 4 + b / 16), UInt8.ofNat (b % 16 * 16 + c / 4),
      UInt8.ofNat (c % 4 * 64 + d)], 0)
  | _ => ([], 0)

/-- Reads the last group, which begins at `start`. -/
def decodeLast (start : Nat) (group : List UInt8) : Except Fault (List UInt8) :=
  match scanLast start 0 none group with
  | .error fault => .error fault
  | .ok (symbols, pads) =>
    if symbols.length < 2 then .error (.length (start + symbols.length))
    else if (symbols.length + pads) % 4 ≠ 0 then .error .padding
    else
      match groupBytes (symbols.map Prod.fst), symbols.getLast? with
      | (bytes, 0), _ => .ok bytes
      | (_, _ + 1), some (_, byte) =>
        .error (.lastSymbol byte (start + symbols.length - 1))
      | (_, _ + 1), none => .ok []

/-- Reads groups of four, the last one apart. -/
def decodeFrom (start : Nat) : List UInt8 → Except Fault (List UInt8)
  | [] => .ok []
  | a :: b :: c :: d :: e :: rest => do
    let va ← valueAt a start
    let vb ← valueAt b (start + 1)
    let vc ← valueAt c (start + 2)
    let vd ← valueAt d (start + 3)
    let bytes ← decodeFrom (start + 4) (e :: rest)
    return (groupBytes [va, vb, vc, vd]).1 ++ bytes
  | group => decodeLast start group

/-- Reads a whole byte sequence. A single byte past the last full group is looked at first. -/
def decode (bytes : List UInt8) : Except Fault (List UInt8) :=
  match bytes.getLast? with
  | none => .ok []
  | some last =>
    if bytes.length % 4 = 1 ∧ last ≠ pad ∧ value? last = none then
      .error (.symbol last (bytes.length - 1))
    else decodeFrom 0 bytes

end InlineRepl.Base64
