import InlineRepl.Text.Unsigned

/-!
# Number literals

A literal is kept as it is spelled. It is an integer only when it has neither sign nor fraction nor
exponent. Where every literal of a text has to be a double, `Numeral.fitsDouble` decides it: the
leading digits that fit in 64 bits are rounded to a double, a power of ten is rounded to a double,
and their rounded product has to be finite.
-/

namespace InlineRepl.Json

/-- A number literal: its digits before the point, after the point, and in the exponent. -/
structure Numeral where
  negative : Bool
  whole : List Char
  fraction : Option (List Char)
  /-- The sign of the exponent (negative or not) and its digits. -/
  exponent : Option (Bool × List Char)
  deriving Repr, DecidableEq

namespace Numeral

/-! ## Reading -/

/-- An ASCII digit. -/
def isDigit (c : Char) : Bool :=
  decide ('0' ≤ c) && decide (c ≤ '9')

/-- The longest run of digits at the front, if there is one, and what follows it. -/
def scanDigits (cs : List Char) : Option (List Char × List Char) :=
  match cs.takeWhile isDigit with
  | [] => none
  | ds => some (ds, cs.dropWhile isDigit)

/-- The digits before the point: a zero alone, or a run that begins with another digit. -/
def scanWhole : List Char → Option (List Char × List Char)
  | '0' :: rest => some (['0'], rest)
  | cs => scanDigits cs

/-- The digits after the point, if a point comes first. -/
def scanFraction : List Char → Option (Option (List Char) × List Char)
  | '.' :: rest => (scanDigits rest).map fun scanned => (some scanned.1, scanned.2)
  | cs => some (none, cs)

/-- The sign of an exponent and what follows it. -/
def scanSign : List Char → Bool × List Char
  | '-' :: rest => (true, rest)
  | '+' :: rest => (false, rest)
  | cs => (false, cs)

/-- The exponent, if its letter comes first. -/
def scanExponent : List Char → Option (Option (Bool × List Char) × List Char)
  | c :: rest =>
    if c = 'e' ∨ c = 'E' then
      match scanSign rest with
      | (negative, rest) =>
        (scanDigits rest).map fun scanned => (some (negative, scanned.1), scanned.2)
    else some (none, c :: rest)
  | [] => some (none, [])

/-- A literal without its sign. -/
def scanUnsigned (negative : Bool) (cs : List Char) : Option (Numeral × List Char) := do
  let (whole, rest) ← scanWhole cs
  let (fraction, rest) ← scanFraction rest
  let (exponent, rest) ← scanExponent rest
  return ({ negative, whole, fraction, exponent }, rest)

/-- The literal at the front of a text, and what follows it. -/
def scan : List Char → Option (Numeral × List Char)
  | '-' :: rest => scanUnsigned true rest
  | cs => scanUnsigned false cs

/-! ## Integers -/

/-- The number that digits stand for. -/
def valueOf (ds : List Char) : Nat :=
  ds.foldl (fun n d => n * 10 + (d.toNat - '0'.toNat)) 0

/-- The value of an integer literal. A sign, a fraction and an exponent each make it none. -/
def toNat? (n : Numeral) : Option Nat :=
  if n.negative = false ∧ n.fraction = none ∧ n.exponent = none then some (valueOf n.whole)
  else none

/-! ## Doubles -/

/-- The nearest number with at most 53 significant bits; a tie goes to the even one. -/
def roundDouble (n : Nat) : Nat :=
  if n < Nat.pow 2 53 then n
  else
    let unit := Nat.pow 2 (n.log2 - 52)
    let low := n % unit
    let down := n / unit
    if unit < 2 * low ∨ (2 * low = unit ∧ down % 2 = 1) then (down + 1) * unit else down * unit

/-- The first magnitude that rounds to infinity: halfway from the largest double to 2 ^ 1024. -/
def doubleLimit : Nat :=
  (Nat.pow 2 54 - 1) * Nat.pow 2 970

/-- Digits before the point taken into 64 bits; the ones that do not fit scale by ten. -/
def takeWhole : Nat → List Char → Nat × Nat
  | sig, [] => (sig, 0)
  | sig, d :: ds =>
    if sig * 10 + (d.toNat - '0'.toNat) < Nat.pow 2 64 then
      takeWhole (sig * 10 + (d.toNat - '0'.toNat)) ds
    else (sig, ds.length + 1)

/-- Digits after the point taken into 64 bits, and how many were; the rest is ignored. -/
def takeFraction : Nat → List Char → Nat × Nat
  | sig, [] => (sig, 0)
  | sig, d :: ds =>
    if sig * 10 + (d.toNat - '0'.toNat) < Nat.pow 2 64 then
      match takeFraction (sig * 10 + (d.toNat - '0'.toNat)) ds with
      | (sig, count) => (sig, count + 1)
    else (sig, 0)

/-- A significand of at most 64 bits and the power of ten that scales it. -/
def scaled (n : Numeral) : Nat × Int :=
  match takeWhole 0 n.whole with
  | (sig, more) =>
    match takeFraction sig (n.fraction.getD []) with
    | (sig, under) =>
      let shift : Int :=
        match n.exponent with
        | none => 0
        | some (true, ds) => -(valueOf ds : Int)
        | some (false, ds) => (valueOf ds : Int)
      (sig, (more : Int) - (under : Int) + shift)

/-- The literal is read as a finite double. -/
def fitsDouble (n : Numeral) : Bool :=
  match n.scaled with
  | (sig, .ofNat e) =>
    sig == 0 ||
      (decide (e ≤ 308) && decide (roundDouble sig * roundDouble (Nat.pow 10 e) < doubleLimit))
  | (_, .negSucc _) => true

end Numeral

end InlineRepl.Json
