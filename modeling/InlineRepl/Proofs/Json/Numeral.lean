import InlineRepl.Json.Basic
import InlineRepl.Json.Numeral
import Mathlib.Algebra.Group.Nat.Defs
import Mathlib.Tactic.Common

/-!
# A number is read as it was written

Numbers are written as their decimal digits, without sign, point or exponent. Reading takes the
longest run of digits, so what follows a number must not go on with it: no digit, no point and no
letter of an exponent.

Results:
* `valueOf_digits`: the digits of a number stand for it.
* `scan_spelled`: a literal of the grammar is read as it is spelled, up to what follows.
* `spelledBy_digits`: the digits of a number are a literal of it.
* `toNat?_ofNat`, `fitsDouble_ofNat`: a written number is read as an integer, and numbers of 64 bits
  are doubles.
-/

namespace InlineRepl.Json

/-! ## Digits -/

theorem isDigit_of_mem_digits {n : Nat} {c : Char} (h : c ∈ digits n) :
    Numeral.isDigit c = true := by
  have hd := Nat.isDigit_of_mem_toDigits (by decide) (by decide) h
  simpa [Numeral.isDigit, Char.isDigit, Char.le_def] using hd

theorem digits_ne_nil (n : Nat) : digits n ≠ [] :=
  Nat.toDigits_ne_nil

theorem digits_zero : digits 0 = ['0'] :=
  Nat.toDigits_zero 10

/-- The digits of a number begin with a zero for zero alone. -/
theorem digits_head {n : Nat} (hn : 0 < n) : ∀ rest, digits n ≠ '0' :: rest := by
  induction n using Nat.strongRecOn with
  | ind n ih =>
    intro rest he
    by_cases hlt : n < 10
    · rw [digits, Nat.toDigits_of_lt_base hlt] at he
      have hchar : ∀ m, m < 10 → 0 < m → Nat.digitChar m ≠ '0' := by decide
      exact hchar n hlt hn (List.cons.inj he).1
    · have hsplit : digits n = digits (n / 10) ++ [Nat.digitChar (n % 10)] :=
        Nat.toDigits_of_base_le (by decide) (by omega)
      rw [hsplit] at he
      cases hd : digits (n / 10) with
      | nil => exact digits_ne_nil _ hd
      | cons d ds =>
        rw [hd] at he
        refine ih (n / 10) (by omega) (by omega) ds ?_
        rw [hd, (List.cons.inj he).1]

namespace Numeral

theorem valueOf_eq (ds : List Char) : valueOf ds = Nat.ofDigitChars 10 ds 0 := by
  rw [Nat.ofDigitChars_eq_foldl]
  unfold valueOf
  congr 1
  funext n d
  rw [Nat.mul_comm]

/-- The digits of a number stand for it. -/
theorem valueOf_digits (n : Nat) : valueOf (digits n) = n := by
  rw [valueOf_eq]
  exact Nat.ofDigitChars_ten_toDigits

/-! ## Reading -/

/-- Nothing that a number could go on with. -/
def EndsNumber (rest : List Char) : Prop :=
  ∀ c cs, rest = c :: cs → isDigit c = false ∧ c ≠ '.' ∧ c ≠ 'e' ∧ c ≠ 'E'

theorem endsNumber_nil : EndsNumber [] :=
  fun _ _ h => absurd h (by simp)

theorem endsNumber_cons {c : Char} {cs : List Char} (hd : isDigit c = false) (hp : c ≠ '.')
    (he : c ≠ 'e') (hE : c ≠ 'E') : EndsNumber (c :: cs) := by
  intro d ds h
  obtain ⟨rfl, -⟩ := List.cons.inj h
  exact ⟨hd, hp, he, hE⟩

/-- No digit in front. -/
def NoDigit (rest : List Char) : Prop :=
  ∀ c cs, rest = c :: cs → isDigit c = false

/-- One digit or more. -/
def IsDigits (ds : List Char) : Prop :=
  ds ≠ [] ∧ ∀ d ∈ ds, isDigit d = true

theorem isDigits_of_all {ds : List Char} (hn : ds ≠ []) (h : ds.all isDigit = true) :
    IsDigits ds :=
  ⟨hn, List.all_eq_true.mp h⟩

theorem scanDigits_append {ds rest : List Char} (hd : IsDigits ds) (hr : NoDigit rest) :
    scanDigits (ds ++ rest) = some (ds, rest) := by
  obtain ⟨hne, hd⟩ := hd
  have hrest : rest.takeWhile isDigit = [] ∧ rest.dropWhile isDigit = rest := by
    cases rest with
    | nil => exact ⟨rfl, rfl⟩
    | cons c cs => simp [hr c cs rfl]
  unfold scanDigits
  rw [List.takeWhile_append_of_pos hd, List.dropWhile_append_of_pos hd, hrest.1, hrest.2,
    List.append_nil]
  cases ds with
  | nil => exact absurd rfl hne
  | cons d ds => rfl

/-! ### The grammar of numbers -/

/-- What may stand before the point: a zero alone, or digits that do not begin with one. -/
def WholeSpelledBy (ds : List Char) : Prop :=
  ds = ['0'] ∨ IsDigits ds ∧ ∀ rest, ds ≠ '0' :: rest

/-- The text of a fraction. -/
def FractionSpelledBy : Option (List Char) → List Char → Prop
  | none, cs => cs = []
  | some ds, cs => IsDigits ds ∧ cs = '.' :: ds

/-- The text of the sign of an exponent: a plus may be left out. -/
def SignSpelledBy : Bool → List Char → Prop
  | true, cs => cs = ['-']
  | false, cs => cs = ['+'] ∨ cs = []

/-- The text of an exponent, its letter in either case. -/
def ExponentSpelledBy : Option (Bool × List Char) → List Char → Prop
  | none, cs => cs = []
  | some (negative, ds), cs =>
    IsDigits ds ∧ ∃ letter sign, (letter = 'e' ∨ letter = 'E') ∧ SignSpelledBy negative sign ∧
      cs = letter :: (sign ++ ds)

/-- The text is a number literal, taken apart as the numeral says. -/
def SpelledBy (n : Numeral) (cs : List Char) : Prop :=
  WholeSpelledBy n.whole ∧ ∃ fraction exponent,
    FractionSpelledBy n.fraction fraction ∧ ExponentSpelledBy n.exponent exponent ∧
      cs = (if n.negative then ['-'] else []) ++ (n.whole ++ (fraction ++ exponent))

theorem WholeSpelledBy.isDigits {ds : List Char} (h : WholeSpelledBy ds) : IsDigits ds := by
  rcases h with rfl | h
  · exact isDigits_of_all (by simp) rfl
  · exact h.1

theorem scanWhole_spelled {ds rest : List Char} (h : WholeSpelledBy ds) (hr : NoDigit rest) :
    scanWhole (ds ++ rest) = some (ds, rest) := by
  rcases h with rfl | ⟨hd, hzero⟩
  · rfl
  · rw [scanWhole.eq_2 (ds ++ rest) ?_]
    · exact scanDigits_append hd hr
    · intro tail he
      obtain ⟨hne, -⟩ := hd
      cases ds with
      | nil => exact hne rfl
      | cons d ds => exact hzero ds (by rw [(List.cons.inj he).1])

theorem scanFraction_spelled {fraction : Option (List Char)} {cs rest : List Char}
    (h : FractionSpelledBy fraction cs) (hr : NoDigit rest) (hp : ∀ more, rest ≠ '.' :: more) :
    scanFraction (cs ++ rest) = some (fraction, rest) := by
  cases fraction with
  | none =>
    obtain rfl := h
    exact scanFraction.eq_2 rest hp
  | some ds =>
    obtain ⟨hd, rfl⟩ := h
    rw [List.cons_append, scanFraction, scanDigits_append hd hr]
    rfl

theorem scanSign_spelled {negative : Bool} {sign ds : List Char} (h : SignSpelledBy negative sign)
    (hd : IsDigits ds) (rest : List Char) :
    scanSign (sign ++ (ds ++ rest)) = (negative, ds ++ rest) := by
  cases negative with
  | true =>
    obtain rfl := h
    rfl
  | false =>
    rcases h with rfl | rfl
    · rfl
    · obtain ⟨hne, hd⟩ := hd
      cases ds with
      | nil => exact absurd rfl hne
      | cons d ds =>
        have hdigit := hd d List.mem_cons_self
        refine scanSign.eq_3 _ (fun more he => ?_) fun more he => ?_
        all_goals
          rw [(List.cons.inj he).1] at hdigit
          exact absurd hdigit (by decide)

theorem scanExponent_spelled {exponent : Option (Bool × List Char)} {cs rest : List Char}
    (h : ExponentSpelledBy exponent cs) (hr : EndsNumber rest) :
    scanExponent (cs ++ rest) = some (exponent, rest) := by
  cases exponent with
  | none =>
    obtain rfl := h
    cases rest with
    | nil => rfl
    | cons c cs =>
      obtain ⟨-, -, he, hE⟩ := hr c cs rfl
      rw [List.nil_append, scanExponent, if_neg (by simp [he, hE])]
  | some signed =>
    obtain ⟨negative, ds⟩ := signed
    obtain ⟨hd, letter, sign, hletter, hsign, rfl⟩ := h
    rw [List.cons_append, scanExponent, if_pos hletter, List.append_assoc,
      scanSign_spelled hsign hd rest]
    dsimp only
    rw [scanDigits_append hd fun c cs he => (hr c cs he).1]
    rfl

/-- **A number literal is read as it is spelled**, up to what follows. -/
theorem scan_spelled {n : Numeral} {cs rest : List Char} (h : n.SpelledBy cs)
    (hr : EndsNumber rest) : scan (cs ++ rest) = some (n, rest) := by
  obtain ⟨hwhole, fraction, exponent, hf, he, rfl⟩ := h
  -- What follows the whole part or the fraction begins with a point, a letter or `rest`.
  have hexponent : ∀ c more, exponent ++ rest = c :: more → isDigit c = false ∧ c ≠ '.' := by
    intro c more hc
    rcases hn : n.exponent with _ | ⟨negative, ds⟩
    · rw [hn] at he
      obtain rfl := he
      obtain ⟨hdigit, hpoint, -⟩ := hr c more hc
      exact ⟨hdigit, hpoint⟩
    · rw [hn] at he
      obtain ⟨-, letter, sign, hletter, -, rfl⟩ := he
      obtain ⟨rfl, -⟩ := List.cons.inj hc
      rcases hletter with rfl | rfl <;> decide
  have hfraction : NoDigit (fraction ++ (exponent ++ rest)) := by
    intro c more hc
    rcases hn : n.fraction with _ | ds
    · rw [hn] at hf
      obtain rfl := hf
      exact (hexponent c more hc).1
    · rw [hn] at hf
      obtain ⟨-, rfl⟩ := hf
      obtain ⟨rfl, -⟩ := List.cons.inj hc
      decide
  have hunsigned : scanUnsigned n.negative (n.whole ++ (fraction ++ (exponent ++ rest))) =
      some (n, rest) := by
    unfold scanUnsigned
    rw [scanWhole_spelled hwhole hfraction]
    simp only [Option.bind_eq_bind, Option.bind_some]
    rw [scanFraction_spelled hf (fun c more hc => (hexponent c more hc).1)
      fun more hc => (hexponent '.' more hc).2 rfl]
    simp only [Option.bind_some]
    rw [scanExponent_spelled he hr]
    rfl
  rw [List.append_assoc, List.append_assoc, List.append_assoc]
  cases hneg : n.negative with
  | true =>
    rw [hneg] at hunsigned
    exact hunsigned
  | false =>
    rw [hneg] at hunsigned
    show scan (n.whole ++ _) = _
    rw [scan.eq_2 _ ?_, hunsigned]
    intro tail hc
    obtain ⟨hne, hd⟩ := hwhole.isDigits
    cases hn : n.whole with
    | nil => exact hne hn
    | cons d ds =>
      have hdigit := hd d (by rw [hn]; exact List.mem_cons_self)
      rw [hn] at hc
      rw [(List.cons.inj hc).1] at hdigit
      exact absurd hdigit (by decide)

/-- The numeral of a natural number. -/
def ofNat (n : Nat) : Numeral :=
  { negative := false, whole := digits n, fraction := none, exponent := none }

/-- The digits of a number are its literal. -/
theorem spelledBy_digits (n : Nat) : (ofNat n).SpelledBy (digits n) := by
  refine ⟨?_, [], [], rfl, rfl, (List.append_nil _).symm⟩
  rcases Nat.eq_zero_or_pos n with rfl | hn
  · exact .inl digits_zero
  · exact .inr ⟨⟨digits_ne_nil n, fun _ => isDigit_of_mem_digits⟩, digits_head hn⟩

/-! ## What is read -/

theorem toNat?_ofNat (n : Nat) : (ofNat n).toNat? = some n := by
  unfold toNat?
  rw [if_pos ⟨rfl, rfl, rfl⟩]
  exact congrArg some (valueOf_digits n)

/-- Digits that stand for a number of 64 bits are all taken. -/
theorem takeWhole_eq : ∀ {ds : List Char} {sig : Nat},
    ds.foldl (fun n d => n * 10 + (d.toNat - '0'.toNat)) sig < Nat.pow 2 64 →
    takeWhole sig ds = (ds.foldl (fun n d => n * 10 + (d.toNat - '0'.toNat)) sig, 0)
  | [], _, _ => rfl
  | d :: ds, sig, h => by
    have hgrow : ∀ (ds : List Char) (n : Nat),
        n ≤ ds.foldl (fun n d => n * 10 + (d.toNat - '0'.toNat)) n := by
      intro ds
      induction ds with
      | nil => exact fun n => Nat.le_refl n
      | cons e es ih =>
        intro n
        have hstep : n ≤ n * 10 + (e.toNat - '0'.toNat) := by omega
        exact Nat.le_trans hstep (ih _)
    rw [List.foldl_cons] at h ⊢
    unfold takeWhole
    rw [if_pos (Nat.lt_of_le_of_lt (hgrow ds _) h)]
    exact takeWhole_eq h

/-- Rounding at most doubles a number. -/
theorem roundDouble_le (n : Nat) : roundDouble n ≤ 2 * n := by
  unfold roundDouble
  split
  · omega
  · rename_i h
    dsimp only
    have hpos : n ≠ 0 := by
      rintro rfl
      exact h (Nat.pow_pos (by decide))
    have hunit : Nat.pow 2 (n.log2 - 52) ≤ n :=
      Nat.le_trans (Nat.pow_le_pow_right (by decide) (Nat.sub_le _ _)) (Nat.log2_self_le hpos)
    have hdown : n / Nat.pow 2 (n.log2 - 52) * Nat.pow 2 (n.log2 - 52) ≤ n :=
      Nat.div_mul_le_self n _
    split
    · rw [Nat.add_mul, Nat.one_mul]
      omega
    · omega

theorem lt_doubleLimit {n : Nat} (h : n ≤ 2 * Nat.pow 2 64) : n < doubleLimit := by
  have hlimit : ∀ e, 65 < e → n < (Nat.pow 2 54 - 1) * Nat.pow 2 e := by
    intro e he
    have hpow : 2 ^ 65 < 2 ^ e := Nat.pow_lt_pow_right (by decide) he
    have hfactor : 1 * 2 ^ e ≤ (Nat.pow 2 54 - 1) * Nat.pow 2 e :=
      Nat.mul_le_mul_right _ (by decide)
    have hsum : n ≤ 2 ^ 65 := h
    omega
  unfold doubleLimit
  exact hlimit 970 (by decide)

/-- **A number of 64 bits is a double.** -/
theorem fitsDouble_ofNat {n : Nat} (h : n < Nat.pow 2 64) : (ofNat n).fitsDouble = true := by
  have hvalue : (digits n).foldl (fun n d => n * 10 + (d.toNat - '0'.toNat)) 0 = n :=
    valueOf_digits n
  have htake : takeWhole 0 (ofNat n).whole = (n, 0) := by
    show takeWhole 0 (digits n) = (n, 0)
    rw [takeWhole_eq (by rw [hvalue]; exact h), hvalue]
  have hscaled : (ofNat n).scaled = (n, .ofNat 0) := by
    unfold scaled
    rw [htake]
    rfl
  have hround := roundDouble_le n
  have hlimit : roundDouble n * roundDouble (Nat.pow 10 0) < doubleLimit := by
    rw [show roundDouble (Nat.pow 10 0) = 1 by decide, Nat.mul_one]
    exact lt_doubleLimit (by omega)
  unfold fitsDouble
  rw [hscaled]
  show (n == 0 || (decide (0 ≤ 308) &&
    decide (roundDouble n * roundDouble (Nat.pow 10 0) < doubleLimit))) = true
  rw [decide_eq_true hlimit, Bool.and_true, decide_eq_true (Nat.zero_le 308), Bool.or_true]

end Numeral

end InlineRepl.Json
