import InlineRepl.Proofs.Json.Numeral
import Mathlib.Data.Rat.Cast.Order
import Mathlib.Tactic.Positivity
import Mathlib.Tactic.Ring

/-!
# Which literals are doubles

A literal is taken for a double in two rounded steps: as many of its digits as fit in 64 bits, and a
power of ten. What is taken never exceeds the magnitude of the literal (`taken_le`), and each
rounding adds at most one part in 2 ^ 53 (`roundDouble_mul_le`), so a literal is a double up to
three steps below the first magnitude that is none. Closer to it the reading may refuse a literal
whose magnitude is that of a double.

Results:
* `fitsDouble_of_magnitude`: every literal up to the third-largest double is a double.
* `fitsDouble_largeLiteral`: a literal between the third-largest and the largest is none.
-/

namespace InlineRepl.Json.Numeral

/-! ## Magnitude -/

/-- The number that a digit adds to the digits before it. -/
def push (n : Nat) (d : Char) : Nat :=
  n * 10 + (d.toNat - '0'.toNat)

/-- The value of the exponent, zero without one. -/
def shift (n : Numeral) : Int :=
  match n.exponent with
  | none => 0
  | some (true, ds) => -(valueOf ds : Int)
  | some (false, ds) => (valueOf ds : Int)

/-- The digits of the fraction, none without one. -/
def decimals (n : Numeral) : List Char :=
  n.fraction.getD []

/-- The number that a literal stands for, its sign aside. -/
def magnitude (n : Numeral) : ℚ :=
  valueOf (n.whole ++ n.decimals) * 10 ^ (n.shift - n.decimals.length)

theorem foldl_push_ge (ds : List Char) : ∀ n : Nat, n * 10 ^ ds.length ≤ ds.foldl push n := by
  induction ds with
  | nil => exact fun n => (Nat.mul_one n).le
  | cons d ds ih =>
    intro n
    calc n * 10 ^ (ds.length + 1) = n * 10 * 10 ^ ds.length := by ring
      _ ≤ push n d * 10 ^ ds.length := Nat.mul_le_mul_right _ (Nat.le_add_right _ _)
      _ ≤ ds.foldl push (push n d) := ih _

/-! ## The digits that are taken -/

variable {sig taken count : Nat} {ds : List Char}

/-- Before the point, all digits are taken, or a digit comes that does not fit. -/
theorem takeWhole_cases : ∀ {ds : List Char} {sig : Nat},
    takeWhole sig ds = (taken, count) →
      (count = 0 ∧ taken = ds.foldl push sig) ∨
        ∃ rest, count = rest + 1 ∧ ∃ d, 2 ^ 64 ≤ push taken d ∧
          push taken d * 10 ^ rest ≤ ds.foldl push sig
  | [], sig, h => by
    obtain ⟨rfl, rfl⟩ := Prod.mk.inj h
    exact .inl ⟨rfl, rfl⟩
  | d :: ds, sig, h => by
    unfold takeWhole at h
    split at h
    · have hmore := takeWhole_cases h
      exact hmore
    · rename_i hbig
      obtain ⟨rfl, rfl⟩ := Prod.mk.inj h
      exact .inr ⟨ds.length, rfl, d, Nat.le_of_not_lt hbig, foldl_push_ge ds _⟩

/-- After the point, some digits are taken, and then what they make fits in 64 bits. -/
theorem takeFraction_cases : ∀ {ds : List Char} {sig taken count : Nat},
    takeFraction sig ds = (taken, count) →
      count ≤ ds.length ∧ taken * 10 ^ (ds.length - count) ≤ ds.foldl push sig ∧
        (count = 0 ∧ taken = sig ∨ 0 < count ∧ taken < 2 ^ 64)
  | [], sig, _, _, h => by
    obtain ⟨rfl, rfl⟩ := Prod.mk.inj h
    exact ⟨Nat.le_refl 0, (Nat.mul_one sig).le, .inl ⟨rfl, rfl⟩⟩
  | d :: ds, sig, _, _, h => by
    unfold takeFraction at h
    split at h
    · rename_i hfits
      rcases hmore : takeFraction (push sig d) ds with ⟨taken, count⟩
      obtain ⟨hcount, hle, htaken⟩ := takeFraction_cases hmore
      rw [show sig * 10 + (d.toNat - '0'.toNat) = push sig d from rfl, hmore] at h
      obtain ⟨rfl, rfl⟩ := Prod.mk.inj h
      refine ⟨Nat.succ_le_succ hcount, ?_, .inr ⟨Nat.succ_pos _, ?_⟩⟩
      · rw [List.length_cons, Nat.add_sub_add_right]
        exact hle
      · rcases htaken with ⟨-, rfl⟩ | ⟨-, hlt⟩
        · exact hfits
        · exact hlt
    · obtain ⟨rfl, rfl⟩ := Prod.mk.inj h
      exact ⟨Nat.zero_le _, foldl_push_ge (d :: ds) sig, .inl ⟨rfl, rfl⟩⟩

/-- **What is taken of the digits does not exceed what they make.** -/
theorem taken_le {whole decimals : List Char} {first more under : Nat}
    (hwhole : takeWhole 0 whole = (first, more))
    (hfraction : takeFraction first decimals = (taken, under)) :
    under ≤ decimals.length ∧
      taken * 10 ^ (more + (decimals.length - under)) ≤ valueOf (whole ++ decimals) := by
  obtain ⟨hunder, hle, htaken⟩ := takeFraction_cases hfraction
  refine ⟨hunder, ?_⟩
  have hvalue : valueOf (whole ++ decimals) = decimals.foldl push (whole.foldl push 0) :=
    List.foldl_append
  rw [hvalue]
  rcases takeWhole_cases hwhole with ⟨rfl, rfl⟩ | ⟨rest, rfl, d, hbig, hd⟩
  · rw [Nat.zero_add]
    exact hle
  · have htotal : push first d * 10 ^ (rest + decimals.length) ≤
        decimals.foldl push (whole.foldl push 0) :=
      calc push first d * 10 ^ (rest + decimals.length)
          = push first d * 10 ^ rest * 10 ^ decimals.length := by ring
        _ ≤ whole.foldl push 0 * 10 ^ decimals.length := Nat.mul_le_mul_right _ hd
        _ ≤ decimals.foldl push (whole.foldl push 0) := foldl_push_ge _ _
    refine Nat.le_trans ?_ htotal
    rcases htaken with ⟨rfl, rfl⟩ | ⟨hpos, hlt⟩
    · calc taken * 10 ^ (rest + 1 + (decimals.length - 0))
          = taken * 10 * 10 ^ (rest + decimals.length) := by
            rw [Nat.sub_zero, show rest + 1 + decimals.length = rest + decimals.length + 1 by omega,
              pow_succ]
            ring
        _ ≤ push taken d * 10 ^ (rest + decimals.length) :=
          Nat.mul_le_mul_right _ (Nat.le_add_right _ _)
    · -- Digits after the point are taken in place of one that did not fit before it.
      have hpow : 10 ^ (rest + 1 + (decimals.length - under)) ≤ 10 ^ (rest + decimals.length) :=
        Nat.pow_le_pow_right (by decide) (by omega)
      exact Nat.mul_le_mul (by omega) hpow

/-! ## Rounding -/

/-- A number with 53 bits and more is rounded up by at most half of its last unit. -/
theorem round_up_le {n down low unit : Nat} (hn : down + low = n) (hlow : unit ≤ 2 * low)
    (hunit : unit * 2 ^ 52 ≤ n) : (down + unit) * 2 ^ 53 ≤ n * (2 ^ 53 + 1) :=
  calc (down + unit) * 2 ^ 53 = down * 2 ^ 53 + unit * 2 ^ 52 + unit * 2 ^ 52 := by ring
    _ ≤ down * 2 ^ 53 + 2 * low * 2 ^ 52 + n :=
      Nat.add_le_add (Nat.add_le_add_left (Nat.mul_le_mul_right _ hlow) _) hunit
    _ = (down + low) * 2 ^ 53 + n := by ring
    _ = n * (2 ^ 53 + 1) := by rw [hn, Nat.mul_add, Nat.mul_one]

/-- **Rounding adds at most one part in 2 ^ 53.** -/
theorem roundDouble_mul_le (n : Nat) : roundDouble n * 2 ^ 53 ≤ n * (2 ^ 53 + 1) := by
  unfold roundDouble
  split
  · omega
  · rename_i hbig
    have hpos : n ≠ 0 := by
      rintro rfl
      exact hbig (Nat.pow_pos (by decide))
    dsimp only
    generalize hunit : Nat.pow 2 (n.log2 - 52) = unit
    have hlog : 53 ≤ n.log2 := (Nat.le_log2 hpos).mpr (Nat.le_of_not_lt hbig)
    have hself : unit * 2 ^ 52 ≤ n := by
      have hsplit : unit * 2 ^ 52 = 2 ^ n.log2 := by
        rw [← hunit]
        show 2 ^ (n.log2 - 52) * 2 ^ 52 = _
        rw [← pow_add, Nat.sub_add_cancel (by omega)]
      rw [hsplit]
      exact Nat.log2_self_le hpos
    have hdiv : n / unit * unit + n % unit = n := by
      rw [Nat.mul_comm]
      exact Nat.div_add_mod n unit
    split
    · rename_i hup
      rw [Nat.add_mul, Nat.one_mul]
      refine round_up_le hdiv ?_ hself
      rcases hup with hup | hup
      · exact hup.le
      · exact hup.1.ge
    · exact Nat.mul_le_mul (Nat.div_mul_le_self n unit) (Nat.le_succ _)

/-! ## The range -/

/-- The third-largest double. -/
def safeMagnitude : Nat :=
  (2 ^ 53 - 3) * 2 ^ 971

/-- The largest double. -/
def largestDouble : Nat :=
  (2 ^ 53 - 1) * 2 ^ 971

/-- A significand and a power of ten whose product is small enough are rounded to a double. -/
theorem round_lt_doubleLimit {e : Nat} (h : sig * 10 ^ e ≤ safeMagnitude) :
    roundDouble sig * roundDouble (10 ^ e) < doubleLimit := by
  have hlimit : safeMagnitude * (2 ^ 53 + 1) ^ 2 < doubleLimit * (2 ^ 53) ^ 2 := by
    decide +kernel
  have hround : roundDouble sig * roundDouble (10 ^ e) * (2 ^ 53) ^ 2 ≤
      safeMagnitude * (2 ^ 53 + 1) ^ 2 :=
    calc roundDouble sig * roundDouble (10 ^ e) * (2 ^ 53) ^ 2
        = roundDouble sig * 2 ^ 53 * (roundDouble (10 ^ e) * 2 ^ 53) := by ring
      _ ≤ sig * (2 ^ 53 + 1) * (10 ^ e * (2 ^ 53 + 1)) :=
        Nat.mul_le_mul (roundDouble_mul_le _) (roundDouble_mul_le _)
      _ = sig * 10 ^ e * (2 ^ 53 + 1) ^ 2 := by ring
      _ ≤ safeMagnitude * (2 ^ 53 + 1) ^ 2 := Nat.mul_le_mul_right _ h
  exact Nat.lt_of_mul_lt_mul_right (Nat.lt_of_le_of_lt hround hlimit)

/-- **What is taken of a literal does not exceed its magnitude.** -/
theorem scaled_le_magnitude (n : Numeral) :
    (n.scaled.1 : ℚ) * 10 ^ n.scaled.2 ≤ n.magnitude := by
  rcases hwhole : takeWhole 0 n.whole with ⟨first, more⟩
  rcases hfraction : takeFraction first n.decimals with ⟨taken, under⟩
  obtain ⟨hunder, hle⟩ := taken_le hwhole hfraction
  have hscaled : n.scaled = (taken, (more : Int) - (under : Int) + n.shift) := by
    unfold scaled
    rw [hwhole]
    dsimp only
    rw [show n.fraction.getD [] = n.decimals from rfl, hfraction]
    rfl
  have hpower : (more : Int) - (under : Int) + n.shift =
      ((more + (n.decimals.length - under) : ℕ) : Int) + (n.shift - n.decimals.length) := by
    omega
  rw [hscaled]
  unfold magnitude
  dsimp only
  rw [hpower, zpow_add₀ (by norm_num), zpow_natCast, ← mul_assoc]
  refine mul_le_mul_of_nonneg_right ?_ (zpow_nonneg (by norm_num) _)
  exact_mod_cast hle

/-- **Every literal up to the third-largest double is a double.** -/
theorem fitsDouble_of_magnitude {n : Numeral} (h : n.magnitude ≤ safeMagnitude) :
    n.fitsDouble = true := by
  have hscaled := n.scaled_le_magnitude.trans h
  unfold fitsDouble
  rcases hn : n.scaled with ⟨sig, e | e⟩
  · rw [hn] at hscaled
    have hsig : sig * 10 ^ e ≤ safeMagnitude := by
      have hcast : (sig : ℚ) * 10 ^ (e : ℤ) ≤ safeMagnitude := hscaled
      rw [zpow_natCast] at hcast
      exact_mod_cast hcast
    rcases Nat.eq_zero_or_pos sig with rfl | hpos
    · rfl
    · have he : e ≤ 308 := by
        by_contra hbig
        have hpow : ∀ k, k ≤ e → 10 ^ k ≤ 10 ^ e := fun _ => Nat.pow_le_pow_right (by decide)
        have hlarge : safeMagnitude < 10 ^ 309 := by decide +kernel
        have hle : 10 ^ e ≤ sig * 10 ^ e := Nat.le_mul_of_pos_left _ hpos
        have hsmall := (hpow 309 (Nat.lt_of_not_le hbig)).trans (hle.trans hsig)
        exact absurd hsmall (Nat.not_le.mpr hlarge)
      have hround : roundDouble sig * roundDouble (Nat.pow 10 e) < doubleLimit :=
        round_lt_doubleLimit hsig
      dsimp only
      rw [decide_eq_true he, decide_eq_true hround, Bool.and_self, Bool.or_true]
  · rfl

/-- A literal just below the largest double: 1797693134862315700e290. -/
def largeLiteral : Numeral :=
  { negative := false, whole := "1797693134862315700".toList, fraction := none,
    exponent := some (false, "290".toList) }

theorem spelledBy_largeLiteral : largeLiteral.SpelledBy "1797693134862315700e290".toList := by
  have hwhole : IsDigits largeLiteral.whole := isDigits_of_all (by decide) (by decide)
  have hexponent : IsDigits "290".toList := isDigits_of_all (by decide) (by decide)
  exact ⟨.inr ⟨hwhole, by simp [largeLiteral]⟩, [], "e290".toList, rfl,
    ⟨hexponent, 'e', [], .inl rfl, .inr rfl, rfl⟩, rfl⟩

/-- The magnitude of a literal without digits behind its last place is a natural number. -/
theorem magnitude_eq {n : Numeral} {power : Nat}
    (h : n.shift - n.decimals.length = (power : Int)) :
    n.magnitude = (valueOf (n.whole ++ n.decimals) * 10 ^ power : ℕ) := by
  unfold magnitude
  rw [h, zpow_natCast]
  push_cast
  rfl

theorem largeLiteral_le : largeLiteral.magnitude ≤ largestDouble := by
  have hpower : largeLiteral.shift - largeLiteral.decimals.length = ((290 : ℕ) : Int) := by
    decide +kernel
  rw [magnitude_eq hpower, Nat.cast_le]
  decide +kernel

/-- **A literal may be refused although its magnitude is that of a double**: its digits and its
power of ten are both rounded up. -/
theorem fitsDouble_largeLiteral : largeLiteral.fitsDouble = false := by
  decide +kernel

end InlineRepl.Json.Numeral
