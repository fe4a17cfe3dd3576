import InlineRepl.Proofs.Invocation.Parsed
import InlineRepl.Proofs.Text.Lines

/-!
# Which texts name a line, and which a span

A line number is one ASCII digit or more, perhaps with a plus in front, and blanks around it; the
number that the digits denote counts from one and has to fit in 32 bits. Leading zeros do not
matter. A span is two line numbers around its first colon, the second not before the first.

Reading stops at the first fault that it meets, and it checks the bound after every digit. Since a
number only grows with its digits, a text is taken exactly if all its characters are digits and the
whole number is below the bound.

Results:
* `Text.Unsigned.readDigits_eq_ok_iff`, `Text.Unsigned.read_eq_ok_iff`: which texts are read as
  which number below a bound.
* `Text.splitAtFirst?_eq_some_iff`: what stands around the first mark.
* `readLine_eq_ok_iff`, `readSpan_eq_ok_iff`: which texts name which line, and which span.
* `lines_and_spans_are_exact`: all of this, and the spans that are written in decimal.
-/

namespace InlineRepl

namespace Text

/-! ## Splitting -/

/-- **The parts around the first mark**: the mark is not in the first of them. -/
theorem splitAtFirst?_eq_some_iff {mark : Char} {cs front back : List Char} :
    splitAtFirst? mark cs = some (front, back) ↔ cs = front ++ mark :: back ∧ mark ∉ front := by
  induction cs generalizing front with
  | nil => simp [splitAtFirst?]
  | cons c cs ih =>
    by_cases hc : c = mark
    · subst hc
      rw [splitAtFirst?, if_pos rfl, Option.some.injEq, Prod.mk.injEq]
      constructor
      · rintro ⟨rfl, rfl⟩
        simp
      · rintro ⟨hcs, hmark⟩
        cases front with
        | nil => exact ⟨rfl, (List.cons.inj hcs).2⟩
        | cons d front => simp [(List.cons.inj hcs).1] at hmark
    · rw [splitAtFirst?, if_neg hc, Option.map_eq_some_iff]
      constructor
      · rintro ⟨parts, hparts, he⟩
        obtain ⟨rfl, rfl⟩ := Prod.mk.inj he
        obtain ⟨rfl, hmark⟩ := ih.mp hparts
        exact ⟨rfl, by simp [Ne.symm hc, hmark]⟩
      · rintro ⟨hcs, hmark⟩
        cases front with
        | nil => exact absurd (List.cons.inj hcs).1 hc
        | cons d front =>
          obtain ⟨rfl, rfl⟩ := List.cons.inj hcs
          exact ⟨(front, back), ih.mpr ⟨rfl, fun h => hmark (List.mem_cons_of_mem c h)⟩, rfl⟩

namespace Unsigned

/-! ## Numbers -/

variable {bound acc value : Nat} {c : Char} {cs : List Char}

theorem digit?_of_isDigit (h : c.isDigit = true) : digit? c = some (c.toNat - '0'.toNat) := by
  have hc : '0' ≤ c ∧ c ≤ '9' := by
    simpa [Char.isDigit, Char.le_def] using h
  unfold digit?
  rw [if_pos hc]

theorem digit?_eq_none (h : c.isDigit = false) : digit? c = none := by
  have hc : ¬ ('0' ≤ c ∧ c ≤ '9') := by
    simpa [Char.isDigit, Char.le_def] using h
  unfold digit?
  rw [if_neg hc]

/-- A number grows with its digits. -/
theorem le_ofDigitChars (acc : Nat) (cs : List Char) : acc ≤ Nat.ofDigitChars 10 cs acc := by
  induction cs generalizing acc with
  | nil => exact Nat.le_of_eq Nat.ofDigitChars_nil.symm
  | cons c cs ih =>
    rw [Nat.ofDigitChars_cons]
    have hgrown := ih (10 * acc + (c.toNat - '0'.toNat))
    omega

/-- **Digits are read to the end** exactly if nothing else stands among them and the whole number is
below the bound: then so is every number on the way. -/
theorem readDigits_eq_ok_iff (hacc : acc < bound) : readDigits bound acc cs = .ok value ↔
    (∀ d ∈ cs, d.isDigit = true) ∧ Nat.ofDigitChars 10 cs acc = value ∧ value < bound := by
  induction cs generalizing acc with
  | nil =>
    rw [readDigits, Except.ok.injEq, Nat.ofDigitChars_nil]
    constructor
    · rintro rfl
      exact ⟨by simp, rfl, hacc⟩
    · rintro ⟨-, he, -⟩
      exact he
  | cons c cs ih =>
    rw [readDigits, Nat.ofDigitChars_cons, List.forall_mem_cons]
    by_cases hc : c.isDigit = true
    · rw [digit?_of_isDigit hc, Nat.mul_comm 10 acc]
      dsimp only
      split
      · rename_i hnext
        rw [ih hnext]
        simp [hc]
      · rename_i hlarge
        have hgrown := le_ofDigitChars (acc * 10 + (c.toNat - '0'.toNat)) cs
        constructor
        · intro h
          cases h
        · rintro ⟨-, rfl, hlt⟩
          omega
    · rw [digit?_eq_none (Bool.eq_false_iff.mpr hc)]
      simp [hc]

/-- The text spells the number: an optional plus, then one ASCII digit or more. -/
def Spells (cs : List Char) (value : Nat) : Prop :=
  ∃ sign digits, cs = sign ++ digits ∧ (sign = [] ∨ sign = ['+']) ∧ digits ≠ [] ∧
    (∀ d ∈ digits, d.isDigit = true) ∧ Nat.ofDigitChars 10 digits 0 = value

theorem Spells.unsigned (hne : cs ≠ []) (hcs : ∀ d ∈ cs, d.isDigit = true) :
    Spells cs (Nat.ofDigitChars 10 cs 0) :=
  ⟨[], cs, rfl, .inl rfl, hne, hcs, rfl⟩

/-- The decimal digits of a number spell it. -/
theorem spells_toDigits (n : Nat) : Spells (Nat.toDigits 10 n) n := by
  have hdigits : ∀ d ∈ Nat.toDigits 10 n, d.isDigit = true := fun d hd =>
    Nat.isDigit_of_mem_toDigits (by decide) (by decide) hd
  have hspells := Spells.unsigned Nat.toDigits_ne_nil hdigits
  rwa [Nat.ofDigitChars_ten_toDigits] at hspells

/-- Behind a plus stands the number; without one, the number is the text. -/
theorem spells_cons_iff : Spells (c :: cs) value ↔
    (if c = '+' then cs ≠ [] ∧ (∀ d ∈ cs, d.isDigit = true) ∧ Nat.ofDigitChars 10 cs 0 = value
      else (∀ d ∈ c :: cs, d.isDigit = true) ∧ Nat.ofDigitChars 10 (c :: cs) 0 = value) := by
  constructor
  · rintro ⟨sign, digits, hsplit, rfl | rfl, hne, hdigits, hvalue⟩
    · obtain rfl : c :: cs = digits := hsplit
      rw [if_neg]
      · exact ⟨hdigits, hvalue⟩
      · rintro rfl
        exact absurd (hdigits '+' List.mem_cons_self) (by decide)
    · obtain ⟨rfl, rfl⟩ := List.cons.inj hsplit
      rw [if_pos rfl]
      exact ⟨hne, hdigits, hvalue⟩
  · split
    · rename_i hplus
      rintro ⟨hne, hdigits, hvalue⟩
      exact ⟨['+'], cs, by rw [hplus]; rfl, .inr rfl, hne, hdigits, hvalue⟩
    · rintro ⟨hdigits, rfl⟩
      exact Spells.unsigned (by simp) hdigits

/-- **Which texts are read as a number below a bound**: those that spell it. -/
theorem read_eq_ok_iff (hbound : 0 < bound) :
    read bound cs = .ok value ↔ Spells cs value ∧ value < bound := by
  unfold read
  split
  · constructor
    · intro h
      cases h
    · rintro ⟨⟨sign, digits, hsplit, -, hne, -⟩, -⟩
      exact absurd (List.append_eq_nil_iff.mp hsplit.symm).2 hne
  · rw [spells_cons_iff, if_pos rfl]
    simp
  · rename_i rest hrest
    rw [spells_cons_iff, if_pos rfl, readDigits_eq_ok_iff hbound]
    have hne : rest ≠ [] := hrest
    simp [hne, and_assoc]
  · rename_i hnil hplus hsigned
    cases cs with
    | nil => exact absurd rfl hnil
    | cons c cs =>
      have hc : c ≠ '+' := by
        rintro rfl
        exact hsigned cs rfl
      rw [spells_cons_iff, if_neg hc, readDigits_eq_ok_iff hbound, and_assoc]

end Unsigned

end Text

open Text (trim)
open Text.Unsigned (Spells spells_toDigits)

variable {raw : List Char} {line : UInt32} {range : LineRange}

/-! ## Lines -/

/-- **Which texts name a line**: those that spell, between blanks, the number of the line counted
from one. -/
theorem readLine_eq_ok_iff : readLine raw = .ok line ↔
    Spells (trim raw) (line.toNat + 1) ∧ line.toNat + 1 ≤ 4294967295 := by
  have hread (value : Nat) : Text.Unsigned.read UInt32.size (trim raw) = .ok value ↔
      Spells (trim raw) value ∧ value < UInt32.size :=
    Text.Unsigned.read_eq_ok_iff (by decide)
  have hsize : UInt32.size = 4294967296 := rfl
  have hline : Spells (trim raw) (line.toNat + 1) ∧ line.toNat + 1 ≤ 4294967295 ↔
      Text.Unsigned.read UInt32.size (trim raw) = .ok (line.toNat + 1) := by
    rw [hread, hsize, Nat.lt_succ_iff]
  rw [hline]
  unfold readLine
  split
  · rename_i fault hfault
    rw [hfault]
    simp
  · rename_i hzero
    rw [hzero]
    simp
  · rename_i n hn
    obtain ⟨-, hlt⟩ := (hread (n + 1)).mp hn
    have hnumber : (UInt32.ofNat n).toNat = n := UInt32.toNat_ofNat_of_lt' (by omega)
    rw [hn, Except.ok.injEq, Except.ok.injEq]
    constructor
    · rintro rfl
      rw [hnumber]
    · intro h
      rw [Nat.succ.inj h]
      exact UInt32.ofNat_toNat

/-! ## Spans -/

/-- **Which texts name a span**: those whose two parts around the first colon name its ends, the end
not before the start. -/
theorem readSpan_eq_ok_iff : readSpan raw = .ok range ↔
    ∃ first last, raw = first ++ ':' :: last ∧ ':' ∉ first ∧ readLine first = .ok range.start ∧
      readLine last = .ok range.stop ∧ range.start ≤ range.stop := by
  constructor
  · intro h
    have hup := upright_readSpan h
    unfold readSpan at h
    split at h
    · cases h
    · rename_i first last hsplit
      obtain ⟨rfl, hfirst⟩ := Text.splitAtFirst?_eq_some_iff.mp hsplit
      obtain ⟨start, hstart, h⟩ := bind_eq_ok_iff.mp h
      obtain ⟨stop, hstop, h⟩ := bind_eq_ok_iff.mp h
      dsimp only at h
      split at h
      · cases h
      · obtain rfl := Except.ok.inj h
        exact ⟨first, last, rfl, hfirst, hstart, hstop, hup⟩
  · rintro ⟨first, last, rfl, hfirst, hstart, hstop, hup⟩
    unfold readSpan
    rw [Text.splitAtFirst?_eq_some_iff.mpr ⟨rfl, hfirst⟩]
    refine bind_eq_ok_iff.mpr ⟨_, hstart, bind_eq_ok_iff.mpr ⟨_, hstop, ?_⟩⟩
    dsimp only
    rw [if_neg (UInt32.not_lt.mpr hup)]
    rfl

/-! ## Decimal numbers -/

/-- Between which code points an ASCII digit lies. -/
theorem bounds_of_isDigit {c : Char} (h : c.isDigit = true) : 48 ≤ c.toNat ∧ c.toNat ≤ 57 := by
  simp only [Char.isDigit, Bool.and_eq_true, decide_eq_true_eq, ge_iff_le,
    UInt32.le_iff_toNat_le] at h
  exact h

theorem isBlank_of_isDigit {c : Char} (h : c.isDigit = true) : Text.isBlank c = false := by
  have hbounds := bounds_of_isDigit h
  simp only [Text.isBlank, Text.blankRanges, List.any_cons, List.any_nil, Bool.or_eq_false_iff,
    Bool.and_eq_false_iff, decide_eq_false_iff_not, and_true]
  omega

theorem isDigit_of_mem_toDigits {n : Nat} {c : Char} (h : c ∈ Nat.toDigits 10 n) :
    c.isDigit = true :=
  Nat.isDigit_of_mem_toDigits (by decide) (by decide) h

/-- The decimal form of a number names the line of that number. -/
theorem readLine_toDigits {n : Nat} (hpos : 1 ≤ n) (hle : n ≤ 4294967295) :
    readLine (Nat.toDigits 10 n) = .ok (UInt32.ofNat (n - 1)) := by
  have htrim : trim (Nat.toDigits 10 n) = Nat.toDigits 10 n := by
    have hdigits : ∀ c ∈ Nat.toDigits 10 n, Text.isBlank c = false :=
      fun c hc => isBlank_of_isDigit (isDigit_of_mem_toDigits hc)
    have hbare : trim ([] ++ Nat.toDigits 10 n ++ []) = Nat.toDigits 10 n :=
      Text.trim_bare (by simp) (by simp) hdigits
    simpa using hbare
  have hline : (UInt32.ofNat (n - 1)).toNat + 1 = n := by
    have hlt : n - 1 < UInt32.size := by
      have hsize : UInt32.size = 4294967296 := rfl
      omega
    rw [UInt32.toNat_ofNat_of_lt' hlt]
    omega
  rw [readLine_eq_ok_iff, htrim, hline]
  exact ⟨spells_toDigits n, hle⟩

/-- **Lines and spans are read exactly**, whatever the text.

A text names a line if and only if it is, without the blanks around it, an optional plus and one
ASCII digit or more that denote the number of the line counted from one, and that number is at most
the largest of 32 bits. A text names a span if and only if what stands in front of its first colon
and all that stands behind it name the two ends, the end not before the start. So every two numbers
in order, written in decimal with a colon between them, name the span of their lines. -/
theorem lines_and_spans_are_exact :
    (∀ raw line, readLine raw = .ok line ↔
      ∃ sign digits, trim raw = sign ++ digits ∧ (sign = [] ∨ sign = ['+']) ∧ digits ≠ [] ∧
        (∀ d ∈ digits, d.isDigit = true) ∧ Nat.ofDigitChars 10 digits 0 = line.toNat + 1 ∧
        1 ≤ line.toNat + 1 ∧ line.toNat + 1 ≤ 4294967295) ∧
    (∀ raw range, readSpan raw = .ok range ↔
      ∃ first last, raw = first ++ ':' :: last ∧ ':' ∉ first ∧ readLine first = .ok range.start ∧
        readLine last = .ok range.stop ∧ range.start ≤ range.stop) ∧
    ∀ start stop : Nat, 1 ≤ start → start ≤ stop → stop ≤ 4294967295 →
      ∃ range, readSpan (Nat.toDigits 10 start ++ ':' :: Nat.toDigits 10 stop) = .ok range ∧
        range.start.toNat = start - 1 ∧ range.stop.toNat = stop - 1 := by
  refine ⟨fun raw line => ?_, fun raw range => readSpan_eq_ok_iff, ?_⟩
  · rw [readLine_eq_ok_iff]
    constructor
    · rintro ⟨⟨sign, digits, hsplit, hsign, hne, hdigits, hvalue⟩, hle⟩
      exact ⟨sign, digits, hsplit, hsign, hne, hdigits, hvalue, by omega, hle⟩
    · rintro ⟨sign, digits, hsplit, hsign, hne, hdigits, hvalue, -, hle⟩
      exact ⟨⟨sign, digits, hsplit, hsign, hne, hdigits, hvalue⟩, hle⟩
  · intro start stop hstart hle hstop
    have hsize : UInt32.size = 4294967296 := rfl
    have hfirst : (UInt32.ofNat (start - 1)).toNat = start - 1 :=
      UInt32.toNat_ofNat_of_lt' (by omega)
    have hlast : (UInt32.ofNat (stop - 1)).toNat = stop - 1 :=
      UInt32.toNat_ofNat_of_lt' (by omega)
    have hcolon : ':' ∉ Nat.toDigits 10 start := fun h =>
      absurd (isDigit_of_mem_toDigits h) (by decide)
    refine ⟨⟨UInt32.ofNat (start - 1), UInt32.ofNat (stop - 1)⟩, readSpan_eq_ok_iff.mpr
      ⟨_, _, rfl, hcolon, readLine_toDigits hstart (by omega),
        readLine_toDigits (by omega) hstop, ?_⟩, hfirst, hlast⟩
    rw [UInt32.le_iff_toNat_le]
    dsimp only
    omega

/-- The whole document is a span; so is its first line, with blanks, a sign and leading zeros. -/
theorem widest_and_first_span :
    (∃ range, readSpan "1:4294967295".toList = .ok range ∧ range.start.toNat = 0 ∧
      range.stop.toNat = 4294967294) ∧
    readSpan "\u00A0+1\t:\n001".toList = .ok ⟨0, 0⟩ := by
  obtain ⟨hline, hspan, hdecimal⟩ := lines_and_spans_are_exact
  refine ⟨hdecimal 1 4294967295 (by decide) (by decide) (by decide), (hspan _ _).mpr
    ⟨"\u00A0+1\t".toList, "\n001".toList, rfl, by decide, ?_, ?_, by decide⟩⟩
  · exact (hline _ _).mpr ⟨['+'], ['1'], by decide, .inr rfl, nofun,
      List.all_eq_true.mp (by decide), by decide, by decide, by decide⟩
  · exact (hline _ _).mpr ⟨[], ['0', '0', '1'], by decide, .inl rfl, nofun,
      List.all_eq_true.mp (by decide), by decide, by decide, by decide⟩

/-- Line zero, a number of more than 32 bits, a blank inside and a second colon name nothing. -/
example : ["0:1", "1:4294967296", "1 2:3", "1:2:3", "2:1", "1"].map
    (fun raw => (readSpan raw.toList).toOption) = List.replicate 6 none := by
  decide

end InlineRepl
