import InlineRepl.Json.Quoted
import Mathlib.Tactic.Common

/-!
# A quoted text is read as it was

Results:
* `scanQuoted_spelled`: a string of the grammar is read as it is spelled, up to its closing quote.
* `spelledBy_of_scanQuoted`: and what is read as one is spelled so.
* `spelledBy_escape`: whatever a character is escaped as, it is a spelling of the character.
* `scanQuoted_quote`: reading a quoted text ends at its closing quote and gives its characters.
* `joinUnits_chars`: characters that stand for themselves make the text they are.
-/

namespace InlineRepl.Json

theorem hexQuad_hexDigit :
    ∀ n, n < 0x20 → hexQuad? '0' '0' (hexDigit (n / 16)) (hexDigit (n % 16)) = some n := by
  decide

theorem unit16_ofNat_toNat {c : Char} (h : c.toNat < 0x20) : Unit16.ofNat c.toNat = .char c := by
  unfold Unit16.ofNat
  rw [if_neg (by omega), Char.ofNat_toNat]

/-! ## The grammar of strings -/

/-- What may stand between the quotes for a unit: a character that stands for itself, a one-letter
escape, or a code unit in four hexadecimal digits. -/
inductive Unit16.SpelledBy : Unit16 → List Char → Prop where
  | plain {c : Char} (hq : c ≠ '"') (hb : c ≠ '\\') (hc : 0x20 ≤ c.toNat) :
    SpelledBy (.char c) [c]
  | short {e c : Char} (hc : shortEscape? e = some c) : SpelledBy (.char c) ['\\', e]
  | code {a b c d : Char} {n : Nat} (hn : hexQuad? a b c d = some n) :
    SpelledBy (Unit16.ofNat n) ['\\', 'u', a, b, c, d]

/-- What may stand between the quotes for a sequence of units. -/
def UnitsSpelledBy : List Unit16 → List Char → Prop
  | [], cs => cs = []
  | unit :: units, cs =>
    ∃ head tail, unit.SpelledBy head ∧ UnitsSpelledBy units tail ∧ cs = head ++ tail

/-- The text is a string between quotes. -/
def QuotedBy (units : List Unit16) (cs : List Char) : Prop :=
  ∃ inner, UnitsSpelledBy units inner ∧ cs = '"' :: (inner ++ ['"'])

/-- **A unit is read as it is spelled**, whatever follows. -/
theorem scanQuoted_unit {unit : Unit16} {cs : List Char} (h : unit.SpelledBy cs)
    (rest : List Char) :
    scanQuoted (cs ++ rest) =
      (scanQuoted rest).map fun scanned => (unit :: scanned.1, scanned.2) := by
  cases h with
  | @plain c hq hb hc =>
    have hplain : ¬ (c.toNat < 0x20 ∨ c = '\\') := by
      rintro (h | h)
      · omega
      · exact hb h
    rw [List.singleton_append, scanQuoted.eq_5 c rest hq (fun _ _ _ _ _ h _ => hb h)
      fun _ _ h _ => hb h, if_neg hplain]
    cases scanQuoted rest <;> rfl
  | @short e c hc =>
    have he : e ≠ 'u' := by
      rintro rfl
      have hnone : shortEscape? 'u' = none := by decide
      exact absurd (hnone.symm.trans hc) nofun
    show scanQuoted ('\\' :: e :: rest) = _
    rw [scanQuoted.eq_4 e rest fun _ _ _ _ _ h _ => he h, hc]
    cases scanQuoted rest <;> rfl
  | @code a b c d n hn =>
    show scanQuoted ('\\' :: 'u' :: a :: b :: c :: d :: rest) = _
    rw [scanQuoted, hn]
    cases scanQuoted rest <;> rfl

/-- **A string is read as it is spelled**, up to its closing quote. -/
theorem scanQuoted_spelled (rest : List Char) : ∀ {units : List Unit16} {cs : List Char},
    UnitsSpelledBy units cs → scanQuoted (cs ++ '"' :: rest) = some (units, rest)
  | [], _, h => by
    obtain rfl := h
    rw [List.nil_append, scanQuoted]
  | unit :: units, _, h => by
    obtain ⟨head, tail, hhead, htail, rfl⟩ := h
    rw [List.append_assoc, scanQuoted_unit hhead, scanQuoted_spelled rest htail]
    rfl

/-- **What is read as a string spells its units**, up to the closing quote. -/
theorem spelledBy_of_scanQuoted {cs rest : List Char} {units : List Unit16}
    (h : scanQuoted cs = some (units, rest)) :
    ∃ inner, UnitsSpelledBy units inner ∧ cs = inner ++ '"' :: rest := by
  fun_induction scanQuoted cs generalizing units rest with
  | case1 => cases h
  | case2 after =>
    obtain ⟨rfl, rfl⟩ := Prod.mk.inj (Option.some.inj h)
    exact ⟨[], rfl, rfl⟩
  | case3 a b c d after ih =>
    simp only [Option.bind_eq_bind, Option.bind_eq_some_iff] at h
    obtain ⟨n, hn, ⟨more, _⟩, hmore, h⟩ := h
    obtain ⟨rfl, rfl⟩ := Prod.mk.inj (Option.some.inj h)
    obtain ⟨inner, hinner, rfl⟩ := ih hmore
    exact ⟨_, ⟨_, inner, .code hn, hinner, rfl⟩, rfl⟩
  | case4 e after hcode ih =>
    simp only [Option.bind_eq_bind, Option.bind_eq_some_iff] at h
    obtain ⟨c, hc, ⟨more, _⟩, hmore, h⟩ := h
    obtain ⟨rfl, rfl⟩ := Prod.mk.inj (Option.some.inj h)
    obtain ⟨inner, hinner, rfl⟩ := ih hmore
    exact ⟨_, ⟨_, inner, .short hc, hinner, rfl⟩, rfl⟩
  | case5 c after hcode hshort hquote hplain => cases h
  | case6 c after hcode hshort hquote hplain ih =>
    simp only [Option.bind_eq_bind, Option.bind_eq_some_iff] at h
    obtain ⟨⟨more, _⟩, hmore, h⟩ := h
    obtain ⟨rfl, rfl⟩ := Prod.mk.inj (Option.some.inj h)
    obtain ⟨inner, hinner, rfl⟩ := ih hmore
    rw [not_or, Nat.not_lt] at hplain
    exact ⟨_, ⟨_, inner, .plain (by assumption) hplain.2 hplain.1, hinner, rfl⟩, rfl⟩

/-! ## Written texts -/

/-- The written form of a character is a spelling of it. -/
theorem spelledBy_escape (c : Char) : (Unit16.char c).SpelledBy (escape c) := by
  unfold escape
  split_ifs with h1 h2 h3 h4 h5 h6 h7 h8
  · subst h1
    exact .short rfl
  · subst h2
    exact .short rfl
  · subst h3
    exact .short rfl
  · subst h4
    exact .short rfl
  · subst h5
    exact .short rfl
  · subst h6
    exact .short rfl
  · subst h7
    exact .short rfl
  · rw [← unit16_ofNat_toNat h8]
    exact .code (hexQuad_hexDigit c.toNat h8)
  · exact .plain h1 h2 (by omega)

/-- The written form of a text is a spelling of its characters. -/
theorem spelledBy_escapes : ∀ cs : List Char,
    UnitsSpelledBy (cs.map .char) (cs.flatMap escape)
  | [] => rfl
  | c :: cs => ⟨escape c, cs.flatMap escape, spelledBy_escape c, spelledBy_escapes cs, rfl⟩

theorem quotedBy_quote (cs : List Char) : QuotedBy (cs.map .char) (quote cs) :=
  ⟨cs.flatMap escape, spelledBy_escapes cs, rfl⟩

/-- **A quoted text is read as it was**, up to its closing quote. -/
theorem scanQuoted_quote (rest : List Char) (cs : List Char) :
    scanQuoted (cs.flatMap escape ++ '"' :: rest) = some (cs.map .char, rest) :=
  scanQuoted_spelled rest (spelledBy_escapes cs)

/-- Characters that stand for themselves make the text they are. -/
theorem joinUnits_chars : ∀ cs : List Char, joinUnits (cs.map .char) = some cs
  | [] => rfl
  | c :: cs => by
    show (joinUnits (cs.map .char)).map (c :: ·) = _
    rw [joinUnits_chars cs]
    rfl

end InlineRepl.Json
