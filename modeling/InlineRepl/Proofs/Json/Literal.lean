import InlineRepl.Proofs.Json.Quoted

/-!
# The literal at the end of a text

A string literal begins with a quote and ends with the quote that reading it stops at. A quote in
between stands behind a backslash, never behind a blank. So a text ends in one literal at most that
a blank sets off, whatever stands in front of the blank and whatever the literal spells.

Results:
* `isSealed_of_scanQuoted`: inside a literal no quote stands behind a blank.
* `literal_unique`: the literal at the end of a text, and what stands in front of it.
* `isLiteral_quote`: a quoted text is a literal.
-/

namespace InlineRepl.Json

/-- A string literal: an opening quote, and what is read up to a closing one and no further. -/
def IsLiteral (cs : List Char) : Prop :=
  ∃ body units, cs = '"' :: body ∧ scanQuoted body = some (units, [])

/-- A quote behind a blank is the last character. -/
def IsSealed (body : List Char) : Prop :=
  ∀ front back, body = front ++ ' ' :: '"' :: back → back = []

variable {c : Char} {body : List Char}

theorem IsSealed.cons (hc : c ≠ ' ') (h : IsSealed body) : IsSealed (c :: body) := by
  intro front back hbody
  cases front with
  | nil => exact absurd (List.cons.inj hbody).1 hc
  | cons d front => exact h front back (List.cons.inj hbody).2

theorem ne_blank_of_hexValue {n : Nat} (h : hexValue? c = some n) : c ≠ ' ' := by
  rintro rfl
  cases (show hexValue? ' ' = none by decide).symm.trans h

theorem ne_blank_of_shortEscape {d : Char} (h : shortEscape? c = some d) : c ≠ ' ' := by
  rintro rfl
  cases (show shortEscape? ' ' = none by decide).symm.trans h

theorem ne_blank_of_hexQuad {c1 c2 c3 c4 : Char} {n : Nat} (h : hexQuad? c1 c2 c3 c4 = some n) :
    c1 ≠ ' ' ∧ c2 ≠ ' ' ∧ c3 ≠ ' ' ∧ c4 ≠ ' ' := by
  simp only [hexQuad?, Option.bind_eq_bind, Option.bind_eq_some_iff] at h
  obtain ⟨_, h1, _, h2, _, h3, _, h4, -⟩ := h
  exact ⟨ne_blank_of_hexValue h1, ne_blank_of_hexValue h2, ne_blank_of_hexValue h3,
    ne_blank_of_hexValue h4⟩

/-- **Inside a literal no quote stands behind a blank.** -/
theorem isSealed_of_scanQuoted {units : List Unit16} (h : scanQuoted body = some (units, [])) :
    IsSealed body := by
  fun_induction scanQuoted body generalizing units with
  | case1 => cases h
  | case2 rest =>
    obtain rfl : rest = [] := (Prod.mk.inj (Option.some.inj h)).2
    intro front back hbody
    have hlen := congrArg List.length hbody
    simp only [List.length_append, List.length_cons, List.length_nil] at hlen
    omega
  | case3 c1 c2 c3 c4 rest ih =>
    simp only [Option.bind_eq_bind, Option.bind_eq_some_iff] at h
    obtain ⟨_, hquad, ⟨_, _⟩, hrest, hdone⟩ := h
    obtain ⟨h1, h2, h3, h4⟩ := ne_blank_of_hexQuad hquad
    obtain ⟨-, rfl⟩ := Prod.mk.inj (Option.some.inj hdone)
    exact .cons (by decide) (.cons (by decide) (.cons h1 (.cons h2 (.cons h3 (.cons h4
      (ih hrest))))))
  | case4 e rest _ ih =>
    simp only [Option.bind_eq_bind, Option.bind_eq_some_iff] at h
    obtain ⟨_, hescape, ⟨_, _⟩, hrest, hdone⟩ := h
    obtain ⟨-, rfl⟩ := Prod.mk.inj (Option.some.inj hdone)
    exact .cons (by decide) (.cons (ne_blank_of_shortEscape hescape) (ih hrest))
  | case5 => cases h
  | case6 d rest _ _ _ _ ih =>
    simp only [Option.bind_eq_bind, Option.bind_eq_some_iff] at h
    obtain ⟨⟨_, _⟩, hrest, hdone⟩ := h
    obtain ⟨-, rfl⟩ := Prod.mk.inj (Option.some.inj hdone)
    intro front back hbody
    cases front with
    | nil =>
      -- A blank and then a quote: the quote closes the literal.
      obtain ⟨rfl, rfl⟩ := List.cons.inj hbody
      rw [scanQuoted] at hrest
      exact (Prod.mk.inj (Option.some.inj hrest)).2
    | cons _ front => exact ih hrest front back (List.cons.inj hbody).2

/-- A literal that a blank sets off does not begin inside another one. -/
theorem eq_nil_of_literal {literal other more : List Char} (hl : IsLiteral literal)
    (ho : IsLiteral other) (h : ' ' :: literal = more ++ ' ' :: other) : more = [] := by
  obtain ⟨body, units, rfl, hbody⟩ := hl
  obtain ⟨rest, others, rfl, hrest⟩ := ho
  match more, h with
  | [], _ => rfl
  | [_], h => exact absurd (List.cons.inj (List.cons.inj h).2).1 (by decide)
  | _ :: _ :: more, h =>
    have hinside : body = more ++ ' ' :: '"' :: rest := (List.cons.inj (List.cons.inj h).2).2
    obtain rfl := isSealed_of_scanQuoted hbody more rest hinside
    cases hrest

/-- **A text ends in one literal at most** that a blank sets off. -/
theorem literal_unique {before front literal other : List Char} (hl : IsLiteral literal)
    (ho : IsLiteral other) (h : before ++ ' ' :: literal = front ++ ' ' :: other) :
    before = front ∧ literal = other := by
  have hbefore : before = front := by
    rcases List.append_eq_append_iff.mp h with ⟨more, hfront, hrest⟩ | ⟨more, hfront, hrest⟩
    · rw [hfront, eq_nil_of_literal hl ho hrest, List.append_nil]
    · rw [hfront, eq_nil_of_literal ho hl hrest, List.append_nil]
  subst hbefore
  exact ⟨rfl, (List.cons.inj (List.append_cancel_left h)).2⟩

/-- A quoted text is a literal. -/
theorem isLiteral_quote (cs : List Char) : IsLiteral (quote cs) :=
  ⟨_, _, rfl, scanQuoted_quote [] cs⟩

end InlineRepl.Json
