import InlineRepl.Json.Basic
import InlineRepl.Proofs.Json.Reading

/-!
# An indented value is read back

The indented text of a value differs from the compact one in its blanks alone: a line break and the
indentation stand in front of every item and every key, and one blank behind every colon. So it
spells the same value, and reading it gives what reading the compact text does.

Results:
* `spelledBy_indented`: the indented text of a value is a spelling of it.
* `readText_pretty`: a value is read from its indented text as from the value itself.
-/

namespace InlineRepl.Json

variable {front inner back : List Char} {form : List Char → Prop}

/-! ## Blanks -/

theorem isBlank_newLine (level : Nat) : IsBlank (newLine level) := by
  intro c hc
  rcases List.mem_cons.mp hc with rfl | hc
  · decide
  · rw [List.eq_of_mem_replicate hc]
    decide

theorem isBlank_single : IsBlank [' '] := by
  intro c hc
  rw [List.mem_singleton.mp hc]
  decide

/-- A text stands padded between the blanks on either side of it. -/
theorem padded_between (hf : IsBlank front) (h : form inner) (hb : IsBlank back) :
    Padded form (front ++ inner ++ back) :=
  ⟨front, inner, back, hf, h, hb, List.append_assoc _ _ _⟩

namespace Raw

/-! ## Indented texts -/

mutual

/-- **The indented text of a value is a spelling of it**, at every level. -/
theorem spelledBy_indented : ∀ (j : Json) (level : Nat), (ofJson j).SpelledBy (j.indented level)
  | .null, _ => rfl
  | .bool true, _ => rfl
  | .bool false, _ => rfl
  | .nat n, _ => Numeral.spelledBy_digits n
  | .str s, _ => quotedBy_quote s.toList
  | .arr [], _ => ⟨[], isBlank_nil, rfl⟩
  | .arr (item :: items), level =>
    ⟨_, spelledBy_indentedItems (item :: items) (level + 1) (by simp) (isBlank_newLine level), rfl⟩
  | .obj [], _ => ⟨[], isBlank_nil, rfl⟩
  | .obj (m :: members), level =>
    ⟨_, spelledBy_indentedMembers (m :: members) (level + 1) (by simp) (isBlank_newLine level), rfl⟩

/-- The items of an array, with the line break in front of the closing bracket. -/
theorem spelledBy_indentedItems {back : List Char} : ∀ (items : List Json) (level : Nat),
    items ≠ [] → IsBlank back →
      ItemsSpelledBy (ofItems items) (indentedItems level items ++ back)
  | [], _, hne, _ => absurd rfl hne
  | [item], level, _, hback =>
    padded_between (isBlank_newLine level) (spelledBy_indented item level) hback
  | item :: next :: items, level, _, hback => by
    have hitem := padded_between (isBlank_newLine level) (spelledBy_indented item level) isBlank_nil
    refine ⟨_, _, hitem, spelledBy_indentedItems (next :: items) level (by simp) hback, ?_⟩
    simp [indentedItems]

/-- The members of an object, with the line break in front of the closing brace. -/
theorem spelledBy_indentedMembers {back : List Char} : ∀ (members : List (String × Json))
    (level : Nat), members ≠ [] → IsBlank back →
      MembersSpelledBy (ofMembers members) (indentedMembers level members ++ back)
  | [], _, hne, _ => absurd rfl hne
  | [m], level, _, hback => by
    have hkey := padded_between (isBlank_newLine level) (quotedBy_quote m.1.toList) isBlank_nil
    have hvalue := padded_between isBlank_single (spelledBy_indented m.2 level) hback
    refine ⟨_, _, hkey, hvalue, ?_⟩
    simp [indentedMembers]
  | m :: next :: members, level, _, hback => by
    have hkey := padded_between (isBlank_newLine level) (quotedBy_quote m.1.toList) isBlank_nil
    have hvalue := padded_between isBlank_single (spelledBy_indented m.2 level) isBlank_nil
    have hmore := spelledBy_indentedMembers (next :: members) level (by simp) hback
    refine ⟨_, _, _, hkey, hvalue, hmore, ?_⟩
    simp [indentedMembers]

end

/-- **A value is read from its indented text** as from the value itself. -/
theorem readText_pretty {α : Type} (read : Raw → Option α) (j : Json) :
    readText read j.pretty = read (ofJson j) := by
  refine readText_spelled read (padded_self ?_)
  unfold pretty
  rw [String.toList_ofList]
  exact spelledBy_indented j 0

end Raw

end InlineRepl.Json
