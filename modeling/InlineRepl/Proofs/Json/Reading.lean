import InlineRepl.Json.Record
import InlineRepl.Proofs.Json.Grammar

/-!
# A written value is read back

`Raw.ofJson` is what a written value is as a text that has been read. The compact text of a value is
one of its spellings, so reading it gives exactly this, whatever the value: numbers of any size,
texts of any characters, arrays and objects of any depth.

Results:
* `spelledBy_text`: the text of a value is a spelling of it.
* `parse?_text`: reading the text of a value.
-/

namespace InlineRepl.Json

namespace Raw

mutual

/-- A written value as a text that has been read. -/
def ofJson : Json → Raw
  | .null => .null
  | .bool b => .bool b
  | .nat n => .number (.ofNat n)
  | .str s => .string (s.toList.map .char)
  | .arr items => .array (ofItems items)
  | .obj members => .object (ofMembers members)

/-- `ofJson` of every item. -/
def ofItems : List Json → List Raw
  | [] => []
  | item :: items => ofJson item :: ofItems items

/-- `ofJson` of every member. -/
def ofMembers : List (String × Json) → List (List Unit16 × Raw)
  | [] => []
  | (key, value) :: members => (key.toList.map .char, ofJson value) :: ofMembers members

end

/-! ## Written texts -/

mutual

/-- **The text of a value is a spelling of it.** -/
theorem spelledBy_text : ∀ j : Json, (ofJson j).SpelledBy j.text
  | .null => rfl
  | .bool true => rfl
  | .bool false => rfl
  | .nat n => Numeral.spelledBy_digits n
  | .str s => quotedBy_quote s.toList
  | .arr items => ⟨itemsText items, spelledBy_itemsText items, rfl⟩
  | .obj members => ⟨membersText members, spelledBy_membersText members, rfl⟩

theorem spelledBy_itemsText : ∀ items : List Json,
    ItemsSpelledBy (ofItems items) (itemsText items)
  | [] => isBlank_nil
  | [item] => padded_self (spelledBy_text item)
  | item :: next :: items =>
    ⟨item.text, itemsText (next :: items), padded_self (spelledBy_text item),
      spelledBy_itemsText (next :: items), rfl⟩

theorem spelledBy_membersText : ∀ members : List (String × Json),
    MembersSpelledBy (ofMembers members) (membersText members)
  | [] => isBlank_nil
  | [m] =>
    ⟨quote m.1.toList, m.2.text, padded_self (quotedBy_quote _),
      padded_self (spelledBy_text m.2), rfl⟩
  | m :: next :: members =>
    ⟨quote m.1.toList, m.2.text, membersText (next :: members), padded_self (quotedBy_quote _),
      padded_self (spelledBy_text m.2), spelledBy_membersText (next :: members), by
        simp [membersText]⟩

end

/-- **Reading the text of a value gives the value.** -/
theorem parse?_text (j : Json) : parse? j.text = some (ofJson j) :=
  parse?_spelled (padded_self (spelledBy_text j))

/-- A value is read from any text that spells it. -/
theorem readText_spelled {α : Type} (read : Raw → Option α) {value : Raw} {text : String}
    (h : Padded value.SpelledBy text.toList) : readText read text = read value := by
  unfold readText
  rw [parse?_spelled h, Option.bind_some]

/-- A value is read from its compact text as from the value itself. -/
theorem readText_compact {α : Type} (read : Raw → Option α) (j : Json) :
    readText read j.compact = read (ofJson j) := by
  unfold readText compact
  rw [String.toList_ofList, parse?_text]
  rfl

end Raw

end InlineRepl.Json
