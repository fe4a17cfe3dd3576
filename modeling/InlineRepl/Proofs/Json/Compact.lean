import InlineRepl.Json.Basic
import InlineRepl.Proofs.Json.Numeral

/-!
# A compact text stays on its line

Nothing below U+0020 stands raw in a compact text: strings escape such characters, and there are no
blanks between the tokens. So the text of a value is one line, whatever its strings hold.

Results:
* `printable_escape`, `printable_quote`: escapes and quoted texts are printable.
* `printable_text`: so is the compact text of every value.
-/

namespace InlineRepl.Json

/-- The text has no control character below U+0020. -/
def Printable (cs : List Char) : Prop :=
  ∀ c ∈ cs, 0x20 ≤ c.toNat

instance (cs : List Char) : Decidable (Printable cs) :=
  List.decidableBAll (fun c : Char => 0x20 ≤ c.toNat) cs

theorem printable_nil : Printable [] :=
  fun _ hc => absurd hc List.not_mem_nil

theorem Printable.append {cs more : List Char} (h : Printable cs) (hm : Printable more) :
    Printable (cs ++ more) := by
  intro c hc
  rcases List.mem_append.mp hc with hc | hc
  · exact h c hc
  · exact hm c hc

theorem Printable.cons {c : Char} {cs : List Char} (h : 0x20 ≤ c.toNat) (hcs : Printable cs) :
    Printable (c :: cs) :=
  fun d hd => (List.mem_cons.mp hd).elim (fun he => he ▸ h) (hcs d)

/-- A printable text has no line feed. -/
theorem Printable.lineFeed_not_mem {cs : List Char} (h : Printable cs) : '\n' ∉ cs :=
  fun hm => absurd (h _ hm) (by decide)

/-! ## Strings and numbers -/

theorem printable_hexDigit : ∀ n, n < 16 → 0x20 ≤ (hexDigit n).toNat := by
  decide

/-- **An escape is printable**, whatever the character. -/
theorem printable_escape (c : Char) : Printable (escape c) := by
  unfold escape
  split_ifs with h1 h2 h3 h4 h5 h6 h7 h8
  iterate 7
    · decide
  · have hhigh := printable_hexDigit (c.toNat / 16) (by omega)
    have hlow := printable_hexDigit (c.toNat % 16) (by omega)
    have hlead : Printable ['\\', 'u', '0', '0'] := by decide
    exact hlead.append (.cons hhigh (.cons hlow printable_nil))
  · exact .cons (by omega) printable_nil

/-- A quoted text is printable. -/
theorem printable_quote (cs : List Char) : Printable (quote cs) := by
  have hbody : Printable (cs.flatMap escape) := by
    intro d hd
    obtain ⟨c, -, hc⟩ := List.mem_flatMap.mp hd
    exact printable_escape c d hc
  exact .cons (by decide) (hbody.append (by decide))

theorem printable_digits (n : Nat) : Printable (digits n) := by
  intro c hc
  have hdigit := isDigit_of_mem_digits hc
  unfold Numeral.isDigit at hdigit
  rw [Bool.and_eq_true, decide_eq_true_iff, decide_eq_true_iff] at hdigit
  have hzero : '0'.toNat ≤ c.toNat := hdigit.1
  exact Nat.le_trans (by decide) hzero

/-! ## Values -/

mutual

/-- **The compact text of a value is printable.** -/
theorem printable_text : ∀ j : Json, Printable j.text
  | .null => by decide
  | .bool true => by decide
  | .bool false => by decide
  | .nat n => printable_digits n
  | .str s => printable_quote s.toList
  | .arr items => .cons (by decide) ((printable_itemsText items).append (by decide))
  | .obj members => .cons (by decide) ((printable_membersText members).append (by decide))

theorem printable_itemsText : ∀ items : List Json, Printable (itemsText items)
  | [] => by decide
  | [item] => printable_text item
  | item :: next :: items =>
    (printable_text item).append (.cons (by decide) (printable_itemsText (next :: items)))

theorem printable_membersText : ∀ members : List (String × Json),
    Printable (membersText members)
  | [] => by decide
  | [(key, value)] =>
    (printable_quote key.toList).append (.cons (by decide) (printable_text value))
  | (key, value) :: (name, next) :: members =>
    ((printable_quote key.toList).append (.cons (by decide) (printable_text value))).append
      (.cons (by decide) (printable_membersText ((name, next) :: members)))

end

end InlineRepl.Json
