import InlineRepl.Proofs.Document.Woven
import InlineRepl.Proofs.Json.Compact
import InlineRepl.Proofs.Json.Literal
import InlineRepl.Proofs.Wire.Reply

/-!
# A wrapped block says what was wrapped

The block stands unescaped inside the call that wraps it, and may itself look like such a call; the
id in its tag may hold anything. Still the call can be taken apart in one way only, from its end: a
blank sets off the string literal that it ends in, and inside the literal no quote stands behind a
blank. The literal spells the tag, and what is left in front of it is the block.

Results:
* `wrap_endsIn_iff`: the literal that a wrapped block ends in.
* `wrap_injective`: different blocks or tags are wrapped differently.
* `count_lineFeed_wrap`: wrapping adds no line.
* `wrapped_blocks_say_what_was_wrapped`: all of it.
-/

namespace InlineRepl

open Json (Raw readText IsLiteral)

/-- The text ends in the string literal, and a blank sets the literal off. -/
structure EndsIn (text literal : String) : Prop where
  isLiteral : IsLiteral literal.toList
  setOff : ∃ before, text = before ++ " " ++ literal

namespace WatchTag

variable {tag other : WatchTag} {source block : String}

/-- The literal that carries a tag. -/
def literal (tag : WatchTag) : String :=
  (Json.str tag.bridgeText).compact

theorem toList_literal (tag : WatchTag) :
    tag.literal.toList = Json.quote tag.bridgeText.toList := by
  unfold literal Json.compact
  rw [String.toList_ofList]
  rfl

theorem isLiteral_literal (tag : WatchTag) : IsLiteral tag.literal.toList := by
  rw [toList_literal]
  exact Json.isLiteral_quote _

/-- What stands in front of the literal and the blank. -/
def call (source : String) : String :=
  entry ++ " (" ++ source ++ ")"

theorem wrap_eq (tag : WatchTag) (source : String) :
    tag.wrap source = call source ++ " " ++ tag.literal := by
  have hclose : ") " = ")" ++ " " := rfl
  unfold wrap call literal
  rw [hclose, ← String.append_assoc]

theorem call_injective : Function.Injective call := by
  intro source block h
  have hsources := congrArg String.toList h
  simp only [call, String.toList_append, List.append_assoc, List.append_cancel_left_eq] at hsources
  exact String.toList_inj.mp (List.append_cancel_right hsources)

/-- A wrapped block comes apart in one way. -/
theorem eq_of_wrap_eq {before literal : String} (hl : IsLiteral literal.toList)
    (h : tag.wrap source = before ++ " " ++ literal) :
    before = call source ∧ literal = tag.literal := by
  rw [wrap_eq] at h
  have hchars := congrArg String.toList h
  simp only [String.toList_append, List.append_assoc] at hchars
  obtain ⟨hbefore, hliteral⟩ := Json.literal_unique tag.isLiteral_literal hl hchars
  exact ⟨(String.toList_inj.mp hbefore).symm, (String.toList_inj.mp hliteral).symm⟩

/-- **A wrapped block ends in the literal of its tag**, and in no other. -/
theorem wrap_endsIn_iff (tag : WatchTag) (source literal : String) :
    EndsIn (tag.wrap source) literal ↔ literal = tag.literal := by
  constructor
  · rintro ⟨hl, before, h⟩
    exact (eq_of_wrap_eq hl h).2
  · rintro rfl
    exact ⟨tag.isLiteral_literal, call source, wrap_eq tag source⟩

/-- Tags with the same literal are the same. -/
theorem literal_injective : Function.Injective literal := by
  intro tag other h
  have hcontent : tag.bridgeText = other.bridgeText := by
    have hread : readText Raw.text? tag.literal = some tag.bridgeText := tag.readText_literal
    rw [h] at hread
    exact Option.some.inj (hread.symm.trans other.readText_literal)
  have hread := tag.readText_bridgeText
  rw [hcontent, other.readText_bridgeText] at hread
  exact (Option.some.inj hread).symm

/-- **Different blocks or tags are wrapped differently.** -/
theorem wrap_injective : Function.Injective2 wrap := by
  intro tag other source block h
  obtain ⟨hcall, hliteral⟩ := eq_of_wrap_eq other.isLiteral_literal (h.trans (wrap_eq other block))
  exact ⟨literal_injective hliteral.symm, call_injective hcall.symm⟩

/-- **Wrapping adds no line**: the literal is printable, whatever the id. -/
theorem count_lineFeed_wrap (tag : WatchTag) (source : String) :
    (tag.wrap source).toList.count '\n' = source.toList.count '\n' := by
  have hliteral : tag.literal.toList.count '\n' = 0 := by
    rw [toList_literal]
    exact List.count_eq_zero.mpr (Json.printable_quote _).lineFeed_not_mem
  have hcall : (call source).toList.count '\n' = source.toList.count '\n' := by
    simp only [call, String.toList_append, List.count_append]
    rw [show entry.toList.count '\n' = 0 by decide, show " (".toList.count '\n' = 0 by decide,
      show ")".toList.count '\n' = 0 by decide]
    omega
  rw [wrap_eq, String.toList_append, String.toList_append, List.count_append, List.count_append,
    hliteral, hcall, show " ".toList.count '\n' = 0 by decide, Nat.add_zero]

/-- A tag is read back from its ordinary text. -/
theorem readText_toJson (tag : WatchTag) : readText ofRaw? tag.toJson.compact = some tag := by
  rw [Raw.readText_compact]
  exact ofRaw?_members (.refl _)

/-- **A wrapped block says what was wrapped**, for every tag and every block.
* Blocks that are wrapped alike are alike, and so are their tags.
* A wrapped block ends in one string literal that a blank sets off, and the literal is read as the
  text that is handed out with the tag. This text has the members of the tag in alphabetical order.
* It is read as the tag, and so is the ordinary text.
* The wrapped block has as many line feeds as the block. -/
theorem wrapped_blocks_say_what_was_wrapped :
    Function.Injective2 wrap ∧
    ∀ (tag : WatchTag) (source : String),
      (∃ literal, (∀ other, EndsIn (tag.wrap source) other ↔ other = literal) ∧
        readText Raw.text? literal = some tag.bridgeText) ∧
      (∃ order, tag.bridgeText = (Json.obj order).compact ∧ order.Perm tag.members ∧
        (order.map Prod.fst).Pairwise (· < ·)) ∧
      readText ofRaw? tag.bridgeText = some tag ∧
      readText ofRaw? tag.toJson.compact = some tag ∧
      (tag.wrap source).toList.count '\n' = source.toList.count '\n' := by
  refine ⟨wrap_injective, fun tag source => ⟨⟨tag.literal, tag.wrap_endsIn_iff source,
    tag.readText_literal⟩, ?_, tag.readText_bridgeText, tag.readText_toJson,
    tag.count_lineFeed_wrap source⟩⟩
  obtain ⟨order, hj, ho, hkeys⟩ := tag.exists_bridgeOrder
  refine ⟨order, by rw [bridgeText, hj], ho, ?_⟩
  rw [hkeys]
  decide

end WatchTag

end InlineRepl
