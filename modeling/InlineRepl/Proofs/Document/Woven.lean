import InlineRepl.Document.Evaluation
import InlineRepl.Proofs.Document.Watches
import InlineRepl.Proofs.Json.Record

/-!
# Wrapped blocks in the code

The code of an evaluation that carries watches contains, for every watch inside the document, the
call that reports its block. The call ends in a string literal, and the literal is read back as the
text handed out with the block.
-/

namespace InlineRepl

open Json (Raw readText)

namespace Document

variable {doc : Document} {wrap : WatchTag → String → String} {w : Watch}

end Document

namespace Evaluation

/-- The scopes whose code carries watches: a whole document, and a caret without a selection. -/
def Watched (doc : Document) (scope : Scope) : Prop :=
  scope = .document ∨ doc.selection = none

theorem code_watched {doc : Document} {scope : Scope} (h : Watched doc scope) :
    (ofDocument doc scope).info.code = doc.watchedText none none WatchTag.wrap := by
  cases scope with
  | document => rfl
  | one =>
    obtain hs : doc.selection = none := h.resolve_left nofun
    simp only [ofDocument, hs]

end Evaluation

/-- The literal at the end of a wrapped block is read back as what was handed out. -/
theorem WatchTag.readText_literal (tag : WatchTag) :
    readText Raw.text? (Json.str tag.bridgeText).compact = some tag.bridgeText := by
  rw [Raw.readText_compact, Raw.text?_str]

end InlineRepl
