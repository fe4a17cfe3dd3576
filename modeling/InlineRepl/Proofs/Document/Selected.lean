import InlineRepl.Proofs.Document.Watches
import InlineRepl.Proofs.Text.LineEnds
import Mathlib.Data.List.Induction

/-!
# The text of a selection

A selection is any pair of line numbers: its ends may be out of order, and either may lie below the
last line. Its text is made of the lines whose numbers are between them, which may be none. A text
is cut out of the lines by indices, so both ends are first brought inside the document; `cutText?`
does this with indices of 64 bits and has no result where an index is too large or lies outside.

Results:
* `selection_edited_iff`: what is selected after any edits.
* `linesOn_eq`: the lines of a range, cut out.
* `cutText?_eq`: the indices are always inside.
* `lines_and_selection_agree_with_text`: all of it, for every document that was edited.
-/

namespace InlineRepl.Document

variable {doc : Document} {edits : List Edit} {change : Edit} {range : LineRange}

/-! ## What is selected -/

/-- The range was selected, and after that nothing but watches was placed. -/
def LastSelected (edits : List Edit) (range : LineRange) : Prop :=
  ∃ before after, edits = before ++ .select range :: after ∧
    ∀ change ∈ after, ∃ block, change = .watch block

theorem not_lastSelected_nil : ¬ LastSelected [] range := by
  rintro ⟨before, after, h, -⟩
  simp at h

/-- The last edit selects the range, or it places a watch and the range was selected before. -/
theorem lastSelected_snoc : LastSelected (edits ++ [change]) range ↔
    change = .select range ∨ (∃ block, change = .watch block) ∧ LastSelected edits range := by
  constructor
  · rintro ⟨before, after, h, hafter⟩
    -- the last edit is the selection itself, or one of the watches placed after it
    rcases List.eq_nil_or_concat' after with rfl | ⟨after, last, rfl⟩
    · exact .inl (List.singleton_inj.mp (List.append_inj' h rfl).2)
    · rw [← List.cons_append, ← List.append_assoc] at h
      obtain ⟨rfl, hlast⟩ := List.append_inj' h rfl
      obtain rfl := List.singleton_inj.mp hlast
      exact .inr ⟨hafter change (List.mem_append_right _ List.mem_cons_self),
        before, after, rfl, fun edit he => hafter edit (List.mem_append_left _ he)⟩
  · rintro (rfl | ⟨⟨block, rfl⟩, before, after, rfl, hafter⟩)
    · exact ⟨edits, [], rfl, fun _ h => absurd h List.not_mem_nil⟩
    · refine ⟨before, after ++ [.watch block], by simp, fun edit he => ?_⟩
      rcases List.mem_append.mp he with he | he
      · exact hafter edit he
      · exact ⟨block, List.mem_singleton.mp he⟩

/-- What an edit leaves selected. -/
theorem selection_edit (doc : Document) (change : Edit) : (doc.edit change).selection = some range ↔
    change = .select range ∨ (∃ block, change = .watch block) ∧ doc.selection = some range := by
  cases change with
  | setCursor cursor => simp [edit, setCursor]
  | select chosen => simp [edit, select]
  | watch block =>
    have hkept : (doc.edit (.watch block)).selection = doc.selection := by
      rcases doc.edit_watch block with he | ⟨placed, hp, he⟩
      · rw [he]
      · obtain ⟨-, -, rfl⟩ := addWatch_some hp
        rw [he]
    simp [hkept]

theorem edited_snoc (doc : Document) (edits : List Edit) (change : Edit) :
    doc.edited (edits ++ [change]) = (doc.edited edits).edit change := by
  rw [edited, List.foldl_append]
  rfl

/-- **What is selected** is the range that was selected last, unless the caret was put somewhere
since. -/
theorem selection_edited_iff (id : DocumentId) (text : String) (edits : List Edit) :
    ((ofText id text).edited edits).selection = some range ↔ LastSelected edits range := by
  induction edits using List.reverseRecOn with
  | nil => exact iff_of_false nofun not_lastSelected_nil
  | append_singleton edits change ih =>
    rw [edited_snoc, selection_edit, ih, lastSelected_snoc]

/-! ## The lines of a range -/

/-- The lines whose numbers are in the range. -/
def linesOn (doc : Document) (range : LineRange) : List String :=
  (doc.lines.zipIdx.filter fun row =>
    decide (range.start.toNat ≤ row.2) && decide (row.2 ≤ range.stop.toNat)).map Prod.fst

theorem filter_zipIdx {α : Type} (first last : Nat) : ∀ (rows : List α) (start : Nat),
    ((rows.zipIdx start).filter fun row =>
        decide (first ≤ row.2) && decide (row.2 ≤ last)).map Prod.fst =
      (rows.take (last + 1 - start)).drop (first - start)
  | [], start => by simp
  | row :: rows, start => by
    -- the row has the number `start`: it is in the range, above it or below it
    have ih := filter_zipIdx first last rows (start + 1)
    rw [List.zipIdx_cons, List.filter_cons]
    by_cases hlast : start ≤ last
    · have htake : last + 1 - start = last + 1 - (start + 1) + 1 := by omega
      rw [htake, List.take_succ_cons]
      by_cases hfirst : first ≤ start
      · have hdrop : first - start = 0 := Nat.sub_eq_zero_of_le hfirst
        have hnext : first - (start + 1) = 0 := Nat.sub_eq_zero_of_le (Nat.le_succ_of_le hfirst)
        rw [if_pos (by simp [hfirst, hlast]), List.map_cons, ih, hdrop, hnext]
        rfl
      · have hdrop : first - start = first - (start + 1) + 1 := by omega
        rw [if_neg (by simp [hfirst]), ih, hdrop, List.drop_succ_cons]
    · have htake : last + 1 - start = 0 := by omega
      have hnext : last + 1 - (start + 1) = 0 := by omega
      rw [if_neg (by simp [hlast]), ih, htake, hnext, List.take_zero, List.take_zero,
        List.drop_nil, List.drop_nil]

/-- **The lines of a range, cut out.** -/
theorem linesOn_eq (doc : Document) (range : LineRange) :
    doc.linesOn range = doc.linesBetween range.start.toNat (range.stop.toNat + 1) :=
  filter_zipIdx range.start.toNat range.stop.toNat doc.lines 0

theorem textOf_eq (doc : Document) (range : LineRange) :
    doc.textOf range = Text.joinLines (doc.linesOn range) := by
  rw [linesOn_eq]
  rfl

/-- Ends that are out of order have no line between them. -/
example : (ofText ⟨1⟩ "a\nb\nc").linesOn ⟨2, 1⟩ = [] := by decide +kernel

/-! ## Indices -/

/-- The part from one index up to another; there is none unless they are in order and inside. -/
def slice? {α : Type} (rows : List α) (first stop : Nat) : Option (List α) :=
  if first ≤ stop ∧ stop ≤ rows.length then some ((rows.take stop).drop first) else none

/-- The text of a range, its ends brought inside the document before it is cut out. There is none
if an index has more than 64 bits or lies outside. -/
def cutText? (doc : Document) (range : LineRange) : Option String :=
  if range.stop.toNat + 1 < UInt64.size then
    let stop := min (range.stop.toNat + 1) doc.lines.length
    let first := min range.start.toNat stop
    (slice? doc.lines first stop).map Text.joinLines
  else none

theorem slice?_clamped {α : Type} (rows : List α) (first stop : Nat) :
    slice? rows (min first (min stop rows.length)) (min stop rows.length) =
      some ((rows.take stop).drop first) := by
  rw [slice?, if_pos ⟨Nat.min_le_right _ _, Nat.min_le_right _ _⟩, ← List.take_eq_take_min,
    ← List.length_take, ← List.drop_eq_drop_min]

/-- **The indices are always inside.** -/
theorem cutText?_eq (doc : Document) (range : LineRange) :
    doc.cutText? range = some (doc.textOf range) := by
  have hsize : range.stop.toNat + 1 < UInt64.size :=
    Nat.lt_of_le_of_lt range.stop.toNat_lt (by decide)
  rw [cutText?, if_pos hsize]
  dsimp only
  rw [slice?_clamped]
  rfl

/-! ## Edited documents -/

/-- **Lines and selections agree with the text**, for every document, however it was edited.
* Its lines, joined with line feeds, are the text with a line feed in place of every carriage return
  and line feed, and without the line feed at its end. No line holds a line feed, and only the empty
  text has no lines.
* What is selected is the range that was selected last, unless the caret was put somewhere since.
* The text of a selection is made of the lines whose numbers are in its range, whatever the range,
  and the indices that it is cut out with are inside. -/
theorem lines_and_selection_agree_with_text (id : DocumentId) (text : String)
    (edits : List Edit) :
    let doc := (ofText id text).edited edits
    (Text.joinLines doc.lines = String.ofList (Text.dropFeed (Text.unifyEnds text.toList)) ∧
      (∀ row ∈ doc.lines, '\n' ∉ row.toList) ∧ (doc.lines = [] ↔ text = "")) ∧
    ∀ range, (doc.selection = some range ↔ LastSelected edits range) ∧
      (doc.selection = some range →
        doc.selectionText = Text.joinLines (doc.linesOn range) ∧
        doc.cutText? range = some doc.selectionText) := by
  intro doc
  have hlines : doc.lines = Text.linesOf text := (edited_keeps edits (ofText id text)).1
  rw [hlines]
  refine ⟨⟨Text.joinLines_linesOf text, fun row => Text.not_mem_of_mem_linesOf,
    Text.linesOf_eq_nil_iff text⟩, fun range => ⟨selection_edited_iff id text edits, fun h => ?_⟩⟩
  have htext : doc.selectionText = doc.textOf range := by
    rw [selectionText, h]
    rfl
  rw [htext]
  exact ⟨textOf_eq doc range, cutText?_eq doc range⟩

/-- The last selection goes on behind the document, up to the largest number there is; the one
before it was inverted, and the caret was put elsewhere in between. -/
theorem selection_up_to_the_largest_line :
    let edits : List Edit :=
      [.select ⟨3, 1⟩, .setCursor {}, .select ⟨1, 4294967295⟩, .watch ⟨0, 1⟩]
    let doc := (ofText ⟨1⟩ "a\r\r\nb\rc\r\n\n\n").edited edits
    doc.lines = ["a\r", "b\rc", "", ""] ∧
      (LastSelected edits ⟨1, 4294967295⟩ ∧ doc.selection = some ⟨1, 4294967295⟩) ∧
      doc.selectionText = "b\rc\n\n" ∧
      doc.cutText? ⟨1, 4294967295⟩ = some "b\rc\n\n" ∧
      "b\rc" ∈ doc.lines ∧ '\n' ∉ "b\rc".toList := by
  intro edits doc
  obtain ⟨⟨-, hfeeds, -⟩, hselected⟩ :=
    lines_and_selection_agree_with_text ⟨1⟩ "a\r\r\nb\rc\r\n\n\n" edits
  have hlast : LastSelected edits ⟨1, 4294967295⟩ :=
    ⟨[.select ⟨3, 1⟩, .setCursor {}], [.watch ⟨0, 1⟩], rfl, by simp⟩
  obtain ⟨hiff, htext⟩ := hselected ⟨1, 4294967295⟩
  have hselection := hiff.mpr hlast
  obtain ⟨hjoined, hcut⟩ := htext hselection
  have hrows : Text.joinLines (doc.linesOn ⟨1, 4294967295⟩) = "b\rc\n\n" := by decide +kernel
  have hmem : "b\rc" ∈ doc.lines := by decide +kernel
  exact ⟨by decide +kernel, ⟨hlast, hselection⟩, hjoined.trans hrows,
    hcut.trans (congrArg some (hjoined.trans hrows)), hmem, hfeeds _ hmem⟩

end InlineRepl.Document
