import InlineRepl.Proofs.Board.OrderedMap
import InlineRepl.Proofs.Text.Order
import Mathlib.Data.List.Induction

/-!
# The last write wins

What is on a board can be told from what has been done to it. A result stands on a line if it is the
last that was drawn there and the document has not been forgotten since; a watch has the value that
was last set, likewise. The board lists what stands for a document and nothing else, by line and by
id, and forgetting a document leaves the others alone.

`IsLast` says which of some items is the last of a kind; `Board.Ordered` is the invariant by which
both maps of a board are in order.

Results:
* `isLast_iff`: a state that only the items of a kind replace is what the last of them made it.
* `get?_change`, `value?_change`: what one change does to what is read.
* `ordered_changed`: both maps of every board are in order.
* `last_write_wins`: all of this, for every history of a board.
-/

namespace InlineRepl

/-! ## The last of a kind -/

section IsLast

variable {α β : Type} {kind : α → Bool} {items : List α} {item new : α}

/-- **The item is the last of a kind** among the given ones. -/
def IsLast (kind : α → Bool) (items : List α) (item : α) : Prop :=
  kind item = true ∧ ∃ before after, items = before ++ item :: after ∧
    ∀ other ∈ after, kind other = false

theorem not_isLast_nil : ¬ IsLast kind [] item := by
  rintro ⟨-, before, after, h, -⟩
  exact absurd h (by simp)

theorem isLast_snoc : IsLast kind (items ++ [new]) item ↔
    if kind new = true then item = new else IsLast kind items item := by
  split
  · rename_i hnew
    constructor
    · rintro ⟨-, before, after, hsplit, hafter⟩
      rcases List.eq_nil_or_concat after with rfl | ⟨rest, last, rfl⟩
      · exact (List.cons.inj (List.append_inj' hsplit rfl).2).1.symm
      · rw [List.concat_eq_append, ← List.cons_append, ← List.append_assoc] at hsplit
        obtain rfl := (List.cons.inj (List.append_inj' hsplit rfl).2).1
        have hother := hafter new (by simp)
        exact absurd (hother.symm.trans hnew) nofun
    · rintro rfl
      exact ⟨hnew, items, [], rfl, fun _ h => absurd h List.not_mem_nil⟩
  · rename_i hnew
    constructor
    · rintro ⟨hitem, before, after, hsplit, hafter⟩
      rcases List.eq_nil_or_concat after with rfl | ⟨rest, last, rfl⟩
      · obtain rfl := (List.cons.inj (List.append_inj' hsplit rfl).2).1
        exact absurd hitem hnew
      · rw [List.concat_eq_append, ← List.cons_append, ← List.append_assoc] at hsplit
        have hitems := (List.append_inj' hsplit rfl).1
        exact ⟨hitem, before, rest, hitems, fun other h => hafter other (by simp [h])⟩
    · rintro ⟨hitem, before, after, rfl, hafter⟩
      refine ⟨hitem, before, after ++ [new], by simp, fun other h => ?_⟩
      rcases List.mem_append.mp h with h | h
      · exact hafter other h
      · obtain rfl := List.mem_singleton.mp h
        exact Bool.eq_false_iff.mpr hnew

/-- **A state that only the items of a kind replace** is what the last of them has made it. -/
theorem isLast_iff (state : List α → Option β) {made : α → Option β} (start : state [] = none)
    (step : ∀ items new, state (items ++ [new]) = if kind new = true then made new else state items)
    (items : List α) (b : β) :
    state items = some b ↔ ∃ item, IsLast kind items item ∧ made item = some b := by
  induction items using List.reverseRecOn with
  | nil =>
    rw [start]
    exact iff_of_false nofun fun ⟨_, h, _⟩ => not_isLast_nil h
  | append_singleton items new ih =>
    rw [step]
    simp only [isLast_snoc]
    split
    · simp
    · exact ih

end IsLast

namespace Board

open OrderedMap (Sorted orders_lineBefore orders_watchBefore)

variable {board : Board} {doc d : DocumentId} {line : UInt32} {watch : WatchId} {anchor : Anchor}
  {result : InlineResult} {value : String}

/-! ## Changes -/

/-- What may be done to a board. -/
inductive Change where
  | place (doc : DocumentId) (anchor : Anchor) (result : InlineResult)
  | setValue (doc : DocumentId) (watch : WatchId) (value : String)
  | clear (doc : DocumentId)
  deriving Repr, DecidableEq

/-- The board after a change. -/
def change (board : Board) : Change → Board
  | .place doc anchor result => (board.place doc anchor result).2
  | .setValue doc watch value => (board.setValue doc watch value).2
  | .clear doc => board.clear doc

/-- The board after changes, one after the other. -/
def changed (board : Board) (changes : List Change) : Board :=
  changes.foldl change board

theorem changed_snoc (board : Board) (changes : List Change) (c : Change) :
    board.changed (changes ++ [c]) = (board.changed changes).change c :=
  List.foldl_append

/-- The change draws on a line of a document, or forgets the document. -/
def Change.touchesLine (doc : DocumentId) (line : UInt32) : Change → Bool
  | .place other anchor _ => decide (other = doc ∧ anchor.line = line)
  | .setValue .. => false
  | .clear other => decide (other = doc)

/-- The change sets a watch of a document, or forgets the document. -/
def Change.touchesWatch (doc : DocumentId) (watch : WatchId) : Change → Bool
  | .place .. => false
  | .setValue other changed _ => decide (other = doc ∧ changed = watch)
  | .clear other => decide (other = doc)

/-- What a change draws. -/
def Change.drawing : Change → Option (Anchor × InlineResult)
  | .place _ anchor result => some (anchor, result)
  | _ => none

/-- The value that a change sets. -/
def Change.setting : Change → Option String
  | .setValue _ _ value => some value
  | _ => none

/-! ## Reading -/

theorem get?_place : (board.place d anchor result).2.get? doc line =
    if d = doc ∧ anchor.line = line then some (anchor, result) else board.get? doc line := by
  refine OrderedMap.get?_insert.trans (ite_congr ?_ (fun _ => rfl) fun _ => rfl)
  rw [Prod.mk.injEq, @eq_comm _ doc, @eq_comm _ line]

theorem value?_setValue {w : WatchId} : (board.setValue d w value).2.value? doc watch =
    if d = doc ∧ w = watch then some value else board.value? doc watch := by
  refine OrderedMap.get?_insert.trans (ite_congr ?_ (fun _ => rfl) fun _ => rfl)
  rw [Prod.mk.injEq, @eq_comm _ doc, @eq_comm _ watch]

theorem get?_clear : (board.clear d).get? doc line =
    if d = doc then none else board.get? doc line := by
  refine (OrderedMap.get?_filter fun key : DocumentId × UInt32 => decide (key.1 ≠ d)).trans ?_
  by_cases h : d = doc
  · simp [h]
  · simp only [h, Ne.symm h, ne_eq, not_false_eq_true, decide_true, if_true, if_false]
    rfl

theorem value?_clear : (board.clear d).value? doc watch =
    if d = doc then none else board.value? doc watch := by
  refine (OrderedMap.get?_filter fun key : DocumentId × WatchId => decide (key.1 ≠ d)).trans ?_
  by_cases h : d = doc
  · simp [h]
  · simp only [h, Ne.symm h, ne_eq, not_false_eq_true, decide_true, if_true, if_false]
    rfl

/-- **A change replaces what stands on the lines that it touches**, and nothing else. -/
theorem get?_change (c : Change) : (board.change c).get? doc line =
    if c.touchesLine doc line = true then c.drawing else board.get? doc line := by
  cases c with
  | place other anchor result =>
    simp only [Change.touchesLine, decide_eq_true_eq]
    exact get?_place
  | setValue => rfl
  | clear other =>
    simp only [Change.touchesLine, decide_eq_true_eq]
    exact get?_clear

theorem value?_change (c : Change) : (board.change c).value? doc watch =
    if c.touchesWatch doc watch = true then c.setting else board.value? doc watch := by
  cases c with
  | place => rfl
  | setValue other changed value =>
    simp only [Change.touchesWatch, decide_eq_true_eq]
    exact value?_setValue
  | clear other =>
    simp only [Change.touchesWatch, decide_eq_true_eq]
    exact value?_clear

/-! ## Order -/

/-- Both maps are in order, and every result is kept under the line that it stands on. -/
structure Ordered (board : Board) : Prop where
  results : Sorted lineBefore board.results
  values : Sorted watchBefore board.values
  anchored : ∀ entry ∈ board.results, entry.2.1.line = entry.1.2

theorem ordered_empty : Ordered {} :=
  ⟨.nil, .nil, fun _ h => absurd h List.not_mem_nil⟩

theorem Ordered.change (h : board.Ordered) (c : Change) : (board.change c).Ordered := by
  cases c with
  | place doc anchor result =>
    refine ⟨h.results.insert orders_lineBefore _ _, h.values, fun entry he => ?_⟩
    rcases OrderedMap.mem_of_mem_insert he with rfl | he
    · rfl
    · exact h.anchored entry he
  | setValue doc watch value =>
    exact ⟨h.results, h.values.insert orders_watchBefore _ _, h.anchored⟩
  | clear doc =>
    exact ⟨h.results.filter _, h.values.filter _,
      fun entry he => h.anchored entry (List.mem_of_mem_filter he)⟩

/-- **Both maps of every board are in order.** -/
theorem ordered_changed (h : board.Ordered) (changes : List Change) :
    (board.changed changes).Ordered :=
  List.foldlRecOn changes _ h fun _ hb c _ => hb.change c

theorem Ordered.get?_eq_some_iff (h : board.Ordered) {entry : Anchor × InlineResult} :
    board.get? doc line = some entry ↔ ((doc, line), entry) ∈ board.results :=
  h.results.get?_eq_some_iff orders_lineBefore

theorem Ordered.value?_eq_some_iff (h : board.Ordered) :
    board.value? doc watch = some value ↔ ((doc, watch), value) ∈ board.values :=
  h.values.get?_eq_some_iff orders_watchBefore

/-- **Two boards that show the same** are the same. -/
theorem Ordered.ext {other : Board} (h : board.Ordered) (ho : other.Ordered)
    (get : ∀ doc line, board.get? doc line = other.get? doc line)
    (value : ∀ doc watch, board.value? doc watch = other.value? doc watch) : board = other := by
  obtain ⟨results, values⟩ := board
  obtain rfl := h.results.ext OrderedMap.orders_lineBefore ho.results fun key => get key.1 key.2
  obtain rfl := h.values.ext OrderedMap.orders_watchBefore ho.values fun key => value key.1 key.2
  rfl

/-! ## Listing -/

/-- The results of a document are those whose key names it. -/
theorem resultsOf_eq (board : Board) (doc : DocumentId) : board.resultsOf doc =
    (board.results.filter fun entry => decide (entry.1.1 = doc)).map Prod.snd :=
  congrArg (List.map Prod.snd) (OrderedMap.between_lineBefore doc board.results)

/-- **The results of a document** are those that stand on its lines. -/
theorem Ordered.mem_resultsOf (h : board.Ordered) {entry : Anchor × InlineResult} :
    board.get? doc line = some entry ↔ entry ∈ board.resultsOf doc ∧ entry.1.line = line := by
  simp only [resultsOf_eq, List.mem_map, List.mem_filter, decide_eq_true_eq, h.get?_eq_some_iff]
  constructor
  · intro hm
    exact ⟨⟨_, ⟨hm, rfl⟩, rfl⟩, h.anchored _ hm⟩
  · rintro ⟨⟨⟨⟨other, place⟩, entry⟩, ⟨hm, rfl⟩, rfl⟩, rfl⟩
    have hplace : entry.1.line = place := h.anchored _ hm
    exact hplace ▸ hm

theorem Ordered.increasing_resultsOf (h : board.Ordered) (doc : DocumentId) :
    (board.resultsOf doc).Pairwise fun a b => a.1.line < b.1.line := by
  rw [resultsOf_eq]
  refine List.pairwise_map.mpr ((h.results.filter _).imp_of_mem fun {a b} ha hb hab => ?_)
  obtain ⟨ha, hda⟩ := List.mem_filter.mp ha
  obtain ⟨hb, hdb⟩ := List.mem_filter.mp hb
  rw [h.anchored a ha, h.anchored b hb]
  simp only [decide_eq_true_eq] at hda hdb
  simpa [lineBefore, hda, hdb, UInt64.lt_irrefl] using hab

/-- **The values of a document** are those that its watches have. -/
theorem Ordered.mem_valuesOf (h : board.Ordered) :
    board.value? doc watch = some value ↔ (watch, value) ∈ board.valuesOf doc := by
  simp only [valuesOf, List.mem_map, List.mem_filter, decide_eq_true_eq, h.value?_eq_some_iff]
  constructor
  · intro hm
    exact ⟨_, ⟨hm, rfl⟩, rfl⟩
  · rintro ⟨⟨⟨other, w⟩, v⟩, ⟨hm, rfl⟩, he⟩
    obtain ⟨rfl, rfl⟩ := Prod.mk.inj he
    exact hm

theorem Ordered.increasing_valuesOf (h : board.Ordered) (doc : DocumentId) :
    (board.valuesOf doc).Pairwise fun a b => Text.bytesOf a.1.name < Text.bytesOf b.1.name := by
  refine List.pairwise_map.mpr ((h.values.filter _).imp_of_mem fun {a b} ha hb hab => ?_)
  have hda := (List.mem_filter.mp ha).2
  have hdb := (List.mem_filter.mp hb).2
  simp only [decide_eq_true_eq] at hda hdb
  refine Text.bytesOf_lt ?_
  simpa [watchBefore, hda, hdb, UInt64.lt_irrefl] using hab

/-- Forgetting a document leaves what is listed for another one. -/
theorem listed_clear (board : Board) {other : DocumentId} (hne : other ≠ doc) :
    (board.clear doc).resultsOf other = board.resultsOf other ∧
      (board.clear doc).valuesOf other = board.valuesOf other := by
  have hchosen : ∀ {X Y : Type} (entries : List ((DocumentId × X) × Y)),
      ((entries.filter fun entry => decide (entry.1.1 ≠ doc)).filter fun entry =>
        decide (entry.1.1 = other)) = entries.filter fun entry => decide (entry.1.1 = other) := by
    intro X Y entries
    rw [List.filter_filter]
    refine List.filter_congr fun entry _ => ?_
    by_cases he : entry.1.1 = other
    · simp [he, hne]
    · simp [he]
  rw [resultsOf_eq, resultsOf_eq]
  unfold valuesOf clear
  dsimp only
  rw [hchosen, hchosen]
  exact ⟨rfl, rfl⟩

theorem Ordered.isEmpty_iff (h : board.Ordered) : board.isEmpty = true ↔
    (∀ doc line, board.get? doc line = none) ∧ ∀ doc watch, board.value? doc watch = none := by
  unfold isEmpty
  rw [Bool.and_eq_true, List.isEmpty_iff, List.isEmpty_iff, List.eq_nil_iff_forall_not_mem,
    List.eq_nil_iff_forall_not_mem]
  simp only [Option.eq_none_iff_forall_ne_some]
  refine and_congr ⟨fun hm doc line entry he => ?_, fun hm ⟨⟨doc, line⟩, entry⟩ he => ?_⟩
    ⟨fun hm doc watch value he => ?_, fun hm ⟨⟨doc, watch⟩, value⟩ he => ?_⟩
  · exact hm _ (h.get?_eq_some_iff.mp he)
  · exact hm doc line entry (h.get?_eq_some_iff.mpr he)
  · exact hm _ (h.value?_eq_some_iff.mp he)
  · exact hm doc watch value (h.value?_eq_some_iff.mpr he)

/-! ## Histories -/

/-- **The result that was last drawn on a line stands there**, unless its document was forgotten. -/
theorem get?_changed_iff (changes : List Change) :
    (({} : Board).changed changes).get? doc line = some (anchor, result) ↔
      IsLast (Change.touchesLine doc line) changes (.place doc anchor result) := by
  have hlast := isLast_iff (fun changes => (({} : Board).changed changes).get? doc line)
    rfl (fun changes c => (congrArg (get? · doc line) (changed_snoc _ changes c)).trans
      (get?_change c)) changes (anchor, result)
  refine hlast.trans ⟨?_, fun h => ⟨_, h, rfl⟩⟩
  rintro ⟨c, hc, hmade⟩
  cases c with
  | place other at_ drawn =>
    obtain ⟨rfl, rfl⟩ := Prod.mk.inj (Option.some.inj hmade)
    obtain ⟨rfl, -⟩ := of_decide_eq_true hc.1
    exact hc
  | setValue | clear => exact absurd hmade nofun

/-- **A watch has the value that was last set**, unless its document was forgotten. -/
theorem value?_changed_iff (changes : List Change) :
    (({} : Board).changed changes).value? doc watch = some value ↔
      IsLast (Change.touchesWatch doc watch) changes (.setValue doc watch value) := by
  have hlast := isLast_iff
    (fun changes => (({} : Board).changed changes).value? doc watch)
    rfl (fun changes c => (congrArg (value? · doc watch) (changed_snoc _ changes c)).trans
      (value?_change c)) changes value
  refine hlast.trans ⟨?_, fun h => ⟨_, h, rfl⟩⟩
  rintro ⟨c, hc, hmade⟩
  cases c with
  | setValue other changed set =>
    obtain rfl := Option.some.inj hmade
    obtain ⟨rfl, rfl⟩ := of_decide_eq_true hc.1
    exact hc
  | place | clear => exact absurd hmade nofun

/-- **The last write wins**, for every history of a board.

What is read from a line is the result that was last drawn there, if the document has not been
forgotten since, and likewise for the value of a watch. Drawing and setting give back what they
replace. What is listed for a document is what can be read of it, each line and each id once, lines
in increasing order and ids in the order of their bytes. Forgetting a document changes nothing of
another, and the board is empty when nothing can be read from it. -/
theorem last_write_wins (changes : List Change) :
    let board := ({} : Board).changed changes
    (∀ doc line anchor result, board.get? doc line = some (anchor, result) ↔
        IsLast (Change.touchesLine doc line) changes (.place doc anchor result)) ∧
      (∀ doc watch value, board.value? doc watch = some value ↔
        IsLast (Change.touchesWatch doc watch) changes (.setValue doc watch value)) ∧
      (∀ doc anchor result old, (board.place doc anchor result).1 = some old ↔
        ∃ place, IsLast (Change.touchesLine doc anchor.line) changes (.place doc place old)) ∧
      (∀ doc watch value old, (board.setValue doc watch value).1 = some old ↔
        IsLast (Change.touchesWatch doc watch) changes (.setValue doc watch old)) ∧
      (∀ doc,
        (∀ line entry, board.get? doc line = some entry ↔
          entry ∈ board.resultsOf doc ∧ entry.1.line = line) ∧
        (board.resultsOf doc).Pairwise (fun a b => a.1.line < b.1.line) ∧
        (∀ watch value, board.value? doc watch = some value ↔
          (watch, value) ∈ board.valuesOf doc) ∧
        ((board.valuesOf doc).Pairwise fun a b =>
          Text.bytesOf a.1.name < Text.bytesOf b.1.name) ∧
        ∀ other, other ≠ doc →
          (∀ line, (board.clear doc).get? other line = board.get? other line) ∧
            (∀ watch, (board.clear doc).value? other watch = board.value? other watch) ∧
            (board.clear doc).resultsOf other = board.resultsOf other ∧
            (board.clear doc).valuesOf other = board.valuesOf other) ∧
      (board.isEmpty = true ↔
        (∀ doc line, board.get? doc line = none) ∧
          ∀ doc watch, board.value? doc watch = none) := by
  intro board
  have h : board.Ordered := ordered_changed ordered_empty changes
  refine ⟨fun _ _ _ _ => get?_changed_iff changes, fun _ _ _ => value?_changed_iff changes,
    fun doc anchor result old => ?_, fun _ _ _ _ => value?_changed_iff changes,
    fun doc => ⟨fun _ _ => h.mem_resultsOf, h.increasing_resultsOf doc, fun _ _ => h.mem_valuesOf,
      h.increasing_valuesOf doc, fun other hne => ⟨fun line => ?_, fun watch => ?_,
        board.listed_clear hne⟩⟩, h.isEmpty_iff⟩
  · simp only [← get?_changed_iff]
    show (board.get? doc anchor.line).map Prod.snd = some old ↔ _
    rw [Option.map_eq_some_iff, Prod.exists]
    refine exists_congr fun place => ⟨?_, fun hp => ⟨old, hp, rfl⟩⟩
    rintro ⟨_, hp, rfl⟩
    exact hp
  · rw [get?_clear, if_neg (Ne.symm hne)]
  · rw [value?_clear, if_neg (Ne.symm hne)]

/-- The second of two results on one line stands there, also when another document that has one on a
line of the same number is forgotten. -/
theorem stands_when_another_is_forgotten :
    let changes : List Change := [.place ⟨1⟩ ⟨5, 3⟩ (.text "1"), .place ⟨2⟩ ⟨5, 5⟩ (.text "2"),
      .place ⟨1⟩ ⟨5, 4⟩ (.exception "3")]
    let board := ({} : Board).changed changes
    IsLast (Change.touchesLine ⟨1⟩ 5) changes (.place ⟨1⟩ ⟨5, 4⟩ (.exception "3")) ∧
      (board.clear ⟨2⟩).get? ⟨1⟩ 5 = some (⟨5, 4⟩, .exception "3") := by
  intro changes board
  obtain ⟨hget, -, -, -, hdoc, -⟩ := last_write_wins changes
  have hlast : IsLast (Change.touchesLine ⟨1⟩ 5) changes (.place ⟨1⟩ ⟨5, 4⟩ (.exception "3")) :=
    ⟨rfl, changes.take 2, [], rfl, fun _ h => absurd h List.not_mem_nil⟩
  have hother := ((hdoc ⟨2⟩).2.2.2.2 ⟨1⟩ (by decide)).1 5
  exact ⟨hlast, hother.trans ((hget _ _ _ _).mpr hlast)⟩

end Board

end InlineRepl
