import InlineRepl.Proofs.Text.Lines

/-!
# Joined lines are split again

Joining puts a line feed between neighbours, and splitting at line feeds gives the pieces of every
row in turn. A row without a line feed is one piece, so the pieces keep the places of the rows. What
a text is made of says what it is: no other text has its pieces.

Results:
* `length_split`: one piece more than there are marks.
* `split_joinLines`: the pieces of joined rows.
* `split_injective`: a sequence is its pieces.
* `lines_row`, `lines_last`: the lines of a text, one after the other.
* `not_mem_of_mem_linesOf`: the lines of a text hold no line feed.
-/

namespace InlineRepl.Text

section Split

variable {α : Type} [DecidableEq α] {mark : α}

theorem split_of_not_mem {row : List α} (h : mark ∉ row) : split mark row = [row] := by
  unfold split
  rw [cut_of_not_mem h]
  rfl

/-- **A mark stands between two pieces.** -/
theorem split_append (mark : α) (cs more : List α) :
    split mark (cs ++ mark :: more) = split mark cs ++ split mark more := by
  unfold split
  rw [cut_append]
  simp

/-- **There is one piece more than there are marks.** -/
theorem length_split (mark : α) (cs : List α) : (split mark cs).length = cs.count mark + 1 := by
  induction cs using rows_induction mark with
  | last row hrow => rw [split_of_not_mem hrow, List.count_eq_zero.mpr hrow, List.length_singleton]
  | ended row more hrow ih =>
    rw [split_append, split_of_not_mem hrow, List.length_append, ih, List.length_singleton,
      List.count_append, List.count_eq_zero.mpr hrow, List.count_cons_self]
    omega

/-- The pieces with marks between them are the whole. -/
theorem intercalate_split (mark : α) (cs : List α) : [mark].intercalate (split mark cs) = cs := by
  induction cs using rows_induction mark with
  | last row hrow =>
    rw [split_of_not_mem hrow]
    exact List.intercalate_singleton
  | ended row more hrow ih =>
    have hne : split mark more ≠ [] := by simp [split]
    rw [split_append, split_of_not_mem hrow, List.singleton_append,
      List.intercalate_cons_of_ne_nil hne, ih, List.append_assoc, List.singleton_append]

/-- **A sequence is its pieces.** -/
theorem split_injective (mark : α) : Function.Injective (split mark) := by
  intro cs more h
  rw [← intercalate_split mark cs, h, intercalate_split]

end Split

/-! ## Rows -/

/-- **The pieces of joined rows** are those of every row in turn. -/
theorem split_joinLines : ∀ {rows : List String}, rows ≠ [] →
    split '\n' (joinLines rows).toList = rows.flatMap fun row => split '\n' row.toList
  | [], h => absurd rfl h
  | [row], _ => by
    rw [List.flatMap_singleton, joinLines, String.intercalate_singleton]
  | row :: next :: rows, _ => by
    have hjoin : joinLines (row :: next :: rows) = row ++ "\n" ++ joinLines (next :: rows) :=
      String.intercalate_cons_cons
    have hchars : (row ++ "\n" ++ joinLines (next :: rows)).toList =
        row.toList ++ '\n' :: (joinLines (next :: rows)).toList := by
      rw [String.toList_append, String.toList_append, List.append_assoc]
      rfl
    rw [hjoin, hchars, split_append, split_joinLines (List.cons_ne_nil _ _)]
    rfl

/-- Rows without line feeds are their own pieces. -/
theorem flatMap_split_rows {rows : List String} (h : ∀ row ∈ rows, '\n' ∉ row.toList) :
    (rows.flatMap fun row => split '\n' row.toList) = rows.map String.toList := by
  rw [List.map_eq_flatMap]
  exact List.flatMap_congr fun row hr => split_of_not_mem (h row hr)

/-! ## Lines -/

section Lines

variable {row : List Char}

theorem lines_nil : lines [] = [] :=
  rfl

/-- A row that a line feed ends is the first line. -/
theorem lines_row (h : '\n' ∉ row) (more : List Char) :
    lines (row ++ '\n' :: more) = dropReturn row :: lines more := by
  unfold lines
  rw [cut_append, cut_of_not_mem h]
  generalize cut '\n' more = parts
  obtain ⟨ended, rest⟩ := parts
  cases rest <;> rfl

/-- A row that nothing ends is the last line, unless it is empty; it keeps its carriage return. -/
theorem lines_last (h : '\n' ∉ row) (hne : row ≠ []) : lines row = [row] := by
  unfold lines
  rw [cut_of_not_mem h]
  cases row with
  | nil => exact absurd rfl hne
  | cons c row => rfl

theorem dropReturn_subset (cs : List Char) : dropReturn cs ⊆ cs := by
  fun_induction dropReturn cs with
  | case1 => exact List.Subset.refl _
  | case2 => exact List.nil_subset _
  | case3 c cs _ ih => exact List.cons_subset_cons c ih

theorem not_mem_of_mem_lines {cs : List Char} (h : row ∈ lines cs) : '\n' ∉ row := by
  induction cs using rows_induction '\n' with
  | last only honly =>
    rcases eq_or_ne only [] with rfl | hne
    · exact absurd h List.not_mem_nil
    · rw [lines_last honly hne] at h
      exact List.mem_singleton.mp h ▸ honly
  | ended first more hfirst ih =>
    rw [lines_row hfirst] at h
    rcases List.mem_cons.mp h with rfl | h
    · exact fun hm => hfirst (dropReturn_subset first hm)
    · exact ih h

/-- **The lines of a text hold no line feed.** -/
theorem not_mem_of_mem_linesOf {text line : String} (h : line ∈ linesOf text) :
    '\n' ∉ line.toList := by
  obtain ⟨row, hrow, rfl⟩ := List.mem_map.mp h
  rw [String.toList_ofList]
  exact not_mem_of_mem_lines hrow

end Lines

end InlineRepl.Text
