import InlineRepl.Proofs.Text.Joined

/-!
# Lines and their ends

A line ends in a line feed, or in a carriage return and a line feed. Joining the lines of a text
puts line feeds back between them, so what comes out is the text with every line end spelled as a
line feed, and without the end of its last line. `unifyEnds` and `dropFeed` are the two changes.

Results:
* `unifyEnds_pair`, `unifyEnds_of_no_pair`: what `unifyEnds` changes, and that it changes nothing
  else.
* `lines_eq_nil_iff`: only the empty text has no lines.
* `joinLines_linesOf`: the lines of a text, joined.
-/

namespace InlineRepl.Text

/-- The text with a line feed in place of every carriage return and line feed. -/
def unifyEnds : List Char → List Char
  | [] => []
  | '\r' :: '\n' :: cs => '\n' :: unifyEnds cs
  | c :: cs => c :: unifyEnds cs

/-- The text without the line feed at its end, if it has one. -/
def dropFeed (cs : List Char) : List Char :=
  if cs.getLast? = some '\n' then cs.dropLast else cs

variable {cs row front back : List Char}

/-! ## Line ends spelled as line feeds -/

theorem unifyEnds_cons {c : Char} (h : c = '\r' → cs.head? ≠ some '\n') :
    unifyEnds (c :: cs) = c :: unifyEnds cs := by
  refine unifyEnds.eq_3 c cs fun rest hc hcs => h hc ?_
  rw [hcs, List.head?_cons]

/-- A text may be taken apart where no carriage return is cut off its line feed. -/
theorem unifyEnds_append (h : front.getLast? = some '\r' → back.head? ≠ some '\n') :
    unifyEnds (front ++ back) = unifyEnds front ++ unifyEnds back := by
  fun_induction unifyEnds front with
  | case1 => rfl
  | case2 front ih =>
    refine congrArg ('\n' :: ·) (ih fun hlast => h ?_)
    rw [List.getLast?_cons, List.getLast?_cons, hlast]
    rfl
  | case3 c front hpair ih =>
    have hnext : c = '\r' → (front ++ back).head? ≠ some '\n' := by
      intro hc
      cases front with
      | nil => exact h (congrArg some hc)
      | cons d front => exact fun hd => hpair front hc (congrArg (· :: front) (Option.some.inj hd))
    have hrest := ih fun hlast => h (by rw [List.getLast?_cons, hlast, Option.getD_some])
    rw [List.cons_append, unifyEnds_cons hnext, hrest, List.cons_append]

/-- **Every carriage return and line feed becomes a line feed**, wherever they stand. -/
theorem unifyEnds_pair (front back : List Char) :
    unifyEnds (front ++ '\r' :: '\n' :: back) = unifyEnds front ++ '\n' :: unifyEnds back :=
  unifyEnds_append fun _ hfeed => absurd (Option.some.inj hfeed) (by decide)

/-- **Nothing else changes.** -/
theorem unifyEnds_of_no_pair (h : ¬ ['\r', '\n'] <:+: cs) : unifyEnds cs = cs := by
  fun_induction unifyEnds cs with
  | case1 => rfl
  | case2 cs ih => exact absurd ⟨[], cs, rfl⟩ h
  | case3 c cs _ ih => rw [ih fun hin => h (List.infix_cons hin)]

theorem unifyEnds_of_not_mem (h : '\n' ∉ row) : unifyEnds row = row :=
  unifyEnds_of_no_pair fun hin => h (hin.subset (by decide))

theorem dropReturn_snoc (row : List Char) : dropReturn (row ++ ['\r']) = row := by
  induction row with
  | nil => rfl
  | cons c row ih =>
    have hne : row ++ ['\r'] ≠ [] := List.append_ne_nil_of_right_ne_nil _ (List.cons_ne_nil _ _)
    rw [List.cons_append, dropReturn.eq_3 c _ fun _ => hne, ih]

theorem dropReturn_eq_self (h : row.getLast? ≠ some '\r') : dropReturn row = row := by
  fun_induction dropReturn row with
  | case1 => rfl
  | case2 => exact absurd rfl h
  | case3 c row _ ih =>
    rw [ih fun hlast => h (by rw [List.getLast?_cons, hlast, Option.getD_some])]

/-- **A row and the line feed behind it** become the line without its end, and a line feed. -/
theorem unifyEnds_row (h : '\n' ∉ row) (more : List Char) :
    unifyEnds (row ++ '\n' :: more) = dropReturn row ++ '\n' :: unifyEnds more := by
  have hfeed : unifyEnds ('\n' :: more) = '\n' :: unifyEnds more :=
    unifyEnds_cons fun hc => absurd hc (by decide)
  by_cases hlast : row.getLast? = some '\r'
  · obtain ⟨front, rfl⟩ := List.getLast?_eq_some_iff.mp hlast
    rw [dropReturn_snoc, List.append_assoc, List.singleton_append, unifyEnds_pair,
      unifyEnds_of_not_mem fun hm => h (List.mem_append_left _ hm)]
  · rw [dropReturn_eq_self hlast, unifyEnds_append fun hr => absurd hr hlast,
      unifyEnds_of_not_mem h, hfeed]

theorem unifyEnds_eq_nil_iff (cs : List Char) : unifyEnds cs = [] ↔ cs = [] := by
  fun_cases unifyEnds cs with
  | case1 => exact iff_of_true rfl rfl
  | case2 => exact iff_of_false (List.cons_ne_nil _ _) (List.cons_ne_nil _ _)
  | case3 => exact iff_of_false (List.cons_ne_nil _ _) (List.cons_ne_nil _ _)

/-! ## The line feed at the end -/

theorem dropFeed_snoc (cs : List Char) : dropFeed (cs ++ ['\n']) = cs := by
  rw [dropFeed, if_pos List.getLast?_concat, List.dropLast_concat]

theorem dropFeed_of_not_mem (h : '\n' ∉ cs) : dropFeed cs = cs :=
  if_neg fun hlast => h (List.mem_of_getLast? hlast)

/-- Only the end of a text matters. -/
theorem dropFeed_append (front : List Char) (h : back ≠ []) :
    dropFeed (front ++ back) = front ++ dropFeed back := by
  unfold dropFeed
  rw [List.getLast?_append_of_ne_nil front h, List.dropLast_append_of_ne_nil h]
  split <;> rfl

/-! ## Lines -/

/-- **Only the empty text has no lines.** -/
theorem lines_eq_nil_iff (cs : List Char) : lines cs = [] ↔ cs = [] := by
  refine ⟨fun h => ?_, fun h => by rw [h, lines_nil]⟩
  cases cs using rows_induction '\n' with
  | last row hrow =>
    by_contra hne
    rw [lines_last hrow hne] at h
    exact List.cons_ne_nil _ _ h
  | ended row more hrow =>
    rw [lines_row hrow] at h
    exact absurd h (List.cons_ne_nil _ _)

/-- **The lines of a text, joined with line feeds**, are the text with its line ends spelled as line
feeds and without the last one. -/
theorem intercalate_lines (cs : List Char) :
    ['\n'].intercalate (lines cs) = dropFeed (unifyEnds cs) := by
  induction cs using rows_induction '\n' with
  | last row hrow =>
    rw [unifyEnds_of_not_mem hrow, dropFeed_of_not_mem hrow]
    rcases eq_or_ne row [] with rfl | hne
    · rfl
    · rw [lines_last hrow hne, List.intercalate_singleton]
  | ended row more hrow ih =>
    rw [lines_row hrow, unifyEnds_row hrow]
    rcases eq_or_ne more [] with rfl | hne
    · -- the line feed is the last character, and no line comes behind it
      rw [lines_nil, List.intercalate_singleton]
      exact (dropFeed_snoc _).symm
    · have hlines : lines more ≠ [] := mt (lines_eq_nil_iff more).mp hne
      have hmore : unifyEnds more ≠ [] := mt (unifyEnds_eq_nil_iff more).mp hne
      rw [List.intercalate_cons_of_ne_nil hlines, ih, ← dropFeed_append _ hmore,
        List.append_assoc, List.singleton_append]

/-- The same for strings. -/
theorem joinLines_linesOf (text : String) :
    joinLines (linesOf text) = String.ofList (dropFeed (unifyEnds text.toList)) := by
  have hrows : (linesOf text).map String.toList = lines text.toList := by
    unfold linesOf
    rw [List.map_map]
    exact (List.map_congr_left fun row _ => String.toList_ofList).trans (List.map_id _)
  rw [← String.toList_inj, joinLines, String.toList_intercalate, hrows]
  exact (intercalate_lines text.toList).trans String.toList_ofList.symm

/-- One carriage return belongs to a line end, the others stay. -/
example : joinLines (linesOf "a\r\r\nb\rc\r\n\n") = "a\r\nb\rc\n" := by decide +kernel

theorem linesOf_eq_nil_iff (text : String) : linesOf text = [] ↔ text = "" := by
  rw [linesOf, List.map_eq_nil_iff, lines_eq_nil_iff, String.toList_eq_nil_iff]

end InlineRepl.Text
