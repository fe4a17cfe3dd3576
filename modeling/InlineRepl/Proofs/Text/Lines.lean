import InlineRepl.Text.Blank
import InlineRepl.Text.Lines
import Mathlib.Data.List.DropRight
import Mathlib.Tactic.Common

/-!
# Lines and the blanks around them

Cutting a sequence at a mark treats what stands before a mark and what stands after it one after
the other, so a bad line never moves the border of another one. Trimming takes the blanks in front
of a text and behind it, and nothing of a text that begins and ends otherwise.

Results:
* `rows_induction`: induction on the rows that a mark ends.
* `cut_append`, `cutLines_append`: cutting at a mark in the middle.
* `cutLines_row`: a line that a mark ends comes off the front.
* `not_mem_of_mem_cut`, `not_mem_of_mem_cutLines`: no piece holds a mark.
* `trim_padded`, `trim_blank`: what trimming leaves.
* `trim_bare`: a text without blanks inside is left as it is.
* `trim_eq_nil_iff`, `trim_parts`: of any text.
-/

namespace InlineRepl.Text

/-! ## Cutting -/

section Cut

variable {α : Type} [DecidableEq α] {mark : α}

/-- **Induction on the rows of a sequence**: the one that no mark ends, and a row that a mark ends
in front of others. -/
@[elab_as_elim]
theorem rows_induction {motive : List α → Prop} (mark : α)
    (last : ∀ row, mark ∉ row → motive row)
    (ended : ∀ row more, mark ∉ row → motive more → motive (row ++ mark :: more))
    (cs : List α) : motive cs := by
  induction hn : cs.length using Nat.strongRecOn generalizing cs with
  | ind n ih =>
    by_cases hmem : mark ∈ cs
    · obtain ⟨row, more, rfl, hrow⟩ := List.eq_append_cons_of_mem hmem
      have hlen : more.length < n := by
        rw [← hn, List.length_append, List.length_cons]
        omega
      exact ended row more hrow (ih more.length hlen more rfl)
    · exact last cs hmem

/-- Without a mark there is nothing but the last piece. -/
theorem cut_of_not_mem : ∀ {row : List α}, mark ∉ row → cut mark row = ([], row)
  | [], _ => rfl
  | c :: row, h => by
    have hc : c ≠ mark := fun he => h (he ▸ List.mem_cons_self)
    unfold cut
    rw [cut_of_not_mem fun hm => h (List.mem_cons_of_mem _ hm)]
    dsimp only
    rw [if_neg hc]

/-- **A mark in the middle** ends the last piece of what stands before it. -/
theorem cut_append (mark : α) (more : List α) : ∀ cs : List α,
    cut mark (cs ++ mark :: more) =
      ((cut mark cs).1 ++ (cut mark cs).2 :: (cut mark more).1, (cut mark more).2)
  | [] => by simp [cut]
  | c :: cs => by
    rw [List.cons_append, cut, cut_append mark more cs, cut]
    dsimp only
    split
    · rfl
    · cases (cut mark cs).1 <;> rfl

theorem cutLines_eq (mark : α) (more cs : List α) :
    cutLines mark (cs ++ mark :: more) =
      (cut mark cs).1 ++ (cut mark cs).2 :: cutLines mark more := by
  unfold cutLines
  rw [cut_append]
  generalize cut mark more = parts
  obtain ⟨ended, rest⟩ := parts
  cases rest <;> simp

/-- **The lines of a sequence are those up to a mark and those after it.** -/
theorem cutLines_append (mark : α) (more cs : List α) :
    cutLines mark (cs ++ mark :: more) = cutLines mark (cs ++ [mark]) ++ cutLines mark more := by
  rw [cutLines_eq mark more cs, cutLines_eq mark [] cs, List.append_assoc]
  rfl

/-- A line that a mark ends comes off the front. -/
theorem cutLines_row {row : List α} (h : mark ∉ row) (more : List α) :
    cutLines mark (row ++ mark :: more) = row :: cutLines mark more := by
  rw [cutLines_eq, cut_of_not_mem h]
  rfl

/-- **No piece holds a mark.** -/
theorem not_mem_of_mem_cut (mark : α) (cs : List α) :
    (∀ piece ∈ (cut mark cs).1, mark ∉ piece) ∧ mark ∉ (cut mark cs).2 := by
  induction cs using rows_induction mark with
  | last row hrow =>
    rw [cut_of_not_mem hrow]
    exact ⟨fun _ h => absurd h List.not_mem_nil, hrow⟩
  | ended row more hrow ih =>
    rw [cut_append, cut_of_not_mem hrow]
    refine ⟨fun piece h => ?_, ih.2⟩
    rcases List.mem_cons.mp h with rfl | h
    · exact hrow
    · exact ih.1 piece h

theorem not_mem_of_mem_cutLines {cs row : List α} (h : row ∈ cutLines mark cs) : mark ∉ row := by
  obtain ⟨hended, hrest⟩ := not_mem_of_mem_cut mark cs
  unfold cutLines at h
  generalize cut mark cs = parts at h hended hrest
  obtain ⟨ended, rest⟩ := parts
  cases rest with
  | nil => exact hended row h
  | cons c rest =>
    rcases List.mem_append.mp h with h | h
    · exact hended row h
    · obtain rfl := List.mem_singleton.mp h
      exact hrest

/-- A last line that nothing ends counts unless it is empty. -/
theorem cutLines_last {row : List α} (h : mark ∉ row) (hne : row ≠ []) :
    cutLines mark row = [row] := by
  unfold cutLines
  rw [cut_of_not_mem h]
  cases row with
  | nil => exact absurd rfl hne
  | cons c row => rfl

end Cut

/-! ## Trimming -/

variable {front back cs : List Char}

theorem trimFront_append (hf : ∀ c ∈ front, isBlank c = true) :
    trimFront (front ++ cs) = trimFront cs :=
  List.dropWhile_append_of_pos hf

theorem trimBack_append (hb : ∀ c ∈ back, isBlank c = true) :
    trimBack (cs ++ back) = trimBack cs := by
  unfold trimBack
  rw [List.reverse_append, List.dropWhile_append_of_pos fun c hc => hb c (List.mem_reverse.mp hc)]

/-- Nothing is left of blanks. -/
theorem trim_blank (hb : ∀ c ∈ cs, isBlank c = true) : trim cs = [] := by
  have hfront : trimFront cs = [] := by
    have hdropped : trimFront (cs ++ []) = trimFront [] := trimFront_append hb
    rwa [List.append_nil] at hdropped
  unfold trim
  rw [hfront]
  rfl

/-- **Trimming takes the padding off** a text that neither begins nor ends with a blank. -/
theorem trim_padded (hf : ∀ c ∈ front, isBlank c = true) (hb : ∀ c ∈ back, isBlank c = true)
    {first last : Char} {middle : List Char} (h1 : isBlank first = false)
    (h2 : isBlank last = false) :
    trim (front ++ (first :: (middle ++ [last])) ++ back) = first :: (middle ++ [last]) := by
  have hfront : trimFront (front ++ (first :: (middle ++ [last])) ++ back) =
      first :: (middle ++ [last]) ++ back := by
    rw [List.append_assoc, trimFront_append hf]
    exact List.dropWhile_cons_of_neg (by simp [h1])
  have hback : trimBack (first :: (middle ++ [last])) = first :: (middle ++ [last]) := by
    unfold trimBack
    rw [← List.cons_append, List.reverse_append]
    show (List.dropWhile isBlank (last :: (first :: middle).reverse)).reverse = _
    rw [List.dropWhile_cons_of_neg (by simp [h2])]
    simp
  unfold trim
  rw [hfront, trimBack_append hb, hback]

theorem trim_eq (cs : List Char) : trim cs = (cs.dropWhile isBlank).rdropWhile isBlank :=
  rfl

/-- **Trimming leaves nothing of blanks alone.** -/
theorem trim_eq_nil_iff (cs : List Char) : trim cs = [] ↔ ∀ c ∈ cs, isBlank c = true := by
  refine ⟨fun h => ?_, trim_blank⟩
  rw [trim_eq, List.rdropWhile_eq_nil_iff] at h
  intro c hc
  rw [← List.takeWhile_append_dropWhile (p := isBlank) (l := cs)] at hc
  rcases List.mem_append.mp hc with hc | hc
  · exact List.mem_takeWhile_imp hc
  · exact h c hc

/-- Blanks at the end do not matter. -/
theorem trim_append_blank (hb : ∀ c ∈ back, isBlank c = true) : trim (cs ++ back) = trim cs := by
  rw [trim_eq, trim_eq, List.dropWhile_append]
  split
  · rename_i hempty
    rw [List.isEmpty_iff.mp hempty, List.dropWhile_eq_nil_iff.mpr hb]
  · exact trimBack_append hb

/-- **Trimming leaves a text without blanks as it is**, whatever blanks are around it. -/
theorem trim_bare (hf : ∀ c ∈ front, isBlank c = true) (hb : ∀ c ∈ back, isBlank c = true)
    (hcs : ∀ c ∈ cs, isBlank c = false) : trim (front ++ cs ++ back) = cs := by
  rw [trim_append_blank hb]
  unfold trim
  rw [trimFront_append hf]
  have hfront : trimFront cs = cs := by
    cases cs with
    | nil => rfl
    | cons c cs => exact List.dropWhile_cons_of_neg (by simp [hcs c List.mem_cons_self])
  rw [hfront]
  show cs.rdropWhile isBlank = cs
  rw [List.rdropWhile_eq_self_iff]
  intro hne
  simp [hcs _ (List.getLast_mem hne)]

/-- **Trimming takes off blanks**, and leaves a text that neither begins nor ends with one. -/
theorem trim_parts (cs : List Char) :
    ∃ front back, cs = front ++ trim cs ++ back ∧ (∀ c ∈ front, isBlank c = true) ∧
      (∀ c ∈ back, isBlank c = true) ∧ (∀ c ∈ (trim cs).head?, isBlank c = false) ∧
      ∀ c ∈ (trim cs).getLast?, isBlank c = false := by
  refine ⟨cs.takeWhile isBlank, (cs.dropWhile isBlank).rtakeWhile isBlank, ?_,
    fun c hc => List.mem_takeWhile_imp hc, fun c hc => List.mem_rtakeWhile_imp hc, fun c hc => ?_,
    fun c hc => ?_⟩
  · rw [trim_eq, List.append_assoc, List.rdropWhile_append_rtakeWhile,
      List.takeWhile_append_dropWhile]
  · obtain ⟨rest, hrest⟩ := List.rdropWhile_prefix isBlank (cs.dropWhile isBlank)
    have hfirst := List.head?_dropWhile_not isBlank cs
    rw [← hrest, List.head?_append, ← trim_eq, hc] at hfirst
    exact hfirst
  · obtain ⟨hne, hlast⟩ := List.mem_getLast?_eq_getLast hc
    rw [hlast, ← Bool.not_eq_true]
    exact List.rdropWhile_last_not isBlank _ hne

end InlineRepl.Text
