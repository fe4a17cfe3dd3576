import InlineRepl.Path
import InlineRepl.Proofs.Text.Joined

/-!
# The parent of a path

`Path.parent?` cuts the text of a path behind its last component but one. Whatever stood between and
behind the components, slashes or dots that do not count, the text that is left spells all of them
but the last.

Results:
* `spansFrom_take`, `spans_take`: a text that is cut where a component ends spells the components up
  to there, at the same places.
* `components_parent`: a parent has the components of its path but for the last one.
* `parent?_eq_none_iff`: only a path without components and the root have no parent.
-/

namespace InlineRepl.Path

open Text (rows_induction split split_append split_of_not_mem)

variable {p up : Path} {cs : List Char} {c : Component} {stop : Nat}
  {front back : List (Component × Nat)}

theorem spansFrom_cons (start : Nat) (leading : Bool) (piece : List Char)
    (pieces : List (List Char)) :
    spansFrom start leading (piece :: pieces) =
      ((component? leading piece).map fun c => (c, start + piece.length)).toList ++
        spansFrom (start + piece.length + 1) false pieces := by
  rw [spansFrom]
  cases component? leading piece <;> rfl

section Rows

variable {start : Nat} {leading : Bool} {row : List Char}

/-- A text without slashes spells one component at most. -/
theorem spansFrom_last (h : '/' ∉ row) : spansFrom start leading (split '/' row) =
    ((component? leading row).map fun c => (c, start + row.length)).toList := by
  rw [split_of_not_mem h, spansFrom_cons, spansFrom, List.append_nil]

/-- What stands before the first slash spells one component at most, and what stands behind it
spells the others. -/
theorem spansFrom_row (h : '/' ∉ row) (more : List Char) :
    spansFrom start leading (split '/' (row ++ '/' :: more)) =
      ((component? leading row).map fun c => (c, start + row.length)).toList ++
        spansFrom (start + row.length + 1) false (split '/' more) := by
  rw [split_append, split_of_not_mem h, List.singleton_append, spansFrom_cons]

/-- **A text that is cut where a component ends** spells the components up to there. -/
theorem spansFrom_take (h : spansFrom start leading (split '/' cs) = front ++ (c, stop) :: back) :
    start ≤ stop ∧
      spansFrom start leading (split '/' (cs.take (stop - start))) = front ++ [(c, stop)] := by
  induction cs using rows_induction '/' generalizing start leading front with
  | last row hrow =>
    rw [spansFrom_last hrow] at h
    cases hc : component? leading row with
    | none =>
      rw [hc] at h
      exact absurd h (by simp)
    | some first =>
      rw [hc] at h
      cases front with
      | nil =>
        obtain ⟨rfl, rfl⟩ := Prod.mk.inj (List.cons.inj h).1
        refine ⟨Nat.le_add_right _ _, ?_⟩
        rw [Nat.add_sub_cancel_left, List.take_length, spansFrom_last hrow, hc]
        rfl
      | cons entry front => exact absurd (List.cons.inj h).2 (by simp)
  | ended row more hrow ih =>
    rw [spansFrom_row hrow] at h
    -- The component ends in the first row, or behind it.
    have hbehind : ∀ {front : List (Component × Nat)},
        spansFrom (start + row.length + 1) false (split '/' more) = front ++ (c, stop) :: back →
        start ≤ stop ∧ spansFrom start leading
            (split '/' ((row ++ '/' :: more).take (stop - start))) =
          ((component? leading row).map fun c => (c, start + row.length)).toList ++
            (front ++ [(c, stop)]) := by
      intro front hmore
      obtain ⟨hle, htake⟩ := ih hmore
      have hcut : (row ++ '/' :: more).take (stop - start) =
          row ++ '/' :: more.take (stop - (start + row.length + 1)) := by
        rw [show stop - start = row.length + (stop - (start + row.length + 1) + 1) by omega,
          List.take_length_add_append]
        rfl
      refine ⟨by omega, ?_⟩
      rw [hcut, spansFrom_row hrow, htake]
    cases hc : component? leading row with
    | none =>
      rw [hc] at h hbehind
      exact hbehind h
    | some first =>
      rw [hc] at h hbehind
      cases front with
      | nil =>
        obtain ⟨rfl, rfl⟩ := Prod.mk.inj (List.cons.inj h).1
        refine ⟨Nat.le_add_right _ _, ?_⟩
        rw [Nat.add_sub_cancel_left, List.take_left, spansFrom_last hrow, hc]
        rfl
      | cons entry front =>
        obtain ⟨rfl, hmore⟩ := List.cons.inj h
        exact hbehind hmore

end Rows

theorem spans_absolute {rest : List Char} (h : p.text.toList = '/' :: rest) :
    p.spans = (.root, 1) :: spansFrom 1 false (split '/' rest) := by
  unfold spans
  rw [h]
  rfl

theorem spans_relative (h : p.text.toList.head? ≠ some '/') :
    p.spans = spansFrom 0 true (split '/' p.text.toList) := by
  unfold spans
  split
  · rename_i hcs
    rw [hcs] at h
    exact absurd rfl h
  · rfl

/-- **A path that is cut where a component ends** has the components up to there. -/
theorem spans_take (h : p.spans = front ++ (c, stop) :: back)
    (hup : up.text.toList = p.text.toList.take stop) : up.spans = front ++ [(c, stop)] := by
  by_cases hroot : p.text.toList.head? = some '/'
  · obtain ⟨rest, hrest⟩ := List.head?_eq_some_iff.mp hroot
    rw [spans_absolute hrest] at h
    rw [hrest] at hup
    cases front with
    | nil =>
      obtain ⟨rfl, rfl⟩ := Prod.mk.inj (List.cons.inj h).1
      rw [spans_absolute hup]
      rfl
    | cons entry front =>
      obtain ⟨rfl, hmore⟩ := List.cons.inj h
      obtain ⟨hle, htake⟩ := spansFrom_take hmore
      have hcut : ('/' :: rest).take stop = '/' :: rest.take (stop - 1) := by
        rw [← List.take_succ_cons]
        congr 1
        omega
      rw [spans_absolute (hup.trans hcut), htake]
      rfl
  · rw [spans_relative hroot] at h
    have htake := (spansFrom_take h).2
    have hhead : up.text.toList.head? ≠ some '/' := by
      rw [hup, List.head?_take]
      split
      · simp
      · exact hroot
    rw [spans_relative hhead, hup]
    exact htake

/-- **A parent has the components of its path** but for the last one. -/
theorem components_parent (h : p.parent? = some up) :
    ∃ last, p.components = up.components ++ [last] := by
  unfold parent? at h
  unfold components
  split at h
  · exact absurd h (by simp)
  · exact absurd h (by simp)
  · rename_i entry _ hspans
    obtain rfl := Option.some.inj h
    rw [List.reverse_eq_iff.mp hspans]
    exact ⟨entry.1, rfl⟩
  · rename_i entry c stop back hspans
    obtain rfl := Option.some.inj h
    have hfront : p.spans = back.reverse ++ (c, stop) :: [entry] := by
      rw [List.reverse_eq_iff.mp hspans]
      simp
    have hup : (Path.mk (String.ofList (p.text.toList.take stop))).spans =
        back.reverse ++ [(c, stop)] := spans_take hfront String.toList_ofList
    rw [hfront, hup]
    exact ⟨entry.1, by simp⟩

/-- **Only a path without components and the root have no parent.** -/
theorem parent?_eq_none_iff : p.parent? = none ↔ p.components = [] ∨ p.components = [.root] := by
  unfold parent? components
  split
  · rename_i hspans
    simp [List.reverse_eq_nil_iff.mp hspans]
  · rename_i stop hspans
    simp [List.reverse_eq_iff.mp hspans]
  · rename_i entry hroot hspans
    have hne : entry.1 ≠ .root := fun he => hroot entry.2 (by rw [← he])
    simp [List.reverse_eq_iff.mp hspans, hne]
  · rename_i entry c stop back hspans
    have hlen : (p.spans.map Prod.fst).length = back.length + 2 := by
      rw [List.length_map, ← List.length_reverse, hspans]
      rfl
    refine iff_of_false (by simp) ?_
    rintro (he | he) <;>
    · rw [he] at hlen
      simp at hlen

end InlineRepl.Path
