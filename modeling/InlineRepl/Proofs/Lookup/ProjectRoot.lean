import InlineRepl.Lookup.ProjectRoot
import InlineRepl.Proofs.Lookup.Parent
import Mathlib.Logic.Relation

/-!
# The nearest project root

A path, its parent, the parent of that, and so on up to the first path that is empty or has no
parent: these are its candidates, a row that always ends because every parent has one component
less. The walk takes them one by one and ends at the first that it accepts. It never runs out of
strides before it has come to its end, and as a parent is always another path than its child, it is
never stuck.

Results:
* `Candidates.unique`, `exists_candidates`: every path has one row of candidates.
* `Walk.stride_candidates`: what a stride does with the first candidate.
* `Walk.progresses_of_leads`: no stride of a walk leads to where it began.
* `locate_eq_find?`, `locate_ends`: the root of a path is the first candidate that is accepted, and
  the walk ends there.
* `locate_root`: a root is its own root, is not empty and is not the root of the file system.
-/

namespace InlineRepl

/-- **The candidates of a path**: itself, its parent and so on, up to the first path that is empty
or has no parent. -/
inductive Path.Candidates : Path → List Path → Prop
  | ends {p : Path} (last : p.isEmpty = true ∨ p.parent? = none) : Candidates p []
  | step {p up : Path} {rest : List Path} (named : p.isEmpty = false) (parent : p.parent? = some up)
      (above : Candidates up rest) : Candidates p (p :: rest)

namespace Path

variable {p up : Path} {row other : List Path}

theorem length_components_parent (h : p.parent? = some up) :
    p.components.length = up.components.length + 1 := by
  obtain ⟨last, hlast⟩ := components_parent h
  simp [hlast]

/-- Every path has candidates, no more than it has components. -/
theorem exists_candidates (p : Path) :
    ∃ row, p.Candidates row ∧ row.length ≤ p.components.length := by
  induction hn : p.components.length generalizing p with
  | zero =>
    refine ⟨[], .ends (.inr ?_), Nat.le_refl 0⟩
    exact parent?_eq_none_iff.mpr (.inl (List.eq_nil_of_length_eq_zero hn))
  | succ n ih =>
    cases hp : p.parent? with
    | none => exact ⟨[], .ends (.inr hp), Nat.zero_le _⟩
    | some up =>
      cases he : p.isEmpty with
      | true => exact ⟨[], .ends (.inl he), Nat.zero_le _⟩
      | false =>
        have hlen := length_components_parent hp
        obtain ⟨row, hrow, hle⟩ := ih up (by omega)
        exact ⟨p :: row, .step he hp hrow, Nat.succ_le_succ hle⟩

theorem Candidates.unique (h : p.Candidates row) (ho : p.Candidates other) : other = row := by
  induction h generalizing other with
  | ends last =>
    cases ho with
    | ends => rfl
    | step named parent =>
      rcases last with he | hp
      · exact absurd (he.symm.trans named) nofun
      · exact absurd (hp.symm.trans parent) nofun
  | step named parent above ih =>
    cases ho with
    | ends last =>
      rcases last with he | hp
      · exact absurd (he.symm.trans named) nofun
      · exact absurd (hp.symm.trans parent) nofun
    | step _ parent' above' =>
      obtain rfl := Option.some.inj (parent.symm.trans parent')
      rw [ih above']

/-- Each candidate is not empty, has a parent, and is the first of its own candidates. -/
theorem Candidates.of_mem (h : p.Candidates row) {q : Path} (hq : q ∈ row) :
    q.isEmpty = false ∧ q.parent? ≠ none ∧ ∃ rest, q.Candidates (q :: rest) := by
  induction h with
  | ends => exact absurd hq List.not_mem_nil
  | step named parent above ih =>
    rcases List.mem_cons.mp hq with rfl | hq
    · exact ⟨named, by simp [parent], _, .step named parent above⟩
    · exact ih hq

end Path

namespace ProjectRoot

variable {files : FileView} {marker : String} {p root : Path} {row : List Path}

namespace Walk

variable {walk next : Walk}

/-- The last step of a walk has led to a parent. -/
def Progresses (walk : Walk) : Prop :=
  ∀ q, walk.previous = some q → q.parent? = some walk.current

/-- A walk whose last step has led to a parent is not stuck. -/
theorem Progresses.not_stuck (h : walk.Progresses) : walk.stuck = false := by
  cases hq : walk.previous with
  | none => simp [stuck, hq]
  | some q =>
    have hlen := Path.length_components_parent (h q hq)
    have hne : q.components ≠ walk.current.components := fun he => by
      rw [he] at hlen
      omega
    simpa [stuck, hq, Path.same] using hne

/-- **A stride looks at the first candidate**, where there is one, and goes on to the next. -/
theorem stride_candidates (files : FileView) (marker : String) (hw : walk.Progresses)
    (h : walk.current.Candidates row) :
    match row with
    | [] => walk.stride files marker = .ends none
    | q :: rest => q = walk.current ∧
      if accepts files marker q then walk.stride files marker = .ends (some q)
      else ∃ next, walk.stride files marker = .goesOn next ∧ next.Progresses ∧
        next.current.Candidates rest := by
  cases h with
  | ends last =>
    rcases last with he | hp
    · simp [stride, he]
    · simp [stride, hp]
  | @step _ up rest named parent above =>
    refine ⟨rfl, ?_⟩
    split
    · rename_i ha
      simp [stride, named, parent, hw.not_stuck, ha]
    · rename_i ha
      refine ⟨{ current := up, previous := some walk.current }, ?_, ?_, above⟩
      · simp [stride, named, parent, hw.not_stuck, ha]
      · intro q hq
        obtain rfl := Option.some.inj hq
        exact parent

/-- One stride after the other. -/
def Leads (files : FileView) (marker : String) : Walk → Walk → Prop :=
  Relation.ReflTransGen fun walk next => walk.stride files marker = .goesOn next

theorem Progresses.stride (hs : walk.stride files marker = .goesOn next) : next.Progresses := by
  unfold Walk.stride at hs
  split at hs
  · exact absurd hs (by simp)
  · split at hs
    · exact absurd hs (by simp)
    · rename_i up hup
      split at hs
      · exact absurd hs (by simp)
      · split at hs
        · exact absurd hs (by simp)
        · obtain rfl := Stride.goesOn.inj hs
          intro q hq
          obtain rfl := Option.some.inj hq
          exact hup

/-- **No stride of a walk leads to where it began.** -/
theorem progresses_of_leads (h : Leads files marker walk next) (hw : walk.Progresses) :
    next.Progresses := by
  cases h with
  | refl => exact hw
  | tail _ hs => exact Progresses.stride hs

theorem progresses_start (p : Path) : Progresses { current := p } :=
  fun _ hq => absurd hq nofun

/-- **A walk ends at the first candidate that is accepted**, or where there are no more, and has
strides enough to come there. -/
theorem finish_candidates (hw : walk.Progresses) (h : walk.current.Candidates row) {fuel : Nat}
    (enough : row.length < fuel) :
    finish files marker fuel walk = row.find? (accepts files marker) ∧
      ∃ last, Leads files marker walk last ∧
        last.stride files marker = .ends (row.find? (accepts files marker)) := by
  induction row generalizing walk fuel with
  | nil =>
    obtain ⟨fuel, rfl⟩ : ∃ more, fuel = more + 1 := ⟨fuel - 1, by omega⟩
    have hs : walk.stride files marker = .ends none := stride_candidates files marker hw h
    refine ⟨?_, walk, .refl, hs⟩
    rw [finish, hs]
    rfl
  | cons q rest ih =>
    obtain ⟨fuel, rfl⟩ : ∃ more, fuel = more + 1 := ⟨fuel - 1, by omega⟩
    obtain ⟨-, hs⟩ := stride_candidates files marker hw h
    split at hs
    · rename_i ha
      rw [finish, hs, List.find?_cons_of_pos ha]
      exact ⟨rfl, walk, .refl, hs⟩
    · rename_i ha
      obtain ⟨next, hs, hn, hrest⟩ := hs
      obtain ⟨hfinish, last, hleads, hlast⟩ := ih hn hrest (Nat.lt_of_succ_lt_succ enough)
      rw [finish, hs, List.find?_cons_of_neg ha]
      exact ⟨hfinish, last, .head hs hleads, hlast⟩

end Walk

/-! ## The root of a path -/

theorem locate_candidates (files : FileView) (marker : String) (h : p.Candidates row) :
    locate files marker p = row.find? (accepts files marker) ∧
      ∃ last, Walk.Leads files marker { current := p } last ∧
        last.stride files marker = .ends (row.find? (accepts files marker)) := by
  obtain ⟨other, ho, hle⟩ := p.exists_candidates
  obtain rfl := h.unique ho
  exact Walk.finish_candidates (Walk.progresses_start p) h (Nat.lt_succ_of_le hle)

/-- **The root of a path** is the first of its candidates that is accepted. -/
theorem locate_eq_find? (h : p.Candidates row) :
    locate files marker p = row.find? (accepts files marker) :=
  (locate_candidates files marker h).1

/-- **The walk ends**, and with the root of the path. -/
theorem locate_ends (files : FileView) (marker : String) (p : Path) :
    ∃ last, Walk.Leads files marker { current := p } last ∧
      last.stride files marker = .ends (locate files marker p) := by
  obtain ⟨row, hrow, -⟩ := p.exists_candidates
  obtain ⟨hlocate, hends⟩ := locate_candidates files marker hrow
  rw [hlocate]
  exact hends

/-- **The walk is never stuck.** -/
theorem not_stuck_of_leads {walk : Walk} (h : Walk.Leads files marker { current := p } walk) :
    walk.stuck = false :=
  (Walk.progresses_of_leads h (Walk.progresses_start p)).not_stuck

/-- **A root is its own root**, is not empty and is not the root of the file system. -/
theorem locate_root (h : locate files marker p = some root) :
    locate files marker root = some root ∧ root.isEmpty = false ∧ root.components ≠ [.root] := by
  obtain ⟨row, hrow, -⟩ := p.exists_candidates
  rw [locate_eq_find? hrow] at h
  obtain ⟨hnamed, hparent, rest, hrest⟩ := hrow.of_mem (List.mem_of_find?_eq_some h)
  refine ⟨?_, hnamed, fun hc => hparent (Path.parent?_eq_none_iff.mpr (.inr hc))⟩
  rw [locate_eq_find? hrest, List.find?_cons_of_pos (List.find?_some h)]

end ProjectRoot

end InlineRepl
