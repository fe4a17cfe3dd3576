import InlineRepl.Tree.Change
import Mathlib.Data.List.Basic
import Mathlib.Tactic.Common

/-!
# What has been written is read

A walk goes on from directories and follows links; what else stands at a place, or whether anything
does, matters only where the walk ends. Writing a file puts one where there was none or another one,
so afterwards every path leads where it led before, the written one included. What is found at the
end of a written path is therefore a file of what was written, unless the path names a device, and
what is found at the end of a path that leads elsewhere is what was found before.

Results:
* `walk_eq_ok_iff`: where a walk leads.
* `Alike.resolve`: a path leads to the same place in trees with the same directories and links.
* `writeBytes_cases`: what writing a file does.
* `makeAll_of_stands`: a directory that stands need not be made.
* `find_written`: what is found at the end of a path that was written.
* `find_elsewhere`: what is found at the end of another one.
-/

namespace InlineRepl.Tree

/-! ## Walks -/

/-- A step that names an entry. -/
def IsName (step : String) : Prop :=
  step ≠ "." ∧ step ≠ ".." ∧ step.utf8ByteSize ≤ nameLimit

/-- **Where steps lead from a place**, through directories and over at most so many links. A link
at the end is followed only if `follow` says so. -/
inductive Leads (tree : Tree) (follow : Bool) : Nat → Place → List String → Place → Prop
  | done (links : Nat) (place : Place) : Leads tree follow links place [] place
  | here {links place rest last} : tree.at? place = some .directory →
      Leads tree follow links place rest last → Leads tree follow links place ("." :: rest) last
  | up {links place rest last} : tree.at? place = some .directory →
      Leads tree follow links place.dropLast rest last →
      Leads tree follow links place (".." :: rest) last
  /-- The last name: what has it is no directory, and no link that is followed. -/
  | final {links place step} : tree.at? place = some .directory → IsName step →
      tree.at? (place ++ [step]) ≠ some .directory →
      (∀ target, tree.at? (place ++ [step]) = some (.link target) → follow = false) →
      Leads tree follow links place [step] (place ++ [step])
  | into {links place step rest last} : tree.at? place = some .directory → IsName step →
      tree.at? (place ++ [step]) = some .directory →
      Leads tree follow links (place ++ [step]) rest last →
      Leads tree follow links place (step :: rest) last
  | link {links place step rest last target} : tree.at? place = some .directory → IsName step →
      tree.at? (place ++ [step]) = some (.link target) → (rest = [] → follow = true) →
      Leads tree follow links (if target.isAbsolute then [] else place) (steps target ++ rest)
        last →
      Leads tree follow (links + 1) place (step :: rest) last

variable {tree other after : Tree} {follow : Bool} {links : Nat} {place last : Place}
  {todo : List String} {p q : Path} {bytes : List UInt8}

theorem directoryAt_iff : tree.directoryAt place = true ↔ tree.at? place = some .directory := by
  unfold directoryAt
  split
  · rename_i h
    exact iff_of_true rfl h
  · rename_i h
    exact iff_of_false nofun fun hd => h hd

/-- Where no directory stands, no step is taken. -/
theorem walk_end (hd : tree.at? place ≠ some .directory)
    (h : tree.walk follow links place todo = .ok last) : todo = [] ∧ last = place := by
  cases todo with
  | nil =>
    rw [walk] at h
    exact ⟨rfl, (Except.ok.inj h).symm⟩
  | cons step rest =>
    rw [walk, if_pos (Bool.eq_false_iff.mpr fun ht => hd (directoryAt_iff.mp ht))] at h
    cases h

theorem leads_of_walk (h : tree.walk follow links place todo = .ok last) :
    tree.Leads follow links place todo last := by
  fun_induction tree.walk follow links place todo with
  | case1 links place =>
    obtain rfl := Except.ok.inj h
    exact .done _ _
  | case2 => cases h
  | case3 links place rest hd ih => exact .here (directoryAt_iff.mp (by simpa using hd)) (ih h)
  | case4 links place rest hd _ ih => exact .up (directoryAt_iff.mp (by simpa using hd)) (ih h)
  | case5 => cases h
  | case6 links place step rest hd h1 h2 h3 hn he =>
    obtain rfl := List.isEmpty_iff.mp he
    obtain rfl := Except.ok.inj h
    refine .final (directoryAt_iff.mp (by simpa using hd)) ⟨h1, h2, Nat.le_of_not_lt h3⟩ ?_ ?_
    · rw [hn]
      exact nofun
    · rw [hn]
      exact nofun
  | case7 => cases h
  | case8 links place step rest hd h1 h2 h3 target hl he =>
    obtain rfl := List.isEmpty_iff.mp he.1
    obtain rfl := Except.ok.inj h
    refine .final (directoryAt_iff.mp (by simpa using hd)) ⟨h1, h2, Nat.le_of_not_lt h3⟩ ?_
      fun _ _ => he.2
    rw [hl]
    exact nofun
  | case9 => cases h
  | case10 place step rest hd h1 h2 h3 target hl he links ih =>
    rw [dite_eq_ite] at ih
    refine .link (directoryAt_iff.mp (by simpa using hd)) ⟨h1, h2, Nat.le_of_not_lt h3⟩ hl
      (fun hr => ?_) (ih h)
    rw [List.isEmpty_iff, not_and] at he
    exact Bool.not_eq_false _ ▸ he hr
  | case11 links place step rest hd h1 h2 h3 entry hlink he ih =>
    have hat := directoryAt_iff.mp (show tree.directoryAt place = true by simpa using hd)
    have hname : IsName step := ⟨h1, h2, Nat.le_of_not_lt h3⟩
    by_cases hdir : tree.at? (place ++ [step]) = some .directory
    · exact .into hat hname hdir (ih h)
    · obtain ⟨rfl, rfl⟩ := walk_end hdir h
      refine .final hat hname hdir fun target ht => ?_
      rw [he] at ht
      exact absurd (Option.some.inj ht) (hlink target)

theorem walk_of_leads (h : tree.Leads follow links place todo last) :
    tree.walk follow links place todo = .ok last := by
  have hstep : ∀ {place : Place}, tree.at? place = some .directory →
      ¬ tree.directoryAt place = false := by
    intro place hd
    rw [directoryAt_iff.mpr hd]
    exact nofun
  induction h with
  | done => rw [walk]
  | here hd _ ih => rw [walk, if_neg (hstep hd), if_pos rfl, ih]
  | up hd _ ih => rw [walk, if_neg (hstep hd), if_neg (by decide), if_pos rfl, ih]
  | @final links place step hd hname hdir hlink =>
    rw [walk, if_neg (hstep hd), if_neg hname.1, if_neg hname.2.1,
      if_neg (Nat.not_lt.mpr hname.2.2)]
    split
    · rfl
    · rename_i target ht
      rw [if_pos ⟨rfl, hlink target ht⟩]
    · rw [walk]
  | into hd hname hdir _ ih =>
    rw [walk, if_neg (hstep hd), if_neg hname.1, if_neg hname.2.1,
      if_neg (Nat.not_lt.mpr hname.2.2), hdir]
    exact ih
  | link hd hname hlink hfollow _ ih =>
    rw [walk, if_neg (hstep hd), if_neg hname.1, if_neg hname.2.1,
      if_neg (Nat.not_lt.mpr hname.2.2), hlink]
    dsimp only
    rw [if_neg, ih]
    rintro ⟨hrest, hstay⟩
    rw [hfollow (List.isEmpty_iff.mp hrest)] at hstay
    cases hstay

/-- **Where a walk leads.** -/
theorem walk_eq_ok_iff : tree.walk follow links place todo = .ok last ↔
    tree.Leads follow links place todo last :=
  ⟨leads_of_walk, walk_of_leads⟩

/-! ## Trees that are walked alike -/

/-- An entry is a file. -/
def IsFile (entry : Entry) : Prop :=
  ∃ bytes executable, entry = .file bytes executable

/-- Two trees differ in nothing but their files. -/
structure Alike (tree other : Tree) : Prop where
  cwd : tree.cwd = other.cwd
  entry : ∀ place entry, ¬ IsFile entry →
    (tree.at? place = some entry ↔ other.at? place = some entry)

theorem Alike.refl (tree : Tree) : Alike tree tree :=
  ⟨rfl, fun _ _ _ => .rfl⟩

theorem Alike.trans (h : Alike tree other) (ho : Alike other after) : Alike tree after :=
  ⟨h.cwd.trans ho.cwd, fun place entry he =>
    (h.entry place entry he).trans (ho.entry place entry he)⟩

theorem Alike.symm (h : Alike tree other) : Alike other tree :=
  ⟨h.cwd.symm, fun place entry he => (h.entry place entry he).symm⟩

theorem Alike.directory (h : Alike tree other) (place : Place) :
    tree.at? place = some .directory ↔ other.at? place = some .directory :=
  h.entry place _ nofun

theorem Alike.link (h : Alike tree other) (place : Place) (target : Path) :
    tree.at? place = some (.link target) ↔ other.at? place = some (.link target) :=
  h.entry place _ nofun

theorem Alike.device (h : Alike tree other) (place : Place) :
    tree.at? place = some .device ↔ other.at? place = some .device :=
  h.entry place _ nofun

theorem Alike.leads (h : Alike tree other) (hl : tree.Leads follow links place todo last) :
    other.Leads follow links place todo last := by
  induction hl with
  | done => exact .done _ _
  | here hd _ ih => exact .here ((h.directory _).mp hd) ih
  | up hd _ ih => exact .up ((h.directory _).mp hd) ih
  | final hd hname hdir hlink =>
    exact .final ((h.directory _).mp hd) hname (fun ho => hdir ((h.directory _).mpr ho))
      fun target ho => hlink target ((h.link _ target).mpr ho)
  | into hd hname hdir _ ih =>
    exact .into ((h.directory _).mp hd) hname ((h.directory _).mp hdir) ih
  | link hd hname hlink hfollow _ ih =>
    exact .link ((h.directory _).mp hd) hname ((h.link _ _).mp hlink) hfollow ih

/-- The system takes the path: it is neither empty nor too long, and holds no zero character. -/
def IsTaken (p : Path) : Prop :=
  p.text.toList.contains '\x00' = false ∧ p.text.utf8ByteSize ≤ pathLimit ∧ p.isEmpty = false

/-- **Which place a path names.** -/
theorem resolve_eq_ok_iff : tree.resolve follow p = .ok place ↔ IsTaken p ∧
    tree.Leads follow linkLimit (if p.isAbsolute then [] else tree.cwd) (steps p) place := by
  rw [← walk_eq_ok_iff]
  unfold Tree.resolve resolveSpelled IsTaken
  cases p.text.toList.contains '\x00' with
  | true => exact iff_of_false nofun fun h => absurd h.1.1 nofun
  | false =>
    by_cases hlong : pathLimit < p.text.utf8ByteSize
    · rw [if_pos hlong]
      exact iff_of_false nofun fun h => Nat.not_le.mpr hlong h.1.2.1
    · cases p.isEmpty with
      | true =>
        rw [if_neg hlong]
        exact iff_of_false nofun fun h => absurd h.1.2.2 nofun
      | false =>
        rw [if_neg hlong]
        exact (and_iff_right ⟨rfl, Nat.le_of_not_lt hlong, rfl⟩).symm

/-- **A path leads to the same place** in trees with the same directories and links. -/
theorem Alike.resolve (h : Alike tree other) (hr : tree.resolve follow p = .ok place) :
    other.resolve follow p = .ok place := by
  obtain ⟨htaken, hleads⟩ := resolve_eq_ok_iff.mp hr
  exact resolve_eq_ok_iff.mpr ⟨htaken, h.cwd ▸ h.leads hleads⟩

/-! ## Writing -/

theorem lookup_filter_ne {α β : Type} [BEq α] [LawfulBEq α] [DecidableEq α] {key other : α}
    (h : key ≠ other) : ∀ entries : List (α × β),
      (entries.filter fun e => decide (e.1 ≠ other)).lookup key = entries.lookup key
  | [] => rfl
  | (k, value) :: entries => by
    have ih := lookup_filter_ne h entries
    by_cases hk : k = other
    · rw [List.filter_cons_of_neg (by simpa using hk), ih, List.lookup_cons,
        beq_eq_false_iff_ne.mpr (hk ▸ h)]
    · rw [List.filter_cons_of_pos (by simpa using hk), List.lookup_cons, List.lookup_cons, ih]

theorem at?_put_self (hne : place ≠ []) (entry : Entry) :
    (tree.put place entry).at? place = some entry := by
  cases place with
  | nil => exact absurd rfl hne
  | cons name names => exact List.lookup_cons_self

theorem at?_put_other {other : Place} (h : other ≠ place) (entry : Entry) :
    (tree.put place entry).at? other = tree.at? other := by
  cases other with
  | nil => rfl
  | cons name names =>
    show List.lookup (name :: names) ((place, entry) :: _) = tree.entries.lookup (name :: names)
    simp only [List.lookup_cons, beq_eq_false_iff_ne.mpr h]
    exact lookup_filter_ne h tree.entries

/-- A place where a file may be put: one stands there, or nothing does. -/
def TakesFile (tree : Tree) (place : Place) : Prop :=
  tree.at? place = none ∨ ∃ old executable, tree.at? place = some (.file old executable)

/-- **What writing a file does**: a file with the bytes stands at the place that the path names, or
a device has taken them. -/
theorem writeBytes_cases (h : tree.writeBytes p bytes = .ok after) :
    ∃ place, tree.resolve true p = .ok place ∧
      ((tree.at? place = some .device ∧ after = tree) ∨
        (tree.TakesFile place ∧
          ∃ executable, after = tree.put place (.file bytes executable))) := by
  unfold writeBytes at h
  cases hr : tree.resolve true p with
  | error fault =>
    rw [hr] at h
    cases h
  | ok place =>
    refine ⟨place, rfl, ?_⟩
    rw [hr] at h
    simp only [bind, Except.bind] at h
    split at h
    · cases h
    · rename_i old executable hat
      exact .inr ⟨.inr ⟨_, _, hat⟩, executable, (Except.ok.inj h).symm⟩
    · cases h
    · rename_i hat
      exact .inl ⟨hat, (Except.ok.inj h).symm⟩
    · rename_i hat
      exact .inr ⟨.inl hat, false, (Except.ok.inj h).symm⟩

theorem TakesFile.ne_nil (h : tree.TakesFile place) : place ≠ [] := by
  rintro rfl
  rcases h with h | ⟨_, _, h⟩ <;> cases h

/-- A file stands in no one's way. -/
theorem TakesFile.alike (h : tree.TakesFile place) (executable : Bool) :
    Alike tree (tree.put place (.file bytes executable)) := by
  refine ⟨rfl, fun other entry hentry => ?_⟩
  by_cases ho : other = place
  · subst ho
    rw [at?_put_self h.ne_nil]
    refine iff_of_false (fun hat => hentry ?_) fun hat => hentry ⟨_, _, (Option.some.inj hat).symm⟩
    rcases h with hnone | ⟨old, executable, hold⟩
    · rw [hnone] at hat
      cases hat
    · exact ⟨old, executable, Option.some.inj (hat.symm.trans hold)⟩
  · rw [at?_put_other ho]

/-- Writing succeeds at a place where a file may be put. -/
theorem writeBytes_takes (hr : tree.resolve true p = .ok place) (hplace : tree.TakesFile place)
    (bytes : List UInt8) :
    ∃ executable, tree.writeBytes p bytes = .ok (tree.put place (.file bytes executable)) := by
  unfold writeBytes
  rw [hr]
  rcases hplace with hnone | ⟨old, executable, hold⟩
  · simp only [bind, Except.bind, hnone]
    exact ⟨false, rfl⟩
  · simp only [bind, Except.bind, hold]
    exact ⟨executable, rfl⟩

theorem alike_written (h : tree.writeBytes p bytes = .ok after) : Alike tree after := by
  obtain ⟨place, -, ⟨-, rfl⟩ | ⟨hplace, executable, rfl⟩⟩ := writeBytes_cases h
  · exact .refl _
  · exact hplace.alike executable

/-! ## Directories that stand -/

/-- The directory of the path stands: the path is empty or leads to a directory, and not only
through a link at its end. -/
def Stands (tree : Tree) (p : Path) : Prop :=
  p.isEmpty = true ∨ ∃ place, tree.resolve false (withoutSlash p) = .ok place ∧
    tree.resolve true p = .ok place ∧ tree.at? place = some .directory

theorem Stands.alike (h : tree.Stands p) (ha : Alike tree other) : other.Stands p := by
  rcases h with hempty | ⟨place, hp, hr, hat⟩
  · exact .inl hempty
  · exact .inr ⟨place, ha.resolve hp, ha.resolve hr, (ha.directory place).mp hat⟩

/-- **A directory that stands** need not be made. -/
theorem makeAll_of_stands (h : tree.Stands p) : tree.makeAll p = .ok tree := by
  unfold makeAll
  rw [makeAllFrom]
  rcases h with hempty | ⟨place, hp, hr, hat⟩
  · rw [if_pos hempty]
  · have hmake : tree.makeDirectory p = .error .alreadyExists := by
      unfold makeDirectory
      rw [hp]
      simp only [bind, Except.bind, hat]
      rfl
    have hdir : tree.isDirectory p = true := by
      unfold isDirectory find
      rw [hr]
      simp only [bind, Except.bind, hat]
      rfl
    rw [hmake]
    dsimp only
    rw [if_pos hdir]
    exact ite_self _

/-! ## Reading -/

/-- What stands at the end of a path. -/
theorem find_eq_ok_iff {entry : Entry} : tree.find p = .ok entry ↔
    ∃ place, tree.resolve true p = .ok place ∧ tree.at? place = some entry := by
  unfold find
  cases hr : tree.resolve true p with
  | error fault => exact iff_of_false nofun fun ⟨_, h, _⟩ => absurd h nofun
  | ok place =>
    simp only [bind, Except.bind, Except.ok.injEq, exists_eq_left']
    cases hat : tree.at? place with
    | none => exact iff_of_false nofun nofun
    | some found =>
      constructor
      · intro h
        rw [Except.ok.inj h]
      · intro h
        rw [Option.some.inj h]
        rfl

/-- The full path of what stands at the end of a path. -/
theorem canonical_eq_ok {entry : Entry} (hr : tree.resolve true p = .ok place)
    (hat : tree.at? place = some entry) : tree.canonical p = .ok (pathOf place) := by
  have hspelled : tree.resolveSpelled true p = .ok place := by
    unfold Tree.resolve at hr
    split at hr
    · cases hr
    · split at hr
      · cases hr
      · exact hr
  unfold canonical
  rw [hspelled]
  simp only [bind, Except.bind, hat]
  rfl

theorem isFile_iff : tree.isFile p = true ↔
    ∃ bytes executable, tree.find p = .ok (.file bytes executable) := by
  unfold isFile
  split
  · rename_i bytes executable h
    exact iff_of_true rfl ⟨bytes, executable, h⟩
  · rename_i h
    exact iff_of_false nofun fun ⟨bytes, executable, hf⟩ => h bytes executable hf

theorem readBytes_of_find {executable : Bool} (h : tree.find p = .ok (.file bytes executable)) :
    tree.readBytes p = .ok bytes := by
  unfold readBytes
  rw [h]
  rfl

/-- **What is read from a written file** is what was written. A device keeps nothing, so the path
has to name a file. -/
theorem find_written (h : tree.writeBytes p bytes = .ok after) (hfile : after.isFile p = true) :
    ∃ executable, after.find p = .ok (.file bytes executable) := by
  have halike := alike_written h
  obtain ⟨place, hr, ⟨hdevice, rfl⟩ | ⟨hplace, executable, rfl⟩⟩ := writeBytes_cases h
  · obtain ⟨old, executable, hfind⟩ := isFile_iff.mp hfile
    obtain ⟨found, hfound, hat⟩ := find_eq_ok_iff.mp hfind
    obtain rfl := Except.ok.inj (hr.symm.trans hfound)
    rw [hdevice] at hat
    cases hat
  · exact ⟨executable, find_eq_ok_iff.mpr
      ⟨place, halike.resolve hr, at?_put_self hplace.ne_nil _⟩⟩

/-- **What is read from another path** is what was read before. -/
theorem find_elsewhere {entry : Entry} (h : tree.writeBytes p bytes = .ok after)
    (hne : tree.resolve true q ≠ tree.resolve true p) (hq : tree.find q = .ok entry) :
    after.find q = .ok entry := by
  have halike := alike_written h
  obtain ⟨place, hr, ⟨hdevice, rfl⟩ | ⟨hplace, executable, rfl⟩⟩ := writeBytes_cases h
  · exact hq
  · obtain ⟨found, hfound, hat⟩ := find_eq_ok_iff.mp hq
    refine find_eq_ok_iff.mpr ⟨found, halike.resolve hfound, ?_⟩
    rw [at?_put_other, hat]
    rintro rfl
    exact hne (hfound.trans hr.symm)

end InlineRepl.Tree
