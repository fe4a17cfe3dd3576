import InlineRepl.Proofs.Text.Joined
import InlineRepl.Proofs.Tree.Writing

/-!
# Files of different names are different files

A path that ends in a name leads to a place that has this name, unless what stands there is a link
that is followed. So two paths that end in different names do not lead to one place, whatever their
directories, as long as neither is a link at its end. Writing files to such paths one after the
other leaves each of them with what was written to it.

Results:
* `endsIn_join`: the path of a name in a directory ends in the name.
* `Leads.getLast?_eq`: steps that end in a name lead to a place of this name.
* `Leads.unfollowed`: following a link at the end matters only if there is one.
* `Plain.resolve_ne`: plain paths that end in different names lead to different places.
* `find_writeAll`: what is found at the end of each of the paths that were written.
-/

namespace InlineRepl.Tree

variable {tree other after : Tree} {links : Nat} {place last stop : Place} {todo : List String}
  {p q : Path} {name found : String} {files : List (Path × List UInt8)}

/-! ## Names at the end -/

/-- The path ends in a name: no slash and no dots stand behind it. -/
structure EndsIn (p : Path) (name : String) : Prop where
  last : (steps p).getLast? = some name
  ne_here : name ≠ "."
  ne_up : name ≠ ".."

/-- A path ends in one name at most. -/
theorem EndsIn.unique (h : EndsIn p name) (hfound : EndsIn p found) : name = found :=
  Option.some.inj (h.last.symm.trans hfound.last)

/-- The text of a name in a directory: what stands before the name is empty or ends in a slash. -/
theorem toList_join (dir : Path) (h : '/' ∉ name.toList) :
    ∃ front, (dir.join ⟨name⟩).text.toList = front ++ name.toList ∧
      (front = [] ∨ ∃ above, front = above ++ ['/']) := by
  have hrelative : (Path.mk name).isAbsolute = false := by
    refine beq_eq_false_iff_ne.mpr fun hhead => h ?_
    exact List.mem_of_mem_head? hhead
  unfold Path.join
  rw [if_neg (by rw [hrelative]; exact Bool.false_ne_true)]
  split
  · rename_i hdir
    refine ⟨dir.text.toList, String.toList_append, hdir.imp (fun hempty => ?_) fun hslash => ?_⟩
    · rw [eq_of_beq hempty]
      rfl
    · exact List.getLast?_eq_some_iff.mp hslash
  · refine ⟨dir.text.toList ++ ['/'], ?_, .inr ⟨_, rfl⟩⟩
    rw [String.toList_append, String.toList_append]
    rfl

/-- **The path of a name in a directory ends in the name.** -/
theorem endsIn_join (dir : Path) (hslash : '/' ∉ name.toList) (hne : name.toList ≠ [])
    (hhere : name ≠ ".") (hup : name ≠ "..") : EndsIn (dir.join ⟨name⟩) name := by
  refine ⟨?_, hhere, hup⟩
  obtain ⟨front, htext, hfront⟩ := toList_join dir hslash
  have hpieces : ∃ pieces, Text.split '/' (front ++ name.toList) = pieces ++ [name.toList] := by
    rcases hfront with rfl | ⟨above, rfl⟩
    · exact ⟨[], Text.split_of_not_mem hslash⟩
    · refine ⟨Text.split '/' above, ?_⟩
      rw [List.append_assoc, List.singleton_append, Text.split_append,
        Text.split_of_not_mem hslash]
  obtain ⟨pieces, hpieces⟩ := hpieces
  have hend : (front ++ name.toList).getLast? ≠ some '/' := by
    rw [List.getLast?_append_of_ne_nil _ hne]
    exact fun hlast => hslash (List.mem_of_getLast? hlast)
  unfold steps
  rw [htext]
  dsimp only
  rw [if_neg hend, List.append_nil, hpieces, List.filter_append, List.map_append,
    List.filter_cons_of_pos (by simpa using hne)]
  rw [List.filter_nil, List.map_cons, List.map_nil, List.getLast?_concat, String.ofList_toList]

/-- What is left of steps after the first one, if the first is not the last. -/
theorem getLast?_tail {step : String} {rest : List String}
    (h : (step :: rest).getLast? = some name) (hne : step ≠ name) : rest.getLast? = some name := by
  cases rest with
  | nil => exact absurd (Option.some.inj h) hne
  | cons next rest => rwa [List.getLast?_cons_cons] at h

/-- **Steps that end in a name lead to a place of this name**, if no link at the end is followed. -/
theorem Leads.getLast?_eq (h : tree.Leads false links place todo last)
    (hlast : todo.getLast? = some name) (hhere : name ≠ ".") (hup : name ≠ "..") :
    last.getLast? = some name := by
  induction h with
  | done => exact absurd hlast nofun
  | here _ _ ih => exact ih (getLast?_tail hlast (Ne.symm hhere))
  | up _ _ ih => exact ih (getLast?_tail hlast (Ne.symm hup))
  | final =>
    obtain rfl := Option.some.inj hlast
    exact List.getLast?_concat
  | @into links place step rest last _ _ _ hrest ih =>
    cases rest with
    | nil =>
      obtain rfl := Option.some.inj hlast
      cases hrest
      exact List.getLast?_concat
    | cons next rest => exact ih (List.getLast?_cons_cons ▸ hlast)
  | @link links place step rest last target _ _ _ hfollow _ ih =>
    -- A link that is followed is not at the end, so the steps of its target come before the name.
    cases rest with
    | nil => exact absurd (hfollow rfl) Bool.false_ne_true
    | cons next rest =>
      refine ih ?_
      rw [List.getLast?_append_of_ne_nil _ (List.cons_ne_nil _ _)]
      exact List.getLast?_cons_cons ▸ hlast

/-- **Following a link at the end matters only if there is one.** -/
theorem Leads.unfollowed (h : tree.Leads true links place todo last) :
    tree.Leads false links place todo last ∨
      ∃ stop target, tree.Leads false links place todo stop ∧
        tree.at? stop = some (.link target) := by
  induction h with
  | done => exact .inl (.done _ _)
  | here hd _ ih =>
    exact ih.imp (.here hd) fun ⟨stop, target, hl, hat⟩ => ⟨stop, target, .here hd hl, hat⟩
  | up hd _ ih =>
    exact ih.imp (.up hd) fun ⟨stop, target, hl, hat⟩ => ⟨stop, target, .up hd hl, hat⟩
  | final hd hname hdir => exact .inl (.final hd hname hdir fun _ _ => rfl)
  | into hd hname hdir _ ih =>
    exact ih.imp (.into hd hname hdir) fun ⟨stop, target, hl, hat⟩ =>
      ⟨stop, target, .into hd hname hdir hl, hat⟩
  | @link links place step rest last target hd hname hlink _ _ ih =>
    cases rest with
    | nil =>
      refine .inr ⟨place ++ [step], target, .final hd hname ?_ fun _ _ => rfl, hlink⟩
      rw [hlink]
      exact nofun
    | cons next rest =>
      have hgo : ∀ {last}, tree.Leads false links (if target.isAbsolute then [] else place)
          (steps target ++ next :: rest) last →
          tree.Leads false (links + 1) place (step :: next :: rest) last :=
        .link hd hname hlink fun hr => absurd hr (List.cons_ne_nil _ _)
      exact ih.imp hgo fun ⟨stop, target, hl, hat⟩ => ⟨stop, target, hgo hl, hat⟩

/-! ## Plain paths -/

/-- What stands at the end of the path, if anything does, is neither a link nor a device. -/
def Plain (tree : Tree) (p : Path) : Prop :=
  ∀ place, tree.resolve false p = .ok place →
    (∀ target, tree.at? place ≠ some (.link target)) ∧ tree.at? place ≠ some .device

theorem Plain.alike (h : tree.Plain p) (ha : Alike tree other) : other.Plain p := by
  intro place hplace
  obtain ⟨hlink, hdevice⟩ := h place (ha.symm.resolve hplace)
  exact ⟨fun target ht => hlink target ((ha.link place target).mpr ht),
    fun hd => hdevice ((ha.device place).mpr hd)⟩

/-- At the end of a plain path there is no link to follow. -/
theorem Plain.unfollowed (h : tree.Plain p) (hr : tree.resolve true p = .ok place) :
    tree.resolve false p = .ok place := by
  obtain ⟨htaken, hleads⟩ := resolve_eq_ok_iff.mp hr
  rcases hleads.unfollowed with hfalse | ⟨stop, target, hstop, hat⟩
  · exact resolve_eq_ok_iff.mpr ⟨htaken, hfalse⟩
  · exact absurd hat ((h stop (resolve_eq_ok_iff.mpr ⟨htaken, hstop⟩)).1 target)

/-- A plain path leads to a place of the name that it ends in. -/
theorem Plain.getLast?_eq (h : tree.Plain p) (hp : EndsIn p name)
    (hr : tree.resolve true p = .ok place) : place.getLast? = some name :=
  (resolve_eq_ok_iff.mp (h.unfollowed hr)).2.getLast?_eq hp.last hp.ne_here hp.ne_up

/-- **Plain paths that end in different names lead to different places.** -/
theorem Plain.resolve_ne (hp : tree.Plain p) (hq : tree.Plain q) (hname : EndsIn p name)
    (hfound : EndsIn q found) (hne : name ≠ found) (hr : tree.resolve true p = .ok place) :
    tree.resolve true p ≠ tree.resolve true q := by
  intro heq
  have hplace := hp.getLast?_eq hname hr
  rw [hq.getLast?_eq hfound (heq ▸ hr)] at hplace
  exact hne (Option.some.inj hplace).symm

/-- A plain path that was written has what was written. -/
theorem Plain.find_written {bytes : List UInt8} (h : tree.Plain p)
    (hw : tree.writeBytes p bytes = .ok after) :
    ∃ executable, after.find p = .ok (.file bytes executable) := by
  refine Tree.find_written hw (isFile_iff.mpr ?_)
  have halike := alike_written hw
  obtain ⟨place, hr, ⟨hdevice, -⟩ | ⟨htakes, executable, rfl⟩⟩ := writeBytes_cases hw
  · exact absurd hdevice (h place (h.unfollowed hr)).2
  · exact ⟨bytes, executable, find_eq_ok_iff.mpr
      ⟨place, halike.resolve hr, at?_put_self htakes.ne_nil _⟩⟩

/-! ## Writing many files -/

/-- Writes files, one after the other. -/
def writeAll (tree : Tree) (files : List (Path × List UInt8)) : Except FileFault Tree :=
  files.foldlM (fun tree file => tree.writeBytes file.1 file.2) tree

theorem writeAll_nil_eq_ok : tree.writeAll [] = .ok after ↔ tree = after :=
  ⟨Except.ok.inj, fun h => h ▸ rfl⟩

theorem writeAll_cons_eq_ok {file : Path × List UInt8} :
    tree.writeAll (file :: files) = .ok after ↔
      ∃ next, tree.writeBytes file.1 file.2 = .ok next ∧ next.writeAll files = .ok after := by
  unfold writeAll
  rw [List.foldlM_cons]
  cases tree.writeBytes file.1 file.2 with
  | error fault => exact iff_of_false nofun fun ⟨_, h, _⟩ => absurd h nofun
  | ok next => simp only [bind, Except.bind, Except.ok.injEq, exists_eq_left']

theorem writeAll_append_eq_ok {more : List (Path × List UInt8)} :
    tree.writeAll (files ++ more) = .ok after ↔
      ∃ next, tree.writeAll files = .ok next ∧ next.writeAll more = .ok after := by
  induction files generalizing tree with
  | nil => simp only [List.nil_append, writeAll_nil_eq_ok, exists_eq_left']
  | cons file files ih =>
    simp only [List.cons_append, writeAll_cons_eq_ok, ih]
    exact ⟨fun ⟨next, hw, last, hn, hl⟩ => ⟨last, ⟨next, hw, hn⟩, hl⟩,
      fun ⟨last, ⟨next, hw, hn⟩, hl⟩ => ⟨next, hw, last, hn, hl⟩⟩

theorem alike_writeAll (h : tree.writeAll files = .ok after) : Alike tree after := by
  induction files generalizing tree with
  | nil =>
    obtain rfl := writeAll_nil_eq_ok.mp h
    exact .refl _
  | cons file files ih =>
    obtain ⟨next, hw, hnext⟩ := writeAll_cons_eq_ok.mp h
    exact (alike_written hw).trans (ih hnext)

/-- Writing files of other names leaves what is found at the end of a plain path. -/
theorem find_writeAll_elsewhere {entry : Entry} (h : tree.writeAll files = .ok after)
    (hplain : tree.Plain p) (hp : EndsIn p name)
    (hfiles : ∀ file ∈ files, tree.Plain file.1 ∧ ∃ found, EndsIn file.1 found ∧ name ≠ found)
    (hfind : tree.find p = .ok entry) : after.find p = .ok entry := by
  induction files generalizing tree with
  | nil =>
    obtain rfl := writeAll_nil_eq_ok.mp h
    exact hfind
  | cons file files ih =>
    obtain ⟨next, hw, hnext⟩ := writeAll_cons_eq_ok.mp h
    have halike := alike_written hw
    obtain ⟨hfile, found, hfound, hne⟩ := hfiles file List.mem_cons_self
    obtain ⟨place, hplace, -⟩ := find_eq_ok_iff.mp hfind
    refine ih hnext (hplain.alike halike) (fun f hf => ?_)
      (find_elsewhere hw (hplain.resolve_ne hfile hp hfound hne hplace) hfind)
    exact (hfiles f (List.mem_cons_of_mem _ hf)).imp (·.alike halike) id

/-- **Each of the files that were written has what was written to it**, if their names are
different. -/
theorem find_writeAll (h : tree.writeAll files = .ok after)
    (hplain : ∀ file ∈ files, tree.Plain file.1)
    (hnamed : ∀ file ∈ files, ∃ name, EndsIn file.1 name)
    (hne : files.Pairwise fun a b => ∀ name, EndsIn a.1 name → ¬ EndsIn b.1 name) :
    ∀ file ∈ files, ∃ executable, after.find file.1 = .ok (.file file.2 executable) := by
  induction files generalizing tree with
  | nil => exact fun _ hf => absurd hf List.not_mem_nil
  | cons file files ih =>
    obtain ⟨next, hw, hnext⟩ := writeAll_cons_eq_ok.mp h
    have halike := alike_written hw
    obtain ⟨hfirst, hrest⟩ := List.pairwise_cons.mp hne
    have hplainNext : ∀ f ∈ files, next.Plain f.1 :=
      fun f hf => (hplain f (List.mem_cons_of_mem _ hf)).alike halike
    have hplainFile := hplain file List.mem_cons_self
    intro f hf
    rcases List.mem_cons.mp hf with rfl | hf
    · -- The file has its bytes once it is written, and the others have other names.
      obtain ⟨executable, hfind⟩ := hplainFile.find_written hw
      obtain ⟨name, hname⟩ := hnamed f List.mem_cons_self
      refine ⟨executable, find_writeAll_elsewhere hnext (hplainFile.alike halike) hname
        (fun g hg => ?_) hfind⟩
      obtain ⟨found, hfound⟩ := hnamed g (List.mem_cons_of_mem _ hg)
      exact ⟨hplainNext g hg, found, hfound, fun heq => hfirst g hg name hname (heq ▸ hfound)⟩
    · exact ih hnext hplainNext (fun g hg => hnamed g (List.mem_cons_of_mem _ hg)) hrest f hf

end InlineRepl.Tree
