import InlineRepl.Command.Configure
import InlineRepl.Proofs.Board.History
import InlineRepl.Proofs.Json.Pretty
import InlineRepl.Proofs.Tree.Writing
import InlineRepl.Proofs.Wire.Records

/-!
# Settings survive the file

What is saved is loaded again: the record is written as indented text, whatever of its fields is
absent, and read from it as it was, but for the schema of an earlier version. A command that sets
one setting loads the record, sets it and saves it, so it leaves the other settings as they were.
By induction on a row of such commands the file has the last value that was given for each setting,
and one that no command has set keeps the value it had, whatever the file held at first.

Results:
* `readsBack`: a settings record is read back.
* `load_saved`, `Writable.save`: what is saved is loaded again, and when saving succeeds.
* `get_set`: what setting one setting does to each of them.
* `apply_eq_ok_iff`, `load_applied`: what one command does to what the file loads.
* `settings_survive_the_file`: what a row of commands does.
-/

namespace InlineRepl.Settings

open Json (Raw Record)

variable {settings : Settings} {tree after : Tree} {file : Path} {key other : SettingKey}
  {value : Option Path}

/-! ## The text of the file -/

theorem readsBack_path :
    Json.ReadsBack (fun p : Path => .str p.text) fun r => r.text?.map Path.mk := by
  intro p
  dsimp only
  rw [Raw.text?_str, Option.map_some]

/-- **A settings record is read back**, whatever of its fields is absent. -/
theorem readsBack : Json.ReadsBack toJson ofRaw? := by
  intro settings
  unfold toJson ofRaw?
  dsimp only
  obtain ⟨record, hr, hl⟩ := Record.ofRaw_present
    [("schema", some (.nat settings.schema.toNat)),
      ("interpreter", settings.interpreter.map fun p : Path => .str p.text),
      ("notebookInterpreter", settings.notebookInterpreter.map fun p : Path => .str p.text),
      ("bridgeScript", settings.bridgeScript.map fun p : Path => .str p.text)]
    (by simp) ["schema", "interpreter", "notebookInterpreter", "bridgeScript"]
  have hschema : record.defaulted "schema" 0 Raw.word32? = some settings.schema := by
    unfold Record.defaulted
    rw [hl "schema" (by simp)]
    exact Raw.word32?_nat _
  have hinterpreter := readsBack_path.optional rfl (hl "interpreter" (by simp))
  have hnotebook := readsBack_path.optional rfl (hl "notebookInterpreter" (by simp))
  have hbridge := readsBack_path.optional rfl (hl "bridgeScript" (by simp))
  rw [hr]
  simp only [Option.bind_eq_bind, Option.bind_some, hschema, hinterpreter, hnotebook, hbridge]
  rfl

theorem ofText_fileText (settings : Settings) : ofText settings.fileText = settings.upgrade := by
  unfold ofText fileText
  rw [Raw.readText_pretty, readsBack]

/-! ## Saving and loading -/

/-- Saving writes the text of the record, with the directories above the file made. -/
theorem save_eq_ok (h : settings.save tree file = .ok after) :
    ∃ made : Tree, made.writeText file settings.fileText = .ok after := by
  unfold save at h
  dsimp only at h
  split at h
  · rename_i dir _
    cases hmade : tree.makeAll dir with
    | error fault =>
      rw [hmade] at h
      cases h
    | ok made =>
      rw [hmade] at h
      exact ⟨made, h⟩
  · exact ⟨tree, h⟩

/-- A settings file can be written: its path leads to where a file may be put, and the directory
above it stands already. -/
structure Writable (tree : Tree) (file : Path) : Prop where
  takes : ∃ place, tree.resolve true file = .ok place ∧ tree.TakesFile place
  above : ∀ dir, file.parent? = some dir → tree.Stands dir

/-- **Saving succeeds** where the file can be written, whatever the settings, and it can be written
again. -/
theorem Writable.save (h : Writable tree file) (settings : Settings) :
    ∃ after, settings.save tree file = .ok after ∧ after.isFile file = true ∧
      Writable after file := by
  obtain ⟨place, hplace, htakes⟩ := h.takes
  obtain ⟨executable, hwrite⟩ :=
    Tree.writeBytes_takes hplace htakes (Text.bytesOf settings.fileText)
  have halike := Tree.alike_written hwrite
  have hat : (tree.put place (.file (Text.bytesOf settings.fileText) executable)).at? place =
      some (.file (Text.bytesOf settings.fileText) executable) :=
    Tree.at?_put_self htakes.ne_nil _
  refine ⟨_, ?_, Tree.isFile_iff.mpr ⟨_, _, Tree.find_eq_ok_iff.mpr
    ⟨place, halike.resolve hplace, hat⟩⟩, ⟨place, halike.resolve hplace, .inr ⟨_, _, hat⟩⟩,
    fun dir hdir => (h.above dir hdir).alike halike⟩
  unfold Settings.save
  dsimp only
  split
  · rename_i dir hdir
    rw [Tree.makeAll_of_stands (h.above dir hdir)]
    exact hwrite
  · exact hwrite

/-- **What is saved is loaded again**, as settings of the current version. -/
theorem load_saved (h : settings.save tree file = .ok after) (hfile : after.isFile file = true) :
    load after file = settings.upgrade := by
  obtain ⟨made, hwrite⟩ := save_eq_ok h
  obtain ⟨executable, hfind⟩ := Tree.find_written hwrite hfile
  have hread : after.readText file = .ok settings.fileText := by
    unfold Tree.readText
    rw [Tree.readBytes_of_find hfind]
    simp only [bind, Except.bind, Text.Utf8.decode?_bytesOf]
    rfl
  unfold load
  rw [hread]
  exact ofText_fileText settings

theorem schema_upgrade (settings : Settings) : settings.upgrade.schema ≠ 0 := by
  unfold upgrade
  split
  · exact show currentSchema ≠ 0 by decide
  · assumption

theorem upgrade_eq_self (h : settings.schema ≠ 0) : settings.upgrade = settings :=
  if_neg h

/-- What a file loads is of the current version or a later one. -/
theorem schema_load (tree : Tree) (file : Path) : (load tree file).schema ≠ 0 := by
  unfold load ofText
  split
  · split
    · exact schema_upgrade _
    · decide
  · decide

/-! ## Setting -/

/-- What a setting is set to by a value: the empty path clears it. -/
def kept (value : Option Path) : Option Path :=
  value.filter fun p => !p.isEmpty

@[simp] theorem schema_set (settings : Settings) (key : SettingKey) (value : Option Path) :
    (settings.set key value).schema = settings.schema := by
  cases key <;> rfl

/-- **What setting a setting does** to it and to the others. -/
theorem get_set (settings : Settings) (key other : SettingKey) (value : Option Path) :
    (settings.set key value).get other =
      if key = other then kept value else settings.get other := by
  cases key <;> cases other <;> rfl

/-- The settings after a row of them has been set. -/
def setAll (settings : Settings) (sets : List (SettingKey × Option Path)) : Settings :=
  sets.foldl (fun settings s => settings.set s.1 s.2) settings

theorem setAll_append (settings : Settings) (sets more : List (SettingKey × Option Path)) :
    settings.setAll (sets ++ more) = (settings.setAll sets).setAll more :=
  List.foldl_append

theorem setAll_snoc (settings : Settings) (sets : List (SettingKey × Option Path))
    (key : SettingKey) (value : Option Path) :
    settings.setAll (sets ++ [(key, value)]) = (settings.setAll sets).set key value :=
  setAll_append settings sets _

/-- **The last value counts** of those that are given for a setting. -/
theorem get_setAll_last {sets : List (SettingKey × Option Path)} {last : SettingKey × Option Path}
    (h : IsLast (fun s => decide (s.1 = key)) sets last) :
    (settings.setAll sets).get key = kept last.2 := by
  induction sets using List.reverseRecOn with
  | nil => exact absurd h not_isLast_nil
  | append_singleton sets new ih =>
    rw [setAll_snoc, get_set]
    rw [isLast_snoc] at h
    by_cases hnew : new.1 = key
    · rw [if_pos (by simpa using hnew)] at h
      rw [if_pos hnew, h]
    · rw [if_neg (by simpa using hnew)] at h
      rw [if_neg hnew, ih h]

/-- A setting that is not set stays what it was. -/
theorem get_setAll_of_not_mem : ∀ {sets : List (SettingKey × Option Path)} {settings : Settings},
    (∀ s ∈ sets, s.1 ≠ key) → (settings.setAll sets).get key = settings.get key
  | [], _, _ => rfl
  | (first, value) :: sets, settings, h => by
    obtain ⟨hfirst, hsets⟩ := List.forall_mem_cons.mp h
    show ((settings.set first value).setAll sets).get key = _
    rw [get_setAll_of_not_mem hsets, get_set, if_neg hfirst]

/-! ## Commands -/

open Configure (Change)

/-- When a command succeeds: the changed settings are saved. -/
theorem apply_eq_ok_iff {change : Change} :
    Configure.apply tree file key value = .ok (change, after) ↔
      ((load tree file).set key value).save tree file = .ok after ∧
        change = ⟨key, kept value, (load tree file).get key⟩ := by
  have hvalue : ((load tree file).set key value).get key = kept value := by
    rw [get_set, if_pos rfl]
  unfold Configure.apply
  dsimp only
  rw [hvalue]
  cases ((load tree file).set key value).save tree file with
  | error fault => exact iff_of_false nofun fun h => absurd h.1 nofun
  | ok saved =>
    rw [Except.ok.injEq, Except.ok.injEq, Prod.mk.injEq, and_comm]
    exact and_congr_right fun _ => eq_comm

/-- **What one command does to what the file loads.** -/
theorem load_applied {change : Change}
    (h : Configure.apply tree file key value = .ok (change, after))
    (hfile : after.isFile file = true) :
    load after file = (load tree file).set key value := by
  have hschema : ((load tree file).set key value).schema ≠ 0 := by
    rw [schema_set]
    exact schema_load tree file
  rw [load_saved (apply_eq_ok_iff.mp h).1 hfile, upgrade_eq_self hschema]

/-- A command succeeds where the file can be written. -/
theorem Writable.apply (h : Writable tree file) (key : SettingKey) (value : Option Path) :
    ∃ change after, Configure.apply tree file key value = .ok (change, after) ∧
      after.isFile file = true ∧ Writable after file := by
  obtain ⟨after, hsave, hfile, hafter⟩ := h.save ((load tree file).set key value)
  exact ⟨_, after, apply_eq_ok_iff.mpr ⟨hsave, rfl⟩, hfile, hafter⟩

/-- **Commands that change settings in a file**, one after another: what each of them sets, what it
reports, and the tree after all of them. After each the path names a file, no device that takes
what is written and keeps nothing. -/
inductive Applied (file : Path) (tree : Tree) :
    List (SettingKey × Option Path) → List Change → Tree → Prop
  | nil : Applied file tree [] [] tree
  | snoc {sets changes mid key value change after} : Applied file tree sets changes mid →
      Configure.apply mid file key value = .ok (change, after) → after.isFile file = true →
      Applied file tree (sets ++ [(key, value)]) (changes ++ [change]) after

/-- Commands succeed where the file can be written. -/
theorem Writable.applied (h : Writable tree file) (sets : List (SettingKey × Option Path)) :
    ∃ changes after, Applied file tree sets changes after ∧ Writable after file := by
  induction sets using List.reverseRecOn with
  | nil => exact ⟨[], tree, .nil, h⟩
  | append_singleton sets new ih =>
    obtain ⟨changes, mid, happlied, hmid⟩ := ih
    obtain ⟨change, after, happly, hfile, hafter⟩ := hmid.apply new.1 new.2
    exact ⟨_, after, happlied.snoc happly hfile, hafter⟩

/-- By induction on the row, the file loads what the commands make of what it loaded at first. -/
theorem Applied.load_eq {sets : List (SettingKey × Option Path)} {changes : List Change}
    (h : Applied file tree sets changes after) :
    load after file = (load tree file).setAll sets := by
  induction h with
  | nil => rfl
  | snoc _ happly hfile ih => rw [load_applied happly hfile, ih, setAll_snoc]

/-- Each command reports what the file loaded just before it. -/
theorem Applied.previous {sets : List (SettingKey × Option Path)} {changes : List Change}
    (h : Applied file tree sets changes after) :
    ∀ front key value back, sets = front ++ (key, value) :: back →
      ∃ reported change rest mid, changes = reported ++ change :: rest ∧
        Applied file tree front reported mid ∧
        change = ⟨key, kept value, (load mid file).get key⟩ := by
  induction h with
  | nil =>
    intro front key value back hsplit
    exact absurd hsplit (by simp)
  | @snoc sets changes mid lastKey lastValue change after happlied happly hfile ih =>
    intro front key value back hsplit
    rcases List.eq_nil_or_concat back with rfl | ⟨back, last, rfl⟩
    · obtain ⟨rfl, heq⟩ := List.append_inj' hsplit rfl
      obtain ⟨rfl, rfl⟩ := Prod.mk.inj (List.cons.inj heq).1
      exact ⟨changes, change, [], mid, rfl, happlied, (apply_eq_ok_iff.mp happly).2⟩
    · rw [List.concat_eq_append, ← List.cons_append, ← List.append_assoc] at hsplit
      obtain ⟨reported, found, rest, before, rfl, hbefore, hfound⟩ :=
        ih front key value back (List.append_inj' hsplit rfl).1
      exact ⟨reported, found, rest ++ [change], before, by simp, hbefore, hfound⟩

/-- **Settings survive the file.** What is saved is loaded again, but for the schema 0, which
becomes the current one. And whatever a file holds at first, after commands that set settings in it
the file loads, for each setting, the last value that was given for it, where no path and the empty
one clear it; a setting that none of them has set is what the file loaded at first. Each command
reports as the previous value what the file loaded for its setting just before. All of them succeed
where the file can be written. -/
theorem settings_survive_the_file (file : Path) (tree : Tree) :
    (∀ (settings : Settings) (after : Tree), settings.save tree file = .ok after →
        after.isFile file = true →
        load after file =
          if settings.schema = 0 then { settings with schema := 1 } else settings) ∧
      (∀ (sets : List (SettingKey × Option Path)) (changes : List Change) (after : Tree),
        Applied file tree sets changes after →
        (∀ key, (∀ last, IsLast (fun s => decide (s.1 = key)) sets last →
            (load after file).get key = kept last.2) ∧
          ((∀ s ∈ sets, s.1 ≠ key) → (load after file).get key = (load tree file).get key)) ∧
        ∀ front key value back, sets = front ++ (key, value) :: back →
          ∃ reported change rest mid, changes = reported ++ change :: rest ∧
            Applied file tree front reported mid ∧
            change.previous = (load mid file).get key) ∧
      (Writable tree file →
        (∀ settings : Settings, ∃ after, settings.save tree file = .ok after ∧
          after.isFile file = true) ∧
        ∀ sets, ∃ changes after, Applied file tree sets changes after) := by
  refine ⟨fun settings after => load_saved, fun sets changes after happlied =>
    ⟨fun key => ?_, fun front key value back hsplit => ?_⟩, fun h => ⟨fun settings => ?_,
    fun sets => ?_⟩⟩
  · rw [happlied.load_eq]
    exact ⟨fun last => get_setAll_last, get_setAll_of_not_mem⟩
  · obtain ⟨reported, change, rest, mid, hchanges, hmid, rfl⟩ :=
      happlied.previous front key value back hsplit
    exact ⟨reported, _, rest, mid, hchanges, hmid, rfl⟩
  · obtain ⟨after, hsave, hfile, -⟩ := h.save settings
    exact ⟨after, hsave, hfile⟩
  · obtain ⟨changes, after, happlied, -⟩ := h.applied sets
    exact ⟨changes, after, happlied⟩

/-- A file with a byte that no text has, in the working directory. -/
def damaged : Tree :=
  { entries := [(["s.json"], .file [0xFF] false)] }

/-- Commands that set the bridge script and the interpreter, and then clear the bridge script. -/
def setAndCleared : List (SettingKey × Option Path) :=
  [(.bridgeScript, some ⟨"/b"⟩), (.interpreter, some ⟨"/i"⟩), (.bridgeScript, some ⟨""⟩)]

theorem resolve_damaged : damaged.resolve true ⟨"s.json"⟩ = .ok ["s.json"] :=
  Tree.resolve_eq_ok_iff.mpr ⟨by unfold Tree.IsTaken; decide,
    .final rfl ⟨by decide, by decide, by decide⟩ nofun nofun⟩

theorem writable_damaged : Writable damaged ⟨"s.json"⟩ where
  takes := ⟨["s.json"], resolve_damaged, .inr ⟨[0xFF], false, rfl⟩⟩
  above dir hdir := by
    rw [show Path.parent? ⟨"s.json"⟩ = some ⟨""⟩ by decide] at hdir
    exact .inl (Option.some.inj hdir ▸ rfl)

theorem settings_survive_in_a_damaged_file :
    (∃ after, Settings.save { interpreter := some ⟨"a\n\"é"⟩ } damaged ⟨"s.json"⟩ = .ok after ∧
      load after ⟨"s.json"⟩ = { schema := 1, interpreter := some ⟨"a\n\"é"⟩ }) ∧
      ∃ changes after, Applied ⟨"s.json"⟩ damaged setAndCleared changes after ∧
        (load after ⟨"s.json"⟩).get .interpreter = some ⟨"/i"⟩ ∧
        (load after ⟨"s.json"⟩).get .bridgeScript = none := by
  obtain ⟨hsaved, hsets, hwritable⟩ := settings_survive_the_file ⟨"s.json"⟩ damaged
  obtain ⟨saved, hsave, hfile⟩ := (hwritable writable_damaged).1 { interpreter := some ⟨"a\n\"é"⟩ }
  obtain ⟨changes, after, happlied⟩ := (hwritable writable_damaged).2 setAndCleared
  have hkeys := (hsets _ _ _ happlied).1
  exact ⟨⟨saved, hsave, hsaved _ saved hsave hfile⟩, changes, after, happlied,
    (hkeys .interpreter).1 _ ⟨by decide, [(.bridgeScript, some ⟨"/b"⟩)], _, rfl, by decide⟩,
    (hkeys .bridgeScript).1 (.bridgeScript, some ⟨""⟩)
      ⟨by decide, setAndCleared.take 2, [], rfl, by decide⟩⟩

end InlineRepl.Settings
