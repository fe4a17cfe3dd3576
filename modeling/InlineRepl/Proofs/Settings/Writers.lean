import InlineRepl.Proofs.Host.Setup
import InlineRepl.Proofs.Settings.File
import Mathlib.Data.List.DropRight

/-!
# Two writers of a settings file

A host keeps the settings that it was started with and changes them as it is configured; each time
it writes all of them to its file. A command loads the file, changes one setting and writes the
record back. So commands leave alone what they do not set, but a host does not: what it writes is
its own record, without what commands have set since it was started. An update by a command survives
until the host writes next, if the host's own value is another one.

`Written` is a run of both writers on one file. Its invariant is that the file loads the host's own
settings, with what commands have set since the host wrote last.

Results:
* `get_written_over`, `get_written_last`: which of a row of writes counts for a setting.
* `calls_configure`: a configuration asks for the host's own record to be written.
* `Written.load_eq`: the host's own settings, and what the file loads.
* `file_after_both_writers`: what the file loads for each setting after any run.
* `reverted_by_the_host`: a run in which an update is lost.
-/

namespace InlineRepl.Settings

/-! ## Writes -/

/-- Who writes a settings file. -/
inductive Writer where
  | host
  | command
  deriving Repr, DecidableEq

/-- A write of one setting. -/
structure Write where
  writer : Writer
  key : SettingKey
  value : Option Path
  deriving Repr, DecidableEq

/-- What writes set, in order. -/
def sets (writes : List Write) : List (SettingKey × Option Path) :=
  writes.map fun w => (w.key, w.value)

/-- What the host has set. -/
def own (writes : List Write) : List (SettingKey × Option Path) :=
  sets (writes.filter fun w => decide (w.writer = .host))

/-- What commands have set since the host wrote last. -/
def since (writes : List Write) : List (SettingKey × Option Path) :=
  sets (writes.rtakeWhile fun w => decide (w.writer = .command))

variable {key : SettingKey} {value : Option Path} {writes front later : List Write} {w : Write}

theorem sets_append (front later : List Write) : sets (front ++ later) = sets front ++ sets later :=
  List.map_append

theorem own_append (front later : List Write) : own (front ++ later) = own front ++ own later := by
  unfold own
  rw [List.filter_append, sets_append]

theorem own_cons (w : Write) (later : List Write) :
    own (w :: later) = (if w.writer = .host then [(w.key, w.value)] else []) ++ own later := by
  unfold own
  rw [List.filter_cons]
  by_cases hw : w.writer = .host
  · rw [if_pos (by simpa using hw), if_pos hw]
    rfl
  · rw [if_neg (by simpa using hw), if_neg hw]
    rfl

theorem own_snoc (writes : List Write) (w : Write) :
    own (writes ++ [w]) =
      if w.writer = .host then own writes ++ [(w.key, w.value)] else own writes := by
  rw [own_append, own_cons]
  split
  · rfl
  · exact List.append_nil _

theorem since_snoc (writes : List Write) (w : Write) :
    since (writes ++ [w]) =
      if w.writer = .command then since writes ++ [(w.key, w.value)] else [] := by
  unfold since
  rw [List.rtakeWhile_concat]
  by_cases hw : w.writer = .command
  · rw [if_pos (by simpa using hw), if_pos hw, sets_append]
    rfl
  · rw [if_neg (by simpa using hw), if_neg hw]
    rfl

/-- Once the host has written, what was written before it no longer counts. -/
theorem since_append_of_host (h : ∃ x ∈ later, x.writer = .host) :
    since (front ++ later) = since later := by
  induction later using List.reverseRecOn with
  | nil => exact absurd h (by simp)
  | append_singleton later last ih =>
    rw [← List.append_assoc, since_snoc, since_snoc]
    by_cases hlast : last.writer = .command
    · obtain ⟨x, hx, hhost⟩ := h
      have hmem : x ∈ later := by
        rcases List.mem_append.mp hx with hx | hx
        · exact hx
        · obtain rfl := List.mem_singleton.mp hx
          exact absurd (hlast.symm.trans hhost) nofun
      rw [ih ⟨x, hmem, hhost⟩]
    · rw [if_neg hlast, if_neg hlast]

theorem since_append_of_commands (h : ∀ x ∈ later, x.writer = .command) :
    since (front ++ later) = since front ++ sets later := by
  induction later using List.reverseRecOn with
  | nil => rw [List.append_nil, sets, List.map_nil, List.append_nil]
  | append_singleton later last ih =>
    rw [← List.append_assoc, since_snoc, if_pos (h last (by simp)),
      ih fun x hx => h x (List.mem_append_left _ hx), sets_append, List.append_assoc]
    rfl

theorem not_mem_sets (h : ∀ x ∈ writes, x.key ≠ key) : ∀ s ∈ sets writes, s.1 ≠ key := by
  intro s hs
  obtain ⟨x, hx, rfl⟩ := List.mem_map.mp hs
  exact h x hx

theorem not_mem_own (h : ∀ x ∈ writes, x.key ≠ key) : ∀ s ∈ own writes, s.1 ≠ key :=
  not_mem_sets fun x hx => h x (List.mem_of_mem_filter hx)

theorem not_mem_since (h : ∀ x ∈ writes, x.key ≠ key) : ∀ s ∈ since writes, s.1 ≠ key :=
  not_mem_sets fun x hx => h x ((List.rtakeWhile_suffix _ _).mem hx)

/-- The value that is given for a setting last counts. -/
theorem get_setAll_split {before after : List (SettingKey × Option Path)} (settings : Settings)
    (h : ∀ s ∈ after, s.1 ≠ key) :
    (settings.setAll (before ++ (key, value) :: after)).get key = kept value :=
  get_setAll_last ⟨decide_eq_true rfl, before, after, rfl, fun s hs => decide_eq_false (h s hs)⟩

theorem commands_of_no_host (h : ¬ ∃ x ∈ writes, x.writer = .host) :
    ∀ x ∈ writes, x.writer = .command := by
  intro x hx
  cases hw : x.writer with
  | command => rfl
  | host => exact absurd ⟨x, hx, hw⟩ h

/-- **A write after which the host writes other settings** counts if it is the host's own. Else the
setting is what the host made of it before. -/
theorem get_written_over (settings : Settings)
    (hhost : ∃ x ∈ later, x.writer = .host) (hlater : ∀ x ∈ later, x.key ≠ w.key) :
    ((settings.setAll (own (front ++ w :: later))).setAll
      (since (front ++ w :: later))).get w.key =
      if w.writer = .host then kept w.value else (settings.setAll (own front)).get w.key := by
  have hsince : since (front ++ w :: later) = since later := by
    rw [List.append_cons, since_append_of_host hhost]
  rw [hsince, get_setAll_of_not_mem (not_mem_since hlater), own_append, own_cons]
  split
  · rw [List.singleton_append, get_setAll_split _ (not_mem_own hlater)]
  · rw [List.nil_append, setAll_append, get_setAll_of_not_mem (not_mem_own hlater)]

/-- **A write after which only commands write other settings** counts, whoever has made it. -/
theorem get_written_last (settings : Settings)
    (hcommands : ∀ x ∈ later, x.writer = .command) (hlater : ∀ x ∈ later, x.key ≠ w.key) :
    ((settings.setAll (own (front ++ w :: later))).setAll
      (since (front ++ w :: later))).get w.key = kept w.value := by
  rw [List.append_cons, since_append_of_commands hcommands, since_snoc, ← List.append_cons]
  split
  · rw [List.append_assoc, List.singleton_append, get_setAll_split _ (not_mem_sets hlater)]
  · rename_i hw
    have hhost : w.writer = .host := by
      cases hwriter : w.writer with
      | command => exact absurd hwriter hw
      | host => rfl
    rw [List.nil_append, get_setAll_of_not_mem (not_mem_sets hlater), own_append, own_cons,
      if_pos hhost, List.singleton_append, get_setAll_split _ (not_mem_own hlater)]

/-! ## Runs -/

/-- Does in the directory tree what a call of the host asks for. -/
def carryOut (tree : Tree) : Call → Except FileFault Tree
  | .persist file settings => settings.save tree file
  | _ => .ok tree

/-- **A settings file is written by a host and by commands**, in turn, and every write succeeds. The
host is configured, in whatever way, and what it then asks for is carried out; after each write the
path names a file. -/
inductive Written (file : Path) (start : Host) (tree : Tree) : List Write → Host → Tree → Prop
  | nil : Written file start tree [] start tree
  | host {writes host mid deed key value calls after} : Written file start tree writes host mid →
      deed.configures? = some (key, value) → (host.act deed).calls = host.calls ++ calls →
      calls.foldlM carryOut mid = .ok after → after.isFile file = true →
      Written file start tree (writes ++ [⟨.host, key, value⟩]) (host.act deed) after
  | command {writes host mid key value change after} : Written file start tree writes host mid →
      Configure.apply mid file key value = .ok (change, after) → after.isFile file = true →
      Written file start tree (writes ++ [⟨.command, key, value⟩]) host after

variable {file : Path} {host start : Host} {tree after : Tree}

/-- **A configuration asks for the host's own record to be written.** -/
theorem calls_configure (h : host.store = some file) (key : SettingKey) (value : Option Path) :
    (host.configure key value).calls =
      host.calls ++ [.persist file (host.settings.set key value)] := by
  unfold Host.configure
  cases key <;>
  · dsimp only
    rw [h]
    rfl

/-- What a configuration of a host does to its settings, its store and its file. -/
theorem load_configured {deed : Host.Deed} {calls : List Call} (hstore : host.store = some file)
    (hschema : host.settings.schema ≠ 0) (hdeed : deed.configures? = some (key, value))
    (hcalls : (host.act deed).calls = host.calls ++ calls)
    (hcarried : calls.foldlM carryOut tree = .ok after) (hfile : after.isFile file = true) :
    (host.act deed).store = some file ∧ (host.act deed).settings = host.settings.set key value ∧
      load after file = host.settings.set key value := by
  have hsetup := Host.setup_configure host key value
  rw [Host.act_configures hdeed] at hcalls ⊢
  rw [calls_configure hstore] at hcalls
  obtain rfl := List.append_cancel_left hcalls
  have hsave : (host.settings.set key value).save tree file = .ok after := by
    rw [List.foldlM_cons] at hcarried
    exact (bind_pure _).symm.trans hcarried
  refine ⟨(congrArg Host.Setup.store hsetup).trans hstore, congrArg Host.Setup.settings hsetup, ?_⟩
  rw [load_saved hsave hfile, upgrade_eq_self]
  rwa [schema_set]

/-- **The invariant of both writers**: the host's own settings are those it was started with and
what it has set since, and the file loads them with what commands have set since it wrote last. -/
theorem Written.load_eq (h : Written file start tree writes host after)
    (hstore : start.store = some file) (hload : load tree file = start.settings) :
    host.store = some file ∧ host.settings = start.settings.setAll (own writes) ∧
      host.settings.schema ≠ 0 ∧ load after file = host.settings.setAll (since writes) := by
  induction h with
  | nil => exact ⟨hstore, rfl, hload ▸ schema_load tree file, hload⟩
  | host _ hdeed hcalls hcarried hfile ih =>
    obtain ⟨hheld, hown, hschema, -⟩ := ih
    obtain ⟨hkept, hsettings, hloaded⟩ :=
      load_configured hheld hschema hdeed hcalls hcarried hfile
    rw [hsettings, hloaded, own_snoc, if_pos rfl, since_snoc, if_neg nofun, hown]
    refine ⟨hkept, (setAll_snoc _ _ _ _).symm, ?_, rfl⟩
    rwa [schema_set, ← hown]
  | command _ happly hfile ih =>
    obtain ⟨hheld, hown, hschema, hloaded⟩ := ih
    rw [load_applied happly hfile, own_snoc, if_neg nofun, since_snoc, if_pos rfl, setAll_snoc,
      hloaded]
    exact ⟨hheld, hown, hschema, rfl⟩

/-- Both writers succeed, in whatever order, where the file can be written. -/
theorem Writable.written (h : Writable tree file) (hstore : start.store = some file)
    (writes : List Write) :
    ∃ host after, Written file start tree writes host after ∧ host.store = some file ∧
      Writable after file := by
  induction writes using List.reverseRecOn with
  | nil => exact ⟨start, tree, .nil, hstore, h⟩
  | append_singleton writes new ih =>
    obtain ⟨host, mid, hwritten, hheld, hmid⟩ := ih
    obtain ⟨writer, key, value⟩ := new
    cases writer with
    | host =>
      obtain ⟨after, hsave, hfile, hafter⟩ := hmid.save (host.settings.set key value)
      have hcarried : [Call.persist file (host.settings.set key value)].foldlM carryOut mid =
          .ok after := by
        rw [List.foldlM_cons]
        exact (bind_pure _).trans hsave
      have hkept : (host.configure key value).store = some file :=
        (congrArg Host.Setup.store (Host.setup_configure host key value)).trans hheld
      have hdeed : (Host.Deed.take (.configure key value)).configures? = some (key, value) := rfl
      exact ⟨_, after, hwritten.host hdeed (calls_configure hheld key value) hcarried hfile, hkept,
        hafter⟩
    | command =>
      obtain ⟨change, after, happly, hfile, hafter⟩ := hmid.apply key value
      exact ⟨host, after, hwritten.command happly hfile, hheld, hafter⟩

/-- **What a file loads that both a host and commands have written.** The host was started with what
the file loaded, and keeps its settings there. A setting that none of them has written is what it
was at first. One that was written last by the host, or by a command after which the host has not
written, has the value given there, where no path and the empty one clear it. But one that was
written last by a command, after which the host has written another setting, has the host's own
value: what the host itself set last, or what the file loaded at first. -/
theorem file_after_both_writers {file : Path} {tree : Tree} {searchPath : Option String}
    {port : UInt16} {writes : List Write} {host : Host} {after : Tree}
    (h : Written file (.start (load tree file) (some file) searchPath port) tree writes host after)
    (key : SettingKey) :
    ((∀ x ∈ writes, x.key ≠ key) → (load after file).get key = (load tree file).get key) ∧
      ∀ before w later, writes = before ++ w :: later → w.key = key →
        (∀ x ∈ later, x.key ≠ key) →
        (load after file).get key =
          if w.writer = .command ∧ ∃ x ∈ later, x.writer = .host then
            ((load tree file).setAll (own before)).get key
          else kept w.value := by
  obtain ⟨-, hown, -, hload⟩ := h.load_eq rfl rfl
  have hstart : (Host.start (load tree file) (some file) searchPath port).settings =
    load tree file := rfl
  rw [hload, hown, hstart]
  constructor
  · intro hkey
    rw [get_setAll_of_not_mem (not_mem_since hkey), get_setAll_of_not_mem (not_mem_own hkey)]
  · rintro before w later rfl rfl hlater
    by_cases hhost : ∃ x ∈ later, x.writer = .host
    · rw [get_written_over _ hhost hlater]
      cases hw : w.writer with
      | command => rw [if_neg nofun, if_pos ⟨rfl, hhost⟩]
      | host => rw [if_pos rfl, if_neg fun h => absurd h.1 nofun]
    · rw [get_written_last _ (commands_of_no_host hhost) hlater, if_neg fun h => hhost h.2]

/-- A command sets the bridge script, then the host is configured with an interpreter. -/
def overtaken : List Write :=
  [⟨.command, .bridgeScript, some ⟨"/b"⟩⟩, ⟨.host, .interpreter, some ⟨"/i"⟩⟩]

/-- A host that keeps its settings in a file which holds none yet. -/
def keeper : Host :=
  .start (load damaged ⟨"s.json"⟩) (some ⟨"s.json"⟩) none 0

theorem store_keeper : keeper.store = some ⟨"s.json"⟩ :=
  rfl

theorem load_damaged : load damaged ⟨"s.json"⟩ = fresh := by
  have hread : damaged.readText ⟨"s.json"⟩ = .error .notText := by
    have hfind : damaged.find ⟨"s.json"⟩ = .ok (.file [0xFF] false) :=
      Tree.find_eq_ok_iff.mpr ⟨["s.json"], resolve_damaged, rfl⟩
    unfold Tree.readText
    rw [Tree.readBytes_of_find hfind]
    rfl
  unfold load
  rw [hread]

theorem file_after_a_configuration : ∃ host after,
    Written ⟨"s.json"⟩ keeper damaged overtaken host after ∧
      (load after ⟨"s.json"⟩).get .interpreter = some ⟨"/i"⟩ ∧
      (load after ⟨"s.json"⟩).get .bridgeScript = (load damaged ⟨"s.json"⟩).get .bridgeScript := by
  obtain ⟨host, after, hwritten, -⟩ := writable_damaged.written store_keeper overtaken
  have hset := (file_after_both_writers hwritten .interpreter).2
    [⟨.command, .bridgeScript, some ⟨"/b"⟩⟩] _ [] rfl rfl (by simp)
  have hlost := (file_after_both_writers hwritten .bridgeScript).2 [] _ _ rfl rfl (by simp)
  exact ⟨host, after, hwritten, hset, hlost⟩

/-- **An update is lost**: the host writes its own record over what a command has set. -/
theorem reverted_by_the_host : ∃ host after,
    Written ⟨"s.json"⟩ keeper damaged overtaken host after ∧
      (load after ⟨"s.json"⟩).get .bridgeScript = none := by
  obtain ⟨host, after, hwritten, -⟩ := writable_damaged.written store_keeper overtaken
  obtain ⟨-, hown, -, hload⟩ := hwritten.load_eq rfl rfl
  refine ⟨host, after, hwritten, ?_⟩
  rw [hload, hown, show keeper.settings = fresh from load_damaged]
  rfl

end InlineRepl.Settings
