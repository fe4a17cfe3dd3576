import InlineRepl.Proofs.Host.Coherence

/-!
# Custody of processes

Nothing but the handle of a process can stop it, so a running process whose handle nobody holds
would run for ever. `Custody` is the book-keeping that excludes it: the handles of the sessions are
those of running processes that were started for their own ids, and every running process is held.

`Ledger.part` is what becomes of the ledger when a handle leaves: its process is told to end, or the
handle is lost. `Ledger.Once` says that the signals agree with the fates: a process that runs has
had no signal, and one that does not has had one.

Results:
* `Later.settle`, `Later.part`, `Later.start`: a fate that is settled stays so, whatever is settled
  or started afterwards.
* `Once.part`, `Once.start`: no process is signalled twice, as long as the handles that leave are
  those of running processes.
* `Custody.holder_id`: only the session of the id that a process was started for can hold it.
* `Custody.revise`, `Custody.leave`, `Custody.enter`, `Custody.attach`, `Custody.lose`: sessions
  change, go and come, and processes are started, and no handle is forgotten.
-/

namespace InlineRepl

/-- The process has been told to end, or its handle has been lost. -/
def Fate.Ended (fate : Fate) : Prop :=
  fate = .killed ∨ fate = .dropped

theorem Fate.Ended.ne_running {fate : Fate} (h : fate.Ended) : fate ≠ .running := by
  rcases h with rfl | rfl <;> exact nofun

namespace Ledger

variable {ledger after : Ledger} {serial k : Nat} {id : SessionId} {fate known : Fate}
  {handle : Option ProcessHandle} {pid : Option Nat}

/-- A handle leaves, if there is one, and the fate of its process is settled. -/
def part (ledger : Ledger) (handle : Option ProcessHandle) (fate : Fate) : Ledger :=
  handle.elim ledger fun handle => ledger.settle handle.serial fate

/-- The ids that processes were started for, in order. -/
def names (ledger : Ledger) : List SessionId :=
  ledger.fates.map Prod.fst

/-- Settling a fate changes that of the one process, if it is running. -/
theorem fates_settle : (ledger.settle serial fate).fates[k]? = (ledger.fates[k]?).map fun entry =>
    (entry.1, if serial = k ∧ entry.2 = .running then fate else entry.2) := by
  unfold settle
  rw [List.getElem?_modify]
  cases ledger.fates[k]? with
  | none => rfl
  | some entry =>
    obtain ⟨session, known⟩ := entry
    by_cases hk : serial = k
    · cases known <;> simp [hk]
    · simp [hk]

theorem names_settle : (ledger.settle serial fate).names = ledger.names := by
  refine List.ext_getElem? fun k => ?_
  unfold names
  rw [List.getElem?_map, List.getElem?_map, fates_settle, Option.map_map]
  rfl

theorem names_part : (ledger.part handle fate).names = ledger.names := by
  cases handle with
  | none => rfl
  | some handle => exact names_settle

theorem names_start : (ledger.start id pid).2.names = ledger.names ++ [id] :=
  List.map_append

/-- What is running still once a handle has left was running before, under another number. -/
theorem running_of_part (he : fate.Ended)
    (h : (ledger.part handle fate).fates[k]? = some (id, Fate.running)) :
    ledger.fates[k]? = some (id, Fate.running) ∧ ∀ left, handle = some left → left.serial ≠ k := by
  cases handle with
  | none => exact ⟨h, nofun⟩
  | some left =>
    have h := fates_settle.symm.trans h
    obtain ⟨⟨session, known⟩, hf, hentry⟩ := Option.map_eq_some_iff.mp h
    obtain ⟨rfl, hfate⟩ := Prod.mk.inj hentry
    dsimp only at hfate
    split at hfate
    · exact absurd hfate he.ne_running
    · rename_i hother
      subst hfate
      refine ⟨hf, fun other ho hk => hother ⟨?_, rfl⟩⟩
      rw [Option.some.inj ho]
      exact hk

/-- What was running under another number is running still. -/
theorem part_running (h : ledger.fates[k]? = some (id, Fate.running))
    (hother : ∀ left, handle = some left → left.serial ≠ k) :
    (ledger.part handle fate).fates[k]? = some (id, Fate.running) := by
  cases handle with
  | none => exact h
  | some left => exact (settle_of_ne (hother left rfl)).trans h

/-- What has come to an end has been stopped, if it had been stopped before or was running. -/
theorem ended_of_part (he : fate.Ended)
    (hended : ∀ known, ledger.fates[k]? = some (id, known) → known ≠ .running → known.Ended)
    (h : (ledger.part handle fate).fates[k]? = some (id, known)) (hne : known ≠ .running) :
    known.Ended := by
  cases handle with
  | none => exact hended known h hne
  | some left =>
    have h := fates_settle.symm.trans h
    obtain ⟨⟨session, before⟩, hf, hentry⟩ := Option.map_eq_some_iff.mp h
    obtain ⟨rfl, rfl⟩ := Prod.mk.inj hentry
    dsimp only at hne ⊢
    split
    · exact he
    · rename_i hother
      rw [if_neg hother] at hne
      exact hended before hf hne

/-- A process keeps its fate when the handle of another one leaves. -/
theorem fate?_part (hne : ∀ left, handle = some left → left.serial ≠ serial) :
    (ledger.part handle fate).fate? serial = ledger.fate? serial := by
  cases handle with
  | none => rfl
  | some left => exact congrArg (Option.map Prod.snd) (settle_of_ne (hne left rfl))

/-- A running process has the fate that its handle leaves it. -/
theorem fate?_settle (h : ledger.fates[serial]? = some (id, Fate.running)) :
    (ledger.settle serial fate).fate? serial = some fate := by
  unfold fate?
  rw [fates_settle, h]
  exact congrArg some (if_pos ⟨rfl, rfl⟩)

/-- Whose process a fate is can be read off the names. -/
theorem names_of_fates (h : ledger.fates[serial]? = some (id, fate)) :
    ledger.names[serial]? = some id := by
  unfold names
  rw [List.getElem?_map, h]
  rfl

/-! ## Settled fates -/

/-- **What is settled stays settled**: the fates of a later ledger. -/
def Later (ledger after : Ledger) : Prop :=
  ∀ (serial : Nat) (id : SessionId) (fate : Fate), fate ≠ .running →
    ledger.fates[serial]? = some (id, fate) → after.fates[serial]? = some (id, fate)

theorem Later.refl (ledger : Ledger) : ledger.Later ledger :=
  fun _ _ _ _ h => h

theorem Later.trans {last : Ledger} (h : ledger.Later after) (hl : after.Later last) :
    ledger.Later last :=
  fun serial id fate hne hf => hl serial id fate hne (h serial id fate hne hf)

theorem Later.settle (ledger : Ledger) (serial : Nat) (fate : Fate) :
    ledger.Later (ledger.settle serial fate) := by
  intro k id known hne hf
  rw [fates_settle, hf]
  exact congrArg (fun fate => some (id, fate)) (if_neg fun h => hne h.2)

theorem Later.part (ledger : Ledger) (handle : Option ProcessHandle) (fate : Fate) :
    ledger.Later (ledger.part handle fate) := by
  cases handle with
  | none => exact Later.refl ledger
  | some handle => exact Later.settle ledger handle.serial fate

theorem Later.start (ledger : Ledger) (id : SessionId) (pid : Option Nat) :
    ledger.Later (ledger.start id pid).2 :=
  fun _ _ _ _ hf => start_of_some hf

/-- An entry of a ledger in which a process has been started is that of the process, or an old
one. -/
theorem fates_start {entry : SessionId × Fate}
    (h : (ledger.start id pid).2.fates[k]? = some entry) :
    (k = ledger.fates.length ∧ entry = (id, Fate.running)) ∨ ledger.fates[k]? = some entry := by
  change (ledger.fates ++ [(id, Fate.running)])[k]? = _ at h
  rw [List.getElem?_append] at h
  split at h
  · exact .inr h
  · obtain ⟨hk, he⟩ := List.getElem?_eq_some_iff.mp h
    rw [List.length_singleton] at hk
    rw [List.getElem_singleton] at he
    exact .inl ⟨by omega, he.symm⟩

/-! ## Signals -/

/-- **Each process is signalled once, and then it runs no more**: the signals of a serial number
agree with its fate. -/
def Once (ledger : Ledger) : Prop :=
  ∀ serial, ledger.signals.count serial =
    if (ledger.fate? serial).all (· = .running) then 0 else 1

theorem Once.quiet (h : ledger.Once) (hf : ledger.fates[serial]? = some (id, Fate.running)) :
    ledger.signals.count serial = 0 := by
  refine (h serial).trans (if_pos ?_)
  rw [fate?, hf]
  rfl

theorem Once.signalled (h : ledger.Once) (hf : ledger.fates[serial]? = some (id, fate))
    (hne : fate ≠ .running) : ledger.signals.count serial = 1 := by
  refine (h serial).trans (if_neg fun hall => hne ?_)
  rw [fate?, hf] at hall
  exact of_decide_eq_true hall

/-- **A handle leaves**, and its process has had its one signal. -/
theorem Once.part (h : ledger.Once) (he : fate.Ended)
    (hr : ∀ left, handle = some left → ∃ id, ledger.fates[left.serial]? = some (id, Fate.running)) :
    (ledger.part handle fate).Once := by
  cases handle with
  | none => exact h
  | some left =>
    obtain ⟨id, hf⟩ := hr left rfl
    intro k
    show (ledger.signals ++ [left.serial]).count k = _
    rw [List.count_append]
    by_cases hk : left.serial = k
    · subst hk
      have hfate : (ledger.part (some left) fate).fate? left.serial = some fate := fate?_settle hf
      rw [h.quiet hf, hfate, List.count_singleton_self]
      exact (if_neg fun hall => he.ne_running (of_decide_eq_true hall)).symm
    · have hkept : (ledger.part (some left) fate).fate? k = ledger.fate? k :=
        fate?_part fun other ho => Option.some.inj ho ▸ hk
      rw [hkept, ← h k, List.count_singleton, if_neg (by simpa using hk), Nat.add_zero]

/-- **A process starts**, and it has had no signal. -/
theorem Once.start (h : ledger.Once) : (ledger.start id pid).2.Once := by
  intro k
  refine (h k).trans (if_congr ?_ rfl rfl)
  show _ ↔ (((ledger.fates ++ [(id, Fate.running)])[k]?).map Prod.snd).all _ = true
  unfold fate?
  rcases Nat.lt_trichotomy k ledger.fates.length with hk | rfl | hk
  · rw [List.getElem?_append_left hk]
  · simp
  · have hlen : (ledger.fates ++ [(id, Fate.running)]).length ≤ k := List.length_append.trans_le hk
    rw [List.getElem?_eq_none hk.le, List.getElem?_eq_none hlen]

end Ledger

/-! ## Who holds what -/

namespace Session

variable {session : Session} {ledger : Ledger} {serial : Nat}

/-- The session holds the handle of the process with this number. -/
def Holds (session : Session) (serial : Nat) : Prop :=
  ∃ handle, session.process = some handle ∧ handle.serial = serial

theorem not_holds_iff :
    ¬ session.Holds serial ↔ ∀ handle, session.process = some handle → handle.serial ≠ serial :=
  ⟨fun h handle hp hs => h ⟨handle, hp, hs⟩, fun h ⟨handle, hp, hs⟩ => h handle hp hs⟩

theorem kill_eq_part : (session.kill ledger).2.2 = ledger.part session.process .killed := by
  rw [kill_ledger]
  cases session.process <;> rfl

theorem attachProcess_eq (handle : ProcessHandle) :
    session.attachProcess ledger handle =
      ({ session with process := some handle, handshake := session.handshake.spawned },
        ledger.part session.process .killed) := by
  refine congrArg (Prod.mk _) ?_
  cases session.process <;> rfl

theorem dropped_eq_part : session.dropped ledger = ledger.part session.process .dropped := by
  unfold dropped
  cases session.process <;> rfl

end Session

/-- **Every running process is held**, by the session that it was started for. -/
structure Custody (sessions : List Session) (ledger : Ledger) : Prop where
  ids : (sessions.map Session.id).Nodup
  /-- What a session holds is running, and was started for its id. -/
  running : ∀ s ∈ sessions, ∀ serial, s.Holds serial →
    ledger.fates[serial]? = some (s.id, Fate.running)
  /-- What is running is held. -/
  held : ∀ (serial : Nat) (id : SessionId), ledger.fates[serial]? = some (id, Fate.running) →
    ∃ s ∈ sessions, s.Holds serial
  /-- What is not running has been stopped. -/
  ended : ∀ (serial : Nat) (id : SessionId) (fate : Fate),
    ledger.fates[serial]? = some (id, fate) → fate ≠ .running → fate.Ended
  /-- What is not running has had one signal, and the others none. -/
  once : ledger.Once

namespace Custody

variable {sessions : List Session} {ledger : Ledger} {session s t : Session} {id : SessionId}
  {serial : Nat} {fate : Fate}

theorem empty : Custody [] {} :=
  ⟨List.nodup_nil, fun _ h => absurd h List.not_mem_nil, fun _ _ h => absurd h nofun,
    fun _ _ _ h => absurd h nofun, fun _ => rfl⟩

theorem eq_of_id (h : Custody sessions ledger) (hs : s ∈ sessions) (ht : t ∈ sessions)
    (he : s.id = t.id) : s = t :=
  List.inj_on_of_nodup_map h.ids hs ht he

/-- **Only the session of the id that a process was started for** holds it. -/
theorem holder_id (h : Custody sessions ledger) (hs : s ∈ sessions) (hh : s.Holds serial)
    (hf : ledger.fates[serial]? = some (id, fate)) : s.id = id :=
  congrArg Prod.fst (Option.some.inj ((h.running s hs serial hh).symm.trans hf))

/-- Two sessions that hold one process are one session. -/
theorem eq_of_holds (h : Custody sessions ledger) (hs : s ∈ sessions) (ht : t ∈ sessions)
    (hsh : s.Holds serial) (hth : t.Holds serial) : s = t :=
  h.eq_of_id hs ht (h.holder_id hs hsh (h.running t ht serial hth))

/-! ## Sessions change, go and come -/

/-- A session changes, and keeps its id and its process. -/
theorem revise (h : Custody sessions ledger) (id : SessionId) {change : Session → Session}
    (hid : ∀ s, (change s).id = s.id) (hp : ∀ s, (change s).process = s.process) :
    Custody (sessions.map fun s => if s.id = id then change s else s) ledger := by
  have hkept : ∀ s : Session, (if s.id = id then change s else s).id = s.id ∧
      (if s.id = id then change s else s).process = s.process := by
    intro s
    split
    · exact ⟨hid s, hp s⟩
    · exact ⟨rfl, rfl⟩
  refine ⟨?_, ?_, ?_, h.ended, h.once⟩
  · have hids : (sessions.map fun s => if s.id = id then change s else s).map Session.id =
        sessions.map Session.id :=
      List.map_map.trans (List.map_congr_left fun s _ => (hkept s).1)
    rw [hids]
    exact h.ids
  · intro t ht serial hh
    obtain ⟨s, hs, rfl⟩ := List.mem_map.mp ht
    unfold Session.Holds at hh
    rw [(hkept s).2] at hh
    rw [(hkept s).1]
    exact h.running s hs serial hh
  · intro serial id hf
    obtain ⟨s, hs, hh⟩ := h.held serial id hf
    refine ⟨_, List.mem_map_of_mem hs, ?_⟩
    unfold Session.Holds
    rw [(hkept s).2]
    exact hh

/-- **A session goes, and its process is stopped.** -/
theorem leave (h : Custody sessions ledger) (hm : session ∈ sessions) (he : fate.Ended) :
    Custody (sessions.filter fun s => decide (s.id ≠ session.id))
      (ledger.part session.process fate) := by
  have hmem : ∀ s, s ∈ sessions.filter (fun s => decide (s.id ≠ session.id)) ↔
      s ∈ sessions ∧ s.id ≠ session.id := fun s => by simp
  refine ⟨(List.filter_sublist.map _).nodup h.ids, ?_, ?_, ?_,
    h.once.part he fun left hl => ⟨_, h.running session hm left.serial ⟨left, hl, rfl⟩⟩⟩
  · intro s hs serial hh
    obtain ⟨hs, hne⟩ := (hmem s).mp hs
    have hother : ¬ session.Holds serial :=
      fun hsession => hne (congrArg Session.id (h.eq_of_holds hs hm hh hsession))
    exact Ledger.part_running (h.running s hs serial hh) (Session.not_holds_iff.mp hother)
  · intro serial id hf
    obtain ⟨hf, hfree⟩ := Ledger.running_of_part he hf
    obtain ⟨s, hs, hh⟩ := h.held serial id hf
    refine ⟨s, (hmem s).mpr ⟨hs, fun hid => ?_⟩, hh⟩
    exact Session.not_holds_iff.mpr hfree (h.eq_of_id hs hm hid ▸ hh)
  · intro serial id known hf
    exact Ledger.ended_of_part he (h.ended serial id) hf

/-- **A session comes, without a process.** -/
theorem enter (h : Custody sessions ledger) (hfresh : ∀ s ∈ sessions, s.id ≠ session.id)
    (hp : session.process = none) : Custody (session :: sessions) ledger := by
  refine ⟨List.nodup_cons.mpr ⟨fun hm => ?_, h.ids⟩, ?_, ?_, h.ended, h.once⟩
  · obtain ⟨s, hs, he⟩ := List.mem_map.mp hm
    exact hfresh s hs he
  · intro s hs serial hh
    rcases List.mem_cons.mp hs with rfl | hs
    · obtain ⟨handle, hsome, -⟩ := hh
      exact absurd (hp.symm.trans hsome) nofun
    · exact h.running s hs serial hh
  · intro serial id hf
    obtain ⟨s, hs, hh⟩ := h.held serial id hf
    exact ⟨s, List.mem_cons_of_mem _ hs, hh⟩

/-! ## Processes start -/

theorem lt_length (h : Custody sessions ledger) (hs : s ∈ sessions) (hh : s.Holds serial) :
    serial < ledger.fates.length :=
  (List.getElem?_eq_some_iff.mp (h.running s hs serial hh)).1

/-- **A process is started for a session**, and the one that it had is stopped. -/
theorem attach (h : Custody sessions ledger) (hm : session ∈ sessions) {pid : Option Nat}
    (he : fate.Ended) (hid : t.id = session.id)
    (hp : t.process = some (ledger.start session.id pid).1) :
    Custody (sessions.map fun s => if s.id = session.id then t else s)
      ((ledger.start session.id pid).2.part session.process fate) := by
  have hother : ∀ s ∈ sessions, s.id ≠ session.id → ∀ serial, s.Holds serial →
      ¬ session.Holds serial :=
    fun s hs hne serial hh hsession => hne (congrArg Session.id (h.eq_of_holds hs hm hh hsession))
  have hmem : ∀ x ∈ sessions.map (fun s => if s.id = session.id then t else s),
      x = t ∨ x ∈ sessions ∧ x.id ≠ session.id := by
    intro x hx
    obtain ⟨s, hs, rfl⟩ := List.mem_map.mp hx
    split
    · exact .inl rfl
    · exact .inr ⟨hs, ‹_›⟩
  refine ⟨?_, ?_, ?_, ?_, h.once.start.part he fun left hl =>
    ⟨_, Ledger.start_of_some (h.running session hm left.serial ⟨left, hl, rfl⟩)⟩⟩
  · have hids : (sessions.map fun s => if s.id = session.id then t else s).map Session.id =
        sessions.map Session.id := by
      refine List.map_map.trans (List.map_congr_left fun s _ => ?_)
      show (if s.id = session.id then t else s).id = s.id
      split
      · exact hid.trans (Eq.symm ‹_›)
      · rfl
    rw [hids]
    exact h.ids
  · intro x hx serial hh
    rcases hmem x hx with rfl | ⟨hs, hne⟩
    · obtain ⟨handle, hsome, rfl⟩ := hh
      obtain rfl := Option.some.inj (hp.symm.trans hsome)
      rw [hid]
      refine Ledger.part_running Ledger.start_running (Session.not_holds_iff.mp fun hold => ?_)
      exact absurd (h.lt_length hm hold) (Nat.lt_irrefl _)
    · exact Ledger.part_running (Ledger.start_of_some (h.running x hs serial hh))
        (Session.not_holds_iff.mp (hother x hs hne serial hh))
  · intro serial id hf
    obtain ⟨hf, hfree⟩ := Ledger.running_of_part he hf
    rcases Ledger.fates_start hf with ⟨rfl, -⟩ | hf
    · exact ⟨t, List.mem_map.mpr ⟨session, hm, if_pos rfl⟩, _, hp, rfl⟩
    · obtain ⟨s, hs, hh⟩ := h.held serial id hf
      refine ⟨s, List.mem_map.mpr ⟨s, hs, if_neg fun hid => ?_⟩, hh⟩
      exact Session.not_holds_iff.mpr hfree (h.eq_of_id hs hm hid ▸ hh)
  · intro serial id known hf
    refine Ledger.ended_of_part he (fun before hf hne => ?_) hf
    rcases Ledger.fates_start hf with ⟨-, hentry⟩ | hf
    · exact absurd (Prod.mk.inj hentry).2 hne
    · exact h.ended serial id before hf hne

/-- **A process is started and its handle is lost** at once. -/
theorem lose (h : Custody sessions ledger) (id : SessionId) (pid : Option Nat) :
    Custody sessions ((ledger.start id pid).2.drop (ledger.start id pid).1) := by
  show Custody sessions ((ledger.start id pid).2.part (some (ledger.start id pid).1) .dropped)
  have hnew : ∀ left, some (ledger.start id pid).1 = some left →
      left.serial = ledger.fates.length :=
    fun left hl => congrArg ProcessHandle.serial (Option.some.inj hl).symm
  refine ⟨h.ids, ?_, ?_, ?_, h.once.start.part (.inr rfl) fun left hl => ?_⟩
  · intro s hs serial hh
    refine Ledger.part_running (Ledger.start_of_some (h.running s hs serial hh)) fun left hl => ?_
    have hlt := h.lt_length hs hh
    have hserial := hnew left hl
    omega
  · intro serial other hf
    obtain ⟨hf, hfree⟩ := Ledger.running_of_part (.inr rfl) hf
    rcases Ledger.fates_start hf with ⟨rfl, -⟩ | hf
    · exact absurd rfl (hfree _ rfl)
    · exact h.held serial other hf
  · intro serial other known hf
    refine Ledger.ended_of_part (.inr rfl) (fun before hf hne => ?_) hf
    rcases Ledger.fates_start hf with ⟨-, hentry⟩ | hf
    · exact absurd (Prod.mk.inj hentry).2 hne
    · exact h.ended serial other before hf hne
  · obtain rfl := Option.some.inj hl
    exact ⟨id, Ledger.start_running⟩

end Custody

end InlineRepl
