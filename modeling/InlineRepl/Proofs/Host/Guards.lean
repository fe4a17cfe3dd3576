import InlineRepl.Proofs.Host.Closed
import InlineRepl.Proofs.Host.Outcome
import InlineRepl.Proofs.Host.Setup
import InlineRepl.Proofs.Host.Thinning

/-!
# Guards that never fire

A connection attempt guards itself against a session of the same root that stands in its way, a
session that cannot be launched, and a session that has a process already. None of this ever
happens, for a reason each: the root was searched for before, a root that is located is not empty
and neither is an executable that is found, and a session that comes in has no process. So no
session stays registered without one.

Results:
* `mem_launch_cases`: after a launch that is not refused, the launched session has a process or is
  gone.
* `tryConnect_unhindered`: where an attempt registers a session, no guard fires.
* `Manned.act`, `Manned.live`: every session has a process, and an executable that has been found is
  never the empty path.
* `guards_never_fire`: so in every state of a host, for every attempt.
-/

namespace InlineRepl

namespace Host

variable {host : Host} {around : Surroundings} {target : ConnectTarget} {session t : Session}
  {deed : Deed}

/-- **No guard hinders the launch of a session** that an attempt registers. -/
structure Unhindered (host : Host) (around : Surroundings) (session : Session) : Prop where
  /-- The session puts no other one out. -/
  displaced : ((host.opened around).registry.insert session).displaced = none
  /-- It is there to be launched, and nothing that a launch needs is empty. -/
  registered : ((host.opened around).register session).registry.get? session.id = some session
  executable : session.interpreter.executable.isEmpty = false
  root : session.root.isEmpty = false
  accepted : refusal? ((host.opened around).register session).registry session.id = none
  /-- It has no process that would have to give way. -/
  process : session.process = none

/-- **An attempt that registers a session is not hindered.** It reuses a session or lacks something
otherwise. -/
theorem tryConnect_unhindered (h : host.probe.Remembers) (names : around.NamesWhatItFinds)
    (target : ConnectTarget) :
    host.Reuses around target ∨
      (∃ popup, host.Lacks around target (rootOf around target) popup ∧
        host.tryConnect around target =
          (host.nextClient, (host.opened around).abortConnect host.registry.nextId.1 popup)) ∨
      ∃ session, host.Unhindered around session ∧ host.tryConnect around target =
        (session.client, ((host.opened around).register session).launch around session.id) := by
  rcases tryConnect_cases host around target with ⟨root, session, hr, hf, ht⟩ | ⟨hfree, ht⟩
  · exact .inl ⟨⟨root, session, hr, hf, congrArg Prod.fst ht⟩, congrArg Prod.snd ht⟩
  rcases startSession_outcome host around target (rootOf around target) with
    ⟨popup, lacks, hs⟩ | ⟨interpreter, root, hi, -, hr, hs⟩
  · exact .inr (.inl ⟨popup, lacks, ht.trans hs⟩)
  let session := host.newSession target interpreter (host.bridgeOf around).path root
  have hdisplaced : ((host.opened around).registry.insert session).displaced = none :=
    Registry.displaced_of_free (hfree root hr)
  have hregistered : ((host.opened around).register session).registry.get? session.id =
      some session := by
    rw [registry_register]
    exact Registry.get?_insert_self
  have hexecutable := Probe.resolve_nonempty h names hi
  have hroot := rootOf_nonempty hr
  exact .inr (.inr ⟨session, ⟨hdisplaced, hregistered, hexecutable, hroot,
    refusal?_eq_none hregistered hexecutable hroot, rfl⟩, ht.trans hs⟩)

/-! ## Every session has a process -/

/-- **After a launch that is not refused**, the launched session has a process or is gone. -/
theorem mem_launch_cases (hg : host.registry.get? session.id = some session)
    (href : refusal? host.registry session.id = none)
    (ht : t ∈ (host.launch around session.id).registry.sessions) :
    t ∈ host.registry.sessions ∧ t.id ≠ session.id ∨ t.process ≠ none := by
  rw [launch_eq around hg href] at ht
  split at ht
  · rename_i pid _
    rcases adopt_cases (host.announced session.id session) session.id pid with
      ⟨hnone, -⟩ | ⟨launched, -, ha⟩
    · exact absurd (hnone.symm.trans hg) nofun
    · rw [ha] at ht
      obtain ⟨s, hs, rfl⟩ := Registry.mem_modify.mp ht
      split
      · exact .inr nofun
      · rename_i hne
        exact .inl ⟨hs, hne⟩
  · have hold := mem_failSession.mp ht
    exact .inl hold

/-- **Every session has a process**, and no executable that is kept is the empty path. -/
structure Manned (host : Host) : Prop where
  manned : ∀ s ∈ host.registry.sessions, s.process ≠ none
  remembers : host.probe.Remembers

theorem start_manned (settings : Settings) (store : Option Path) (searchPath : Option String)
    (port : UInt16) : (start settings store searchPath port).Manned :=
  ⟨fun _ hs => absurd hs List.not_mem_nil, fun _ hp => absurd hp nofun⟩

/-- An attempt leaves every session with a process. -/
theorem Manned.mem_tryConnect (h : host.Manned) (names : around.NamesWhatItFinds)
    (ht : t ∈ (host.tryConnect around target).2.registry.sessions) : t.process ≠ none := by
  rcases tryConnect_unhindered h.remembers names target with
    hr | ⟨popup, -, hc⟩ | ⟨session, hu, hc⟩
  · rw [hr.untouched] at ht
    exact h.manned t ht
  · rw [hc] at ht
    exact h.manned t ht
  · rw [hc] at ht
    rcases mem_launch_cases hu.registered hu.accepted ht with ⟨hold, hne⟩ | hp
    · rcases mem_of_mem_register hold with rfl | hold
      · exact absurd rfl hne
      · exact h.manned t hold
    · exact hp

theorem Manned.remembers_act (h : host.Manned)
    (names : ∀ around, deed.around? = some around → around.NamesWhatItFinds) :
    (host.act deed).setup.probe.Remembers := by
  cases hc : deed.configures? with
  | some configured =>
    obtain ⟨key, value⟩ := configured
    rw [act_configures hc, setup_configure]
    dsimp only
    split
    · exact fun _ hp => absurd hp nofun
    · exact h.remembers
  | none =>
    rcases setup_act host hc with hs | ⟨around, ha, hs⟩
    · rw [hs]
      exact h.remembers
    · rw [hs]
      exact Probe.resolve_remembers h.remembers (names around ha)

/-- **Every deed leaves every session with a process.** -/
theorem Manned.act (h : host.Manned)
    (names : ∀ around, deed.around? = some around → around.NamesWhatItFinds) :
    (host.act deed).Manned := by
  refine ⟨fun t ht => ?_, h.remembers_act names⟩
  rcases act_thins_or_attempts host deed with hthins | ⟨calls, around, target, ha, hr⟩
  · obtain ⟨s, hs, -, -, hp⟩ := hthins.mem ht
    exact hp ▸ h.manned s hs
  · rw [hr] at ht
    have hcalls : ({ host with calls } : Host).Manned := ⟨h.manned, h.remembers⟩
    exact hcalls.mem_tryConnect (names around ha) ht

theorem Manned.live {deeds : List Deed} (h : host.Manned)
    (names : ∀ deed ∈ deeds, ∀ around, deed.around? = some around → around.NamesWhatItFinds) :
    (host.live deeds).Manned :=
  List.foldlRecOn deeds _ h fun _ hk deed hm => hk.act (names deed hm)

/-- **No guard of a connection attempt ever fires**, and no session stays registered without a
process. In every state that a host can be in, for every target, and whatever the files and the
launcher answer, an attempt reuses a session, or gives up for something that is missing, or launches
a session that nothing hinders: no other session is put out, the launch is not refused, and there is
no process that would have to give way. All that is asked of the surroundings is that a lookup never
answers the empty path; the configured interpreter may be the empty path. -/
theorem guards_never_fire (settings : Settings) (store : Option Path) (searchPath : Option String)
    (port : UInt16) {deeds : List Deed} {around : Surroundings}
    (found : ∀ deed ∈ deeds, ∀ other, deed.around? = some other → other.NamesWhatItFinds)
    (names : around.NamesWhatItFinds) (target : ConnectTarget) :
    let host := (start settings store searchPath port).live deeds
    (∀ s ∈ host.registry.sessions, s.process ≠ none) ∧
      (∀ s ∈ (host.tryConnect around target).2.registry.sessions, s.process ≠ none) ∧
      (host.Reuses around target ∨
        (∃ popup, host.Lacks around target (rootOf around target) popup ∧
          host.tryConnect around target =
            (host.nextClient, (host.opened around).abortConnect host.registry.nextId.1 popup)) ∨
        ∃ session, host.Unhindered around session ∧ host.tryConnect around target =
          (session.client, ((host.opened around).register session).launch around session.id)) := by
  intro host
  have hmanned : host.Manned := (start_manned settings store searchPath port).live found
  exact ⟨hmanned.manned, fun _ ht => hmanned.mem_tryConnect names ht,
    tryConnect_unhindered hmanned.remembers names target⟩

/-- An interpreter that is configured as the empty path is looked up, and a session that is started
again after its disconnection has its process. -/
theorem unhindered_with_an_empty_interpreter :
    let target : ConnectTarget := { origin := none, path := some ⟨"/work"⟩ }
    let host := (start { interpreter := some ⟨""⟩ } none none 0).live
      [.take (.tryConnect .furnished target), .take (.disconnect ⟨"/work"⟩)]
    ∃ session, host.Unhindered .furnished session ∧
      ∀ s ∈ (host.tryConnect .furnished target).2.registry.sessions, s.process ≠ none := by
  intro target host
  have found : ∀ deed ∈ [Deed.take (.tryConnect .furnished target),
      .take (.disconnect ⟨"/work"⟩)], ∀ other,
      deed.around? = some other → other.NamesWhatItFinds := by
    intro deed hm other ho
    obtain rfl | rfl : _ ∨ _ := by simpa using hm
    · obtain rfl := Option.some.inj ho
      exact Surroundings.furnished_names
    · exact absurd ho nofun
  obtain ⟨-, hafter, hcases⟩ := guards_never_fire { interpreter := some ⟨""⟩ } none none 0 found
    Surroundings.furnished_names target
  rcases hcases with hr | ⟨popup, -, hc⟩ | ⟨session, hu, -⟩
  · exact absurd (congrArg Host.calls hr.untouched) (by decide +kernel)
  · have hsame : (host.tryConnect .furnished target).2.registry.sessions =
        host.registry.sessions :=
      congrArg (fun result => result.2.registry.sessions) hc
    exact absurd hsame (by decide +kernel)
  · exact ⟨session, hu, hafter⟩

end Host

end InlineRepl
