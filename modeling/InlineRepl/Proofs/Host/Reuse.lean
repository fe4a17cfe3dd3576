import InlineRepl.Proofs.Host.Thinning
import InlineRepl.Proofs.Lookup.ProjectRoot

/-!
# Sessions are found again

As long as the directories and the files that mark them stay as they are, the root of a session is
located from the root itself, and the registry leads from there to the session: whoever connects to
it is handed its client.

Results:
* `ProjectRoot.locate_congr`: a root depends on nothing but what is accepted.
* `Anchored.tryConnect`, `Anchored.act`, `Anchored.live`: every session is found by its root, and
  its root by itself.
* `Anchored.reuses`: so an attempt at the root of a session reuses it.
* `nearest_root_is_reused`: what a project root is, and that connecting to it again reuses the
  session that stands there.
-/

namespace InlineRepl

/-- The surroundings give the same answers about directories and about what they hold. -/
structure Surroundings.Sees (around : Surroundings) (files : FileView) : Prop where
  isDirectory : around.files.isDirectory = files.isDirectory
  hasPath : around.files.hasPath = files.hasPath

namespace ProjectRoot

variable {files other : FileView} {marker : String}

/-- A root depends on nothing but what is accepted. -/
theorem locate_congr (h : accepts files marker = accepts other marker) (p : Path) :
    locate files marker p = locate other marker p := by
  obtain ⟨row, hrow, -⟩ := p.exists_candidates
  rw [locate_eq_find? hrow, locate_eq_find? hrow, h]

theorem locate_of_sees {around : Surroundings} (sees : around.Sees files) (p : Path) :
    locate around.files marker p = locate files marker p := by
  refine locate_congr ?_ p
  unfold accepts
  rw [sees.isDirectory, sees.hasPath]

end ProjectRoot

namespace Host

variable {host : Host} {files : FileView} {around : Surroundings} {session s : Session}
  {deed : Deed}

/-- **Every session is found by its root**, and every root by itself. -/
structure Anchored (files : FileView) (host : Host) : Prop where
  findable : host.registry.Findable
  rooted : ∀ s ∈ host.registry.sessions,
    ProjectRoot.locate files ProjectRoot.defaultMarker s.root = some s.root

theorem start_anchored (files : FileView) (settings : Settings) (store : Option Path)
    (searchPath : Option String) (port : UInt16) :
    (start settings store searchPath port).Anchored files :=
  ⟨fun _ hs => absurd hs List.not_mem_nil, fun _ hs => absurd hs List.not_mem_nil⟩

/-- Nobody's root changes when nobody comes in. -/
theorem Anchored.thins (h : host.Anchored files) {after : Host}
    (ht : host.registry.Thins after.registry) : after.Anchored files := by
  refine ⟨h.findable.thins ht, fun t hm => ?_⟩
  obtain ⟨s, hs, -, hr, -⟩ := ht.mem hm
  exact hr ▸ h.rooted s hs

/-- A session comes in at a free root that is its own root. -/
theorem Anchored.register (h : host.Anchored files)
    (free : host.registry.findByRoot? session.root = none)
    (hroot : ProjectRoot.locate files ProjectRoot.defaultMarker session.root = some session.root) :
    (host.register session).Anchored files := by
  refine ⟨?_, fun t ht => ?_⟩
  · rw [registry_register]
    exact h.findable.insert free
  · rw [registry_register, Registry.sessions_insert_free free] at ht
    rcases List.mem_cons.mp ht with rfl | hold
    · exact hroot
    · exact h.rooted t (List.mem_of_mem_filter hold)

theorem Anchored.launch (h : host.Anchored files) (around : Surroundings) (id : SessionId) :
    (host.launch around id).Anchored files := by
  rcases registry_launch_cases host around id with ht | ⟨session, handle, hg, hr⟩
  · exact h.thins ht
  · obtain ⟨hm, hid⟩ := Registry.mem_of_get? hg
    refine ⟨?_, fun t ht => ?_⟩
    · rw [hr]
      refine h.findable.modify (fun _ _ => hid) fun s hs => ?_
      obtain rfl := Option.some.inj (hg.symm.trans hs)
      rfl
    · rw [hr] at ht
      obtain ⟨s, hs, rfl⟩ := Registry.mem_modify.mp ht
      split
      · exact h.rooted session hm
      · exact h.rooted s hs

/-- An attempt registers a session at the root that it has located. -/
theorem Anchored.tryConnect (h : host.Anchored files) (sees : around.Sees files)
    (target : ConnectTarget) : (host.tryConnect around target).2.Anchored files := by
  rcases registry_tryConnect_cases host around target with
    hr | hr | ⟨session, hroot, hfree, hr⟩
  · exact h.thins (hr ▸ .still)
  · exact ⟨hr ▸ h.findable, hr ▸ h.rooted⟩
  · rw [hr]
    have hopened : (host.opened around).Anchored files := ⟨h.findable, h.rooted⟩
    obtain ⟨p, -, hp⟩ := Option.bind_eq_some_iff.mp hroot
    have hlocate := (ProjectRoot.locate_root hp).1
    rw [ProjectRoot.locate_of_sees sees] at hlocate
    have hregister := hopened.register hfree hlocate
    exact hregister.launch around session.id

theorem Anchored.act (h : host.Anchored files)
    (sees : ∀ around, deed.around? = some around → around.Sees files) :
    (host.act deed).Anchored files := by
  rcases act_thins_or_attempts host deed with hthins | ⟨calls, around, target, ha, hr⟩
  · exact h.thins hthins
  · have hcalls : ({ host with calls } : Host).Anchored files := ⟨h.findable, h.rooted⟩
    have hattempt := hcalls.tryConnect (sees around ha) target
    exact hattempt.thins (hr ▸ .still)

theorem Anchored.live {deeds : List Deed} (h : host.Anchored files)
    (sees : ∀ deed ∈ deeds, ∀ around, deed.around? = some around → around.Sees files) :
    (host.live deeds).Anchored files :=
  List.foldlRecOn deeds _ h fun _ hk deed hm => hk.act (sees deed hm)

/-- **An attempt at the root of a session** reuses it. -/
theorem Anchored.reuses (h : host.Anchored files) (sees : around.Sees files)
    (hs : s ∈ host.registry.sessions) (origin : Option DocumentId) :
    host.tryConnect around { origin, path := some s.root } = (s.client, host) := by
  have hroot : rootOf around { origin, path := some s.root } = some s.root :=
    (ProjectRoot.locate_of_sees sees s.root).trans (h.rooted s hs)
  unfold Host.tryConnect
  rw [hroot]
  simp only [Option.bind_some, h.findable s hs]

/-- **The project root of a path** is the first of its candidates, the path itself, its parent and
so on up to the first that is empty or has no parent, that is a directory without the marker. Every
path has one row of candidates, the walk along them ends, and it is never stuck. So a root is its
own root, is not empty and is not the root of the file system; and in every state that a host can be
in while directories and markers stay as they are, connecting to the root of a session reuses it. -/
theorem nearest_root_is_reused (files : FileView) (marker : String) (p : Path) :
    (∃ row, p.Candidates row ∧ (∀ other, p.Candidates other → other = row) ∧
        ProjectRoot.locate files marker p = row.find? (ProjectRoot.accepts files marker)) ∧
      (∃ last, ProjectRoot.Walk.Leads files marker { current := p } last ∧
        last.stride files marker = .ends (ProjectRoot.locate files marker p)) ∧
      (∀ walk, ProjectRoot.Walk.Leads files marker { current := p } walk → walk.stuck = false) ∧
      (∀ root, ProjectRoot.locate files marker p = some root →
        ProjectRoot.locate files marker root = some root ∧ root.isEmpty = false ∧
          root.components ≠ [.root]) ∧
      ∀ (settings : Settings) (store : Option Path) (searchPath : Option String) (port : UInt16)
        (deeds : List Deed), (∀ deed ∈ deeds, ∀ other, deed.around? = some other →
          other.Sees files) →
        let host := (start settings store searchPath port).live deeds
        ∀ s ∈ host.registry.sessions, ∀ around : Surroundings, around.Sees files →
          host.handleCommand around (.connect s.root) = host ∧
            ∀ origin,
              host.tryConnect around { origin, path := some s.root } = (s.client, host) := by
  refine ⟨?_, ProjectRoot.locate_ends files marker p,
    fun _ => ProjectRoot.not_stuck_of_leads, fun _ => ProjectRoot.locate_root, ?_⟩
  · obtain ⟨row, hrow, -⟩ := p.exists_candidates
    exact ⟨row, hrow, fun _ => hrow.unique, ProjectRoot.locate_eq_find? hrow⟩
  · intro settings store searchPath port deeds hdeeds host s hs around sees
    have hanchored : host.Anchored files :=
      (start_anchored files settings store searchPath port).live hdeeds
    have hreuses := hanchored.reuses sees hs
    exact ⟨congrArg Prod.snd (hreuses none), hreuses⟩

/-- A session that was started for a file of its project is reused at its root, and at the root of
its root. -/
theorem reused_at_its_root :
    let target : ConnectTarget := { origin := none, path := some ⟨"/work/Main.fsx"⟩ }
    let host := (start .fresh none none 0).live [.take (.tryConnect .furnished target)]
    ProjectRoot.locate Surroundings.furnished.files ProjectRoot.defaultMarker ⟨"/work"⟩ =
        some ⟨"/work"⟩ ∧
      ∃ s ∈ host.registry.sessions, s.root = ⟨"/work"⟩ ∧
        host.tryConnect .furnished { origin := none, path := some ⟨"/work"⟩ } =
          (s.client, host) := by
  intro target host
  obtain ⟨-, -, -, hroot, hreuse⟩ := nearest_root_is_reused Surroundings.furnished.files
    ProjectRoot.defaultMarker ⟨"/work/Main.fsx"⟩
  have hsees : Surroundings.furnished.Sees Surroundings.furnished.files := ⟨rfl, rfl⟩
  have hdeeds : ∀ deed ∈ [Deed.take (.tryConnect .furnished target)], ∀ other,
      deed.around? = some other → other.Sees Surroundings.furnished.files := by
    intro deed hm other ho
    obtain rfl := List.mem_singleton.mp hm
    obtain rfl := Option.some.inj ho
    exact hsees
  obtain ⟨s, hs, hr⟩ : ∃ s ∈ host.registry.sessions, s.root = ⟨"/work"⟩ := by decide +kernel
  have htry := (hreuse .fresh none none 0 _ hdeeds s hs .furnished hsees).2 none
  rw [hr] at htry
  exact ⟨(hroot ⟨"/work"⟩ (by decide +kernel)).1, s, hs, hr, htry⟩

end Host

end InlineRepl
