import InlineRepl.Proofs.Session.Index

/-!
# Registries in which every session is found

A registry is findable when the root of every session leads to that session. This needs no numbers:
where an id comes a second time, the index may keep entries that lead nowhere or to a session of
another root, but never one that hides a session.

`Registry.Thins` is what happens to a registry when nobody comes in: sessions go, or go on with
another handshake and another bridge.

Results:
* `findByRoot?_iff`: a search by root goes through the index and finds a session of that id.
* `displaced_of_free`: an insertion at a free root puts no other session out.
* `Findable.insert`, `Findable.modify`, `Findable.remove`: each of them keeps every session found.
* `Thins.mem`, `Findable.thins`: what a thinner registry has kept.
-/

namespace InlineRepl

theorem Path.same_comm (p q : Path) : p.same q = q.same p :=
  decide_eq_decide.mpr eq_comm

theorem Path.same_congr {p q : Path} (h : p.same q = true) (other : Path) :
    other.same p = other.same q := by
  unfold Path.same
  rw [Path.same_iff.mp h]

namespace Registry

variable {registry after : Registry} {id : SessionId} {root other : Path} {session s t : Session}
  {change : Session → Session}

/-! ## Searching by root -/

/-- A search by root goes through the index. -/
theorem findByRoot?_iff :
    registry.findByRoot? root = some s ↔
      registry.idOfRoot? root = some s.id ∧ registry.get? s.id = some s := by
  unfold findByRoot?
  rw [Option.bind_eq_some_iff]
  constructor
  · rintro ⟨id, hi, hg⟩
    obtain rfl := (mem_of_get? hg).2
    exact ⟨hi, hg⟩
  · rintro ⟨hi, hg⟩
    exact ⟨s.id, hi, hg⟩

theorem idOfRoot?_congr (h : root.same other = true) :
    registry.idOfRoot? root = registry.idOfRoot? other := by
  unfold idOfRoot?
  simp only [Path.same_congr h]

theorem findByRoot?_congr (h : root.same other = true) :
    registry.findByRoot? root = registry.findByRoot? other := by
  unfold findByRoot?
  rw [idOfRoot?_congr h]

/-- Among the entries of the other roots, a search finds what it found before. -/
theorem find?_otherRoots (apart : other.same root = false) :
    (registry.otherRoots other).find? (fun entry => entry.1.same root) =
      registry.byRoot.find? fun entry => entry.1.same root := by
  unfold otherRoots
  rw [List.find?_filter]
  refine List.find?_congr fun entry _ => ?_
  cases he : entry.1.same root with
  | false => simp
  | true =>
    have hother : entry.1.same other = false := by
      rw [Path.same_comm, Path.same_congr he, apart]
    simp [hother]

theorem idOfRoot?_insert (registry : Registry) (session : Session) (root : Path) :
    (registry.insert session).registry.idOfRoot? root =
      if session.root.same root then some session.id else registry.idOfRoot? root := by
  have hindex : (registry.insert session).registry.byRoot =
      (session.root, session.id) :: registry.otherRoots session.root := rfl
  unfold idOfRoot?
  rw [hindex, List.find?_cons]
  cases hs : session.root.same root with
  | true => rfl
  | false => rw [find?_otherRoots hs, if_neg Bool.false_ne_true]

theorem idOfRoot?_remove (h : registry.remove id = some (session, after))
    (apart : session.root.same root = false) : after.idOfRoot? root = registry.idOfRoot? root := by
  unfold remove at h
  split at h
  · exact absurd h nofun
  · obtain ⟨rfl, rfl⟩ := Prod.mk.inj (Option.some.inj h)
    unfold idOfRoot?
    dsimp only
    split
    · rw [find?_otherRoots apart]
    · rfl

/-! ## What a removal leaves -/

theorem get?_of_remove (h : registry.remove id = some (session, after)) :
    registry.get? id = some session := by
  unfold remove at h
  split at h
  · exact absurd h nofun
  · rename_i hg
    obtain ⟨rfl, -⟩ := Prod.mk.inj (Option.some.inj h)
    exact hg

theorem mem_of_remove (h : registry.remove id = some (session, after)) :
    t ∈ after.sessions ↔ t ∈ registry.sessions ∧ t.id ≠ id := by
  unfold remove at h
  split at h
  · exact absurd h nofun
  · obtain ⟨-, rfl⟩ := Prod.mk.inj (Option.some.inj h)
    exact mem_drop

/-! ## Every session is found -/

/-- **Every session is found** by its root. -/
def Findable (registry : Registry) : Prop :=
  ∀ s ∈ registry.sessions, registry.findByRoot? s.root = some s

/-- **An insertion at a free root** puts no other session out. -/
theorem displaced_of_free (free : registry.findByRoot? session.root = none) :
    (registry.insert session).displaced = none := by
  unfold findByRoot? at free
  unfold insert
  dsimp only
  rw [Option.bind_eq_none_iff] at free ⊢
  intro id hi
  exact free id (Option.filter_eq_some_iff.mp hi).1

theorem sessions_insert_free (free : registry.findByRoot? session.root = none) :
    (registry.insert session).registry.sessions = session :: registry.without session.id := by
  rcases (insert_cases registry session).2 with ⟨-, hs⟩ | ⟨displaced, hd, -⟩
  · exact hs
  · exact absurd ((displaced_of_free free).symm.trans hd) nofun

/-- **An insertion at a free root** keeps every session found, except one of the same id, whose
place the new session takes. -/
theorem Findable.insert (h : registry.Findable)
    (free : registry.findByRoot? session.root = none) :
    (registry.insert session).registry.Findable := by
  intro t ht
  rw [findByRoot?_iff, idOfRoot?_insert]
  rw [sessions_insert_free free] at ht
  rcases List.mem_cons.mp ht with rfl | hold
  · exact ⟨if_pos (Path.same_refl _), get?_insert_self⟩
  · obtain ⟨hm, hne⟩ : t ∈ registry.sessions ∧ t.id ≠ session.id := mem_drop.mp hold
    obtain ⟨hindex, hget⟩ := findByRoot?_iff.mp (h t hm)
    have hapart : ¬session.root.same t.root = true := by
      intro hsame
      rw [findByRoot?_congr hsame, h t hm] at free
      exact absurd free nofun
    refine ⟨(if_neg hapart).trans hindex, ?_⟩
    unfold get?
    rw [sessions_insert_free free, List.find?_cons_of_neg (by simpa using hne.symm)]
    exact (find?_without hne).trans hget

/-- **A change that keeps its session's id and root** keeps every session found. -/
theorem Findable.modify (h : registry.Findable) (hid : ∀ s, s.id = id → (change s).id = id)
    (hroot : ∀ s, registry.get? id = some s → (change s).root = s.root) :
    (registry.modify id change).Findable := by
  intro t ht
  obtain ⟨s, hs, rfl⟩ := mem_modify.mp ht
  obtain ⟨hindex, hget⟩ := findByRoot?_iff.mp (h s hs)
  have hbyRoot : ∀ root, (registry.modify id change).idOfRoot? root = registry.idOfRoot? root :=
    fun _ => rfl
  rw [findByRoot?_iff, hbyRoot, get?_modify hid]
  split
  · rename_i he
    obtain rfl := he
    rw [hroot s hget, hid s rfl, if_pos rfl, hget]
    exact ⟨hindex, rfl⟩
  · exact ⟨hindex, hget⟩

/-- **A removal** keeps every session found that it leaves. -/
theorem Findable.remove (h : registry.Findable)
    (hr : registry.remove id = some (session, after)) : after.Findable := by
  intro t ht
  obtain ⟨hm, hne⟩ := (mem_of_remove hr).mp ht
  obtain ⟨hindex, hget⟩ := findByRoot?_iff.mp (h t hm)
  obtain ⟨hsession, hid⟩ := mem_of_get? (get?_of_remove hr)
  have hapart : session.root.same t.root = false := by
    rw [Bool.eq_false_iff]
    intro hsame
    have hfound := h session hsession
    rw [findByRoot?_congr hsame, h t hm] at hfound
    obtain rfl := Option.some.inj hfound
    exact hne hid
  have hsearch : ((registry.remove id).elim registry Prod.snd).get? t.id = registry.get? t.id :=
    get?_remove.trans (if_neg hne)
  rw [hr] at hsearch
  rw [findByRoot?_iff, idOfRoot?_remove hr hapart]
  exact ⟨hindex, hsearch.trans hget⟩

/-! ## Thinner registries -/

/-- **A registry thins**: one after the other, sessions go, or go on with the client, the root and
the process that they have. Nobody comes in. -/
inductive Thins (registry : Registry) : Registry → Prop
  | still : Thins registry registry
  | goes {after rest : Registry} {id : SessionId} {session : Session} (h : Thins registry after)
      (removed : after.remove id = some (session, rest)) : Thins registry rest
  | goesOn {after : Registry} (h : Thins registry after) (id : SessionId)
      (change : Session → Session) (client : ∀ s, (change s).client = s.client)
      (root : ∀ s, (change s).root = s.root) (process : ∀ s, (change s).process = s.process) :
      Thins registry (after.modify id change)

/-- Who is there was there before. -/
theorem Thins.mem (h : registry.Thins after) (ht : t ∈ after.sessions) :
    ∃ s ∈ registry.sessions, s.client = t.client ∧ s.root = t.root ∧ s.process = t.process := by
  induction h generalizing t with
  | still => exact ⟨t, ht, rfl, rfl, rfl⟩
  | goes _ removed ih => exact ih ((mem_of_remove removed).mp ht).1
  | goesOn _ id change client root process ih =>
    obtain ⟨s, hs, rfl⟩ := mem_modify.mp ht
    split
    · rw [client, root, process]
      exact ih hs
    · exact ih hs

/-- **A registry that thins** keeps every session found. -/
theorem Findable.thins (h : registry.Findable) (ht : registry.Thins after) : after.Findable := by
  induction ht with
  | still => exact h
  | goes _ removed ih => exact ih.remove removed
  | goesOn _ id change client root _ ih =>
    exact ih.modify (fun s he => (congrArg Client.session (client s)).trans he) fun s _ => root s

theorem Thins.trans {last : Registry} (h : registry.Thins after) (hl : after.Thins last) :
    registry.Thins last := by
  induction hl with
  | still => exact h
  | goes _ removed ih => exact ih.goes removed
  | goesOn _ id change client root process ih => exact ih.goesOn id change client root process

end Registry

end InlineRepl
