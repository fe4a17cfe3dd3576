import InlineRepl.Session.Registry
import Mathlib.Algebra.Group.Nat.Defs
import Mathlib.Data.List.Find
import Mathlib.Data.List.Nodup

/-!
# The registry and its index of roots

`Registry.Indexed` is what holds of a registry that only ever took in sessions with fresh ids and
free roots: the index is the sessions' own roots and ids, no two sessions share either, and no id
is above the last one handed out.

Results:
* `get?_eq_some_iff`, `idOfRoot?_eq_some_iff`, `findByRoot?_eq_some_iff`: under `Indexed`, each of
  the three searches finds exactly the sessions that are there.
* `insert_fresh`, `remove_eq`: what an insertion and a removal amount to.
* `Indexed.nextId`, `Indexed.add`, `Indexed.drop`, `Indexed.modify`: each of them keeps the
  registry indexed.
* `insert_cases`, `mem_ids`: what an insertion puts out and who is listed, of any registry.
* `get?_modify`, `get?_remove`, `get?_insert`: what a search by id finds after a change, of any
  registry.
-/

namespace InlineRepl

theorem Path.same_iff {p q : Path} : p.same q = true ↔ p.components = q.components :=
  decide_eq_true_iff

@[simp] theorem Path.same_refl (p : Path) : p.same p = true :=
  Path.same_iff.mpr rfl

namespace Registry

variable {registry : Registry} {id : SessionId} {root : Path} {session s t : Session}

/-- **The index is the sessions' own**: the entries of the index are the roots and ids of the
sessions, no two sessions share an id or a root, and no id is above the last one handed out. -/
structure Indexed (registry : Registry) : Prop where
  byRoot : registry.byRoot = registry.sessions.map fun s => (s.root, s.id)
  ids : (registry.sessions.map Session.id).Nodup
  roots : (registry.sessions.map fun s => s.root.components).Nodup
  bound : ∀ s ∈ registry.sessions, s.id.val ≤ registry.lastId

theorem indexed_empty : Indexed {} :=
  ⟨rfl, List.nodup_nil, List.nodup_nil, fun _ h => absurd h List.not_mem_nil⟩

/-! ## Searching -/

theorem Indexed.eq_of_id (h : registry.Indexed) (hs : s ∈ registry.sessions)
    (ht : t ∈ registry.sessions) (he : s.id = t.id) : s = t :=
  List.inj_on_of_nodup_map h.ids hs ht he

theorem Indexed.eq_of_root (h : registry.Indexed) (hs : s ∈ registry.sessions)
    (ht : t ∈ registry.sessions) (he : s.root.same t.root = true) : s = t :=
  List.inj_on_of_nodup_map h.roots hs ht (Path.same_iff.mp he)

theorem mem_of_get? (h : registry.get? id = some session) :
    session ∈ registry.sessions ∧ session.id = id :=
  ⟨List.mem_of_find?_eq_some h, by simpa using List.find?_some h⟩

/-- A search by id finds exactly the session of that id. -/
theorem Indexed.get?_eq_some_iff (h : registry.Indexed) :
    registry.get? id = some session ↔ session ∈ registry.sessions ∧ session.id = id := by
  refine ⟨mem_of_get?, fun ⟨hm, hid⟩ => ?_⟩
  cases hg : registry.get? id with
  | none =>
    have := List.find?_eq_none.mp hg session hm
    simp [hid] at this
  | some found =>
    obtain ⟨hfm, hfid⟩ := mem_of_get? hg
    rw [h.eq_of_id hfm hm (hfid.trans hid.symm)]

theorem contains_iff : registry.contains id = true ↔ ∃ s ∈ registry.sessions, s.id = id := by
  unfold contains get?
  simp [List.find?_isSome]

/-- The index leads from a root to the session that stands there. -/
theorem Indexed.idOfRoot?_eq_some_iff (h : registry.Indexed) :
    registry.idOfRoot? root = some id ↔
      ∃ s ∈ registry.sessions, s.root.same root = true ∧ s.id = id := by
  unfold idOfRoot?
  rw [h.byRoot, List.find?_map, Option.map_map, Option.map_eq_some_iff]
  constructor
  · rintro ⟨s, hf, hid⟩
    exact ⟨s, List.mem_of_find?_eq_some hf, by simpa using List.find?_some hf, hid⟩
  · rintro ⟨s, hm, hr, hid⟩
    cases hf : registry.sessions.find? ((fun entry : Path × SessionId => entry.1.same root) ∘
        fun s => (s.root, s.id)) with
    | none =>
      have := List.find?_eq_none.mp hf s hm
      exact absurd hr this
    | some found =>
      have hfr : found.root.same root = true := by simpa using List.find?_some hf
      have : found = s := h.eq_of_root (List.mem_of_find?_eq_some hf) hm
        (Path.same_iff.mpr ((Path.same_iff.mp hfr).trans (Path.same_iff.mp hr).symm))
      exact ⟨found, rfl, by rw [this]; exact hid⟩

/-- A search by root finds exactly the session that stands there. -/
theorem Indexed.findByRoot?_eq_some_iff (h : registry.Indexed) :
    registry.findByRoot? root = some session ↔
      session ∈ registry.sessions ∧ session.root.same root = true := by
  unfold findByRoot?
  rw [Option.bind_eq_some_iff]
  constructor
  · rintro ⟨id, hi, hg⟩
    obtain ⟨s, hs, hr, hid⟩ := h.idOfRoot?_eq_some_iff.mp hi
    obtain ⟨hm, hmid⟩ := mem_of_get? hg
    rw [h.eq_of_id hm hs (hmid.trans hid.symm)]
    exact ⟨hs, hr⟩
  · rintro ⟨hm, hr⟩
    exact ⟨session.id, h.idOfRoot?_eq_some_iff.mpr ⟨session, hm, hr, rfl⟩,
      h.get?_eq_some_iff.mpr ⟨hm, rfl⟩⟩

/-- Where a search by root finds nothing, no session stands. -/
theorem Indexed.free_of_findByRoot? (h : registry.Indexed) (hr : registry.findByRoot? root = none) :
    ∀ s ∈ registry.sessions, s.root.same root = false := by
  intro s hs
  cases hsame : s.root.same root with
  | false => rfl
  | true =>
    have := h.findByRoot?_eq_some_iff.mpr ⟨hs, hsame⟩
    rw [hr] at this
    exact absurd this (by simp)

/-! ## Ids -/

/-- The next id is above every registered one, as long as the numbers last. -/
theorem Indexed.nextId_fresh (h : registry.Indexed) (room : registry.lastId.toNat + 1 < 2 ^ 64) :
    ∀ s ∈ registry.sessions, s.id ≠ registry.nextId.1 := by
  intro s hs he
  have hle := UInt64.le_iff_toNat_le.mp (h.bound s hs)
  have hval : s.id.val = registry.lastId + 1 := congrArg SessionId.val he
  rw [hval, UInt64.toNat_add] at hle
  have : (1 : UInt64).toNat = 1 := rfl
  omega

theorem nextId_lastId (room : registry.lastId.toNat + 1 < 2 ^ 64) :
    registry.nextId.2.lastId.toNat = registry.lastId.toNat + 1 := by
  show (registry.lastId + 1).toNat = _
  rw [UInt64.toNat_add]
  have : (1 : UInt64).toNat = 1 := rfl
  omega

theorem Indexed.nextId (h : registry.Indexed) (room : registry.lastId.toNat + 1 < 2 ^ 64) :
    registry.nextId.2.Indexed := by
  refine ⟨h.byRoot, h.ids, h.roots, fun s hs => UInt64.le_iff_toNat_le.mpr ?_⟩
  have := UInt64.le_iff_toNat_le.mp (h.bound s hs)
  rw [nextId_lastId room]
  omega

/-! ## Insertion -/

/-- A registry with one session more. -/
def add (registry : Registry) (session : Session) : Registry :=
  { registry with
    sessions := session :: registry.sessions
    byRoot := (session.root, session.id) :: registry.byRoot }

/-- **Inserting a session with a fresh id and a free root** adds it and puts nothing out. -/
theorem insert_fresh (h : registry.Indexed) (hid : ∀ s ∈ registry.sessions, s.id ≠ session.id)
    (hroot : ∀ s ∈ registry.sessions, s.root.same session.root = false) :
    registry.insert session =
      { registry := registry.add session, displaced := none, replaced := none } := by
  have hidx : registry.idOfRoot? session.root = none := by
    cases hi : registry.idOfRoot? session.root with
    | none => rfl
    | some id =>
      obtain ⟨s, hs, hr, -⟩ := h.idOfRoot?_eq_some_iff.mp hi
      rw [hroot s hs] at hr
      exact absurd hr (by simp)
  have hget : registry.get? session.id = none :=
    List.find?_eq_none.mpr fun s hs => by simpa using hid s hs
  have hwithout : registry.without session.id = registry.sessions :=
    List.filter_eq_self.mpr fun s hs => by simpa using hid s hs
  have hother : registry.otherRoots session.root = registry.byRoot := by
    unfold otherRoots
    rw [List.filter_eq_self, h.byRoot]
    intro entry he
    obtain ⟨s, hs, rfl⟩ := List.mem_map.mp he
    simp [hroot s hs]
  unfold insert
  simp only [hidx, Option.filter_none, Option.bind_none, hget, hwithout, hother]
  rfl

theorem Indexed.add (h : registry.Indexed) (hid : ∀ s ∈ registry.sessions, s.id ≠ session.id)
    (hroot : ∀ s ∈ registry.sessions, s.root.same session.root = false)
    (hlast : session.id.val ≤ registry.lastId) : (registry.add session).Indexed := by
  refine ⟨?_, ?_, ?_, ?_⟩
  · show _ :: registry.byRoot = _
    rw [h.byRoot]
    rfl
  · refine List.nodup_cons.mpr ⟨fun hm => ?_, h.ids⟩
    obtain ⟨s, hs, he⟩ := List.mem_map.mp hm
    exact hid s hs he
  · refine List.nodup_cons.mpr ⟨fun hm => ?_, h.roots⟩
    obtain ⟨s, hs, he⟩ := List.mem_map.mp hm
    have := hroot s hs
    rw [Path.same_iff.mpr he] at this
    exact absurd this (by simp)
  · intro s hs
    rcases List.mem_cons.mp hs with rfl | hs
    · exact hlast
    · exact h.bound s hs

/-! ## Removal -/

/-- A registry without the session of an id. -/
def drop (registry : Registry) (id : SessionId) : Registry :=
  { registry with
    sessions := registry.without id
    byRoot := (registry.without id).map fun s => (s.root, s.id) }

theorem mem_drop : s ∈ (registry.drop id).sessions ↔ s ∈ registry.sessions ∧ s.id ≠ id := by
  show s ∈ registry.sessions.filter _ ↔ _
  simp

/-- **Removing a registered session** takes it out of the sessions and out of the index. -/
theorem remove_eq (h : registry.Indexed) (hs : session ∈ registry.sessions) :
    registry.remove session.id = some (session, registry.drop session.id) := by
  have hget := h.get?_eq_some_iff.mpr ⟨hs, rfl⟩
  have hidx := h.idOfRoot?_eq_some_iff.mpr ⟨session, hs, Path.same_refl _, rfl⟩
  have hother : registry.otherRoots session.root =
      (registry.without session.id).map fun s => (s.root, s.id) := by
    unfold otherRoots without
    rw [h.byRoot, List.filter_map]
    congr 1
    refine List.filter_congr fun s hm => ?_
    by_cases he : s.id = session.id
    · simp [h.eq_of_id hm hs he]
    · have : s.root.same session.root = false := by
        cases hr : s.root.same session.root with
        | false => rfl
        | true => exact absurd (congrArg Session.id (h.eq_of_root hm hs hr)) he
      simp [he, this]
  unfold remove
  rw [hget]
  simp only [hidx, if_true, hother]
  rfl

theorem Indexed.drop (h : registry.Indexed) (id : SessionId) : (registry.drop id).Indexed := by
  have hsub : (registry.without id).Sublist registry.sessions := List.filter_sublist
  exact ⟨rfl, (hsub.map _).nodup h.ids, (hsub.map _).nodup h.roots,
    fun s hs => h.bound s (mem_drop.mp hs).1⟩

/-- **A session with a fresh id leaves no trace** when it is taken out again. -/
theorem drop_add (h : registry.Indexed) (hid : ∀ s ∈ registry.sessions, s.id ≠ session.id) :
    (registry.add session).drop session.id = registry := by
  have hwithout : (registry.add session).without session.id = registry.sessions := by
    show (session :: registry.sessions).filter _ = _
    rw [List.filter_cons_of_neg (by simp), List.filter_eq_self]
    exact fun s hs => decide_eq_true (hid s hs)
  unfold drop
  rw [hwithout, ← h.byRoot]
  rfl

/-! ## Changing a session -/

theorem mem_modify {change : Session → Session} :
    t ∈ (registry.modify id change).sessions ↔
      ∃ s ∈ registry.sessions, t = if s.id = id then change s else s := by
  show t ∈ registry.sessions.map _ ↔ _
  rw [List.mem_map]
  exact exists_congr fun s => and_congr_right fun _ => eq_comm

/-- Changing the session that was added last is adding it as it is then. -/
theorem modify_add (hid : ∀ s ∈ registry.sessions, s.id ≠ session.id) (hsame : t.id = session.id)
    (hroot : t.root = session.root) :
    (registry.add session).modify session.id (fun _ => t) = registry.add t := by
  have hold : registry.sessions.map (fun s => if s.id = session.id then t else s) =
      registry.sessions :=
    (List.map_congr_left fun s hs => if_neg (hid s hs)).trans (List.map_id _)
  unfold modify add
  rw [List.map_cons, if_pos rfl, hsame, hroot]
  simp only [hold]

/-- A change of a session that is taken out afterwards does not show. -/
theorem drop_modify {change : Session → Session} (hid : ∀ s, (change s).id = s.id) :
    (registry.modify id change).drop id = registry.drop id := by
  have hwithout : (registry.modify id change).without id = registry.without id := by
    unfold without modify
    dsimp only
    induction registry.sessions with
    | nil => rfl
    | cons s rest ih =>
      rw [List.map_cons]
      by_cases hs : s.id = id
      · rw [if_pos hs, List.filter_cons_of_neg (by simp [hid, hs]),
          List.filter_cons_of_neg (by simp [hs]), ih]
      · rw [if_neg hs, List.filter_cons_of_pos (by simp [hs]),
          List.filter_cons_of_pos (by simp [hs]), ih]
  unfold drop
  rw [hwithout]
  rfl

/-- A change that keeps ids and roots keeps the registry indexed. -/
theorem Indexed.modify (h : registry.Indexed) (id : SessionId) {change : Session → Session}
    (hid : ∀ s ∈ registry.sessions, s.id = id → (change s).id = s.id)
    (hroot : ∀ s ∈ registry.sessions, s.id = id → (change s).root = s.root) :
    (registry.modify id change).Indexed := by
  have hid' : ∀ s ∈ registry.sessions, (if s.id = id then change s else s).id = s.id := by
    intro s hs
    split
    · exact hid s hs ‹_›
    · rfl
  have hroot' : ∀ s ∈ registry.sessions, (if s.id = id then change s else s).root = s.root := by
    intro s hs
    split
    · exact hroot s hs ‹_›
    · rfl
  refine ⟨?_, ?_, ?_, ?_⟩
  · show registry.byRoot = (registry.sessions.map _).map _
    rw [h.byRoot, List.map_map]
    refine List.map_congr_left fun s hs => ?_
    simp only [Function.comp, hid' s hs, hroot' s hs]
  · have hmap : (registry.modify id change).sessions.map Session.id =
        registry.sessions.map Session.id :=
      List.map_map.trans (List.map_congr_left hid')
    rw [hmap]
    exact h.ids
  · have hmap : ((registry.modify id change).sessions.map fun s => s.root.components) =
        registry.sessions.map fun s => s.root.components :=
      List.map_map.trans (List.map_congr_left fun s hs => congrArg Path.components (hroot' s hs))
    rw [hmap]
    exact h.roots
  · intro t ht
    obtain ⟨s, hs, rfl⟩ := mem_modify.mp ht
    rw [hid' s hs]
    exact h.bound s hs

/-! ## What an insertion puts out -/

/-- What a search finds among the sessions of some ids. -/
theorem find?_filter_id (sessions : List Session) (keep : SessionId → Bool) (id : SessionId) :
    ((sessions.filter fun s => keep s.id).find? fun s => decide (s.id = id)) =
      if keep id then sessions.find? fun s => decide (s.id = id) else none := by
  rw [List.find?_filter]
  split
  · rename_i hk
    refine List.find?_congr fun s _ => ?_
    by_cases hs : s.id = id
    · simp [hs, hk]
    · simp [hs]
  · rename_i hk
    refine List.find?_eq_none.mpr fun s _ => ?_
    by_cases hs : s.id = id
    · simp [hs, hk]
    · simp [hs]

/-- Taking another id out makes no difference to a search. -/
theorem find?_without {other : SessionId} (hne : id ≠ other) :
    ((registry.without other).find? fun s => decide (s.id = id)) = registry.get? id :=
  (find?_filter_id registry.sessions (fun known => decide (known ≠ other)) id).trans
    (if_pos (decide_eq_true hne))

theorem without_of_get?_none (h : registry.get? id = none) :
    registry.without id = registry.sessions :=
  List.filter_eq_self.mpr fun s hs => by simpa using List.find?_eq_none.mp h s hs

/-- **What an insertion puts out**: the session of the same id, and perhaps another one. -/
theorem insert_cases (registry : Registry) (session : Session) :
    (registry.insert session).replaced = registry.get? session.id ∧
      ((registry.insert session).displaced = none ∧
          (registry.insert session).registry.sessions =
            session :: registry.without session.id ∨
        ∃ displaced, (registry.insert session).displaced = some displaced ∧
          displaced.id ≠ session.id ∧ registry.get? displaced.id = some displaced ∧
          (registry.insert session).registry.sessions = session ::
            (registry.without session.id).filter fun s => decide (s.id ≠ displaced.id)) := by
  unfold insert
  cases hd : (registry.idOfRoot? session.root).filter fun id => decide (id ≠ session.id) with
  | none => exact ⟨rfl, .inl ⟨rfl, rfl⟩⟩
  | some id =>
    have hne : id ≠ session.id := by simpa using (Option.filter_eq_some_iff.mp hd).2
    refine ⟨find?_without hne.symm, ?_⟩
    cases hg : registry.get? id with
    | none =>
      refine .inl ⟨hg, ?_⟩
      show session :: (registry.without id).filter _ = _
      rw [without_of_get?_none hg]
      rfl
    | some displaced =>
      obtain rfl := (mem_of_get? hg).2
      exact .inr ⟨displaced, hg, hne, hg, congrArg (session :: ·) (List.filter_comm _ _ _)⟩

/-! ## What a search finds after a change -/

/-- A change of the session of an id changes what a search for it finds, and no other search. -/
theorem get?_modify {other : SessionId} {change : Session → Session}
    (hid : ∀ s, s.id = id → (change s).id = id) :
    (registry.modify id change).get? other =
      if other = id then (registry.get? id).map change else registry.get? other := by
  have hsame : ((fun s : Session => decide (s.id = other)) ∘
      fun s => if s.id = id then change s else s) = fun s => decide (s.id = other) := by
    funext s
    simp only [Function.comp]
    split
    · rename_i he
      rw [hid s he, he]
    · rfl
  unfold get? modify
  dsimp only
  rw [List.find?_map, hsame]
  split
  · rename_i he
    subst he
    cases hf : registry.sessions.find? fun s => decide (s.id = other) with
    | none => rfl
    | some s => exact congrArg some (if_pos (by simpa using List.find?_some hf))
  · rename_i hne
    cases hf : registry.sessions.find? fun s => decide (s.id = other) with
    | none => rfl
    | some s =>
      have hs : s.id = other := by simpa using List.find?_some hf
      exact congrArg some (if_neg (by rw [hs]; exact hne))

/-- Giving the session of an id another handshake. -/
theorem get?_handshake {other : SessionId} (handshake : Handshake) :
    (registry.modify id fun s => { s with handshake }).get? other =
      if other = id then (registry.get? id).map fun s => { s with handshake }
      else registry.get? other :=
  get?_modify fun _ he => he

/-- **Taking an id out** takes its session out, if there is one, and no other. -/
theorem get?_remove {other : SessionId} : ((registry.remove id).elim registry Prod.snd).get? other =
    if other = id then none else registry.get? other := by
  have hwithout : ((registry.without id).find? fun s => decide (s.id = other)) =
      if other = id then none else registry.get? other := by
    refine (find?_filter_id registry.sessions (fun known => decide (known ≠ id)) other).trans ?_
    simp only [decide_eq_true_eq, ite_not]
    rfl
  unfold remove
  cases hg : registry.get? id with
  | none =>
    rw [← hwithout, without_of_get?_none hg]
    rfl
  | some session => exact hwithout

theorem get?_insert_self :
    (registry.insert session).registry.get? session.id = some session := by
  obtain ⟨others, hsessions⟩ : ∃ others,
      (registry.insert session).registry.sessions = session :: others := by
    rcases (insert_cases registry session).2 with ⟨-, hs⟩ | ⟨_, -, -, -, hs⟩ <;> exact ⟨_, hs⟩
  unfold get?
  rw [hsessions]
  exact List.find?_cons_of_pos (decide_eq_true rfl)

/-- **What a search finds after an insertion** is the new session or one that was there before. -/
theorem get?_insert {now : Session}
    (hnow : (registry.insert session).registry.get? id = some now) :
    id = session.id ∧ now = session ∨ id ≠ session.id ∧ registry.get? id = some now := by
  have hkept : ∀ keep : SessionId → Bool,
      (registry.insert session).registry.sessions =
        session :: registry.sessions.filter (fun s => keep s.id) →
      id = session.id ∧ now = session ∨ id ≠ session.id ∧ registry.get? id = some now := by
    intro keep hsessions
    unfold get? at hnow
    rw [hsessions, List.find?_cons, find?_filter_id] at hnow
    split at hnow
    · rename_i he
      exact .inl ⟨(of_decide_eq_true he).symm, (Option.some.inj hnow).symm⟩
    · rename_i hne
      refine .inr ⟨fun he => of_decide_eq_false hne he.symm, ?_⟩
      split at hnow
      · exact hnow
      · exact absurd hnow nofun
  rcases (insert_cases registry session).2 with ⟨-, hsessions⟩ | ⟨displaced, -, -, -, hsessions⟩
  · exact hkept (fun known => decide (known ≠ session.id)) hsessions
  · refine hkept (fun known => decide (known ≠ displaced.id) && decide (known ≠ session.id)) ?_
    rw [hsessions]
    unfold without
    rw [List.filter_filter]

/-! ## All ids -/

theorem mem_insertId {other : SessionId} : ∀ {ids : List SessionId},
    other ∈ insertId id ids ↔ other = id ∨ other ∈ ids
  | [] => by simp [insertId]
  | first :: ids => by
    unfold insertId
    split
    · exact List.mem_cons
    · rw [List.mem_cons, mem_insertId, List.mem_cons]
      exact or_left_comm

/-- The ids of a registry are those of its sessions. -/
theorem mem_ids : id ∈ registry.ids ↔ ∃ s ∈ registry.sessions, s.id = id := by
  unfold ids
  induction registry.sessions with
  | nil => simp
  | cons s sessions ih =>
    rw [List.map_cons, List.foldr_cons, mem_insertId, ih]
    simp [eq_comm]

end Registry

end InlineRepl
