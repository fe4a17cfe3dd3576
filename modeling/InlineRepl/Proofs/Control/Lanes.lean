import InlineRepl.Control.Server
import Mathlib.Tactic.Common

/-!
# The lanes of a control server

What each operation does to the two tables of a server, the lanes and the current lane of each id,
and the invariant that ties them together: `ControlServer.Sound`, by which the current lanes are
exactly the open ones.

Results:
* `current?_open_`, `current?_remove`: opening an id makes its new lane current, removing it leaves
  it without one, and neither touches another id.
* `Sound.open_`, `Sound.remove`, `Sound.update`: every operation keeps the tables tied; an update
  does when it neither opens nor closes a lane nor hands it to another id.
* `isOpen_iff`: a client's lane is open iff it is the current one of its id.
* `Change.sound`, `Change.moors`: whatever happens to a server, its tables stay tied and its lanes
  stay where they are.
-/

namespace InlineRepl.ControlServer

variable {server : ControlServer} {id other : SessionId} {n k : Nat}

/-! ## The tables after an operation -/

theorem lookup_entry_cons (entry : SessionId × Nat) (entries : List (SessionId × Nat)) :
    (entry :: entries).lookup id = if id = entry.1 then some entry.2 else entries.lookup id := by
  rw [List.lookup_cons]
  split
  · rename_i h
    rw [if_pos (eq_of_beq h)]
  · rename_i h
    rw [if_neg (ne_of_beq_false h)]

theorem lookup_others :
    (server.others id).lookup other = if other = id then none else server.current? other := by
  unfold others current?
  induction server.current with
  | nil => simp
  | cons entry entries ih =>
    rw [List.filter_cons, lookup_entry_cons]
    by_cases hk : entry.1 = id
    · rw [if_neg (by simpa using hk), ih]
      split
      · rfl
      · rename_i ho
        rw [if_neg (by rw [hk]; exact ho)]
    · rw [if_pos (by simpa using hk), lookup_entry_cons, ih]
      split
      · rename_i ho
        rw [if_neg (by rw [ho]; exact hk)]
      · rfl

@[simp] theorem current?_update (f : Lane → Lane) :
    (server.update n f).current? id = server.current? id := rfl

@[simp] theorem current?_close : (server.close n).current? id = server.current? id := rfl

theorem lanes_update (f : Lane → Lane) :
    (server.update n f).lanes[k]? =
      if n = k then (server.lanes[k]?).map f else server.lanes[k]? := by
  unfold update
  rw [List.getElem?_modify]
  split <;> simp

@[simp] theorem length_update (f : Lane → Lane) :
    (server.update n f).lanes.length = server.lanes.length :=
  List.length_modify ..

/-- Opening an id makes the new lane current, for this id alone. -/
theorem current?_open_ :
    (server.open_ id).2.current? other =
      if other = id then some server.lanes.length else server.current? other := by
  show ((id, server.lanes.length) :: server.others id).lookup other = _
  rw [lookup_entry_cons, lookup_others]
  split <;> rfl

theorem lanes_closeCurrent :
    (server.closeCurrent id).lanes[k]? =
      if server.current? id = some k then
        (server.lanes[k]?).map fun lane => { lane with isOpen := false }
      else server.lanes[k]? := by
  unfold closeCurrent
  split
  · rename_i lane h
    simp only [close, lanes_update, h, Option.some.injEq]
  · rename_i h
    simp [h]

@[simp] theorem length_closeCurrent :
    (server.closeCurrent id).lanes.length = server.lanes.length := by
  unfold closeCurrent
  split
  · exact length_update _
  · rfl

/-- Opening an id appends a lane and closes the one that was current for it. -/
theorem lanes_open_ :
    (server.open_ id).2.lanes[k]? =
      if k = server.lanes.length then some { session := id }
      else (server.closeCurrent id).lanes[k]? := by
  show ((server.closeCurrent id).lanes ++ [({ session := id } : Lane)])[k]? = _
  rcases Nat.lt_trichotomy k server.lanes.length with h | h | h
  · rw [List.getElem?_append_left (by simpa using h), if_neg (by omega)]
  · subst h
    simp
  · rw [if_neg (by omega), List.getElem?_eq_none (by simp; omega),
      List.getElem?_eq_none (by simp; omega)]

/-- Removing an id leaves it without a current lane, and every other id as it was. -/
theorem current?_remove :
    (server.remove id).2.current? other =
      if other = id then none else server.current? other := by
  unfold remove
  split
  · exact lookup_others
  · rename_i h
    by_cases ho : other = id
    · rw [if_pos ho, ho, h]
    · rw [if_neg ho]

theorem lanes_remove :
    (server.remove id).2.lanes[k]? = (server.closeCurrent id).lanes[k]? := by
  unfold remove closeCurrent
  split <;> simp_all

/-! ## An id without a lane -/

theorem others_eq_current (h : server.current? id = none) : server.others id = server.current := by
  have hkeys := List.lookup_eq_none_iff.mp h
  exact List.filter_eq_self.mpr fun entry he =>
    decide_eq_true (bne_iff_ne.mp (hkeys entry he)).symm

/-- Opening an id that has no lane adds one and closes none. -/
theorem open_fresh (h : server.current? id = none) :
    (server.open_ id).2 =
      { lanes := server.lanes ++ [{ session := id }]
        current := (id, server.lanes.length) :: server.current } := by
  unfold open_ closeCurrent
  rw [h, others_eq_current h]

/-- **Opening an id and removing it again** leaves nothing but a closed lane. -/
theorem remove_open_fresh (h : server.current? id = none) :
    ((server.open_ id).2.remove id).2 =
      { lanes := server.lanes ++ [{ session := id, isOpen := false }]
        current := server.current } := by
  have hcur : (server.open_ id).2.current? id = some server.lanes.length := by
    rw [current?_open_, if_pos rfl]
  have hothers : (server.open_ id).2.others id = server.current := by
    rw [open_fresh h, ← others_eq_current h]
    simp [others]
  have hclose : ((server.open_ id).2.close server.lanes.length).lanes =
      server.lanes ++ [{ session := id, isOpen := false }] := by
    rw [open_fresh h]
    show (server.lanes ++ [_]).modify server.lanes.length _ = _
    rw [List.modify_eq_take_drop, List.take_left, List.drop_left]
    rfl
  unfold remove
  rw [hcur]
  dsimp only
  rw [hothers, hclose]

theorem contains_iff : server.contains id = true ↔ ∃ lane, server.current? id = some lane :=
  Option.isSome_iff_exists

/-! ## Open lanes are the current ones -/

/-- The two tables agree: a current lane is there, open, and opened for the id it is current for;
and every open lane is current. -/
structure Sound (server : ControlServer) : Prop where
  current : ∀ {id n}, server.current? id = some n →
    ∃ lane, server.lanes[n]? = some lane ∧ lane.session = id ∧ lane.isOpen = true
  isCurrent : ∀ {n lane}, server.lanes[n]? = some lane → lane.isOpen = true →
    server.current? lane.session = some n

theorem sound_empty : Sound {} :=
  ⟨fun h => absurd h (by simp [current?]), fun h => absurd h (by simp)⟩

/-- The session of a current lane tells which id it is current for. -/
theorem Sound.current_inj (h : server.Sound) (hi : server.current? id = some n)
    (ho : server.current? other = some n) : other = id := by
  obtain ⟨lane, hl, hs, -⟩ := h.current hi
  obtain ⟨lane', hl', hs', -⟩ := h.current ho
  rw [hl] at hl'
  obtain rfl := Option.some.inj hl'
  exact hs'.symm.trans hs

theorem Sound.lt_length (h : server.Sound) (hi : server.current? id = some n) :
    n < server.lanes.length := by
  obtain ⟨lane, hl, -, -⟩ := h.current hi
  exact (List.getElem?_eq_some_iff.mp hl).1

/-- **An update that opens, closes and moves nothing** keeps the tables tied. -/
theorem Sound.update (h : server.Sound) (n : Nat) {f : Lane → Lane}
    (hs : ∀ lane, (f lane).session = lane.session) (ho : ∀ lane, (f lane).isOpen = lane.isOpen) :
    (server.update n f).Sound := by
  refine ⟨fun {id k} hk => ?_, fun {k lane} hk hopen => ?_⟩
  · obtain ⟨lane, hl, hid, hop⟩ := h.current hk
    rw [lanes_update, hl]
    split
    · exact ⟨f lane, rfl, (hs lane).trans hid, (ho lane).trans hop⟩
    · exact ⟨lane, rfl, hid, hop⟩
  · rw [lanes_update] at hk
    split at hk
    · obtain ⟨lane', hl, rfl⟩ := Option.map_eq_some_iff.mp hk
      rw [current?_update, hs]
      exact h.isCurrent hl ((ho lane').symm.trans hopen)
    · exact h.isCurrent hk hopen

/-- A lane that is open once the current lane of `id` is closed is not the one that was closed. -/
theorem Sound.of_closeCurrent (h : server.Sound) {lane : Lane}
    (hk : (server.closeCurrent id).lanes[k]? = some lane) (hopen : lane.isOpen = true) :
    server.lanes[k]? = some lane ∧ lane.session ≠ id := by
  rw [lanes_closeCurrent] at hk
  split at hk
  · obtain ⟨lane', -, rfl⟩ := Option.map_eq_some_iff.mp hk
    exact absurd hopen (by simp)
  · rename_i hne
    exact ⟨hk, fun hs => hne (hs ▸ h.isCurrent hk hopen)⟩

/-- The lane of another id stays as it is when the current lane of `id` is closed. -/
theorem Sound.closeCurrent_other (h : server.Sound) (hne : other ≠ id)
    (hk : server.current? other = some k) :
    (server.closeCurrent id).lanes[k]? = server.lanes[k]? := by
  rw [lanes_closeCurrent, if_neg fun hi => hne (h.current_inj hi hk)]

theorem Sound.open_ (h : server.Sound) (id : SessionId) : (server.open_ id).2.Sound := by
  refine ⟨fun {other k} hk => ?_, fun {k lane} hk hopen => ?_⟩
  · rw [current?_open_] at hk
    split at hk
    · rename_i ho
      obtain rfl := Option.some.inj hk
      exact ⟨_, by rw [lanes_open_, if_pos rfl], ho.symm, rfl⟩
    · rename_i ho
      have hlt := h.lt_length hk
      rw [lanes_open_, if_neg (by omega), h.closeCurrent_other ho hk]
      exact h.current hk
  · rw [lanes_open_] at hk
    split at hk
    · rename_i hkl
      obtain rfl := Option.some.inj hk
      rw [current?_open_, if_pos rfl, hkl]
    · obtain ⟨hl, hne⟩ := h.of_closeCurrent hk hopen
      rw [current?_open_, if_neg hne]
      exact h.isCurrent hl hopen

theorem Sound.remove (h : server.Sound) (id : SessionId) : (server.remove id).2.Sound := by
  refine ⟨fun {other k} hk => ?_, fun {k lane} hk hopen => ?_⟩
  · rw [current?_remove] at hk
    split at hk
    · exact absurd hk (by simp)
    · rename_i ho
      rw [lanes_remove, h.closeCurrent_other ho hk]
      exact h.current hk
  · rw [lanes_remove] at hk
    obtain ⟨hl, hne⟩ := h.of_closeCurrent hk hopen
    rw [current?_remove, if_neg hne]
    exact h.isCurrent hl hopen

/-- **A client's lane is open iff it is the current one of its id**, provided that the lane was
opened for the client's id. -/
theorem Sound.isOpen_iff (h : server.Sound) {client : Client} {lane : Lane}
    (hl : server.lanes[client.lane]? = some lane) (hs : lane.session = client.session) :
    server.isOpen client = true ↔ server.current? client.session = some client.lane := by
  unfold isOpen
  rw [hl]
  constructor
  · intro hopen
    exact hs ▸ h.isCurrent hl hopen
  · intro hc
    obtain ⟨lane', hl', -, hopen⟩ := h.current hc
    rw [hl] at hl'
    exact (Option.some.inj hl') ▸ hopen

/-- The client of a current lane is open. -/
theorem Sound.isOpen_of_current (h : server.Sound) {client : Client}
    (hc : server.current? client.session = some client.lane) : server.isOpen client = true := by
  obtain ⟨lane, hl, hs, -⟩ := h.current hc
  exact (h.isOpen_iff hl hs).mpr hc

/-! ## What bridges and sends do -/

/-- A send, a greeting, a request written and a bridge's loss change one lane at most, and neither
open nor close it nor hand it to another id. -/
inductive Traffic (server : ControlServer) : ControlServer → Prop
  | refl : Traffic server server
  | update (n : Nat) {f : Lane → Lane} (hs : ∀ lane, (f lane).session = lane.session)
      (ho : ∀ lane, (f lane).isOpen = lane.isOpen) : Traffic server (server.update n f)

theorem Traffic.current? {after : ControlServer} (h : server.Traffic after) (id : SessionId) :
    after.current? id = server.current? id := by
  cases h <;> rfl

theorem Traffic.sound {after : ControlServer} (h : server.Traffic after) (hs : server.Sound) :
    after.Sound := by
  cases h with
  | refl => exact hs
  | update n h1 h2 => exact hs.update n h1 h2

theorem traffic_send {after : ControlServer} {client : Client} {request : EvalRequest}
    (h : server.send client request = .ok after) : server.Traffic after := by
  unfold send at h
  split at h
  · split at h
    · obtain rfl := Except.ok.inj h
      exact .update _ (fun _ => rfl) fun _ => rfl
    · exact absurd h (by simp)
  · exact absurd h (by simp)

theorem traffic_greet {after : ControlServer} {hello : Hello}
    (h : server.greet hello = some (n, after)) :
    server.Traffic after := by
  unfold greet at h
  split at h
  · exact absurd h (by simp)
  · split at h
    · simp only [Option.some.injEq, Prod.mk.injEq] at h
      obtain ⟨rfl, rfl⟩ := h
      exact .update _ (fun _ => rfl) fun _ => rfl
    · exact absurd h (by simp)

theorem traffic_transmit {after : ControlServer} {request : EvalRequest}
    (h : server.transmit n = some (request, after)) : server.Traffic after := by
  unfold transmit at h
  split at h
  · split at h
    · split at h
      · simp only [Option.some.injEq, Prod.mk.injEq] at h
        obtain ⟨-, rfl⟩ := h
        exact .update _ (fun _ => rfl) fun _ => rfl
      · exact absurd h (by simp)
    · exact absurd h (by simp)
  · exact absurd h (by simp)

theorem traffic_hangUp (server : ControlServer) (n : Nat) : server.Traffic (server.hangUp n) := by
  refine .update n (fun lane => ?_) fun lane => ?_ <;> split <;> rfl

/-! ## Sends to a closed lane -/

/-- A send to a client that is not open is refused. -/
theorem send_closed {client : Client} (h : server.isOpen client = false) (request : EvalRequest) :
    server.send client request = .error (.channelClosed client.session) := by
  unfold isOpen at h
  unfold send
  cases hl : server.lanes[client.lane]? with
  | none => rfl
  | some lane =>
    rw [hl] at h
    simp [show lane.isOpen = false from h]

/-- Only a client that is open has a send accepted. -/
theorem isOpen_of_send {after : ControlServer} {client : Client} {request : EvalRequest}
    (h : server.send client request = .ok after) : server.isOpen client = true := by
  cases hopen : server.isOpen client with
  | true => rfl
  | false => exact absurd ((send_closed hopen request).symm.trans h) nofun

/-! ## Lanes stay -/

section Change

variable {after : ControlServer} {client : Client}

/-- A lane is opened, closed or used. -/
inductive Change (server : ControlServer) : ControlServer → Prop
  | open_ (id : SessionId) : Change server (server.open_ id).2
  | remove (id : SessionId) : Change server (server.remove id).2
  | traffic {after : ControlServer} (h : server.Traffic after) : Change server after

theorem Change.sound (h : server.Change after) (hs : server.Sound) : after.Sound := by
  cases h with
  | open_ id => exact hs.open_ id
  | remove id => exact hs.remove id
  | traffic ht => exact ht.sound hs

/-- The client's lane was opened for the client's id. -/
def Moors (server : ControlServer) (client : Client) : Prop :=
  ∃ lane, server.lanes[client.lane]? = some lane ∧ lane.session = client.session

theorem moors_closeCurrent (h : server.Moors client) (id : SessionId) :
    (server.closeCurrent id).Moors client := by
  obtain ⟨lane, hl, hs⟩ := h
  unfold Moors
  rw [lanes_closeCurrent, hl]
  split
  · exact ⟨_, rfl, hs⟩
  · exact ⟨lane, rfl, hs⟩

/-- **Lanes stay where they are**, with the id that they were opened for. -/
theorem Change.moors (h : server.Change after) (hc : server.Moors client) : after.Moors client := by
  cases h with
  | open_ id =>
    have hlt : client.lane < server.lanes.length := by
      obtain ⟨lane, hl, -⟩ := hc
      exact (List.getElem?_eq_some_iff.mp hl).1
    obtain ⟨lane, hl, hs⟩ := moors_closeCurrent hc id
    exact ⟨lane, by rw [lanes_open_, if_neg (Nat.ne_of_lt hlt), hl], hs⟩
  | remove id =>
    obtain ⟨lane, hl, hs⟩ := moors_closeCurrent hc id
    exact ⟨lane, lanes_remove.trans hl, hs⟩
  | traffic ht =>
    cases ht with
    | refl => exact hc
    | update n hsession _ =>
      obtain ⟨lane, hl, hs⟩ := hc
      unfold Moors
      rw [lanes_update, hl]
      split
      · exact ⟨_, rfl, (hsession lane).trans hs⟩
      · exact ⟨lane, rfl, hs⟩

/-- The client of a lane that has just been opened. -/
theorem moors_open_ (server : ControlServer) (id : SessionId) :
    (server.open_ id).2.Moors (server.open_ id).1 :=
  ⟨{ session := id }, by rw [lanes_open_]; exact if_pos rfl, rfl⟩

end Change

end InlineRepl.ControlServer
