import InlineRepl.Proofs.Control.Exchange

/-!
# A client is open exactly while it is current

A client is served from the opening that it comes from until its id is opened again or removed,
whatever bridges greet, take and lose in between. What has closed it is never undone: its lane stays
where it is, and lanes that are opened later have places of their own.

Results:
* `current_step`, `current_run`: what keeps a lane the current one of its id.
* `isOpen_run`: a client stays open until a move retires its id.
* `open_exactly_while_current`: the life of every client that a server has ever given out.
-/

namespace InlineRepl

namespace ControlServer

variable {server : ControlServer} {id : SessionId}

/-- **A removal tells whether there was a lane** to close. -/
theorem remove_fst : (server.remove id).1 = server.contains id := by
  unfold remove contains
  cases server.current? id <;> rfl

/-- An id that has been removed has no lane. -/
theorem contains_remove : (server.remove id).2.contains id = false := by
  unfold contains
  rw [current?_remove, if_pos rfl]
  rfl

end ControlServer

namespace Exchange

variable {x : Exchange} {client : Client} {move : Move} {id : SessionId}

/-- **The move retires the clients that an id has had**: it opens the id again, or removes it. -/
def Move.Retires (id : SessionId) (move : Move) : Prop :=
  move = .open_ id ∨ move = .remove id

/-! ## What lasts -/

theorem sound_run (hs : x.server.Sound) (moves : List Move) : (x.run moves).server.Sound := by
  induction moves generalizing x with
  | nil => exact hs
  | cons move moves ih => exact ih ((x.change_step move).sound hs)

theorem moors_run (hm : x.server.Moors client) (moves : List Move) :
    (x.run moves).server.Moors client := by
  induction moves generalizing x with
  | nil => exact hm
  | cons move moves ih => exact ih ((x.change_step move).moors hm)

/-! ## Current lanes -/

/-- A lane that is there stays the current one of its id unless the id is retired, and becomes it by
no move. -/
theorem current_step (hm : x.server.Moors client) (move : Move) :
    (x.step move).server.current? client.session = some client.lane ↔
      x.server.current? client.session = some client.lane ∧ ¬ move.Retires client.session := by
  have hlt : client.lane < x.server.lanes.length := by
    obtain ⟨lane, hl, -⟩ := hm
    exact (List.getElem?_eq_some_iff.mp hl).1
  unfold Move.Retires
  rcases x.server_step move with ⟨id, rfl, h⟩ | ⟨id, rfl, h⟩ | ⟨hquiet, h⟩
  · rw [h, ControlServer.current?_open_]
    split
    · rename_i he
      -- The lane of the opening is a new one.
      refine iff_of_false (fun hc => ?_) fun hc => hc.2 (.inl (congrArg Move.open_ he.symm))
      exact Nat.ne_of_lt hlt (Option.some.inj hc).symm
    · rename_i hne
      simp [Ne.symm hne]
  · rw [h, ControlServer.current?_remove]
    split
    · rename_i he
      exact iff_of_false nofun fun hc => hc.2 (.inr (congrArg Move.remove he.symm))
    · rename_i hne
      simp [Ne.symm hne]
  · rw [h.current?]
    have hkept := hquiet client.session
    exact ⟨fun hc => ⟨hc, not_or.mpr hkept⟩, And.left⟩

theorem current_run (hm : x.server.Moors client) (moves : List Move) :
    (x.run moves).server.current? client.session = some client.lane ↔
      x.server.current? client.session = some client.lane ∧
        ∀ move ∈ moves, ¬ move.Retires client.session := by
  induction moves generalizing x with
  | nil => simp
  | cons move moves ih =>
    rw [run_cons, ih ((x.change_step move).moors hm), current_step hm, List.forall_mem_cons,
      and_assoc]

/-- **A client stays open until its id is retired**, and is never opened again. -/
theorem isOpen_run (hs : x.server.Sound) (hm : x.server.Moors client) (moves : List Move) :
    (x.run moves).server.isOpen client = true ↔
      x.server.isOpen client = true ∧ ∀ move ∈ moves, ¬ move.Retires client.session := by
  obtain ⟨lane, hl, hid⟩ := hm
  obtain ⟨later, hlater, hkept⟩ := moors_run ⟨lane, hl, hid⟩ moves
  rw [(sound_run hs moves).isOpen_iff hlater hkept, hs.isOpen_iff hl hid,
    current_run ⟨lane, hl, hid⟩]

/-- A client is open when it is given out. -/
theorem isOpen_opened (hs : x.server.Sound) (id : SessionId) :
    (x.server.open_ id).2.isOpen (x.server.open_ id).1 = true := by
  refine (hs.open_ id).isOpen_of_current ?_
  show (x.server.open_ id).2.current? id = some x.server.lanes.length
  rw [ControlServer.current?_open_, if_pos rfl]

/-- **A client is open exactly while it is current**, whatever the parties do.

The client that an opening has given out is open if and only if its id has been neither opened again
nor removed since. Once closed it is closed for good, and every send through it is refused with the
id that it was opened for. A removal tells whether the id was open, and leaves it closed. -/
theorem open_exactly_while_current (before : List Move) (id : SessionId) (after : List Move) :
    let start := (({} : Exchange).run before).server
    let client := (start.open_ id).1
    let x := ({} : Exchange).run (before ++ .open_ id :: after)
    (x.server.isOpen client = true ↔ ∀ move ∈ after, move ≠ .open_ id ∧ move ≠ .remove id) ∧
      (x.server.isOpen client = false →
        (∀ more, (x.run more).server.isOpen client = false) ∧
          ∀ request, x.server.send client request = .error (.channelClosed id)) ∧
      (start.remove id).1 = start.contains id ∧ (start.remove id).2.contains id = false := by
  intro start client x
  have hsound : start.Sound := sound_run ControlServer.sound_empty before
  have hopened : ((({} : Exchange).run before).step (.open_ id)).server = (start.open_ id).2 := rfl
  have hx : x = ((({} : Exchange).run before).step (.open_ id)).run after := List.foldl_append
  have hmoored : x.server.Moors client :=
    hx ▸ moors_run (hopened ▸ ControlServer.moors_open_ start id) after
  have hxsound : x.server.Sound := sound_run ControlServer.sound_empty _
  refine ⟨?_, fun hclosed => ⟨fun more => ?_, fun request => ?_⟩, ControlServer.remove_fst,
    ControlServer.contains_remove⟩
  · have hclient : (start.open_ id).2.isOpen client = true := isOpen_opened hsound id
    rw [hx, isOpen_run (hopened ▸ hsound.open_ id) (hopened ▸ ControlServer.moors_open_ start id)]
    exact ⟨fun h move hm => not_or.mp (h.2 move hm),
      fun h => ⟨hclient, fun move hm => not_or.mpr (h move hm)⟩⟩
  · rw [Bool.eq_false_iff, ne_eq, isOpen_run hxsound hmoored, not_and_or]
    exact .inl (Bool.eq_false_iff.mp hclosed)
  · exact ControlServer.send_closed hclosed request

/-- A client whose id is opened again, after a bridge has come and gone, is closed for good. -/
theorem closed_by_a_reopening :
    let after : List Move := [.greet { session := ⟨7⟩ }, .lose 0, .open_ ⟨7⟩]
    let client := (({} : Exchange).server.open_ ⟨7⟩).1
    let x := ({} : Exchange).run (.open_ ⟨7⟩ :: after)
    x.server.isOpen client = false ∧
      (∀ more, (x.run more).server.isOpen client = false) ∧
      ∀ request, x.server.send client request = .error (.channelClosed ⟨7⟩) := by
  intro after client x
  obtain ⟨-, hclosed, -⟩ := open_exactly_while_current [] ⟨7⟩ after
  have hx : x.server.isOpen client = false := by decide
  exact ⟨hx, hclosed hx⟩

end Exchange

end InlineRepl
