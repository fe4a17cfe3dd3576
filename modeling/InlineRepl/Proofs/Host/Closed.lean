import InlineRepl.Proofs.Host.Frame

/-!
# Closed sessions stay closed

An id is *spent* once it has been handed out and is not registered: its session was taken out, or
its attempt never got as far as to register one. Every session that a turn brings in has the id that
the turn hands out, which is above all ids before it as long as the numbers last. So a spent id is
never registered again, and whatever is still said of it, late output, an exit, a response, finds
nobody and changes nothing.

Results:
* `id_of_mem_tryConnect`, `id_of_mem_take`: which ids are registered after an attempt and a turn.
* `Spent.take`, `Spent.run`: a spent id stays spent.
* `Spent.handleEvent`: an event of a spent id changes nothing.
* `closed_stays_closed`: so for every run and every session that was closed in it.
-/

namespace InlineRepl

namespace Host

variable {host : Host} {around : Surroundings} {session s t : Session} {id : SessionId}
  {turn : Turn}

/-! ## Which ids are registered -/

theorem mem_of_mem_register (ht : t ∈ (host.register session).registry.sessions) :
    t = session ∨ t ∈ host.registry.sessions := by
  have hinsert : (host.register session).registry = (host.registry.insert session).registry := by
    unfold register
    dsimp only
    split <;> rfl
  rw [hinsert] at ht
  unfold Registry.insert Registry.without at ht
  dsimp only at ht
  rcases List.mem_cons.mp ht with rfl | ht
  · exact .inl rfl
  · have hcleared := List.mem_of_mem_filter ht
    split at hcleared
    · exact .inr (List.mem_of_mem_filter hcleared)
    · exact .inr hcleared

theorem id_of_mem_adopt {pid : Option Nat} (ht : t ∈ (host.adopt id pid).registry.sessions) :
    ∃ s ∈ host.registry.sessions, s.id = t.id := by
  unfold adopt at ht
  dsimp only at ht
  split at ht
  · exact ⟨t, ht, rfl⟩
  · rename_i session hg
    obtain ⟨s, hs, rfl⟩ := Registry.mem_modify.mp ht
    refine ⟨s, hs, ?_⟩
    split
    · exact ‹s.id = id›.trans (Registry.mem_of_get? hg).2.symm
    · rfl

/-- A launch brings nobody in. -/
theorem id_of_mem_launch (ht : t ∈ (host.launch around id).registry.sessions) :
    ∃ s ∈ host.registry.sessions, s.id = t.id := by
  rcases launch_outcome host around id with hl | ⟨session, -, ⟨pid, -, hl⟩ | ⟨fault, -, hl⟩⟩
  · rw [hl] at ht
    exact ⟨t, ht, rfl⟩
  · rw [hl] at ht
    have hold := id_of_mem_adopt ht
    exact hold
  · rw [hl] at ht
    have hold := mem_failSession.mp ht
    exact ⟨t, hold.1, rfl⟩

/-- **An attempt brings in the id that it takes**, and no other. -/
theorem id_of_mem_tryConnect {target : ConnectTarget}
    (ht : t ∈ (host.tryConnect around target).2.registry.sessions) :
    (∃ s ∈ host.registry.sessions, s.id = t.id) ∨
      t.id = host.registry.nextId.1 ∧
        (host.tryConnect around target).2.registry.lastId = host.registry.lastId + 1 := by
  rcases tryConnect_cases host around target with ⟨_, _, -, -, hc⟩ | ⟨-, hc⟩
  · rw [hc] at ht
    exact .inl ⟨t, ht, rfl⟩
  rw [hc] at ht ⊢
  have hlast : (host.startSession around target (rootOf around target)).2.registry.lastId =
      host.registry.lastId + 1 := lastId_startSession target _
  rcases startSession_cases host around target (rootOf around target) with
    ⟨popup, hs⟩ | ⟨interpreter, bridge, r, -, -, hs⟩
  · rw [hs] at ht
    exact .inl ⟨t, ht, rfl⟩
  · rw [hs] at ht
    obtain ⟨s, hm, hid⟩ := id_of_mem_launch ht
    rcases mem_of_mem_register hm with rfl | hold
    · exact .inr ⟨hid.symm, hlast⟩
    · exact .inl ⟨s, hold, hid⟩

/-- **A turn brings in the id that it hands out**, and no other. -/
theorem id_of_mem_take (ht : t ∈ (host.take turn).registry.sessions) :
    (∃ s ∈ host.registry.sessions, s.id = t.id) ∨
      turn.connects = true ∧ t.id = host.registry.nextId.1 ∧
        (host.take turn).registry.lastId = host.registry.lastId + 1 := by
  cases turn.effect host with
  | still _ hr => exact .inl ⟨t, hr ▸ ht, rfl⟩
  | attempt _ calls around target _ hc hr =>
    rw [hr] at ht ⊢
    have hids := id_of_mem_tryConnect ht
    exact hids.imp_right fun h => ⟨hc, h⟩
  | disconnect _ root _ hr =>
    rw [hr] at ht
    exact .inl ⟨t, mem_of_mem_disconnect ht, rfl⟩
  | event event => exact .inl (id_of_mem_handleEvent ht)

/-! ## Ids and the last one handed out -/

/-- No session has an id above the last one handed out. -/
def Bounded (host : Host) : Prop :=
  ∀ s ∈ host.registry.sessions, s.id.val.toNat ≤ host.registry.lastId.toNat

/-- **The id has been handed out and is not registered.** -/
structure Spent (host : Host) (id : SessionId) : Prop where
  handedOut : id.val.toNat ≤ host.registry.lastId.toNat
  closed : host.registry.contains id = false

theorem lastId_le_take (room : turn.connects = true → host.registry.lastId.toNat + 1 < 2 ^ 64) :
    host.registry.lastId.toNat ≤ (host.take turn).registry.lastId.toNat := by
  rcases lastId_take host turn with h | ⟨hc, h⟩
  · rw [h]
  · have hnext := Registry.nextId_lastId (room hc)
    rw [h]
    exact Nat.le_trans (Nat.le_succ _) (Nat.le_of_eq hnext.symm)

theorem Bounded.take (h : host.Bounded)
    (room : turn.connects = true → host.registry.lastId.toNat + 1 < 2 ^ 64) :
    (host.take turn).Bounded := by
  intro t ht
  rcases id_of_mem_take ht with ⟨s, hs, hid⟩ | ⟨-, hid, hlast⟩
  · rw [← hid]
    exact Nat.le_trans (h s hs) (lastId_le_take room)
  · rw [hid, hlast]
    exact Nat.le_refl _

/-- **A spent id stays spent**: the id that a turn may bring in is above it. -/
theorem Spent.take (h : host.Spent id)
    (room : turn.connects = true → host.registry.lastId.toNat + 1 < 2 ^ 64) :
    (host.take turn).Spent id := by
  refine ⟨Nat.le_trans h.handedOut (lastId_le_take room), ?_⟩
  rw [Bool.eq_false_iff, ne_eq, Registry.contains_iff]
  rintro ⟨t, ht, rfl⟩
  rcases id_of_mem_take ht with ⟨s, hs, hid⟩ | ⟨hc, hid, -⟩
  · have hregistered := Registry.contains_iff.mpr ⟨s, hs, hid⟩
    exact absurd (h.closed.symm.trans hregistered) (by simp)
  · have hle := h.handedOut
    have hnext : host.registry.nextId.1.val.toNat = host.registry.lastId.toNat + 1 :=
      Registry.nextId_lastId (room hc)
    rw [hid, hnext] at hle
    omega

/-- **An event of a spent id changes nothing.** -/
theorem Spent.handleEvent (h : host.Spent id) (happening : Happening) :
    host.handleEvent { session := id, happening } = host := by
  have hg : host.registry.get? id = none :=
    Option.isNone_iff_eq_none.mp (Option.isSome_eq_false_iff.mp h.closed)
  unfold Host.handleEvent
  rw [hg]

/-! ## Runs -/

theorem room_of_cons {turns : List Turn}
    (room : host.registry.lastId.toNat + attempts (turn :: turns) < 2 ^ 64) :
    (turn.connects = true → host.registry.lastId.toNat + 1 < 2 ^ 64) ∧
      (host.take turn).registry.lastId.toNat + attempts turns < 2 ^ 64 := by
  have hlast := lastId_take_le host turn
  rw [attempts_cons] at room
  refine ⟨fun hc => ?_, by omega⟩
  rw [hc, if_pos rfl] at room
  omega

theorem room_of_append {turns more : List Turn}
    (room : host.registry.lastId.toNat + attempts (turns ++ more) < 2 ^ 64) :
    host.registry.lastId.toNat + attempts turns < 2 ^ 64 ∧
      (host.run turns).registry.lastId.toNat + attempts more < 2 ^ 64 := by
  have hlast := lastId_run_le turns host
  have hcount : attempts (turns ++ more) = attempts turns + attempts more := List.countP_append
  omega

/-- What every turn keeps is kept by a run, as long as the numbers last. -/
theorem run_keeps (kept : Host → Prop)
    (step : ∀ (host : Host) (turn : Turn),
      (turn.connects = true → host.registry.lastId.toNat + 1 < 2 ^ 64) → kept host →
      kept (host.take turn)) :
    ∀ (turns : List Turn) (host : Host),
      host.registry.lastId.toNat + attempts turns < 2 ^ 64 → kept host → kept (host.run turns)
  | [], _, _, h => h
  | turn :: turns, host, room, h => by
    obtain ⟨hroom, hrest⟩ := room_of_cons room
    exact run_keeps kept step turns (host.take turn) hrest (step host turn hroom h)

theorem Bounded.run {turns : List Turn} (h : host.Bounded)
    (room : host.registry.lastId.toNat + attempts turns < 2 ^ 64) : (host.run turns).Bounded :=
  run_keeps Bounded (fun _ _ hroom hb => hb.take hroom) turns host room h

/-- A spent id stays spent in a run. -/
theorem Spent.run {turns : List Turn} (h : host.Spent id)
    (room : host.registry.lastId.toNat + attempts turns < 2 ^ 64) : (host.run turns).Spent id :=
  run_keeps (fun after => after.Spent id) (fun _ _ hroom hs => hs.take hroom) turns host room h

theorem lastId_le_run {turns : List Turn}
    (room : host.registry.lastId.toNat + attempts turns < 2 ^ 64) :
    host.registry.lastId.toNat ≤ (host.run turns).registry.lastId.toNat :=
  run_keeps (fun after => host.registry.lastId.toNat ≤ after.registry.lastId.toNat)
    (fun _ _ hroom h => Nat.le_trans h (lastId_le_take hroom)) turns host room (Nat.le_refl _)

/-! ## Sessions that were opened -/

/-- The turn starts an attempt under the id, whatever becomes of it. -/
def Turn.HandsOut (host : Host) (turn : Turn) (id : SessionId) : Prop :=
  (host.take turn).registry.lastId ≠ host.registry.lastId ∧ id = host.registry.nextId.1

/-- In the course of the run the id was registered, or an attempt was started under it. -/
def Opened (host : Host) (turns : List Turn) (id : SessionId) : Prop :=
  (∃ earlier, earlier <+: turns ∧ (host.run earlier).registry.contains id = true) ∨
    ∃ earlier turn, earlier ++ [turn] <+: turns ∧ turn.HandsOut (host.run earlier) id

/-- What has been opened has been handed out. -/
theorem Opened.handedOut {turns : List Turn} (h : host.Opened turns id) (hb : host.Bounded)
    (room : host.registry.lastId.toNat + attempts turns < 2 ^ 64) :
    id.val.toNat ≤ (host.run turns).registry.lastId.toNat := by
  rcases h with ⟨earlier, ⟨rest, rfl⟩, hc⟩ | ⟨earlier, turn, ⟨rest, rfl⟩, hchanged, rfl⟩
  · obtain ⟨hearlier, hrest⟩ := room_of_append room
    obtain ⟨s, hs, rfl⟩ := Registry.contains_iff.mp hc
    rw [run_append]
    exact Nat.le_trans (hb.run hearlier s hs) (lastId_le_run hrest)
  · obtain ⟨-, hrest⟩ := room_of_append room
    have hlast : (host.run (earlier ++ [turn])).registry.lastId =
        (host.run earlier).registry.lastId + 1 := by
      rw [run_append, run_cons, run_nil]
      exact (lastId_take (host.run earlier) turn).elim (absurd · hchanged) And.right
    have hle := lastId_le_run hrest
    rw [← run_append, hlast] at hle
    exact hle

/-- **Closed sessions stay closed.** Take any run of a host that has been started, and any id that
was registered in it or that an attempt was started under, but that is not registered any more. As
long as the host makes fewer than 2 ^ 64 attempts, the id is never registered again, and no event
that carries it changes anything of the host or tells its surroundings anything. -/
theorem closed_stays_closed (settings : Settings) (store : Option Path)
    (searchPath : Option String) (port : UInt16) {turns more : List Turn} {id : SessionId}
    (few : attempts (turns ++ more) < 2 ^ 64)
    (opened : (start settings store searchPath port).Opened turns id)
    (gone : ((start settings store searchPath port).run turns).registry.contains id = false) :
    ∀ later, later <+: more →
      let host := (start settings store searchPath port).run (turns ++ later)
      host.registry.contains id = false ∧
        ∀ happening, host.handleEvent { session := id, happening } = host := by
  rintro later ⟨rest, rfl⟩ host
  have hzero : (start settings store searchPath port).registry.lastId.toNat = 0 := rfl
  have hbounded : (start settings store searchPath port).Bounded :=
    fun _ hs => absurd hs List.not_mem_nil
  obtain ⟨hturns, hmore⟩ := room_of_append (by rw [hzero, Nat.zero_add]; exact few)
  have hspent : ((start settings store searchPath port).run turns).Spent id :=
    ⟨opened.handedOut hbounded hturns, gone⟩
  have hlater : host.Spent id := by
    show ((start settings store searchPath port).run (turns ++ later)).Spent id
    rw [run_append]
    exact hspent.run (room_of_append hmore).1
  exact ⟨hlater.closed, hlater.handleEvent⟩

/-- A session that was disconnected stays closed when its root is connected again, and the marker
that its process still prints is ignored. -/
theorem closed_after_a_reconnection :
    let connect : Turn := .tryConnect .furnished { origin := none, path := some ⟨"/work"⟩ }
    let host := (start .fresh none none 0).run ([connect, .disconnect ⟨"/work"⟩] ++ [connect])
    host.registry.contains ⟨1⟩ = false ∧ host.registry.contains ⟨2⟩ = true ∧
      host.handleEvent { session := ⟨1⟩, happening := .stdout "Connected" } = host := by
  intro connect host
  let before : List Turn := [connect, .disconnect ⟨"/work"⟩]
  have few : attempts (before ++ [connect]) < 2 ^ 64 := by decide
  have opened : (start .fresh none none 0).Opened before ⟨1⟩ :=
    .inl ⟨[connect], ⟨[.disconnect ⟨"/work"⟩], rfl⟩, by decide +kernel⟩
  have gone : ((start .fresh none none 0).run before).registry.contains ⟨1⟩ = false := by
    decide +kernel
  obtain ⟨hclosed, hignored⟩ :=
    closed_stays_closed .fresh none none 0 few opened gone [connect] (List.prefix_refl _)
  exact ⟨hclosed, by decide +kernel, hignored _⟩

end Host

end InlineRepl
