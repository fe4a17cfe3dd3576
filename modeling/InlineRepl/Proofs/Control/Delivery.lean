import InlineRepl.Proofs.Control.Exchange

/-!
# Requests reach one bridge, in order and at most once

Whatever order the parties act in, the requests written for a lane are the first of those accepted
for it, in the order of the sends, and one connection gets all of them: the one whose greeting
claimed the lane, which no other greeting ever does. A greeting that claims nothing changes nothing,
and its connection stays silent for good.

`Exchange.Faithful` is the invariant: each lane's queue is what the history says of it, and whatever
is written or emitted comes from a connection that has claimed something.

Results:
* `Faithful.step`: every move keeps an exchange faithful.
* `Faithful.drained`: nothing keeps an attached connection from being written all that is accepted.
* `silent_run`: a connection that has claimed nothing is never written to and emits nothing.
* `requests_reach_one_bridge_in_order`: the theorem above, for every sequence of moves.
-/

namespace InlineRepl.Exchange

variable {x : Exchange} {n c : Nat}

/-! ## Histories -/

@[simp] theorem acceptedOn_server (server : ControlServer) :
    { x with server }.acceptedOn n = x.acceptedOn n := rfl

@[simp] theorem writtenOn_server (server : ControlServer) :
    { x with server }.writtenOn n = x.writtenOn n := rfl

theorem acceptedOn_snoc (server : ControlServer) (m : Nat) (request : EvalRequest) :
    { x with server, accepted := x.accepted ++ [(m, request)] }.acceptedOn n =
      x.acceptedOn n ++ if m = n then [request] else [] := by
  unfold acceptedOn
  rw [List.filterMap_append]
  congr 1
  by_cases h : m = n <;> simp [h]

theorem writtenOn_snoc (server : ControlServer) (writing : Writing) :
    { x with server, written := x.written ++ [writing] }.writtenOn n =
      x.writtenOn n ++ if writing.lane = n then [writing.request] else [] := by
  unfold writtenOn
  rw [List.filterMap_append]
  congr 1
  by_cases h : writing.lane = n <;> simp [h]

/-! ## The invariant -/

/-- The queue of a lane is what has been accepted for it, and the bridge has been sent the first of
them. -/
structure Queued (lane : Lane) (accepted written : List EvalRequest) : Prop where
  accepted : accepted = lane.accepted
  written : written = lane.accepted.take lane.written
  bound : lane.written ≤ lane.accepted.length

/-- **The server is what its history says.** -/
structure Faithful (x : Exchange) : Prop where
  queued : ∀ (n : Nat) (lane : Lane), x.server.lanes[n]? = some lane →
    Queued lane (x.acceptedOn n) (x.writtenOn n)
  /-- Nothing has happened on a lane that is not there yet. -/
  unused : ∀ n : Nat, x.server.lanes.length ≤ n → x.acceptedOn n = [] ∧ x.writtenOn n = []
  /-- A lane that has been claimed awaits nobody. -/
  claimed : ∀ c n : Nat, x.claims[c]? = some (some n) →
    ∃ lane : Lane, x.server.lanes[n]? = some lane ∧ lane.reader ≠ .awaited
  once : ∀ c d n : Nat, x.claims[c]? = some (some n) → x.claims[d]? = some (some n) → c = d
  /-- Requests are written on the connection that has claimed their lane. -/
  writer : ∀ writing ∈ x.written, x.claims[writing.connection]? = some (some writing.lane)
  /-- Events come from connections that have claimed something. -/
  speaker : ∀ event ∈ x.events, ∃ n : Nat, x.claims[event.1]? = some (some n)

theorem faithful_start : Faithful {} where
  queued := fun _ _ h => absurd h (by simp)
  unused := fun _ _ => ⟨rfl, rfl⟩
  claimed := fun _ _ h => absurd h (by simp)
  once := fun _ _ _ h => absurd h (by simp)
  writer := fun _ h => absurd h List.not_mem_nil
  speaker := fun _ h => absurd h List.not_mem_nil

/-- A lane as it was, but for its being open and for who has left it. -/
structure Kept (old lane : Lane) : Prop where
  accepted : lane.accepted = old.accepted
  written : lane.written = old.written
  reader : old.reader ≠ .awaited → lane.reader ≠ .awaited

theorem Kept.refl (lane : Lane) : Kept lane lane := ⟨rfl, rfl, id⟩

/-- Every lane keeps its queue, and lanes that are new have an empty one. -/
structure Keeps (server after : ControlServer) : Prop where
  length : server.lanes.length ≤ after.lanes.length
  kept : ∀ (n : Nat) (old : Lane), server.lanes[n]? = some old →
    ∃ lane, after.lanes[n]? = some lane ∧ Kept old lane
  fresh : ∀ (n : Nat) (lane : Lane), server.lanes.length ≤ n → after.lanes[n]? = some lane →
    lane.accepted = [] ∧ lane.written = 0

theorem Faithful.of_keeps (h : x.Faithful) {after : ControlServer} (hk : Keeps x.server after) :
    { x with server := after }.Faithful := by
  refine ⟨fun n lane hl => ?_, fun n hn => h.unused n (Nat.le_trans hk.length hn), ?_, h.once,
    h.writer,
    h.speaker⟩
  · cases ho : x.server.lanes[n]? with
    | none =>
      have hn := List.getElem?_eq_none_iff.mp ho
      obtain ⟨ha, hw⟩ := hk.fresh n lane hn hl
      obtain ⟨hua, huw⟩ := h.unused n hn
      refine ⟨hua.trans ha.symm, ?_, by rw [hw]; exact Nat.zero_le _⟩
      rw [writtenOn_server, huw, ha, hw]
      rfl
    | some old =>
      obtain ⟨next, hnext, hkept⟩ := hk.kept n old ho
      obtain rfl := Option.some.inj (hl.symm.trans hnext)
      obtain ⟨ha, hw, hb⟩ := h.queued n old ho
      refine ⟨?_, ?_, ?_⟩
      · rw [hkept.accepted]
        exact ha
      · rw [hkept.accepted, hkept.written]
        exact hw
      · rw [hkept.accepted, hkept.written]
        exact hb
  · intro c n hc
    obtain ⟨old, ho, hr⟩ := h.claimed c n hc
    obtain ⟨lane, hl, hkept⟩ := hk.kept n old ho
    exact ⟨lane, hl, hkept.reader hr⟩

/-! ## What keeps queues -/

theorem keeps_update (server : ControlServer) (m : Nat) {f : Lane → Lane}
    (hf : ∀ lane, Kept lane (f lane)) : Keeps server (server.update m f) := by
  refine ⟨Nat.le_of_eq (ControlServer.length_update f).symm, fun n old ho => ?_,
    fun n lane hn hl => ?_⟩
  · rw [ControlServer.lanes_update, ho]
    split
    · exact ⟨f old, rfl, hf old⟩
    · exact ⟨old, rfl, .refl old⟩
  · have hlt := (List.getElem?_eq_some_iff.mp hl).1
    rw [ControlServer.length_update] at hlt
    omega

theorem keeps_closeCurrent (server : ControlServer) (id : SessionId) :
    Keeps server (server.closeCurrent id) := by
  unfold ControlServer.closeCurrent
  split
  · exact keeps_update server _ fun lane => ⟨rfl, rfl, fun hr => hr⟩
  · exact ⟨Nat.le_refl _, fun n old ho => ⟨old, ho, .refl old⟩, fun n lane hn hl =>
      absurd (List.getElem?_eq_some_iff.mp hl).1 (by omega)⟩

theorem keeps_open_ (server : ControlServer) (id : SessionId) :
    Keeps server (server.open_ id).2 := by
  have hc := keeps_closeCurrent server id
  refine ⟨?_, fun n old ho => ?_, fun n lane hn hl => ?_⟩
  · show server.lanes.length ≤
      ((server.closeCurrent id).lanes ++ [({ session := id } : Lane)]).length
    rw [List.length_append, ControlServer.length_closeCurrent]
    omega
  · have hlt := (List.getElem?_eq_some_iff.mp ho).1
    rw [ControlServer.lanes_open_, if_neg (by omega)]
    exact hc.kept n old ho
  · rw [ControlServer.lanes_open_] at hl
    split at hl
    · obtain rfl := Option.some.inj hl
      exact ⟨rfl, rfl⟩
    · exact hc.fresh n lane hn hl

theorem keeps_remove (server : ControlServer) (id : SessionId) :
    Keeps server (server.remove id).2 := by
  have hc := keeps_closeCurrent server id
  have hlength : (server.remove id).2.lanes.length = server.lanes.length := by
    unfold ControlServer.remove
    split
    · exact ControlServer.length_update _
    · rfl
  refine ⟨Nat.le_of_eq hlength.symm, fun n old ho => ?_, fun n lane hn hl => ?_⟩
  · rw [ControlServer.lanes_remove]
    exact hc.kept n old ho
  · have := (List.getElem?_eq_some_iff.mp hl).1
    omega

theorem keeps_hangUp (server : ControlServer) (m : Nat) : Keeps server (server.hangUp m) := by
  refine keeps_update server m fun lane => ?_
  split
  · exact ⟨rfl, rfl, fun _ => nofun⟩
  · exact .refl lane

/-! ## Steps -/

/-- Adding an event of a connection that has claimed something. -/
theorem Faithful.emit (h : x.Faithful) (hc : x.claims[c]? = some (some n)) (event : SessionEvent) :
    { x with events := x.events ++ [(c, event)] }.Faithful := by
  refine ⟨h.queued, h.unused, h.claimed, h.once, h.writer, fun e he => ?_⟩
  rcases List.mem_append.mp he with he | he
  · exact h.speaker e he
  · obtain rfl := List.mem_singleton.mp he
    exact ⟨n, hc⟩

/-- **An accepted request** joins the end of its lane's queue. -/
theorem Faithful.send (h : x.Faithful) {client : Client} {request : EvalRequest}
    {server : ControlServer} (hs : x.server.send client request = .ok server) :
    { x with server, accepted := x.accepted ++ [(client.lane, request)] }.Faithful := by
  obtain ⟨own, hown, rfl⟩ := ControlServer.send_ok hs
  refine ⟨fun n lane hl => ?_, fun n hn => ?_, fun c n hc => ?_, h.once, h.writer, h.speaker⟩
  · rw [acceptedOn_snoc]
    rw [ControlServer.lanes_update] at hl
    split at hl
    · rename_i hn
      obtain ⟨old, ho, rfl⟩ := Option.map_eq_some_iff.mp hl
      obtain ⟨ha, hw, hb⟩ := h.queued n old ho
      refine ⟨?_, ?_, ?_⟩
      · rw [if_pos hn, ha]
      · show x.writtenOn n = (old.accepted ++ [request]).take old.written
        rw [List.take_append_of_le_length hb, hw]
      · show old.written ≤ (old.accepted ++ [request]).length
        rw [List.length_append]
        omega
    · rename_i hn
      rw [if_neg hn, List.append_nil]
      exact h.queued n lane hl
  · rw [ControlServer.length_update] at hn
    have hlt := (List.getElem?_eq_some_iff.mp hown).1
    rw [acceptedOn_snoc, if_neg (by omega), List.append_nil]
    exact h.unused n hn
  · obtain ⟨old, ho, hr⟩ := h.claimed c n hc
    rw [ControlServer.lanes_update, ho]
    split
    · exact ⟨_, rfl, hr⟩
    · exact ⟨old, rfl, hr⟩

/-- **A written request** is the next of its lane's queue, and the connection that has claimed the
lane gets it. -/
theorem Faithful.write (h : x.Faithful) (hc : x.claims[c]? = some (some n)) {request : EvalRequest}
    {server : ControlServer} (ht : x.server.transmit n = some (request, server)) :
    { x with server, written := x.written ++ [Writing.mk c n request] }.Faithful := by
  obtain ⟨own, hown, hnext, rfl⟩ := ControlServer.transmit_some ht
  refine ⟨fun m lane hl => ?_, fun m hm => ?_, fun d m hd => ?_, h.once, fun w hw => ?_, h.speaker⟩
  · rw [writtenOn_snoc]
    rw [ControlServer.lanes_update] at hl
    split at hl
    · rename_i hm
      obtain ⟨old, ho, rfl⟩ := Option.map_eq_some_iff.mp hl
      obtain ⟨ha, hw, hb⟩ := h.queued m old ho
      subst hm
      obtain rfl := Option.some.inj (hown.symm.trans ho)
      refine ⟨ha, ?_, (List.getElem?_eq_some_iff.mp hnext).1⟩
      show x.writtenOn n ++ (if n = n then [request] else []) = own.accepted.take (own.written + 1)
      rw [if_pos rfl, hw, List.take_add_one, hnext]
      rfl
    · rename_i hm
      rw [if_neg hm, List.append_nil]
      exact h.queued m lane hl
  · rw [ControlServer.length_update] at hm
    have hlt := (List.getElem?_eq_some_iff.mp hown).1
    rw [writtenOn_snoc, if_neg (show n ≠ m by omega), List.append_nil]
    exact h.unused m hm
  · obtain ⟨old, ho, hr⟩ := h.claimed d m hd
    rw [ControlServer.lanes_update, ho]
    split
    · exact ⟨_, rfl, hr⟩
    · exact ⟨old, rfl, hr⟩
  · rcases List.mem_append.mp hw with hw | hw
    · exact h.writer w hw
    · obtain rfl := List.mem_singleton.mp hw
      exact hc

theorem claims_snoc {claims : List (Option Nat)} {last : Option Nat}
    (hc : claims[c]? = some (some n)) :
    (claims ++ [last])[c]? = some (some n) := by
  rw [List.getElem?_append_left (List.getElem?_eq_some_iff.mp hc).1, hc]

theorem claims_snoc_cases {claims : List (Option Nat)} {last : Option Nat}
    (hc : (claims ++ [last])[c]? = some (some n)) :
    claims[c]? = some (some n) ∨ c = claims.length ∧ last = some n := by
  rw [List.getElem?_append] at hc
  split at hc
  · exact .inl hc
  · rename_i hlt
    obtain ⟨hsingle, he⟩ := List.getElem?_eq_some_iff.mp hc
    have hzero : c - claims.length = 0 := by simpa using hsingle
    simp only [hzero, List.getElem_cons_zero] at he
    exact .inr ⟨by omega, he⟩

/-- A connection that greets in vain is one more that has claimed nothing. -/
theorem Faithful.refuse (h : x.Faithful) : { x with claims := x.claims ++ [none] }.Faithful := by
  have hold : ∀ {c n : Nat}, (x.claims ++ [none])[c]? = some (some n) →
      x.claims[c]? = some (some n) := by
    intro c n hc
    rcases claims_snoc_cases hc with hc | ⟨-, hn⟩
    · exact hc
    · exact absurd hn nofun
  refine ⟨h.queued, h.unused, fun c n hc => h.claimed c n (hold hc),
    fun c d n hc hd => h.once c d n (hold hc) (hold hd), fun w hw => claims_snoc (h.writer w hw),
    fun e he => ?_⟩
  obtain ⟨n, hn⟩ := h.speaker e he
  exact ⟨n, claims_snoc hn⟩

/-- **A greeting that succeeds** claims a lane that nobody has claimed before. -/
theorem Faithful.claim (h : x.Faithful) {hello : Hello} {server : ControlServer}
    (hg : x.server.greet hello = some (n, server)) :
    { x with server, claims := x.claims ++ [some n] }.Faithful := by
  obtain ⟨own, -, hown, hawaited, rfl⟩ := ControlServer.greet_some hg
  have hfree : ∀ c : Nat, x.claims[c]? ≠ some (some n) := by
    intro c hc
    obtain ⟨lane, hl, hr⟩ := h.claimed c n hc
    obtain rfl := Option.some.inj (hown.symm.trans hl)
    exact hr hawaited
  have hk := h.of_keeps (keeps_update x.server n (f := fun l => { l with reader := .attached })
    fun lane => ⟨rfl, rfl, fun _ => nofun⟩)
  refine ⟨hk.queued, hk.unused, fun c m hc => ?_, fun c d m hc hd => ?_,
    fun w hw => claims_snoc (h.writer w hw), fun e he => ?_⟩
  · rcases claims_snoc_cases hc with hc | ⟨-, hm⟩
    · exact hk.claimed c m hc
    · obtain rfl := Option.some.inj hm
      refine ⟨{ own with reader := .attached }, ?_, nofun⟩
      show (x.server.update n _).lanes[n]? = _
      rw [ControlServer.lanes_update, if_pos rfl, hown]
      rfl
  · rcases claims_snoc_cases hc with hc | ⟨rfl, hm⟩ <;>
      rcases claims_snoc_cases hd with hd | ⟨rfl, hm'⟩
    · exact h.once c d m hc hd
    · obtain rfl := Option.some.inj hm'
      exact absurd hc (hfree c)
    · obtain rfl := Option.some.inj hm
      exact absurd hd (hfree d)
    · rfl
  · obtain ⟨m, hm⟩ := h.speaker e he
    exact ⟨m, claims_snoc hm⟩

/-- **Every move keeps an exchange faithful.** -/
theorem Faithful.step (h : x.Faithful) (move : Move) : (x.step move).Faithful := by
  cases move with
  | open_ session => exact h.of_keeps (keeps_open_ x.server session)
  | remove session => exact h.of_keeps (keeps_remove x.server session)
  | send client request =>
    simp only [Exchange.step]
    split
    · rename_i hs
      exact h.send hs
    · exact h
  | greet hello =>
    simp only [Exchange.step]
    split
    · rename_i n server hg
      refine (h.claim hg).emit (n := n) ?_ _
      show (x.claims ++ [some n])[x.claims.length]? = _
      simp
    · exact h.refuse
  | write connection =>
    simp only [Exchange.step]
    split
    · rename_i ha
      split
      · rename_i ht
        exact h.write (attached?_eq_some_iff.mp ha).1 ht
      · exact h
    · exact h
  | respond connection record =>
    simp only [Exchange.step]
    split
    · rename_i ha
      exact h.emit (attached?_eq_some_iff.mp ha).1 _
    · exact h
  | lose connection =>
    simp only [Exchange.step]
    split
    · rename_i ha
      exact (h.of_keeps (keeps_hangUp x.server _)).emit (attached?_eq_some_iff.mp ha).1 _
    · exact h

theorem Faithful.run (h : x.Faithful) (moves : List Move) : (x.run moves).Faithful := by
  induction moves generalizing x with
  | nil => exact h
  | cons move moves ih => exact ih (h.step move)

/-! ## Connections that have claimed nothing -/

/-- What a connection has claimed never changes. -/
theorem claims_step (move : Exchange.Move) :
    ∃ more, (x.step move).claims = x.claims ++ more := by
  cases move with
  | open_ session => exact ⟨[], (List.append_nil _).symm⟩
  | remove session => exact ⟨[], (List.append_nil _).symm⟩
  | greet hello =>
    simp only [Exchange.step]
    split
    · exact ⟨_, rfl⟩
    · exact ⟨_, rfl⟩
  | send client request =>
    refine ⟨[], ?_⟩
    simp only [Exchange.step, List.append_nil]
    split <;> rfl
  | write connection =>
    refine ⟨[], ?_⟩
    simp only [Exchange.step, List.append_nil]
    split
    · split <;> rfl
    · rfl
  | respond connection record =>
    refine ⟨[], ?_⟩
    simp only [Exchange.step, List.append_nil]
    split <;> rfl
  | lose connection =>
    refine ⟨[], ?_⟩
    simp only [Exchange.step, List.append_nil]
    split <;> rfl

theorem unclaimed_run (moves : List Exchange.Move) (hc : x.claims[c]? = some none) :
    (x.run moves).claims[c]? = some none := by
  induction moves generalizing x with
  | nil => exact hc
  | cons move moves ih =>
    obtain ⟨more, hmore⟩ := claims_step (x := x) move
    refine ih ?_
    rw [hmore, List.getElem?_append_left (List.getElem?_eq_some_iff.mp hc).1, hc]

/-- **A connection that has claimed nothing** is never written to and emits nothing. -/
theorem Faithful.silent_run (h : x.Faithful) {moves : List Exchange.Move}
    (hc : x.claims[c]? = some none) :
    (∀ writing ∈ (x.run moves).written, writing.connection ≠ c) ∧
      ∀ event ∈ (x.run moves).events, event.1 ≠ c := by
  have hlater := h.run moves
  have hnone := unclaimed_run moves hc
  constructor
  · rintro writing hw rfl
    rw [hlater.writer writing hw] at hnone
    exact absurd hnone (by simp)
  · rintro event he rfl
    obtain ⟨n, hn⟩ := hlater.speaker event he
    rw [hn] at hnone
    exact absurd hnone (by simp)

/-! ## Delivery -/

theorem Faithful.written_prefix (h : x.Faithful) (n : Nat) : x.writtenOn n <+: x.acceptedOn n := by
  cases hl : x.server.lanes[n]? with
  | none =>
    rw [(h.unused n (List.getElem?_eq_none_iff.mp hl)).2]
    exact List.nil_prefix
  | some lane =>
    obtain ⟨ha, hw, -⟩ := h.queued n lane hl
    rw [hw, ha]
    exact List.take_prefix _ _

/-- **What is pending can be written**: as long as the queue of an attached connection holds a
request that it has not been sent, it is written the next one, and stays attached. -/
theorem attached?_write {lane : Lane} (ha : x.attached? c = some (n, lane))
    (hpending : lane.written < lane.accepted.length) :
    (x.step (.write c)).attached? c = some (n, { lane with written := lane.written + 1 }) ∧
      (x.step (.write c)).acceptedOn n = x.acceptedOn n := by
  obtain ⟨hc, hl, hr⟩ := attached?_eq_some_iff.mp ha
  have hsent := ControlServer.transmit_next hl hr (List.getElem?_eq_getElem hpending)
  have hstep : x.step (.write c) =
      { x with
        server := x.server.update n fun l => { l with written := l.written + 1 }
        written := x.written ++ [⟨c, n, lane.accepted[lane.written]⟩] } := by
    simp only [Exchange.step, ha, hsent]
  rw [hstep]
  refine ⟨attached?_eq_some_iff.mpr ⟨hc, ?_, hr⟩, rfl⟩
  show (x.server.update n _).lanes[n]? = _
  rw [ControlServer.lanes_update, if_pos rfl, hl]
  rfl

/-- **Everything accepted for an attached connection is written**, if it is written to often enough:
once for every request that is pending. -/
theorem Faithful.drained (h : x.Faithful) {lane : Lane} (ha : x.attached? c = some (n, lane)) :
    (x.run (List.replicate (lane.accepted.length - lane.written) (.write c))).writtenOn n =
      x.acceptedOn n := by
  -- on the number of requests that are pending: each write takes one of them
  induction hk : lane.accepted.length - lane.written generalizing x lane with
  | zero =>
    obtain ⟨haccepted, hwritten, -⟩ := h.queued n lane (attached?_eq_some_iff.mp ha).2.1
    show x.writtenOn n = _
    rw [hwritten, haccepted, List.take_of_length_le (Nat.le_of_sub_eq_zero hk)]
  | succ k ih =>
    obtain ⟨hnext, haccepted⟩ := attached?_write ha (by omega)
    rw [List.replicate_succ, run_cons, ← haccepted]
    refine ih (h.step _) hnext ?_
    show lane.accepted.length - (lane.written + 1) = k
    omega

theorem Faithful.one_connection (h : x.Faithful) {one other : Writing} (ho : one ∈ x.written)
    (hother : other ∈ x.written) (hl : one.lane = other.lane) :
    one.connection = other.connection :=
  h.once _ _ _ (h.writer one ho) (hl ▸ h.writer other hother)

/-- A greeting is in vain for an id that is not open, and for one whose lane has been claimed. -/
theorem Faithful.greet_none (h : x.Faithful) {hello : Hello}
    (hv : x.server.contains hello.session = false ∨
      ∃ c n : Nat, x.server.current? hello.session = some n ∧ x.claims[c]? = some (some n)) :
    x.server.greet hello = none := by
  refine ControlServer.greet_none (hv.imp_right ?_)
  rintro ⟨c, n, hcur, hc⟩
  obtain ⟨lane, hl, hr⟩ := h.claimed c n hc
  exact ⟨n, lane, hcur, hl, hr⟩

/-- **Requests reach one bridge, in order and at most once**, whatever the parties do.

What has been written for a lane is a prefix of what has been accepted for it, all on one
connection, and no two greetings claim one lane. As long as a connection is attached to the lane,
nothing keeps the rest from being written to it, request by request. A client that is opened starts
with nothing accepted, also when its id has been open before. A greeting for an id that is not open,
or whose lane has been claimed, leaves everything as it is, but for its connection being one more;
nothing is ever written to this connection, and nothing comes of it. -/
theorem requests_reach_one_bridge_in_order (moves : List Move) :
    let x := ({} : Exchange).run moves
    (∀ n, x.writtenOn n <+: x.acceptedOn n) ∧
      (∀ one ∈ x.written, ∀ other ∈ x.written,
        one.lane = other.lane → one.connection = other.connection) ∧
      (∀ c d n : Nat, x.claims[c]? = some (some n) → x.claims[d]? = some (some n) → c = d) ∧
      (∀ c n lane, x.attached? c = some (n, lane) → ∃ times,
        (x.run (List.replicate times (.write c))).writtenOn n = x.acceptedOn n) ∧
      (∀ id, x.acceptedOn (x.server.open_ id).1.lane = []) ∧
      ∀ hello : Hello,
        (isOpenAfter hello.session moves = false ∨
          ∃ c n : Nat, x.server.current? hello.session = some n ∧ x.claims[c]? = some (some n)) →
        x.step (.greet hello) = { x with claims := x.claims ++ [none] } ∧
          (∀ bytes lines, Bridge.greeting (Text.cutLines 0x0A bytes) = some (hello, lines) →
            Bridge.serve x.server bytes = ([], x.server)) ∧
          ∀ more,
            (∀ writing ∈ ((x.step (.greet hello)).run more).written,
              writing.connection ≠ x.claims.length) ∧
            ∀ event ∈ ((x.step (.greet hello)).run more).events, event.1 ≠ x.claims.length := by
  intro x
  have h : x.Faithful := faithful_start.run moves
  refine ⟨h.written_prefix, fun one ho other hother => h.one_connection ho hother, h.once,
    fun _ _ _ ha => ⟨_, h.drained ha⟩, fun id => (h.unused _ (Nat.le_refl _)).1, fun hello hv => ?_⟩
  have hnone : x.server.greet hello = none := by
    refine h.greet_none (hv.imp_left fun hopen => ?_)
    rw [contains_run]
    exact hopen
  have hstep : x.step (.greet hello) = { x with claims := x.claims ++ [none] } := by
    simp only [Exchange.step, hnone]
  refine ⟨hstep, fun bytes lines hb => ?_, fun more => ?_⟩
  · unfold Bridge.serve
    rw [hb]
    dsimp only
    rw [hnone]
  · rw [hstep]
    refine h.refuse.silent_run ?_
    show (x.claims ++ [none])[x.claims.length]? = _
    simp

end InlineRepl.Exchange
