import InlineRepl.Proofs.Host.Agreement

/-!
# Lives of a host

A host that ends all its sessions can be used again afterwards. `Host.live` is a run in which this
happens anywhere and any number of times: each `Host.Deed` is a turn or a shutdown. What is said of
every state that a host can be in is said of lives.

Results:
* `shutdown_keeps`: what letting one session go keeps is kept by a shutdown.
* `live_keeps`: what every deed keeps is kept by a life.
* `Coherent.live`: a life keeps the stores of a host in agreement, as long as ids are left.
-/

namespace InlineRepl

namespace Host

variable {host : Host} {id : SessionId}

/-- One thing that happens to a host: it takes a turn, or ends every session. -/
inductive Deed where
  | take (turn : Turn)
  | shutdown

namespace Deed

/-- The answers of the surroundings that a deed asks for. -/
def around? : Deed → Option Surroundings
  | .take turn => turn.around?
  | .shutdown => none

/-- A deed makes the host try to connect. -/
def connects : Deed → Bool
  | .take turn => turn.connects
  | .shutdown => false

end Deed

/-- Does one thing. -/
def act (host : Host) : Deed → Host
  | .take turn => host.take turn
  | .shutdown => host.shutdown

/-- Does one thing after the other. -/
def live (host : Host) (deeds : List Deed) : Host :=
  deeds.foldl act host

/-- The number of connection attempts among deeds. -/
def tries (deeds : List Deed) : Nat :=
  deeds.countP Deed.connects

@[simp] theorem live_cons (host : Host) (deed : Deed) (deeds : List Deed) :
    host.live (deed :: deeds) = (host.act deed).live deeds := rfl

theorem tries_cons (deed : Deed) (deeds : List Deed) :
    tries (deed :: deeds) = tries deeds + if deed.connects then 1 else 0 :=
  List.countP_cons

/-! ## Shutdowns -/

/-- **What letting one session go keeps** is kept by a shutdown. -/
theorem shutdown_keeps (kept : Host → Prop)
    (step : ∀ (host : Host) (id : SessionId), kept host → kept ((host.closeLane id).release id))
    (h : kept host) : kept host.shutdown :=
  List.foldlRecOn _ _ h fun host hk id _ => step host id hk

theorem lastId_shutdown (host : Host) :
    host.shutdown.registry.lastId = host.registry.lastId :=
  shutdown_keeps (fun after => after.registry.lastId = host.registry.lastId)
    (fun _ _ h => lastId_release.trans h) rfl

/-- Letting an id go that is not registered changes nothing. -/
theorem Coherent.release_unregistered (h : host.Coherent none)
    (hg : host.registry.get? id = none) : (host.closeLane id).release id = host := by
  have hcur : host.server.current? id = none := by
    cases hc : host.server.current? id with
    | none => rfl
    | some lane =>
      obtain ⟨s, hs, rfl⟩ := h.registered id lane hc
      exact absurd (hg.symm.trans (h.indexed.get?_eq_some_iff.mpr ⟨hs, rfl⟩)) nofun
  have hclose : host.closeLane id = host := by
    unfold closeLane ControlServer.remove
    rw [hcur]
  have hremove : host.registry.remove id = none := by
    unfold Registry.remove
    rw [hg]
  rw [hclose]
  unfold Host.release
  rw [hremove]

theorem Coherent.shutdown (h : host.Coherent none) : host.shutdown.Coherent none := by
  refine shutdown_keeps (fun after => after.Coherent none) (fun after id ha => ?_) h
  cases hg : after.registry.get? id with
  | none => exact (ha.release_unregistered hg).symm ▸ ha
  | some session =>
    obtain ⟨hm, rfl⟩ := ha.indexed.get?_eq_some_iff.mp hg
    exact ha.release hm (.inl rfl)

/-! ## Lives -/

/-- **What every deed keeps is kept by a life.** -/
theorem live_keeps (kept : Host → Prop)
    (step : ∀ (host : Host) (deed : Deed), kept host → kept (host.act deed)) (deeds : List Deed)
    (h : kept host) : kept (host.live deeds) :=
  List.foldlRecOn _ _ h fun host hk deed _ => step host deed hk

theorem lastId_act_le (host : Host) (deed : Deed) :
    (host.act deed).registry.lastId.toNat ≤
      host.registry.lastId.toNat + if deed.connects then 1 else 0 := by
  cases deed with
  | take turn => exact lastId_take_le host turn
  | shutdown => exact (congrArg UInt64.toNat (lastId_shutdown host)).le

/-- A life hands out no more ids than it makes attempts. -/
theorem lastId_live_le : ∀ (deeds : List Deed) (host : Host),
    (host.live deeds).registry.lastId.toNat ≤ host.registry.lastId.toNat + tries deeds
  | [], _ => Nat.le_refl _
  | deed :: deeds, host => by
    have hact := lastId_act_le host deed
    have hrest := lastId_live_le deeds (host.act deed)
    rw [live_cons, tries_cons]
    omega

theorem Coherent.act (h : host.Coherent none) {deed : Deed}
    (found : ∀ around, deed.around? = some around → around.NamesWhatItFinds)
    (room : deed.connects = true → host.registry.lastId.toNat + 1 < 2 ^ 64) :
    (host.act deed).Coherent none := by
  cases deed with
  | take turn => exact h.take found room
  | shutdown => exact h.shutdown

/-- **A life keeps the stores of a host in agreement**, as long as ids are left. -/
theorem Coherent.live : ∀ (deeds : List Deed) {host : Host}, host.Coherent none →
    (∀ deed ∈ deeds, ∀ around, deed.around? = some around → around.NamesWhatItFinds) →
    host.registry.lastId.toNat + tries deeds < 2 ^ 64 → (host.live deeds).Coherent none
  | [], _, h, _, _ => h
  | deed :: deeds, host, h, found, room => by
    have hlast := lastId_act_le host deed
    rw [tries_cons] at room
    have hact : (host.act deed).Coherent none := by
      refine h.act (found deed List.mem_cons_self) fun hc => ?_
      rw [hc, if_pos rfl] at room
      omega
    refine Coherent.live deeds hact
      (fun other hm => found other (List.mem_cons_of_mem _ hm)) ?_
    omega

/-- **Every state that a host can be in** is coherent, and another attempt has an id left, as long
as there have been fewer than 2 ^ 64 - 1 of them. -/
theorem reached_coherent (settings : Settings) (store : Option Path) (searchPath : Option String)
    (port : UInt16) {deeds : List Deed}
    (found : ∀ deed ∈ deeds, ∀ around, deed.around? = some around → around.NamesWhatItFinds)
    (few : tries deeds + 1 < 2 ^ 64) :
    let host := (start settings store searchPath port).live deeds
    host.Coherent none ∧ host.registry.lastId.toNat + 1 < 2 ^ 64 := by
  have hzero : (start settings store searchPath port).registry.lastId.toNat = 0 := rfl
  have hlast := lastId_live_le deeds (start settings store searchPath port)
  exact ⟨(start_coherent settings store searchPath port).live deeds found (by omega), by omega⟩

end Host

end InlineRepl
