import Skull.Endpoint.Runs

namespace Skull

open Machines

/-!
# How a pool represents its endpoints

The counters, the lists and the scratch list of the two managers are changed in different places.
They agree in every state of every run:

* `EpPool.Represented` — what they say, of the endpoints that exist;
* `EpPool.Effect.nep` — what a step does to the counter of a manager;
* `EpPool.represented_of_reach` — the representation is right in every state reached.
-/

namespace EpPool

variable {p p' : EpPool} {a : EpAction}

/-- **How a pool represents its endpoints.** -/
structure Represented (p : EpPool) : Prop where
  /-- The counter is the number of endpoints in all lists. -/
  counted : ∀ type, (p.mgr type).nep = (p.mgr type).total
  bounded : ∀ type, 0 ≤ (p.mgr type).nep ∧ (p.mgr type).nep ≤ (p.mgr type).max
  /-- An endpoint is in one list of its manager, once: that of its own keys. -/
  listed : ∀ x e, p.eps x = some e → ∀ type key,
    ((p.mgr type).epList key).count x = if type = e.type ∧ key = e.key then 1 else 0
  existing : ∀ type key, ∀ x ∈ (p.mgr type).epList key, (p.eps x).isSome
  /-- When no callback runs, the counter of an endpoint is the length of its list. -/
  ntxn : p.stack = [] → ∀ x e, p.eps x = some e → e.ntxn = e.txns.length ∧ e.ntxn ≤ 1
  tmp : ∀ type, (p.mgr type).tmp = []
  /-- `_remove_ep` takes one endpoint out of its list, and keeps the others in their order. -/
  removes : ∀ x e, p.eps x = some e → ∀ key,
    ((p.mgr e.type).removeEp e.key x).epList key =
        (if key = e.key then ((p.mgr e.type).epList e.key).erase x else (p.mgr e.type).epList key) ∧
      ((p.mgr e.type).removeEp e.key x).tmp = []

/-! ### The counters -/

/-- A manager counts no less than nothing. -/
theorem total_nonneg (m : EpMgr) : 0 ≤ m.total :=
  Dict.sum_nonneg (fun _ ipm => Dict.sum_nonneg (fun _ _ => Int.natCast_nonneg _) ipm) m.ee

/-- What happens to the counter of a manager: it stays or falls, or one is added to a counter below
    the maximum. -/
def CountStep (m m' : EpMgr) : Prop :=
  m'.max = m.max ∧ (m'.nep ≤ m.nep ∨ m.nep ≠ m.max ∧ m'.nep = m.nep + 1)

/-- A manager that does not change counts the same. -/
theorem CountStep.of_eq {m m' : EpMgr} (h : m' = m) : CountStep m m' := by
  subst h
  exact ⟨rfl, .inl (Int.le_refl _)⟩

/-- A bound by the maximum is kept. -/
theorem CountStep.bounded {m m' : EpMgr} (h : CountStep m m') (hle : m.nep ≤ m.max) :
    m'.nep ≤ m'.max := by
  obtain ⟨hmax, hfall | ⟨hne, hgrow⟩⟩ := h
  · omega
  · omega

/-- One endpoint is gone. -/
theorem countStep_del {x : EpId} {e : Ep}
    (hmgr : p'.mgr = (p.setMgr e.type ((p.mgr e.type).del e.key x)).mgr) (type : EpType) :
    CountStep (p.mgr type) (p'.mgr type) := by
  rw [hmgr, setMgr_mgr]
  split
  · next htype =>
    subst htype
    refine ⟨EpMgr.removeEp_max _ _ _, .inl ?_⟩
    show (p.mgr e.type).nep - 1 ≤ (p.mgr e.type).nep
    omega
  · exact .of_eq rfl

/-- One endpoint is new, of a manager that has room. -/
theorem countStep_add {x : EpId} {t : EpType} {key : EpKey} {req : EpRequest}
    (hroom : p.Room req t) (hmgr : p'.mgr = (p.setMgr t ((p.mgr t).add key x)).mgr)
    (type : EpType) : CountStep (p.mgr type) (p'.mgr type) := by
  rw [hmgr, setMgr_mgr]
  split
  · next htype =>
    subst htype
    exact ⟨rfl, .inr ⟨hroom.room, rfl⟩⟩
  · exact .of_eq rfl

/-- A list is opened. -/
theorem countStep_opened {t : EpType} {key : EpKey} (hmgr : p'.mgr = (p.opened t key).mgr)
    (type : EpType) : CountStep (p.mgr type) (p'.mgr type) := by
  rw [hmgr, opened, setMgr_mgr]
  split
  · next htype =>
    subst htype
    exact ⟨rfl, .inl (Int.le_refl _)⟩
  · exact .of_eq rfl

/-- **What a step does to the counter of a manager.** -/
theorem Effect.nep (heffect : Effect p a p') (hnonneg : ∀ type, 0 ≤ (p.mgr type).nep)
    (type : EpType) : CountStep (p.mgr type) (p'.mgr type) := by
  -- most steps leave the lists as they are
  have hsame : p'.mgr = p.mgr → CountStep (p.mgr type) (p'.mgr type) := fun h =>
    .of_eq (congrFun h type)
  cases heffect with
  | quiet _ _ _ => exact hsame rfl
  | refuse => exact hsame rfl
  -- a request that is refused with its new endpoint leaves none in the lists
  | @lost req env t s errors drains hgrown hwrite =>
    have hmgr : (({ p.begun with errors := p.errors ++ errors, drains := p.drains ++ drains } :
        EpPool).opened t req.key).mgr = (p.opened t req.key).mgr := by cases t <;> rfl
    exact countStep_opened hmgr type
  | pending hroom hconn => exact countStep_add hroom rfl type
  | fresh hroom hsend => exact countStep_add hroom rfl type
  | reuse _ _ _ _ => exact hsame rfl
  -- a broken endpoint is taken out
  | reuseLost _ hfree => exact countStep_del rfl type
  | close _ _ _ _ _ _ => exact countStep_del rfl type
  | fail _ _ _ => exact hsame rfl
  | buffered _ _ _ => exact hsame rfl
  | answered _ _ _ _ _ _ => exact hsame rfl
  | timedOut _ _ _ _ _ _ _ _ => exact hsame rfl
  | connected _ _ _ _ _ _ => exact hsame rfl
  -- the destruction empties both lists
  | destroy _ _ _ _ =>
    cases type with
    | tcp => exact ⟨rfl, .inl (hnonneg .tcp)⟩
    | udp => exact ⟨rfl, .inl (hnonneg .udp)⟩
  | returnOk _ _ _ _ => exact hsame rfl
  | returnTimeout _ _ _ => exact hsame rfl
  | returnClose _ _ _ => exact countStep_del rfl type
  | returnFail _ _ _ _ => exact hsame rfl

/-! ### The representation -/

/-- A run never has more endpoints than the maximum. -/
theorem reach_bounded {C : EpPool → EpAction → Prop} (h : machine.Reach C p) (type : EpType) :
    (p.mgr type).nep ≤ (p.mgr type).max := by
  refine (h.invariant (I := fun p => p.Sound ∧ ∀ type, (p.mgr type).nep ≤ (p.mgr type).max)
    ?_ ?_).2 type
  · rintro p ⟨maxFds, rfl⟩
    refine ⟨create_sound maxFds, fun type => ?_⟩
    have hmax : (0 : Int) ≤ if maxFds > 0 then maxFds else epPoolMax := by
      split
      · omega
      · decide
    cases type <;> exact hmax
  · rintro p a p' ⟨hs, hle⟩ henabled - hx
    obtain rfl := Except.ok.inj hx
    refine ⟨hs.exec henabled, fun type => ?_⟩
    rcases exec_cases hs henabled with heffect | ⟨f, hcrash, -⟩
    · have hnonneg : ∀ type, 0 ≤ (p.mgr type).nep := fun type => by
        rw [hs.inv.nep]
        exact total_nonneg _
      exact (heffect.nep hnonneg type).bounded (hle type)
    · rw [hcrash]
      exact hle type

/-- The invariant says how the endpoints are represented. -/
theorem Inv.represented (h : p.Inv) (hle : ∀ type, (p.mgr type).nep ≤ (p.mgr type).max) :
    p.Represented where
  counted := h.nep
  bounded type := by
    refine ⟨?_, hle type⟩
    rw [h.nep]
    exact total_nonneg _
  listed x e he type key := by
    -- an endpoint is in the list of its own type and address, and in no other
    split
    · next hown =>
      exact List.count_eq_one_of_mem (h.nodup type key)
        ((h.mapped type key x).mpr ⟨e, he, hown.1.symm, hown.2.symm⟩)
    · next hother =>
      refine List.count_eq_zero.mpr fun hin => hother ?_
      obtain ⟨e₁, he₁, htype, hkey⟩ := (h.mapped type key x).mp hin
      rw [Option.some.inj (he.symm.trans he₁)]
      exact ⟨htype.symm, hkey.symm⟩
  existing type key x hin := by
    obtain ⟨e, he, -⟩ := (h.mapped type key x).mp hin
    rw [he]
    rfl
  ntxn hstack x e he := by
    have hshape := h.shape x e he
    rw [dying_nil hstack] at hshape
    -- between two steps no endpoint is dying, so the counter is the number of requests
    cases hshape with
    | pending _ _ _ hone _ _ hntxn _ => exact ⟨by rw [hntxn, hone]; rfl, by omega⟩
    | unconnected _ _ _ hdying => exact absurd hdying (by simp)
    | free _ _ hnil hntxn =>
      rw [hntxn, hnil]
      exact ⟨rfl, by decide⟩
    | busy _ _ hone _ hntxn =>
      rw [hntxn, hone]
      exact ⟨rfl, by decide⟩
  tmp := h.tmp
  -- taking an endpoint out of its list keeps the order of the others
  removes x e he key := by
    refine ⟨?_, EpMgr.removeEp_tmp (h.tmp e.type) e.key x⟩
    rw [EpMgr.removeEp_epList (h.tmp e.type), (h.nodup e.type e.key).erase_eq_filter]
    split
    · congr 1
      funext t
      by_cases ht : t = x <;> simp [ht]
    · rfl

/-- **The representation of a pool is right** in every state of every run, also of runs whose
    callbacks call `sk_ep_send`. -/
theorem represented_of_reach {C : EpPool → EpAction → Prop} (h : machine.Reach C p) :
    p.Represented :=
  (reach_sound h).inv.represented (reach_bounded h)

/-- Two requests to one address: the endpoint of the first one breaks, and that of the second one
    stays. -/
def twoEndpoints : EpPool :=
  machine.final (create 2) [.send (sampleRequest 0) ⟨0, .now, true⟩,
    .send (sampleRequest 0) ⟨0, .now, true⟩, .error 0, .return]

/-- Two endpoints were made, and one was removed. -/
theorem twoEndpoints_represented : twoEndpoints.Represented ∧
    twoEndpoints.tcp.all = [1] ∧ twoEndpoints.tcp.nep = 1 := by
  have hreach : machine.Reach CallbacksQuiet twoEndpoints :=
    Machine.final_reach (.init (create_init 2)) _ (by decide +kernel)
  exact ⟨represented_of_reach hreach, by decide +kernel, by decide +kernel⟩

end EpPool

end Skull
