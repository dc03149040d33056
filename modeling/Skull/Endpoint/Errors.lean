import Skull.Endpoint.Runs

namespace Skull

open Machines

/-!
# An endpoint that breaks

`_handle_error` pops the requests of an endpoint one by one, runs a callback for each, and only
afterwards takes the endpoint out of its manager; `_find_ep` does not know that the endpoint
breaks.

* `EpPool.firstFree` — the endpoint a request would be put on;
* `EpPool.Orderly` — what is promised of endpoints that break;
* `EpPool.orderly_of_reach` — it holds along every run in which no request would be put on an
  endpoint that breaks;
* `EpPool.orderly_of_elsewhere` — so it does where callbacks do not send to the address of their own
  endpoint;
* `EpPool.resent_not_orderly` — a callback that sends twice to the address of its request;
* `EpPool.resent_elsewhere_orderly` — one that sends to another address.
-/

namespace EpPool

variable {p p' : EpPool} {x : EpId} {e : Ep} {n : EpNode} {a : EpAction}

/-- `x` is connected, has no request, and its flags are `flags`. -/
def isFree (p : EpPool) (flags : Nat) (x : EpId) : Bool :=
  (p.eps x).any fun e => e.flags = flags ∧ e.status = .connected ∧ e.txns = []

/-- The first free endpoint for a request. -/
def firstFree (p : EpPool) (type : EpType) (req : EpRequest) : Option EpId :=
  ((p.mgr type).epList req.key).find? (p.isFree req.flags)

/-- No request would be put on an endpoint while `_handle_error` runs on it. -/
def Spares (p : EpPool) (a : EpAction) : Prop :=
  match a with
  | .send req _ => ∀ type ∈ req.check, (p.mgr type).nep ≠ (p.mgr type).max →
      ∀ x ∈ p.firstFree type req, p.dying x = false
  | _ => True

instance (p : EpPool) (a : EpAction) : Decidable (p.Spares a) :=
  match a with
  | .send req _ => inferInstanceAs (Decidable (∀ type ∈ req.check, _ ≠ _ →
      ∀ x ∈ p.firstFree type req, p.dying x = false))
  | .return | .read .. | .error _ | .connect .. | .tick _ | .trigger _ | .timer _ | .destroy =>
    inferInstanceAs (Decidable True)

/-- What the loop of `_find_ep` returns is the first free endpoint. -/
theorem find_of_findIn {flags : Nat} {xs : List EpId}
    (hxs : ∀ x ∈ xs, ∃ e, p.eps x = some e ∧ e.flags.testBit 0 = false)
    (hfind : p.findIn flags xs = .ok (some x)) : xs.find? (p.isFree flags) = some x := by
  induction xs with
  | nil => simp [findIn] at hfind
  | cons y ys ih =>
    obtain ⟨e, he, hbit⟩ := hxs y (by simp)
    have hrest := ih fun z hz => hxs z (by simp [hz])
    have hfree : p.isFree flags y = decide (e.flags = flags ∧ e.status = .connected ∧ e.txns = []) := by
      simp [isFree, he]
    simp only [findIn, he, hbit, Bool.false_eq_true, if_false] at hfind
    rw [List.find?_cons, hfree]
    split at hfind
    · rename_i hflags
      split at hfind
      · rename_i hstatus
        split at hfind
        · split at hfind
          · rename_i hnil
            rw [decide_eq_true ⟨hflags.symm, hstatus, hnil⟩]
            exact Except.ok.inj hfind
          · rename_i hbusy
            rw [decide_eq_false (fun hand => hbusy hand.2.2)]
            exact hrest hfind
        · exact absurd hfind (by simp)
      · rename_i hstatus
        rw [decide_eq_false (fun hand => hstatus hand.2.1)]
        exact hrest hfind
    · rename_i hflags
      rw [decide_eq_false (fun hand => hflags hand.1.symm)]
      exact hrest hfind

/-- What is found is the first free endpoint. -/
theorem Inv.firstFree_of_find (h : p.Inv) {type : EpType} {req : EpRequest}
    (hfind : p.find type req = .ok (some x)) : p.firstFree type req = some x :=
  find_of_findIn (h.listed type req.key) hfind

/-- What is asked of the request says it of the step. -/
theorem Spares.spared (h : p.Inv) (hspares : p.Spares a) : p.Spared a := by
  rintro req env type x rfl hfinds
  exact hspares type hfinds.check hfinds.room x (h.firstFree_of_find hfinds.find)

/-! ### What is promised -/

/-- **What is promised of endpoints that break**, in every state. -/
structure Orderly (p : EpPool) : Prop where
  /-- No request is put on one. -/
  reuses : ∀ r ∈ p.reuses, r.dying = false
  /-- It is freed once, when `_handle_error` is done. -/
  freed : ∀ x ∈ p.errors, p.deleted.count x = if p.dying x then 0 else 1
  /-- `_handle_error` takes as many turns as there were requests, at most. -/
  drains : ∀ before turns, (before, turns) ∈ p.drains → turns ≤ before
  running : ∀ x n before turns, .error x n before turns ∈ p.stack → turns ≤ before
  /-- No assertion about it fails, and it is not used when it is freed. -/
  fault : p.fault = none ∨ p.fault = some .shutdownTimer

/-- What keeps it: an endpoint that breaks is there until `_handle_error` is done. -/
structure Keeping (p : EpPool) : Prop where
  reuses : ∀ r ∈ p.reuses, r.dying = false
  undisturbed : p.Undisturbed
  running : ∀ x n before turns, .error x n before turns ∈ p.stack → turns ≤ before
  drains : ∀ before turns, (before, turns) ∈ p.drains → turns ≤ before
  once : p.deleted.Nodup
  deleted : ∀ x ∈ p.deleted, x < p.nextEp ∧ p.eps x = none
  errors : ∀ x ∈ p.errors, x ∈ p.deleted ∨ p.dying x = true

/-- It is what is promised, without a fault. -/
theorem Keeping.orderly (h : p.Keeping) (hfault : p.fault = none ∨ p.fault = some .shutdownTimer) :
    p.Orderly := by
  refine ⟨h.reuses, fun x hx => ?_, h.drains, h.running, hfault⟩
  cases hdying : p.dying x with
  | true =>
    obtain ⟨n, before, turns, hframe⟩ := dying_iff.mp hdying
    obtain ⟨e, he, -⟩ := h.undisturbed x n before turns hframe
    refine List.count_eq_zero.mpr fun hin => ?_
    exact absurd ((h.deleted x hin).2.symm.trans he) (by simp)
  | false =>
    have hin : x ∈ p.deleted := (h.errors x hx).resolve_right (by simp [hdying])
    exact List.count_eq_one_of_mem h.once hin

namespace Keeping

/-- No endpoint is freed. -/
theorem still (h : p.Keeping) (hu : p'.Undisturbed)
    (hreuses : ∀ r ∈ p'.reuses, r ∈ p.reuses ∨ r.dying = false)
    (hrunning : ∀ x n before turns, .error x n before turns ∈ p'.stack →
      .error x n before turns ∈ p.stack ∨ turns ≤ before)
    (hdrains : p'.drains = p.drains) (hdeleted : p'.deleted = p.deleted)
    (hnext : p.nextEp ≤ p'.nextEp) (hold : ∀ x < p.nextEp, p.eps x = none → p'.eps x = none)
    (herrors : ∀ x ∈ p'.errors, x ∈ p.errors ∨ p'.dying x = true)
    (hdying : ∀ x, p.dying x = true → p'.dying x = true) : p'.Keeping := by
  refine ⟨fun r hr => (hreuses r hr).elim (h.reuses r) id, hu, fun x n before turns hframe =>
    (hrunning x n before turns hframe).elim (h.running x n before turns) id, ?_, ?_, ?_, ?_⟩
  · rw [hdrains]
    exact h.drains
  · rw [hdeleted]
    exact h.once
  · rw [hdeleted]
    intro x hx
    obtain ⟨hlt, hnone⟩ := h.deleted x hx
    exact ⟨Nat.lt_of_lt_of_le hlt hnext, hold x hlt hnone⟩
  · rw [hdeleted]
    intro x hx
    rcases herrors x hx with hin | hnow
    · exact (h.errors x hin).imp_right (hdying x)
    · exact .inr hnow

/-- The endpoints `xs` are freed, and no callback of an error runs but on them. -/
theorem free (h : p.Keeping) (xs : List EpId) (hu : p'.Undisturbed)
    (hreuses : ∀ r ∈ p'.reuses, r ∈ p.reuses ∨ r.dying = false)
    (hrunning : ∀ x n before turns, .error x n before turns ∈ p'.stack →
      .error x n before turns ∈ p.stack)
    (hdrains : ∀ before turns, (before, turns) ∈ p'.drains →
      (before, turns) ∈ p.drains ∨ turns ≤ before)
    (hdeleted : p'.deleted = p.deleted ++ xs) (hnodup : xs.Nodup)
    (hxs : ∀ x ∈ xs, x ∉ p.deleted ∧ x < p'.nextEp ∧ p'.eps x = none)
    (hnext : p.nextEp ≤ p'.nextEp) (hold : ∀ x < p.nextEp, p.eps x = none → p'.eps x = none)
    (herrors : ∀ x ∈ p'.errors, x ∈ p.errors ∨ x ∈ xs)
    (hdying : ∀ x, p.dying x = true → x ∈ xs ∨ p'.dying x = true) : p'.Keeping := by
  refine ⟨fun r hr => (hreuses r hr).elim (h.reuses r) id, hu, fun x n before turns hframe =>
    h.running x n before turns (hrunning x n before turns hframe), fun before turns hd =>
    (hdrains before turns hd).elim (h.drains before turns) id, ?_, fun x hx => ?_, fun x hx => ?_⟩
  · rw [hdeleted]
    refine List.nodup_append.mpr ⟨h.once, hnodup, ?_⟩
    rintro x hx _ hx' rfl
    exact (hxs x hx').1 hx
  · rw [hdeleted, List.mem_append] at hx
    rcases hx with hx | hx
    · obtain ⟨hlt, hnone⟩ := h.deleted x hx
      exact ⟨Nat.lt_of_lt_of_le hlt hnext, hold x hlt hnone⟩
    · exact (hxs x hx).2
  · rw [hdeleted, List.mem_append]
    rcases herrors x hx with hin | hin
    · rcases h.errors x hin with hin' | hdy
      · exact .inl (.inl hin')
      · exact (hdying x hdy).imp_left .inr
    · exact .inl (.inr hin)

/-- An endpoint that exists was not freed. -/
theorem not_deleted (h : p.Keeping) (he : p.eps x = some e) : x ∉ p.deleted := fun hin =>
  absurd ((h.deleted x hin).2.symm.trans he) (by simp)

end Keeping

/-- An endpoint that does not exist stays so when another one changes. -/
theorem none_over {o : Option Ep} {y : EpId} (heps : p'.eps = (p.setEp x o).eps) (hy : y ≠ x)
    (hnone : p.eps y = none) : p'.eps y = none := by
  rw [heps, setEp_eps, if_neg hy, hnone]

theorem ne_of_none {y : EpId} (he : p.eps x = some e) (hnone : p.eps y = none) : y ≠ x := by
  rintro rfl
  exact absurd (hnone.symm.trans he) (by simp)

/-- **Every effect keeps it** that finds no endpoint that breaks. -/
theorem Effect.keeping (h : p.Sound) (hk : p.Keeping) (hspared : p.Spared a)
    (heffect : Effect p a p') : p'.Keeping := by
  have hu := heffect.undisturbed h hk.undisturbed hspared
  cases heffect with
  | quiet _ _ _ =>
    exact hk.still hu (fun _ => .inl) (fun _ _ _ _ => .inl) rfl rfl (Nat.le_refl _)
      (fun _ _ => id) (fun _ => .inl) fun _ => id
  | refuse =>
    exact hk.still hu (fun _ => .inl) (fun _ _ _ _ => .inl) rfl rfl (Nat.le_refl _)
      (fun _ _ => id) (fun _ => .inl) fun _ => id
  | lost hgrown hwrite =>
    refine hk.free [p.nextEp] hu (fun _ => .inl) (fun _ _ _ _ => id) (fun before turns hd => ?_) rfl
      (List.nodup_singleton _) (fun y hy => ?_) (Nat.le_succ _) (fun _ _ => id) (fun y hy => ?_)
      fun _ => .inr
    · -- the loop of `_handle_error` ran for a request that could not be written, or not at all
      rcases List.mem_append.mp hd with hd | hd
      · exact .inl hd
      · rcases hwrite with ⟨-, rfl⟩ | ⟨-, rfl⟩
        · exact absurd hd List.not_mem_nil
        · obtain ⟨rfl, rfl⟩ := Prod.mk.inj (List.mem_singleton.mp hd)
          exact .inr (Nat.le_refl _)
    · -- the endpoint was never there before
      obtain rfl := List.mem_singleton.mp hy
      exact ⟨fun hin => absurd (hk.deleted _ hin).1 (Nat.lt_irrefl _), Nat.lt_succ_self _,
        h.inv.next_none⟩
    · rcases List.mem_append.mp hy with hy | hy
      · exact .inl hy
      · -- and it was in an error only in the first case
        rcases hwrite with ⟨rfl, -⟩ | ⟨rfl, -⟩
        · exact absurd hy List.not_mem_nil
        · exact .inr hy
  | @pending req env c s _ hconn =>
    -- a new endpoint, which is in no error
    exact hk.still hu (fun _ => .inl) (fun _ _ _ _ => .inl) rfl rfl (Nat.le_succ _)
      (fun y hlt hnone => none_over (added_setEps p.begun _ s) (Nat.ne_of_lt hlt) hnone)
      (fun _ => .inl) fun _ => id
  | @fresh req env type recv shut s _ hsend =>
    exact hk.still hu (fun _ => .inl) (fun _ _ _ _ => .inl) rfl rfl (Nat.le_succ _)
      (fun y hlt hnone => none_over (wrote_over (added_setEps p.begun _ _) recv shut s)
        (Nat.ne_of_lt hlt) hnone) (fun _ => .inl) fun _ => id
  | @reuse req env type x e recv shut s hfinds hfree hnew hsend =>
    -- the request goes to an endpoint that is in no error
    have hx : p.dying x = false := hspared _ _ _ _ rfl hfinds
    refine hk.still hu (fun r hr => ?_) (fun _ _ _ _ => .inl) rfl rfl (Nat.le_refl _)
      (fun y _ hnone => none_over (wrote_over rfl recv shut s) (ne_of_none hfree.1 hnone) hnone)
      (fun _ => .inl) fun _ => id
    rcases List.mem_append.mp hr with hr | hr
    · exact .inl hr
    · rw [List.mem_singleton.mp hr]
      exact .inr hx
  | @reuseLost req env type x e hfinds hfree =>
    have hx : p.dying x = false := hspared _ _ _ _ rfl hfinds
    refine hk.free [x] hu (fun r hr => ?_) (fun _ _ _ _ => id) (fun before turns hd => ?_) rfl
      (List.nodup_singleton _) (fun y hy => ?_) (Nat.le_refl _)
      (fun y _ hnone => none_over (gone_eps p x e) (ne_of_none hfree.1 hnone) hnone)
      (fun y hy => List.mem_append.mp hy) fun _ => .inr
    · rcases List.mem_append.mp hr with hr | hr
      · exact .inl hr
      · rw [List.mem_singleton.mp hr]
        exact .inr hx
    · rcases List.mem_append.mp hd with hd | hd
      · exact .inl hd
      · obtain ⟨rfl, rfl⟩ := Prod.mk.inj (List.mem_singleton.mp hd)
        exact .inr (Nat.le_refl _)
    · obtain rfl := List.mem_singleton.mp hy
      -- it was there, so it was not deleted before
      exact ⟨hk.not_deleted hfree.1, (h.inv.bound _ _ hfree.1).1,
        (congrFun (gone_eps p _ e) _).trans (if_pos rfl)⟩
  | @close _ x e shut s _ hstack he hnil _ howned =>
    have heps : (({ p.setEp x (some { e with shutdownTimer := shut }) with
        errors := p.errors ++ [x], tmsvc := s } : EpPool).broken x { e with shutdownTimer := shut } 0
          0).eps = (p.setEp x none).eps := broken_over rfl { e with shutdownTimer := shut } 0 0
    refine hk.free [x] hu (fun _ => .inl) (fun _ _ _ _ => id) (fun before turns hd => ?_) rfl
      (List.nodup_singleton _) (fun y hy => ?_) (Nat.le_refl _)
      (fun y _ hnone => none_over heps (ne_of_none he hnone) hnone)
      (fun y hy => List.mem_append.mp hy) fun _ => .inr
    · rcases List.mem_append.mp hd with hd | hd
      · exact .inl hd
      · obtain ⟨rfl, rfl⟩ := Prod.mk.inj (List.mem_singleton.mp hd)
        exact .inr (Nat.le_refl _)
    · obtain rfl := List.mem_singleton.mp hy
      -- the endpoint closes at once, as it had no requests
      exact ⟨hk.not_deleted he, (h.inv.bound _ _ he).1, (congrFun heps _).trans (if_pos rfl)⟩
  | @fail _ x e e₀ n s _ hstack hbreaks =>
    have heps : (({ p.setEp x (some e₀) with errors := p.errors ++ [x], tmsvc := s } :
        EpPool).failed x e₀ n 1 0).eps = (p.setEp x (some { e₀ with txns := [] })).eps :=
      failed_over rfl e₀ n 1 0
    refine hk.still hu (fun _ => .inl) (fun y m before turns hframe => ?_) rfl rfl (Nat.le_refl _)
      (fun y _ hnone => none_over heps (ne_of_none hbreaks.ent hnone) hnone) (fun y hy => ?_)
      fun y hy => ?_
    · rcases List.mem_cons.mp hframe with hnow | hold
      · -- the callback of the only request is its first turn
        obtain ⟨-, -, rfl, rfl⟩ := EpFrame.error.inj hnow
        exact .inr (Nat.le_refl _)
      · exact .inl hold
    · refine (List.mem_append.mp hy).imp_right fun hy => ?_
      obtain rfl := List.mem_singleton.mp hy
      -- the endpoint dies while it runs
      exact dying_iff.mpr ⟨n, 1, 1, .head _⟩
    · exact absurd hy (by simp [dying_nil hstack])
  | @buffered x e bytes results hstack he _ =>
    exact hk.still hu (fun _ => .inl) (fun _ _ _ _ => .inl) rfl rfl (Nat.le_refl _)
      (fun y _ hnone => none_over (p := p) rfl (ne_of_none he hnone) hnone) (fun _ => .inl) fun _ => id
  | @answered x e n bytes results c hstack he hstatus hone _ _ =>
    refine hk.still hu (fun _ => .inl) (fun y m before turns hframe => .inl ?_) rfl rfl
      (Nat.le_refl _) (fun y _ hnone => none_over (p := p) rfl (ne_of_none he hnone) hnone)
      (fun _ => .inl) fun y hy => ?_
    · exact (List.mem_cons.mp hframe).resolve_left (by simp)
    · exact absurd hy (by simp [dying_nil hstack])
  | @timedOut t τ x e n hstack hτ hkind _ he hstatus hone hrecv =>
    refine hk.still hu (fun _ => .inl) (fun y m before turns hframe => .inl ?_) rfl rfl
      (Nat.le_refl _) (fun y _ hnone => none_over (p := p) rfl (ne_of_none he hnone) hnone)
      (fun _ => .inl) fun y hy => ?_
    · exact (List.mem_cons.mp hframe).resolve_left (by simp)
    · exact absurd hy (by simp [dying_nil hstack])
  | @connected x e n written recv shut s hstack he hstatus hshut hone hsend =>
    exact hk.still hu (fun _ => .inl) (fun _ _ _ _ => .inl) rfl rfl (Nat.le_refl _)
      (fun y _ hnone => none_over (wrote_over rfl recv shut s) (ne_of_none he hnone) hnone)
      (fun _ => .inl) fun _ => id
  | @destroy xs s hstack hall hnodup hidle =>
    -- the endpoints of the managers are those that are there, each of them once
    refine hk.free xs hu (fun _ => .inl) (fun _ _ _ _ => id) (fun _ _ => .inl) rfl hnodup
      (fun y hy => ?_) (Nat.le_refl _) (fun _ _ _ => rfl) (fun _ => .inl) fun _ => .inr
    obtain ⟨e, he⟩ := Option.isSome_iff_exists.mp ((hall y).mp hy)
    exact ⟨hk.not_deleted he, (h.inv.bound y e he).1, rfl⟩
  | @returnOk x e n t s delay hstack he hone hshut =>
    exact hk.still hu (fun _ => .inl) (fun _ _ _ _ hframe => absurd hframe List.not_mem_nil) rfl rfl
      (Nat.le_refl _) (fun y _ hnone => none_over (p := p) rfl (ne_of_none he hnone) hnone)
      (fun _ => .inl) fun y hy => absurd hy (by simp [dying, hstack])
  | @returnTimeout x e n hstack he hone =>
    exact hk.still hu (fun _ => .inl) (fun _ _ _ _ hframe => absurd hframe List.not_mem_nil) rfl rfl
      (Nat.le_refl _) (fun y _ hnone => none_over (p := p) rfl (ne_of_none he hnone) hnone)
      (fun _ => .inl) fun y hy => absurd hy (by simp [dying, hstack])
  | @returnClose x e n before turns hstack he hnil =>
    have heps : (({ p.setEp x (some { e with ntxn := e.ntxn - 1 }) with
        stack := [], tmsvc := p.tmsvc.cancelled n.recvTimer
        log := p.log ++ [.released n.id] } : EpPool).broken x { e with ntxn := e.ntxn - 1 } before
          turns).eps = (p.setEp x none).eps := 
          broken_over rfl { e with ntxn := e.ntxn - 1 } before turns
    refine hk.free [x] hu (fun _ => .inl) (fun _ _ _ _ hframe => absurd hframe List.not_mem_nil)
      (fun before' turns' hd => ?_) rfl (List.nodup_singleton _) (fun y hy => ?_) (Nat.le_refl _)
      (fun y _ hnone => none_over heps (ne_of_none he hnone) hnone) (fun _ => .inl)
      fun y hy => .inl ?_
    · rcases List.mem_append.mp hd with hd | hd
      · exact .inl hd
      · obtain ⟨rfl, rfl⟩ := Prod.mk.inj (List.mem_singleton.mp hd)
        -- the drain ends where the callback had come to
        exact .inr (hk.running x n _ _ (by simp [hstack]))
    · obtain rfl := List.mem_singleton.mp hy
      exact ⟨hk.not_deleted he, (h.inv.bound _ _ he).1, (congrFun heps _).trans (if_pos rfl)⟩
    · rw [Inv.dying_error hstack] at hy
      -- the endpoint that is gone was the one that died
      exact List.mem_singleton.mpr (of_decide_eq_true hy)
  | @returnFail x e n m before turns hstack he hone hm =>
    -- nothing was put on the endpoint
    obtain ⟨e', he', hnil⟩ := hk.undisturbed x n before turns (by simp [hstack])
    rw [← Option.some.inj (he.symm.trans he'), hone] at hnil
    exact absurd hnil (by simp)

/-! ### Runs -/

/-- The promise holds along the runs of every condition that leaves an endpoint alone that breaks. -/
theorem reach_orderly {C : EpPool → EpAction → Prop}
    (hC : ∀ p a, p.Inv → C p a → p.Spared a) (h : machine.Reach C p) : p.Orderly := by
  have hinv := h.invariant (I := fun p => p.Sound ∧ p.Keeping ∧
    (p.fault = none ∨ p.fault = some .shutdownTimer)) ?_ ?_
  · exact hinv.2.1.orderly hinv.2.2
  · rintro p ⟨maxFds, rfl⟩
    refine ⟨create_sound maxFds, ?_, .inl rfl⟩
    refine ⟨by simp [create], undisturbed_of_stack (by simp [create]), by simp [create],
      by simp [create], List.nodup_nil, by simp [create], by simp [create]⟩
  · rintro p a p' ⟨hs, hk, -⟩ henabled hcond hx
    obtain rfl := Except.ok.inj hx
    have hspared := hC p a hs.inv hcond
    refine ⟨hs.exec henabled, ?_, (exec_undisturbed hs hk.undisturbed hspared henabled).2⟩
    rcases exec_cases hs henabled with heffect | ⟨f, hcrash, -⟩
    · exact heffect.keeping hs hk hspared
    · rw [hcrash]
      exact ⟨hk.reuses, hk.undisturbed, hk.running, hk.drains, hk.once, hk.deleted, hk.errors⟩

/-- **Endpoints that break are left alone** along every run in which no request would be put on
    one. -/
theorem orderly_of_reach (h : machine.Reach Spares p) : p.Orderly :=
  reach_orderly (fun _ _ hinv hspares => hspares.spared hinv) h

/-- The callback of an error that sends twice to the address of its request: the first request is
    put on the endpoint that breaks, and for the second one the assertion of `_find_ep` fails. -/
theorem resent_not_orderly : ¬ ∀ p, machine.Reach Machine.anyStep p → p.Orderly := by
  intro hall
  have hreach := Machine.final_reach (.init (create_init 4)) [.send (sampleRequest 0) ⟨0, .now, true⟩,
    .error 0, .send (sampleRequest 0) ⟨0, .now, true⟩, .send (sampleRequest 0) ⟨0, .now, true⟩]
    (Machine.stepsMeet_any _ _)
  have hfault := (hall _ hreach).fault
  exact absurd hfault (by decide +kernel)

/-- The callback of an error that sends to another address. -/
theorem resent_elsewhere_orderly :
    (machine.final (create 4) [.send (sampleRequest 0) ⟨0, .now, true⟩, .error 0,
      .send { sampleRequest 0 with port := 7761 } ⟨0, .now, true⟩, .return]).Orderly :=
  orderly_of_reach (Machine.final_reach (.init (create_init 4)) _ (by decide +kernel))

/-! ### What callbacks may send -/

/-- No callback of `_handle_error` sends to the type, address and flags of the endpoint that it
    runs for. -/
def Elsewhere (p : EpPool) (a : EpAction) : Prop :=
  ∀ req env, a = .send req env → ∀ type ∈ req.check, ∀ x n before turns,
    .error x n before turns ∈ p.stack → ∀ e ∈ p.eps x,
      ¬ (e.type = type ∧ e.key = req.key ∧ e.flags = req.flags)

/-- Such a request is not put on the endpoint. -/
theorem Elsewhere.spared (h : p.Inv) (helse : p.Elsewhere a) : p.Spared a := by
  rintro req env type x rfl hfinds
  have hfirst := h.firstFree_of_find hfinds.find
  have hmem : x ∈ (p.mgr type).epList req.key := List.mem_of_find?_eq_some hfirst
  obtain ⟨e, he, htype, hkey⟩ := (h.mapped type req.key x).mp hmem
  have hflags : e.flags = req.flags := by
    have hfree := List.find?_some hfirst
    simp only [isFree, he, Option.any_some, decide_eq_true_eq] at hfree
    exact hfree.1
  by_contra hdying
  obtain ⟨n, before, turns, hframe⟩ := dying_iff.mp (by simpa using hdying)
  exact helse req env rfl type hfinds.check x n before turns hframe e he ⟨htype, hkey, hflags⟩

/-- **Callbacks that send elsewhere** leave the endpoints alone that break. -/
theorem orderly_of_elsewhere (h : machine.Reach Elsewhere p) : p.Orderly :=
  reach_orderly (fun _ _ hinv helse => helse.spared hinv) h

end EpPool

end Skull
