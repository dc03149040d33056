import Skull.Endpoint.Handlers

namespace Skull

open Machines

/-!
# Every request is called back once and released once

* `EpPool.Held`, `EpPool.Running` — a request that a pool has, and one whose callback runs;
* `EpPool.Books` — the requests have different numbers and live as `Machines.Lifecycle` says;
* `EpPool.Effect.books` — every effect of a step keeps the books.
-/

/-- The request of a callback that is running. -/
def EpFrame.req : EpFrame → ReqId
  | .ok _ req | .timeout _ req => req
  | .error _ n _ _ => n.id

namespace EpPool

variable {p p' : EpPool} {x : EpId} {e e' : Ep} {n m : EpNode} {a : EpAction} {i : ReqId}

/-- `x` has the request `i`. -/
def Has (p : EpPool) (x : EpId) (i : ReqId) : Prop := ∃ n, p.Node x n ∧ n.id = i

/-- An endpoint has the request `i`. -/
def Held (p : EpPool) (i : ReqId) : Prop := ∃ x, p.Has x i

/-- The callback of the request `i` runs. -/
def Running (p : EpPool) (i : ReqId) : Prop := ∃ frame ∈ p.stack, frame.req = i

/-- **The books of a pool.** -/
structure Books (p : EpPool) : Prop where
  ids : p.Ids
  life : Lifecycle p.Held p.Running (· ∈ p.accepted) (fun _ => p.down = true) p.log
  known : ∀ i, i ∈ p.accepted ∨ i ∈ p.refused → i < p.calls
  apart : ∀ i ∈ p.accepted, i ∉ p.refused

/-- A popped request is not in the list of its endpoint. -/
def Popped (p : EpPool) : Prop := ∀ x e n m before turns, p.eps x = some e → m ∈ e.txns →
  .error x n before turns ∈ p.stack → m.id ≠ n.id

/-! ### The requests of a pool -/

namespace Ids

/-- An endpoint may lose requests. -/
theorem keep (h : p.Ids) (hcalls : p.calls ≤ p'.calls) (hhas : ∀ x i, p'.Has x i → p.Has x i)
    (hpopped : p'.Popped) : p'.Ids := by
  refine ⟨fun x n hn => ?_, fun x y n m hn hm hid => ?_, hpopped⟩
  · obtain ⟨n', hn', hid⟩ := hhas x n.id ⟨n, hn, rfl⟩
    exact hid ▸ Nat.lt_of_lt_of_le (h.lt x n' hn') hcalls
  · obtain ⟨n', hn', hid'⟩ := hhas x n.id ⟨n, hn, rfl⟩
    obtain ⟨m', hm', hid''⟩ := hhas y m.id ⟨m, hm, rfl⟩
    exact h.uniq x y n' m' hn' hm' (by rw [hid', hid'', hid])

/-- An endpoint may have the next request. -/
theorem grow (h : p.Ids) {x₀ : EpId} (hcalls : p'.calls = p.calls + 1)
    (hhas : ∀ x i, p'.Has x i → p.Has x i ∨ x = x₀ ∧ i = p.calls) (hpopped : p'.Popped) :
    p'.Ids := by
  have hlt : ∀ x i, p.Has x i → i < p.calls := by
    rintro x i ⟨n, hn, rfl⟩
    exact h.lt x n hn
  refine ⟨fun x n hn => ?_, fun x y n m hn hm hid => ?_, hpopped⟩
  · rw [hcalls]
    rcases hhas x n.id ⟨n, hn, rfl⟩ with hold | ⟨-, hid⟩
    · exact Nat.lt_succ_of_lt (hlt x n.id hold)
    · exact hid ▸ Nat.lt_succ_self _
  · rcases hhas x n.id ⟨n, hn, rfl⟩ with hold | ⟨rfl, hn'⟩ <;>
      rcases hhas y m.id ⟨m, hm, rfl⟩ with hold' | ⟨rfl, hm'⟩
    · obtain ⟨n', hn', hid'⟩ := hold
      obtain ⟨m', hm', hid''⟩ := hold'
      exact h.uniq x y n' m' hn' hm' (by rw [hid', hid'', hid])
    · have hlt' := hlt x n.id hold
      rw [hid, hm'] at hlt'
      exact absurd hlt' (Nat.lt_irrefl _)
    · have hlt' := hlt y m.id hold'
      rw [← hid, hn'] at hlt'
      exact absurd hlt' (Nat.lt_irrefl _)
    · rfl

end Ids

/-! ### Keeping the books -/

namespace Books

/-- A step that is no call of `sk_ep_send`. -/
theorem move (h : p.Books) (hcalls : p'.calls = p.calls) (haccepted : p'.accepted = p.accepted)
    (hrefused : p'.refused = p.refused) (hhas : ∀ x i, p'.Has x i → p.Has x i)
    (hpopped : p'.Popped)
    (hlife : Lifecycle p'.Held p'.Running (· ∈ p.accepted) (fun _ => p'.down = true) p'.log) :
    p'.Books := by
  refine ⟨h.ids.keep (Nat.le_of_eq hcalls.symm) hhas hpopped, ?_, ?_, ?_⟩
  · rw [haccepted]
    exact hlife
  · rw [haccepted, hrefused, hcalls]
    exact h.known
  · rw [haccepted, hrefused]
    exact h.apart

/-- No request moves. -/
theorem still (h : p.Books) (hcalls : p'.calls = p.calls) (haccepted : p'.accepted = p.accepted)
    (hrefused : p'.refused = p.refused) (hhas : ∀ x i, p'.Has x i ↔ p.Has x i)
    (hpopped : p'.Popped) (hstack : p'.stack = p.stack) (hlog : p'.log = p.log)
    (hdown : p'.down = p.down) : p'.Books := by
  refine h.move hcalls haccepted hrefused (fun x i => (hhas x i).mp) hpopped ?_
  rw [hlog, hdown]
  refine h.life.congr (fun i => ?_) (fun i => ?_) (fun i => Iff.rfl) fun i hdrop => hdrop
  · exact exists_congr fun x => hhas x i
  · rw [Running, Running, hstack]

/-- A request is refused. -/
theorem refuse (h : p.Books) (hcalls : p'.calls = p.calls + 1)
    (haccepted : p'.accepted = p.accepted) (hrefused : p'.refused = p.refused ++ [p.calls])
    (hhas : ∀ x i, p'.Has x i ↔ p.Has x i) (hpopped : p'.Popped) (hstack : p'.stack = p.stack)
    (hlog : p'.log = p.log) (hdown : p'.down = p.down) : p'.Books := by
  refine ⟨h.ids.keep (hcalls ▸ Nat.le_succ _) (fun x i => (hhas x i).mp) hpopped, ?_, ?_, ?_⟩
  · rw [haccepted, hlog, hdown]
    refine h.life.congr (fun i => ?_) (fun i => ?_) (fun i => Iff.rfl) fun i hdrop => hdrop
    · exact exists_congr fun x => hhas x i
    · rw [Running, Running, hstack]
  · intro i hi
    rw [haccepted, hrefused, List.mem_append, List.mem_singleton, ← or_assoc] at hi
    rw [hcalls]
    rcases hi with hold | rfl
    · exact Nat.lt_succ_of_lt (h.known i hold)
    · exact Nat.lt_succ_self _
  · intro i hi
    rw [haccepted] at hi
    rw [hrefused, List.mem_append, List.mem_singleton, not_or]
    exact ⟨h.apart i hi, Nat.ne_of_lt (h.known i (.inl hi))⟩

/-- A request is accepted. -/
theorem accept (h : p.Books) {x₀ : EpId} (hcalls : p'.calls = p.calls + 1)
    (haccepted : p'.accepted = p.accepted ++ [p.calls]) (hrefused : p'.refused = p.refused)
    (hhas : ∀ x i, p'.Has x i ↔ p.Has x i ∨ x = x₀ ∧ i = p.calls) (hpopped : p'.Popped)
    (hstack : p'.stack = p.stack) (hlog : p'.log = p.log) (hdown : p'.down = p.down) :
    p'.Books := by
  have hnew : p.calls ∉ p.accepted := fun hin =>
    absurd (h.known _ (.inl hin)) (Nat.lt_irrefl _)
  refine ⟨h.ids.grow hcalls (fun x i => (hhas x i).mp) hpopped, ?_, ?_, ?_⟩
  · rw [hlog, hdown]
    have hlife : Lifecycle p'.Held p.Running (· ∈ p'.accepted) (fun _ => p.down = true) p.log :=
      h.life.accept hnew (fun i => by simp [Held, hhas, exists_or]) fun i => by simp [haccepted]
    refine hlife.congr (fun i => Iff.rfl) (fun i => ?_) (fun i => Iff.rfl) fun i hdrop => hdrop
    rw [Running, Running, hstack]
  · intro i hi
    rw [haccepted, hrefused, List.mem_append, List.mem_singleton, or_right_comm] at hi
    rw [hcalls]
    rcases hi with hold | rfl
    · exact Nat.lt_succ_of_lt (h.known i hold)
    · exact Nat.lt_succ_self _
  · intro i hi
    rw [haccepted, List.mem_append, List.mem_singleton] at hi
    rw [hrefused]
    rcases hi with hold | rfl
    · exact h.apart i hold
    · exact fun hin => absurd (h.known _ (.inr hin)) (Nat.lt_irrefl _)

/-- A request is called back. -/
theorem call (h : p.Books) (hcalls : p'.calls = p.calls) (haccepted : p'.accepted = p.accepted)
    (hrefused : p'.refused = p.refused) (hhas : ∀ x i, p'.Has x i ↔ p.Has x i)
    (hpopped : p'.Popped) (frame : EpFrame) {status : EpStatus} (hi : p.Has x frame.req)
    (hidle : p.stack = []) (hstack : p'.stack = [frame])
    (hlog : p'.log = p.log ++ [.called frame.req status]) (hdown : p'.down = p.down) :
    p'.Books := by
  refine h.move hcalls haccepted hrefused (fun x i => (hhas x i).mp) hpopped ?_
  have hheld : ∀ i, p'.Held i ↔ p.Held i := fun i => exists_congr fun x => hhas x i
  have hlife : Lifecycle p.Held p'.Running (· ∈ p.accepted) (fun _ => p.down = true)
      (p.log ++ [.called frame.req status]) :=
    h.life.call status ⟨x, hi⟩ (by simp [Running, hidle]) fun i => by
      simp [Running, hidle, hstack, eq_comm]
  rw [hlog, hdown]
  exact hlife.congr hheld (fun i => Iff.rfl) (fun i => Iff.rfl) fun i hdrop => hdrop

/-- A callback returns, and its request is released. -/
theorem release (h : p.Books) (hcalls : p'.calls = p.calls) (haccepted : p'.accepted = p.accepted)
    (hrefused : p'.refused = p.refused) (frame : EpFrame)
    (hhas : ∀ x i, p'.Has x i ↔ p.Has x i ∧ i ≠ frame.req) (hstack : p.stack = [frame])
    (hstack' : p'.stack = []) (hlog : p'.log = p.log ++ [.released frame.req])
    (hdown : p'.down = p.down) : p'.Books := by
  refine h.move hcalls haccepted hrefused (fun x i hi => ((hhas x i).mp hi).1) ?_ ?_
  · intro x e n m before turns _ _ hframe
    exact absurd hframe (by simp [hstack'])
  · rw [hlog, hdown]
    exact h.life.release (by simp [Running, hstack]) (fun i => by simp [Held, hhas])
      fun i => by simp [Running, hstack, hstack', eq_comm]

end Books

theorem has_congr (heps : p'.eps = p.eps) (hstack : p'.stack = p.stack) (x : EpId) (i : ReqId) :
    p'.Has x i ↔ p.Has x i := by simp only [Has, Node, heps, hstack]

theorem popped_congr (h : p.Popped) (heps : p'.eps = p.eps) (hstack : p'.stack = p.stack) :
    p'.Popped := by
  intro x e n m before turns he hm hframe
  exact h x e n m before turns (heps ▸ he) hm (hstack ▸ hframe)

/-- The error callbacks of `p'` are those of `p`. -/
def SameErrors (p p' : EpPool) : Prop := ∀ x n before turns,
  EpFrame.error x n before turns ∈ p'.stack ↔ .error x n before turns ∈ p.stack

/-- The same callbacks are under way. -/
theorem sameErrors_of_eq (hstack : p'.stack = p.stack) : p.SameErrors p' := by
  intro x n before turns
  rw [hstack]

/-- The requests in the lists are old ones, or the next one. -/
theorem popped_of (hids : p.Ids) (herrors : p.SameErrors p')
    (hlist : ∀ y e' m, p'.eps y = some e' → m ∈ e'.txns →
      (∃ e m', p.eps y = some e ∧ m' ∈ e.txns ∧ m'.id = m.id) ∨ m.id = p.calls) : p'.Popped := by
  intro y e n m before turns he hm hframe
  have hframe' := (herrors y n before turns).mp hframe
  rcases hlist y e m he hm with ⟨e₀, m₀, he₀, hm₀, hid⟩ | hid
  · rw [← hid]
    exact hids.popped y e₀ n m₀ before turns he₀ hm₀ hframe'
  · rw [hid]
    exact (Nat.ne_of_lt (hids.lt y n (.inr ⟨before, turns, hframe'⟩))).symm

/-- A request is put on an endpoint without one. -/
theorem has_put (heps : p'.eps = (p.setEp x (some e')).eps) (herrors : p.SameErrors p')
    (hold : ∀ e, p.eps x = some e → e.txns = []) (hone : e'.txns = [n]) (y : EpId) (i : ReqId) :
    p'.Has y i ↔ p.Has y i ∨ y = x ∧ i = n.id := by
  simp only [Has, Node, heps, setEp_eps, herrors y _ _ _]
  grind

/-- An endpoint has no request, before and after. -/
theorem has_none {o : Option Ep} (heps : p'.eps = (p.setEp x o).eps) (herrors : p.SameErrors p')
    (hold : ∀ e, p.eps x = some e → e.txns = []) (hnew : ∀ e, o = some e → e.txns = []) (y : EpId)
    (i : ReqId) : p'.Has y i ↔ p.Has y i := by
  simp only [Has, Node, heps, setEp_eps, herrors y _ _ _]
  grind

/-- The request of an endpoint changes, but not its number. -/
theorem has_same (heps : p'.eps = (p.setEp x (some e')).eps) (herrors : p.SameErrors p')
    (he : p.eps x = some e) (hone : e.txns = [n]) (hone' : e'.txns = [m]) (hid : m.id = n.id)
    (y : EpId) (i : ReqId) : p'.Has y i ↔ p.Has y i := by
  simp only [Has, Node, heps, setEp_eps, herrors y _ _ _]
  constructor
  · rintro ⟨k, ⟨e₁, he₁, hk⟩ | hk, rfl⟩
    · by_cases hy : y = x
      · subst hy
        refine ⟨n, .inl ⟨e, he, by simp [hone]⟩, ?_⟩
        grind
      · exact ⟨k, .inl ⟨e₁, by simpa [hy] using he₁, hk⟩, rfl⟩
    · exact ⟨k, .inr hk, rfl⟩
  · rintro ⟨k, ⟨e₁, he₁, hk⟩ | hk, rfl⟩
    · by_cases hy : y = x
      · subst hy
        refine ⟨m, .inl ⟨e', by simp, by simp [hone']⟩, ?_⟩
        grind
      · exact ⟨k, .inl ⟨e₁, by simpa [hy] using he₁, hk⟩, rfl⟩
    · exact ⟨k, .inr hk, rfl⟩

/-- A request that comes in has a number that no error knows of. -/
theorem popped_put (hids : p.Ids) (heps : p'.eps = (p.setEp x (some e')).eps)
    (herrors : p.SameErrors p') (hone : e'.txns = [n]) (hid : n.id = p.calls) : p'.Popped := by
  refine popped_of hids herrors fun y e₁ m he₁ hm => ?_
  rw [heps, setEp_eps] at he₁
  grind

theorem popped_none (hids : p.Ids) {o : Option Ep} (heps : p'.eps = (p.setEp x o).eps)
    (herrors : p.SameErrors p') (hnew : ∀ e, o = some e → e.txns = []) : p'.Popped := by
  refine popped_of hids herrors fun y e₁ m he₁ hm => ?_
  rw [heps, setEp_eps] at he₁
  grind

/-- A request that changes keeps its number. -/
theorem popped_same (hids : p.Ids) (heps : p'.eps = (p.setEp x (some e')).eps)
    (herrors : p.SameErrors p') (he : p.eps x = some e) (hone : e.txns = [n])
    (hone' : e'.txns = [m]) (hid : m.id = n.id) : p'.Popped := by
  refine popped_of hids herrors fun y e₁ k he₁ hk => ?_
  rw [heps, setEp_eps] at he₁
  grind

/-- The request of an endpoint is popped. -/
theorem has_popped {before turns : Nat} (heps : p'.eps = (p.setEp x (some e')).eps)
    (he : p.eps x = some e) (hone : e.txns = [n]) (hnil : e'.txns = []) (hstack : p.stack = [])
    (hstack' : p'.stack = [.error x n before turns]) (y : EpId) (i : ReqId) :
    p'.Has y i ↔ p.Has y i := by
  simp only [Has, Node, heps, setEp_eps, hstack, hstack']
  grind

/-- An error begins with an endpoint that has no requests left. -/
theorem popped_error {before turns : Nat} (he : p.eps x = some e) (hnil : e.txns = [])
    (hstack : p.stack = [.error x n before turns]) : p.Popped := by
  intro y e₁ n₁ m before₁ turns₁ he₁ hm hframe
  rw [hstack, List.mem_singleton] at hframe
  grind

/-- A request of an endpoint is gone. -/
theorem has_removed {o : Option Ep} (hids : p.Ids) (heps : p'.eps = (p.setEp x o).eps)
    (hnode : p.Node x n) (hx : ∀ m, p'.Node x m ↔ p.Node x m ∧ m.id ≠ n.id)
    (hstack : ∀ frame ∈ p.stack, ∀ y m before turns, frame = .error y m before turns → y = x)
    (hstack' : p'.stack = []) (y : EpId) (i : ReqId) :
    p'.Has y i ↔ p.Has y i ∧ i ≠ n.id := by
  by_cases hy : y = x
  · subst hy
    simp only [Has, hx]
    grind
  · -- another endpoint has what it had, and no request has two endpoints
    have hsame : ∀ m, p'.Node y m ↔ p.Node y m := by
      intro m
      simp only [Node, heps, setEp_eps, if_neg hy, hstack', List.not_mem_nil, exists_false, or_false]
      refine ⟨.inl, fun hm => hm.resolve_right ?_⟩
      rintro ⟨before, turns, hframe⟩
      exact hy (hstack _ hframe y m before turns rfl)
    simp only [Has, hsame]
    refine ⟨fun hm => ⟨hm, ?_⟩, And.left⟩
    rintro rfl
    obtain ⟨m, hm, hid⟩ := hm
    exact hy (hids.uniq y x m n hm hnode hid)

/-- No request is listed twice. -/
theorem Inv.requests_nodup (h : p.Inv) (hids : p.Ids) {xs : List EpId} (hnodup : xs.Nodup) :
    (p.requests xs).Nodup := by
  refine List.nodup_flatMap.mpr ⟨fun x _ => ?_, hnodup.imp fun {x y} hne => ?_⟩
  · cases he : p.eps x with
    | none => simp
    | some e =>
      rcases (h.shape x e he).requests with hnil | ⟨n, hone, -⟩
      · simp [hnil]
      · simp [hone]
  · intro i hi hi'
    have hnode : ∀ z, i ∈ ((p.eps z).elim [] Ep.txns).map EpNode.id → p.Has z i := by
      intro z hz
      obtain ⟨n, hn, rfl⟩ := List.mem_map.mp hz
      cases he : p.eps z with
      | none => simp [he] at hn
      | some e => exact ⟨n, .inl ⟨e, he, by simpa [he] using hn⟩, rfl⟩
    obtain ⟨n, hn, hid⟩ := hnode x hi
    obtain ⟨m, hm, hid'⟩ := hnode y hi'
    exact hne (hids.uniq x y n m hn hm (hid.trans hid'.symm))

/-- What a pool has when no callback runs. -/
theorem mem_requests {xs : List EpId} (hstack : p.stack = [])
    (hall : ∀ x, x ∈ xs ↔ (p.eps x).isSome) : i ∈ p.requests xs ↔ p.Held i := by
  simp only [requests, List.mem_flatMap, List.mem_map, Held, Has, Inv.node_nil hstack]
  constructor
  · rintro ⟨x, hx, n, hn, rfl⟩
    obtain ⟨e, he⟩ := Option.isSome_iff_exists.mp ((hall x).mp hx)
    exact ⟨x, n, ⟨e, he, by simpa [he] using hn⟩, rfl⟩
  · rintro ⟨x, n, ⟨e, he, hn⟩, rfl⟩
    exact ⟨x, (hall x).mpr (by simp [he]), n, by simpa [he] using hn, rfl⟩

/-! ### The moves of a request -/

namespace Books

/-- A request is put on an endpoint without one. -/
theorem put (hb : p.Books) (heps : p'.eps = (p.setEp x (some e')).eps)
    (hold : ∀ e, p.eps x = some e → e.txns = []) (hone : e'.txns = [n]) (hid : n.id = p.calls)
    (hcalls : p'.calls = p.calls + 1) (haccepted : p'.accepted = p.accepted ++ [p.calls])
    (hrefused : p'.refused = p.refused) (hstack : p'.stack = p.stack) (hlog : p'.log = p.log)
    (hdown : p'.down = p.down) : p'.Books := by
  have herrors := sameErrors_of_eq hstack
  have hhas : ∀ y i, p'.Has y i ↔ p.Has y i ∨ y = x ∧ i = p.calls := by
    intro y i
    rw [has_put heps herrors hold hone, hid]
  exact hb.accept hcalls haccepted hrefused hhas (popped_put hb.ids heps herrors hone hid) hstack
    hlog hdown

/-- The request of an endpoint is called back, and stays on it. -/
theorem answer (hb : p.Books) {frame : EpFrame} {status : EpStatus}
    (heps : p'.eps = (p.setEp x (some e')).eps) (he : p.eps x = some e) (hone : e.txns = [n])
    (hone' : e'.txns = [m]) (hid : m.id = n.id) (hreq : frame.req = n.id)
    (hframe : ∀ y k before turns, frame ≠ .error y k before turns) (hidle : p.stack = [])
    (hstack : p'.stack = [frame]) (hcalls : p'.calls = p.calls)
    (haccepted : p'.accepted = p.accepted) (hrefused : p'.refused = p.refused)
    (hlog : p'.log = p.log ++ [.called frame.req status]) (hdown : p'.down = p.down) :
    p'.Books := by
  have herrors : p.SameErrors p' := by
    intro y k before turns
    simp only [hidle, hstack, List.mem_singleton, List.not_mem_nil, iff_false]
    exact (hframe y k before turns).symm
  have hhas : p.Has x frame.req := ⟨n, .inl ⟨e, he, by simp [hone]⟩, hreq.symm⟩
  exact hb.call hcalls haccepted hrefused (has_same heps herrors he hone hone' hid)
    (popped_same hb.ids heps herrors he hone hone' hid) frame hhas hidle hstack hlog hdown

/-- The request of an endpoint is popped, and called back with an error. -/
theorem pop (hb : p.Books) {before turns : Nat} {status : EpStatus}
    (heps : p'.eps = (p.setEp x (some e')).eps) (he : p.eps x = some e) (hone : e.txns = [n])
    (hnil : e'.txns = []) (hidle : p.stack = []) (hstack : p'.stack = [.error x n before turns])
    (hcalls : p'.calls = p.calls) (haccepted : p'.accepted = p.accepted)
    (hrefused : p'.refused = p.refused) (hlog : p'.log = p.log ++ [.called n.id status])
    (hdown : p'.down = p.down) : p'.Books := by
  have hhas : p.Has x n.id := ⟨n, .inl ⟨e, he, by simp [hone]⟩, rfl⟩
  have he' : p'.eps x = some e' := by rw [heps, setEp_eps, if_pos rfl]
  exact hb.call hcalls haccepted hrefused (has_popped heps he hone hnil hidle hstack)
    (popped_error he' hnil hstack) (.error x n before turns) hhas hidle hstack hlog hdown

/-- `sk_ep_pool_destroy` releases what the pool has, without a callback. -/
theorem swept (hb : p.Books) (h : p.Inv) {xs : List EpId} {s : TimerSvc EpTimerKind}
    (hstack : p.stack = []) (hall : ∀ x, x ∈ xs ↔ (p.eps x).isSome) (hnodup : xs.Nodup) :
    (p.swept xs s).Books := by
  have hnone : ∀ y i, ¬ (p.swept xs s).Has y i := by
    rintro y i ⟨n, ⟨e, he, -⟩ | ⟨before, turns, hframe⟩, -⟩
    · exact absurd he (by simp [EpPool.swept])
    · exact absurd hframe (by simp [EpPool.swept, hstack])
  have hlife : Lifecycle (fun _ => False) (fun _ => False) (· ∈ p.accepted) (fun _ => true = true)
      (p.log ++ (p.requests xs).map .released) :=
    hb.life.drop (h.requests_nodup hb.ids hnodup) (fun i => mem_requests hstack hall)
      (by simp [Running, hstack]) fun _ _ => rfl
  refine hb.move rfl rfl rfl (fun y i hi => absurd hi (hnone y i)) ?_ ?_
  · intro y e n m before turns he _ _
    exact absurd he (by simp [EpPool.swept])
  · refine hlife.congr (fun i => ?_) (fun i => ?_) (fun i => Iff.rfl) fun i hdrop => hdrop
    · simp [Held, hnone]
    · simp [Running, EpPool.swept, hstack]

end Books

/-- **Every effect of a step keeps the books.** -/
theorem Effect.books (h : p.Inv) (hb : p.Books) (heffect : Effect p a p') : p'.Books := by
  have hfresh : ∀ e, p.eps p.nextEp = some e → e.txns = [] := by simp [h.next_none]
  -- an endpoint that was found without a request has none
  have hfree : ∀ {x e}, p.eps x = some e → e.txns = [] →
      ∀ e', p.eps x = some e' → e'.txns = [] := by
    intro x e he hnil e' he'
    rw [← Option.some.inj (he.symm.trans he'), hnil]
  cases heffect with
  | quiet _ _ _ =>
    exact hb.still rfl rfl rfl (has_congr rfl rfl) (popped_congr hb.ids.popped rfl rfl) rfl rfl rfl
  | refuse =>
    exact hb.refuse rfl rfl rfl (has_congr rfl rfl) (popped_congr hb.ids.popped rfl rfl) rfl rfl rfl
  | lost _ _ =>
    exact hb.refuse rfl rfl rfl (has_congr rfl rfl) (popped_congr hb.ids.popped rfl rfl) rfl rfl rfl
  | @pending req env c s _ hconn =>
    have heps := added_setEps p.begun (newEp .tcp req.key
      { req.node p.calls p.tmsvc.now with status := .pending } .connecting c) s
    have hstack := added_stack p.begun (newEp .tcp req.key
      { req.node p.calls p.tmsvc.now with status := .pending } .connecting c) s
    exact hb.put heps hfresh rfl rfl rfl rfl rfl hstack rfl rfl
  | @fresh req env type recv shut s _ hsend =>
    set n := req.node p.calls p.tmsvc.now with hn
    set e := newEp type req.key n .connected none with he
    have hstack := added_stack p.begun e (p.tmsvc.elapse env.delay)
    have heps := setEp_over (added_setEps p.begun e (p.tmsvc.elapse env.delay)) (some { e with
      txns := [{ n with status := .sent, recvTimer := recv }], shutdownTimer := shut
      sent := e.sent + 1 })
    exact hb.put heps hfresh rfl rfl rfl rfl rfl hstack rfl rfl
  | @reuse req env type x e recv shut s hfinds hexist hnew hsend =>
    set n := req.node p.calls p.tmsvc.now with hn
    obtain ⟨he, -, -, hnil⟩ := hexist
    have heps : ((p.begun.reused x e n).wrote x { e with txns := [n], ntxn := e.ntxn + 1 } n recv shut
        s).eps = (p.setEp x (some { e with
          txns := [{ n with status := .sent, recvTimer := recv }], ntxn := e.ntxn + 1
          shutdownTimer := shut, sent := e.sent + 1 })).eps := setEp_over rfl _
    exact hb.put heps (hfree he hnil) rfl rfl rfl rfl rfl rfl rfl rfl
  | @reuseLost req env type x e hfinds hexist =>
    -- the endpoint goes, and the request it was found for is refused
    obtain ⟨he, -, -, hnil⟩ := hexist
    have heps := gone_eps p x e
    have herrors : p.SameErrors (p.gone x e) := sameErrors_of_eq rfl
    exact hb.refuse rfl rfl rfl (has_none heps herrors (hfree he hnil) (by simp))
      (popped_none hb.ids heps herrors (by simp)) rfl rfl rfl
  | @close _ x e shut s _ hstack he hnil _ howned =>
    set q : EpPool := { p.setEp x (some { e with shutdownTimer := shut }) with
      errors := p.errors ++ [x], tmsvc := s } with hq
    have heps : (q.broken x { e with shutdownTimer := shut } 0 0).eps = (p.setEp x none).eps :=
      (gone_eps _ x _).trans (setEp_over rfl none)
    have herrors : p.SameErrors (q.broken x { e with shutdownTimer := shut } 0 0) :=
      sameErrors_of_eq rfl
    exact hb.still rfl rfl rfl (has_none heps herrors (hfree he hnil) (by simp))
      (popped_none hb.ids heps herrors (by simp)) rfl rfl rfl
  | @fail _ x e e₀ n s _ hstack hbreaks =>
    set q : EpPool := { p.setEp x (some e₀) with errors := p.errors ++ [x], tmsvc := s } with hq
    have heps : (q.failed x e₀ n 1 0).eps = (p.setEp x (some { e₀ with txns := [] })).eps :=
      setEp_over rfl _
    have hstack' : (q.failed x e₀ n 1 0).stack = [.error x n 1 1] := by
      show .error x n 1 1 :: p.stack = _
      rw [hstack]
    exact hb.pop heps hbreaks.ent hbreaks.one rfl hstack hstack' rfl rfl rfl rfl rfl
  | @buffered x e bytes results hstack he _ =>
    -- only the bytes read change
    have hhas : ∀ y i, (p.setEp x (some { e with rbuf := e.rbuf ++ bytes })).Has y i ↔ p.Has y i := by
      intro y i
      simp only [Has, Node, setEp_eps, setEp_stack]
      grind
    have hpopped : (p.setEp x (some { e with rbuf := e.rbuf ++ bytes })).Popped := by
      refine popped_of hb.ids (sameErrors_of_eq rfl) fun y e₁ m he₁ hm => ?_
      rw [setEp_eps] at he₁
      grind
    exact hb.still rfl rfl rfl hhas hpopped rfl rfl rfl
  | @answered x e n bytes results c hstack he hstatus hone _ _ =>
    set q : EpPool := { p.setEp x (some { e with
      rbuf := (e.rbuf ++ bytes).drop c.toNat, consumed := e.consumed + 1
      txns := [{ n with recvTimer := none }] }) with
      tmsvc := p.tmsvc.cancelled n.recvTimer } with hq
    have hstack' : (q.call (.ok x n.id) n.id .ok).stack = [.ok x n.id] := by
      show .ok x n.id :: p.stack = _
      rw [hstack]
    exact hb.answer rfl he hone rfl rfl rfl (by simp) hstack hstack' rfl rfl rfl rfl rfl
  | @timedOut t τ x e n hstack hτ hkind _ he hstatus hone hrecv =>
    set q : EpPool := { p.setEp x (some { e with txns := [{ n with recvTimer := none }] }) with
      tmsvc := p.tmsvc.destroy t } with hq
    have hstack' : (q.call (.timeout x n.id) n.id .timeout).stack = [.timeout x n.id] := by
      show .timeout x n.id :: p.stack = _
      rw [hstack]
    exact hb.answer rfl he hone rfl rfl rfl (by simp) hstack hstack' rfl rfl rfl rfl rfl
  | @connected x e n written recv shut s hstack he hstatus hshut hone hsend =>
    -- the request that waited is written, and keeps its number
    set q : EpPool := { p.setEp x (some { e with status := .connected, connTimer := none }) with
      tmsvc := p.tmsvc.cancelled e.connTimer } with hq
    have heps : (q.wrote x { e with status := .connected, connTimer := none } n recv shut s).eps =
        (p.setEp x (some { e with
          status := .connected, connTimer := none
          txns := [{ n with status := .sent, recvTimer := recv }], shutdownTimer := shut
          sent := e.sent + 1 })).eps := setEp_over rfl _
    have herrors : p.SameErrors (q.wrote x { e with status := .connected, connTimer := none } n recv
        shut s) := sameErrors_of_eq rfl
    exact hb.still rfl rfl rfl (has_same heps herrors he hone rfl rfl)
      (popped_same hb.ids heps herrors he hone rfl rfl) rfl rfl rfl
  | @destroy xs s hstack hall hnodup hidle => exact hb.swept h hstack hall hnodup
  | @returnOk x e n t s delay hstack he hone hshut =>
    have hnode : p.Node x n := .inl ⟨e, he, by simp [hone]⟩
    refine hb.release rfl rfl rfl (.ok x n.id) ?_ hstack rfl rfl rfl
    refine has_removed hb.ids rfl hnode (fun m => ?_) (by simp [hstack]) rfl
    simp only [Node, setEp_eps, hstack]
    grind
  | @returnTimeout x e n hstack he hone =>
    have hnode : p.Node x n := .inl ⟨e, he, by simp [hone]⟩
    refine hb.release rfl rfl rfl (.timeout x n.id) ?_ hstack rfl rfl rfl
    refine has_removed hb.ids rfl hnode (fun m => ?_) (by simp [hstack]) rfl
    simp only [Node, setEp_eps, hstack]
    grind
  | @returnClose x e n before turns hstack he hnil =>
    have hnode : p.Node x n := .inr ⟨before, turns, by simp [hstack]⟩
    set q : EpPool := { p.setEp x (some { e with ntxn := e.ntxn - 1 }) with
      stack := [], tmsvc := p.tmsvc.cancelled n.recvTimer
      log := p.log ++ [.released n.id] } with hq
    have heps : (q.broken x { e with ntxn := e.ntxn - 1 } before turns).eps =
        (p.setEp x none).eps := (gone_eps _ x _).trans (setEp_over rfl none)
    have hstack' : (q.broken x { e with ntxn := e.ntxn - 1 } before turns).stack = [] := rfl
    refine hb.release rfl rfl rfl (.error x n before turns) ?_ hstack rfl rfl rfl
    refine has_removed hb.ids heps hnode (fun m => ?_) (by rw [hstack]; grind) rfl
    simp only [Node, heps, setEp_eps, hstack, hstack', he]
    grind
  | @returnFail x e n m before turns hstack he hone hm =>
    -- the request whose callback returns is released, and the next one is popped
    have hnode : p.Node x n := .inr ⟨before, turns, by simp [hstack]⟩
    set e₁ : Ep := { e with ntxn := e.ntxn - 1 } with he₁
    set q : EpPool := { p.setEp x (some e₁) with
      stack := [], tmsvc := p.tmsvc.cancelled n.recvTimer
      log := p.log ++ [.released n.id] } with hq
    have hreleased : q.Books := by
      refine hb.release rfl rfl rfl (.error x n before turns) ?_ hstack rfl rfl rfl
      refine has_removed hb.ids rfl hnode (fun k => ?_) (by rw [hstack]; grind) rfl
      simp only [Node, hq, setEp_eps, hstack]
      grind
    have heps : (q.failed x e₁ m before turns).eps = (q.setEp x (some { e₁ with txns := [] })).eps :=
      rfl
    have hqe : q.eps x = some e₁ := by simp [hq]
    exact hreleased.pop heps hqe hone rfl rfl rfl rfl rfl rfl rfl rfl

end EpPool

end Skull
