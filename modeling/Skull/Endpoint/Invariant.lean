import Skull.Endpoint.Steps

namespace Skull

open Machines

/-!
# What holds of a pool at every moment

* `Shape` — what an endpoint can look like between two steps: it has one request at most;
* `EpPool.Points` — which pointer points to which timer;
* `EpPool.Inv` — the invariant: the shapes, the mapping and the counter of each manager, the
  pointers to timers, and at most one callback running;
* `EpPool.Inv.change`, `EpPool.Inv.remove`, `EpPool.Inv.insert` — how a step that touches one
  endpoint keeps it.
-/

/-- What an endpoint can look like; `dying` says that `_handle_error` is running on it. -/
inductive Shape (dying : Bool) (e : Ep) : Prop
  /-- It waits for its connection, with one request. -/
  | pending {n : EpNode} (hstatus : e.status = .connecting) (htype : e.type = .tcp)
      (hshut : e.shutdownTimer = none) (hone : e.txns = [n]) (hn : n.status = .pending)
      (hrecv : n.recvTimer = none) (hntxn : e.ntxn = 1) (hdying : dying = false)
  /-- It never connected, and its request is called back. -/
  | unconnected (hstatus : e.status = .connecting) (hshut : e.shutdownTimer = none)
      (hnil : e.txns = []) (hdying : dying = true)
  /-- It is connected, and has no request. -/
  | free (hstatus : e.status = .connected) (hconn : e.connTimer = none) (hnil : e.txns = [])
      (hntxn : e.ntxn = if dying then 1 else 0)
  /-- It is connected, and has one request. -/
  | busy {n : EpNode} (hstatus : e.status = .connected) (hconn : e.connTimer = none)
      (hone : e.txns = [n]) (hn : n.status = .sent) (hntxn : e.ntxn = if dying then 2 else 1)

/-- An endpoint with a request waits for its connection, or has written the request. -/
theorem Shape.one {dying : Bool} {e : Ep} {n : EpNode} (h : Shape dying e) (hone : e.txns = [n]) :
    e.status = .connecting ∧ dying = false ∧ n.recvTimer = none ∧ e.ntxn = 1 ∨
      e.status = .connected ∧ e.connTimer = none ∧ n.status = .sent ∧
        e.ntxn = if dying then 2 else 1 := by
  cases h with
  | pending hstatus _ _ hone' _ hrecv hntxn hdying =>
    obtain rfl := List.singleton_inj.mp (hone.symm.trans hone')
    exact .inl ⟨hstatus, hdying, hrecv, hntxn⟩
  | unconnected _ _ hnil _ => exact absurd (hone.symm.trans hnil) (by simp)
  | free _ _ hnil _ => exact absurd (hone.symm.trans hnil) (by simp)
  | busy hstatus hconn hone' hn hntxn =>
    obtain rfl := List.singleton_inj.mp (hone.symm.trans hone')
    exact .inr ⟨hstatus, hconn, hn, hntxn⟩

/-- An endpoint connects, or is connected. -/
theorem Shape.status {dying : Bool} {e : Ep} (h : Shape dying e) :
    e.status = .connecting ∨ e.status = .connected := by
  cases h with
  | pending hstatus _ _ _ _ _ _ _ => exact .inl hstatus
  | unconnected hstatus _ _ _ => exact .inl hstatus
  | free hstatus _ _ _ => exact .inr hstatus
  | busy hstatus _ _ _ _ => exact .inr hstatus

/-- An endpoint has at most one request, which was looked at. -/
theorem Shape.requests {dying : Bool} {e : Ep} (h : Shape dying e) :
    e.txns = [] ∨ ∃ n, e.txns = [n] ∧ n.status ≠ .init := by
  cases h with
  | pending _ _ _ hone hn _ _ _ => exact .inr ⟨_, hone, by simp [hn]⟩
  | unconnected _ _ hnil _ => exact .inl hnil
  | free _ _ hnil _ => exact .inl hnil
  | busy _ _ hone hn _ => exact .inr ⟨_, hone, by simp [hn]⟩

/-- A request of an endpoint is its only one. -/
theorem Shape.one_of_mem {dying : Bool} {e : Ep} {n : EpNode} (h : Shape dying e)
    (hmem : n ∈ e.txns) : e.txns = [n] := by
  rcases h.requests with hnil | ⟨m, hone, -⟩
  · simp [hnil] at hmem
  · rw [hone, List.mem_singleton] at hmem
    rw [hone, hmem]

/-- The request of a connected endpoint is written. -/
theorem Shape.sent {dying : Bool} {e : Ep} {n : EpNode} (h : Shape dying e)
    (hstatus : e.status = .connected) (hone : e.txns = [n]) :
    e.connTimer = none ∧ n.status = .sent ∧ e.ntxn = if dying then 2 else 1 := by
  rcases h.one hone with ⟨hconnecting, -⟩ | ⟨-, hsent⟩
  · exact absurd (hstatus.symm.trans hconnecting) (by simp)
  · exact hsent

namespace EpPool

/-- `n` is a request of `x`: in its list, or popped by `_handle_error` and called back now. -/
def Node (p : EpPool) (x : EpId) (n : EpNode) : Prop :=
  (∃ e, p.eps x = some e ∧ n ∈ e.txns) ∨ ∃ before turns, .error x n before turns ∈ p.stack

/-- The pointer for a callback points to a timer. -/
def Points (p : EpPool) : EpTimerKind → TimerId → Prop
  | .conn x, t => ∃ e, p.eps x = some e ∧ e.connTimer = some t
  | .shutdown x, t => ∃ e, p.eps x = some e ∧ e.shutdownTimer = some t
  | .recv x req, t => ∃ n, p.Node x n ∧ n.id = req ∧ n.recvTimer = some t

/-- What the handler of a running callback relies on. -/
def FrameOk (p : EpPool) : EpFrame → Prop
  | .ok x req | .timeout x req => ∃ e n, p.eps x = some e ∧ e.txns = [n] ∧ n.id = req ∧
      n.recvTimer = none ∧ e.status = .connected
  | .error x n _ _ => n.status ≠ .init ∧ x < p.nextEp

/-- At most one callback is running. -/
def StackOk (p : EpPool) : Prop := p.stack = [] ∨ ∃ frame, p.stack = [frame] ∧ p.FrameOk frame

/-- **The invariant.** -/
structure Inv (p : EpPool) : Prop where
  timers : TimerSvc.Owned p.Points p.tmsvc
  shape : ∀ x e, p.eps x = some e → Shape (p.dying x) e
  bound : ∀ x e, p.eps x = some e → x < p.nextEp ∧ e.flags = 0
  mapped : ∀ type key x, x ∈ (p.mgr type).epList key ↔
    ∃ e, p.eps x = some e ∧ e.type = type ∧ e.key = key
  nodup : ∀ type key, ((p.mgr type).epList key).Nodup
  nep : ∀ type, (p.mgr type).nep = (p.mgr type).total
  tmp : ∀ type, (p.mgr type).tmp = []
  stack : p.StackOk

variable {p p' : EpPool} {x : EpId} {e e' : Ep}

namespace Inv

/-- The connection timer of an endpoint is there. -/
theorem timed_conn (h : p.Inv) (he : p.eps x = some e) : p.Timed e.connTimer := fun _ ht =>
  h.timers.isSome (k := .conn x) ⟨e, he, ht⟩

theorem timed_shutdown (h : p.Inv) (he : p.eps x = some e) : p.Timed e.shutdownTimer :=
  fun _ ht => h.timers.isSome (k := .shutdown x) ⟨e, he, ht⟩

/-- So is the timer of a request. -/
theorem timed_recv (h : p.Inv) {n : EpNode} (hn : p.Node x n) : p.Timed n.recvTimer :=
  fun _ ht => h.timers.isSome (k := .recv x n.id) ⟨n, hn, rfl, ht⟩

/-- No endpoint is at the address of the next one. -/
theorem next_none (h : p.Inv) : p.eps p.nextEp = none := by
  cases he : p.eps p.nextEp with
  | none => rfl
  | some e => exact absurd (h.bound _ e he).1 (Nat.lt_irrefl _)

/-- The next endpoint is in no list yet. -/
theorem next_fresh (h : p.Inv) (type : EpType) (key : EpKey) :
    p.nextEp ∉ (p.mgr type).epList key := by
  intro hmem
  obtain ⟨e, he, -⟩ := (h.mapped type key _).mp hmem
  exact absurd (h.bound _ e he).1 (Nat.lt_irrefl _)

/-- Only the history and the clock differ. -/
theorem quiet (h : p.Inv) (heps : p'.eps = p.eps) (hnext : p.nextEp ≤ p'.nextEp)
    (hmgr : p'.mgr = p.mgr) (hstack : p'.stack = p.stack)
    (htimers : TimerSvc.Owned p.Points p'.tmsvc) : p'.Inv := by
  have hdying : p'.dying = p.dying := by funext x; rw [dying, dying, hstack]
  have hpoints : p'.Points = p.Points := by
    funext k t
    cases k <;> simp only [Points, Node, heps, hstack]
  refine ⟨by rw [hpoints]; exact htimers, ?_, ?_, ?_, by rw [hmgr]; exact h.nodup,
    by rw [hmgr]; exact h.nep, by rw [hmgr]; exact h.tmp, ?_⟩
  · rw [heps, hdying]
    exact h.shape
  · rw [heps]
    exact fun x e he => ⟨Nat.lt_of_lt_of_le (h.bound x e he).1 hnext, (h.bound x e he).2⟩
  · rw [heps, hmgr]
    exact h.mapped
  · rcases h.stack with hnil | ⟨frame, hone, hok⟩
    · exact .inl (hstack.trans hnil)
    · refine .inr ⟨frame, hstack.trans hone, ?_⟩
      cases frame with
      | error x n before turns => exact ⟨hok.1, Nat.lt_of_lt_of_le hok.2 hnext⟩
      | ok x req => simpa only [FrameOk, heps] using hok
      | timeout x req => simpa only [FrameOk, heps] using hok

/-- **One endpoint changes.** -/
theorem change (h : p.Inv) (he : p.eps x = some e) (hset : p'.eps = (p.setEp x (some e')).eps)
    (hnext : p'.nextEp = p.nextEp) (hmgr : p'.mgr = p.mgr)
    (hdying : ∀ y, y ≠ x → p'.dying y = p.dying y) (htype : e'.type = e.type)
    (hkey : e'.key = e.key) (hflags : e'.flags = e.flags) (hshape : Shape (p'.dying x) e')
    (hstack : p'.StackOk) (htimers : TimerSvc.Owned p'.Points p'.tmsvc) : p'.Inv := by
  have heps : ∀ y, y ≠ x → p'.eps y = p.eps y := fun y hy => by rw [hset, setEp_eps, if_neg hy]
  have he' : p'.eps x = some e' := by rw [hset, setEp_eps, if_pos rfl]
  refine ⟨htimers, fun y e₁ he₁ => ?_, fun y e₁ he₁ => ?_, fun type key y => ?_,
    by rw [hmgr]; exact h.nodup, by rw [hmgr]; exact h.nep, by rw [hmgr]; exact h.tmp, hstack⟩
  · by_cases hy : y = x
    · subst hy
      rw [← Option.some.inj (he'.symm.trans he₁)]
      exact hshape
    · rw [heps y hy] at he₁
      rw [hdying y hy]
      exact h.shape y e₁ he₁
  · rw [hnext]
    by_cases hy : y = x
    · subst hy
      rw [← Option.some.inj (he'.symm.trans he₁), hflags]
      exact h.bound y e he
    · rw [heps y hy] at he₁
      exact h.bound y e₁ he₁
  · rw [hmgr, h.mapped]
    by_cases hy : y = x
    · subst hy
      rw [he, he']
      simp only [Option.some.injEq, exists_eq_left', htype, hkey]
    · rw [heps y hy]

/-- The list of a key is opened. -/
theorem opened (h : p.Inv) (type : EpType) (key : EpKey) : (p.opened type key).Inv := by
  -- no callback begins or ends
  have hdying : (p.opened type key).dying = p.dying := by
    funext x
    rw [dying, dying, opened_stack]
  have hpoints : (p.opened type key).Points = p.Points := by
    funext k t
    cases k <;> simp only [Points, Node, opened_eps, opened_stack]
  -- only the table of one manager changes, and no list in it
  have hlist : ∀ type' key', ((p.opened type key).mgr type').epList key' =
      (p.mgr type').epList key' := fun type' key' => by
    rw [EpPool.opened, setMgr_mgr]
    split
    · next htype => rw [EpMgr.openList_epList, htype]
    · rfl
  have hcounts : ∀ type', ((p.opened type key).mgr type').nep = (p.mgr type').nep ∧
      ((p.opened type key).mgr type').total = (p.mgr type').total ∧
      ((p.opened type key).mgr type').tmp = (p.mgr type').tmp := fun type' => by
    rw [EpPool.opened, setMgr_mgr]
    split
    · next htype =>
      rw [EpMgr.openList_nep, EpMgr.openList_total, EpMgr.openList_tmp, htype]
      exact ⟨rfl, rfl, rfl⟩
    · exact ⟨rfl, rfl, rfl⟩
  -- no endpoint is made yet
  have hnext : (p.opened type key).nextEp = p.nextEp := by cases type <;> rfl
  refine ⟨?_, ?_, ?_, fun type' key' y => ?_, fun type' key' => ?_, fun type' => ?_,
    fun type' => ?_, ?_⟩
  · rw [hpoints, show (p.opened type key).tmsvc = p.tmsvc from setMgr_tmsvc p type _]
    exact h.timers
  · rw [opened_eps, hdying]
    exact h.shape
  · rw [opened_eps, hnext]
    exact h.bound
  · rw [opened_eps, hlist]
    -- what was listed is listed still
    exact h.mapped type' key' y
  · rw [hlist]
    exact h.nodup type' key'
  · rw [(hcounts type').1, (hcounts type').2.1]
    exact h.nep type'
  · rw [(hcounts type').2.2]
    exact h.tmp type'
  · have hframe : (p.opened type key).FrameOk = p.FrameOk := by
      funext frame
      cases frame <;> simp only [FrameOk, opened_eps, hnext]
    rw [StackOk, opened_stack, hframe]
    exact h.stack

/-- **One endpoint is gone.** -/
theorem remove (h : p.Inv) (he : p.eps x = some e) (hset : p'.eps = (p.setEp x none).eps)
    (hnext : p'.nextEp = p.nextEp)
    (hmgr : p'.mgr = (p.setMgr e.type ((p.mgr e.type).del e.key x)).mgr)
    (hdying : ∀ y, y ≠ x → p'.dying y = p.dying y) (hstack : p'.StackOk)
    (htimers : TimerSvc.Owned p'.Points p'.tmsvc) : p'.Inv := by
  have heps : ∀ y, y ≠ x → p'.eps y = p.eps y := fun y hy => by rw [hset, setEp_eps, if_neg hy]
  have he' : p'.eps x = none := by rw [hset, setEp_eps, if_pos rfl]
  have hin : x ∈ (p.mgr e.type).epList e.key := (h.mapped _ _ _).mpr ⟨e, he, rfl, rfl⟩
  -- the lists are those of before without `x`
  have hlist : ∀ type key, (p'.mgr type).epList key =
      ((p.mgr type).epList key).filter fun t => t ≠ x := fun type key => by
    have hother : ¬ (type = e.type ∧ key = e.key) →
        ((p.mgr type).epList key).filter (fun t => t ≠ x) = (p.mgr type).epList key := by
      intro hne
      rw [List.filter_eq_self]
      intro y hy
      refine decide_eq_true fun heq => hne ?_
      obtain ⟨e₁, he₁, htype, hkey⟩ := (h.mapped type key y).mp hy
      rw [heq, he] at he₁
      rw [Option.some.inj he₁]
      exact ⟨htype.symm, hkey.symm⟩
    rw [hmgr, setMgr_mgr]
    split
    · next htype =>
      rw [EpMgr.del_epList (h.tmp _)]
      split
      · next hkey => rw [htype, hkey]
      · next hkey => rw [← htype, hother fun hboth => hkey hboth.2]
    · next htype => rw [hother fun hboth => htype hboth.1]
  refine ⟨htimers, fun y e₁ he₁ => ?_, fun y e₁ he₁ => ?_, fun type key y => ?_,
    fun type key => ?_, fun type => ?_, fun type => ?_, hstack⟩
  · -- an endpoint that is there is another one
    have hy : y ≠ x := by
      rintro rfl
      exact absurd (he'.symm.trans he₁) (by simp)
    rw [hdying y hy]
    exact h.shape y e₁ (heps y hy ▸ he₁)
  · have hy : y ≠ x := by
      rintro rfl
      exact absurd (he'.symm.trans he₁) (by simp)
    rw [hnext]
    exact h.bound y e₁ (heps y hy ▸ he₁)
  · -- `x` is in no list, and not there
    rw [hlist, List.mem_filter, decide_eq_true_eq]
    by_cases hy : y = x
    · subst hy
      rw [he']
      simp
    · rw [heps y hy, ← h.mapped]
      exact and_iff_left hy
  · rw [hlist]
    exact (h.nodup type key).filter _
  · rw [hmgr, setMgr_mgr]
    split
    · -- the manager of `x` counts one less
      show (p.mgr e.type).nep - 1 = ((p.mgr e.type).removeEp e.key x).total
      rw [EpMgr.removeEp_total (h.tmp _) hin (h.nodup _ _), h.nep]
    · exact h.nep type
  · rw [hmgr, setMgr_mgr]
    split
    · exact EpMgr.removeEp_tmp (h.tmp _) e.key x
    · exact h.tmp type

/-- **One endpoint is new.** -/
theorem insert (h : p.Inv) (hset : p'.eps = (p.setEp p.nextEp (some e')).eps)
    (hnext : p'.nextEp = p.nextEp + 1)
    (hmgr : p'.mgr = (p.setMgr e'.type ((p.mgr e'.type).add e'.key p.nextEp)).mgr)
    (hdying : ∀ y, y ≠ p.nextEp → p'.dying y = p.dying y) (hflags : e'.flags = 0)
    (hshape : Shape (p'.dying p.nextEp) e') (hstack : p'.StackOk)
    (htimers : TimerSvc.Owned p'.Points p'.tmsvc) : p'.Inv := by
  have heps : ∀ y, y ≠ p.nextEp → p'.eps y = p.eps y := fun y hy => by
    rw [hset, setEp_eps, if_neg hy]
  have he' : p'.eps p.nextEp = some e' := by rw [hset, setEp_eps, if_pos rfl]
  -- the lists are those of before, one with the new endpoint
  have hlist : ∀ type key, (p'.mgr type).epList key = (p.mgr type).epList key ++
      if type = e'.type ∧ key = e'.key then [p.nextEp] else [] := fun type key => by
    rw [hmgr, setMgr_mgr]
    split
    · next htype =>
      rw [EpMgr.add_epList]
      split
      · next hkey => rw [if_pos ⟨htype, hkey⟩, htype, hkey]
      · next hkey => rw [if_neg fun hboth => hkey hboth.2, List.append_nil, htype]
    · next htype => rw [if_neg fun hboth => htype hboth.1, List.append_nil]
  refine ⟨htimers, fun y e₁ he₁ => ?_, fun y e₁ he₁ => ?_, fun type key y => ?_,
    fun type key => ?_, fun type => ?_, fun type => ?_, hstack⟩
  · by_cases hy : y = p.nextEp
    · subst hy
      rw [← Option.some.inj (he'.symm.trans he₁)]
      exact hshape
    · rw [hdying y hy]
      exact h.shape y e₁ (heps y hy ▸ he₁)
  · rw [hnext]
    by_cases hy : y = p.nextEp
    · subst hy
      rw [← Option.some.inj (he'.symm.trans he₁)]
      exact ⟨Nat.lt_succ_self _, hflags⟩
    · obtain ⟨hlt, hf⟩ := h.bound y e₁ (heps y hy ▸ he₁)
      exact ⟨Nat.lt_succ_of_lt hlt, hf⟩
  · rw [hlist, List.mem_append]
    by_cases hy : y = p.nextEp
    · subst hy
      rw [he', or_iff_right (h.next_fresh type key)]
      simp only [Option.some.injEq, exists_eq_left', eq_comm (a := e'.type), eq_comm (a := e'.key)]
      by_cases hboth : type = e'.type ∧ key = e'.key
      · simp [hboth]
      · simp [hboth]
    · rw [heps y hy, ← h.mapped, or_iff_left_iff_imp]
      intro hmem
      split at hmem
      · exact absurd (List.mem_singleton.mp hmem) hy
      · exact absurd hmem List.not_mem_nil
  · rw [hlist]
    split
    · refine List.nodup_append.mpr ⟨h.nodup type key, List.nodup_singleton _, ?_⟩
      rintro y hy _ hlast rfl
      exact h.next_fresh type key (List.mem_singleton.mp hlast ▸ hy)
    · rw [List.append_nil]
      exact h.nodup type key
  · rw [hmgr, setMgr_mgr]
    split
    · rw [EpMgr.add_nep, EpMgr.add_total, h.nep]
    · exact h.nep type
  · rw [hmgr, setMgr_mgr]
    split
    · exact h.tmp e'.type
    · exact h.tmp type

end Inv

end EpPool

end Skull
