import Skull.Endpoint.Effect

namespace Skull

open Machines

/-!
# A step of a pool keeps the invariant

* `EpPool.Refresh.owned`, `EpPool.SendTimers.owned` — the timers that are set, and their pointers;
* `EpPool.Inv.gone`, `EpPool.Inv.failed`, `EpPool.Inv.added` — an endpoint is gone, its request is
  called back with an error, or it is new;
* `EpPool.Effect.inv` — every effect of a step keeps the invariant.
-/

namespace EpPool

variable {p p' : EpPool} {x : EpId} {e e' : Ep} {n m : EpNode}

/-! ### Refreshing -/

/-- A shutdown timer that is made or reset belongs to its endpoint. -/
theorem Refresh.owned {pts pts' : EpTimerKind → TimerId → Prop} {s s' : TimerSvc EpTimerKind}
    {old : Option TimerId} {delay : Nat} {t : TimerId} (h : Refresh s x old delay t s')
    (howned : TimerSvc.Owned pts s) (hold : ∀ i, pts (.shutdown x) i ↔ old = some i)
    (hpts : ∀ k i, k ≠ .shutdown x → (pts' k i ↔ pts k i))
    (hshut : ∀ i, pts' (.shutdown x) i ↔ i = t) : TimerSvc.Owned pts' s' := by
  cases h with
  | @reset t τ hold' hτ hfire =>
    have hset : TimerSvc.Owned pts (s.set t (some { τ with due := s.now + delay })) :=
      howned.set hτ rfl rfl
    refine hset.congr fun k i => ?_
    by_cases hk : k = .shutdown x
    · subst hk
      rw [hshut, hold, hold']
      grind
    · exact hpts k i hk
  | create hold' =>
    have hpts₁ : TimerSvc.Owned (fun k i => k ≠ .shutdown x ∧ pts k i) (s.cancelled old) := by
      exact howned.cancelled _ hold fun k i => and_comm
    refine hpts₁.create fun k i => ?_
    by_cases hk : k = .shutdown x
    · subst hk
      rw [hshut]
      simp
    · rw [hpts k i hk]
      simp [hk]

/-- The timers of a request that is sent belong to it and to its endpoint. -/
theorem SendTimers.owned {pts pts' : EpTimerKind → TimerId → Prop} {s s' : TimerSvc EpTimerKind}
    {old recv shut : Option TimerId} (h : SendTimers s x n old recv shut s')
    (howned : TimerSvc.Owned pts s) (hold : ∀ i, pts (.shutdown x) i ↔ old = some i)
    (hnone : ∀ i, ¬ pts (.recv x n.id) i)
    (hpts : ∀ k i, k ≠ .shutdown x → k ≠ .recv x n.id → (pts' k i ↔ pts k i))
    (hshut : ∀ i, pts' (.shutdown x) i ↔ shut = some i)
    (hrecv : ∀ i, pts' (.recv x n.id) i ↔ recv = some i) : TimerSvc.Owned pts' s' := by
  cases h with
  | @limited t s₁ hlimit hunpack h =>
    -- first the shutdown timer is set, then the one of the request
    have hmid : TimerSvc.Owned (fun k i => pts' k i ∧ k ≠ .recv x n.id) s₁ := by
      refine h.owned howned hold (fun k i hk => ?_) fun i => ?_
      · by_cases hk' : k = .recv x n.id
        · subst hk'
          simp [hnone]
        · simp [hpts k i hk hk', hk']
      · rw [hshut]
        simp [eq_comm]
    refine hmid.create fun k i => ?_
    by_cases hk : k = .recv x n.id
    · subst hk
      rw [hrecv]
      simp [eq_comm]
    · simp [hk]
  | oneWay hunpack h =>
    refine h.owned howned hold (fun k i hk => ?_) fun i => ?_
    · by_cases hk' : k = .recv x n.id
      · subst hk'
        simp [hnone, hrecv]
      · exact hpts k i hk hk'
    · rw [hshut]
      simp [eq_comm]
  | unlimited hlimit hunpack =>
    refine howned.congr fun k i => ?_
    by_cases hk : k = .shutdown x
    · subst hk
      rw [hshut, hold]
    · by_cases hk' : k = .recv x n.id
      · subst hk'
        simp [hnone, hrecv]
      · exact hpts k i hk hk'


/-! ### The invariant is kept -/

/-- Nothing runs on an endpoint when no callback runs. -/
theorem dying_nil (hstack : p.stack = []) (x : EpId) : p.dying x = false := by
  rw [dying, hstack]
  rfl

namespace Inv

/-- Without a callback, a request of an endpoint is in its list. -/
theorem node_nil (hstack : p.stack = []) : p.Node x n ↔ ∃ e, p.eps x = some e ∧ n ∈ e.txns := by
  simp [Node, hstack]

/-- The callback that runs is one that may. -/
theorem frameOk (h : p.Inv) {frame : EpFrame} (hstack : p.stack = [frame]) : p.FrameOk frame := by
  rcases h.stack with hnil | ⟨frame', hframe, hok⟩
  · exact absurd (hstack.symm.trans hnil) (by simp)
  · rw [hstack, List.singleton_inj] at hframe
    exact hframe ▸ hok

/-- An endpoint is gone with its timers. -/
theorem gone_owned {q : EpPool} (howned : TimerSvc.Owned q.Points q.tmsvc) (he : q.eps x = some e)
    (hnil : e.txns = []) :
    TimerSvc.Owned (q.gone x e).Points (q.gone x e).tmsvc := by
  have hconn : TimerSvc.Owned (fun k i => q.Points k i ∧ k ≠ .conn x)
      (q.tmsvc.cancelled e.connTimer) :=
    howned.cancelled (.conn x) (fun i => by simp [Points, he]) fun k i => Iff.rfl
  refine hconn.cancelled (.shutdown x) (fun i => by simp [Points, he]) fun k i => ?_
  cases k <;> simp only [Points, Node, gone, setEp_eps, setMgr_eps, setEp_stack,
    setMgr_stack] <;> grind

/-- **An endpoint without a request is gone.** -/
theorem gone (h : p.Inv) {q : EpPool} {e₀ : Ep} (he : p.eps x = some e) (hnil : e₀.txns = [])
    (hsame : e₀.type = e.type ∧ e₀.key = e.key) (heps : ∀ y, y ≠ x → q.eps y = p.eps y)
    (he₀ : q.eps x = some e₀) (hnext : q.nextEp = p.nextEp) (hmgr : q.mgr = p.mgr)
    (hdying : ∀ y, y ≠ x → q.dying y = p.dying y) (hstack : (q.gone x e₀).StackOk)
    (howned : TimerSvc.Owned q.Points q.tmsvc) : Inv (q.gone x e₀) := by
  have hsamedying : (q.gone x e₀).dying = q.dying := by
    funext y
    rfl
  refine h.remove he ?_ hnext ?_ (fun y hy => ?_) hstack
    (gone_owned howned he₀ hnil)
  · rw [gone_eps]
    funext y
    simp only [setEp_eps]
    split
    · rfl
    · rename_i hy
      exact heps y hy
  · rw [gone_mgr, hsame.1, hsame.2, hmgr]
    funext type
    rw [setMgr_mgr, setMgr_mgr, hmgr]
  · rw [hsamedying, hdying y hy]

/-- An error is called back. -/
theorem failed (h : p.Inv) (q : EpPool) (e₀ : Ep) (he : p.eps x = some e)
    (hsame : e₀.type = e.type ∧ e₀.key = e.key ∧ e₀.flags = e.flags)
    (heps : q.eps = (p.setEp x (some e₀)).eps) (hnext : q.nextEp = p.nextEp)
    (hmgr : q.mgr = p.mgr) (hstack : q.stack = []) (hdying : ∀ y, y ≠ x → p.dying y = false)
    (hone : e₀.txns = [n]) (hn : n.status ≠ .init)
    (hstate : e₀.status = .connecting ∧ e₀.shutdownTimer = none ∨
      e₀.status = .connected ∧ e₀.connTimer = none ∧ e₀.ntxn = 1)
    (howned : TimerSvc.Owned q.Points q.tmsvc) (before turns : Nat) :
    Inv (q.failed x e₀ n before turns) := by
  have hnew : ∀ y, (q.failed x e₀ n before turns).dying y = decide (y = x) := by
    intro y
    simp [EpPool.failed, call, dying, hstack]
  have hset : (q.failed x e₀ n before turns).eps =
      (p.setEp x (some { e₀ with txns := [] })).eps := by
    funext y
    simp only [EpPool.failed, call, setEp_eps, heps]
    grind
  refine h.change he hset hnext hmgr (fun y hy => ?_) hsame.1 hsame.2.1 hsame.2.2 ?_ ?_ ?_
  · rw [hnew, hdying y hy]
    simp [hy]
  · rw [hnew, decide_eq_true rfl]
    rcases hstate with ⟨hstatus, hshut⟩ | ⟨hstatus, hconn, hntxn⟩
    · exact .unconnected hstatus hshut rfl rfl
    · exact .free hstatus hconn rfl hntxn
  · refine .inr ⟨.error x n before (turns + 1), ?_, hn, hnext ▸ (h.bound x e he).1⟩
    simp [EpPool.failed, call, hstack]
  · have hx : q.eps x = some e₀ := by rw [heps, setEp_eps, if_pos rfl]
    refine howned.congr fun k t => ?_
    cases k <;> simp only [Points, Node, EpPool.failed, call, setEp_eps, setEp_stack, hstack,
      setEp_tmsvc] <;> grind

/-- **A callback of a timeout returns**: the request is gone. -/
theorem returnTimeout (h : p.Inv) (hstack : p.stack = [.timeout x n.id]) (he : p.eps x = some e)
    (hone : e.txns = [n]) :
    Inv { p.setEp x (some { e with txns := [], ntxn := e.ntxn - 1 }) with
        stack := [], log := p.log ++ [.released n.id] } := by
  obtain ⟨hrecv, hconnected⟩ : n.recvTimer = none ∧ e.status = .connected := by
    obtain ⟨e', n', he', hone', -, hrecv', hstatus⟩ := h.frameOk hstack
    grind
  have hdying : ∀ y, p.dying y = false := fun y => by rw [dying, hstack]; rfl
  refine h.change he rfl rfl rfl (fun y _ => ?_) rfl rfl rfl ?_ (.inl rfl) ?_
  · rw [hdying]
    rfl
  · obtain ⟨hconn, -, hntxn⟩ := (h.shape x e he).sent hconnected hone
    rw [hdying, if_neg (by simp)] at hntxn
    refine .free hconnected hconn rfl ?_
    simp [hntxn, dying]
  · refine h.timers.congr fun k t => ?_
    cases k <;> simp only [Points, Node, setEp_eps, hstack] <;> grind


/-- No callback of an error is running. -/
theorem dying_ok {req : ReqId} (hstack : p.stack = [.ok x req]) (y : EpId) : p.dying y = false := by
  rw [dying, hstack]
  rfl

/-- **A callback with an answer returns**: the request is gone, and the endpoint will shut down. -/
theorem returnOk (h : p.Inv) {s : TimerSvc EpTimerKind} {t : TimerId} {delay : Nat}
    (hstack : p.stack = [.ok x n.id]) (he : p.eps x = some e) (hone : e.txns = [n])
    (hshut : Refresh p.tmsvc x e.shutdownTimer delay t s) :
    Inv { p.setEp x (some { e with txns := [], ntxn := e.ntxn - 1, shutdownTimer := some t }) with
        stack := [], tmsvc := s, log := p.log ++ [.released n.id] } := by
  obtain ⟨hrecv, hconnected⟩ : n.recvTimer = none ∧ e.status = .connected := by
    obtain ⟨e', n', he', hone', -, hrecv', hstatus⟩ := h.frameOk hstack
    grind
  have hdying := dying_ok hstack
  refine h.change he rfl rfl rfl (fun y _ => ?_) rfl rfl rfl ?_ (.inl rfl) ?_
  · rw [hdying]
    rfl
  · obtain ⟨hconn, -, hntxn⟩ := (h.shape x e he).sent hconnected hone
    rw [hdying, if_neg (by simp)] at hntxn
    refine .free hconnected hconn rfl ?_
    simp [hntxn, dying]
  · refine hshut.owned h.timers (fun i => ?_) (fun k i hk => ?_) fun i => ?_
    · simp [Points, he]
    · cases k <;> simp only [Points, Node, setEp_eps, hstack] <;> grind
    · simp [Points, eq_comm]

/-- **A request is answered**: its callback begins. -/
theorem answered (h : p.Inv) (hstack : p.stack = []) (he : p.eps x = some e)
    (hstatus : e.status = .connected) (hone : e.txns = [n]) (rbuf : List UInt8) (consumed : Nat) :
    Inv (({ p.setEp x (some { e with rbuf, consumed, txns := [{ n with recvTimer := none }] }) with
      tmsvc := p.tmsvc.cancelled n.recvTimer } : EpPool).call (.ok x n.id) n.id .ok) := by
  have hdying := dying_nil hstack
  refine h.change he rfl rfl rfl (fun y _ => ?_) rfl rfl rfl ?_ ?_ ?_
  · rw [hdying]
    simp [dying, call, hstack]
  · obtain ⟨hconn, hn, hntxn⟩ := (h.shape x e he).sent hstatus hone
    rw [hdying, if_neg (by simp)] at hntxn
    refine .busy hstatus hconn rfl hn ?_
    simp [hntxn, dying, call, hstack]
  · refine .inr ⟨.ok x n.id, by simp [call, hstack], ?_⟩
    exact ⟨{ e with rbuf, consumed, txns := [{ n with recvTimer := none }] },
      { n with recvTimer := none }, by simp [call], rfl, rfl, rfl, hstatus⟩
  · refine h.timers.cancelled (.recv x n.id) (fun i => ?_) fun k i => ?_
    · simp [Points, Node, hstack, he, hone]
    · cases k <;> simp only [Points, Node, call, setEp_eps, setEp_stack, hstack] <;> grind

/-- **A request times out**: its callback begins. -/
theorem timedOut (h : p.Inv) {t : TimerId} {τ : Timer EpTimerKind} (hstack : p.stack = [])
    (hτ : p.tmsvc.timers t = some τ) (hkind : τ.kind = .recv x n.id) (he : p.eps x = some e)
    (hstatus : e.status = .connected) (hone : e.txns = [n]) (hrecv : n.recvTimer = some t) :
    Inv (({ p.setEp x (some { e with txns := [{ n with recvTimer := none }] }) with
      tmsvc := p.tmsvc.destroy t } : EpPool).call (.timeout x n.id) n.id .timeout) := by
  have hdying := dying_nil hstack
  have honly (k : EpTimerKind) (hk : p.Points k t) : k = .recv x n.id := by
    rw [← hkind, h.timers.kind_eq hk hτ]
  refine h.change he rfl rfl rfl (fun y _ => ?_) rfl rfl rfl ?_ ?_ ?_
  · rw [hdying]
    simp [dying, call, hstack]
  · obtain ⟨hconn, hn, hntxn⟩ := (h.shape x e he).sent hstatus hone
    rw [hdying, if_neg (by simp)] at hntxn
    refine .busy hstatus hconn rfl hn ?_
    simp [hntxn, dying, call, hstack]
  · refine .inr ⟨.timeout x n.id, by simp [call, hstack], ?_⟩
    exact ⟨{ e with txns := [{ n with recvTimer := none }] },
      { n with recvTimer := none }, by simp [call], rfl, rfl, rfl, hstatus⟩
  · refine h.timers.destroy (fun k i hi => ?_) fun k i => ?_
    · have hold : p.Points k i := by
        revert hi
        cases k <;> simp only [Points, Node, call, setEp_eps, setEp_stack, hstack] <;> grind
      refine ⟨hold, ?_⟩
      rintro rfl
      rw [honly k hold] at hi
      simp only [Points, Node, call, setEp_eps, setEp_stack, hstack] at hi
      grind
    · cases k <;> simp only [Points, Node, call, setEp_eps, setEp_stack, hstack] <;> grind

/-- The request of an endpoint is written. -/
theorem wrote_owned {q : EpPool} {recv shut : Option TimerId} {s : TimerSvc EpTimerKind}
    (he : q.eps x = some e) (hone : e.txns = [n]) (hrecv : n.recvTimer = none)
    (hframe : ∀ m before turns, .error x m before turns ∈ q.stack → m.id ≠ n.id)
    (howned : TimerSvc.Owned q.Points q.tmsvc)
    (hsend : SendTimers q.tmsvc x n e.shutdownTimer recv shut s) :
    TimerSvc.Owned (q.wrote x e n recv shut s).Points s := by
  refine hsend.owned howned (fun i => ?_) (fun i => ?_) (fun k i hk hk' => ?_) (fun i => ?_)
    fun i => ?_
  · simp [Points, he]
  · simp only [Points, Node]
    grind
  · cases k <;> simp only [Points, Node, wrote, setEp_eps, setEp_stack] <;> grind
  · simp [Points, wrote]
  · simp only [Points, Node, wrote, setEp_eps, setEp_stack, if_true]
    constructor
    · grind
    · intro hi
      exact ⟨{ n with status := .sent, recvTimer := recv }, .inl ⟨_, rfl, by simp⟩, rfl, hi⟩

/-- A running callback is kept when the endpoints with a request are. -/
theorem keep_stack (h : p.Inv) (hstack : p'.stack = p.stack) (hnext : p.nextEp ≤ p'.nextEp)
    (hkeep : ∀ y e, p.eps y = some e → e.txns ≠ [] → p'.eps y = some e) : p'.StackOk := by
  rcases h.stack with hnil | ⟨frame, hone, hok⟩
  · exact .inl (hstack.trans hnil)
  · refine .inr ⟨frame, hstack.trans hone, ?_⟩
    cases frame with
    | error x n before turns => exact ⟨hok.1, Nat.lt_of_lt_of_le hok.2 hnext⟩
    | ok x req =>
      obtain ⟨e, n, he, hone, hrest⟩ := hok
      exact ⟨e, n, hkeep x e he (by simp [hone]), hone, hrest⟩
    | timeout x req =>
      obtain ⟨e, n, he, hone, hrest⟩ := hok
      exact ⟨e, n, hkeep x e he (by simp [hone]), hone, hrest⟩

/-- The next endpoint is not called back. -/
theorem next_frame (h : p.Inv) (m : EpNode) (before turns : Nat) :
    .error p.nextEp m before turns ∉ p.stack := by
  rcases h.stack with hnil | ⟨frame, hone, hok⟩
  · simp [hnil]
  · rw [hone, List.mem_singleton]
    rintro rfl
    exact absurd hok.2 (Nat.lt_irrefl _)

/-- The next endpoint is in no error. -/
theorem next_dying (h : p.Inv) : p.dying p.nextEp = false := by
  have hno := h.next_frame
  rw [dying, List.any_eq_false]
  intro frame hframe
  cases frame <;> grind

/-- **A new endpoint.** -/
theorem added (h : p.Inv) {q : EpPool} (heps : q.eps = (p.setEp p.nextEp (some e')).eps)
    (hnext : q.nextEp = p.nextEp + 1)
    (hmgr : q.mgr = (p.setMgr e'.type ((p.mgr e'.type).add e'.key p.nextEp)).mgr)
    (hstack : q.stack = p.stack) (hflags : e'.flags = 0) (hshape : Shape false e')
    (howned : TimerSvc.Owned q.Points q.tmsvc) : q.Inv := by
  have hdying : q.dying = p.dying := by
    funext y
    rw [dying, dying, hstack]
  refine h.insert heps hnext hmgr (fun y _ => by rw [hdying]) hflags ?_ ?_ howned
  · rw [hdying, h.next_dying]
    exact hshape
  · refine h.keep_stack hstack (hnext ▸ Nat.le_succ _) fun y e he _ => ?_
    have hy : y ≠ p.nextEp := Nat.ne_of_lt (h.bound y e he).1
    rw [heps, setEp_eps, if_neg hy, he]

/-- **A new endpoint waits for its connection.** -/
theorem pending (h : p.Inv) {key : EpKey} {c : Option TimerId} {d : Nat}
    {s : TimerSvc EpTimerKind} (hstatus : n.status = .pending) (hrecv : n.recvTimer = none)
    {m : EpNode} (hconn : ConnTimer (p.tmsvc.elapse d) p.nextEp m c s) :
    Inv (p.added (newEp .tcp key n .connecting c) s) := by
  refine h.added (added_setEps p _ s) rfl (added_mgr p _ s) (added_stack p _ s) rfl
    (.pending rfl rfl rfl rfl hstatus hrecv rfl rfl) ?_
  have hnone := h.next_none
  have hframe := h.next_frame
  cases hconn with
  | limited hlimit =>
    refine (h.timers.elapse d).create fun k i => ?_
    cases k with
    | conn y =>
      by_cases hy : y = p.nextEp
      · simp [Points, added_setEps, hy, hnone, newEp, idleEp, eq_comm]
      · simp [Points, added_setEps, hy]
    | recv y req =>
      simp only [Points, Node, added_setEps, added_stack, setEp_eps]
      grind [newEp, idleEp]
    | shutdown y =>
      simp only [Points, added_setEps, setEp_eps]
      grind [newEp, idleEp]
  | unlimited hlimit =>
    refine (h.timers.elapse d).congr fun k i => ?_
    cases k <;> simp only [Points, Node, added_setEps, added_stack, setEp_eps] <;>
      grind [newEp, idleEp]

/-- **A request is written to its new endpoint.** -/
theorem fresh (h : p.Inv) {type : EpType} {key : EpKey} {d : Nat} {recv shut : Option TimerId}
    {s : TimerSvc EpTimerKind} (hrecv : n.recvTimer = none)
    (hsend : SendTimers (p.tmsvc.elapse d) p.nextEp n none recv shut s) :
    Inv ((p.added (newEp type key n .connected none) (p.tmsvc.elapse d)).wrote p.nextEp
      (newEp type key n .connected none) n recv shut s) := by
  set q := p.added (newEp type key n .connected none) (p.tmsvc.elapse d) with hq
  have hframe := h.next_frame
  have hqstack : q.stack = p.stack := added_stack p _ _
  have hshape : Shape false { newEp type key n .connected none with
      txns := [{ n with status := .sent, recvTimer := recv }], shutdownTimer := shut
      sent := 1 } := .busy rfl rfl rfl rfl rfl
  refine h.added ?_ rfl ?_ hqstack rfl hshape ?_
  · funext y
    simp only [wrote, setEp_eps, hq, added_setEps]
    grind [newEp, idleEp]
  · exact added_mgr p (newEp type key n .connected none) (p.tmsvc.elapse d)
  · refine wrote_owned added_eps rfl hrecv (fun m before turns hm => ?_) ?_ hsend
    · rw [hqstack] at hm
      exact absurd hm (hframe m before turns)
    · refine (h.timers.elapse d).congr fun k i => ?_
      have hnone := h.next_none
      cases k <;> simp only [Points, Node, hq, added_setEps, added_stack, setEp_eps] <;>
        grind [newEp, idleEp]

/-- **A request is written to a free endpoint.** -/
theorem reuse (h : p.Inv) (n : EpNode) {flags : Nat} {recv shut : Option TimerId} {s : TimerSvc EpTimerKind}
    (hrecv : n.recvTimer = none) (hfree : p.Free flags x e)
    (hnew : ∀ m before turns, .error x m before turns ∈ p.stack → m.id ≠ n.id)
    (hsend : SendTimers p.tmsvc x n e.shutdownTimer recv shut s) :
    Inv ((p.reused x e n).wrote x { e with txns := [n], ntxn := e.ntxn + 1 } n recv shut s) := by
  obtain ⟨he, -, hstatus, hnil⟩ := hfree
  have hset : ((p.reused x e n).wrote x { e with txns := [n], ntxn := e.ntxn + 1 } n recv shut
      s).eps = (p.setEp x (some { e with
        txns := [{ n with status := .sent, recvTimer := recv }], ntxn := e.ntxn + 1
        shutdownTimer := shut, sent := e.sent + 1 })).eps := by
    funext y
    simp only [wrote, reused, setEp_eps]
    grind
  refine h.change he hset rfl rfl (fun y _ => rfl) rfl rfl rfl ?_
    (h.keep_stack rfl (Nat.le_refl _) fun y e' he' hne => ?_) ?_
  · -- the endpoint is busy with the request that it was given
    have hshape := h.shape x e he
    cases hshape with
    | free _ hconn _ hntxn =>
      refine .busy hstatus hconn rfl rfl ?_
      simp only [hntxn]
      change _ = if p.dying x then 2 else 1
      split <;> rfl
    | pending hstatus' _ _ _ _ _ _ _ => simp [hstatus] at hstatus'
    | unconnected hstatus' _ _ _ => simp [hstatus] at hstatus'
    | busy _ _ hone _ _ => simp [hnil] at hone
  · -- no other endpoint changes
    have hy : y ≠ x := by
      rintro rfl
      rw [← Option.some.inj (he.symm.trans he')] at hne
      exact hne hnil
    rw [hset, setEp_eps, if_neg hy, he']
  · -- the timers of the request are new, those of the endpoint stay
    refine wrote_owned (by simp [reused]) rfl hrecv hnew ?_ hsend
    refine h.timers.congr fun k i => ?_
    cases k <;> simp only [Points, Node, reused, setEp_eps, setEp_stack] <;> grind

/-- **An endpoint is connected**, and its request written. -/
theorem connected (h : p.Inv) {recv shut : Option TimerId} {s : TimerSvc EpTimerKind}
    (hstack : p.stack = []) (he : p.eps x = some e) (hstatus : e.status = .connecting)
    (hshut : e.shutdownTimer = none) (hone : e.txns = [n])
    (hsend : SendTimers (p.tmsvc.cancelled e.connTimer) x n none recv shut s) :
    Inv (({ p.setEp x (some { e with status := .connected, connTimer := none }) with
      tmsvc := p.tmsvc.cancelled e.connTimer } : EpPool).wrote x
        { e with status := .connected, connTimer := none } n recv shut s) := by
  have hdying := dying_nil hstack
  -- it was waiting for the connection, so no answer is timed yet
  obtain ⟨hrecv, hntxn⟩ : n.recvTimer = none ∧ e.ntxn = 1 := by
    rcases (h.shape x e he).one hone with ⟨-, -, hpend⟩ | ⟨hconnected, -⟩
    · exact hpend
    · exact absurd (hstatus.symm.trans hconnected) (by simp)
  set q : EpPool := { p.setEp x (some { e with status := .connected, connTimer := none }) with
    tmsvc := p.tmsvc.cancelled e.connTimer } with hq
  -- the writing replaces the endpoint a second time
  have hset : (q.wrote x { e with status := .connected, connTimer := none } n recv shut s).eps =
      (p.setEp x (some { e with
        status := .connected, connTimer := none
        txns := [{ n with status := .sent, recvTimer := recv }], shutdownTimer := shut
        sent := e.sent + 1 })).eps := by
    funext y
    simp only [wrote, hq, setEp_eps]
    grind
  refine h.change he hset rfl rfl (fun y _ => rfl) rfl rfl rfl ?_ (.inl hstack) ?_
  · change Shape (p.dying x) _
    rw [hdying]
    exact .busy rfl rfl rfl rfl hntxn
  · refine wrote_owned (by simp [hq]) hone hrecv (fun m before turns hm => ?_) ?_
      (by rw [hshut]; exact hsend)
    · exact absurd hm (by simp [hq, hstack])
    · refine h.timers.cancelled (.conn x) (fun i => by simp [Points, he]) fun k i => ?_
      cases k <;> simp only [Points, Node, hq, setEp_eps, setEp_stack, hstack] <;> grind

/-- Bytes are buffered. -/
theorem buffered (h : p.Inv) (hstack : p.stack = []) (he : p.eps x = some e) (rbuf : List UInt8) :
    Inv (p.setEp x (some { e with rbuf })) := by
  have hpoints : TimerSvc.Owned (p.setEp x (some { e with rbuf })).Points p.tmsvc := by
    refine h.timers.congr fun k i => ?_
    cases k <;> simp only [Points, Node, setEp_eps, setEp_stack] <;> grind
  refine h.change he rfl rfl (by funext type; simp) (fun y _ => rfl) rfl rfl rfl ?_
    (?_ : (p.setEp x (some { e with rbuf })).StackOk) hpoints
  · change Shape (p.dying x) _
    cases h.shape x e he with
    | pending hstatus htype hshut hone hn hrecv hntxn hdying =>
      exact .pending hstatus htype hshut hone hn hrecv hntxn hdying
    | unconnected hstatus hshut hnil hdying => exact .unconnected hstatus hshut hnil hdying
    | free hstatus hconn hnil hntxn => exact .free hstatus hconn hnil hntxn
    | busy hstatus hconn hone hn hntxn => exact .busy hstatus hconn hone hn hntxn
  · exact .inl hstack

/-- **A free endpoint is closed.** -/
theorem close (h : p.Inv) {shut : Option TimerId} {s : TimerSvc EpTimerKind}
    (hstack : p.stack = []) (he : p.eps x = some e) (hnil : e.txns = [])
    (howned : TimerSvc.Owned (p.setEp x (some { e with shutdownTimer := shut })).Points s)
    (errors : List EpId) (before turns : Nat) :
    Inv (({ p.setEp x (some { e with shutdownTimer := shut }) with
        errors, tmsvc := s } : EpPool).broken x { e with shutdownTimer := shut } before turns) := by
  refine h.gone he hnil ⟨rfl, rfl⟩ (fun y hy => ?_) ?_ rfl rfl (fun y _ => rfl)
    (.inl hstack) howned
  · simp [hy]
  · simp

/-- **A free endpoint is closed that a request was put on.** -/
theorem reuseLost (h : p.Inv) {flags : Nat} (hfree : p.Free flags x e) (errors : List EpId)
    (reuses : List EpReuse) (before turns : Nat) :
    Inv (({ p.begun with reuses, errors } : EpPool).broken x e before turns) := by
  obtain ⟨he, -, -, hnil⟩ := hfree
  set q : EpPool := { p.begun with reuses, errors, drains := p.drains ++ [(before, turns)] } with hq
  have hstack : (q.gone x e).stack = p.stack := rfl
  have hnext : (q.gone x e).nextEp = p.nextEp := rfl
  have hok : (q.gone x e).StackOk := by
    refine h.keep_stack hstack (Nat.le_of_eq hnext.symm) fun y e' he' hne => ?_
    have hy : y ≠ x := by
      rintro rfl
      rw [← Option.some.inj (he.symm.trans he')] at hne
      exact hne hnil
    rw [gone_eps, setEp_eps, if_neg hy]
    exact he'
  exact h.gone he hnil ⟨rfl, rfl⟩ (fun y _ => rfl) he rfl rfl (fun y _ => rfl) hok h.timers

/-- **The request of an endpoint is called back with an error.** -/
theorem fail (h : p.Inv) {e₀ : Ep} {s : TimerSvc EpTimerKind} (hstack : p.stack = [])
    (hbreaks : p.Breaks x e e₀ n s) (errors : List EpId) (before turns : Nat) :
    Inv (({ p.setEp x (some e₀) with errors, tmsvc := s } : EpPool).failed x e₀ n before turns) := by
  obtain ⟨htype, hkey, hflags, htxns, hntxn⟩ := hbreaks.same
  have hstate : e₀.status = .connecting ∧ e₀.shutdownTimer = none ∨
      e₀.status = .connected ∧ e₀.connTimer = none ∧ e₀.ntxn = 1 := by
    rw [hntxn]
    exact hbreaks.state
  set q : EpPool := { p.setEp x (some e₀) with errors, tmsvc := s } with hq
  have howned : TimerSvc.Owned q.Points q.tmsvc := hbreaks.timers
  exact h.failed q e₀ hbreaks.ent ⟨htype, hkey, hflags⟩ rfl rfl rfl hstack
    (fun y _ => dying_nil hstack y) (htxns.trans hbreaks.one) hbreaks.node hstate howned
    before turns

/-- Only `x` is called back with an error. -/
theorem dying_error {before turns : Nat} (hstack : p.stack = [.error x n before turns]) (y : EpId) :
    p.dying y = decide (y = x) := by
  rw [dying, hstack]
  simp

/-- The timers after the callback of an error. -/
theorem error_owned (h : p.Inv) {before turns : Nat} {e₀ : Ep} (log : List EpEvent)
    (hstack : p.stack = [.error x n before turns]) (he : p.eps x = some e)
    (hother : ∀ m ∈ e.txns, m.id ≠ n.id)
    (hsame : e₀.connTimer = e.connTimer ∧ e₀.shutdownTimer = e.shutdownTimer ∧ e₀.txns = e.txns) :
    TimerSvc.Owned ({ p.setEp x (some e₀) with
      stack := [], tmsvc := p.tmsvc.cancelled n.recvTimer, log } : EpPool).Points
      (p.tmsvc.cancelled n.recvTimer) := by
  refine h.timers.cancelled (.recv x n.id) (fun i => ?_) fun k i => ?_
  · simp only [Points, Node, hstack, he]
    grind
  · cases k <;> simp only [Points, Node, setEp_eps, hstack] <;> grind

/-- **The last callback of an error returns**: the endpoint closes. -/
theorem returnClose (h : p.Inv) {before turns : Nat}
    (hstack : p.stack = [.error x n before turns]) (he : p.eps x = some e) (hnil : e.txns = [])
    (log : List EpEvent) :
    Inv (({ p.setEp x (some { e with ntxn := e.ntxn - 1 }) with
        stack := [], tmsvc := p.tmsvc.cancelled n.recvTimer, log } : EpPool).broken x
          { e with ntxn := e.ntxn - 1 } before turns) := by
  refine h.gone he hnil ⟨rfl, rfl⟩ (fun y hy => ?_) ?_ rfl rfl (fun y hy => ?_)
    (.inl rfl) (h.error_owned log hstack he (by simp [hnil]) ⟨rfl, rfl, rfl⟩)
  · simp [hy]
  · simp
  · rw [dying_error hstack]
    simp [dying, hy]

/-- **A callback of an error returns**, and has sent a request that fails in turn. -/
theorem returnFail (h : p.Inv) {m : EpNode} {before turns : Nat}
    (hstack : p.stack = [.error x n before turns]) (he : p.eps x = some e) (hone : e.txns = [m])
    (hm : m.id ≠ n.id) (log : List EpEvent) :
    Inv (({ p.setEp x (some { e with ntxn := e.ntxn - 1 }) with
        stack := [], tmsvc := p.tmsvc.cancelled n.recvTimer, log } : EpPool).failed x
          { e with ntxn := e.ntxn - 1 } m before turns) := by
  have hdying : p.dying x = true := by rw [dying_error hstack, decide_eq_true rfl]
  rcases (h.shape x e he).one hone with ⟨-, hnot, -⟩ | ⟨hstatus, hconn, hn, hntxn⟩
  · exact absurd (hdying.symm.trans hnot) (by simp)
  · set q : EpPool := { p.setEp x (some { e with ntxn := e.ntxn - 1 }) with
      stack := [], tmsvc := p.tmsvc.cancelled n.recvTimer, log } with hq
    refine h.failed q { e with ntxn := e.ntxn - 1 } he ⟨rfl, rfl, rfl⟩ rfl rfl rfl rfl
      (fun y hy => ?_) hone ?_ (.inr ⟨hstatus, hconn, ?_⟩)
      (h.error_owned log hstack he (by simpa [hone] using hm) ⟨rfl, rfl, rfl⟩) before turns
    · rw [dying_error hstack, decide_eq_false hy]
    · rw [hn]
      simp
    · simp [hntxn, hdying]

/-- A call of `sk_ep_send` begins. -/
theorem begun (h : p.Inv) : p.begun.Inv := h.quiet rfl (Nat.le_refl _) rfl rfl h.timers

/-- It returns. -/
theorem returns (h : p.Inv) (req : ReqId) (ok : Bool) : (p.returns req ok).Inv := by
  cases ok <;> exact h.quiet rfl (Nat.le_refl _) rfl rfl h.timers

/-- The pool is destroyed. -/
theorem swept {xs : List EpId} {s : TimerSvc EpTimerKind} (h : p.Inv) (hstack : p.stack = [])
    (hidle : ∀ t τ, s.timers t = some τ → t < s.created ∧ τ.valid = false) : (p.swept xs s).Inv := by
  have hnone : ∀ k t, ¬ (p.swept xs s).Points k t := by
    intro k t
    cases k <;> simp [Points, Node, EpPool.swept, hstack]
  have hempty : ∀ type, ((p.swept xs s).mgr type).ee = .empty := fun type => by cases type <;> rfl
  refine ⟨⟨fun t τ hτ => (hidle t τ hτ).1, fun k t ht => absurd ht (hnone k t), fun t τ hτ hv => ?_⟩,
    fun x e he => ?_, fun x e he => ?_, fun type key x => ?_, fun type key => ?_, fun type => ?_,
    fun type => ?_, .inl hstack⟩
  · exact absurd hv (by simp [(hidle t τ hτ).2])
  · exact absurd he (by simp [EpPool.swept])
  · exact absurd he (by simp [EpPool.swept])
  · rw [EpMgr.epList_empty (hempty type)]
    simp [EpPool.swept]
  · rw [EpMgr.epList_empty (hempty type)]
    exact .nil
  · rw [EpMgr.total_empty (hempty type)]
    cases type <;> rfl
  · have htmp := h.tmp type
    cases type <;> exact htmp

end Inv

/-- **Every effect of a step keeps the invariant.** -/
theorem Effect.inv (h : p.Inv) {a : EpAction} (heffect : Effect p a p') : p'.Inv := by
  cases heffect with
  | quiet _ howned _ => exact h.quiet rfl (Nat.le_refl _) rfl rfl howned
  | refuse => exact h.quiet rfl (Nat.le_refl _) rfl rfl h.timers
  -- the request is refused, and its new endpoint with it
  | @lost req _ type _ _ _ hgrown _ =>
    have hopened := h.opened type req.key
    cases type <;> exact hopened.quiet rfl (Nat.le_succ _) rfl rfl (hopened.timers.grown hgrown)
  | pending _ hconn => exact (h.begun.pending rfl rfl hconn).returns _ true
  | fresh _ hsend => exact (h.begun.fresh rfl hsend).returns _ true
  | @reuse req env type x e recv shut s _ hfree hnew hsend =>
    exact (h.begun.reuse (req.node p.calls p.tmsvc.now) rfl hfree hnew hsend).returns _ true
  | reuseLost _ hfree => exact (h.reuseLost hfree _ _ 1 1).returns _ false
  | close _ hstack he hnil _ howned => exact h.close hstack he hnil howned _ 0 0
  | fail _ hstack hbreaks => exact h.fail hstack hbreaks _ 1 0
  | buffered hstack he _ => exact h.buffered hstack he _
  | answered hstack he hstatus hone _ _ => exact h.answered hstack he hstatus hone _ _
  | timedOut hstack hτ hkind _ he hstatus hone hrecv =>
    exact h.timedOut hstack hτ hkind he hstatus hone hrecv
  | connected hstack he hstatus hshut hone hsend =>
    exact h.connected hstack he hstatus hshut hone hsend
  | destroy hstack _ _ hidle => exact h.swept hstack hidle
  | returnOk hstack he hone hshut => exact h.returnOk hstack he hone hshut
  | returnTimeout hstack he hone => exact h.returnTimeout hstack he hone
  | returnClose hstack he hnil => exact h.returnClose hstack he hnil _
  | returnFail hstack he hone hm => exact h.returnFail hstack he hone hm _

end EpPool

end Skull
