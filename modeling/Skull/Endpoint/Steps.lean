import Skull.Endpoint.Lists

namespace Skull

open Machines

/-!
# What the operations of a pool do

Each operation of `EpPool` said once, for an endpoint whose list is empty or a single node:

* `EpPool.nodeDestroy_eq`, `EpPool.epDestroy_eq`, `EpPool.mgrDel_eq` — destruction;
* `EpPool.handleError_nil`, `EpPool.handleError_one` — an endpoint breaks, with or without a
  request;
* `EpPool.createShutdownTimer_spec`, with `Refresh` — the shutdown timer is set;
* `EpPool.epSend_spec`, with `SendTimers` — a request is written;
* `EpPool.findIn_spec` — the endpoint that is used again;
* `EpPool.getOrCreate_reuse`, `EpPool.getOrCreate_fresh` — a request gets its endpoint.
-/

namespace EpPool

variable {p p' : EpPool} {x : EpId} {e : Ep} {n : EpNode}

/-! ### The parts of a pool -/

/-- One endpoint is set. -/
@[simp] theorem setEp_eps (p : EpPool) (x : EpId) (e : Option Ep) (y : EpId) :
    (p.setEp x e).eps y = if y = x then e else p.eps y := rfl

@[simp] theorem setEp_tmsvc (p : EpPool) (x : EpId) (e : Option Ep) :
    (p.setEp x e).tmsvc = p.tmsvc := rfl

@[simp] theorem setEp_stack (p : EpPool) (x : EpId) (e : Option Ep) :
    (p.setEp x e).stack = p.stack := rfl

@[simp] theorem setEp_log (p : EpPool) (x : EpId) (e : Option Ep) :
    (p.setEp x e).log = p.log := rfl

@[simp] theorem setEp_mgr (p : EpPool) (x : EpId) (e : Option Ep) (type : EpType) :
    (p.setEp x e).mgr type = p.mgr type := by cases type <;> rfl

/-- Storing what is there changes nothing. -/
theorem setEp_self (h : p.eps x = some e) : p.setEp x (some e) = p := by
  rw [setEp]
  congr 1
  funext y
  by_cases hy : y = x
  · rw [hy, if_pos rfl, h]
  · rw [if_neg hy]

/-- The endpoint that was set last stays. -/
@[simp] theorem setEp_setEp (p : EpPool) (x : EpId) (e e' : Option Ep) :
    (p.setEp x e).setEp x e' = p.setEp x e' := by
  simp only [setEp]
  congr 1
  funext y
  by_cases hy : y = x
  · rw [if_pos hy, if_pos hy]
  · rw [if_neg hy, if_neg hy, if_neg hy]

/-- The same for the endpoints of a pool that differs at `x` only. -/
theorem setEp_over {o : Option Ep} (heps : p'.eps = (p.setEp x o).eps) (o' : Option Ep) :
    (p'.setEp x o').eps = (p.setEp x o').eps := by
  funext y
  simp only [setEp_eps, heps]
  by_cases hy : y = x
  · rw [if_pos hy, if_pos hy]
  · rw [if_neg hy, if_neg hy, if_neg hy]

/-- An endpoint that is there is found. -/
theorem ep_eq (h : p.eps x = some e) : p.ep x = .ok e := by rw [ep, h]

@[simp] theorem setMgr_eps (p : EpPool) (type : EpType) (m : EpMgr) :
    (p.setMgr type m).eps = p.eps := by cases type <;> rfl

@[simp] theorem setMgr_tmsvc (p : EpPool) (type : EpType) (m : EpMgr) :
    (p.setMgr type m).tmsvc = p.tmsvc := by cases type <;> rfl

@[simp] theorem setMgr_stack (p : EpPool) (type : EpType) (m : EpMgr) :
    (p.setMgr type m).stack = p.stack := by cases type <;> rfl

@[simp] theorem setMgr_deleted (p : EpPool) (type : EpType) (m : EpMgr) :
    (p.setMgr type m).deleted = p.deleted := by cases type <;> rfl

/-- One manager is set. -/
@[simp] theorem setMgr_mgr (p : EpPool) (type : EpType) (m : EpMgr) (type' : EpType) :
    (p.setMgr type m).mgr type' = if type' = type then m else p.mgr type' := by
  cases type <;> cases type' <;> rfl

/-- A manager is put back. -/
theorem setMgr_self (p : EpPool) (type : EpType) : p.setMgr type (p.mgr type) = p := by
  cases type <;> rfl

/-- The manager that was set last stays. -/
theorem setMgr_setMgr (p : EpPool) (type : EpType) (m m' : EpMgr) :
    (p.setMgr type m).setMgr type m' = p.setMgr type m' := by cases type <;> rfl

/-! ### Destruction -/

/-- The timer of a pointer exists. -/
def Timed (p : EpPool) (t : Option TimerId) : Prop := ∀ i, t = some i → (p.tmsvc.timers i).isSome

theorem timed_none (p : EpPool) : p.Timed none := fun i h => absurd h (by simp)

/-- A timer that is there is cancelled. -/
theorem cancel_eq {t : Option TimerId} (ht : p.Timed t) :
    p.cancel t = .ok { p with tmsvc := p.tmsvc.cancelled t } := by
  cases t with
  | none => rw [cancel, TimerSvc.cancelled_none]
  | some i => rw [cancel, p.tmsvc.cancel_eq (ht i rfl)]

/-- Cancelling a timer leaves the others where they are. -/
theorem Timed.cancelled {t t' : Option TimerId} (ht : p.Timed t) :
    EpPool.Timed { p with tmsvc := p.tmsvc.cancelled t' } t := by
  intro i hi
  obtain ⟨τ, hτ⟩ := Option.isSome_iff_exists.mp (ht i hi)
  rw [TimerSvc.cancelled_timers, hτ]
  split <;> rfl

/-- A node is destroyed. -/
theorem nodeDestroy_eq (he : p.eps x = some e) (ht : p.Timed n.recvTimer) (release : Bool) :
    p.nodeDestroy x n release = .ok { p.setEp x (some
        { e with txns := e.txns.filter fun n' => n'.id ≠ n.id, ntxn := e.ntxn - 1 }) with
      tmsvc := p.tmsvc.cancelled n.recvTimer
      log := if release then p.log ++ [.released n.id] else p.log } := by
  cases release <;> simp [nodeDestroy, cancel_eq ht, ep, he, bind, Except.bind, setEp]

/-- An endpoint without requests is freed. -/
theorem epDestroy_eq (he : p.eps x = some e) (hnil : e.txns = []) (hconn : p.Timed e.connTimer)
    (hshut : p.Timed e.shutdownTimer) :
    p.epDestroy x = .ok { p.setEp x none with
      tmsvc := (p.tmsvc.cancelled e.connTimer).cancelled e.shutdownTimer
      deleted := p.deleted ++ [x] } := by
  simp [epDestroy, ep, he, cancel_eq hconn, cancel_eq hshut.cancelled, hnil, destroyNodes, bind,
    Except.bind, setEp]

/-- The pool without `x`, which was `e`. -/
def gone (p : EpPool) (x : EpId) (e : Ep) : EpPool :=
  { (p.setMgr e.type ((p.mgr e.type).del e.key x)).setEp x none with
    tmsvc := (p.tmsvc.cancelled e.connTimer).cancelled e.shutdownTimer
    deleted := p.deleted ++ [x] }

/-- An endpoint without requests is removed from its manager and freed. -/
theorem mgrDel_eq (he : p.eps x = some e) (hnil : e.txns = []) (hconn : p.Timed e.connTimer)
    (hshut : p.Timed e.shutdownTimer) : p.mgrDel x = .ok (p.gone x e) := by
  have he' : (p.setMgr e.type ((p.mgr e.type).del e.key x)).eps x = some e := by simp [he]
  have hconn' : (p.setMgr e.type ((p.mgr e.type).del e.key x)).Timed e.connTimer := by
    simpa [Timed] using hconn
  have hshut' : (p.setMgr e.type ((p.mgr e.type).del e.key x)).Timed e.shutdownTimer := by
    simpa [Timed] using hshut
  simp only [mgrDel, ep_eq he, bind, Except.bind]
  rw [epDestroy_eq he' hnil hconn' hshut', gone]
  simp

/-! ### Errors -/

/-- An endpoint breaks that has no request. -/
def broken (p : EpPool) (x : EpId) (e : Ep) (before turns : Nat) : EpPool :=
  { p with drains := p.drains ++ [(before, turns)] }.gone x e

/-- The request of an endpoint that breaks is called back. -/
def failed (p : EpPool) (x : EpId) (e : Ep) (n : EpNode) (before turns : Nat) : EpPool :=
  (p.setEp x (some { e with txns := [] })).call (.error x n before (turns + 1)) n.id .error

theorem drain_nil (he : p.eps x = some e) (hnil : e.txns = []) (hconn : p.Timed e.connTimer)
    (hshut : p.Timed e.shutdownTimer) (before turns : Nat) :
    drain x before turns [] p = .ok (p.broken x e before turns) := by
  rw [drain]
  exact mgrDel_eq (p := { p with drains := p.drains ++ [(before, turns)] }) he hnil hconn hshut

/-- The loop with one request stops at its callback. -/
theorem drain_one (he : p.eps x = some e) (hn : n.status ≠ .init) (before turns : Nat) :
    drain x before turns [n] p = .ok (p.failed x e n before turns) := by
  simp [drain, ep_eq he, bind, Except.bind, hn, failed]

/-- **An idle endpoint breaks.** -/
theorem handleError_nil (he : p.eps x = some e) (hnil : e.txns = []) (hconn : p.Timed e.connTimer)
    (hshut : p.Timed e.shutdownTimer) :
    p.handleError x = .ok ({ p with errors := p.errors ++ [x] }.broken x e 0 0) := by
  simp only [handleError, ep_eq he, bind, Except.bind, hnil, List.length_nil]
  exact drain_nil (p := { p with errors := p.errors ++ [x] }) he hnil hconn hshut 0 0

/-- **An endpoint with a request breaks.** -/
theorem handleError_one (he : p.eps x = some e) (hone : e.txns = [n]) (hn : n.status ≠ .init) :
    p.handleError x = .ok ({ p with errors := p.errors ++ [x] }.failed x e n 1 0) := by
  simp only [handleError, ep_eq he, bind, Except.bind, hone, List.length_singleton]
  exact drain_one (p := { p with errors := p.errors ++ [x] }) he hn 1 0

/-- An endpoint breaks whose only request was not written: nobody is called. -/
theorem handleError_init (he : p.eps x = some e) (hone : e.txns = [n]) (hn : n.status = .init)
    (hrecv : n.recvTimer = none) (hconn : p.Timed e.connTimer) (hshut : p.Timed e.shutdownTimer) :
    p.handleError x = .ok (({ p with errors := p.errors ++ [x] }.setEp x
      (some { e with txns := [], ntxn := e.ntxn - 1 })).broken x
        { e with txns := [], ntxn := e.ntxn - 1 } 1 1) := by
  set q := ({ p with errors := p.errors ++ [x] } : EpPool) with hq
  have hep : q.ep x = .ok e := ep_eq he
  have hpop : (q.setEp x (some { e with txns := [] })).eps x = some { e with txns := [] } := by
    simp
  have hdestroy := nodeDestroy_eq (n := n) hpop (by rw [hrecv]; exact timed_none _) false
  rw [hrecv, setEp_setEp] at hdestroy
  simp only [handleError, ep_eq he, bind, Except.bind, hone, List.length_singleton, drain]
  rw [← hq, hep]
  simp only [hn, ne_eq, not_true_eq_false, if_false, hdestroy]
  refine mgrDel_eq (p := { q.setEp x (some { e with txns := [], ntxn := e.ntxn - 1 }) with
    drains := p.drains ++ [(1, 1)] }) ?_ rfl hconn hshut
  simp

/-! ### The shutdown timer -/

/-- The service `s'` has a shutdown timer `t` of `x` that goes off after `delay`: the one it had,
    set again, or a new one after that was cancelled. -/
inductive Refresh (s : TimerSvc EpTimerKind) (x : EpId) (old : Option TimerId) (delay : Nat) :
    TimerId → TimerSvc EpTimerKind → Prop
  | reset {t : TimerId} {τ : Timer EpTimerKind} (hold : old = some t) (hτ : s.timers t = some τ)
      (hfire : τ.triggered = false) :
      Refresh s x old delay t (s.set t (some { τ with due := s.now + delay }))
  | create (hold : ∀ t τ, old = some t → s.timers t = some τ → τ.triggered = true) :
      Refresh s x old delay s.created ((s.cancelled old).create (.shutdown x) delay)

/-- The endpoint `e` at `x` gets the shutdown timer `t`. -/
def withShutdown (p : EpPool) (x : EpId) (e : Ep) (t : TimerId) (s : TimerSvc EpTimerKind) :
    EpPool :=
  { p.setEp x (some { e with shutdownTimer := some t }) with tmsvc := s }

/-- A new shutdown timer. -/
theorem newShutdownTimer_eq (he : p.eps x = some e) {delay : UInt32} (hdelay : delay.toNat ≠ 0) :
    p.newShutdownTimer x delay = .ok (p.withShutdown x e p.tmsvc.created
      (p.tmsvc.create (.shutdown x) delay.toNat)) := by
  simp [newShutdownTimer, createTimer, hdelay, ep, he, Except.map, withShutdown, setEp]

/-- **The shutdown timer is set**, unless it would go off at once: a new one is refused then. -/
theorem createShutdownTimer_spec (he : p.eps x = some e) (hshut : p.Timed e.shutdownTimer)
    (delay : UInt32) :
    (∃ t s, Refresh p.tmsvc x e.shutdownTimer delay.toNat t s ∧
      p.createShutdownTimer x delay = .ok (p.withShutdown x e t s)) ∨
    delay.toNat = 0 ∧ p.createShutdownTimer x delay = .error .shutdownTimer := by
  -- a new timer, in the service where the old one is cancelled
  have hnew : ∀ q : EpPool, q.eps x = some e →
      delay.toNat = 0 ∧ q.newShutdownTimer x delay = .error .shutdownTimer ∨
      q.newShutdownTimer x delay = .ok (q.withShutdown x e q.tmsvc.created
        (q.tmsvc.create (.shutdown x) delay.toNat)) := by
    intro q hq
    by_cases hzero : delay.toNat = 0
    · exact .inl ⟨hzero, by simp [newShutdownTimer, createTimer, hzero]⟩
    · exact .inr (newShutdownTimer_eq hq hzero)
  simp only [createShutdownTimer, ep_eq he, bind, Except.bind]
  cases hold : e.shutdownTimer with
  | none =>
    rcases hnew p he with ⟨hzero, hfault⟩ | hok
    · exact .inr ⟨hzero, hfault⟩
    · exact .inl ⟨_, _, .create (fun t τ h => absurd h (by simp)), hok⟩
  | some t =>
    rw [hold] at hshut
    obtain ⟨τ, hτ⟩ := Option.isSome_iff_exists.mp (hshut t rfl)
    cases hfire : τ.triggered with
    | false =>
      refine .inl ⟨t, _, .reset rfl hτ hfire, ?_⟩
      have hsame : p.setEp x (some { e with shutdownTimer := some t }) = p := by
        rw [← hold]
        exact setEp_self he
      simp [TimerSvc.reset, hτ, hfire, withShutdown, hsame]
    | true =>
      simp only [TimerSvc.reset, hτ, Option.map_some, hfire, if_true, cancel_eq hshut]
      rcases hnew { p with tmsvc := p.tmsvc.cancelled (some t) } he with ⟨hzero, hfault⟩ | hok
      · exact .inr ⟨hzero, hfault⟩
      · refine .inl ⟨_, _, .create (fun t' τ' h hτ' => ?_), hok⟩
        rw [← Option.some.inj h, hτ] at hτ'
        rw [← Option.some.inj hτ']
        exact hfire

/-! ### Writing a request -/

/-- The timers after the request `n` of `x` was written: its receive timer, the shutdown timer,
    and the service. -/
inductive SendTimers (s : TimerSvc EpTimerKind) (x : EpId) (n : EpNode) (old : Option TimerId) :
    Option TimerId → Option TimerId → TimerSvc EpTimerKind → Prop
  /-- Its time is limited. -/
  | limited {t : TimerId} {s' : TimerSvc EpTimerKind} (hlimit : n.timeout ≠ 0)
      (hunpack : n.unpack = true) (h : Refresh s x old (n.timeout * 2).toNat t s') :
      SendTimers s x n old (some s'.created) (some t)
        (s'.create (.recv x n.id) (n.timeLeft s'.now))
  /-- No response is expected. -/
  | oneWay {t : TimerId} {s' : TimerSvc EpTimerKind} {delay : Nat} (hunpack : n.unpack = false)
      (h : Refresh s x old delay t s') : SendTimers s x n old none (some t) s'
  /-- Its time is not limited. -/
  | unlimited (hlimit : n.timeout = 0) (hunpack : n.unpack = true) :
      SendTimers s x n old none old s

/-- The request `n` is the only one of `x`, and was written. -/
def wrote (p : EpPool) (x : EpId) (e : Ep) (n : EpNode) (recv shut : Option TimerId)
    (s : TimerSvc EpTimerKind) : EpPool :=
  { p.setEp x (some { e with
      txns := [{ n with status := .sent, recvTimer := recv }], shutdownTimer := shut
      sent := e.sent + 1 }) with tmsvc := s }

/-- The only request of an endpoint changes. -/
theorem setNode_one (he : p.eps x = some e) {n' : EpNode} (hone : e.txns = [n'])
    (hid : n'.id = n.id) : p.setNode x n = .ok (p.setEp x (some { e with txns := [n] })) := by
  simp [setNode, ep, he, Except.map, hone, hid]

/-- The time left is never nothing. -/
theorem timeLeft_pos (n : EpNode) (now : Nat) : n.timeLeft now ≠ 0 := by
  unfold EpNode.timeLeft
  simp only
  split <;> omega

/-- **Writing a request** that is the only one of a connected endpoint. -/
theorem epSend_spec (he : p.eps x = some e) (hone : e.txns = [n]) (hstatus : e.status = .connected)
    (hn : n.status ≠ .sent) (hrecv : n.recvTimer = none) (hshut : p.Timed e.shutdownTimer) :
    (∃ recv shut s, SendTimers p.tmsvc x n e.shutdownTimer recv shut s ∧
      p.epSend x n true = .ok (true, p.wrote x e n recv shut s)) ∨
    (n.timeout ≠ 0 ∧ (n.timeout * 2).toNat = 0) ∧ p.epSend x n true = .error .shutdownTimer := by
  set e₁ : Ep := { e with sent := e.sent + 1 } with he₁
  set q := p.setEp x (some e₁) with hq
  have hqe : q.eps x = some e₁ := by simp [hq]
  have hnode : ∀ (r : EpPool) (shut recv : Option TimerId) (s : TimerSvc EpTimerKind),
      r = { p.setEp x (some { e₁ with shutdownTimer := shut }) with tmsvc := s } →
      r.setNode x { n with status := .sent, recvTimer := recv } =
        .ok (p.wrote x e n recv shut s) := by
    intro r shut recv s hr
    have hre : r.eps x = some { e₁ with shutdownTimer := shut } := by simp [hr]
    rw [setNode_one (n := { n with status := .sent, recvTimer := recv }) hre hone rfl, hr]
    exact congrArg (fun q : EpPool => Except.ok { q with tmsvc := s }) (setEp_setEp p x _ _)
  have hsent : ({ n with status := .sent } : EpNode) =
      { n with status := .sent, recvTimer := none } := by rw [← hrecv]
  have hconnected : ¬ e.status ≠ .connected := by simp [hstatus]
  simp only [epSend, ep_eq he, bind, Except.bind, hconnected, hn, if_false, not_true_eq_false]
  rw [← he₁, ← hq]
  by_cases hlimit : n.timeout = 0 <;> by_cases hunpack : n.unpack = true
  · rw [if_neg (not_not.mpr hlimit), if_neg (not_not.mpr hunpack)]
    -- no limit, and an answer is expected: no timer is set
    refine .inl ⟨none, e.shutdownTimer, p.tmsvc, .unlimited hlimit hunpack, ?_⟩
    rw [hsent, hnode q e.shutdownTimer none p.tmsvc rfl]
    rfl
  · rw [if_neg (not_not.mpr hlimit), if_pos hunpack]
    -- no limit, and no answer is expected: the shutdown timer has the default delay
    rcases createShutdownTimer_spec hqe hshut epDefaultShutdownMs with
      ⟨t, s, hrefresh, heq⟩ | ⟨hzero, -⟩
    · refine .inl ⟨none, some t, s, .oneWay (by simpa using hunpack) hrefresh, ?_⟩
      simp only [heq]
      rw [hsent, hnode _ (some t) none s (by simp [withShutdown, hq])]
      rfl
    · exact absurd hzero (by decide)
  · rw [if_pos hlimit]
    rcases createShutdownTimer_spec hqe hshut (n.timeout * 2) with
      ⟨t, s, hrefresh, heq⟩ | ⟨hzero, heq⟩
    · -- a limit, and an answer is expected: both timers are set
      refine .inl ⟨some s.created, some t, _, .limited hlimit hunpack hrefresh, ?_⟩
      have htime : (q.withShutdown x e₁ t s).createTimer (.recv x n.id) (n.timeLeft s.now) =
          (some s.created, { q.withShutdown x e₁ t s with
            tmsvc := s.create (.recv x n.id) (n.timeLeft s.now) }) := by
        rw [createTimer, if_neg (timeLeft_pos n _)]
        rfl
      have hleft : ({ n with status := .sent } : EpNode).timeLeft
          (q.withShutdown x e₁ t s).tmsvc.now = n.timeLeft s.now := rfl
      simp only [heq]
      rw [if_pos hunpack, hleft, htime]
      simp only
      rw [hnode _ (some t) (some s.created) (s.create (.recv x n.id) (n.timeLeft s.now))
        (by simp [withShutdown, hq])]
      rfl
    · exact .inr ⟨⟨hlimit, hzero⟩, by rw [heq]⟩
  · rw [if_pos hlimit]
    rcases createShutdownTimer_spec hqe hshut (n.timeout * 2) with
      ⟨t, s, hrefresh, heq⟩ | ⟨hzero, heq⟩
    · refine .inl ⟨none, some t, s, .oneWay (by simpa using hunpack) hrefresh, ?_⟩
      simp only [heq]
      -- a limit, and no answer is expected: only the shutdown timer is set
      rw [if_neg hunpack, hsent, hnode _ (some t) none s (by simp [withShutdown, hq])]
      rfl
    · exact .inr ⟨⟨hlimit, hzero⟩, by rw [heq]⟩

/-! ### Finding an endpoint -/

/-- `x` is connected, has no request, and its flags are `flags`. -/
def Free (p : EpPool) (flags : Nat) (x : EpId) (e : Ep) : Prop :=
  p.eps x = some e ∧ e.flags = flags ∧ e.status = .connected ∧ e.txns = []

/-- **Finding.** Among endpoints that are not concurrent, a free one is found or none is free,
    unless a connected one has more than one request by its counter. -/
theorem findIn_spec (flags : Nat) (xs : List EpId)
    (hxs : ∀ x ∈ xs, ∃ e, p.eps x = some e ∧ e.flags.testBit 0 = false) :
    (p.findIn flags xs = .ok none ∧ ∀ x ∈ xs, ∀ e, ¬ p.Free flags x e) ∨
    (∃ x ∈ xs, ∃ e, p.findIn flags xs = .ok (some x) ∧ p.Free flags x e ∧ e.ntxn ≤ 1) ∨
    (p.findIn flags xs = .error .ntxn ∧
      ∃ x ∈ xs, ∃ e, p.eps x = some e ∧ e.status = .connected ∧ 1 < e.ntxn) := by
  induction xs with
  | nil => exact .inl ⟨rfl, fun x hx => absurd hx (by simp)⟩
  | cons y ys ih =>
    obtain ⟨e, he, hbit⟩ := hxs y (by simp)
    -- `y` is passed over
    have hskip : (∀ e, ¬ p.Free flags y e) → p.findIn flags (y :: ys) = p.findIn flags ys →
        (p.findIn flags (y :: ys) = .ok none ∧ ∀ x ∈ y :: ys, ∀ e, ¬ p.Free flags x e) ∨
        (∃ x ∈ y :: ys, ∃ e, p.findIn flags (y :: ys) = .ok (some x) ∧ p.Free flags x e ∧
          e.ntxn ≤ 1) ∨
        (p.findIn flags (y :: ys) = .error .ntxn ∧
          ∃ x ∈ y :: ys, ∃ e, p.eps x = some e ∧ e.status = .connected ∧ 1 < e.ntxn) := by
      intro hno heq
      rw [heq]
      rcases ih fun x hx => hxs x (by simp [hx]) with ⟨hnone, hall⟩ | ⟨x, hx, hfound⟩ |
        ⟨hfault, x, hx, hmany⟩
      · refine .inl ⟨hnone, fun x hx => ?_⟩
        rcases List.mem_cons.mp hx with rfl | hx
        · exact hno
        · exact hall x hx
      · exact .inr (.inl ⟨x, by simp [hx], hfound⟩)
      · exact .inr (.inr ⟨hfault, x, by simp [hx], hmany⟩)
    have hcases : p.findIn flags (y :: ys) =
        if flags = e.flags then
          if e.status = .connected then
            if e.ntxn ≤ 1 then
              if e.txns = [] then .ok (some y) else p.findIn flags ys
            else .error .ntxn
          else p.findIn flags ys
        else p.findIn flags ys := by
      simp only [findIn, he, hbit, Bool.false_eq_true, if_false]
    split at hcases
    · rename_i hflags
      split at hcases
      · rename_i hstatus
        split at hcases
        · rename_i hone
          split at hcases
          · rename_i hnil
            exact .inr (.inl ⟨y, by simp, e, hcases, ⟨he, hflags.symm, hstatus, hnil⟩, hone⟩)
          · rename_i hbusy
            refine hskip (fun e' hfree => hbusy ?_) hcases
            rw [Option.some.inj (he.symm.trans hfree.1)]
            exact hfree.2.2.2
        · rename_i hmany
          exact .inr (.inr ⟨hcases, y, by simp, e, he, hstatus, Int.lt_of_not_ge hmany⟩)
      · rename_i hstatus
        refine hskip (fun e' hfree => hstatus ?_) hcases
        rw [Option.some.inj (he.symm.trans hfree.1)]
        exact hfree.2.2.1
    · rename_i hflags
      refine hskip (fun e' hfree => hflags ?_) hcases
      rw [Option.some.inj (he.symm.trans hfree.1)]
      exact hfree.2.1.symm

/-! ### An endpoint for a request -/

/-- The request `n` is put on the free endpoint `x`. -/
def reused (p : EpPool) (x : EpId) (e : Ep) (n : EpNode) : EpPool :=
  ({ p with reuses := p.reuses ++ [{ id := x, ep := e, dying := p.dying x }] } : EpPool).setEp x
    (some { e with txns := [n], ntxn := e.ntxn + 1 })

/-- A new endpoint. -/
def idleEp (type : EpType) (key : EpKey) (status : EpState) (connTimer : Option TimerId) : Ep :=
  { type, key, status, txns := [], ntxn := 0, flags := 0, connTimer, shutdownTimer := none
    rbuf := [], sent := 0, consumed := 0 }

/-- A new endpoint for the request `n`. -/
def newEp (type : EpType) (key : EpKey) (n : EpNode) (status : EpState)
    (connTimer : Option TimerId) : Ep :=
  { idleEp type key status connTimer with txns := [n], ntxn := 1 }

/-- The new endpoint `e` is added. -/
def added (p : EpPool) (e : Ep) (s : TimerSvc EpTimerKind) : EpPool :=
  { (p.setMgr e.type ((p.mgr e.type).add e.key p.nextEp)).setEp p.nextEp (some e) with
    nextEp := p.nextEp + 1, tmsvc := s }

/-- A new endpoint was added and is gone. -/
def lost (p : EpPool) (s : TimerSvc EpTimerKind) : EpPool :=
  { p with nextEp := p.nextEp + 1, tmsvc := s, deleted := p.deleted ++ [p.nextEp] }

/-! ### The list of a key -/

@[simp] theorem opened_eps (p : EpPool) (type : EpType) (key : EpKey) :
    (p.opened type key).eps = p.eps := setMgr_eps p type _

@[simp] theorem opened_stack (p : EpPool) (type : EpType) (key : EpKey) :
    (p.opened type key).stack = p.stack := setMgr_stack p type _

/-- Finding looks at the endpoints only. -/
theorem findIn_congr (heps : p'.eps = p.eps) (flags : Nat) (xs : List EpId) :
    p'.findIn flags xs = p.findIn flags xs := by
  induction xs with
  | nil => rfl
  | cons y ys ih => simp only [findIn, heps, ih]

/-- Opening a list finds nothing new. -/
theorem opened_find (p : EpPool) (type : EpType) (req : EpRequest) :
    (p.opened type req.key).find type req = p.find type req := by
  rw [find, find, opened, setMgr_mgr, if_pos rfl, EpMgr.openList_epList]
  exact findIn_congr (setMgr_eps p type _) _ _

/-- What is found was in the list. -/
theorem findIn_mem {flags : Nat} {xs : List EpId} (h : p.findIn flags xs = .ok (some x)) :
    x ∈ xs := by
  induction xs with
  | nil => exact absurd h (by simp [findIn])
  | cons y ys ih =>
    rw [findIn] at h
    split at h
    · exact absurd h (by simp)
    · split at h
      · split at h
        · exact List.mem_cons.mpr (.inl (Option.some.inj (Except.ok.inj h)).symm)
        · split at h
          · split at h
            · split at h
              · exact List.mem_cons.mpr (.inl (Option.some.inj (Except.ok.inj h)).symm)
              · exact List.mem_cons_of_mem y (ih h)
            · exact absurd h (by simp)
          · exact List.mem_cons_of_mem y (ih h)
      · exact List.mem_cons_of_mem y (ih h)

/-- The list of an endpoint that is found is there. -/
theorem opened_of_find {type : EpType} {req : EpRequest} (hfind : p.find type req = .ok (some x)) :
    p.opened type req.key = p := by
  rw [opened, EpMgr.openList_of_mem (findIn_mem hfind), setMgr_self]

/-- Adding an endpoint opens its list. -/
theorem opened_added (p : EpPool) (e : Ep) (s : TimerSvc EpTimerKind) :
    (p.opened e.type e.key).added e s = p.added e s := by
  have hmgr : (p.opened e.type e.key).mgr e.type = (p.mgr e.type).openList e.key := by
    rw [opened, setMgr_mgr, if_pos rfl]
  rw [added, hmgr]
  show ({ ((p.opened e.type e.key).setMgr e.type
    (((p.mgr e.type).openList e.key).add e.key p.nextEp)).setEp p.nextEp (some e) with
      nextEp := p.nextEp + 1, tmsvc := s } : EpPool) = _
  rw [EpMgr.openList_add, opened, setMgr_setMgr]
  rfl

/-- A request for which an endpoint is found. -/
theorem getOrCreate_reuse {type : EpType} {req : EpRequest} (env : EpSendEnv)
    (hfind : p.find type req = .ok (some x)) (he : p.eps x = some e)
    (hstatus : e.status = .connected) (hnil : e.txns = []) :
    p.getOrCreate type req n env = .ok (some x, p.reused x e n) := by
  have hep : ({ p with reuses := p.reuses ++ [{ id := x, ep := e, dying := p.dying x }] } :
    EpPool).ep x = .ok e := ep_eq he
  have hinit : ¬ e.status = .init := by simp [hstatus]
  rw [getOrCreate, opened_of_find hfind]
  simp only [findOrCreate, hfind, bind, Except.bind, ep_eq he, hep, hinit, if_false, hnil,
    List.nil_append]
  rfl

/-- The timers when a new endpoint waits for its connection. -/
inductive ConnTimer (s : TimerSvc EpTimerKind) (x : EpId) (n : EpNode) :
    Option TimerId → TimerSvc EpTimerKind → Prop
  | limited (hlimit : n.timeout ≠ 0) :
      ConnTimer s x n (some s.created) (s.create (.conn x) (n.timeLeft s.now))
  | unlimited (hlimit : n.timeout = 0) : ConnTimer s x n none s

/-- What is left of a new endpoint that does not connect. -/
theorem lost_eq {type : EpType} {key : EpKey} (status : EpState) (connTimer : Option TimerId)
    (s : TimerSvc EpTimerKind) (hnone : p.eps p.nextEp = none) (htmp : (p.mgr type).tmp = [])
    (hfresh : p.nextEp ∉ (p.mgr type).epList key) :
    (p.added (idleEp type key status connTimer) s).gone p.nextEp
        (idleEp type key status connTimer) = (p.opened type key).lost (s.cancelled connTimer) := by
  have heps : (fun i => if i = p.nextEp then none else if i = p.nextEp then
      some (idleEp type key status connTimer) else p.eps i) = p.eps := by
    funext i
    by_cases hi : i = p.nextEp
    · rw [if_pos hi, hi, hnone]
    · rw [if_neg hi, if_neg hi]
  -- only the list that was made for it stays
  have hmgr : ((p.mgr type).add key p.nextEp).del key p.nextEp = (p.mgr type).openList key :=
    EpMgr.add_del htmp hfresh
  cases type with
  | tcp =>
    have hmgr' : (p.tcp.add key p.nextEp).del key p.nextEp = p.tcp.openList key := hmgr
    show ({ p with
      eps := fun i => if i = p.nextEp then none else if i = p.nextEp then
        some (idleEp .tcp key status connTimer) else p.eps i
      nextEp := p.nextEp + 1
      tcp := (p.tcp.add key p.nextEp).del key p.nextEp
      tmsvc := s.cancelled connTimer
      deleted := p.deleted ++ [p.nextEp] } : EpPool) = _
    rw [heps, hmgr']
    rfl
  | udp =>
    have hmgr' : (p.udp.add key p.nextEp).del key p.nextEp = p.udp.openList key := hmgr
    show ({ p with
      eps := fun i => if i = p.nextEp then none else if i = p.nextEp then
        some (idleEp .udp key status connTimer) else p.eps i
      nextEp := p.nextEp + 1
      udp := (p.udp.add key p.nextEp).del key p.nextEp
      tmsvc := s.cancelled connTimer
      deleted := p.deleted ++ [p.nextEp] } : EpPool) = _
    rw [heps, hmgr']
    rfl

/-- A new endpoint is changed. -/
theorem added_setEp {e' : Ep} (s : TimerSvc EpTimerKind) (htype : e'.type = e.type)
    (hkey : e'.key = e.key) : (p.added e s).setEp p.nextEp (some e') = p.added e' s := by
  simp only [added, htype, hkey]
  exact congrArg (fun q : EpPool => { q with nextEp := p.nextEp + 1, tmsvc := s })
    (setEp_setEp _ p.nextEp (some e) (some e'))

/-- The endpoint that was added is there. -/
theorem added_eps {s : TimerSvc EpTimerKind} : (p.added e s).eps p.nextEp = some e := by
  simp [added]

/-- **Connecting over TCP.** -/
theorem createEntityTcp_spec (p : EpPool) (n : EpNode) (key : EpKey) (s : TimerSvc EpTimerKind)
    (connect : EpConnect) :
    (p.added (newEp .tcp key n .init none) s).createEntityTcp p.nextEp n connect =
        .ok (true, p.added (newEp .tcp key n .connected none) s) ∨
      ∃ b c s' status, (c = none ∧ s' = s ∧ b = false ∨
          status = .connecting ∧ ConnTimer s p.nextEp n c s') ∧
        (p.added (newEp .tcp key n .init none) s).createEntityTcp p.nextEp n connect =
          .ok (b, p.added (newEp .tcp key n status c) s') := by
  have he : (p.added (newEp .tcp key n .init none) s).ep p.nextEp =
      .ok (newEp .tcp key n .init none) := ep_eq added_eps
  have hset (status : EpState) (c : Option TimerId) (s' : TimerSvc EpTimerKind) :
      (p.added (newEp .tcp key n .init none) s').setEp p.nextEp
        (some (newEp .tcp key n status c)) = p.added (newEp .tcp key n status c) s' :=
    added_setEp s' rfl rfl
  unfold createEntityTcp
  split
  · exact .inr ⟨false, none, s, .init, .inl ⟨rfl, rfl, rfl⟩, rfl⟩
  · simp only [he, bind, Except.bind]
    cases connect with
    | now =>
      left
      exact congrArg (fun q => Except.ok (true, q)) (hset .connected none s)
    | later registered =>
      right
      by_cases hlimit : n.timeout = 0
      · -- the connection is under way, and has no limit
        refine ⟨registered, none, s, .connecting, .inr ⟨rfl, .unlimited hlimit⟩, ?_⟩
        simp only [ne_eq, hlimit, not_true_eq_false, if_false]
        exact congrArg (fun q => Except.ok (registered, q)) (hset .connecting none s)
      · refine ⟨registered, some s.created, _, .connecting, .inr ⟨rfl, .limited hlimit⟩, ?_⟩
        simp only [ne_eq, hlimit, not_false_eq_true, if_true, createTimer, timeLeft_pos, if_false]
        exact congrArg (fun q => Except.ok (registered, q))
          (hset .connecting (some s.created) (s.create (.conn p.nextEp) (n.timeLeft s.now)))
    | failed =>
      right
      refine ⟨false, none, s, .connecting, .inl ⟨rfl, rfl, rfl⟩, ?_⟩
      exact congrArg (fun q => Except.ok (false, q)) (hset .connecting none s)

/-- **Connecting over UDP.** -/
theorem createEntityUdp_spec (p : EpPool) (n : EpNode) (key : EpKey) (s : TimerSvc EpTimerKind)
    (connect : EpConnect) :
    (p.added (newEp .udp key n .init none) s).createEntityUdp p.nextEp connect =
        .ok (true, p.added (newEp .udp key n .connected none) s) ∨
      (p.added (newEp .udp key n .init none) s).createEntityUdp p.nextEp connect =
        .ok (false, p.added (newEp .udp key n .init none) s) := by
  have he : (p.added (newEp .udp key n .init none) s).ep p.nextEp =
      .ok (newEp .udp key n .init none) := ep_eq added_eps
  simp only [createEntityUdp, he, bind, Except.bind]
  cases connect with
  | failed => exact .inr rfl
  | now => exact .inl (congrArg (fun q => Except.ok (true, q)) (added_setEp s rfl rfl))
  | later registered => exact .inl (congrArg (fun q => Except.ok (true, q)) (added_setEp s rfl rfl))

/-- A new endpoint that does not connect leaves nothing. -/
theorem unwind_eq {type : EpType} {key : EpKey} (status : EpState) (connTimer : Option TimerId)
    {s : TimerSvc EpTimerKind} (hnone : p.eps p.nextEp = none) (htmp : (p.mgr type).tmp = [])
    (hfresh : p.nextEp ∉ (p.mgr type).epList key) (hrecv : n.recvTimer = none)
    (hconn : ∀ t, connTimer = some t → (s.timers t).isSome) :
    (do
      let q ← (p.added (newEp type key n status connTimer) s).nodeDestroy p.nextEp n false
      let q ← q.mgrDel p.nextEp
      .ok (none, q) : Except EpFault (Option EpId × EpPool)) =
      .ok (none, (p.opened type key).lost (s.cancelled connTimer)) := by
  have hdestroy := nodeDestroy_eq (x := p.nextEp) (n := n)
    (added_eps (p := p) (e := newEp type key n status connTimer) (s := s))
    (by rw [hrecv]; exact timed_none _) false
  have hleft : ({ newEp type key n status connTimer with
      txns := (newEp type key n status connTimer).txns.filter fun n' => n'.id ≠ n.id
      ntxn := (newEp type key n status connTimer).ntxn - 1 } : Ep) =
      idleEp type key status connTimer := by simp [newEp, idleEp]
  have hset : (p.added (newEp type key n status connTimer) s).setEp p.nextEp
      (some (idleEp type key status connTimer)) = p.added (idleEp type key status connTimer) s :=
    added_setEp s rfl rfl
  rw [hleft, hset, hrecv] at hdestroy
  have hidle : (p.added (newEp type key n status connTimer) s).nodeDestroy p.nextEp n false =
      .ok (p.added (idleEp type key status connTimer) s) := by
    rw [hdestroy]
    cases type <;> rfl
  have hdel := mgrDel_eq (x := p.nextEp) (added_eps (p := p)
    (e := idleEp type key status connTimer) (s := s)) rfl (by exact hconn) (timed_none _)
  rw [lost_eq status connTimer s hnone htmp hfresh] at hdel
  simp only [hidle, hdel, bind, Except.bind]

/-- A new endpoint is connected. -/
def createEntity (p : EpPool) (type : EpType) (x : EpId) (n : EpNode) (connect : EpConnect) :
    Except EpFault (Bool × EpPool) :=
  match type with
  | .tcp => p.createEntityTcp x n connect
  | .udp => p.createEntityUdp x connect

/-- A new endpoint that does not connect is removed again. -/
def createEnd (x : EpId) (n : EpNode) (r : Bool × EpPool) :
    Except EpFault (Option EpId × EpPool) :=
  if r.1 then .ok (some x, r.2)
  else do
    let q ← r.2.nodeDestroy x n false
    let q ← q.mgrDel x
    .ok (none, q)

/-- A request for which no endpoint is found. -/
theorem findOrCreate_new {type : EpType} {req : EpRequest} (env : EpSendEnv)
    (hfind : p.find type req = .ok none) :
    p.findOrCreate type req n env =
      (p.added (newEp type req.key n .init none) (p.tmsvc.elapse env.delay)).createEntity type
        p.nextEp n env.connect >>= createEnd p.nextEp n := by
  have hadd : (p.epCreate type req.key).ep p.nextEp = .ok (idleEp type req.key .init none) := by
    simp [ep, epCreate, idleEp]
  have hpush : ({ (p.epCreate type req.key).setEp p.nextEp
      (some (newEp type req.key n .init none)) with tmsvc := p.tmsvc.elapse env.delay } : EpPool) =
      p.added (newEp type req.key n .init none) (p.tmsvc.elapse env.delay) := by
    cases type <;> simp only [epCreate, added, setMgr, newEp, idleEp] <;>
      exact congrArg (fun q : EpPool =>
        { q with nextEp := p.nextEp + 1, tmsvc := p.tmsvc.elapse env.delay })
        (setEp_setEp _ p.nextEp _ _)
  rw [← hpush]
  simp only [findOrCreate, hfind, bind, Except.bind, hadd]
  cases type <;> rfl

/-- When none is found an endpoint is made. -/
theorem getOrCreate_new {type : EpType} {req : EpRequest} (env : EpSendEnv)
    (hfind : p.find type req = .ok none) :
    p.getOrCreate type req n env =
      (p.added (newEp type req.key n .init none) (p.tmsvc.elapse env.delay)).createEntity type
        p.nextEp n env.connect >>= createEnd p.nextEp n := by
  rw [getOrCreate, findOrCreate_new env ((opened_find p type req).trans hfind),
    ← opened_added p (newEp type req.key n .init none)]
  cases type <;> rfl

/-- **A new endpoint for a request.**  It is connected, waits for its connection, or is gone. -/
theorem getOrCreate_fresh {type : EpType} {req : EpRequest} (env : EpSendEnv)
    (hfind : p.find type req = .ok none) (hnone : p.eps p.nextEp = none)
    (htmp : (p.mgr type).tmp = []) (hfresh : p.nextEp ∉ (p.mgr type).epList req.key)
    (hrecv : n.recvTimer = none)
    (htimers : ∀ t τ, p.tmsvc.timers t = some τ → t < p.tmsvc.created) :
    p.getOrCreate type req n env = .ok (some p.nextEp,
        p.added (newEp type req.key n .connected none) (p.tmsvc.elapse env.delay)) ∨
      (type = .tcp ∧ ∃ c s, ConnTimer (p.tmsvc.elapse env.delay) p.nextEp n c s ∧
        p.getOrCreate type req n env =
          .ok (some p.nextEp, p.added (newEp .tcp req.key n .connecting c) s)) ∨
      ∃ s, p.tmsvc.Grown s ∧
        p.getOrCreate type req n env = .ok (none, (p.opened type req.key).lost s) := by
  set s := p.tmsvc.elapse env.delay with hs
  rw [getOrCreate_new env hfind, ← hs]
  -- the timers that are left when it does not connect
  have hgrown (c : Option TimerId) (s' : TimerSvc EpTimerKind)
      (hc : c = none ∧ s' = s ∨ ConnTimer s p.nextEp n c s') :
      p.tmsvc.Grown (s'.cancelled c) ∧ ∀ t, c = some t → (s'.timers t).isSome := by
    have hold (i : TimerId) (τ : Timer EpTimerKind) (hτ : s.timers i = some τ) : i < s.created :=
      htimers i τ hτ
    rcases hc with ⟨rfl, rfl⟩ | hlimited | hunlimited
    · refine ⟨⟨fun i _ => rfl, fun i τ hle hτ => ?_, Nat.le_refl _, Nat.le_add_right _ _⟩,
        fun t ht => absurd ht (by simp)⟩
      exact absurd (hold i τ hτ) (Nat.not_lt.mpr hle)
    · refine ⟨⟨fun i hi => ?_, fun i τ hle hτ => ?_, Nat.le_succ _, Nat.le_add_right _ _⟩, ?_⟩
      · have hne : i ≠ s.created := Nat.ne_of_lt hi
        rw [TimerSvc.cancelled_timers, if_neg (by simpa using Ne.symm hne), TimerSvc.create_timers,
          if_neg hne]
        rfl
      · rw [TimerSvc.cancelled_timers, TimerSvc.create_timers] at hτ
        split at hτ
        · rename_i hi
          obtain rfl : s.created = i := Option.some.inj hi
          rw [if_pos rfl, Option.map_some] at hτ
          exact ⟨Nat.lt_succ_self _, by rw [← Option.some.inj hτ]⟩
        · rename_i hi
          rw [if_neg (fun h => hi (by rw [h]))] at hτ
          exact absurd (hold i τ hτ) (Nat.not_lt.mpr hle)
      · intro t ht
        rw [TimerSvc.create_timers, if_pos (Option.some.inj ht).symm]
        rfl
    · refine ⟨⟨fun i _ => rfl, fun i τ hle hτ => ?_, Nat.le_refl _, Nat.le_add_right _ _⟩,
        fun t ht => absurd ht (by simp)⟩
      exact absurd (hold i τ hτ) (Nat.not_lt.mpr hle)
  cases type with
  | tcp =>
    rcases createEntityTcp_spec p n req.key s env.connect with hok | ⟨b, c, s', status, hc, heq⟩
    · left
      simp only [createEntity, hok, bind, Except.bind, createEnd, if_true]
    · cases b with
      | true =>
        rcases hc with ⟨-, -, hb⟩ | ⟨rfl, hconn⟩
        · exact absurd hb (by simp)
        · refine .inr (.inl ⟨rfl, c, s', hconn, ?_⟩)
          simp only [createEntity, heq, bind, Except.bind, createEnd, if_true]
      | false =>
        obtain ⟨hgrow, hsome⟩ := hgrown c s' (hc.imp (fun h => ⟨h.1, h.2.1⟩) And.right)
        refine .inr (.inr ⟨_, hgrow, ?_⟩)
        rw [createEntity, heq]
        exact unwind_eq status c hnone htmp hfresh hrecv hsome
  | udp =>
    rcases createEntityUdp_spec p n req.key s env.connect with hok | hno
    · left
      simp only [createEntity, hok, bind, Except.bind, createEnd, if_true]
    · obtain ⟨hgrow, hsome⟩ := hgrown none s (.inl ⟨rfl, rfl⟩)
      refine .inr (.inr ⟨_, hgrow, ?_⟩)
      rw [createEntity, hno]
      exact unwind_eq .init none hnone htmp hfresh hrecv hsome

/-! ### The endpoints after an operation -/

/-- The endpoint that is gone is not there. -/
theorem gone_eps (p : EpPool) (x : EpId) (e : Ep) : (p.gone x e).eps = (p.setEp x none).eps := by
  funext y
  simp [gone]

/-- Its manager does not list it. -/
theorem gone_mgr (p : EpPool) (x : EpId) (e : Ep) :
    (p.gone x e).mgr = (p.setMgr e.type ((p.mgr e.type).del e.key x)).mgr := rfl

/-- An endpoint is added as if it were set. -/
theorem added_setEps (p : EpPool) (e : Ep) (s : TimerSvc EpTimerKind) :
    (p.added e s).eps = (p.setEp p.nextEp (some e)).eps := by
  funext y
  simp [added]

@[simp] theorem added_stack (p : EpPool) (e : Ep) (s : TimerSvc EpTimerKind) :
    (p.added e s).stack = p.stack := rfl

/-- Its manager lists it. -/
theorem added_mgr (p : EpPool) (e : Ep) (s : TimerSvc EpTimerKind) :
    (p.added e s).mgr = (p.setMgr e.type ((p.mgr e.type).add e.key p.nextEp)).mgr := rfl

section Over

variable {q : EpPool} {o : Option Ep}

/-- An endpoint that was changed breaks without a request. -/
theorem broken_over (hq : q.eps = (p.setEp x o).eps) (e : Ep) (before turns : Nat) :
    (q.broken x e before turns).eps = (p.setEp x none).eps :=
  (gone_eps _ x e).trans (setEp_over hq none)

/-- An endpoint that was changed breaks with a request. -/
theorem failed_over (hq : q.eps = (p.setEp x o).eps) (e : Ep) (n : EpNode) (before turns : Nat) :
    (q.failed x e n before turns).eps = (p.setEp x (some { e with txns := [] })).eps :=
  setEp_over hq _

/-- A request is written to an endpoint that was changed. -/
theorem wrote_over (hq : q.eps = (p.setEp x o).eps) (recv shut : Option TimerId)
    (s : TimerSvc EpTimerKind) : (q.wrote x e n recv shut s).eps = (p.setEp x (some { e with
      txns := [{ n with status := .sent, recvTimer := recv }], shutdownTimer := shut
      sent := e.sent + 1 })).eps :=
  setEp_over hq _

end Over

end EpPool

end Skull
