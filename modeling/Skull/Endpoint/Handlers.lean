import Skull.Endpoint.Preserve

namespace Skull

open Machines

/-!
# What each handler of a pool does

* `EpPool.Ids` — the requests of a pool have different numbers;
* `EpPool.send_effect`, `EpPool.readCb_effect`, `EpPool.error_effect`, `EpPool.onConnect_effect`,
  `EpPool.timer_effect`, `EpPool.return_effect`, `EpPool.destroy_effect` — each handler has an
  effect, or fails a check;
* `EpPool.step_effect` — so does every step.
-/

namespace EpPool

variable {p p' : EpPool} {x : EpId} {e e' : Ep} {n m : EpNode} {a : EpAction}

/-- The requests have different numbers, less than the number of calls. -/
structure Ids (p : EpPool) : Prop where
  lt : ∀ x n, p.Node x n → n.id < p.calls
  uniq : ∀ x y n m, p.Node x n → p.Node y m → n.id = m.id → x = y
  popped : ∀ x e n m before turns, p.eps x = some e → m ∈ e.txns →
    .error x n before turns ∈ p.stack → m.id ≠ n.id

/-- An action has an effect, or fails a check. -/
def Outcome (p : EpPool) (a : EpAction) (r : Except EpFault EpPool) : Prop :=
  (∃ p', r = .ok p' ∧ Effect p a p') ∨ ∃ f, r = .error f ∧ Faulty p a f

/-! ### Sending -/

/-- The endpoints in a list exist, and are not concurrent. -/
theorem Inv.listed (h : p.Inv) (type : EpType) (key : EpKey) :
    ∀ x ∈ (p.mgr type).epList key, ∃ e, p.eps x = some e ∧ e.flags.testBit 0 = false := by
  intro x hx
  obtain ⟨e, he, -⟩ := (h.mapped type key x).mp hx
  refine ⟨e, he, ?_⟩
  rw [(h.bound x e he).2]
  exact Nat.zero_testBit 0

/-- **Finding an endpoint.** -/
theorem Inv.find_spec (h : p.Inv) (type : EpType) (req : EpRequest) :
    p.find type req = .ok none ∨
    (∃ x e, p.find type req = .ok (some x) ∧ p.Free req.flags x e) ∨
    (p.find type req = .error .ntxn ∧ ∃ x e n before turns,
      .error x n before turns ∈ p.stack ∧ p.eps x = some e ∧ e.txns ≠ []) := by
  rcases findIn_spec req.flags _ (h.listed type req.key) with ⟨hnone, -⟩ | ⟨x, -, e, hfound, hfree, -⟩ |
    ⟨hfault, x, -, e, he, hstatus, hmany⟩
  · exact .inl hnone
  · exact .inr (.inl ⟨x, e, hfound, hfree⟩)
  · refine .inr (.inr ⟨hfault, x, e, ?_⟩)
    -- only an endpoint that breaks has a counter above one
    have hshape := h.shape x e he
    have hdying : p.dying x = true ∧ e.txns ≠ [] := by
      cases hshape with
      | pending hstatus' _ _ _ _ _ _ _ => simp [hstatus] at hstatus'
      | unconnected hstatus' _ _ _ => simp [hstatus] at hstatus'
      | free _ _ _ hntxn =>
        rw [hntxn] at hmany
        split at hmany <;> exact absurd hmany (by decide)
      | busy _ _ hone _ hntxn =>
        rw [hntxn] at hmany
        split at hmany
        · rename_i hdying
          exact ⟨hdying, by simp [hone]⟩
        · exact absurd hmany (by decide)
    obtain ⟨frame, hframe, hx⟩ := List.any_eq_true.mp hdying.1
    cases frame with
    | error y n before turns =>
      obtain rfl : x = y := of_decide_eq_true hx
      exact ⟨n, before, turns, hframe, he, hdying.2⟩
    | ok y req => simp at hx
    | timeout y req => simp at hx

/-- A call of `sk_ep_send` that passes the checks. -/
theorem send_eq {req : EpRequest} {env : EpSendEnv} {type : EpType}
    (hcheck : req.check = some type) (hroom : (p.mgr type).nep ≠ (p.mgr type).max) :
    p.send req env = (p.begun.getOrCreate type req (req.node p.calls p.tmsvc.now) env >>=
      fun (found, q) =>
        match found with
        | none => .ok (q.returns p.calls false)
        | some x => q.epSend x (req.node p.calls p.tmsvc.now) env.written >>=
            fun (ok, q) => .ok (q.returns p.calls ok)) := by
  have hmgr : p.begun.mgr type = p.mgr type := by cases type <;> rfl
  have hroom' : ¬ (p.begun.mgr type).nep = (p.begun.mgr type).max := by rw [hmgr]; exact hroom
  simp only [send, hcheck]
  refine (if_neg hroom').trans ?_
  refine congrArg (p.begun.getOrCreate type req (req.node p.calls p.tmsvc.now) env >>= ·) ?_
  funext ⟨found, q⟩
  cases found <;> rfl

section Send

variable {q q' : EpPool} {req : EpRequest} {env : EpSendEnv} {type : EpType}
  {b w : Bool} {f : EpFault}

/-- A request has its endpoint. -/
theorem send_found (hcheck : req.check = some type) (hroom : (p.mgr type).nep ≠ (p.mgr type).max)
    (hok : p.begun.getOrCreate type req (req.node p.calls p.tmsvc.now) env = .ok (some x, q))
    (hwritten : env.written = w)
    (hsend : q.epSend x (req.node p.calls p.tmsvc.now) w = .ok (b, q')) :
    p.send req env = .ok (q'.returns p.calls b) := by
  rw [send_eq hcheck hroom, hok]
  show (q.epSend x (req.node p.calls p.tmsvc.now) env.written >>= fun (ok, q) =>
    .ok (q.returns p.calls ok)) = _
  rw [hwritten, hsend]
  rfl

/-- A request has its endpoint, and writing it fails a check. -/
theorem send_found_error (hcheck : req.check = some type)
    (hroom : (p.mgr type).nep ≠ (p.mgr type).max)
    (hok : p.begun.getOrCreate type req (req.node p.calls p.tmsvc.now) env = .ok (some x, q))
    (hwritten : env.written = w)
    (hsend : q.epSend x (req.node p.calls p.tmsvc.now) w = .error f) :
    p.send req env = .error f := by
  rw [send_eq hcheck hroom, hok]
  show (q.epSend x (req.node p.calls p.tmsvc.now) env.written >>= fun (ok, q) =>
    .ok (q.returns p.calls ok)) = _
  rw [hwritten, hsend]
  rfl

end Send

/-- A request that begins does not change what is found. -/
theorem begun_find (p : EpPool) (type : EpType) (req : EpRequest) :
    p.begun.find type req = p.find type req := by
  have hfindIn : ∀ flags xs, p.begun.findIn flags xs = p.findIn flags xs := findIn_congr rfl
  rw [find, find, hfindIn]
  cases type <;> rfl

/-- A write that fails. -/
theorem epSend_failed (he : p.eps x = some e) (hstatus : e.status = .connected)
    (hn : n.status ≠ .sent) : p.epSend x n false = (p.handleError x).map (Prod.mk false) := by
  have hconnected : ¬ e.status ≠ .connected := by simp [hstatus]
  simp only [epSend, ep_eq he, bind, Except.bind, hconnected, hn, if_false, Bool.false_eq_true,
    not_false_eq_true, if_true]

/-- A request that cannot be written to its new endpoint leaves nothing. -/
theorem Inv.fresh_failed (h : p.Inv) (type : EpType) (key : EpKey) (s : TimerSvc EpTimerKind)
    (hn : n.status = .init) (hrecv : n.recvTimer = none) :
    (p.added (newEp type key n .connected none) s).epSend p.nextEp n false =
      .ok (false, ({ p with errors := p.errors ++ [p.nextEp], drains := p.drains ++ [(1, 1)] } :
        EpPool).opened type key |>.lost s) := by
  set q := p.added (newEp type key n .connected none) s with hq
  have he : q.eps p.nextEp = some (newEp type key n .connected none) := added_eps
  rw [epSend_failed he rfl (by simp [hn]), handleError_init he rfl hn hrecv (timed_none _)
    (timed_none _)]
  set r : EpPool := { p with errors := p.errors ++ [p.nextEp], drains := p.drains ++ [(1, 1)] }
    with hr
  have hmgr : r.mgr type = p.mgr type := by cases type <;> rfl
  have hfresh : r.nextEp ∉ (r.mgr type).epList key := by
    rw [hmgr]
    exact h.next_fresh type key
  have hlost := lost_eq (p := r) .connected none s h.next_none (by rw [hmgr]; exact h.tmp type) hfresh
  rw [TimerSvc.cancelled_none] at hlost
  -- the list and the counter of the endpoint are empty again
  have hidle : q.setEp p.nextEp (some (idleEp type key .connected none)) =
      p.added (idleEp type key .connected none) s := added_setEp s rfl rfl
  rw [← hlost]
  show Except.ok (false, ({ q.setEp p.nextEp (some (idleEp type key .connected none)) with
    errors := q.errors ++ [p.nextEp] } : EpPool).broken p.nextEp
      (idleEp type key .connected none) 1 1) = _
  rw [hidle]
  cases type <;> rfl

/-- A request that cannot be written to a free endpoint takes it along. -/
theorem Inv.reuse_failed (h : p.Inv) {flags : Nat} (hfree : p.Free flags x e) (hn : n.status = .init)
    (hrecv : n.recvTimer = none) :
    (p.reused x e n).epSend x n false = .ok (false, ({ p with
      reuses := p.reuses ++ [{ id := x, ep := e, dying := p.dying x }]
      errors := p.errors ++ [x] } : EpPool).broken x e 1 1) := by
  obtain ⟨he, -, hstatus, hnil⟩ := hfree
  set e₁ : Ep := { e with txns := [n], ntxn := e.ntxn + 1 } with he₁
  have hput : (p.reused x e n).eps x = some e₁ := by simp [reused, he₁]
  have htimed : (p.reused x e n).Timed e.shutdownTimer := h.timed_shutdown he
  have htimed' : (p.reused x e n).Timed e.connTimer := h.timed_conn he
  rw [epSend_failed hput hstatus (by simp [hn]), handleError_init hput rfl hn hrecv htimed' htimed]
  -- the list and the counter of the endpoint are as before
  have hback : ({ e₁ with txns := [], ntxn := e₁.ntxn - 1 } : Ep) = e := by
    rw [← hnil, he₁]
    simp
  set q : EpPool := { p with
    reuses := p.reuses ++ [{ id := x, ep := e, dying := p.dying x }]
    errors := p.errors ++ [x] } with hq
  have hset : ({ p.reused x e n with errors := (p.reused x e n).errors ++ [x] } : EpPool).setEp x
      (some e) = q := by
    have hqe : q.eps x = some e := he
    exact (setEp_setEp q x (some e₁) (some e)).trans (setEp_self hqe)
  rw [hback, hset]
  rfl

/-- A request waits for the connection of its new endpoint. -/
theorem fresh_pending (key : EpKey) (c : Option TimerId) (s : TimerSvc EpTimerKind)
    (written : Bool) (hn : n.status = .init) :
    (p.added (newEp .tcp key n .connecting c) s).epSend p.nextEp n written =
      .ok (true, p.added (newEp .tcp key { n with status := .pending } .connecting c) s) := by
  set q := p.added (newEp .tcp key n .connecting c) s with hq
  have he : q.eps p.nextEp = some (newEp .tcp key n .connecting c) := added_eps
  have hset : q.setEp p.nextEp (some (newEp .tcp key { n with status := .pending } .connecting c)) =
      p.added (newEp .tcp key { n with status := .pending } .connecting c) s :=
    added_setEp s rfl rfl
  have hnode : q.setNode p.nextEp { n with status := .pending } =
      .ok (p.added (newEp .tcp key { n with status := .pending } .connecting c) s) := by
    rw [← hset]
    exact setNode_one he rfl rfl
  have hconnecting : (newEp .tcp key n .connecting c).status ≠ .connected := by simp [newEp, idleEp]
  have hwaits : (newEp .tcp key n .connecting c).status = .connecting ∧ n.status = .init ∧
      (newEp .tcp key n .connecting c).type = .tcp := ⟨rfl, hn, rfl⟩
  simp only [epSend, ep_eq he, bind, Except.bind]
  rw [if_pos hconnecting, if_pos hwaits, hnode]
  rfl

/-- No endpoint is found, so a new one is made for the request. -/
theorem send_fresh (h : p.Inv) {req : EpRequest} (env : EpSendEnv) {type : EpType}
    (hcheck : req.check = some type) (hroom : (p.mgr type).nep ≠ (p.mgr type).max)
    (hnone : p.find type req = .ok none) : p.Outcome (.send req env) (p.send req env) := by
  set n := req.node p.calls p.tmsvc.now with hn
  have hgets : p.Room req type := ⟨hcheck, hroom⟩
  have hfresh : p.begun.nextEp ∉ (p.begun.mgr type).epList req.key := h.begun.next_fresh type _
  rw [← begun_find] at hnone
  rcases getOrCreate_fresh (n := n) env hnone h.begun.next_none (h.begun.tmp type) hfresh rfl
    h.begun.timers.fresh with hok | ⟨rfl, c, s, hconn, hok⟩ | ⟨s, hgrown, hok⟩
  · -- it is connected at once, and the request is written
    cases hwritten : env.written with
    | false =>
      -- the write fails, so the endpoint is lost with its request
      have hfailed := h.begun.fresh_failed (n := n) type req.key
        (p.tmsvc.elapse env.delay) rfl rfl
      exact .inl ⟨_, send_found hcheck hroom hok hwritten hfailed,
        .lost (h.timers.elapsed env.delay) (.inr ⟨rfl, rfl⟩)⟩
    | true =>
      -- it is written, and waits for the answer
      have hput : (p.begun.added (newEp type req.key n .connected none)
          (p.tmsvc.elapse env.delay)).eps p.begun.nextEp =
            some (newEp type req.key n .connected none) := added_eps
      rcases epSend_spec hput rfl rfl (by simp [hn, EpRequest.node]) rfl (timed_none _) with
        ⟨recv, shut, s, hsend, heq⟩ | ⟨⟨hlimit, hzero⟩, heq⟩
      · exact .inl ⟨_, send_found hcheck hroom hok hwritten heq, .fresh hgets hsend⟩
      · exact .inr ⟨_, send_found_error hcheck hroom hok hwritten heq, .send hgets hlimit hzero⟩
  · -- the connection is under way, and the request waits for it
    exact .inl ⟨_, send_found hcheck hroom hok rfl (fresh_pending req.key c s env.written rfl),
      .pending hgets hconn⟩
  · -- the entity could not be made
    have hlost : Effect p (.send req env) (((({ p.begun with
        errors := p.errors ++ [], drains := p.drains ++ [] } : EpPool).opened type req.key).lost
          s).returns p.calls false) := .lost hgrown (.inl ⟨rfl, rfl⟩)
    rw [List.append_nil, List.append_nil] at hlost
    exact .inl ⟨_, by rw [send_eq hcheck hroom, hok]; rfl, hlost⟩

/-- A free endpoint is found, and used again for the request. -/
theorem send_reuse (h : p.Inv) (hids : p.Ids) {req : EpRequest} (env : EpSendEnv) {type : EpType}
    (hcheck : req.check = some type) (hroom : (p.mgr type).nep ≠ (p.mgr type).max)
    (hfind : p.find type req = .ok (some x)) (hfree : p.Free req.flags x e) :
    p.Outcome (.send req env) (p.send req env) := by
  set n := req.node p.calls p.tmsvc.now with hn
  have hgets : p.Room req type := ⟨hcheck, hroom⟩
  obtain ⟨he, hflags, hstatus, hnil⟩ := hfree
  have hok := getOrCreate_reuse (n := n) env ((begun_find p type req).trans hfind) he
    hstatus hnil
  cases hwritten : env.written with
  | false =>
    have hfailed := h.begun.reuse_failed (n := n) ⟨he, hflags, hstatus, hnil⟩ rfl rfl
    exact .inl ⟨_, send_found hcheck hroom hok hwritten hfailed,
      .reuseLost ⟨hgets, hfind⟩ ⟨he, hflags, hstatus, hnil⟩⟩
  | true =>
    have hput : (p.begun.reused x e n).eps x =
        some { e with txns := [n], ntxn := e.ntxn + 1 } := by simp [reused]
    have htimed : (p.begun.reused x e n).Timed e.shutdownTimer := h.timed_shutdown he
    have hnew : ∀ m before turns, .error x m before turns ∈ p.stack → m.id ≠ p.calls :=
      fun m before turns hm => Nat.ne_of_lt (hids.lt x m (.inr ⟨before, turns, hm⟩))
    rcases epSend_spec hput rfl hstatus (by simp [hn, EpRequest.node]) rfl htimed with
      ⟨recv, shut, s, hsend, heq⟩ | ⟨⟨hlimit, hzero⟩, heq⟩
    · exact .inl ⟨_, send_found hcheck hroom hok hwritten heq,
        .reuse ⟨hgets, hfind⟩ ⟨he, hflags, hstatus, hnil⟩ hnew hsend⟩
    · exact .inr ⟨_, send_found_error hcheck hroom hok hwritten heq, .send hgets hlimit hzero⟩

/-- **A request is sent.** -/
theorem send_effect (h : p.Inv) (hids : p.Ids) (req : EpRequest) (env : EpSendEnv) :
    p.Outcome (.send req env) (p.send req env) := by
  cases hcheck : req.check with
  | none => exact .inl ⟨_, by simp only [send, hcheck]; rfl, .refuse⟩
  | some type =>
    by_cases hroom : (p.mgr type).nep = (p.mgr type).max
    · have hfull : (p.begun.mgr type).nep = (p.begun.mgr type).max := by cases type <;> exact hroom
      refine .inl ⟨_, ?_, .refuse⟩
      simp only [send, hcheck]
      exact if_pos hfull
    rcases h.find_spec type req with hnone | ⟨x, e, hfind, hfree⟩ |
      ⟨hfault, x, e, m, before, turns, hframe, he, hbusy⟩
    · exact send_fresh h env hcheck hroom hnone
    · exact send_reuse h hids env hcheck hroom hfind hfree
    · -- an endpoint that breaks has a counter above one
      rw [← begun_find, ← opened_find] at hfault
      refine .inr ⟨.ntxn, ?_, .ntxn hframe he hbusy⟩
      rw [send_eq hcheck hroom]
      simp only [getOrCreate, findOrCreate, hfault, bind, Except.bind]

/-! ### Errors -/

/-- What a connected endpoint looks like when no callback runs. -/
theorem Inv.connected_cases (h : p.Inv) (hstack : p.stack = []) (he : p.eps x = some e)
    (hstatus : e.status = .connected) : e.connTimer = none ∧
      (e.txns = [] ∨ ∃ n, e.txns = [n] ∧ n.status = .sent ∧ e.ntxn = 1) := by
  have hshape := h.shape x e he
  rw [dying_nil hstack] at hshape
  cases hshape with
  | pending hstatus' _ _ _ _ _ _ _ => simp [hstatus] at hstatus'
  | unconnected hstatus' _ _ _ => simp [hstatus] at hstatus'
  | free _ hconn hnil _ => exact ⟨hconn, .inl hnil⟩
  | busy _ hconn hone hn hntxn => exact ⟨hconn, .inr ⟨_, hone, hn, hntxn⟩⟩

/-- What an endpoint looks like that waits for its connection. -/
theorem Inv.connecting_cases (h : p.Inv) (hstack : p.stack = []) (he : p.eps x = some e)
    (hstatus : e.status = .connecting) : e.shutdownTimer = none ∧
      ∃ n, e.txns = [n] ∧ n.status = .pending ∧ n.recvTimer = none ∧ e.ntxn = 1 := by
  have hshape := h.shape x e he
  rw [dying_nil hstack] at hshape
  cases hshape with
  | pending _ _ hshut hone hn hrecv hntxn _ => exact ⟨hshut, _, hone, hn, hrecv, hntxn⟩
  | unconnected _ _ _ hdying => simp at hdying
  | free hstatus' _ _ _ => simp [hstatus] at hstatus'
  | busy hstatus' _ _ _ _ => simp [hstatus] at hstatus'

/-- The endpoint `x` breaks, with a request. -/
theorem fail_outcome {e₀ : Ep} {s : TimerSvc EpTimerKind} (hsend : ∀ req env, a ≠ .send req env)
    (hstack : p.stack = []) (hbreaks : p.Breaks x e e₀ n s) (hcause : p.Cause x e n a) :
    ∃ p', ({ p.setEp x (some e₀) with tmsvc := s } : EpPool).handleError x = .ok p' ∧
      Effect p a p' := by
  set q : EpPool := { p.setEp x (some e₀) with tmsvc := s } with hq
  have he₀ : q.eps x = some e₀ := by simp [hq]
  have hone : e₀.txns = [n] := hbreaks.same.2.2.2.1.trans hbreaks.one
  exact ⟨_, handleError_one he₀ hone hbreaks.node, .fail hsend hstack hbreaks hcause⟩

/-- The connected endpoint `x` breaks. -/
theorem Inv.break_outcome (h : p.Inv) {shut : Option TimerId} {s : TimerSvc EpTimerKind}
    (hsend : ∀ req env, a ≠ .send req env) (hstack : p.stack = []) (he : p.eps x = some e)
    (hstatus : e.status = .connected) (hcause : ∀ n, p.Cause x e n a)
    (hfollows : TimerSvc.Follows (fun _ => False) p.tmsvc s)
    (howned : TimerSvc.Owned (p.setEp x (some { e with shutdownTimer := shut })).Points s) :
    p.Outcome a (({ p.setEp x (some { e with shutdownTimer := shut }) with tmsvc := s } :
      EpPool).handleError x) := by
  obtain ⟨hconn, hnil | ⟨n, hone, hn, hntxn⟩⟩ := h.connected_cases hstack he hstatus
  · set q : EpPool := { p.setEp x (some { e with shutdownTimer := shut }) with tmsvc := s } with hq
    have he₀ : q.eps x = some { e with shutdownTimer := shut } := by simp [hq]
    have htimed : q.Timed shut := fun i hi =>
      howned.isSome (k := .shutdown x) ⟨_, he₀, hi⟩
    have htimed' : q.Timed e.connTimer := by rw [hconn]; exact timed_none _
    exact .inl ⟨_, handleError_nil he₀ hnil htimed' htimed,
      .close hsend hstack he hnil hfollows howned⟩
  · exact .inl (fail_outcome hsend hstack ⟨he, hone, by simp [hn], ⟨rfl, rfl, rfl, rfl, rfl⟩,
      .inr ⟨hstatus, hconn, hntxn⟩, howned, hfollows, rfl, rfl, fun _ => rfl⟩ (hcause n))

/-- **A connection breaks.** -/
theorem error_effect (h : p.Inv) (hstack : p.stack = []) (he : p.eps x = some e)
    (hstatus : e.status = .connected) : p.Outcome (.error x) (p.handleError x) := by
  have hset : p.setEp x (some { e with shutdownTimer := e.shutdownTimer }) = p := setEp_self he
  have howned : TimerSvc.Owned
      (p.setEp x (some { e with shutdownTimer := e.shutdownTimer })).Points p.tmsvc := by
    rw [hset]
    exact h.timers
  have houtcome := h.break_outcome (a := .error x) (by simp) hstack he hstatus (fun _ => .error) (.refl _)
    howned
  rw [hset] at houtcome
  exact houtcome

/-! ### Data -/

theorem Later.refl (s : TimerSvc EpTimerKind) : Later s s :=
  ⟨Nat.le_refl _, rfl, fun _ τ hτ => ⟨τ, hτ, rfl, rfl, rfl, .inl⟩⟩

/-- Nothing happens. -/
theorem Inv.idle_outcome (h : p.Inv) (hsend : ∀ req env, a ≠ .send req env) : Effect p a p :=
  .quiet hsend h.timers (.refl _)

/-- What the first unpack function returns that does not return zero. -/
theorem tryUnpack_some {ns : List EpNode} {results : List Int} {c : Int}
    (h : tryUnpack ns results = some (n, c)) : n ∈ ns ∧ n.unpack = true ∧ c ≠ 0 := by
  induction ns generalizing results with
  | nil => simp [tryUnpack] at h
  | cons m ns ih =>
    simp only [tryUnpack] at h
    split at h
    · obtain ⟨hmem, hrest⟩ := ih h
      exact ⟨.tail _ hmem, hrest⟩
    · rename_i hunpack
      split at h
      · exact absurd h (by simp)
      · split at h
        · obtain ⟨hmem, hrest⟩ := ih h
          exact ⟨.tail _ hmem, hrest⟩
        · rename_i hzero
          obtain ⟨rfl, rfl⟩ := Prod.mk.inj (Option.some.inj h)
          exact ⟨.head _, not_not.mp hunpack, hzero⟩

/-- An endpoint that is set twice is as it was set last. -/
theorem setEp_again (p : EpPool) (x : EpId) (e e' : Option Ep) (s : TimerSvc EpTimerKind) :
    ({ p.setEp x e with tmsvc := s } : EpPool).setEp x e' = { p.setEp x e' with tmsvc := s } :=
  congrArg (fun q : EpPool => { q with tmsvc := s }) (setEp_setEp p x e e')

/-- **Data arrive.** -/
theorem readCb_effect (h : p.Inv) (hstack : p.stack = []) (he : p.eps x = some e)
    (hstatus : e.status = .connected) (arrived : Option (List UInt8)) (results : List Int) :
    p.Outcome (.read x arrived results) (p.readCb x arrived results) := by
  have hconnected : ¬ e.status ≠ .connected := by simp [hstatus]
  simp only [readCb, ep_eq he, bind, Except.bind]
  rw [if_neg hconnected]
  cases arrived with
  | none => exact .inl ⟨p, rfl, h.idle_outcome (by simp)⟩
  | some bytes =>
    simp only
    split
    · -- no bytes came, or none that the endpoint can use
      exact .inl ⟨p, rfl, h.idle_outcome (by simp)⟩
    rename_i hdata
    obtain ⟨hconn, hbusy⟩ := h.connected_cases hstack he hstatus
    cases hunpack : tryUnpack e.txns results with
    | none => exact .inl ⟨_, rfl, .buffered hstack he hstatus⟩
    | some found =>
      obtain ⟨n, c⟩ := found
      obtain ⟨hmem, -, hzero⟩ := tryUnpack_some hunpack
      obtain ⟨hone, hn, hntxn⟩ : e.txns = [n] ∧ n.status = .sent ∧ e.ntxn = 1 := by
        rcases hbusy with hnil | ⟨m, hone, hm, hntxn⟩
        · -- an endpoint that is connected has no request, or one that was sent
          simp [hnil] at hmem
        · rw [hone, List.mem_singleton] at hmem
          exact ⟨hmem ▸ hone, hmem ▸ hm, hntxn⟩
      simp only
      split
      · -- the unpack function fails
        rename_i hneg
        refine .inl (fail_outcome (by simp) hstack ⟨he, hone, by simp [hn],
          ⟨rfl, rfl, rfl, rfl, rfl⟩, .inr ⟨hstatus, hconn, hntxn⟩, ?_, .refl _, rfl, rfl,
          fun hpending => absurd (hn.symm.trans hpending) (by simp)⟩ (.unpack hdata hunpack hneg))
        exact (h.buffered hstack he (e.rbuf ++ bytes)).timers
      · rename_i hneg
        -- the answer is complete: the timer of the request is cancelled, and its callback begins
        have hpos : 0 < c := by omega
        have htimed : (p.setEp x (some { e with rbuf := e.rbuf ++ bytes })).Timed n.recvTimer :=
          h.timed_recv (.inl ⟨e, he, by simp [hone]⟩)
        rw [cancel_eq htimed]
        simp only
        set e₂ : Ep := { e with
          rbuf := (e.rbuf ++ bytes).drop c.toNat, consumed := e.consumed + 1 } with he₂
        set q : EpPool := { p.setEp x (some e₂) with tmsvc := p.tmsvc.cancelled n.recvTimer } with hq
        -- the endpoint is set twice, for the buffer and for the request
        have hset : ({ p.setEp x (some { e with rbuf := e.rbuf ++ bytes }) with
            tmsvc := p.tmsvc.cancelled n.recvTimer } : EpPool).setEp x (some e₂) = q :=
          setEp_again p x _ _ _
        have hqe : q.eps x = some e₂ := by simp [hq]
        have hnode : q.setNode x { n with recvTimer := none } =
            .ok { p.setEp x (some { e₂ with txns := [{ n with recvTimer := none }] }) with
              tmsvc := p.tmsvc.cancelled n.recvTimer } :=
          (setNode_one (n := { n with recvTimer := none }) hqe hone rfl).trans
            (congrArg Except.ok (setEp_again p x _ _ _))
        refine .inl ⟨_, ?_, .answered hstack he hstatus hone hunpack hpos⟩
        show (({ p.setEp x (some { e with rbuf := e.rbuf ++ bytes }) with
            tmsvc := p.tmsvc.cancelled n.recvTimer } : EpPool).setEp x (some e₂) |>.setNode x
              { n with recvTimer := none }) >>= (fun p => .ok (p.call (.ok x n.id) n.id .ok)) = _
        rw [hset, hnode]
        rfl

/-! ### Connections -/

/-- **A socket is connected, or failed to.** -/
theorem onConnect_effect (h : p.Inv) (hstack : p.stack = []) (he : p.eps x = some e)
    (hstatus : e.status = .connecting) (connected : Bool) (written : List Bool) :
    p.Outcome (.connect x connected written) (p.onConnect x connected written) := by
  obtain ⟨hshut, n, hone, hn, hrecv, hntxn⟩ := h.connecting_cases hstack he hstatus
  simp only [onConnect, ep_eq he, bind, Except.bind]
  cases connected with
  -- the connection fails, and so does the request that waited for it
  | false =>
    have hset : p.setEp x (some e) = p := setEp_self he
    have howned : TimerSvc.Owned (p.setEp x (some e)).Points p.tmsvc := by
      rw [hset]
      exact h.timers
    have hfail := fail_outcome (a := .connect x false written) (by simp) hstack
      ⟨he, hone, by simp [hn], ⟨rfl, rfl, rfl, rfl, rfl⟩, .inl ⟨hstatus, hshut⟩, howned, .refl _,
        rfl, rfl, fun _ => rfl⟩ (.pending hn)
    rw [hset] at hfail
    exact .inl hfail
  | true =>
    -- the connection is made, and the request that waited for it is sent
    have hconnecting : ¬ e.status ≠ .connecting := by simp [hstatus]
    simp only [not_true_eq_false, if_false]
    rw [if_neg hconnecting, cancel_eq (h.timed_conn he)]
    simp only
    set e₁ : Ep := { e with status := .connected, connTimer := none } with he₁
    set q : EpPool := { p.setEp x (some e₁) with tmsvc := p.tmsvc.cancelled e.connTimer } with hq
    show p.Outcome _ (sendEach x e.txns written q)
    have hqe : q.eps x = some e₁ := by simp [hq]
    have howned : TimerSvc.Owned (p.setEp x (some e₁)).Points (p.tmsvc.cancelled e.connTimer) := by
      refine h.timers.cancelled (.conn x) (fun i => by simp [Points, he]) fun k i => ?_
      cases k <;> simp only [Points, Node, setEp_eps, setEp_stack, hstack] <;> grind
    have hpending : ¬ n.status ≠ .pending := by simp [hn]
    simp only [hone, sendEach]
    rw [if_neg hpending]
    cases hhead : written.headD true with
    | false =>
      -- writing it fails, and the error is handled as in a read
      have hbreaks : p.Breaks x e e₁ n (p.tmsvc.cancelled e.connTimer) :=
        ⟨he, hone, by simp [hn], ⟨rfl, rfl, rfl, rfl, rfl⟩, .inr ⟨rfl, rfl, hntxn⟩, howned,
          (TimerSvc.Follows.refl _).cancelled _, rfl, rfl, fun _ => rfl⟩
      obtain ⟨p', hfail, heffect⟩ := fail_outcome (a := .connect x true written) (by simp) hstack
        hbreaks (.pending hn)
      rw [epSend_failed hqe rfl (by simp [hn]), hfail]
      exact .inl ⟨p', rfl, heffect⟩
    | true =>
      have htimed : q.Timed e₁.shutdownTimer := by
        rw [he₁, hshut]
        exact timed_none _
      rcases epSend_spec hqe hone rfl (by simp [hn]) hrecv htimed with
        ⟨recv, shut, s, hsend, heq⟩ | ⟨⟨hlimit, hzero⟩, heq⟩
      · -- it is written, and gets its timers
        rw [heq]
        refine .inl ⟨_, rfl, .connected hstack he hstatus hshut hone ?_⟩
        rw [← hshut]
        exact hsend
      · rw [heq]
        -- its shutdown timer could not be made
        exact .inr ⟨_, rfl, .connect he hone hlimit hzero⟩

/-! ### Timers -/

/-- The timer of a pointer is handled, and the pointer cleared. -/
theorem Inv.handled_owned (h : p.Inv) {t : TimerId} {τ : Timer EpTimerKind} (hstack : p.stack = [])
    (hτ : p.tmsvc.timers t = some τ) (he : p.eps x = some e)
    (hpts : τ.kind = .conn x ∧ e.connTimer = some t ∧ e' = { e with connTimer := none } ∨
      τ.kind = .shutdown x ∧ e.shutdownTimer = some t ∧ e' = { e with shutdownTimer := none }) :
    TimerSvc.Owned (p.setEp x (some e')).Points (p.tmsvc.destroy t) := by
  have honly (k : EpTimerKind) (hk : p.Points k t) : k = τ.kind := (h.timers.kind_eq hk hτ).symm
  refine h.timers.destroy (fun k i hi => ?_) fun k i => ?_
  · have hold : p.Points k i := by
      revert hi
      cases k <;> simp only [Points, Node, setEp_eps, setEp_stack, hstack] <;> grind
    refine ⟨hold, ?_⟩
    rintro rfl
    have hk := honly k hold
    revert hi
    cases k <;> simp only [Points, Node, setEp_eps, setEp_stack, hstack] <;> grind
  · cases k <;> simp only [Points, Node, setEp_eps, setEp_stack, hstack] <;> grind

/-- The timer of a connection fires: the endpoint breaks, with the request that waits. -/
theorem connTimer_effect (h : p.Inv) (hstack : p.stack = []) {t : TimerId}
    {τ : Timer EpTimerKind} (hτ : p.tmsvc.timers t = some τ) (hkind : τ.kind = .conn x)
    (hpts : p.Points (.conn x) t) :
    p.Outcome (.timer t) (({ p with tmsvc := p.tmsvc.destroy t } : EpPool).timerCb (.conn x)) := by
  obtain ⟨e, he, hconn⟩ := hpts
  have hstatus : e.status = .connecting := by
    refine (h.shape x e he).status.resolve_right fun hst => ?_
    rw [(h.connected_cases hstack he hst).1] at hconn
    exact absurd hconn (by simp)
  obtain ⟨hshut, n, hone, hn, hrecv, hntxn⟩ := h.connecting_cases hstack he hstatus
  have hqe : ({ p with tmsvc := p.tmsvc.destroy t } : EpPool).eps x = some e := he
  have hconnecting : ¬ e.status ≠ .connecting := by simp [hstatus]
  have howned := h.handled_owned hstack hτ he (.inl ⟨hkind, hconn, rfl⟩)
  simp only [timerCb, ep_eq hqe, bind, Except.bind]
  rw [if_neg hconnecting]
  exact .inl (fail_outcome (by simp) hstack
    ⟨he, hone, by simp [hn], ⟨rfl, rfl, rfl, rfl, rfl⟩, .inl ⟨hstatus, hshut⟩, howned,
      (TimerSvc.Follows.refl _).destroy t, rfl, rfl, fun _ => rfl⟩ (.pending hn))

/-- The shutdown timer of an endpoint fires: it breaks. -/
theorem shutdownTimer_effect (h : p.Inv) (hstack : p.stack = []) {t : TimerId}
    {τ : Timer EpTimerKind} (hτ : p.tmsvc.timers t = some τ) (hvalid : τ.valid = true)
    (hkind : τ.kind = .shutdown x) (hpts : p.Points (.shutdown x) t) :
    p.Outcome (.timer t)
      (({ p with tmsvc := p.tmsvc.destroy t } : EpPool).timerCb (.shutdown x)) := by
  obtain ⟨e, he, hshut⟩ := hpts
  have hstatus : e.status = .connected := by
    refine (h.shape x e he).status.resolve_left fun hst => ?_
    rw [(h.connecting_cases hstack he hst).1] at hshut
    exact absurd hshut (by simp)
  have hqe : ({ p with tmsvc := p.tmsvc.destroy t } : EpPool).eps x = some e := he
  have howned := h.handled_owned hstack hτ he (.inr ⟨hkind, hshut, rfl⟩)
  simp only [timerCb, ep_eq hqe, bind, Except.bind]
  exact h.break_outcome (by simp) hstack he hstatus (fun _ => .shutdown hτ hkind hvalid)
    ((TimerSvc.Follows.refl _).destroy t) howned

/-- The timer of a request fires: the request is called back. -/
theorem recvTimer_effect (h : p.Inv) (hstack : p.stack = []) {t : TimerId}
    {τ : Timer EpTimerKind} {req : ReqId} (hτ : p.tmsvc.timers t = some τ)
    (hvalid : τ.valid = true) (hkind : τ.kind = .recv x req) (hpts : p.Points (.recv x req) t) :
    p.Outcome (.timer t)
      (({ p with tmsvc := p.tmsvc.destroy t } : EpPool).timerCb (.recv x req)) := by
  obtain ⟨n, hnode, rfl, hrecv⟩ := hpts
  obtain ⟨e, he, hmem⟩ := (Inv.node_nil hstack).mp hnode
  -- a request that waits for its connection has no timer
  have hshape := h.shape x e he
  have hone := hshape.one_of_mem hmem
  have hstatus : e.status = .connected := by
    rcases hshape.one hone with ⟨-, -, hnone, -⟩ | ⟨hconnected, -⟩
    · rw [hnone] at hrecv
      exact absurd hrecv (by simp)
    · exact hconnected
  set q : EpPool := { p with tmsvc := p.tmsvc.destroy t } with hq
  have hqe : q.eps x = some e := he
  have hfind : e.txns.find? (fun m => decide (m.id = n.id)) = some n := by simp [hone]
  have hnode : q.setNode x { n with recvTimer := none } =
      .ok { p.setEp x (some { e with txns := [{ n with recvTimer := none }] }) with
        tmsvc := p.tmsvc.destroy t } :=
    setNode_one (n := { n with recvTimer := none }) hqe hone rfl
  refine .inl ⟨_, ?_, .timedOut hstack hτ hkind hvalid he hstatus hone hrecv⟩
  simp only [timerCb, ep_eq hqe, bind, Except.bind, hfind, hnode]

/-- **The event of a timer is handled.** -/
theorem timer_effect (h : p.Inv) (hstack : p.stack = []) {t : TimerId} {τ : Timer EpTimerKind}
    (hτ : p.tmsvc.timers t = some τ) : p.Outcome (.timer t) (p.timerTriggered t) := by
  simp only [timerTriggered, hτ]
  cases hvalid : τ.valid with
  | false =>
    -- a cancelled timer is only freed
    refine .inl ⟨_, rfl, .quiet (by simp) (h.timers.free hτ hvalid) ⟨Nat.le_refl _, rfl, ?_⟩⟩
    intro i σ hσ
    rw [TimerSvc.destroy_timers] at hσ
    split at hσ
    · exact absurd hσ (by simp)
    · exact ⟨σ, hσ, rfl, rfl, rfl, .inl⟩
  | true =>
    have hpts := h.timers.owned t τ hτ hvalid
    simp only [if_true]
    cases hkind : τ.kind with
    | conn x => exact connTimer_effect h hstack hτ hkind (hkind ▸ hpts)
    | shutdown x => exact shutdownTimer_effect h hstack hτ hvalid hkind (hkind ▸ hpts)
    | recv x req => exact recvTimer_effect h hstack hτ hvalid hkind (hkind ▸ hpts)

/-! ### Callbacks -/

/-- The request of a callback is destroyed, the only one of its endpoint. -/
theorem nodeDestroy_one {q : EpPool} (he : q.eps x = some e) (hone : e.txns = [n])
    (hrecv : n.recvTimer = none) : q.nodeDestroy x n true = .ok { q.setEp x (some
      { e with txns := [], ntxn := e.ntxn - 1 }) with log := q.log ++ [.released n.id] } := by
  have hnil : e.txns.filter (fun n' => n'.id ≠ n.id) = [] := by simp [hone]
  rw [nodeDestroy_eq he (by rw [hrecv]; exact timed_none _), hnil, hrecv]
  rfl

/-- The rest of `_handle_ok`: the shutdown timer is set again, and the request released. -/
theorem returnOk_effect (h : p.Inv) {req : ReqId} (hstack : p.stack = [.ok x req]) :
    p.Outcome .return (({ p with stack := [] } : EpPool).returnOk x req) := by
  obtain ⟨e, n, he, hone, rfl, hrecv, -⟩ := h.frameOk hstack
  set q : EpPool := { p with stack := [] } with hq
  have hqe : q.eps x = some e := he
  have hfind : e.txns.find? (fun m => decide (m.id = n.id)) = some n := by simp [hone]
  have htimed : q.Timed e.shutdownTimer := h.timed_shutdown he
  simp only [returnOk, ep_eq hqe, bind, Except.bind, hfind]
  rcases createShutdownTimer_spec hqe htimed
    (if n.timeout ≠ 0 then n.timeout else epDefaultShutdownMs) with
    ⟨t, s, hrefresh, heq⟩ | ⟨hzero, -⟩
  · rw [heq]
    have hput : (q.withShutdown x e t s).eps x = some { e with shutdownTimer := some t } := by
      simp [withShutdown]
    refine .inl ⟨_, ?_, .returnOk hstack he hone hrefresh⟩
    simp only
    rw [nodeDestroy_one hput hone hrecv]
    exact congrArg (fun r : EpPool => Except.ok { r with
      stack := [], tmsvc := s, log := p.log ++ [JobEvent.released n.id] }) (setEp_setEp p x _ _)
  · -- the delay is not zero
    split at hzero
    · rename_i hlimit
      exact absurd (UInt32.toNat_inj.mp (hzero.trans UInt32.toNat_zero.symm)) hlimit
    · exact absurd hzero (by decide)

/-- The rest of `_handle_timeout`: the request is released. -/
theorem returnTimeout_effect (h : p.Inv) {req : ReqId} (hstack : p.stack = [.timeout x req]) :
    p.Outcome .return (({ p with stack := [] } : EpPool).returnTimeout x req) := by
  obtain ⟨e, n, he, hone, rfl, hrecv, -⟩ := h.frameOk hstack
  set q : EpPool := { p with stack := [] } with hq
  have hqe : q.eps x = some e := he
  have hfind : e.txns.find? (fun m => decide (m.id = n.id)) = some n := by simp [hone]
  refine .inl ⟨_, ?_, .returnTimeout hstack he hone⟩
  simp only [returnTimeout, ep_eq hqe, bind, Except.bind, hfind]
  exact nodeDestroy_one hqe hone hrecv

/-- The rest of the loop of `_handle_error`: the request is released, and the next one called back
    if a callback put one there. -/
theorem returnError_effect (h : p.Inv) (hids : p.Ids) {before turns : Nat}
    (hstack : p.stack = [.error x n before turns]) :
    p.Outcome .return (({ p with stack := [] } : EpPool).returnError x n before turns) := by
  set q : EpPool := { p with stack := [] } with hq
  have hnode : p.Node x n := .inr ⟨before, turns, by simp [hstack]⟩
  have htimed : q.Timed n.recvTimer := h.timed_recv hnode
  simp only [returnError, bind, Except.bind]
  cases he : p.eps x with
  | none =>
    -- the callback freed the endpoint, whose counter is read next
    have hqe : q.eps x = none := he
    refine .inr ⟨.epFreed, ?_, .freed hstack he⟩
    simp [nodeDestroy, cancel_eq htimed, bind, Except.bind, ep, hqe]
  | some e =>
    have hqe : q.eps x = some e := he
    -- the request that was taken out is not among those of the endpoint
    have hother : ∀ m ∈ e.txns, m.id ≠ n.id := fun m hm =>
      hids.popped x e n m before turns he hm (by simp [hstack])
    have hkeep : e.txns.filter (fun n' => n'.id ≠ n.id) = e.txns := by
      rw [List.filter_eq_self]
      simpa using hother
    set e₁ : Ep := { e with ntxn := e.ntxn - 1 } with he₁
    set r : EpPool := { q.setEp x (some e₁) with
      tmsvc := p.tmsvc.cancelled n.recvTimer, log := p.log ++ [.released n.id] } with hr
    have hdestroy : q.nodeDestroy x n true = .ok r := by
      rw [nodeDestroy_eq hqe htimed, hkeep]
      rfl
    have hre : r.eps x = some e₁ := by simp [hr]
    simp only [hdestroy, ep_eq hre]
    rcases (h.shape x e he).requests with hnil | ⟨m, hone, hm⟩
    · -- none was put on it meanwhile, and the endpoint closes
      have hconn : r.Timed e₁.connTimer := by
        intro i hi
        exact Timed.cancelled (h.timed_conn he) i hi
      have hshut : r.Timed e₁.shutdownTimer := by
        intro i hi
        exact Timed.cancelled (h.timed_shutdown he) i hi
      have hdrain : drain x before turns e.txns r = .ok (r.broken x e₁ before turns) := by
        rw [hnil]
        exact drain_nil hre hnil hconn hshut before turns
      exact .inl ⟨_, hdrain, .returnClose hstack he hnil⟩
    · -- the callback has sent one, which fails in turn
      have hid : m.id ≠ n.id := hother m (by simp [hone])
      have hdrain : drain x before turns e.txns r = .ok (r.failed x e₁ m before turns) := by
        rw [hone]
        exact drain_one hre hm before turns
      exact .inl ⟨_, hdrain, .returnFail hstack he hone hid⟩

/-- **A callback returns.** -/
theorem return_effect (h : p.Inv) (hids : p.Ids) (hbusy : p.stack ≠ []) :
    p.Outcome .return p.return := by
  rcases h.stack with hnil | ⟨frame, hstack, -⟩
  · exact absurd hnil hbusy
  simp only [EpPool.return, hstack]
  cases frame with
  | ok x req => exact returnOk_effect h hstack
  | timeout x req => exact returnTimeout_effect h hstack
  | error x n before turns => exact returnError_effect h hids hstack

/-! ### The end of a pool -/

/-- An endpoint is freed with its requests. -/
theorem epDestroy_spec (hstack : p.stack = []) (howned : TimerSvc.Owned p.Points p.tmsvc)
    (he : p.eps x = some e) (hlist : e.txns = [] ∨ ∃ n, e.txns = [n]) :
    ∃ s, TimerSvc.Owned (p.setEp x none).Points s ∧
      p.epDestroy x = .ok { p.setEp x none with
        tmsvc := s
        log := p.log ++ (e.txns.map EpNode.id).map .released
        deleted := p.deleted ++ [x] } := by
  have hconn : p.Timed e.connTimer := fun i hi => howned.isSome (k := .conn x) ⟨e, he, hi⟩
  have hshut : p.Timed e.shutdownTimer := fun i hi => howned.isSome (k := .shutdown x) ⟨e, he, hi⟩
  -- the timers of the endpoint are cancelled, one after the other
  have hfirst : TimerSvc.Owned (fun k i => p.Points k i ∧ k ≠ .conn x)
      (p.tmsvc.cancelled e.connTimer) :=
    howned.cancelled (.conn x) (fun i => by simp [Points, he]) fun k i => Iff.rfl
  have hsecond : TimerSvc.Owned (fun k i => (p.Points k i ∧ k ≠ .conn x) ∧ k ≠ .shutdown x)
      ((p.tmsvc.cancelled e.connTimer).cancelled e.shutdownTimer) :=
    hfirst.cancelled (.shutdown x) (fun i => by simp [Points, he]) fun k i => Iff.rfl
  rcases hlist with hnil | ⟨n, hone⟩
  · refine ⟨_, hsecond.congr fun k i => ?_, ?_⟩
    · cases k <;> simp only [Points, Node, setEp_eps, setEp_stack, hstack] <;> grind
    · rw [epDestroy_eq he hnil hconn hshut, hnil, List.map_nil, List.map_nil, List.append_nil]
      rfl
  · have hthird : TimerSvc.Owned (p.setEp x none).Points
        (((p.tmsvc.cancelled e.connTimer).cancelled e.shutdownTimer).cancelled n.recvTimer) := by
      refine hsecond.cancelled (.recv x n.id) (fun i => ?_) fun k i => ?_
      · simp [Points, Node, hstack, he, hone]
      · cases k <;> simp only [Points, Node, setEp_eps, setEp_stack, hstack] <;> grind
    have hrecv : p.Timed n.recvTimer := fun i hi =>
      howned.isSome (k := .recv x n.id) ⟨n, .inl ⟨e, he, by simp [hone]⟩, rfl, hi⟩
    set q : EpPool := { p with
      tmsvc := (p.tmsvc.cancelled e.connTimer).cancelled e.shutdownTimer } with hq
    have hqe : q.eps x = some e := he
    have htimed : q.Timed n.recvTimer := fun i hi => hrecv.cancelled.cancelled i hi
    have hnil : e.txns.filter (fun n' => n'.id ≠ n.id) = [] := by simp [hone]
    have hdestroy := nodeDestroy_eq hqe htimed true
    rw [hnil] at hdestroy
    refine ⟨_, hthird, ?_⟩
    simp only [epDestroy, ep_eq he, cancel_eq hconn, cancel_eq hshut.cancelled, bind, Except.bind,
      hone, destroyNodes]
    rw [← hq, hdestroy]
    exact congrArg (fun r : EpPool => Except.ok { r with
      tmsvc := q.tmsvc.cancelled n.recvTimer, log := p.log ++ [JobEvent.released n.id]
      deleted := p.deleted ++ [x] }) (setEp_setEp p x _ _)

/-- All endpoints of a list are freed. -/
theorem epDestroyAll_spec {xs : List EpId} (hnodup : xs.Nodup) {q : EpPool} (hstack : q.stack = [])
    (howned : TimerSvc.Owned q.Points q.tmsvc)
    (hxs : ∀ x ∈ xs, ∃ e, q.eps x = some e ∧ (e.txns = [] ∨ ∃ n, e.txns = [n])) :
    ∃ s, TimerSvc.Owned
        ({ q with eps := fun y => if y ∈ xs then none else q.eps y } : EpPool).Points s ∧
      epDestroyAll xs q = .ok { q with
        eps := fun y => if y ∈ xs then none else q.eps y
        tmsvc := s
        log := q.log ++ (q.requests xs).map .released
        deleted := q.deleted ++ xs } := by
  induction xs generalizing q with
  | nil => exact ⟨q.tmsvc, by simpa using howned, by simp [epDestroyAll, requests]⟩
  | cons x xs ih =>
    obtain ⟨hx, hrest⟩ := List.nodup_cons.mp hnodup
    obtain ⟨e, he, hlist⟩ := hxs x (by simp)
    obtain ⟨s, howned', hdestroy⟩ := epDestroy_spec hstack howned he hlist
    -- what is left when the first endpoint is destroyed
    set r : EpPool := { q.setEp x none with
      tmsvc := s, log := q.log ++ (e.txns.map EpNode.id).map .released
      deleted := q.deleted ++ [x] } with hr
    have hkeep : ∀ y ∈ xs, r.eps y = q.eps y := by
      intro y hy
      have hne : y ≠ x := by
        rintro rfl
        exact hx hy
      simp [hr, hne]
    obtain ⟨s', howned'', hall⟩ := ih hrest (q := r) hstack howned' fun y hy => by
      rw [hkeep y hy]
      exact hxs y (by simp [hy])
    -- the loop over the others begins there
    have heps : (fun y => if y ∈ xs then none else r.eps y) =
        fun y => if y ∈ x :: xs then none else q.eps y := by
      funext y
      by_cases hy : y = x
      · simp [hr, hy]
      · simp [hr, hy]
    have hreqs : r.requests xs = q.requests xs := by
      simp only [requests]
      refine List.flatMap_congr fun y hy => ?_
      rw [hkeep y hy]
    rw [heps] at howned'' hall
    refine ⟨s', howned'', ?_⟩
    rw [epDestroyAll, hdestroy]
    simp only
    rw [hall, hreqs]
    simp [hr, requests, he, setEp]

/-- The endpoints of the managers are those that exist. -/
theorem Inv.managed (h : p.Inv) : (p.tcp.all ++ p.udp.all).Nodup ∧
    ∀ x, x ∈ p.tcp.all ++ p.udp.all ↔ (p.eps x).isSome := by
  -- the lists of a manager have the endpoints of its type, by the keys
  have hmem : ∀ type x, x ∈ (p.mgr type).all ↔ ∃ e, p.eps x = some e ∧ e.type = type := by
    intro type x
    rw [EpMgr.mem_all]
    constructor
    · rintro ⟨key, hin⟩
      obtain ⟨e, he, htype, -⟩ := (h.mapped type key x).mp hin
      exact ⟨e, he, htype⟩
    · rintro ⟨e, he, htype⟩
      exact ⟨e.key, (h.mapped type e.key x).mpr ⟨e, he, htype, rfl⟩⟩
  -- an endpoint has one key, so it is in one list
  have hone : ∀ type, (p.mgr type).all.Nodup := by
    intro type
    refine EpMgr.all_nodup (h.nodup type) fun key key' x hin hin' => ?_
    obtain ⟨e, he, -, hkey⟩ := (h.mapped type key x).mp hin
    obtain ⟨e', he', -, hkey'⟩ := (h.mapped type key' x).mp hin'
    rw [← hkey, ← hkey', Option.some.inj (he.symm.trans he')]
  constructor
  · refine List.nodup_append.mpr ⟨hone .tcp, hone .udp, ?_⟩
    rintro x hx _ hx' rfl
    -- an endpoint has one type, so it is in one manager
    obtain ⟨e, he, htype⟩ := (hmem .tcp x).mp hx
    obtain ⟨e', he', htype'⟩ := (hmem .udp x).mp hx'
    rw [← Option.some.inj (he.symm.trans he'), htype] at htype'
    exact absurd htype' (by simp)
  · intro x
    rw [List.mem_append, Option.isSome_iff_exists]
    have htcp := hmem .tcp x
    have hudp := hmem .udp x
    simp only [mgr] at htcp hudp
    rw [htcp, hudp]
    constructor
    · rintro (⟨e, he, -⟩ | ⟨e, he, -⟩) <;> exact ⟨e, he⟩
    · rintro ⟨e, he⟩
      cases htype : e.type with
      | tcp => exact .inl ⟨e, he, htype⟩
      | udp => exact .inr ⟨e, he, htype⟩

/-- **The pool is destroyed.** -/
theorem destroy_effect (h : p.Inv) (hstack : p.stack = []) :
    p.Outcome .destroy p.poolDestroy := by
  obtain ⟨hnodup, hall⟩ := h.managed
  set xs := p.tcp.all ++ p.udp.all with hxs
  have hlist : ∀ x ∈ xs, ∃ e, p.eps x = some e ∧ (e.txns = [] ∨ ∃ n, e.txns = [n]) := by
    intro x hx
    obtain ⟨e, he⟩ := Option.isSome_iff_exists.mp ((hall x).mp hx)
    refine ⟨e, he, ?_⟩
    exact (h.shape x e he).requests.imp id fun ⟨n, hone, _⟩ => ⟨n, hone⟩
  obtain ⟨s, howned, hdestroy⟩ := epDestroyAll_spec hnodup hstack h.timers hlist
  have hnone : (fun y => if y ∈ xs then none else p.eps y) = fun _ => none := by
    funext y
    by_cases hy : y ∈ xs
    · rw [if_pos hy]
    · rw [if_neg hy]
      exact Option.not_isSome_iff_eq_none.mp fun hsome => hy ((hall y).mpr hsome)
  rw [hnone] at howned hdestroy
  refine .inl ⟨_, ?_, .destroy hstack hall hnodup fun t τ hτ => ⟨howned.fresh t τ hτ, ?_⟩⟩
  · rw [poolDestroy, ← hxs, hdestroy]
    rfl
  · -- nothing is left that could point to a valid timer
    cases hv : τ.valid with
    | false => rfl
    | true =>
      have hpts := howned.owned t τ hτ hv
      cases hk : τ.kind <;> simp [hk, Points, Node, hstack] at hpts

/-! ### A step -/

/-- **What a step does**: it has an effect, or fails a check. -/
theorem step_effect (h : p.Inv) (hids : p.Ids) (henabled : p.enabled a) :
    p.Outcome a (p.step a) := by
  obtain ⟨-, -, hwhen⟩ := henabled
  cases a with
  | send req env => exact send_effect h hids req env
  | «return» => exact return_effect h hids hwhen
  | read x arrived results =>
    obtain ⟨hstack, hany⟩ := hwhen
    obtain ⟨e, he, hstatus⟩ := (Option.any_eq_true ..).mp hany
    exact readCb_effect h hstack he (of_decide_eq_true hstatus) arrived results
  | error x =>
    obtain ⟨hstack, hany⟩ := hwhen
    obtain ⟨e, he, hstatus⟩ := (Option.any_eq_true ..).mp hany
    exact error_effect h hstack he (of_decide_eq_true hstatus)
  | connect x connected written =>
    obtain ⟨hstack, hany⟩ := hwhen
    obtain ⟨e, he, hstatus⟩ := (Option.any_eq_true ..).mp hany
    exact onConnect_effect h hstack he (of_decide_eq_true hstatus) connected written
  -- time passes, and no timer is changed by that
  | tick ms =>
    exact .inl ⟨_, rfl, .quiet (by simp) (h.timers.elapse ms)
      ⟨Nat.le_add_right _ _, rfl, fun _ τ hτ => ⟨τ, hτ, rfl, rfl, rfl, .inl⟩⟩⟩
  | trigger t =>
    obtain ⟨hstack, hany⟩ := hwhen
    obtain ⟨τ, hτ, hdue⟩ := (Option.any_eq_true ..).mp hany
    -- the timer was due, which is all that changes in it
    have hdue : τ.due ≤ p.tmsvc.now := (of_decide_eq_true hdue).2
    have howned : TimerSvc.Owned p.Points (p.tmsvc.set t (some { τ with triggered := true })) :=
      h.timers.set hτ rfl rfl
    refine .inl ⟨_, by rw [step, TimerSvc.trigger, hτ]; rfl,
      .quiet (by simp) howned ⟨Nat.le_refl _, rfl, fun i σ hσ => ?_⟩⟩
    rw [TimerSvc.set_timers] at hσ
    split at hσ
    · rename_i hi
      rw [← Option.some.inj hσ, hi]
      exact ⟨τ, hτ, rfl, rfl, rfl, fun _ => .inr hdue⟩
    · exact ⟨σ, hσ, rfl, rfl, rfl, .inl⟩
  | timer t =>
    obtain ⟨hstack, hany⟩ := hwhen
    obtain ⟨τ, hτ, -⟩ := (Option.any_eq_true ..).mp hany
    exact timer_effect h hstack hτ
  | destroy => exact destroy_effect h hwhen

end EpPool

end Skull
