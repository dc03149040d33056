import Skull.Endpoint.Invariant

namespace Skull

open Machines

/-!
# Everything a step of a pool can do

* `EpPool.Effect` — the states after a step, one constructor for each ending of each handler;
* `EpPool.Breaks`, `EpPool.Cause`, `EpPool.Later` — what two of them need;
* `EpPool.Faulty` — when a step fails a check instead.
-/

namespace EpPool

/-- The pool when `sk_ep_send` has begun. -/
def begun (p : EpPool) : EpPool := { p with calls := p.calls + 1 }

/-- A call of `sk_ep_send` gets to `_ep_mgr_get_or_create`. -/
structure Room (p : EpPool) (req : EpRequest) (type : EpType) : Prop where
  check : req.check = some type
  room : (p.mgr type).nep ≠ (p.mgr type).max

/-- A call of `sk_ep_send` gets to `_find_ep`, which returns `x`. -/
structure Finds (p : EpPool) (req : EpRequest) (type : EpType) (x : EpId) : Prop
    extends p.Room req type where
  find : p.find type req = .ok (some x)

/-- The requests in the lists of the endpoints `xs`. -/
def requests (p : EpPool) (xs : List EpId) : List ReqId :=
  xs.flatMap fun x => ((p.eps x).elim [] Ep.txns).map EpNode.id

/-- The pool when it is destroyed. -/
def swept (p : EpPool) (xs : List EpId) (s : TimerSvc EpTimerKind) : EpPool :=
  { p with
    eps := fun _ => none
    tcp := { p.tcp with ee := .empty, nep := 0 }
    udp := { p.udp with ee := .empty, nep := 0 }
    tmsvc := s
    log := p.log ++ (p.requests xs).map .released
    deleted := p.deleted ++ xs
    down := true }

/-- `s` is a later `p.tmsvc`, in which timers went off or were freed. -/
structure Later (s s' : TimerSvc EpTimerKind) : Prop where
  now : s.now ≤ s'.now
  created : s'.created = s.created
  timers : ∀ t τ', s'.timers t = some τ' → ∃ τ, s.timers t = some τ ∧ τ'.kind = τ.kind ∧
    τ'.valid = τ.valid ∧ τ'.due = τ.due ∧
    (τ'.triggered = true → τ.triggered = true ∨ τ.due ≤ s.now)

/-- The endpoint `e₀` at `x`, with the service `s`, is `e` before its request is called back with
    an error. -/
structure Breaks (p : EpPool) (x : EpId) (e e₀ : Ep) (n : EpNode) (s : TimerSvc EpTimerKind) :
    Prop where
  ent : p.eps x = some e
  one : e.txns = [n]
  node : n.status ≠ .init
  same : e₀.type = e.type ∧ e₀.key = e.key ∧ e₀.flags = e.flags ∧ e₀.txns = e.txns ∧
    e₀.ntxn = e.ntxn
  state : e₀.status = .connecting ∧ e₀.shutdownTimer = none ∨
    e₀.status = .connected ∧ e₀.connTimer = none ∧ e.ntxn = 1
  timers : TimerSvc.Owned (p.setEp x (some e₀)).Points s
  follows : TimerSvc.Follows (fun _ => False) p.tmsvc s
  counts : e₀.sent = e.sent ∧ e₀.consumed = e.consumed ∧ (n.status = .pending → e₀.rbuf = e.rbuf)

/-- Why the request `n` of the endpoint `e` at `x` is called back with an error. -/
inductive Cause (p : EpPool) (x : EpId) (e : Ep) (n : EpNode) : EpAction → Prop
  /-- The connection breaks. -/
  | error : Cause p x e n (.error x)
  /-- The unpack function fails. -/
  | unpack {bytes : List UInt8} {results : List Int} {c : Int} (hdata : e.rbuf ++ bytes ≠ [])
      (hunpack : tryUnpack e.txns results = some (n, c)) (hneg : c < 0) :
      Cause p x e n (.read x (some bytes) results)
  /-- The shutdown timer went off. -/
  | shutdown {t : TimerId} {τ : Timer EpTimerKind} (hτ : p.tmsvc.timers t = some τ)
      (hkind : τ.kind = .shutdown x) (hvalid : τ.valid = true) : Cause p x e n (.timer t)
  /-- There is no connection, or it cannot be written. -/
  | pending {a : EpAction} (hn : n.status = .pending) : Cause p x e n a

/-- **What a step can do.** -/
inductive Effect (p : EpPool) : EpAction → EpPool → Prop
  /-- Time passes, a timer goes off, or one that was cancelled is freed. -/
  | quiet {a : EpAction} {s : TimerSvc EpTimerKind} (hsend : ∀ req env, a ≠ .send req env)
      (howned : TimerSvc.Owned p.Points s) (hlater : Later p.tmsvc s) :
      Effect p a { p with tmsvc := s }
  /-- A request is refused at once. -/
  | refuse {req : EpRequest} {env : EpSendEnv} :
      Effect p (.send req env) (p.begun.returns p.calls false)
  /-- A request is refused with its new endpoint. -/
  | lost {req : EpRequest} {env : EpSendEnv} {type : EpType} {s : TimerSvc EpTimerKind}
      {errors : List EpId} {drains : List (Nat × Nat)} (hgrown : p.tmsvc.Grown s)
      (hwrite : errors = [] ∧ drains = [] ∨ errors = [p.nextEp] ∧ drains = [(1, 1)]) :
      Effect p (.send req env)
        (({ p.begun with errors := p.errors ++ errors, drains := p.drains ++ drains } :
          EpPool).opened type req.key |>.lost s |>.returns p.calls false)
  /-- A request waits for its new endpoint. -/
  | pending {req : EpRequest} {env : EpSendEnv} {c : Option TimerId} {s : TimerSvc EpTimerKind}
      (hroom : p.Room req .tcp)
      (hconn : ConnTimer (p.tmsvc.elapse env.delay) p.nextEp (req.node p.calls p.tmsvc.now) c s) :
      Effect p (.send req env)
        (p.begun.added (newEp .tcp req.key
          { req.node p.calls p.tmsvc.now with status := .pending } .connecting c) s
          |>.returns p.calls true)
  /-- A request is written to its new endpoint. -/
  | fresh {req : EpRequest} {env : EpSendEnv} {type : EpType} {recv shut : Option TimerId}
      {s : TimerSvc EpTimerKind} (hroom : p.Room req type)
      (hsend : SendTimers (p.tmsvc.elapse env.delay) p.nextEp (req.node p.calls p.tmsvc.now) none
        recv shut s) :
      Effect p (.send req env)
        ((p.begun.added (newEp type req.key (req.node p.calls p.tmsvc.now) .connected none)
          (p.tmsvc.elapse env.delay)).wrote p.nextEp
            (newEp type req.key (req.node p.calls p.tmsvc.now) .connected none)
            (req.node p.calls p.tmsvc.now) recv shut s |>.returns p.calls true)
  /-- A request is written to a free endpoint. -/
  | reuse {req : EpRequest} {env : EpSendEnv} {type : EpType} {x : EpId} {e : Ep}
      {recv shut : Option TimerId} {s : TimerSvc EpTimerKind}
      (hfinds : p.Finds req type x) (hfree : p.Free req.flags x e)
      (hnew : ∀ m before turns, .error x m before turns ∈ p.stack → m.id ≠ p.calls)
      (hsend : SendTimers p.tmsvc x (req.node p.calls p.tmsvc.now) e.shutdownTimer recv shut s) :
      Effect p (.send req env)
        ((p.begun.reused x e (req.node p.calls p.tmsvc.now)).wrote x
          { e with txns := [req.node p.calls p.tmsvc.now], ntxn := e.ntxn + 1 }
          (req.node p.calls p.tmsvc.now) recv shut s |>.returns p.calls true)
  /-- A request is refused with its free endpoint. -/
  | reuseLost {req : EpRequest} {env : EpSendEnv} {type : EpType} {x : EpId} {e : Ep}
      (hfinds : p.Finds req type x) (hfree : p.Free req.flags x e) :
      Effect p (.send req env)
        (({ p.begun with
            reuses := p.reuses ++ [{ id := x, ep := e, dying := p.dying x }]
            errors := p.errors ++ [x] } : EpPool).broken x e 1 1 |>.returns p.calls false)
  /-- A free endpoint is closed; `s` is the service without a timer that was handled. -/
  | close {a : EpAction} {x : EpId} {e : Ep} {shut : Option TimerId} {s : TimerSvc EpTimerKind}
      (hsend : ∀ req env, a ≠ .send req env) (hstack : p.stack = []) (he : p.eps x = some e)
      (hnil : e.txns = []) (hfollows : TimerSvc.Follows (fun _ => False) p.tmsvc s)
      (howned : TimerSvc.Owned (p.setEp x (some { e with shutdownTimer := shut })).Points s) :
      Effect p a (({ p.setEp x (some { e with shutdownTimer := shut }) with
        errors := p.errors ++ [x], tmsvc := s } : EpPool).broken x
          { e with shutdownTimer := shut } 0 0)
  /-- The request of an endpoint is called back with an error. -/
  | fail {a : EpAction} {x : EpId} {e e₀ : Ep} {n : EpNode} {s : TimerSvc EpTimerKind}
      (hsend : ∀ req env, a ≠ .send req env) (hstack : p.stack = [])
      (hbreaks : p.Breaks x e e₀ n s) (hcause : p.Cause x e n a) :
      Effect p a (({ p.setEp x (some e₀) with errors := p.errors ++ [x], tmsvc := s } :
        EpPool).failed x e₀ n 1 0)
  /-- Bytes are buffered. -/
  | buffered {x : EpId} {e : Ep} {bytes : List UInt8} {results : List Int}
      (hstack : p.stack = []) (he : p.eps x = some e) (hstatus : e.status = .connected) :
      Effect p (.read x (some bytes) results)
        (p.setEp x (some { e with rbuf := e.rbuf ++ bytes }))
  /-- A request is answered. -/
  | answered {x : EpId} {e : Ep} {n : EpNode} {bytes : List UInt8} {results : List Int}
      {consumed : Int} (hstack : p.stack = []) (he : p.eps x = some e)
      (hstatus : e.status = .connected) (hone : e.txns = [n])
      (hunpack : tryUnpack e.txns results = some (n, consumed)) (hpos : 0 < consumed) :
      Effect p (.read x (some bytes) results)
        (({ p.setEp x (some { e with
            rbuf := (e.rbuf ++ bytes).drop consumed.toNat, consumed := e.consumed + 1
            txns := [{ n with recvTimer := none }] }) with
          tmsvc := p.tmsvc.cancelled n.recvTimer } : EpPool).call (.ok x n.id) n.id .ok)
  /-- The time of a request is over. -/
  | timedOut {t : TimerId} {τ : Timer EpTimerKind} {x : EpId} {e : Ep} {n : EpNode}
      (hstack : p.stack = []) (hτ : p.tmsvc.timers t = some τ) (hkind : τ.kind = .recv x n.id)
      (hvalid : τ.valid = true) (he : p.eps x = some e) (hstatus : e.status = .connected)
      (hone : e.txns = [n]) (hrecv : n.recvTimer = some t) :
      Effect p (.timer t)
        (({ p.setEp x (some { e with txns := [{ n with recvTimer := none }] }) with
          tmsvc := p.tmsvc.destroy t } : EpPool).call (.timeout x n.id) n.id .timeout)
  /-- An endpoint is connected, and its request written. -/
  | connected {x : EpId} {e : Ep} {n : EpNode} {written : List Bool} {recv shut : Option TimerId}
      {s : TimerSvc EpTimerKind} (hstack : p.stack = []) (he : p.eps x = some e)
      (hstatus : e.status = .connecting) (hshut : e.shutdownTimer = none) (hone : e.txns = [n])
      (hsend : SendTimers (p.tmsvc.cancelled e.connTimer) x n none recv shut s) :
      Effect p (.connect x true written)
        (({ p.setEp x (some { e with status := .connected, connTimer := none }) with
          tmsvc := p.tmsvc.cancelled e.connTimer } : EpPool).wrote x
            { e with status := .connected, connTimer := none } n recv shut s)
  /-- The pool is destroyed, with the endpoints `xs`; no timer of `s` is valid. -/
  | destroy {xs : List EpId} {s : TimerSvc EpTimerKind} (hstack : p.stack = [])
      (hall : ∀ x, x ∈ xs ↔ (p.eps x).isSome) (hnodup : xs.Nodup)
      (hidle : ∀ t τ, s.timers t = some τ → t < s.created ∧ τ.valid = false) :
      Effect p .destroy (p.swept xs s)
  /-- The callback of an answered request returns. -/
  | returnOk {x : EpId} {e : Ep} {n : EpNode} {t : TimerId} {s : TimerSvc EpTimerKind}
      {delay : Nat} (hstack : p.stack = [.ok x n.id]) (he : p.eps x = some e)
      (hone : e.txns = [n]) (hshut : Refresh p.tmsvc x e.shutdownTimer delay t s) :
      Effect p .return { p.setEp x (some
          { e with txns := [], ntxn := e.ntxn - 1, shutdownTimer := some t }) with
        stack := [], tmsvc := s, log := p.log ++ [.released n.id] }
  /-- The callback of a request whose time was over returns. -/
  | returnTimeout {x : EpId} {e : Ep} {n : EpNode} (hstack : p.stack = [.timeout x n.id])
      (he : p.eps x = some e) (hone : e.txns = [n]) :
      Effect p .return { p.setEp x (some { e with txns := [], ntxn := e.ntxn - 1 }) with
        stack := [], log := p.log ++ [.released n.id] }
  /-- The callback of a request with an error returns, and its endpoint is closed. -/
  | returnClose {x : EpId} {e : Ep} {n : EpNode} {before turns : Nat}
      (hstack : p.stack = [.error x n before turns]) (he : p.eps x = some e) (hnil : e.txns = []) :
      Effect p .return (({ p.setEp x (some { e with ntxn := e.ntxn - 1 }) with
        stack := [], tmsvc := p.tmsvc.cancelled n.recvTimer
        log := p.log ++ [.released n.id] } : EpPool).broken x
          { e with ntxn := e.ntxn - 1 } before turns)
  /-- The callback of a request with an error returns, and the next one is called back. -/
  | returnFail {x : EpId} {e : Ep} {n m : EpNode} {before turns : Nat}
      (hstack : p.stack = [.error x n before turns]) (he : p.eps x = some e)
      (hone : e.txns = [m]) (hm : m.id ≠ n.id) :
      Effect p .return (({ p.setEp x (some { e with ntxn := e.ntxn - 1 }) with
        stack := [], tmsvc := p.tmsvc.cancelled n.recvTimer
        log := p.log ++ [.released n.id] } : EpPool).failed x
          { e with ntxn := e.ntxn - 1 } m before turns)

/-- **When a step fails a check.** -/
inductive Faulty (p : EpPool) : EpAction → EpFault → Prop
  /-- A callback of `_handle_error` sends, when a request was put on its endpoint already. -/
  | ntxn {req : EpRequest} {env : EpSendEnv} {x : EpId} {e : Ep} {n : EpNode}
      {before turns : Nat} (hframe : .error x n before turns ∈ p.stack) (he : p.eps x = some e)
      (hbusy : e.txns ≠ []) : Faulty p (.send req env) .ntxn
  /-- Twice the time of a request is nothing, when it is written at once. -/
  | send {req : EpRequest} {env : EpSendEnv} {type : EpType} (hroom : p.Room req type)
      (hlimit : req.timeout ≠ 0) (hzero : (req.timeout * 2).toNat = 0) :
      Faulty p (.send req env) .shutdownTimer
  /-- Twice the time of a request is nothing, when its endpoint is connected. -/
  | connect {x : EpId} {e : Ep} {n : EpNode} {connected : Bool} {written : List Bool}
      (he : p.eps x = some e) (hone : e.txns = [n]) (hlimit : n.timeout ≠ 0)
      (hzero : (n.timeout * 2).toNat = 0) : Faulty p (.connect x connected written) .shutdownTimer
  /-- A callback of `_handle_error` returns whose endpoint was freed. -/
  | freed {x : EpId} {n : EpNode} {before turns : Nat}
      (hstack : p.stack = [.error x n before turns]) (hnone : p.eps x = none) :
      Faulty p .return .epFreed

end EpPool

end Skull
