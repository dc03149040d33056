import Skull.Endpoint.Timer
import Skull.Lib.Dict
import Skull.Lib.Lifecycle
import Skull.Lib.Machine

namespace Skull

open Machines

/-!
# The endpoint pool (`sk_ep_pool`)

A pool keeps connections to servers, the endpoints, and sends requests over them; an endpoint
whose request was answered is used again.  All of a pool runs in one thread, but its callbacks
are user code, which may call `sk_ep_send` before it returns:

* `EpPool` — the endpoints with their requests, the two managers, the timers, the callbacks that
  are running, and the history of the requests;
* `EpPool.send` — `sk_ep_send`, up to its return;
* `EpPool.readCb`, `EpPool.onConnect`, `EpPool.handleError`, `EpPool.timerTriggered` — the events,
  each up to the first callback it runs;
* `EpPool.return` — what a handler does after its callback has returned;
* `EpPool.machine` — the machine of all runs, where a failed assertion or a use of freed memory
  ends the run in a crashed state.

The network, the servers and the user code are the environment: they choose how connecting and
writing end, what is read, what the unpack functions return, and what the callbacks send.  The
callers in `ep.c` always pass a callback and a release function.
-/

/-! ### The data -/

/-- A request, by the number of the call to `sk_ep_send`. -/
abbrev ReqId := Nat

/-- An endpoint, by its address. -/
abbrev EpId := Nat

/-- `sk_ep_type_t`. -/
inductive EpType
  | tcp | udp
  deriving DecidableEq, Repr

/-- `sk_ep_st_t`. -/
inductive EpState
  | init | connecting | connected
  deriving DecidableEq, Repr

/-- `sk_ep_nst_t`. -/
inductive NodeState
  | init | pending | sent
  deriving DecidableEq, Repr

/-- `sk_ep_status_t`. -/
inductive EpStatus
  | ok | error | timeout
  deriving DecidableEq, Repr

/-- The callback of a timer and what it is about. -/
inductive EpTimerKind
  /-- `_conn_timeout`. -/
  | conn (ep : EpId)
  /-- `_recv_timeout`, for a request of an endpoint. -/
  | recv (ep : EpId) (req : ReqId)
  /-- `_shutdown_ep`. -/
  | shutdown (ep : EpId)
  deriving DecidableEq, Repr

/-- The arguments of `sk_ep_send`. -/
structure EpRequest where
  type : Nat
  ip : Option String
  port : Nat
  timeout : UInt32
  flags : Nat
  /-- The handler has an unpack function. -/
  unpack : Bool
  data : Option (List UInt8)
  /-- The address of the entity the request is for. -/
  entity : Nat
  deriving DecidableEq, Repr

/-- A node of an endpoint's list with its `sk_ep_data_t`. -/
structure EpNode where
  id : ReqId
  timeout : UInt32
  unpack : Bool
  start : Nat
  recvTimer : Option TimerId
  status : NodeState
  deriving DecidableEq, Repr

/-- The keys of an endpoint in the mapping of its manager. -/
structure EpKey where
  ekey : Nat
  ipkey : List Char
  deriving DecidableEq, Repr

/-- `sk_ep_t`, with the read buffer behind its entity. -/
structure Ep where
  type : EpType
  key : EpKey
  status : EpState
  txns : List EpNode
  ntxn : Int
  flags : Nat
  connTimer : Option TimerId
  shutdownTimer : Option TimerId
  rbuf : List UInt8
  /-- The number of requests written to the connection. -/
  sent : Nat
  /-- The number of responses taken from it. -/
  consumed : Nat
  deriving DecidableEq, Repr

/-- `sk_ep_mgr_t`. -/
structure EpMgr where
  /-- The mapping: by entity key and address, the endpoints in the order they were added. -/
  ee : Dict Nat (Dict (List Char) (List EpId))
  /-- The scratch list of `_remove_ep`. -/
  tmp : List EpId
  nep : Int
  max : Int
  deriving DecidableEq

/-- A callback that is running, with what its handler needs when it has returned. -/
inductive EpFrame
  /-- Run by `_handle_ok`. -/
  | ok (ep : EpId) (req : ReqId)
  /-- Run by `_handle_timeout`. -/
  | timeout (ep : EpId) (req : ReqId)
  /-- Run by the loop of `_handle_error` for the node it popped; the list had `before` nodes when
      the loop started, and `turns` were popped. -/
  | error (ep : EpId) (node : EpNode) (before turns : Nat)
  deriving DecidableEq, Repr

/-- What user code sees of a request. -/
abbrev EpEvent := JobEvent ReqId EpStatus

/-- An endpoint that `_find_ep` returned, as it was. -/
structure EpReuse where
  id : EpId
  ep : Ep
  /-- `_handle_error` was running on it. -/
  dying : Bool
  deriving DecidableEq, Repr

/-- The assertions and the uses of freed memory. -/
inductive EpFault
  /-- `t->ntxn <= 1` in `_find_ep`. -/
  | ntxn
  /-- `ep->shutdown_timer` in `_ep_create_shutdown_timer`. -/
  | shutdownTimer
  /-- The status checks of `_ep_send` and `_send_each`. -/
  | sendStatus
  /-- The status check of `_read_cb`. -/
  | readStatus
  /-- The status checks of `_on_connect` and `_conn_timeout`. -/
  | connStatus
  /-- A freed endpoint, request or timer is used. -/
  | epFreed | nodeFreed | timerFreed
  deriving DecidableEq, Repr

/-- The state of a pool. -/
structure EpPool where
  /-- The endpoints that exist. -/
  eps : EpId → Option Ep
  /-- The number of endpoints created. -/
  nextEp : EpId
  tcp : EpMgr
  udp : EpMgr
  tmsvc : TimerSvc EpTimerKind
  /-- The callbacks that are running, the last one first. -/
  stack : List EpFrame
  /-- The number of calls to `sk_ep_send`. -/
  calls : Nat
  /-- The requests for which it returned `SK_EP_OK`, and those for which it did not. -/
  accepted : List ReqId
  refused : List ReqId
  log : List EpEvent
  /-- What `_find_ep` returned. -/
  reuses : List EpReuse
  /-- The endpoints on which `_handle_error` started. -/
  errors : List EpId
  /-- The length of the list at the start and the turns of every loop of `_handle_error` that
      has ended. -/
  drains : List (Nat × Nat)
  /-- The endpoints that were freed. -/
  deleted : List EpId
  /-- The pool was destroyed. -/
  down : Bool
  /-- The run has crashed. -/
  fault : Option EpFault

/-- How connecting a socket ends. -/
inductive EpConnect
  /-- It is connected. -/
  | now
  /-- It will be connected later; whether the event loop has room for it. -/
  | later (registered : Bool)
  | failed
  deriving DecidableEq, Repr

/-- What a call of `sk_ep_send` meets. -/
structure EpSendEnv where
  /-- The time that passes before a new endpoint connects. -/
  delay : Nat
  connect : EpConnect
  /-- Writing to the connection succeeds. -/
  written : Bool
  deriving DecidableEq, Repr

/-- `SK_EP_DEFAULT_SHUTDOWN_MS`. -/
def epDefaultShutdownMs : UInt32 := 1000

/-- `SK_EP_POOL_MAX`. -/
def epPoolMax : Int := 8192

/-- `SK_EP_KEY_MAX`, with the terminating zero. -/
def epKeyMax : Nat := 64

namespace EpNode

/-- `sk_ep_timeout`. -/
def timedOut (n : EpNode) (now : Nat) : Bool :=
  n.timeout ≠ 0 ∧ n.timeout.toNat ≤ now - n.start

/-- `sk_ep_txn_time_left`, which its callers round up to a millisecond. -/
def timeLeft (n : EpNode) (now : Nat) : Nat :=
  let left := n.timeout.toNat - (now - n.start)
  if left = 0 then 1 else left

end EpNode

namespace EpRequest

/-- The checks of `_sk_ep_send`: the manager for a request that passes them. -/
def check (req : EpRequest) : Option EpType :=
  if req.data.getD [] = [] then none
  else if req.ip = none ∨ req.port = 0 then none
  else if req.timeout ≠ 0 ∧ ¬ req.unpack then none
  else if req.type = 0 then some .tcp
  else if req.type = 1 then some .udp
  else none

/-- The keys of `_ep_mgr_get_or_create`; bit 1 of the flags is `SK_EP_F_PRIVATE`. -/
def key (req : EpRequest) : EpKey where
  ekey := if req.flags.testBit 1 then req.entity else 0
  ipkey := (req.ip.getD "" ++ ":" ++ toString req.port).toList.take (epKeyMax - 1)

/-- The node of a request. -/
def node (req : EpRequest) (id : ReqId) (start : Nat) : EpNode where
  id := id
  timeout := req.timeout
  unpack := req.unpack
  start := start
  recvTimer := none
  status := .init

end EpRequest

namespace EpMgr

/-- The list of a key. -/
def epList (m : EpMgr) (key : EpKey) : List EpId :=
  ((m.ee.get? key.ekey).bind fun ipm => ipm.get? key.ipkey).getD []

/-- A key has another list. -/
def setList (m : EpMgr) (key : EpKey) (eps : List EpId) : EpMgr :=
  { m with ee := m.ee.set key.ekey (((m.ee.get? key.ekey).getD .empty).set key.ipkey eps) }

/-- A key gets its map and its list, if they are missing. -/
def openList (m : EpMgr) (key : EpKey) : EpMgr := m.setList key (m.epList key)

/-- An endpoint is pushed to its list. -/
def add (m : EpMgr) (key : EpKey) (x : EpId) : EpMgr :=
  { m.setList key (m.epList key ++ [x]) with nep := m.nep + 1 }

/-- The first loop of `_remove_ep`: it pops the list, and pushes all but `x` to `tmp`. -/
def popOthers (x : EpId) : List EpId → List EpId → List EpId
  | [], tmp => tmp
  | t :: eps, tmp => if t ≠ x then popOthers x eps (tmp ++ [t]) else popOthers x eps tmp

/-- The second loop: it pops `tmp`, and pushes to the list. -/
def pushBack : List EpId → List EpId → List EpId
  | [], eps => eps
  | t :: tmp, eps => pushBack tmp (eps ++ [t])

/-- `_remove_ep`; both loops end with an empty list. -/
def removeEp (m : EpMgr) (key : EpKey) (x : EpId) : EpMgr :=
  if m.epList key = [] then m
  else { m.setList key (pushBack (popOthers x (m.epList key) m.tmp) []) with tmp := [] }

/-- `_ep_mgr_del`, up to the entity of the endpoint. -/
def del (m : EpMgr) (key : EpKey) (x : EpId) : EpMgr :=
  { m.removeEp key x with nep := m.nep - 1 }

/-- The endpoints of all lists, in the order of `sk_ep_mgr_destroy`. -/
def all (m : EpMgr) : List EpId :=
  m.ee.entries.flatMap fun entry => entry.2.entries.flatMap Prod.snd

end EpMgr

namespace EpPool

/-! ### The parts of a pool -/

/-- The manager of a type. -/
def mgr (p : EpPool) : EpType → EpMgr
  | .tcp => p.tcp
  | .udp => p.udp

/-- The pool with another manager of a type. -/
def setMgr (p : EpPool) (type : EpType) (m : EpMgr) : EpPool :=
  { p with
    tcp := if type = .tcp then m else p.tcp
    udp := if type = .udp then m else p.udp }

/-- The pool with `e` at `x`. -/
def setEp (p : EpPool) (x : EpId) (e : Option Ep) : EpPool :=
  { p with eps := fun i => if i = x then e else p.eps i }

/-- The endpoint at `x`. -/
def ep (p : EpPool) (x : EpId) : Except EpFault Ep :=
  match p.eps x with
  | none => .error .epFreed
  | some e => .ok e

/-- `_handle_error` is running on the endpoint. -/
def dying (p : EpPool) (x : EpId) : Bool :=
  p.stack.any fun
    | .error y _ _ _ => x = y
    | _ => false

/-- A callback is called. -/
def call (p : EpPool) (frame : EpFrame) (req : ReqId) (status : EpStatus) : EpPool :=
  { p with stack := frame :: p.stack, log := p.log ++ [.called req status] }

/-! ### Timers -/

/-- `sk_timer_cancel`, if there is a timer. -/
def cancel (p : EpPool) : Option TimerId → Except EpFault EpPool
  | none => .ok p
  | some t =>
    match p.tmsvc.cancel t with
    | none => .error .timerFreed
    | some tmsvc => .ok { p with tmsvc }

/-- `_ep_create_timer` and `_ep_node_create_timer`. -/
def createTimer (p : EpPool) (kind : EpTimerKind) (timeout : Nat) : Option TimerId × EpPool :=
  if timeout = 0 then (none, p)
  else (some p.tmsvc.created, { p with tmsvc := p.tmsvc.create kind timeout })

/-- The second half of `_ep_create_shutdown_timer`. -/
def newShutdownTimer (p : EpPool) (x : EpId) (expiration : UInt32) : Except EpFault EpPool :=
  match p.createTimer (.shutdown x) expiration.toNat with
  | (none, _) => .error .shutdownTimer
  | (some t, p) => (p.ep x).map fun e => p.setEp x (some { e with shutdownTimer := some t })

/-- `_ep_create_shutdown_timer`. -/
def createShutdownTimer (p : EpPool) (x : EpId) (expiration : UInt32) : Except EpFault EpPool := do
  let e ← p.ep x
  match e.shutdownTimer with
  | none => p.newShutdownTimer x expiration
  | some t =>
    match p.tmsvc.reset t expiration.toNat with
    | none => .error .timerFreed
    | some (true, tmsvc) => .ok { p with tmsvc }
    -- The timer has gone off, but its event is not handled yet: it is cancelled, and replaced.
    | some (false, _) => do
      let p ← p.cancel (some t)
      p.newShutdownTimer x expiration

/-! ### Destruction -/

/-- `_ep_node_destroy`, for a node of `x` that may be popped already. -/
def nodeDestroy (p : EpPool) (x : EpId) (n : EpNode) (release : Bool) :
    Except EpFault EpPool := do
  let p ← p.cancel n.recvTimer
  let p := if release then { p with log := p.log ++ [.released n.id] } else p
  let e ← p.ep x
  .ok (p.setEp x (some
    { e with txns := e.txns.filter fun n' => n'.id ≠ n.id, ntxn := e.ntxn - 1 }))

/-- The loop of `_ep_destroy`. -/
def destroyNodes (x : EpId) : List EpNode → EpPool → Except EpFault EpPool
  | [], p => .ok p
  | n :: ns, p =>
    match p.nodeDestroy x n true with
    | .error f => .error f
    | .ok p => destroyNodes x ns p

/-- `_ep_destroy`. -/
def epDestroy (p : EpPool) (x : EpId) : Except EpFault EpPool := do
  let e ← p.ep x
  let p ← p.cancel e.connTimer
  let p ← p.cancel e.shutdownTimer
  let p ← destroyNodes x e.txns p
  .ok { p.setEp x none with deleted := p.deleted ++ [x] }

/-- `_ep_mgr_del`. -/
def mgrDel (p : EpPool) (x : EpId) : Except EpFault EpPool := do
  let e ← p.ep x
  (p.setMgr e.type ((p.mgr e.type).del e.key x)).epDestroy x

/-! ### The endings of a request -/

/-- The loop of `_handle_error` over the list of `x`, up to the next callback; `turns` nodes of
    `before` were popped already. -/
def drain (x : EpId) (before : Nat) : Nat → List EpNode → EpPool → Except EpFault EpPool
  | turns, [], p => { p with drains := p.drains ++ [(before, turns)] }.mgrDel x
  | turns, n :: ns, p => do
    let e ← p.ep x
    let p := p.setEp x (some { e with txns := ns })
    -- A request whose `sk_ep_send` has not returned belongs to its caller: no callback, no release.
    if n.status ≠ .init then .ok (p.call (.error x n before (turns + 1)) n.id .error)
    else
      match p.nodeDestroy x n false with
      | .error f => .error f
      | .ok p => drain x before (turns + 1) ns p

/-- `_handle_error`. -/
def handleError (p : EpPool) (x : EpId) : Except EpFault EpPool := do
  let e ← p.ep x
  drain x e.txns.length 0 e.txns { p with errors := p.errors ++ [x] }

/-- The rest of `_handle_ok` after the callback. -/
def returnOk (p : EpPool) (x : EpId) (req : ReqId) : Except EpFault EpPool := do
  let e ← p.ep x
  match e.txns.find? fun n => n.id = req with
  | none => .error .nodeFreed
  | some n =>
    -- The callback may have reused `x`; the timer is set again all the same.
    let p ← p.createShutdownTimer x (if n.timeout ≠ 0 then n.timeout else epDefaultShutdownMs)
    p.nodeDestroy x n true

/-- The rest of `_handle_timeout` after the callback. -/
def returnTimeout (p : EpPool) (x : EpId) (req : ReqId) : Except EpFault EpPool := do
  let e ← p.ep x
  match e.txns.find? fun n => n.id = req with
  | none => .error .nodeFreed
  | some n => p.nodeDestroy x n true

/-- The rest of the loop of `_handle_error` after a callback. -/
def returnError (p : EpPool) (x : EpId) (n : EpNode) (before turns : Nat) :
    Except EpFault EpPool := do
  let p ← p.nodeDestroy x n true
  let e ← p.ep x
  drain x before turns e.txns p

/-- The callback that was called last returns. -/
def «return» (p : EpPool) : Except EpFault EpPool :=
  match p.stack with
  | [] => .ok p
  | frame :: stack =>
    let p := { p with stack }
    match frame with
    | .ok x req => p.returnOk x req
    | .timeout x req => p.returnTimeout x req
    | .error x n before turns => p.returnError x n before turns

/-! ### Sending -/

/-- The loop of `_find_ep`; bit 0 of the flags is `SK_EP_F_CONCURRENT`. -/
def findIn (p : EpPool) (flags : Nat) : List EpId → Except EpFault (Option EpId)
  | [] => .ok none
  | x :: xs =>
    match p.eps x with
    | none => .error .epFreed
    | some e =>
      if flags = e.flags then
        -- A concurrent endpoint is taken whatever its state and its requests.
        if e.flags.testBit 0 then .ok (some x)
        else if e.status = .connected then
          if e.ntxn ≤ 1 then
            if e.txns = [] then .ok (some x) else findIn p flags xs
          else .error .ntxn
        else findIn p flags xs
      else findIn p flags xs

/-- `_find_ep`. -/
def find (p : EpPool) (type : EpType) (req : EpRequest) : Except EpFault (Option EpId) :=
  p.findIn req.flags ((p.mgr type).epList req.key)

/-- `_ep_create`, with what its caller does to add the endpoint to the manager. -/
def epCreate (p : EpPool) (type : EpType) (key : EpKey) : EpPool :=
  { (p.setMgr type ((p.mgr type).add key p.nextEp)).setEp p.nextEp (some
      { type, key, status := .init, txns := [], ntxn := 0, flags := 0, connTimer := none
        shutdownTimer := none, rbuf := [], sent := 0, consumed := 0 }) with
    nextEp := p.nextEp + 1 }

/-- `_create_entity_tcp`: whether the endpoint connects. -/
def createEntityTcp (p : EpPool) (x : EpId) (n : EpNode) (connect : EpConnect) :
    Except EpFault (Bool × EpPool) := do
  if n.timedOut p.tmsvc.now then .ok (false, p)
  else
    let e ← p.ep x
    match connect with
    | .now =>
      let p ← p.cancel e.connTimer
      .ok (true, p.setEp x (some { e with status := .connected, connTimer := none }))
    | .later registered =>
      if n.timeout ≠ 0 then
        -- The timer is set first; when there is no room for the socket, it goes with the endpoint.
        let (timer, p) := p.createTimer (.conn x) (n.timeLeft p.tmsvc.now)
        .ok (registered, p.setEp x (some { e with status := .connecting, connTimer := timer }))
      else .ok (registered, p.setEp x (some { e with status := .connecting }))
    -- `_create_entity_tcp` sets the state before it tries to connect.
    | .failed => .ok (false, p.setEp x (some { e with status := .connecting }))

/-- `_create_entity_udp`. -/
def createEntityUdp (p : EpPool) (x : EpId) (connect : EpConnect) :
    Except EpFault (Bool × EpPool) := do
  let e ← p.ep x
  match connect with
  | .failed => .ok (false, p)
  | .now | .later _ => .ok (true, p.setEp x (some { e with status := .connected }))

/-- The list of a key is there. -/
def opened (p : EpPool) (type : EpType) (key : EpKey) : EpPool :=
  p.setMgr type ((p.mgr type).openList key)

/-- `_ep_mgr_get_or_create` for the node `n`, from `_find_ep` on. -/
def findOrCreate (p : EpPool) (type : EpType) (req : EpRequest) (n : EpNode) (env : EpSendEnv) :
    Except EpFault (Option EpId × EpPool) := do
  let found ← p.find type req
  let (x, p) ← match found with
    | some x => do
      let e ← p.ep x
      .ok (x, { p with reuses := p.reuses ++ [{ id := x, ep := e, dying := p.dying x }] })
    | none => .ok (p.nextEp, p.epCreate type req.key)
  let e ← p.ep x
  let p := p.setEp x (some { e with txns := e.txns ++ [n], ntxn := e.ntxn + 1 })
  if e.status = .init then
    let p := { p with tmsvc := p.tmsvc.elapse env.delay }
    let (connects, p) ← match type with
      | .tcp => p.createEntityTcp x n env.connect
      | .udp => p.createEntityUdp x env.connect
    if connects then .ok (some x, p)
    else
      -- The caller of `sk_ep_send` keeps its data: only the node is freed, without a callback.
      let p ← p.nodeDestroy x n false
      let p ← p.mgrDel x
      .ok (none, p)
  else .ok (some x, p)

/-- `_ep_mgr_get_or_create` for the node `n`: the endpoint of the node. -/
def getOrCreate (p : EpPool) (type : EpType) (req : EpRequest) (n : EpNode) (env : EpSendEnv) :
    Except EpFault (Option EpId × EpPool) :=
  (p.opened type req.key).findOrCreate type req n env

/-- A request of an endpoint is changed. -/
def setNode (p : EpPool) (x : EpId) (n : EpNode) : Except EpFault EpPool :=
  (p.ep x).map fun e =>
    p.setEp x (some { e with txns := e.txns.map fun n' => if n'.id = n.id then n else n' })

/-- `_ep_send` for the node `n` of `x`: whether it returns `SK_EP_OK`.  A write that fails runs
    `_error` before it returns. -/
def epSend (p : EpPool) (x : EpId) (n : EpNode) (written : Bool) :
    Except EpFault (Bool × EpPool) := do
  let e ← p.ep x
  if e.status ≠ .connected then
    -- Not connected yet: `_on_connect` sends the request.
    if e.status = .connecting ∧ n.status = .init ∧ e.type = .tcp then
      (p.setNode x { n with status := .pending }).map (Prod.mk true)
    else .error .sendStatus
  else if n.status = .sent then .error .sendStatus
  else if ¬ written then (p.handleError x).map (Prod.mk false)
  else
    let n := { n with status := .sent }
    let p := p.setEp x (some { e with sent := e.sent + 1 })
    if n.timeout ≠ 0 then
      -- The product is a 32-bit one.
      let p ← p.createShutdownTimer x (n.timeout * 2)
      if n.unpack then
        let (timer, p) := p.createTimer (.recv x n.id) (n.timeLeft p.tmsvc.now)
        (p.setNode x { n with recvTimer := timer }).map (Prod.mk true)
      else (p.setNode x n).map (Prod.mk true)
    else
      -- With an unpack function the timer is set by `_handle_ok`, after the answer.
      let p ← if ¬ n.unpack then p.createShutdownTimer x epDefaultShutdownMs else .ok p
      (p.setNode x n).map (Prod.mk true)

/-- `sk_ep_send` returns. -/
def returns (p : EpPool) (req : ReqId) (ok : Bool) : EpPool :=
  if ok then { p with accepted := p.accepted ++ [req] }
  else { p with refused := p.refused ++ [req] }

/-- `sk_ep_send`. -/
def send (p : EpPool) (req : EpRequest) (env : EpSendEnv) : Except EpFault EpPool := do
  let id := p.calls
  let n := req.node id p.tmsvc.now
  let p := { p with calls := p.calls + 1 }
  match req.check with
  | none => .ok (p.returns id false)
  | some type =>
    if (p.mgr type).nep = (p.mgr type).max then .ok (p.returns id false)
    else
      match ← p.getOrCreate type req n env with
      | (none, p) => .ok (p.returns id false)
      | (some x, p) =>
        let (ok, p) ← p.epSend x n env.written
        .ok (p.returns id ok)

/-! ### Events -/

/-- `fdlist_foreach` with `_try_unpack`: the first node whose unpack function does not return
    zero, and what it returns.  `results` are the returned values, in the order of the calls. -/
def tryUnpack : List EpNode → List Int → Option (EpNode × Int)
  | [], _ => none
  | n :: ns, results =>
    if ¬ n.unpack then tryUnpack ns results
    else
      match results with
      | [] => none
      | r :: results => if r = 0 then tryUnpack ns results else some (n, r)

/-- `_read_cb`: the bytes that arrive, or the failure, and what the unpack functions return. -/
def readCb (p : EpPool) (x : EpId) (arrived : Option (List UInt8)) (results : List Int) :
    Except EpFault EpPool := do
  let e ← p.ep x
  if e.status ≠ .connected then .error .readStatus
  else
    match arrived with
    | none => .ok p
    | some bytes =>
      -- `sk_entity_read` counts the bytes that were left in the buffer, too.
      let data := e.rbuf ++ bytes
      if data = [] then .ok p
      else
        let e := { e with rbuf := data }
        let p := p.setEp x (some e)
        match tryUnpack e.txns results with
        | none => .ok p
        | some (n, consumed) =>
          -- An unpack function that fails ends all requests of the endpoint.
          if consumed < 0 then p.handleError x
          else
            let p ← p.cancel n.recvTimer
            let p ← (p.setEp x (some { e with
              rbuf := data.drop consumed.toNat, consumed := e.consumed + 1 })).setNode x
                { n with recvTimer := none }
            .ok (p.call (.ok x n.id) n.id .ok)

/-- `fdlist_foreach` with `_send_each`; `written` are the results of the writes. -/
def sendEach (x : EpId) : List EpNode → List Bool → EpPool → Except EpFault EpPool
  | [], _, p => .ok p
  | n :: ns, written, p =>
    if n.status ≠ .pending then .error .sendStatus
    else
      match p.epSend x n (written.headD true) with
      | .error f => .error f
      -- A write that failed ends the walk: its `_error` frees the endpoint.
      | .ok (false, p) => .ok p
      | .ok (true, p) => sendEach x ns written.tail p

/-- `_on_connect`: whether the socket is connected, and the results of the writes.  `_ep_send`
    never returns `SK_EP_TIMEOUT`. -/
def onConnect (p : EpPool) (x : EpId) (connected : Bool) (written : List Bool) :
    Except EpFault EpPool := do
  let e ← p.ep x
  if ¬ connected then p.handleError x
  else if e.status ≠ .connecting then .error .connStatus
  else
    let p ← p.cancel e.connTimer
    let e := { e with status := .connected, connTimer := none }
    sendEach x e.txns written (p.setEp x (some e))

/-- `_conn_timeout`, `_recv_timeout` and `_shutdown_ep`, for a valid timer. -/
def timerCb (p : EpPool) : EpTimerKind → Except EpFault EpPool
  | .conn x => do
    let e ← p.ep x
    if e.status ≠ .connecting then .error .connStatus
    else (p.setEp x (some { e with connTimer := none })).handleError x
  | .recv x req => do
    let e ← p.ep x
    match e.txns.find? fun n => n.id = req with
    | none => .error .nodeFreed
    | some n =>
      let p ← p.setNode x { n with recvTimer := none }
      .ok (p.call (.timeout x req) req .timeout)
  | .shutdown x => do
    let e ← p.ep x
    (p.setEp x (some { e with shutdownTimer := none })).handleError x

/-- The handler of `SK_PTO_TIMER_TRIGGERED`.  The timer is freed after its callback, which no
    longer points to it. -/
def timerTriggered (p : EpPool) (t : TimerId) : Except EpFault EpPool :=
  match p.tmsvc.timers t with
  | none => .error .timerFreed
  | some τ =>
    let p := { p with tmsvc := p.tmsvc.destroy t }
    if τ.valid then p.timerCb τ.kind else .ok p

/-- `_ep_destroy` for each of a list of endpoints. -/
def epDestroyAll : List EpId → EpPool → Except EpFault EpPool
  | [], p => .ok p
  | x :: xs, p =>
    match p.epDestroy x with
    | .error f => .error f
    | .ok p => epDestroyAll xs p

/-- `sk_ep_pool_destroy`. -/
def poolDestroy (p : EpPool) : Except EpFault EpPool :=
  (epDestroyAll (p.tcp.all ++ p.udp.all) p).map fun p =>
    { p with tcp := { p.tcp with ee := .empty, nep := 0 }
             udp := { p.udp with ee := .empty, nep := 0 }, down := true }

end EpPool

/-! ### The machine -/

/-- What may happen next. -/
inductive EpAction
  /-- User code calls `sk_ep_send`. -/
  | send (req : EpRequest) (env : EpSendEnv)
  /-- The callback that was called last returns. -/
  | return
  /-- Data arrive on a connection. -/
  | read (ep : EpId) (arrived : Option (List UInt8)) (results : List Int)
  /-- A connection breaks. -/
  | error (ep : EpId)
  /-- A socket is connected, or failed to. -/
  | connect (ep : EpId) (connected : Bool) (written : List Bool)
  | tick (ms : Nat)
  /-- A timer goes off. -/
  | trigger (timer : TimerId)
  /-- The event of a timer is handled. -/
  | timer (timer : TimerId)
  /-- The engine is destroyed. -/
  | destroy
  deriving DecidableEq, Repr

namespace EpPool

/-- `sk_ep_pool_create`. -/
def create (maxFds : Int) : EpPool where
  eps := fun _ => none
  nextEp := 0
  tcp := { ee := .empty, tmp := [], nep := 0, max := if maxFds > 0 then maxFds else epPoolMax }
  udp := { ee := .empty, tmp := [], nep := 0, max := if maxFds > 0 then maxFds else epPoolMax }
  tmsvc := { timers := fun _ => none, created := 0, timerAlive := 0, now := 0 }
  stack := []
  calls := 0
  accepted := []
  refused := []
  log := []
  reuses := []
  errors := []
  drains := []
  deleted := []
  down := false
  fault := none

/-- What runs on an action. -/
def step (p : EpPool) : EpAction → Except EpFault EpPool
  | .send req env => p.send req env
  | .return => p.return
  | .read x arrived results => p.readCb x arrived results
  | .error x => p.handleError x
  | .connect x connected written => p.onConnect x connected written
  | .tick ms => .ok { p with tmsvc := p.tmsvc.elapse ms }
  | .trigger t =>
    match p.tmsvc.trigger t with
    | none => .ok p
    | some tmsvc => .ok { p with tmsvc }
  | .timer t => p.timerTriggered t
  | .destroy => p.poolDestroy

/-- What runs on an action, where a crash is a state. -/
def exec (p : EpPool) (a : EpAction) : EpPool :=
  match p.step a with
  | .error f => { p with fault := some f }
  | .ok p => p

/-- When an action may happen.  A callback may send and return; all else waits for the event
    loop.  A connection calls back while it exists. -/
def enabled (p : EpPool) (a : EpAction) : Prop :=
  p.fault = none ∧ p.down = false ∧
    match a with
    | .send _ _ | .tick _ => True
    | .return => p.stack ≠ []
    | .read x _ _ | .error x => p.stack = [] ∧ (p.eps x).any fun e => e.status = .connected
    | .connect x _ _ => p.stack = [] ∧ (p.eps x).any fun e => e.status = .connecting
    | .trigger t => p.stack = [] ∧
        (p.tmsvc.timers t).any fun τ => ¬ τ.triggered ∧ τ.due ≤ p.tmsvc.now
    | .timer t => p.stack = [] ∧ (p.tmsvc.timers t).any fun τ => τ.triggered
    | .destroy => p.stack = []

/-- The runs of a pool. -/
def machine : Machine EpPool EpAction Empty where
  init p := ∃ maxFds, p = create maxFds
  enabled := enabled
  exec p a := .ok (p.exec a)

end EpPool

end Skull
