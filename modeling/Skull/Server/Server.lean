import Skull.Entity.Order
import Skull.Txn.Turns

namespace Skull

open Machines

/-!
# Connections and transactions together

`Client` is one connection, and leaves open how its transactions run; `TxnSystem` is all
transactions, and leaves open where they come from.  In the server each is the environment of the
other:

* `Conn`, `Request` — a connection, and whose request a transaction is;
* `Server.connRun` — a handler works on a connection: the requests that it completes become
  transactions, those that it delivers are delivered;
* `Server.ran` — a `SK_PTO_WORKFLOW_RUN` was handled, which may send the response;
* `Server.machine` — the machine of all runs.

The engines are not destroyed here, and no workflow runs without requests.
-/

/-- A request: its connection, its number there, and `txn->output`. -/
structure Request where
  conn : Nat
  txn : TxnId
  output : List UInt8
  deriving DecidableEq, Repr

/-- A call of `_module_pack`: the transaction, and the response if the connection took one. -/
structure Packing where
  txn : TxnId
  response : Option (List UInt8)
  deriving DecidableEq, Repr

/-- A connection, or the sender of a datagram, with `cfg->concurrent` of its workflow. -/
structure Conn where
  client : Client
  workflow : Workflow
  concurrent : Bool
  home : Sched
  packings : List Packing
  deriving DecidableEq, Repr

/-- The transaction `x` of `sys` is that of the request at `x`. -/
structure Server where
  sys : TxnSystem
  conns : List Conn
  requests : List Request
  deriving DecidableEq, Repr

/-- Either part aborts. -/
inductive ServerFault
  | txn (fault : TxnFault)
  | entity (fault : EntityFault)
  deriving DecidableEq, Repr

/-- What user code and the network do in a handler. -/
structure ServerCode where
  user : UserCode
  /-- What the `run` of a module, or the callback of a task, appends to the output. -/
  run : List UInt8
  /-- What `pack` appends. -/
  pack : List UInt8
  /-- Writing the response ends in an error of the connection. -/
  writeError : Bool

/-- What may happen next. -/
inductive ServerAction
  /-- A connection is accepted (`owned`), or a datagram arrives. -/
  | accept (owned concurrent destroyNotxn : Bool) (workflow : Workflow) (home : Sched)
  /-- Data arrive on a connection, on the scheduler `src`; `start` is when its half transaction
      was made. -/
  | read (k : Nat) (arrived : Option (List UInt8)) (consumed : Int) (start : Int) (src : Sched)
  /-- The peer disconnects. -/
  | error (k : Nat)
  /-- The event loop calls `sk_entity_mgr_clean_dead`, which finds the entity of a connection. -/
  | cleanDead (k : Nat)
  /-- The message at `i` is handled. -/
  | handle (i : Nat) (code : ServerCode)
  /-- A pending call is called back, or the timer of a job fires. -/
  | service (a : TxnAction)

/-- A module was entered. -/
def Mark.isEntry : Mark → Bool
  | .entered _ _ => true
  | _ => false

namespace Server

variable (bioCnt : Nat)

/-- The transaction of the request `l` of the connection `k`. -/
def number (s : Server) (k : Nat) (l : TxnId) : TxnId :=
  s.requests.findIdx fun q => q.conn = k && q.txn = l

/-- `sk_driver_util_unpack` completed the request `l`. -/
def unpacked (k : Nat) (conn : Conn) (start : Int) (s : Server) (l : TxnId) :
    Except ServerFault Server :=
  ((s.sys.exec bioCnt (.create conn.workflow conn.home start false)).mapError .txn).map fun sys =>
    { s with sys, requests := s.requests ++ [⟨k, l, []⟩] }

/-- `sk_driver_util_deliver` on `src` delivered the request `l`. -/
def deliver (k : Nat) (src : Sched) (s : Server) (l : TxnId) : Except ServerFault Server :=
  ((s.sys.exec bioCnt (.deliver (s.number k l) src)).mapError .txn).map fun sys => { s with sys }

/-- A handler works on the connection `k`. -/
def connRun (k : Nat) (a : ClientAction) (start : Int) (src : Sched) (s : Server) :
    Except ServerFault Server :=
  match s.conns[k]? with
  | none => .ok s
  | some conn => do
    let client ← (conn.client.exec a).mapError .entity
    let s := { s with conns := s.conns.set k { conn with client } }
    let s ← (client.requests.drop conn.client.requests.length).foldlM
      (unpacked bioCnt k conn start) s
    (client.delivered.drop conn.client.delivered.length).foldlM (deliver bioCnt k src) s

/-- How a handler that found the transaction `before` and left it as `after` goes on; `sent` are
    the messages that it sent. -/
def outcome (before after : TxnSlot) (sent : List Event) (failed writeError : Bool) : RunOutcome :=
  if before.txn.state = .destroyed then .destroyed after.released
  else if after.txn.state = .destroyed then .packed failed writeError after.released
  else if sent.any Event.isRun then .next
  else .pending

/-- The handler on `src` of a `SK_PTO_WORKFLOW_RUN` for the transaction `x` goes on with the
    connection; `old` was the system before. -/
def ran (old : TxnSystem) (x : TxnId) (src : Sched) (code : ServerCode) (s : Server) :
    Except ServerFault Server :=
  match s.requests[x]? with
  | none => .ok s
  | some q =>
    match s.conns[q.conn]?, old.txns[x]?, s.sys.txns[x]? with
    | some conn, some before, some after =>
      let packed := before.txn.state ≠ .destroyed ∧ after.txn.state = .destroyed
      let hasPack := conn.workflow.hasPack
      let entered := (s.sys.log.drop old.log.length).any Mark.isEntry
      let output := q.output ++ (if entered then code.run else []) ++
        if packed ∧ hasPack then code.pack else []
      let response :=
        if hasPack ∧ output ≠ [] ∧ conn.client.ent.any Entity.ud then some output else none
      let packings := conn.packings ++ if packed then [⟨q.txn, response⟩] else []
      let how := outcome before after (s.sys.net.drop (old.net.length - 1))
        (hasPack && code.user.pack.failed) (response.isSome && code.writeError)
      connRun bioCnt q.conn (.workflowRun (conn.client.runs.idxOf q.txn) how) 0 src
        { s with
          requests := s.requests.set x { q with output }
          conns := s.conns.set q.conn { conn with packings } }
    | _, _, _ => .ok s

/-- The callback of the task `t` may append to the output. -/
def calledBack (old : TxnSystem) (t : TaskRef) (status : TaskStatus) (code : ServerCode)
    (s : Server) : Server :=
  if (status = .done ∨ status = .busy) ∧ (old.entry t).any (·.cb) then
    { s with
      requests := s.requests.modify t.txn fun q => { q with output := q.output ++ code.run } }
  else s

/-- The master resumed the transaction `x`. -/
def resumed (x : TxnId) (src : Sched) (s : Server) : Except ServerFault Server :=
  match s.requests[x]? with
  | none => .ok s
  | some q => connRun bioCnt q.conn (.resume q.txn) 0 src s

/-- The message `e` was handled; `old` was the system before. -/
def follow (old : TxnSystem) (e : Event) (code : ServerCode) (s : Server) :
    Except ServerFault Server :=
  match e.owner, e.pto with
  | .inl x, .workflowRun => s.ran bioCnt old x e.dst code
  | .inl x, .svcTaskDone _ true _ => s.resumed bioCnt x e.dst
  | .inl _, .svcTaskCb t _ _ status _ => .ok (s.calledBack old t status code)
  | _, _ => .ok s

/-- The handler of the message at `i`. -/
def handle (i : Nat) (code : ServerCode) (s : Server) : Except ServerFault Server :=
  match s.sys.net[i]? with
  | none => .ok s
  | some e => do
    let sys ← (s.sys.exec bioCnt (.handle i code.user)).mapError .txn
    follow bioCnt s.sys e code { s with sys }

/-! ### The machine -/

/-- What runs on an action. -/
def exec (s : Server) : ServerAction → Except ServerFault Server
  | .accept owned concurrent destroyNotxn workflow home =>
    .ok { s with conns := s.conns ++
      [⟨.accepted owned concurrent destroyNotxn, workflow, concurrent, home, []⟩] }
  | .read k arrived consumed start src => s.connRun bioCnt k (.read arrived consumed) start src
  | .error k => s.connRun bioCnt k .error 0 .master
  | .cleanDead k => s.connRun bioCnt k .cleanDead 0 .master
  | .handle i code => s.handle bioCnt i code
  | .service a => ((s.sys.exec bioCnt a).mapError .txn).map fun sys => { s with sys }

/-- What may happen on a connection. -/
def connEnabled (s : Server) (k : Nat) (a : ClientAction) : Prop :=
  ∃ conn ∈ s.conns[k]?, conn.client.enabled a

/-- When an action may happen: as in the parts. -/
def enabled (s : Server) : ServerAction → Prop
  | .accept .. => True
  | .read k arrived consumed _ _ => s.connEnabled k (.read arrived consumed)
  | .error k => s.connEnabled k .error
  | .cleanDead k => s.connEnabled k .cleanDead
  | .handle i code => s.sys.enabled bioCnt (.handle i code.user)
  | .service a => a.external = true ∧ s.sys.enabled bioCnt a

instance (s : Server) (a : ServerAction) : Decidable (s.enabled bioCnt a) :=
  match a with
  | .accept .. => .isTrue trivial
  | .read k arrived consumed _ _ =>
    inferInstanceAs (Decidable (∃ conn ∈ s.conns[k]?, conn.client.enabled (.read arrived consumed)))
  | .error k => inferInstanceAs (Decidable (∃ conn ∈ s.conns[k]?, conn.client.enabled .error))
  | .cleanDead k =>
    inferInstanceAs (Decidable (∃ conn ∈ s.conns[k]?, conn.client.enabled .cleanDead))
  | .handle i code => inferInstanceAs (Decidable (s.sys.enabled bioCnt (.handle i code.user)))
  | .service a => inferInstanceAs (Decidable (_ ∧ s.sys.enabled bioCnt a))

/-- The runs of a server on a core with `bioCnt` bios. -/
def machine : Machine Server ServerAction ServerFault where
  init s := s.sys.Init ∧ s.conns = [] ∧ s.requests = []
  enabled := enabled bioCnt
  exec := exec bioCnt

instance (s : Server) (a : ServerAction) : Decidable ((machine bioCnt).enabled s a) :=
  inferInstanceAs (Decidable (s.enabled bioCnt a))

end Server

end Skull
