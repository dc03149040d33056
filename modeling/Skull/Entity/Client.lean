import Skull.Entity.Entity
import Skull.Lib.Machine
import Skull.Lib.Network

namespace Skull

open Machines

/-!
# One client entity and everything that touches it

The driver that reads requests, the workflow that runs the transactions, and the entity manager
that destroys the entity in two phases (inactive, then dead):

* `Client` — the entity, its place in the manager, the `SK_PTO_WORKFLOW_RUN` events in flight
  and the history of its transactions;
* `Client.entityDestroy`, `Client.mgrDel`, `Client.cleanDead`, `Client.safeDestroy` — the ways
  to destruction;
* `Client.driverUnpack`, `Client.driverDeliver` — `sk_driver_util_unpack` and
  `sk_driver_util_deliver`;
* `Client.workflowRun` — what a `SK_PTO_WORKFLOW_RUN` does to the entity, from the pack on;
* `Client.machine` — the machine of all runs.

All handlers for an entity run on the scheduler that owns it, so `sk_entity_safe_destroy` never
takes the branch that sends `SK_PTO_ENTITY_DESTROY` to another one.  Modules, services and the
network are the environment: they choose what is read, how much the unpack function consumes,
and how a transaction goes on.
-/

/-- The state of a client. -/
structure Client where
  /-- The entity, until it is freed. -/
  ent : Option Entity
  /-- The entity is in the table of its manager. -/
  managed : Bool
  /-- How often the entity is in `inactive_entities`. -/
  inactive : Nat
  /-- The transactions of the `SK_PTO_WORKFLOW_RUN` events in flight. -/
  runs : List TxnId
  /-- The number of transactions created; they are numbered from 0. -/
  created : Nat
  /-- The transactions that were delivered to a scheduler. -/
  delivered : List TxnId
  /-- The transactions that were destroyed. -/
  destroyed : List TxnId
  /-- The input stored in each transaction, oldest first. -/
  inputs : List (TxnId × List UInt8)
  /-- The manager was destroyed. -/
  down : Bool
  deriving DecidableEq, Repr

/-- How the handler of a `SK_PTO_WORKFLOW_RUN` ends. -/
inductive RunOutcome
  /-- The module has service calls to wait for. -/
  | pending
  /-- The next module is scheduled. -/
  | next
  /-- The transaction is packed: whether `pack` failed, whether writing the response ended in
      an error of the connection, and whether all tasks are complete. -/
  | packed (failed writeError allComplete : Bool)
  /-- The transaction was packed before, with tasks incomplete. -/
  | destroyed (allComplete : Bool)
  deriving DecidableEq, Repr

/-- What may happen next. -/
inductive ClientAction
  /-- Data arrive (or the read fails), and the unpack function returns `consumed`. -/
  | read (arrived : Option (List UInt8)) (consumed : Int)
  /-- The peer disconnects. -/
  | error
  /-- The master resumes a transaction that waited for its service calls. -/
  | resume (txn : TxnId)
  /-- The `SK_PTO_WORKFLOW_RUN` at `i` is handled. -/
  | workflowRun (i : Nat) (outcome : RunOutcome)
  /-- The event loop calls `sk_entity_mgr_clean_dead`. -/
  | cleanDead
  /-- The engine is destroyed. -/
  | shutdown
  deriving DecidableEq, Repr

namespace Client

/-! ### Destruction -/

/-- `sk_txn_destroy`. -/
def txnDestroy (c : Client) (txn : TxnId) : Except EntityFault Client :=
  match c.ent with
  | none => .error .entityFreed
  | some e => (e.txndel txn).map fun e =>
      { c with ent := some e, destroyed := c.destroyed ++ [txn] }

/-- `sk_txn_destroy` for each of a list of transactions. -/
def txnDestroyAll : List TxnId → Client → Except EntityFault Client
  | [], c => .ok c
  | txn :: txns, c =>
    match c.txnDestroy txn with
    | .error f => .error f
    | .ok c => txnDestroyAll txns c

/-- The last phase of `sk_entity_destroy`.  The table is empty, and freed, when the queued
    transactions are destroyed; the half transaction is not looked at. -/
def entityFree (c : Client) (e : Entity) : Except EntityFault Client :=
  match txnDestroyAll e.txns c with
  | .error f => .error f
  | .ok c => (txnDestroyAll e.iqueue c).map fun c => { c with ent := none }

/-- `sk_entity_destroy`. -/
def entityDestroy (c : Client) : Except EntityFault Client :=
  match c.ent with
  | none => .error .entityFreed
  | some e =>
    match e.status with
    | .active => .error .destroyStatus
    | .inactive => .ok { c with ent := some { e with ud := false } }
    | .dead => c.entityFree e

/-- `sk_entity_mark`. -/
def mark (c : Client) (status : EntityStatus) : Client :=
  { c with ent := c.ent.map fun e => { e with status } }

/-- `sk_entity_mgr_del`. -/
def mgrDel (c : Client) : Except EntityFault Client :=
  match c.ent with
  | none => .error .entityFreed
  | some e =>
    if e.status = .dead then .ok c
    else
      (c.mark .inactive).entityDestroy.map fun c =>
        { c.mark .dead with inactive := c.inactive + 1 }

/-- The loop of `_cleanup_dead_entities` over the times the entity is in the list. -/
def cleanLoop (force : Bool) : Nat → Client → Except EntityFault Client
  | 0, c => .ok c
  | turns + 1, c =>
    match c.ent with
    | none => .error .entityFreed
    | some e =>
      if e.taskCnt ≠ 0 ∧ ¬ force then cleanLoop force turns { c with inactive := c.inactive + 1 }
      else if ¬ c.managed then .error .mgrTable
      else
        match { c with managed := false }.entityDestroy with
        | .error f => .error f
        | .ok c => cleanLoop force turns c

/-- `_cleanup_dead_entities`. -/
def cleanDead (force : Bool) (c : Client) : Except EntityFault Client :=
  cleanLoop force c.inactive { c with inactive := 0 }

/-- `sk_entity_safe_destroy`. -/
def safeDestroy (c : Client) : Except EntityFault Client :=
  match c.ent with
  | none => .error .entityFreed
  | some e =>
    if e.owned then c.mgrDel
    else
      match (c.mark .inactive).entityDestroy with
      | .error f => .error f
      | .ok c => (c.mark .dead).entityDestroy

/-- `sk_entity_mgr_destroy`. -/
def mgrDestroy (c : Client) : Except EntityFault Client :=
  let c := { c with down := true }
  if c.managed then
    match c.mgrDel with
    | .error f => .error f
    | .ok c => c.cleanDead true
  else c.cleanDead true

/-! ### The driver -/

/-- The half transaction of the entity, or a new one, and how many exist then. -/
def getOrCreateTxn (c : Client) (e : Entity) : TxnId × Nat :=
  match e.halfTxn with
  | some txn => (txn, c.created)
  | none => (c.created, c.created + 1)

/-- `sk_driver_util_unpack`: the return value and the state after. -/
def driverUnpack (c : Client) (e : Entity) (arrived : Option (List UInt8)) (consumed : Int) :
    Except EntityFault (Int × Client) :=
  match arrived with
  | none => .ok (0, c)
  | some bytes =>
    let data := e.rbuf ++ bytes
    if data.length = 0 then .ok (0, c)
    else
      let (txn, created) := c.getOrCreateTxn e
      let e := { e with halfTxn := some txn, rbuf := data }
      let c := { c with created }
      if consumed = 0 then .ok (0, { c with ent := some e })
      else if consumed < 0 then
        ({ c with ent := some e } : Client).safeDestroy.map fun c => (-1, c)
      else
        .ok (consumed,
          { c with
            ent := some { e with
              halfTxn := none, iqueue := e.iqueue ++ [txn], rbuf := data.drop consumed.toNat }
            inputs := c.inputs ++ [(txn, data)] })

/-- The loop of `sk_driver_util_deliver`. -/
def deliverLoop : Nat → Client → Except EntityFault (Nat × Client)
  | 0, c => .ok (0, c)
  | cnt + 1, c =>
    match c.ent with
    | none => .error .entityFreed
    | some e =>
      if ¬ e.idle then .ok (0, c)
      else
        match e.iqueue with
        | [] => .ok (0, c)
        | txn :: iqueue =>
          match { e with iqueue }.txnadd txn with
          | .error f => .error f
          | .ok e =>
            (deliverLoop cnt
              { c with
                ent := some e, runs := c.runs ++ [txn], delivered := c.delivered ++ [txn] }).map
              fun (delivery, c) => (delivery + 1, c)

/-- `INT32_MAX`. -/
def int32Max : Nat := 2147483647

/-- `sk_driver_util_deliver`: the number of transactions delivered and the state after. -/
def driverDeliver (c : Client) (max : Int) : Except EntityFault (Nat × Client) :=
  match c.ent with
  | none => .error .entityFreed
  | some e =>
    let max := if max ≤ 0 then int32Max else max.toNat
    deliverLoop (if e.concurrent then max else 1) c

/-- `_read_cb`. -/
def readCb (c : Client) (arrived : Option (List UInt8)) (consumed : Int) :
    Except EntityFault Client :=
  match c.ent with
  | none => .error .entityFreed
  | some e =>
    if e.status ≠ .active then .ok c
    else
      match c.driverUnpack e arrived consumed with
      | .error f => .error f
      | .ok (consumed, c) =>
        if consumed > 0 then (c.driverDeliver 1).map Prod.snd else .ok c

/-! ### The workflow -/

/-- `_txn_log_and_destroy`; `allComplete` says whether all tasks of the transaction are
    complete. -/
def txnLogAndDestroy (c : Client) (txn : TxnId) (allComplete : Bool) :
    Except EntityFault Client :=
  if ¬ allComplete then .ok c
  else
    match c.driverDeliver 1 with
    | .error f => .error f
    | .ok (_, c) =>
      match c.txnDestroy txn with
      | .error f => .error f
      | .ok c =>
        match c.ent with
        | none => .error .entityFreed
        | some e =>
          if (e.status ≠ .active ∨ e.destroyNotxn) ∧ e.taskCnt = 0 then c.safeDestroy
          else .ok c

/-- The entity part of `_module_pack`. -/
def modulePack (c : Client) (failed writeError : Bool) : Except EntityFault Client :=
  let c := if failed then c.mark .inactive else c
  if writeError ∧ c.ent.any Entity.ud then c.safeDestroy else .ok c

/-- `_run_event` gives an entity without an owner to the manager. -/
def adopt (c : Client) (e : Entity) : Client :=
  { c with ent := some { e with owned := true }, managed := c.managed || !e.owned }

/-- The handler of `SK_PTO_WORKFLOW_RUN`. -/
def workflowRun (c : Client) (txn : TxnId) (outcome : RunOutcome) : Except EntityFault Client :=
  match c.ent with
  | none => .error .entityFreed
  | some e =>
    if txn ∉ e.txns then .error .txnFreed
    else
      let c := c.adopt e
      match outcome with
      | .pending => .ok c
      | .next => .ok { c with runs := c.runs ++ [txn] }
      | .packed failed writeError allComplete =>
        match c.modulePack failed writeError with
        | .error f => .error f
        | .ok c => c.txnLogAndDestroy txn allComplete
      | .destroyed allComplete => c.txnLogAndDestroy txn allComplete

/-! ### The machine -/

/-- What runs on an action. -/
def exec (c : Client) : ClientAction → Except EntityFault Client
  | .read arrived consumed => c.readCb arrived consumed
  | .error => c.safeDestroy
  | .resume txn => .ok { c with runs := c.runs ++ [txn] }
  | .workflowRun i outcome =>
    match c.runs[i]? with
    | none => .ok c
    | some txn => { c with runs := c.runs.eraseIdx i }.workflowRun txn outcome
  | .cleanDead => c.cleanDead false
  | .shutdown => c.mgrDestroy

/-- When an action may happen: the connection calls back while it exists, a datagram is read
    once, only delivered transactions are resumed, and nothing happens after shutdown. -/
def enabled (c : Client) : ClientAction → Prop
  | .read _ _ => ¬ c.down ∧ c.ent.any Entity.ud ∧ (c.ent.any Entity.owned ∨ c.created = 0)
  | .error => ¬ c.down ∧ c.ent.any Entity.ud ∧ c.ent.any Entity.owned
  | .resume txn => ¬ c.down ∧ txn ∈ c.delivered
  | .workflowRun i _ => ¬ c.down ∧ i < c.runs.length
  | .cleanDead => ¬ c.down
  | .shutdown => ¬ c.down

instance (c : Client) (a : ClientAction) : Decidable (c.enabled a) :=
  match a with
  | .read .. => inferInstanceAs (Decidable (_ ∧ _ ∧ _))
  | .error => inferInstanceAs (Decidable (_ ∧ _ ∧ _))
  | .resume _ => inferInstanceAs (Decidable (_ ∧ _))
  | .workflowRun .. => inferInstanceAs (Decidable (_ ∧ _))
  | .cleanDead => inferInstanceAs (Decidable (¬ _))
  | .shutdown => inferInstanceAs (Decidable (¬ _))

/-- A client that was just accepted (`owned`), or the sender of a datagram. -/
def accepted (owned concurrent destroyNotxn : Bool) : Client :=
  { ent := some
      { owned, concurrent, halfTxn := none, txns := [], status := .active, destroyNotxn
        taskCnt := 0, iqueue := [], ud := true, rbuf := [] }
    managed := owned, inactive := 0, runs := [], created := 0, delivered := [], destroyed := []
    inputs := [], down := false }

/-- The runs of a client. -/
def machine : Machine Client ClientAction EntityFault where
  init c := ∃ owned concurrent destroyNotxn, c = accepted owned concurrent destroyNotxn
  enabled := enabled
  exec := exec

instance (c : Client) (a : ClientAction) : Decidable (machine.enabled c a) :=
  inferInstanceAs (Decidable (c.enabled a))

end Client

end Skull
