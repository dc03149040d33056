import Skull.Service.Event

namespace Skull

/-!
# Client entities (`sk_entity`)

An entity stands for one client: a connection, or the sender of one datagram.  Its
transactions are at one of three places: `halfTxn` while their request is not complete,
`iqueue` while they wait, and the table `txns` once they were delivered to a scheduler.

The read buffer behind the entity (`evbuff` for a connection) is `rbuf`; `ud` says whether the
entity still has it.
-/

/-- `sk_entity_status_t`. -/
inductive EntityStatus
  | active | inactive | dead
  deriving DecidableEq, Repr

/-- The assertions and the uses of freed memory on the way of an entity. -/
inductive EntityFault
  /-- `deleted == txn` in `sk_entity_txndel`. -/
  | txnDel
  /-- `entity->task_cnt > 0` and `>= 0` after a change of the counter. -/
  | taskCnt
  /-- The status check of `sk_entity_destroy`. -/
  | destroyStatus
  /-- `deleted_entity == entity` in `_cleanup_dead_entities`. -/
  | mgrTable
  /-- A freed entity is used. -/
  | entityFreed
  /-- A freed transaction is used. -/
  | txnFreed
  deriving DecidableEq, Repr

/-- `sk_entity_t`, with `cfg->concurrent` of its workflow. -/
structure Entity where
  /-- An entity manager owns it. -/
  owned : Bool
  concurrent : Bool
  halfTxn : Option TxnId
  /-- The keys of the transaction table. -/
  txns : List TxnId
  status : EntityStatus
  /-- `SK_ENTITY_F_DESTROY_NOTXN` is set. -/
  destroyNotxn : Bool
  taskCnt : Int
  iqueue : List TxnId
  ud : Bool
  rbuf : List UInt8
  deriving DecidableEq, Repr

namespace Entity

/-- `sk_entity_idle`. -/
def idle (e : Entity) : Bool := if e.concurrent then true else e.taskCnt ≤ 0

/-- `sk_entity_txnadd`. -/
def txnadd (e : Entity) (txn : TxnId) : Except EntityFault Entity :=
  let taskCnt := e.taskCnt + 1
  if taskCnt > 0 then .ok { e with txns := e.txns ++ [txn], taskCnt } else .error .taskCnt

/-- `sk_entity_txndel`. -/
def txndel (e : Entity) (txn : TxnId) : Except EntityFault Entity :=
  if txn ∈ e.txns then
    let taskCnt := e.taskCnt - 1
    if taskCnt ≥ 0 then .ok { e with txns := e.txns.erase txn, taskCnt } else .error .taskCnt
  else .error .txnDel

/-- The transactions of the entity that exist. -/
def live (e : Entity) : List TxnId := e.halfTxn.toList ++ e.txns ++ e.iqueue

end Entity

end Skull
