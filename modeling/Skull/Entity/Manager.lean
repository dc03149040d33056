import Skull.Entity.Entity
import Skull.Lib.Dict
import Skull.Lib.Machine

namespace Skull

open Machines

/-!
# The entity manager (`sk_entity_mgr`)

The manager keeps a table of its entities and counts them by type.  An entity that is deleted runs
its `opt.destroy`, and waits in `inactive_entities` until it has no transaction left; then
`clean_dead` frees it.

* `EntityMgrStat`, `EntityMgr.updateStat` — the counters, and the switch of `_update_stat`;
* `EntityMgr.add`, `EntityMgr.del`, `EntityMgr.cleanDead`, `EntityMgr.destroy` — the public
  operations, with `EntityMgr.entityDestroy` for `sk_entity_destroy`;
* `EntityMgr.Inv` — the invariant: what the table, the lists, the counters and the log of events say
  of the entities that exist;
* `EntityMgr.cleanLoop_spec` — the loop of `_cleanup_dead_entities`;
* `EntityMgr.run_accounted` — the accounts are right in every state reached, and no assertion fails.
-/

/-! ### The counters -/

/-- `sk_entity_type_t`. -/
inductive EntityType
  | none | std | sockV4tcp | sockV4udp | sockV6tcp | sockV6udp | timer
  | epV4tcp | epV4udp | epV6tcp | epV6udp | epTimer | epTxnTimer
  deriving DecidableEq, Repr

/-- `sk_entity_mgr_stat_t`. -/
structure EntityMgrStat where
  total : Int
  inactive : Int
  entityNone : Int
  entityStd : Int
  entitySockV4tcp : Int
  entitySockV4udp : Int
  entitySockV6tcp : Int
  entitySockV6udp : Int
  entityTimer : Int
  entityEpV4tcp : Int
  entityEpV4udp : Int
  entityEpV6tcp : Int
  entityEpV6udp : Int
  entityEpTimer : Int
  entityEpTxnTimer : Int
  deriving DecidableEq, Repr

namespace EntityMgrStat

/-- A structure of zeros. -/
def zero : EntityMgrStat := ⟨0, 0, 0, 0, 0, 0, 0, 0, 0, 0, 0, 0, 0, 0, 0⟩

/-- The counter of a type. -/
def count (stat : EntityMgrStat) : EntityType → Int
  | .none => stat.entityNone
  | .std => stat.entityStd
  | .sockV4tcp => stat.entitySockV4tcp
  | .sockV4udp => stat.entitySockV4udp
  | .sockV6tcp => stat.entitySockV6tcp
  | .sockV6udp => stat.entitySockV6udp
  | .timer => stat.entityTimer
  | .epV4tcp => stat.entityEpV4tcp
  | .epV4udp => stat.entityEpV4udp
  | .epV6tcp => stat.entityEpV6tcp
  | .epV6udp => stat.entityEpV6udp
  | .epTimer => stat.entityEpTimer
  | .epTxnTimer => stat.entityEpTxnTimer

/-- The sum of the counters of the types. -/
def typeSum (stat : EntityMgrStat) : Int :=
  stat.entityNone + stat.entityStd + stat.entitySockV4tcp + stat.entitySockV4udp +
    stat.entitySockV6tcp + stat.entitySockV6udp + stat.entityTimer + stat.entityEpV4tcp +
    stat.entityEpV4udp + stat.entityEpV6tcp + stat.entityEpV6udp + stat.entityEpTimer +
    stat.entityEpTxnTimer

/-- The switch of `_update_stat`. -/
def addType (stat : EntityMgrStat) (value : Int) : EntityType → EntityMgrStat
  | .none => { stat with entityNone := stat.entityNone + value }
  | .std => { stat with entityStd := stat.entityStd + value }
  | .sockV4tcp => { stat with entitySockV4tcp := stat.entitySockV4tcp + value }
  | .sockV4udp => { stat with entitySockV4udp := stat.entitySockV4udp + value }
  | .sockV6tcp => { stat with entitySockV6tcp := stat.entitySockV6tcp + value }
  | .sockV6udp => { stat with entitySockV6udp := stat.entitySockV6udp + value }
  | .timer => { stat with entityTimer := stat.entityTimer + value }
  | .epV4tcp => { stat with entityEpV4tcp := stat.entityEpV4tcp + value }
  | .epV4udp => { stat with entityEpV4udp := stat.entityEpV4udp + value }
  | .epV6tcp => { stat with entityEpV6tcp := stat.entityEpV6tcp + value }
  | .epV6udp => { stat with entityEpV6udp := stat.entityEpV6udp + value }
  | .epTimer => { stat with entityEpTimer := stat.entityEpTimer + value }
  | .epTxnTimer => { stat with entityEpTxnTimer := stat.entityEpTxnTimer + value }

/-- `_update_stat`. -/
def update (stat : EntityMgrStat) (type : EntityType) (inactive : Bool) (value : Int) :
    EntityMgrStat :=
  if value = 0 then stat
  else if inactive then
    let stat := { stat with inactive := stat.inactive + value }
    if value > 0 then stat else { stat with total := stat.total + value }.addType value type
  else { stat with total := stat.total + value }.addType value type

section Counters

variable (stat : EntityMgrStat) (value : Int) (type : EntityType)

/-- One type is counted. -/
@[simp] theorem addType_count (t : EntityType) :
    (stat.addType value type).count t = stat.count t + if t = type then value else 0 := by
  cases type <;> cases t <;> simp [addType, count]

@[simp] theorem addType_total : (stat.addType value type).total = stat.total := by
  cases type <;> rfl

@[simp] theorem addType_inactive : (stat.addType value type).inactive = stat.inactive := by
  cases type <;> rfl

/-- The sum over the types changes as the type does. -/
@[simp] theorem addType_typeSum : (stat.addType value type).typeSum = stat.typeSum + value := by
  cases type <;> simp only [addType, typeSum] <;> omega

end Counters

end EntityMgrStat

/-! ### The manager -/

/-- An entity of a manager, with its type. -/
structure MgrEntity where
  type : EntityType
  ent : Entity
  deriving DecidableEq, Repr

/-- What happens to the memory of an entity. -/
inductive MgrEvent
  /-- `opt.destroy` runs. -/
  | destroyed (id : Nat)
  /-- The entity is freed with `taskCnt` transactions unfinished, in a forced cleanup or not. -/
  | freed (id : Nat) (taskCnt : Int) (force : Bool)
  deriving DecidableEq, Repr

/-- The assertions and the uses of freed memory on the way of a manager. -/
inductive EntityMgrFault
  /-- One of the entity. -/
  | entity (fault : EntityFault)
  /-- `!entity->owner` in `sk_entity_setowner`, `owner == mgr` in `sk_entity_mgr_del`. -/
  | owner
  /-- `flist_empty(mgr->tmp_entities)` in `_cleanup_dead_entities`. -/
  | tmpEntities
  deriving DecidableEq, Repr

/-- `sk_entity_mgr_t`, with the entities that exist. -/
structure EntityMgr where
  /-- The entities that exist, by their numbers. -/
  heap : Dict Nat MgrEntity
  /-- The keys of the table `entity_mgr`. -/
  entityMgr : List Nat
  inactiveEntities : List Nat
  tmpEntities : List Nat
  stat : EntityMgrStat
  /-- The number of entities created; they are numbered from 0. -/
  created : Nat
  events : List MgrEvent
  /-- The manager was destroyed. -/
  down : Bool

namespace EntityMgr

/-- `sk_entity_mgr_create`. -/
def create : EntityMgr :=
  { heap := .empty, entityMgr := [], inactiveEntities := [], tmpEntities := [], stat := .zero
    created := 0, events := [], down := false }

/-- The entity with a number, if it was not freed. -/
def entity (m : EntityMgr) (id : Nat) : Except EntityMgrFault MgrEntity :=
  match m.heap.get? id with
  | none => .error (.entity .entityFreed)
  | some e => .ok e

/-- `sk_entity_create`. -/
def entityCreate (m : EntityMgr) (type : EntityType) (concurrent : Bool) : EntityMgr :=
  { m with
    heap := m.heap.set m.created
      { type
        ent := { owned := false, concurrent, halfTxn := none, txns := [], status := .active
                 destroyNotxn := false, taskCnt := 0, iqueue := [], ud := true, rbuf := [] } }
    created := m.created + 1 }

/-- `sk_entity_txndel` for each of a list of transactions. -/
def txndelAll : List TxnId → Entity → Except EntityFault Entity
  | [], e => .ok e
  | txn :: txns, e =>
    match e.txndel txn with
    | .error f => .error f
    | .ok e => txndelAll txns e

/-- `sk_entity_destroy`: in the first phase `opt.destroy` runs; in the second one the transactions
    of the table and of the input queue are destroyed, and the entity is freed. -/
def entityDestroy (m : EntityMgr) (force : Bool) (id : Nat) (e : MgrEntity) :
    Except EntityMgrFault EntityMgr :=
  match e.ent.status with
  | .active => .error (.entity .destroyStatus)
  | .inactive =>
    .ok { m with
      heap := m.heap.set id { e with ent := { e.ent with ud := false } }
      events := m.events ++ [.destroyed id] }
  | .dead =>
    match txndelAll (e.ent.txns ++ e.ent.iqueue) e.ent with
    | .error f => .error (.entity f)
    | .ok _ =>
      .ok { m with
        heap := m.heap.erase id, events := m.events ++ [.freed id e.ent.taskCnt force] }

/-- `sk_entity_mark`. -/
def mark (m : EntityMgr) (id : Nat) (status : EntityStatus) : Except EntityMgrFault EntityMgr :=
  (m.entity id).map fun e => { m with heap := m.heap.set id { e with ent := { e.ent with status } } }

/-- `sk_entity_mgr_add`. -/
def add (m : EntityMgr) (id : Nat) : Except EntityMgrFault EntityMgr :=
  match m.entity id with
  | .error f => .error f
  | .ok e =>
    if e.ent.owned then .error .owner
    else
      .ok { m with
        entityMgr := if id ∈ m.entityMgr then m.entityMgr else m.entityMgr ++ [id]
        heap := m.heap.set id { e with ent := { e.ent with owned := true } }
        stat := m.stat.update e.type false 1 }

/-- `sk_entity_mgr_del`. -/
def del (m : EntityMgr) (id : Nat) : Except EntityMgrFault EntityMgr := do
  let e ← m.entity id
  if ¬ e.ent.owned then .error .owner
  else if e.ent.status = .dead then .ok m
  else
    -- mark it inactive, and destroy the internal data first
    let m ← m.mark id .inactive
    let e ← m.entity id
    let m ← m.entityDestroy false id e
    let m ← m.mark id .dead
    .ok { m with
      inactiveEntities := m.inactiveEntities ++ [id], stat := m.stat.update e.type true 1 }

/-- The loop of `_cleanup_dead_entities` over the list `inactive_entities`. -/
def cleanLoop (force : Bool) : List Nat → EntityMgr → Except EntityMgrFault EntityMgr
  | [], m => .ok m
  | id :: ids, m => do
    let m := { m with inactiveEntities := ids }
    let e ← m.entity id
    if e.ent.taskCnt ≠ (0 : Int) ∧ ¬ force then
      -- still has tasks incomplete: wait for the next round
      cleanLoop force ids { m with tmpEntities := m.tmpEntities ++ [id] }
    else if id ∉ m.entityMgr then .error (.entity .mgrTable)
    else
      let m ← { m with
        stat := m.stat.update e.type true (-1)
        entityMgr := m.entityMgr.erase id }.entityDestroy force id e
      cleanLoop force ids m

/-- `_cleanup_dead_entities`. -/
def cleanDead (force : Bool) (m : EntityMgr) : Except EntityMgrFault EntityMgr := do
  let m ← cleanLoop force m.inactiveEntities m
  -- swap the two lists
  let m := { m with inactiveEntities := m.tmpEntities, tmpEntities := m.inactiveEntities }
  if m.tmpEntities = [] then .ok m else .error .tmpEntities

/-- `sk_entity_mgr_del` for each of a list of entities. -/
def delAll : List Nat → EntityMgr → Except EntityMgrFault EntityMgr
  | [], m => .ok m
  | id :: ids, m => do
    let m ← m.del id
    delAll ids m

/-- `sk_entity_mgr_destroy`. -/
def destroy (m : EntityMgr) : Except EntityMgrFault EntityMgr := do
  let m ← delAll m.entityMgr m
  let m ← m.cleanDead true
  .ok { m with down := true }

/-- `sk_entity_txnadd`. -/
def txnadd (m : EntityMgr) (id : Nat) (txn : TxnId) : Except EntityMgrFault EntityMgr := do
  let e ← m.entity id
  match e.ent.txnadd txn with
  | .error f => .error (.entity f)
  | .ok ent => .ok { m with heap := m.heap.set id { e with ent } }

/-- `sk_entity_txndel`. -/
def txndel (m : EntityMgr) (id : Nat) (txn : TxnId) : Except EntityMgrFault EntityMgr := do
  let e ← m.entity id
  match e.ent.txndel txn with
  | .error f => .error (.entity f)
  | .ok ent => .ok { m with heap := m.heap.set id { e with ent } }

end EntityMgr

/-- What happens to a manager and its entities. -/
inductive MgrAction
  | create (type : EntityType) (concurrent : Bool)
  | add (id : Nat)
  | del (id : Nat)
  | cleanDead
  | txnadd (id : Nat) (txn : TxnId)
  | txndel (id : Nat) (txn : TxnId)
  | destroy
  deriving DecidableEq, Repr

namespace EntityMgr

/-- What the callers keep to: they use entities that exist; an entity is added once, and deleted by
    its manager; a transaction is registered once, and removed when it is. -/
def Allowed (m : EntityMgr) : MgrAction → Prop
  | .create _ _ => True
  | .add id => ∃ e ∈ m.heap.get? id, e.ent.owned = false
  | .del id => ∃ e ∈ m.heap.get? id, e.ent.owned = true
  | .cleanDead => True
  | .txnadd id txn => ∃ e ∈ m.heap.get? id, txn ∉ e.ent.txns
  | .txndel id txn => ∃ e ∈ m.heap.get? id, txn ∈ e.ent.txns
  | .destroy => True

instance (m : EntityMgr) (a : MgrAction) : Decidable (m.Allowed a) :=
  match a with
  | .create _ _ | .cleanDead | .destroy => inferInstanceAs (Decidable True)
  | .add id => inferInstanceAs (Decidable (∃ e ∈ m.heap.get? id, e.ent.owned = false))
  | .del id => inferInstanceAs (Decidable (∃ e ∈ m.heap.get? id, e.ent.owned = true))
  | .txnadd id txn => inferInstanceAs (Decidable (∃ e ∈ m.heap.get? id, txn ∉ e.ent.txns))
  | .txndel id txn => inferInstanceAs (Decidable (∃ e ∈ m.heap.get? id, txn ∈ e.ent.txns))

/-- Run an action. -/
def exec (m : EntityMgr) : MgrAction → Except EntityMgrFault EntityMgr
  | .create type concurrent => .ok (m.entityCreate type concurrent)
  | .add id => m.add id
  | .del id => m.del id
  | .cleanDead => m.cleanDead false
  | .txnadd id txn => m.txnadd id txn
  | .txndel id txn => m.txndel id txn
  | .destroy => m.destroy

/-- The runs of a manager. -/
def machine : Machine EntityMgr MgrAction EntityMgrFault where
  init m := m = create
  enabled m a := m.down = false ∧ m.Allowed a
  exec := exec

instance (m : EntityMgr) (a : MgrAction) : Decidable (machine.enabled m a) :=
  inferInstanceAs (Decidable (m.down = false ∧ m.Allowed a))

/-! ### What is to hold -/

/-- The entities that wait in the lists. -/
def queue (m : EntityMgr) : List Nat := m.inactiveEntities ++ m.tmpEntities

/-- The entity has transactions left. -/
def busy (m : EntityMgr) (id : Nat) : Bool := (m.heap.get? id).any fun e => e.ent.taskCnt ≠ (0 : Int)

/-- A cleanup keeps the entity for the next round. -/
def keeps (m : EntityMgr) (force : Bool) (id : Nat) : Bool := m.busy id && !force

end EntityMgr

/-- The entity that runs its `opt.destroy`. -/
def MgrEvent.destroyedId : MgrEvent → Option Nat
  | .destroyed id => some id
  | .freed _ _ _ => none

/-- The entity that is freed. -/
def MgrEvent.freedId : MgrEvent → Option Nat
  | .destroyed _ => none
  | .freed id _ _ => some id

/-- Every entity that is freed ran its `opt.destroy` before. -/
def DestroyedFirst (events : List MgrEvent) : Prop :=
  ∀ before id taskCnt force after, events = before ++ .freed id taskCnt force :: after →
    .destroyed id ∈ before

namespace EntityMgr

/-- **The accounts of a manager.** -/
structure Accounted (m : EntityMgr) : Prop where
  total : m.stat.total = m.entityMgr.length
  types : m.stat.total = m.stat.typeSum
  inactive : m.stat.inactive = m.inactiveEntities.length
  nodup : m.inactiveEntities.Nodup
  destroyedOnce : (m.events.filterMap MgrEvent.destroyedId).Nodup
  freedOnce : (m.events.filterMap MgrEvent.freedId).Nodup
  destroyedFirst : DestroyedFirst m.events
  unforced : ∀ id taskCnt, .freed id taskCnt false ∈ m.events → taskCnt = 0

/-! ### The invariant -/

/-- The entities that exist, and the lists they are in. -/
structure Held (m : EntityMgr) : Prop where
  txns : ∀ id e, m.heap.get? id = some e →
    e.ent.txns.Nodup ∧ e.ent.taskCnt = e.ent.txns.length ∧ e.ent.iqueue = []
  status : ∀ id e, m.heap.get? id = some e →
    e.ent.status = .dead ∧ id ∈ m.queue ∧ e.ent.owned = true ∨
      e.ent.status = .active ∧ id ∉ m.queue
  table : ∀ id, id ∈ m.entityMgr ↔ ∃ e, m.heap.get? id = some e ∧ e.ent.owned = true
  tableNodup : m.entityMgr.Nodup
  queueNodup : m.queue.Nodup
  queued : ∀ id ∈ m.queue, ∃ e, m.heap.get? id = some e
  fresh : ∀ id e, m.heap.get? id = some e → id < m.created

/-- One for an entity of the type that the manager owns. -/
def ownedOne (type : EntityType) (_ : Nat) (e : MgrEntity) : Int :=
  if e.ent.owned = true ∧ e.type = type then 1 else 0

/-- The counters. -/
structure Counted (m : EntityMgr) : Prop where
  total : m.stat.total = m.entityMgr.length
  types : m.stat.total = m.stat.typeSum
  count : ∀ type, m.stat.count type = m.heap.sum (ownedOne type)
  inactive : m.stat.inactive = m.queue.length

/-- The log: the entities that ran their `opt.destroy` wait in the lists, or were freed. -/
structure Logged (m : EntityMgr) : Prop where
  destroyed : ∀ id, .destroyed id ∈ m.events ↔
    id ∈ m.queue ∨ ∃ taskCnt force, .freed id taskCnt force ∈ m.events
  freed : ∀ id taskCnt force, .freed id taskCnt force ∈ m.events →
    m.heap.get? id = none ∧ id < m.created
  destroyedOnce : (m.events.filterMap MgrEvent.destroyedId).Nodup
  freedOnce : (m.events.filterMap MgrEvent.freedId).Nodup
  destroyedFirst : DestroyedFirst m.events
  unforced : ∀ id taskCnt, .freed id taskCnt false ∈ m.events → taskCnt = 0

/-- **The invariant** of a manager. -/
structure Inv (m : EntityMgr) : Prop where
  held : m.Held
  counted : m.Counted
  logged : m.Logged

/-- A new manager has no entities. -/
theorem create_inv : Inv create where
  held := ⟨by simp [create], by simp [create], by simp [create], .nil, .nil, by simp [create, queue],
    by simp [create]⟩
  counted := ⟨rfl, rfl, fun type => by cases type <;> rfl, rfl⟩
  logged := ⟨by simp [create, queue], by simp [create], .nil, .nil, by
    intro before id taskCnt force after h
    exact absurd h (by simp [create]), by simp [create]⟩

variable {m : EntityMgr} {id : Nat} {e : MgrEntity}

/-- With the second list empty, the invariant says the accounts. -/
theorem Inv.accounted (h : m.Inv) (htmp : m.tmpEntities = []) : m.Accounted where
  total := h.counted.total
  types := h.counted.types
  inactive := by
    have hinactive := h.counted.inactive
    rwa [queue, htmp, List.append_nil] at hinactive
  nodup := by
    have hnodup := h.held.queueNodup
    rwa [queue, htmp, List.append_nil] at hnodup
  destroyedOnce := h.logged.destroyedOnce
  freedOnce := h.logged.freedOnce
  destroyedFirst := h.logged.destroyedFirst
  unforced := h.logged.unforced

/-! ### Changes of one entity -/

/-- The sums after an entity changes that keeps its type and its owner. -/
theorem sum_set_owned (hget : m.heap.get? id = some e) (e' : MgrEntity) (htype : e'.type = e.type)
    (howned : e'.ent.owned = e.ent.owned) (type : EntityType) :
    (m.heap.set id e').sum (ownedOne type) = m.heap.sum (ownedOne type) := by
  have hsum := Dict.sum_set (ownedOne type) m.heap id e'
  have hsame : ownedOne type id e' = ownedOne type id e := by
    simp only [ownedOne, htype, howned]
  rw [Dict.part, hget, Option.elim_some, hsame] at hsum
  omega

/-- A list of transactions that an entity may have registered. -/
def Registered (e : MgrEntity) : Prop :=
  e.ent.txns.Nodup ∧ e.ent.taskCnt = e.ent.txns.length ∧ e.ent.iqueue = []

/-- The lists after the entity `id` was set. -/
theorem Held.set (h : m.Held) {m' : EntityMgr} {e' : MgrEntity}
    (hheap : m'.heap = m.heap.set id e') (htxns : Registered e')
    (hstatus : e'.ent.status = .dead ∧ id ∈ m'.queue ∧ e'.ent.owned = true ∨
      e'.ent.status = .active ∧ id ∉ m'.queue)
    (htable : id ∈ m'.entityMgr ↔ e'.ent.owned = true)
    (htables : ∀ k, k ≠ id → (k ∈ m'.entityMgr ↔ k ∈ m.entityMgr))
    (hqueues : ∀ k, k ≠ id → (k ∈ m'.queue ↔ k ∈ m.queue)) (htableNodup : m'.entityMgr.Nodup)
    (hqueueNodup : m'.queue.Nodup) (hcreated : m.created ≤ m'.created) (hid : id < m'.created) :
    m'.Held := by
  refine ⟨fun k x hx => ?_, fun k x hx => ?_, fun k => ?_, htableNodup, hqueueNodup, fun k hk => ?_,
    fun k x hx => ?_⟩
  · rw [hheap] at hx
    -- each time the entity is the one that was set or another one
    rcases Dict.get?_set_cases hx with ⟨rfl, rfl⟩ | ⟨-, hx⟩
    · exact htxns
    · exact h.txns k x hx
  · rw [hheap] at hx
    rcases Dict.get?_set_cases hx with ⟨rfl, rfl⟩ | ⟨hne, hx⟩
    · exact hstatus
    · rw [hqueues k hne]
      exact h.status k x hx
  · rw [hheap, Dict.get?_set]
    by_cases hk : k = id
    · subst hk
      simp [htable]
    · rw [if_neg hk, htables k hk]
      exact h.table k
  · rw [hheap, Dict.get?_set]
    split
    · exact ⟨e', rfl⟩
    · -- another one in the queue was there before
      rename_i hne
      exact h.queued k ((hqueues k hne).mp hk)
  · rw [hheap] at hx
    rcases Dict.get?_set_cases hx with ⟨rfl, -⟩ | ⟨-, hx⟩
    · exact hid
    · exact Nat.lt_of_lt_of_le (h.fresh k x hx) hcreated

/-- The log after a change of the entity `id`, which was not freed. -/
theorem Logged.set (h : m.Logged) {m' : EntityMgr} {e' : MgrEntity}
    (hheap : m'.heap = m.heap.set id e')
    (hnotFreed : ∀ taskCnt force, .freed id taskCnt force ∉ m.events) (hevents : m'.events = m.events) (hqueue : m'.queue = m.queue)
    (hcreated : m.created ≤ m'.created) : m'.Logged := by
  refine ⟨?_, fun k taskCnt force hk => ?_, ?_, ?_, ?_, ?_⟩
  · rw [hevents, hqueue]
    exact h.destroyed
  · rw [hevents] at hk
    obtain ⟨hnone, hlt⟩ := h.freed k taskCnt force hk
    have hne : k ≠ id := by
      rintro rfl
      exact hnotFreed taskCnt force hk
    rw [hheap, Dict.get?_set_of_ne m.heap e' hne]
    exact ⟨hnone, Nat.lt_of_lt_of_le hlt hcreated⟩
  · rw [hevents]
    exact h.destroyedOnce
  · rw [hevents]
    exact h.freedOnce
  · rw [hevents]
    exact h.destroyedFirst
  · rw [hevents]
    exact h.unforced

/-- An entity that exists was not freed. -/
theorem Logged.not_freed (h : m.Logged) (hget : m.heap.get? id = some e) (taskCnt : Int)
    (force : Bool) : .freed id taskCnt force ∉ m.events := by
  intro hfreed
  exact absurd ((h.freed id taskCnt force hfreed).1.symm.trans hget) (by simp)

/-- The table has the entities with an owner. -/
theorem Held.mem_table (h : m.Held) (hget : m.heap.get? id = some e) :
    id ∈ m.entityMgr ↔ e.ent.owned = true := by simp [h.table id, hget]

/-- **A change of one entity** that keeps its type, its owner and its status keeps the invariant. -/
theorem Inv.setEntity (h : m.Inv) (hget : m.heap.get? id = some e) {e' : MgrEntity}
    (htype : e'.type = e.type) (howned : e'.ent.owned = e.ent.owned)
    (hstatus : e'.ent.status = e.ent.status) (htxns : Registered e') :
    Inv { m with heap := m.heap.set id e' } where
  held := by
    refine h.held.set rfl htxns ?_ ?_ (fun k _ => Iff.rfl) (fun k _ => Iff.rfl) h.held.tableNodup
      h.held.queueNodup (Nat.le_refl _) (h.held.fresh id e hget)
    · rw [hstatus, howned]
      exact h.held.status id e hget
    · rw [howned]
      exact h.held.mem_table hget
  counted := by
    refine ⟨h.counted.total, h.counted.types, fun type => ?_, h.counted.inactive⟩
    show m.stat.count type = (m.heap.set id e').sum (ownedOne type)
    rw [sum_set_owned hget e' htype howned, h.counted.count type]
  logged := h.logged.set rfl (h.logged.not_freed hget) rfl rfl (Nat.le_refl _)

/-- Registering a transaction. -/
theorem Inv.txnadd (h : m.Inv) (hget : m.heap.get? id = some e) {txn : TxnId}
    (hnew : txn ∉ e.ent.txns) : ∃ m', m.txnadd id txn = .ok m' ∧ m'.Inv ∧
      m'.tmpEntities = m.tmpEntities := by
  obtain ⟨hnodup, htaskCnt, hiqueue⟩ := h.held.txns id e hget
  have hpos : e.ent.taskCnt + 1 > 0 := by omega
  have hadd : m.txnadd id txn = .ok { m with heap := m.heap.set id { e with ent :=
      { e.ent with txns := e.ent.txns ++ [txn], taskCnt := e.ent.taskCnt + 1 } } } := by
    simp [EntityMgr.txnadd, entity, hget, bind, Except.bind, Entity.txnadd, hpos]
  refine ⟨_, hadd, h.setEntity hget rfl rfl rfl ⟨?_, ?_, hiqueue⟩, rfl⟩
  · exact List.nodup_append.mpr ⟨hnodup, by simp, fun a ha b hb hab =>
      hnew (by rw [← List.mem_singleton.mp hb, ← hab]; exact ha)⟩
  · simp [htaskCnt]

/-- Removing a transaction. -/
theorem Inv.txndel (h : m.Inv) (hget : m.heap.get? id = some e) {txn : TxnId}
    (hmem : txn ∈ e.ent.txns) : ∃ m', m.txndel id txn = .ok m' ∧ m'.Inv ∧
      m'.tmpEntities = m.tmpEntities := by
  obtain ⟨hnodup, htaskCnt, hiqueue⟩ := h.held.txns id e hget
  have hpos := List.length_pos_of_mem hmem
  have hnat : 1 ≤ e.ent.taskCnt := by omega
  have hdel : m.txndel id txn = .ok { m with heap := m.heap.set id { e with ent :=
      { e.ent with txns := e.ent.txns.erase txn, taskCnt := e.ent.taskCnt - 1 } } } := by
    simp [EntityMgr.txndel, entity, hget, bind, Except.bind, Entity.txndel, hmem, hnat]
  refine ⟨_, hdel, h.setEntity hget rfl rfl rfl ⟨hnodup.erase txn, ?_, hiqueue⟩, rfl⟩
  show e.ent.taskCnt - 1 = (e.ent.txns.erase txn).length
  rw [List.length_erase_of_mem hmem, htaskCnt]
  omega

/-! ### Creating and adding -/

/-- A new entity. -/
theorem Inv.entityCreate (h : m.Inv) (type : EntityType) (concurrent : Bool) :
    (m.entityCreate type concurrent).Inv := by
  have hnew : m.heap.get? m.created = none := by
    cases hget : m.heap.get? m.created with
    | none => rfl
    | some e => exact absurd (h.held.fresh _ e hget) (Nat.lt_irrefl _)
  have hqueue : m.created ∉ m.queue := fun hmem => by
    obtain ⟨e, he⟩ := h.held.queued _ hmem
    exact absurd (hnew.symm.trans he) (by simp)
  set new : MgrEntity :=
    { type
      ent := { owned := false, concurrent, halfTxn := none, txns := [], status := .active
               destroyNotxn := false, taskCnt := 0, iqueue := [], ud := true, rbuf := [] } } with hdef
  have hheap : (m.entityCreate type concurrent).heap = m.heap.set m.created new := rfl
  refine ⟨?_, ⟨h.counted.total, h.counted.types, fun t => ?_, h.counted.inactive⟩, ?_⟩
  · refine h.held.set hheap ⟨.nil, rfl, rfl⟩ (.inr ⟨rfl, hqueue⟩) ?_
      (fun k _ => Iff.rfl) (fun k _ => Iff.rfl) h.held.tableNodup h.held.queueNodup
      (Nat.le_succ _) (Nat.lt_succ_self _)
    -- a new entity has no owner, and is not in the table
    show m.created ∈ m.entityMgr ↔ _
    rw [h.held.table m.created, hnew]
    simp [hdef]
  · show m.stat.count t = (m.heap.set m.created new).sum (ownedOne t)
    rw [Dict.sum_set_new _ hnew, h.counted.count t]
    simp [ownedOne, hdef]
  · refine h.logged.set hheap ?_ rfl rfl (Nat.le_succ _)
    intro taskCnt force hfreed
    exact absurd (h.logged.freed _ taskCnt force hfreed).2 (Nat.lt_irrefl _)

/-- An entity that is not dead is in no list. -/
theorem Held.not_queued (h : m.Held) (hget : m.heap.get? id = some e)
    (hstatus : e.ent.status ≠ .dead) : e.ent.status = .active ∧ id ∉ m.queue :=
  (h.status id e hget).resolve_left fun hdead => hstatus hdead.1

/-- The counters after an entity is added. -/
theorem Counted.add (h : m.Counted) (hget : m.heap.get? id = some e) (howned : e.ent.owned = false)
    {m' : EntityMgr} {e' : MgrEntity} (hheap : m'.heap = m.heap.set id e')
    (htype : e'.type = e.type) (howned' : e'.ent.owned = true)
    (htable : m'.entityMgr = m.entityMgr ++ [id]) (hqueue : m'.queue = m.queue)
    (hstat : m'.stat = { m.stat with total := m.stat.total + 1 }.addType 1 e.type) :
    m'.Counted := by
  refine ⟨?_, ?_, fun type => ?_, ?_⟩
  · have htotal := h.total
    rw [hstat, htable]
    simp only [EntityMgrStat.addType_total, List.length_append, List.length_singleton]
    omega
  · have htypes := h.types
    rw [hstat]
    simp only [EntityMgrStat.addType_total, EntityMgrStat.addType_typeSum]
    rw [htypes]
    rfl
  · -- the entity counts one for its type, where it counted nothing
    have hsum := Dict.sum_set (ownedOne type) m.heap id e'
    have hcount := h.count type
    have hold : ownedOne type id e = 0 := by simp [ownedOne, howned]
    have hone : ownedOne type id e' = if type = e.type then 1 else 0 := by
      simp [ownedOne, htype, howned', eq_comm]
    have hsame : ({ m.stat with total := m.stat.total + 1 } : EntityMgrStat).count type =
        m.stat.count type := by
      cases type <;> rfl
    rw [Dict.part, hget, Option.elim_some, hold, hone] at hsum
    rw [hstat, hheap]
    simp only [EntityMgrStat.addType_count, hsame]
    omega
  · rw [hstat, hqueue, EntityMgrStat.addType_inactive]
    exact h.inactive

/-- **Adding** an entity without an owner. -/
theorem Inv.add (h : m.Inv) (hget : m.heap.get? id = some e) (howned : e.ent.owned = false) :
    ∃ m', m.add id = .ok m' ∧ m'.Inv ∧ m'.tmpEntities = m.tmpEntities := by
  have hnew : id ∉ m.entityMgr := by
    rw [h.held.mem_table hget, howned]
    simp
  have hstatus : e.ent.status = .active ∧ id ∉ m.queue := by
    refine (h.held.status id e hget).resolve_left ?_
    rintro ⟨-, -, hdead⟩
    exact absurd (howned.symm.trans hdead) (by simp)
  set e' : MgrEntity := { e with ent := { e.ent with owned := true } } with hdef
  have hadd : m.add id = .ok { m with
      entityMgr := m.entityMgr ++ [id], heap := m.heap.set id e'
      stat := { m.stat with total := m.stat.total + 1 }.addType 1 e.type } := by
    simp [EntityMgr.add, entity, hget, howned, hnew, EntityMgrStat.update, hdef]
  refine ⟨_, hadd, ⟨?_, h.counted.add hget howned rfl rfl rfl rfl rfl rfl,
    h.logged.set rfl (h.logged.not_freed hget) rfl rfl (Nat.le_refl _)⟩, rfl⟩
  have htable : (m.entityMgr ++ [id]).Nodup :=
    List.nodup_append.mpr ⟨h.held.tableNodup, by simp, fun a ha b hb hab =>
      hnew (by rw [← List.mem_singleton.mp hb, ← hab]; exact ha)⟩
  refine h.held.set rfl (h.held.txns id e hget) (.inr hstatus) ?_ (fun k hk => ?_)
    (fun k _ => Iff.rfl) htable h.held.queueNodup (Nat.le_refl _) (h.held.fresh id e hget)
  · exact iff_of_true (List.mem_append_right _ (List.mem_singleton_self id)) rfl
  · simp [hk]

/-! ### Deleting -/

/-- The log after `opt.destroy` ran for an entity that now waits in the list. -/
theorem DestroyedFirst.destroyed {events : List MgrEvent} (h : DestroyedFirst events) (id : Nat) :
    DestroyedFirst (events ++ [.destroyed id]) := by
  intro before k taskCnt force after heq
  rcases List.eq_nil_or_concat after with rfl | ⟨rest, last, rfl⟩
  · have hlast := (List.append_inj' heq rfl).2
    exact absurd (List.cons.inj hlast).1 (by simp)
  · rw [List.concat_eq_append, ← List.cons_append, ← List.append_assoc] at heq
    exact h before k taskCnt force rest (List.append_inj' heq rfl).1

/-- The log after an entity is freed that ran its `opt.destroy`. -/
theorem DestroyedFirst.freed {events : List MgrEvent} (h : DestroyedFirst events) {id : Nat}
    (hid : .destroyed id ∈ events) (taskCnt : Int) (force : Bool) :
    DestroyedFirst (events ++ [.freed id taskCnt force]) := by
  intro before k count forced after heq
  rcases List.eq_nil_or_concat after with rfl | ⟨rest, last, rfl⟩
  · obtain ⟨hbefore, hlast⟩ := List.append_inj' heq rfl
    injection hlast with hlast
    injection hlast with hk
    rw [← hbefore, ← hk]
    exact hid
  · rw [List.concat_eq_append, ← List.cons_append, ← List.append_assoc] at heq
    exact h before k count forced rest (List.append_inj' heq rfl).1

/-- The log after `opt.destroy` ran for an entity that now waits. -/
theorem Logged.del (h : m.Logged) (hget : m.heap.get? id = some e) (hwaits : id ∉ m.queue)
    {m' : EntityMgr} {e' : MgrEntity} (hheap : m'.heap = m.heap.set id e')
    (hevents : m'.events = m.events ++ [.destroyed id])
    (hqueue : ∀ k, k ∈ m'.queue ↔ k = id ∨ k ∈ m.queue) (hcreated : m'.created = m.created) :
    m'.Logged := by
  -- an entity that waits in no queue was not destroyed before
  have hnotDestroyed : .destroyed id ∉ m.events := fun hmem => by
    rcases (h.destroyed id).mp hmem with hq | ⟨taskCnt, force, hfreed⟩
    · exact hwaits hq
    · exact h.not_freed hget taskCnt force hfreed
  have hfreed : ∀ k taskCnt force, MgrEvent.freed k taskCnt force ∈ m'.events ↔
      MgrEvent.freed k taskCnt force ∈ m.events := by
    intro k taskCnt force
    simp [hevents]
  refine ⟨fun k => ?_, fun k taskCnt force hk => ?_, ?_, ?_, ?_, fun k taskCnt hk => ?_⟩
  · simp only [hqueue k, hfreed]
    rw [hevents]
    simp only [List.mem_append, h.destroyed k, List.mem_singleton, MgrEvent.destroyed.injEq]
    exact or_right_comm.trans (or_congr_left or_comm)
  · -- one that was freed before is another one
    obtain ⟨hnone, hlt⟩ := h.freed k taskCnt force ((hfreed k taskCnt force).mp hk)
    have hne : k ≠ id := by
      rintro rfl
      exact absurd (hnone.symm.trans hget) (by simp)
    rw [hheap, Dict.get?_set_of_ne m.heap e' hne, hcreated]
    exact ⟨hnone, hlt⟩
  · -- `opt.destroy` ran for the first time
    rw [hevents, List.filterMap_append]
    refine List.nodup_append.mpr ⟨h.destroyedOnce, by simp [MgrEvent.destroyedId], ?_⟩
    intro a ha b hb hab
    obtain rfl : b = id := by simpa [MgrEvent.destroyedId] using hb
    obtain ⟨event, hevent, hida⟩ := List.mem_filterMap.mp ha
    cases event with
    | destroyed k =>
      have hk : k = a := Option.some.inj hida
      exact hnotDestroyed (by rw [← hab, ← hk]; exact hevent)
    | freed k taskCnt force => exact absurd hida (by simp [MgrEvent.destroyedId])
  · have hnil : [MgrEvent.destroyed id].filterMap MgrEvent.freedId = [] := rfl
    rw [hevents, List.filterMap_append, hnil, List.append_nil]
    exact h.freedOnce
  · rw [hevents]
    exact DestroyedFirst.destroyed h.destroyedFirst id
  · exact h.unforced k taskCnt ((hfreed k taskCnt false).mp hk)

/-- **Deleting** an entity of the manager: it runs its `opt.destroy` and waits, unless it does so
    already. -/
theorem Inv.del (h : m.Inv) (htmp : m.tmpEntities = []) (hget : m.heap.get? id = some e)
    (howned : e.ent.owned = true) :
    ∃ m', m.del id = .ok m' ∧ m'.Inv ∧ m'.tmpEntities = [] ∧ m'.entityMgr = m.entityMgr := by
  by_cases hdead : e.ent.status = .dead
  · refine ⟨m, ?_, h, htmp, rfl⟩
    simp [EntityMgr.del, entity, hget, howned, hdead, bind, Except.bind]
  · obtain ⟨hactive, hwaits⟩ := h.held.not_queued hget hdead
    set e' : MgrEntity := { e with ent := { e.ent with status := .dead, ud := false } } with hdef
    have hdel : m.del id = .ok { m with
        heap := m.heap.set id e', events := m.events ++ [.destroyed id]
        inactiveEntities := m.inactiveEntities ++ [id]
        stat := { m.stat with inactive := m.stat.inactive + 1 } } := by
      simp [EntityMgr.del, entity, hget, howned, hactive, bind, Except.bind, mark, Except.map,
        entityDestroy, EntityMgrStat.update, hdef]
    -- it is the last one that waits
    have hqueue : ∀ k, k ∈ m.inactiveEntities ++ [id] ++ m.tmpEntities ↔ k = id ∨ k ∈ m.queue := by
      intro k
      simp only [queue, htmp, List.append_nil, List.mem_append, List.mem_singleton]
      exact or_comm
    have hnodup : (m.inactiveEntities ++ [id] ++ m.tmpEntities).Nodup := by
      have hold := h.held.queueNodup
      rw [queue, htmp, List.append_nil] at hold hwaits
      rw [htmp, List.append_nil]
      exact List.nodup_append.mpr ⟨hold, by simp, fun a ha b hb hab =>
        hwaits (by rw [← List.mem_singleton.mp hb, ← hab]; exact ha)⟩
    refine ⟨_, hdel, ⟨?_, ⟨h.counted.total, h.counted.types, fun type => ?_, ?_⟩, ?_⟩, htmp, rfl⟩
    · refine h.held.set rfl (h.held.txns id e hget) (.inl ⟨rfl, (hqueue id).mpr (.inl rfl), howned⟩)
        ((h.held.mem_table hget).trans Iff.rfl) (fun k _ => Iff.rfl) (fun k hk => ?_)
        h.held.tableNodup hnodup (Nat.le_refl _) (h.held.fresh id e hget)
      exact (hqueue k).trans (or_iff_right hk)
    · show m.stat.count type = (m.heap.set id e').sum (ownedOne type)
      rw [sum_set_owned hget e' rfl rfl, h.counted.count type]
    · have hinactive := h.counted.inactive
      simp only [queue, htmp, List.append_nil] at hinactive ⊢
      rw [List.length_append, List.length_singleton, hinactive]
      rfl
    · exact h.logged.del hget hwaits rfl rfl hqueue rfl

/-! ### Cleaning up -/

/-- Destroying the registered transactions never fails. -/
theorem txndelAll_ok (txns : List TxnId) : ∀ ent : Entity, ent.txns = txns →
    ent.taskCnt = txns.length → ∃ ent', txndelAll txns ent = .ok ent' := by
  induction txns with
  | nil => exact fun ent _ _ => ⟨ent, rfl⟩
  | cons txn txns ih =>
    intro ent htxns htaskCnt
    have hmem : txn ∈ ent.txns := by rw [htxns]; exact List.mem_cons_self
    rw [List.length_cons] at htaskCnt
    have hpos : ent.taskCnt - 1 ≥ 0 := by omega
    have hdel : ent.txndel txn =
        .ok { ent with txns := ent.txns.erase txn, taskCnt := ent.taskCnt - 1 } := by
      rw [Entity.txndel, if_pos hmem]
      exact if_pos hpos
    obtain ⟨ent', hrest⟩ := ih { ent with txns := ent.txns.erase txn, taskCnt := ent.taskCnt - 1 }
      (by rw [htxns, List.erase_cons_head]) (by show ent.taskCnt - 1 = _; omega)
    exact ⟨ent', by rw [txndelAll, hdel]; exact hrest⟩

/-- The state after an entity of the list is freed. -/
def afterFree (m : EntityMgr) (force : Bool) (id : Nat) (e : MgrEntity) (ids : List Nat) :
    EntityMgr :=
  { m with
    heap := m.heap.erase id, entityMgr := m.entityMgr.erase id, inactiveEntities := ids
    stat := m.stat.update e.type true (-1)
    events := m.events ++ [.freed id e.ent.taskCnt force] }

/-- The lists after the entity at the head is freed. -/
theorem Held.free (h : m.Held) {ids : List Nat} (force : Bool) (hnodup : (ids ++ m.tmpEntities).Nodup)
    (hqueue : ∀ k, k ∈ ids ++ m.tmpEntities ↔ k ≠ id ∧ k ∈ m.queue) :
    (m.afterFree force id e ids).Held := by
  refine ⟨fun k x hx => ?_, fun k x hx => ?_, fun k => ?_, h.tableNodup.erase id, hnodup,
    fun k hk => ?_, fun k x hx => ?_⟩
  · exact h.txns k x (Dict.get?_erase_some hx).2
  · obtain ⟨hne, hx⟩ := Dict.get?_erase_some hx
    show x.ent.status = .dead ∧ k ∈ ids ++ m.tmpEntities ∧ _ ∨
      x.ent.status = .active ∧ k ∉ ids ++ m.tmpEntities
    rw [hqueue k]
    simp only [ne_eq, hne, not_false_eq_true, true_and]
    exact h.status k x hx
  · show k ∈ m.entityMgr.erase id ↔ ∃ x, (m.heap.erase id).get? k = some x ∧ x.ent.owned = true
    rw [h.tableNodup.mem_erase_iff, h.table k, Dict.get?_erase]
    by_cases hk : k = id
    · simp [hk]
    · simp [hk]
  · obtain ⟨hne, hk⟩ := (hqueue k).mp hk
    obtain ⟨x, hx⟩ := h.queued k hk
    refine ⟨x, ?_⟩
    show (m.heap.erase id).get? k = some x
    rw [Dict.get?_erase, if_neg hne]
    exact hx
  · exact h.fresh k x (Dict.get?_erase_some hx).2

/-- The counters after an entity of the table is freed. -/
theorem Counted.free (h : m.Counted) (hget : m.heap.get? id = some e) (howned : e.ent.owned = true)
    (htable : id ∈ m.entityMgr) {ids : List Nat} (force : Bool)
    (hqueue : m.queue = id :: (ids ++ m.tmpEntities)) : (m.afterFree force id e ids).Counted := by
  set stat : EntityMgrStat :=
    { m.stat with inactive := m.stat.inactive + -1, total := m.stat.total + -1 } with hstat
  -- the update takes one from the total, the type and the inactive ones
  have hupdate : m.stat.update e.type true (-1) = stat.addType (-1) e.type := by
    simp [EntityMgrStat.update, hstat]
  refine ⟨?_, ?_, fun type => ?_, ?_⟩
  · have htotal := h.total
    have hpos := List.length_pos_of_mem htable
    show (m.stat.update e.type true (-1)).total = (m.entityMgr.erase id).length
    rw [hupdate, EntityMgrStat.addType_total, List.length_erase_of_mem htable]
    show m.stat.total + -1 = _
    omega
  · -- the total and the sum over the types lose one each
    have htypes := h.types
    show (m.stat.update e.type true (-1)).total = (m.stat.update e.type true (-1)).typeSum
    rw [hupdate, EntityMgrStat.addType_total, EntityMgrStat.addType_typeSum]
    show m.stat.total + -1 = m.stat.typeSum + -1
    rw [htypes]
  · -- the entity counted one for its type
    have hsum := Dict.sum_erase (ownedOne type) m.heap id
    have hcount := h.count type
    have hone : ownedOne type id e = if type = e.type then 1 else 0 := by
      simp [ownedOne, howned, eq_comm]
    have hsame : stat.count type = m.stat.count type := by cases type <;> rfl
    rw [Dict.part, hget, Option.elim_some, hone] at hsum
    show (m.stat.update e.type true (-1)).count type = (m.heap.erase id).sum (ownedOne type)
    rw [hupdate, EntityMgrStat.addType_count, hsame]
    by_cases htype : type = e.type
    · rw [if_pos htype] at hsum ⊢
      omega
    · rw [if_neg htype] at hsum ⊢
      omega
  · -- it leaves the queue of the inactive ones
    have hinactive := h.inactive
    rw [hqueue, List.length_cons] at hinactive
    show (m.stat.update e.type true (-1)).inactive = (ids ++ m.tmpEntities).length
    rw [hupdate, EntityMgrStat.addType_inactive]
    show m.stat.inactive + -1 = _
    omega

/-- The log after an entity is freed that waited. -/
theorem Logged.free (h : m.Logged) (hget : m.heap.get? id = some e) (hid : id < m.created)
    {ids : List Nat} (force : Bool) (hunforced : force = false → e.ent.taskCnt = 0)
    (hmem : id ∈ m.queue) (hqueue : ∀ k, k ∈ ids ++ m.tmpEntities ↔ k ≠ id ∧ k ∈ m.queue) :
    (m.afterFree force id e ids).Logged := by
  have hdestroyed : MgrEvent.destroyed id ∈ m.events := (h.destroyed id).mpr (.inl hmem)
  refine ⟨fun k => ?_, fun k taskCnt f hk => ?_, ?_, ?_, ?_, fun k taskCnt hk => ?_⟩
  · show MgrEvent.destroyed k ∈ m.events ++ [.freed id e.ent.taskCnt force] ↔
      k ∈ ids ++ m.tmpEntities ∨
        ∃ taskCnt f, MgrEvent.freed k taskCnt f ∈ m.events ++ [.freed id e.ent.taskCnt force]
    rw [List.mem_append, h.destroyed k, hqueue k]
    -- the one that is freed was destroyed before, and the others are as they were
    by_cases hk : k = id
    · subst hk
      refine iff_of_true (.inl (.inl hmem)) (.inr ⟨e.ent.taskCnt, force, by simp⟩)
    · simp [hk]
  · -- what was freed before is free still
    rcases List.mem_append.mp hk with hk | hk
    · obtain ⟨hnone, hlt⟩ := h.freed k taskCnt f hk
      refine ⟨?_, hlt⟩
      show (m.heap.erase id).get? k = none
      rw [Dict.get?_erase]
      split
      · rfl
      · exact hnone
    · -- the one that is freed now is not in the heap any more
      obtain ⟨rfl, -, -⟩ := MgrEvent.freed.inj (List.mem_singleton.mp hk)
      refine ⟨?_, hid⟩
      show (m.heap.erase k).get? k = none
      rw [Dict.get?_erase, if_pos rfl]
  · have hnil : [MgrEvent.freed id e.ent.taskCnt force].filterMap MgrEvent.destroyedId = [] := rfl
    show ((m.events ++ [MgrEvent.freed id e.ent.taskCnt force]).filterMap MgrEvent.destroyedId).Nodup
    rw [List.filterMap_append, hnil, List.append_nil]
    exact h.destroyedOnce
  · -- it exists, so it was not freed before
    show ((m.events ++ [MgrEvent.freed id e.ent.taskCnt force]).filterMap MgrEvent.freedId).Nodup
    rw [List.filterMap_append]
    refine List.nodup_append.mpr ⟨h.freedOnce, by simp [MgrEvent.freedId], ?_⟩
    intro a ha b hb hab
    obtain rfl : b = id := by simpa [MgrEvent.freedId] using hb
    obtain ⟨event, hevent, hida⟩ := List.mem_filterMap.mp ha
    cases event with
    | destroyed k => exact absurd hida (by simp [MgrEvent.freedId])
    | freed k taskCnt f =>
      have hk : k = a := Option.some.inj hida
      exact h.not_freed hget taskCnt f (by rw [← hab, ← hk]; exact hevent)
  · exact DestroyedFirst.freed h.destroyedFirst hdestroyed e.ent.taskCnt force
  · rcases List.mem_append.mp hk with hk | hk
    · exact h.unforced k taskCnt hk
    · obtain ⟨-, rfl, rfl⟩ := MgrEvent.freed.inj (List.mem_singleton.mp hk)
      exact hunforced rfl

/-- **Freeing** the entity at the head of the list. -/
theorem Inv.free (h : m.Inv) {ids : List Nat} (hids : m.inactiveEntities = id :: ids)
    (hget : m.heap.get? id = some e) (force : Bool)
    (hunforced : force = false → e.ent.taskCnt = 0) : (m.afterFree force id e ids).Inv := by
  have hqueue : m.queue = id :: (ids ++ m.tmpEntities) := by rw [queue, hids, List.cons_append]
  have hmem : id ∈ m.queue := by rw [hqueue]; exact List.mem_cons_self
  have hnodup := h.held.queueNodup
  rw [hqueue, List.nodup_cons] at hnodup
  have hrest : ∀ k, k ∈ ids ++ m.tmpEntities ↔ k ≠ id ∧ k ∈ m.queue := by
    intro k
    rw [hqueue, List.mem_cons]
    constructor
    · exact fun hk => ⟨fun heq => hnodup.1 (heq ▸ hk), .inr hk⟩
    · exact fun ⟨hne, hk⟩ => hk.resolve_left hne
  -- what waits in the list is dead, and still owned
  have howned : e.ent.owned = true := by
    rcases h.held.status id e hget with ⟨-, -, howned⟩ | ⟨-, hno⟩
    · exact howned
    · exact absurd hmem hno
  exact ⟨h.held.free force hnodup.2 hrest,
    h.counted.free hget howned ((h.held.mem_table hget).mpr howned) force hqueue,
    h.logged.free hget (h.held.fresh id e hget) force hunforced hmem hrest⟩

/-- **Keeping** the entity at the head of the list for the next round. -/
theorem Inv.wait (h : m.Inv) {ids : List Nat} (hids : m.inactiveEntities = id :: ids) :
    Inv { m with inactiveEntities := ids, tmpEntities := m.tmpEntities ++ [id] } := by
  have hperm : (ids ++ (m.tmpEntities ++ [id])).Perm m.queue := by
    rw [queue, hids, ← List.append_assoc, List.cons_append]
    exact List.perm_append_singleton id _
  refine ⟨⟨h.held.txns, fun k x hx => ?_, h.held.table, h.held.tableNodup,
    hperm.nodup_iff.mpr h.held.queueNodup, fun k hk => h.held.queued k (hperm.mem_iff.mp hk),
    h.held.fresh⟩, ⟨h.counted.total, h.counted.types, h.counted.count, ?_⟩,
    ⟨fun k => ?_, h.logged.freed, h.logged.destroyedOnce, h.logged.freedOnce,
      h.logged.destroyedFirst, h.logged.unforced⟩⟩
  · show x.ent.status = .dead ∧ k ∈ ids ++ (m.tmpEntities ++ [id]) ∧ _ ∨
      x.ent.status = .active ∧ k ∉ ids ++ (m.tmpEntities ++ [id])
    rw [hperm.mem_iff]
    exact h.held.status k x hx
  · show m.stat.inactive = (ids ++ (m.tmpEntities ++ [id])).length
    rw [hperm.length_eq]
    exact h.counted.inactive
  · show _ ↔ k ∈ ids ++ (m.tmpEntities ++ [id]) ∨ _
    rw [hperm.mem_iff]
    exact h.logged.destroyed k

/-- A turn of the loop that keeps the entity. -/
theorem cleanLoop_wait (force : Bool) (ids : List Nat) (hget : m.heap.get? id = some e)
    (hbusy : e.ent.taskCnt ≠ 0 ∧ ¬ force) : cleanLoop force (id :: ids) m =
      cleanLoop force ids
        { m with inactiveEntities := ids, tmpEntities := m.tmpEntities ++ [id] } := by
  simp [cleanLoop, entity, hget, bind, Except.bind, hbusy]

/-- A turn of the loop that frees the entity. -/
theorem cleanLoop_free (h : m.Inv) {force : Bool} {ids : List Nat}
    (hids : m.inactiveEntities = id :: ids) (hget : m.heap.get? id = some e)
    (hfree : ¬ (e.ent.taskCnt ≠ 0 ∧ ¬ force)) :
    cleanLoop force (id :: ids) m = cleanLoop force ids (m.afterFree force id e ids) := by
  have hmem : id ∈ m.queue := by rw [queue, hids]; simp
  obtain ⟨hdead, -, howned⟩ :=
    (h.held.status id e hget).resolve_right fun hactive => hactive.2 hmem
  have htable : id ∈ m.entityMgr := (h.held.table id).mpr ⟨e, hget, howned⟩
  obtain ⟨-, htaskCnt, hiqueue⟩ := h.held.txns id e hget
  obtain ⟨ent', hdel⟩ := txndelAll_ok e.ent.txns e.ent rfl htaskCnt
  rw [← List.append_nil e.ent.txns, ← hiqueue] at hdel
  rw [cleanLoop]
  simp only [entity, hget, bind, Except.bind]
  rw [if_neg hfree, if_neg (not_not.mpr htable)]
  simp only [entityDestroy, hdead, hdel]
  rfl

/-- **The loop of `_cleanup_dead_entities`** never aborts and keeps the invariant: the entities with
    transactions left are kept, in their order, unless the cleanup is forced. -/
theorem cleanLoop_spec (force : Bool) (ids : List Nat) : ∀ {m : EntityMgr}, m.Inv →
    m.inactiveEntities = ids → ∃ m', cleanLoop force ids m = .ok m' ∧ m'.Inv ∧
      m'.inactiveEntities = [] ∧ m'.tmpEntities = m.tmpEntities ++ ids.filter (m.keeps force) ∧
      ∀ k x, m'.heap.get? k = some x → m.heap.get? k = some x := by
  induction ids with
  | nil =>
    intro m h hids
    exact ⟨m, rfl, h, hids, by simp, fun _ _ hx => hx⟩
  | cons id ids ih =>
    intro m h hids
    have hqueued : id ∈ m.queue := by rw [queue, hids]; simp
    obtain ⟨e, hget⟩ := h.held.queued id hqueued
    by_cases hbusy : e.ent.taskCnt ≠ 0 ∧ ¬ force
    · obtain ⟨m', hloop, hinv, hempty, htmp, hheap⟩ := ih (h.wait hids) rfl
      refine ⟨m', by rw [cleanLoop_wait force ids hget hbusy, hloop], hinv, hempty, ?_, hheap⟩
      have hkept : m.keeps force id = true := by
        simp [keeps, busy, hget, hbusy]
      rw [htmp, List.filter_cons_of_pos hkept]
      show m.tmpEntities ++ [id] ++ ids.filter (m.keeps force) = _
      rw [List.append_assoc]
      rfl
    · have hfreed := h.free hids hget force fun hforce => by
        by_contra hne
        exact hbusy ⟨hne, by simp [hforce]⟩
      obtain ⟨m', hloop, hinv, hempty, htmp, hheap⟩ := ih hfreed rfl
      refine ⟨m', by rw [cleanLoop_free h hids hget hbusy, hloop], hinv, hempty, ?_,
        fun k x hx => (Dict.get?_erase_some (hheap k x hx)).2⟩
      have hgone : ¬ m.keeps force id = true := by
        intro hkept
        rw [keeps, Bool.and_eq_true] at hkept
        exact hbusy ⟨by simpa [busy, hget] using hkept.1, by simpa using hkept.2⟩
      -- the entities behind it are not touched
      have hnodup := h.held.queueNodup
      rw [queue, hids, List.cons_append, List.nodup_cons] at hnodup
      have hfilter : ids.filter ((m.afterFree force id e ids).keeps force) =
          ids.filter (m.keeps force) := by
        refine List.filter_congr fun k hk => ?_
        have hne : k ≠ id := fun heq => hnodup.1 (List.mem_append_left _ (heq ▸ hk))
        simp only [keeps, busy, afterFree, Dict.get?_erase, if_neg hne]
      rw [htmp, hfilter, List.filter_cons_of_neg hgone]
      rfl

/-- **Cleaning up** leaves the entities with transactions left in the list, in their order. -/
theorem Inv.cleanDead (h : m.Inv) (htmp : m.tmpEntities = []) (force : Bool) :
    ∃ m', m.cleanDead force = .ok m' ∧ m'.Inv ∧ m'.tmpEntities = [] ∧
      m'.inactiveEntities = m.inactiveEntities.filter (m.keeps force) ∧
      ∀ k x, m'.heap.get? k = some x → m.heap.get? k = some x := by
  -- the loop leaves those that are kept in the other queue, and the two are swapped
  obtain ⟨m₁, hloop, hinv, hempty, hkept, hheap⟩ := cleanLoop_spec force m.inactiveEntities h rfl
  rw [htmp, List.nil_append] at hkept
  refine ⟨{ m₁ with inactiveEntities := m₁.tmpEntities, tmpEntities := m₁.inactiveEntities },
    ?_, ?_, hempty, hkept, hheap⟩
  · simp [EntityMgr.cleanDead, hloop, hempty, bind, Except.bind]
  · -- the queue as a whole is the same
    have hqueue : m₁.tmpEntities ++ m₁.inactiveEntities = m₁.queue := by
      rw [queue, hempty, List.append_nil, List.nil_append]
    have hheld := hinv.held
    have hlogged := hinv.logged
    have hcounted := hinv.counted
    refine ⟨⟨hheld.txns, fun k x hx => ?_, hheld.table, hheld.tableNodup, ?_, fun k hk => ?_,
      hheld.fresh⟩, ⟨hcounted.total, hcounted.types, hcounted.count, ?_⟩,
      ⟨fun k => ?_, hlogged.freed, hlogged.destroyedOnce, hlogged.freedOnce,
        hlogged.destroyedFirst, hlogged.unforced⟩⟩
    · show x.ent.status = .dead ∧ k ∈ m₁.tmpEntities ++ m₁.inactiveEntities ∧ _ ∨
        x.ent.status = .active ∧ k ∉ m₁.tmpEntities ++ m₁.inactiveEntities
      rw [hqueue]
      exact hheld.status k x hx
    · show (m₁.tmpEntities ++ m₁.inactiveEntities).Nodup
      rw [hqueue]
      exact hheld.queueNodup
    · rw [queue, hqueue] at hk
      exact hheld.queued k hk
    · show m₁.stat.inactive = (m₁.tmpEntities ++ m₁.inactiveEntities).length
      rw [hqueue]
      exact hcounted.inactive
    · show _ ↔ k ∈ m₁.tmpEntities ++ m₁.inactiveEntities ∨ _
      rw [hqueue]
      exact hlogged.destroyed k

/-! ### Destroying the manager -/

/-- Deleting entities of the table. -/
theorem delAll_spec (ids : List Nat) : ∀ {m : EntityMgr}, m.Inv → m.tmpEntities = [] →
    (∀ id ∈ ids, id ∈ m.entityMgr) →
    ∃ m', delAll ids m = .ok m' ∧ m'.Inv ∧ m'.tmpEntities = [] := by
  induction ids with
  | nil => exact fun h htmp _ => ⟨_, rfl, h, htmp⟩
  | cons id ids ih =>
    intro m h htmp hids
    obtain ⟨e, hget, howned⟩ := (h.held.table id).mp (hids id (by simp))
    obtain ⟨m₁, hdel, hinv₁, htmp₁, htable⟩ := h.del htmp hget howned
    obtain ⟨m', hrest, hinv', htmp'⟩ := ih hinv₁ htmp₁ fun k hk => by
      rw [htable]
      exact hids k (by simp [hk])
    exact ⟨m', by simp [delAll, hdel, hrest, bind, Except.bind], hinv', htmp'⟩

/-- **Destroying the manager** never aborts. -/
theorem Inv.destroy (h : m.Inv) (htmp : m.tmpEntities = []) :
    ∃ m', m.destroy = .ok m' ∧ m'.Inv ∧ m'.tmpEntities = [] := by
  obtain ⟨m₁, hdel, hinv₁, htmp₁⟩ := delAll_spec m.entityMgr h htmp fun _ hk => hk
  obtain ⟨m₂, hclean, hinv₂, htmp₂, -⟩ := hinv₁.cleanDead htmp₁ true
  refine ⟨{ m₂ with down := true }, ?_, ?_, htmp₂⟩
  · simp [EntityMgr.destroy, hdel, hclean, bind, Except.bind]
  · have hheld := hinv₂.held
    have hcounted := hinv₂.counted
    have hlogged := hinv₂.logged
    exact ⟨⟨hheld.txns, hheld.status, hheld.table, hheld.tableNodup, hheld.queueNodup, hheld.queued,
      hheld.fresh⟩, ⟨hcounted.total, hcounted.types, hcounted.count, hcounted.inactive⟩,
      ⟨hlogged.destroyed, hlogged.freed, hlogged.destroyedOnce, hlogged.freedOnce,
        hlogged.destroyedFirst, hlogged.unforced⟩⟩

/-! ### Runs -/

/-- **An action** that the callers may do never aborts, and keeps the invariant. -/
theorem Inv.exec (h : m.Inv) (htmp : m.tmpEntities = []) {a : MgrAction} (ha : m.Allowed a) :
    ∃ m', m.exec a = .ok m' ∧ m'.Inv ∧ m'.tmpEntities = [] := by
  cases a with
  | create type concurrent => exact ⟨_, rfl, h.entityCreate type concurrent, htmp⟩
  | add id =>
    obtain ⟨e, hget, howned⟩ := ha
    obtain ⟨m', hadd, hinv, htmp'⟩ := h.add hget howned
    exact ⟨m', hadd, hinv, htmp'.trans htmp⟩
  | del id =>
    obtain ⟨e, hget, howned⟩ := ha
    obtain ⟨m', hdel, hinv, htmp', -⟩ := h.del htmp hget howned
    exact ⟨m', hdel, hinv, htmp'⟩
  | cleanDead =>
    obtain ⟨m', hclean, hinv, htmp', -⟩ := h.cleanDead htmp false
    exact ⟨m', hclean, hinv, htmp'⟩
  | txnadd id txn =>
    obtain ⟨e, hget, hnew⟩ := ha
    obtain ⟨m', hadd, hinv, htmp'⟩ := h.txnadd hget hnew
    exact ⟨m', hadd, hinv, htmp'.trans htmp⟩
  | txndel id txn =>
    obtain ⟨e, hget, hmem⟩ := ha
    obtain ⟨m', hdel, hinv, htmp'⟩ := h.txndel hget hmem
    exact ⟨m', hdel, hinv, htmp'.trans htmp⟩
  | destroy => exact h.destroy htmp

/-- Every state that is reached has the invariant. -/
theorem reach_inv (hm : machine.Reach Machine.anyStep m) : m.Inv ∧ m.tmpEntities = [] := by
  refine hm.invariant (I := fun m => m.Inv ∧ m.tmpEntities = []) ?_ ?_
  · rintro m rfl
    exact ⟨create_inv, rfl⟩
  · rintro m a t ⟨h, htmp⟩ ⟨-, ha⟩ - hx
    obtain ⟨m', hexec, hinv⟩ := h.exec htmp ha
    obtain rfl : m' = t := Except.ok.inj (hexec.symm.trans hx)
    exact hinv

/-- **The accounts of an entity manager.** In every state that a manager reaches its counters and
    lists are right, and its entities were destroyed and freed in order, once; nothing that its
    callers may do aborts, and a cleanup leaves exactly the dead entities with transactions left in
    the list. -/
theorem run_accounted (hm : machine.Reach Machine.anyStep m) : m.Accounted ∧
    (∀ a, m.Allowed a → ∃ m', m.exec a = .ok m') ∧
    ∀ m', m.cleanDead false = .ok m' →
      m'.inactiveEntities = m.inactiveEntities.filter m.busy ∧
        ∀ id, id ∈ m'.inactiveEntities ↔
          ∃ e, m'.heap.get? id = some e ∧ e.ent.status = .dead ∧ e.ent.taskCnt ≠ 0 := by
  obtain ⟨h, htmp⟩ := reach_inv hm
  refine ⟨h.accounted htmp, fun a ha => ?_, fun m' hclean => ?_⟩
  · obtain ⟨m', hexec, -⟩ := h.exec htmp ha
    exact ⟨m', hexec⟩
  · obtain ⟨m₁, hclean₁, hinv, htmp₁, hkept, hheap⟩ := h.cleanDead htmp false
    obtain rfl : m₁ = m' := Except.ok.inj (hclean₁.symm.trans hclean)
    have hkeeps : m.keeps false = m.busy := funext fun id => by simp [keeps]
    rw [hkeeps] at hkept
    refine ⟨hkept, fun id => ?_⟩
    have hqueue : id ∈ m₁.queue ↔ id ∈ m₁.inactiveEntities := by
      rw [queue, htmp₁, List.append_nil]
    constructor
    · intro hid
      obtain ⟨e, hget⟩ := hinv.held.queued id (hqueue.mpr hid)
      obtain ⟨hdead, -, -⟩ :=
        (hinv.held.status id e hget).resolve_right fun hactive => hactive.2 (hqueue.mpr hid)
      rw [hkept] at hid
      have hbusy := (List.mem_filter.mp hid).2
      rw [busy, hheap id e hget] at hbusy
      exact ⟨e, hget, hdead, by simpa using hbusy⟩
    · rintro ⟨e, hget, hdead, -⟩
      refine hqueue.mp ((hinv.held.status id e hget).elim (fun h => h.2.1) fun hactive => ?_)
      exact absurd (hdead.symm.trans hactive.1) (by simp)

/-- A connection that is deleted with a transaction left, and cleaned up twice. -/
def closedConnection : List MgrAction :=
  [.create .sockV4tcp false, .add 0, .txnadd 0 7, .del 0, .cleanDead, .del 0, .txndel 0 7, .cleanDead]

/-- A connection that is closed is destroyed first and freed afterwards. -/
theorem closedConnection_accounted :
    (machine.final create closedConnection).Accounted ∧
      (machine.final create closedConnection).events = [.destroyed 0, .freed 0 0 false] := by
  have hreach : machine.Reach Machine.anyStep (machine.final create closedConnection) :=
    Machine.final_reach (.init rfl) _ (Machine.stepsMeet_any _ _)
  exact ⟨(run_accounted hreach).1, by decide +kernel⟩

end EntityMgr

end Skull
