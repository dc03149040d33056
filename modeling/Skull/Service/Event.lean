import Skull.Service.Queue

namespace Skull

/-!
# Schedulers and the messages between them (`sk_event`, `sk_pto`)

The master engine, the workers and the background io engines each run one scheduler.  They
share nothing but the messages below; `Pto` lists the protocols of transactions and services
with the arguments that are packed into them, `Pto.pri` their priority in `sk_pto_tbl`.

Pointers to engine objects are ids.  A pointer to the `sk_txn_taskdata_t` of a task is the
transaction that owns the task and the id of the task.
-/

/-- A scheduler; the bios are numbered from 1, as `sk_core_bio` takes them. -/
inductive Sched
  | master
  | worker (idx : Nat)
  | bio (idx : Nat)
  deriving DecidableEq, Repr

/-- A `sk_txn_t*`. -/
abbrev TxnId := Nat

/-- A `sk_txn_taskdata_t*`. -/
structure TaskRef where
  txn : TxnId
  taskId : Nat
  deriving DecidableEq, Repr

/-- `sk_txn_task_status_t`. -/
inductive TaskStatus
  | running | done | pending | busy
  deriving DecidableEq, Repr

/-- `sk_srv_io_status_t`. -/
inductive IoStatus
  | ok | busy
  deriving DecidableEq, Repr

/-- `sk_service_job_ret_t`. -/
inductive JobRet
  | ok | errorBio | errorBusy
  deriving DecidableEq, Repr

/-- `sk_service_job_rw_t`. -/
inductive JobRw
  | read | write
  deriving DecidableEq, Repr

/-- `job_data_t`, the object a service job carries: `task` is the task of a pending job and
    `none` for a `NOPENDING` one. -/
structure JobData where
  id : Nat
  task : Option TaskRef
  rwType : JobRw
  deriving DecidableEq, Repr

/-- The protocols with their packed arguments.  The job function of every timer protocol is
    `_job_cb`, the only one the user layer registers. -/
inductive Pto
  | workflowRun
  | svcIocall (service api : Nat) (bidx : Int) (taskdata : TaskRef)
  | svcTaskRun (service api : Nat) (ioStatus : IoStatus) (src : Sched) (taskdata : TaskRef)
  | svcTaskCb (taskdata : TaskRef) (service api : Nat) (taskStatus : TaskStatus)
      (svcTaskDone : Bool)
  | svcTaskDone (service : Nat) (resumeWf svcTaskDone : Bool)
  | timerEmit (svc : Nat) (udata : JobData) (valid : Bool) (bidx : Int) (type : JobRw)
      (interval : Nat)
  | svcTimerRun (svc : Nat) (ud : JobData) (valid : Bool) (status : JobRet) (interval : Nat)
  | svcTimerDone (svc : Nat) (status : JobRet) (interval : Nat)
  deriving DecidableEq, Repr

/-- The priority of a protocol in `sk_pto_tbl`. -/
def Pto.pri : Pto → Nat
  | .workflowRun => 5
  | .svcIocall .. => 6
  | .svcTaskRun .. => 4
  | .svcTaskCb .. => 6
  | .svcTaskDone .. => 6
  | .timerEmit .. => 8
  | .svcTimerRun .. => 8
  | .svcTimerDone .. => 8

/-- `sk_event_t`: `owner` is the transaction of the event, or the timer entity of a job. -/
structure Event where
  src : Sched
  dst : Sched
  owner : TxnId ⊕ Nat
  pto : Pto
  deriving DecidableEq, Repr

/-- What the schedulers keep in order: events with the same key are handled as sent. -/
def Event.key (e : Event) : Sched × Sched × Nat := (e.src, e.dst, e.pto.pri)

end Skull
