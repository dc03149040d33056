import Skull.Service.Event

namespace Skull

/-!
# Services (`sk_service`)

The master keeps one `Service` for each configured service: a queue of pending tasks and the
number of tasks that are scheduled and not yet reported done.  `Service.scheduleTasks` pops
tasks as long as the queue gives one away and sends each to the scheduler that runs it;
`Service.taskSetcomplete` takes one task off again.

An assertion of the source is a `SrvFault`; the code aborts there.
-/

/-- `sk_service_api_type_t`. -/
inductive ApiType
  | read | write
  deriving DecidableEq, Repr

/-- The call data of a `sk_srv_task_t`; its shape is the `type` field of the task. -/
inductive SrvTaskData
  /-- `SK_SRV_TASK_API_QUERY`. -/
  | api (service : Nat) (txn : TxnId) (name : Nat) (txnTask : TaskRef)
  /-- `SK_SRV_TASK_TIMER`. -/
  | timer (entity : Nat) (ud : JobData) (valid : Bool) (interval : Nat)
  deriving DecidableEq, Repr

/-- `sk_srv_task_t`. -/
structure SrvTask where
  base : ElemType
  ioStatus : IoStatus
  bidx : Int
  src : Sched
  data : SrvTaskData
  deriving DecidableEq, Repr

instance : QueueElem SrvTask := ⟨SrvTask.base⟩

@[simp] theorem elemType_srvTask (t : SrvTask) : elemType t = t.base := rfl

/-- `sizeof(sk_srv_task_t)` on a 64-bit platform. -/
def srvTaskSize : Nat := 72

/-- `SK_SRV_MAX_TASK`. -/
def srvMaxTask : Nat := 1024

/-- `sk_srv_status_t`. -/
inductive SrvStatus
  | ok | busy | taskFailed | pending | idle | notPushed
  deriving DecidableEq, Repr

/-- The assertions on the way of a service task. -/
inductive SrvFault
  /-- An assertion of the task queue. -/
  | queue (fault : QueueFault)
  /-- `bidx <= bio_cnt` in `_find_target_sched`. -/
  | bidx
  /-- `sk_core_bio(core, 1)->sched` without a bio. -/
  | noBio
  /-- The queue state check of `sk_service_schedule_tasks`. -/
  | scheduleState
  /-- The element type switch of `sk_service_schedule_tasks`. -/
  | scheduleType
  /-- `task.io_status == SK_SRV_IO_STATUS_OK` in `sk_service_schedule_tasks`. -/
  | scheduleIoStatus
  /-- `Invalid exception status` in `_sk_service_handle_exception`. -/
  | exceptionStatus
  /-- The queue state check of `sk_service_data` and `sk_service_data_set`. -/
  | dataState
  /-- `service` or `srv_api` is `NULL` in a handler. -/
  | noService
  /-- `txn` is `NULL` in a handler. -/
  | noTxn
  /-- `entity` is `NULL` in a handler. -/
  | noEntity
  /-- `ret == SK_SRV_STATUS_BUSY` in the handler of `SK_PTO_TIMER_EMIT`. -/
  | emitStatus
  /-- `status == SK_SRV_JOB_ERROR_BUSY` in the handler of `SK_PTO_SVC_TIMER_DONE`. -/
  | timerDoneStatus
  /-- `srv_status == SK_SRV_STATUS_OK` in the handler of `SK_PTO_SVC_TASK_RUN`. -/
  | taskFailed
  deriving DecidableEq, Repr

/-- `sk_service_t`: `data` is the pointer in `sk_srv_data_t`. -/
structure Service where
  name : Nat
  runningTaskCnt : Int
  pendingTasks : Queue SrvTask
  apis : List (Nat × ApiType)
  data : Nat
  deriving DecidableEq, Repr

/-- What one turn of `sk_service_schedule_tasks` did: the task it popped, the queue it left,
    and the message it sent. -/
structure Scheduled where
  task : SrvTask
  rest : Queue SrvTask
  event : Event
  deriving DecidableEq, Repr

namespace Service

/-- The queue mode for the configured data mode, `SK_SRV_DATA_MODE_RW_PR` or `RW_PW`. -/
def queueMode (preferRead : Bool) : QueueMode := if preferRead then .rwPr else .rwPw

/-- The slots `_sk_service_data_create` asks for, from the configured `max_qsize`. -/
def maxQueueSize (maxQsize : Int) : Nat :=
  if maxQsize > 0 then
    if maxQsize.toNat > (sizeTMod - 1) / srvTaskSize then (sizeTMod - 1) / srvTaskSize
    else maxQsize.toNat
  else srvMaxTask

/-- `sk_service_create`, with `sk_service_api_register` for each of `apis`. -/
def create (name : Nat) (preferRead : Bool) (maxQsize : Int) (apis : List (Nat × ApiType)) :
    Except QueueFault (Option Service) :=
  match Queue.create (queueMode preferRead) srvTaskSize 0 (maxQueueSize maxQsize) with
  | .error f => .error f
  | .ok none => .ok none
  | .ok (some q) =>
    .ok (some { name, runningTaskCnt := 0, pendingTasks := q, apis, data := 0 })

/-- `sk_service_api`: the type registered for an api name. -/
def api (s : Service) (name : Nat) : Option ApiType := s.apis.lookup name

/-- `_find_target_sched`. -/
def findTargetSched (bioCnt : Nat) (src : Sched) (bidx : Int) : Except SrvFault Sched :=
  if bidx = 0 then .ok src
  else if bidx > 0 then
    if bidx ≤ bioCnt then .ok (.bio bidx.toNat) else .error .bidx
  -- A negative index is the first bio, whatever its value.
  else if bioCnt = 0 then .error .noBio else .ok (.bio 1)

/-- `_validate_bidx`. -/
def validateBidx (bioCnt : Nat) (bidx : Int) : Bool :=
  if bidx > 0 then bidx ≤ bioCnt else if bidx < 0 then bioCnt > 0 else true

/-- `_schedule_api_task`. -/
def scheduleApiTask (bioCnt : Nat) (s : Service) (task : SrvTask) (txn : TxnId) (name : Nat)
    (taskdata : TaskRef) : Except SrvFault Event :=
  (findTargetSched bioCnt task.src task.bidx).map fun target =>
    { src := .master, dst := target, owner := .inl txn,
      pto := .svcTaskRun s.name name task.ioStatus task.src taskdata }

/-- `_schedule_api_errortask`. -/
def scheduleApiErrortask (s : Service) (task : SrvTask) (txn : TxnId) (name : Nat)
    (taskdata : TaskRef) : Event :=
  { src := .master, dst := task.src, owner := .inl txn,
    pto := .svcTaskCb taskdata s.name name .busy false }

/-- `_schedule_timer_task`. -/
def scheduleTimerTask (bioCnt : Nat) (s : Service) (task : SrvTask) (entity : Nat)
    (ud : JobData) (valid : Bool) (interval : Nat) : Except SrvFault Event :=
  let status := if task.ioStatus = .ok then JobRet.ok else .errorBusy
  -- A job that is refused runs where it comes from.
  let target := if status = .ok then findTargetSched bioCnt task.src task.bidx
    else .ok task.src
  target.map fun target =>
    { src := .master, dst := target, owner := .inr entity,
      pto := .svcTimerRun s.name ud valid status interval }

/-- `sk_service_schedule_errortask`. -/
def scheduleErrortask (bioCnt : Nat) (s : Service) (task : SrvTask) : Except SrvFault Event :=
  match task.data with
  | .api _ txn name taskdata => .ok (s.scheduleApiErrortask task txn name taskdata)
  | .timer entity ud valid interval => s.scheduleTimerTask bioCnt task entity ud valid interval

/-- `sk_service_schedule_normaltask`. -/
def scheduleNormaltask (bioCnt : Nat) (s : Service) (task : SrvTask) :
    Except SrvFault (Service × Event) :=
  let s := { s with runningTaskCnt := s.runningTaskCnt + 1 }
  let event := match task.data with
    | .api _ txn name taskdata => s.scheduleApiTask bioCnt task txn name taskdata
    | .timer entity ud valid interval => s.scheduleTimerTask bioCnt task entity ud valid interval
  event.map fun event => (s, event)

/-- `sk_service_schedule_task`. -/
def scheduleTask (bioCnt : Nat) (s : Service) (task : SrvTask) :
    Except SrvFault (Service × Event) :=
  if task.ioStatus = .ok then s.scheduleNormaltask bioCnt task
  else (s.scheduleErrortask bioCnt task).map fun event => (s, event)

/-- `sk_service_push_task`. -/
def pushTask (s : Service) (task : SrvTask) : Except SrvFault (SrvStatus × Service) :=
  if task.ioStatus ≠ .ok then .ok (.notPushed, s)
  else
    match s.pendingTasks.push task with
    | .error f => .error (.queue f)
    -- `sk_queue_push` returns non-zero: the queue is full.
    | .ok (true, q) => .ok (.busy, { s with pendingTasks := q })
    | .ok (false, q) => .ok (.ok, { s with pendingTasks := q })

/-- `_sk_service_pop_task`: the status and, when it is `ok`, the task. -/
def popTask (s : Service) : Except SrvFault (SrvStatus × Option SrvTask × Service) :=
  if s.pendingTasks.empty then .ok (.idle, none, s)
  else
    match s.pendingTasks.pull 1 with
    | .error f => .error (.queue f)
    -- Tasks wait, but the state of the queue lets none of them run.
    | .ok ([], q) => .ok (.pending, none, { s with pendingTasks := q })
    | .ok ((_, task) :: _, q) => .ok (.ok, some task, { s with pendingTasks := q })

/-- `_sk_service_handle_exception`. -/
def handleException (st : SrvStatus) : Except SrvFault Unit :=
  match st with
  | .ok | .pending | .idle => .ok ()
  | .busy | .taskFailed | .notPushed => .error .exceptionStatus

/-- The queue state after a task of the given type is popped in state `curr`. -/
def newState (base : ElemType) (curr : QueueState) : Except SrvFault QueueState :=
  match base with
  | .read => if curr = .idle ∨ curr = .read then .ok .read else .error .scheduleState
  | .write => if curr = .idle then .ok .write else .error .scheduleState
  | .exclusive => .error .scheduleType

/-- One turn of the loop of `sk_service_schedule_tasks`; `none` leaves the loop. -/
def scheduleTurn (bioCnt : Nat) (s : Service) :
    Except SrvFault (Option Scheduled × Service) :=
  match s.popTask with
  | .error f => .error f
  | .ok (_, none, s) => .ok (none, s)
  | .ok (status, some task, s) =>
    match newState task.base s.pendingTasks.state with
    | .error f => .error f
    | .ok state =>
      match s.pendingTasks.setState state with
      | .error f => .error (.queue f)
      | .ok q =>
        match handleException status with
        | .error f => .error f
        | .ok () =>
          if task.ioStatus ≠ .ok then .error .scheduleIoStatus
          else
            match ({ s with pendingTasks := q } : Service).scheduleTask bioCnt task with
            | .error f => .error f
            | .ok (s, event) => .ok (some { task, rest := q, event }, s)

/-- The loop of `sk_service_schedule_tasks`.  Every turn but the last takes a task off the
    queue, so the number of queued tasks bounds the turns. -/
def scheduleLoop (bioCnt : Nat) : Nat → Service → Except SrvFault (List Scheduled × Service)
  | 0, s => .ok ([], s)
  | turns + 1, s =>
    match s.scheduleTurn bioCnt with
    | .error f => .error f
    | .ok (none, s) => .ok ([], s)
    | .ok (some x, s) => (scheduleLoop bioCnt turns s).map fun (xs, s) => (x :: xs, s)

/-- The tasks waiting in the queue. -/
def queued (s : Service) : List SrvTask := s.pendingTasks.data.elems

/-- `sk_service_schedule_tasks`. -/
def scheduleTasks (bioCnt : Nat) (s : Service) : Except SrvFault (List Scheduled × Service) :=
  scheduleLoop bioCnt (s.queued.length + 1) s

/-- `sk_service_task_setcomplete`. -/
def taskSetcomplete (s : Service) : Except SrvFault Service :=
  let s := { s with runningTaskCnt := s.runningTaskCnt - 1 }
  -- The last running task leaves the queue idle, so that a task of any type may be next.
  if s.runningTaskCnt = 0 then
    match s.pendingTasks.setState .idle with
    | .error f => .error (.queue f)
    | .ok q => .ok { s with pendingTasks := q }
  else .ok s

/-- The queue states in which the user layer may touch the service data. -/
def dataMutable (s : Service) : Bool :=
  match s.pendingTasks.state with
  | .init | .destroy | .write => true
  | .idle | .read | .lock => false

/-- `sk_service_data`. -/
def getData (s : Service) : Except SrvFault Nat :=
  if s.dataMutable then .ok s.data else .error .dataState

/-- `sk_service_data_set`. -/
def setData (s : Service) (data : Nat) : Except SrvFault Service :=
  if s.dataMutable then .ok { s with data } else .error .dataState

/-! ### The handlers that the master runs for a service -/

/-- The handler of `SK_PTO_SVC_IOCALL`: the tasks it scheduled, or the busy answer. -/
def svcIocall (bioCnt : Nat) (s : Service) (src : Sched) (txn : TxnId) (apiName : Nat)
    (bidx : Int) (taskdata : TaskRef) :
    Except SrvFault ((SrvTask × (Event ⊕ List Scheduled)) × Service) :=
  match s.api apiName with
  | none => .error .noService
  | some type =>
    let task : SrvTask :=
      { base := if type = .read then .read else .write
        ioStatus := .ok, bidx, src, data := .api s.name txn apiName taskdata }
    match s.pushTask task with
    | .error f => .error f
    | .ok (status, s) =>
      if status = .busy then
        (s.scheduleTask bioCnt { task with ioStatus := .busy }).map
          fun (s, event) => ((task, .inl event), s)
      else (s.scheduleTasks bioCnt).map fun (xs, s) => ((task, .inr xs), s)

/-- The handler of `SK_PTO_TIMER_EMIT`: the tasks it scheduled, or the busy answer. -/
def timerEmit (bioCnt : Nat) (s : Service) (src : Sched) (entity : Nat) (udata : JobData)
    (valid : Bool) (bidx : Int) (type : JobRw) (interval : Nat) :
    Except SrvFault ((SrvTask × (Event ⊕ List Scheduled)) × Service) :=
  let task : SrvTask :=
    { base := if type = .read then .read else .write
      ioStatus := .ok, bidx, src, data := .timer entity udata valid interval }
  match s.pushTask task with
  | .error f => .error f
  | .ok (status, s) =>
    if status ≠ .ok then
      if status ≠ .busy then .error .emitStatus
      else
        (s.scheduleTask bioCnt { task with ioStatus := .busy }).map
          fun (s, event) => ((task, .inl event), s)
    else (s.scheduleTasks bioCnt).map fun (xs, s) => ((task, .inr xs), s)

/-- The service part of the handler of `SK_PTO_SVC_TASK_DONE`. -/
def svcTaskDone (bioCnt : Nat) (s : Service) (svcTaskDone : Bool) :
    Except SrvFault (List Scheduled × Service) :=
  -- Only the end of `SK_PTO_SVC_TASK_RUN` sets it, once for each task that was counted.
  if svcTaskDone then
    match s.taskSetcomplete with
    | .error f => .error f
    | .ok s => s.scheduleTasks bioCnt
  else s.scheduleTasks bioCnt

/-- The service part of the handler of `SK_PTO_SVC_TIMER_DONE`. -/
def svcTimerDone (bioCnt : Nat) (s : Service) (status : JobRet) :
    Except SrvFault (List Scheduled × Service) :=
  if status = .ok then
    match s.taskSetcomplete with
    | .error f => .error f
    | .ok s => s.scheduleTasks bioCnt
  else if status ≠ .errorBusy then .error .timerDoneStatus
  else s.scheduleTasks bioCnt

end Service

end Skull
