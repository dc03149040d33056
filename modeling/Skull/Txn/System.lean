import Skull.Txn.Txn
import Skull.Lib.Machine
import Skull.Lib.Network

namespace Skull

open Machines

/-!
# Transactions, services and the schedulers between them

The whole way of a request after it was unpacked: modules that run and make service calls, the
master that schedules them, api bodies with pending endpoint calls and jobs, callbacks, and the
messages that tie them together.

* `TxnSystem` — services, transactions, messages in flight, pending calls;
* `TxnRun` — the handlers that work on one transaction, on the scheduler of its entity
  (`workflowRun`, `svcTaskCb`);
* `TxnSystem.handle` — the handler of each message;
* `TxnSystem.machine` — the machine of all runs: messages with the same source, destination and
  priority are handled as sent, user code does what it likes.

A handler runs to its end before its scheduler does anything else, and only handlers on the
scheduler of its entity touch the counters of a transaction, so a handler is one step.  `Mark`s
remember what happened; the code does not look at them.
-/

/-! ### User code -/

/-- The arguments of `skull_txn_iocall` that decide what it does. -/
structure Iocall where
  service : Nat
  api : Nat
  cb : Bool
  bidx : Int
  deriving DecidableEq, Repr

/-- What module code does: its service calls, in order, and whether it returns non-zero. -/
structure ModuleCode where
  iocalls : List Iocall
  failed : Bool
  deriving DecidableEq, Repr

/-- A pending call: to an endpoint, or a job. -/
inductive PendingKind
  | ep
  | job (rw : JobRw)
  deriving DecidableEq, Repr

/-- What the user code that a handler calls does. -/
structure UserCode where
  /-- The `run` of a module, or the callback of a task. -/
  run : ModuleCode
  /-- The `pack` of a module. -/
  pack : ModuleCode
  /-- The readings of `sk_time_us` in the nested calls of `_run`. -/
  clock : Nat → Int
  /-- The pending calls that an api body or the callback of a job makes. -/
  calls : List PendingKind
  /-- The api body returns non-zero. -/
  failed : Bool

/-! ### What handlers do to a transaction -/

/-- What happened. -/
inductive Mark
  /-- A module is entered, with so many callback tasks incomplete. -/
  | entered (txn : TxnId) (waiting : Nat)
  /-- `pack` is called in a state, with so many callback tasks incomplete. -/
  | packed (txn : TxnId) (waiting : Nat) (state : TxnState)
  /-- `sk_txn_setstate` is applied. -/
  | state (txn : TxnId) (state : TxnState)
  /-- The entity of the transaction is marked `SK_ENTITY_INACTIVE`. -/
  | inactive (txn : TxnId)
  /-- A `SK_PTO_SVC_TASK_CB` with status DONE or BUSY is handled. -/
  | terminal (task : TaskRef)
  /-- `sk_txn_task_setcomplete` is applied. -/
  | setcomplete (task : TaskRef)
  /-- A `SK_PTO_SVC_TASK_RUN` is sent. -/
  | scheduled (task : TaskRef)
  /-- A `SK_PTO_SVC_TASK_DONE` with `svc_task_done` is sent. -/
  | taskDone (task : TaskRef)
  deriving DecidableEq, Repr

/-- Where a handler runs: `home` is the scheduler of the entity. -/
structure TxnEnv where
  bioCnt : Nat
  services : List Service
  sched : Sched
  home : Sched
  id : TxnId

/-- A handler at work: its transaction, what it has sent and done. -/
structure TxnRun where
  txn : Txn
  sent : List Event
  log : List Mark
  released : Bool
  deriving DecidableEq, Repr

namespace TxnRun

variable (v : TxnEnv)

/-- `sk_txn_setstate`. -/
def setstate (r : TxnRun) (state : TxnState) : Except TxnFault TxnRun :=
  (r.txn.setstate state).map fun txn => { r with txn, log := r.log ++ [Mark.state v.id state] }

/-- `skull_txn_iocall`, with `sk_service_iocall`. -/
def iocall (r : TxnRun) (c : Iocall) : Except TxnFault TxnRun :=
  match v.services[c.service]? with
  | none => .ok r
  | some svc =>
    if (svc.api c.api).isNone then .ok r
    else if r.txn.state = .init then .ok r
    else if ¬ Service.validateBidx v.bioCnt c.bidx then .ok r
    else
      (r.txn.taskAdd c.api c.cb r.txn.currentModule).map fun (taskId, txn) =>
        { r with
          txn
          sent := r.sent ++ [⟨v.sched, .master, .inl v.id,
            .svcIocall c.service c.api c.bidx ⟨v.id, taskId⟩⟩] }

/-- The service calls of a piece of module code. -/
def iocalls : List Iocall → TxnRun → Except TxnFault TxnRun
  | [], r => .ok r
  | c :: cs, r => r.iocall v c >>= iocalls cs

/-- `_module_run`; `again` is the call of `_run`. -/
def moduleRun (code : ModuleCode) (again : TxnRun → Except TxnFault TxnRun) (r : TxnRun) :
    Except TxnFault TxnRun := do
  let (module, txn) := r.txn.nextModule
  let r := { r with txn }
  if module.isNone then
    let r ← r.setstate v .completed
    again r
  else
    let r := { r with log := r.log ++ [Mark.entered v.id r.txn.waiting] }
    let r ← r.iocalls v code.iocalls
    let r ← (if code.failed then r.setstate v .error else .ok r)
    -- The last task's `SK_PTO_SVC_TASK_DONE` runs the workflow again.
    if ¬ r.txn.moduleComplete then
      if ¬ code.failed then r.setstate v .pending else .ok r
    -- A module that failed goes to `pack` directly, from the state `error`.
    else if code.failed then again r
    else if ¬ r.txn.isLastModule then
      .ok { r with sent := r.sent ++ [⟨v.sched, v.sched, .inl v.id, .workflowRun⟩] }
    else
      let r ← r.setstate v .completed
      again r

/-- `_module_pack`; `again` is the call of `_run`. -/
def modulePack (pack : ModuleCode) (again : TxnRun → Except TxnFault TxnRun) (r : TxnRun) :
    Except TxnFault TxnRun := do
  if r.txn.workflow.lastModule.isNone then .error .noModule
  else if ¬ r.txn.workflow.hasPack then
    let r ← r.setstate v .packed
    again r
  else
    let r := { r with log := r.log ++ [Mark.packed v.id r.txn.waiting r.txn.state] }
    let r ← r.iocalls v pack.iocalls
    -- A failing `pack` does not set the state to `error`, which would run it again for ever.
    let r := { r with log := r.log ++ if pack.failed then [Mark.inactive v.id] else [] }
    let r ← r.setstate v .packed
    again r

/-- `_txn_log_and_destroy`, as far as the transaction goes (`sk_txn_safe_destroy`). -/
def txnLogAndDestroy (r : TxnRun) : TxnRun :=
  if r.txn.completeTasks < r.txn.totalTasks then r else { r with released := true }

/-- `_run` of `SK_PTO_WORKFLOW_RUN`, with a bound on how deep its calls nest. -/
def run (code : UserCode) : Nat → TxnRun → Except TxnFault TxnRun
  | 0, _ => .error .depth
  | depth + 1, r => do
    let state := r.txn.state
    let r ← (if r.txn.timeout (code.clock depth) then r.setstate v .timeout else .ok r)
    -- The branch is chosen by the state that was read before the check for a timeout.
    match state with
    | .init | .unpacked | .pending =>
      let r ← r.setstate v .running
      run code depth r
    | .running => r.moduleRun v code.run (run code depth)
    | .completed | .error | .timeout => r.modulePack v code.pack (run code depth)
    | .packed =>
      let r ← r.setstate v .destroyed
      .ok r.txnLogAndDestroy
    | .destroyed => .ok r.txnLogAndDestroy

/-- The handler of `SK_PTO_WORKFLOW_RUN`: its calls nest at most four deep. -/
def workflowRun (code : UserCode) (r : TxnRun) : Except TxnFault TxnRun := r.run v code 4

/-- The callback of a task that was just completed, `skull_srv_iocall_complete`. -/
def iocallComplete (code : ModuleCode) (taskId : Nat) (r : TxnRun) : Except TxnFault TxnRun :=
  match r.txn.taskTbl[taskId]? with
  | none => .error .noTask
  | some task =>
    if task.cb then do
      let r ← r.iocalls v code.iocalls
      if code.failed then r.setstate v .error else .ok r
    else .ok r

/-- The part of the handler of `SK_PTO_SVC_TASK_CB` for a task that is DONE or BUSY. -/
def complete (code : ModuleCode) (taskdata : TaskRef) (service : Nat) (status : TaskStatus)
    (r : TxnRun) : Except TxnFault TxnRun := do
  let txn ← r.txn.taskSetcomplete taskdata.taskId status
  let r := { r with txn, log := r.log ++ [Mark.terminal taskdata, Mark.setcomplete taskdata] }
  if v.services[service]?.isNone then .error (.srv .noService)
  else r.iocallComplete v code taskdata.taskId

/-- The handler of `SK_PTO_SVC_TASK_CB`. -/
def svcTaskCb (code : ModuleCode) (taskdata : TaskRef) (service : Nat) (status : TaskStatus)
    (svcTaskDone : Bool) (r : TxnRun) : Except TxnFault TxnRun := do
  -- The assertion that the callback runs on the scheduler of the entity.
  if v.sched ≠ v.home then .error .cbSched
  else
    match r.txn.taskTbl[taskdata.taskId]? with
    | none => .error .noTask
    | some task =>
      -- The name of the caller is read first, whatever the status.
      if task.callerModule.isNone then .error .noCaller
      else
        let r ← (if status = .done ∨ status = .busy then r.complete v code taskdata service status
          else .ok r)
        -- A task without a callback resumes the workflow only when all tasks are complete.
        let resumeWf := if task.cb then r.txn.moduleComplete else r.txn.alltaskComplete
        .ok { r with
          sent := r.sent ++
            [⟨v.sched, .master, .inl v.id, .svcTaskDone service resumeWf svcTaskDone⟩]
          log := r.log ++ if svcTaskDone then [.taskDone taskdata] else [] }

end TxnRun

/-! ### The system -/

/-- A transaction of the system: `home` is the scheduler of its entity. -/
structure TxnSlot where
  txn : Txn
  home : Sched
  /-- It was delivered to a scheduler. -/
  delivered : Bool
  /-- `sk_txn_destroy` released it. -/
  released : Bool
  deriving DecidableEq, Repr

/-- A pending call that is out: `job` is `none` for a call to an endpoint. -/
structure PendingCall where
  task : TaskRef
  service : Nat
  sched : Sched
  job : Option JobData
  deriving DecidableEq, Repr

/-- Services, transactions and what is between them. -/
structure TxnSystem where
  /-- The services, each at the place of its name. -/
  services : List Service
  txns : List TxnSlot
  /-- The messages in flight, oldest first. -/
  net : List Event
  /-- The endpoint calls that were not called back, and the pending jobs whose timers run. -/
  calls : List PendingCall
  /-- The number of jobs created. -/
  jobs : Nat
  log : List Mark
  deriving DecidableEq, Repr

/-- What may happen next. -/
inductive TxnAction
  /-- A request is unpacked, or a transaction is made without one (`immediate`). -/
  | create (workflow : Workflow) (home : Sched) (now : Int) (immediate : Bool)
  /-- `sk_driver_util_deliver` on `src` delivers a transaction. -/
  | deliver (txn : TxnId) (src : Sched)
  /-- The message at `i` is handled. -/
  | handle (i : Nat) (code : UserCode)
  /-- The endpoint call at `i` is called back, and makes more calls. -/
  | epCb (i : Nat) (calls : List PendingKind)
  /-- The timer of the pending job at `i` fires. -/
  | jobTriggered (i : Nat)
  /-- The timer of a job that no task waits for fires. -/
  | npTriggered (src : Sched) (service entity id : Nat) (rw : JobRw) (bidx : Int)
      (interval : Nat)

namespace TxnSystem

variable (bioCnt : Nat)

/-- Put a message in flight. -/
def send (s : TxnSystem) (e : Event) : TxnSystem := { s with net := s.net ++ [e] }

/-- The task behind a `sk_txn_taskdata_t*`. -/
def task (s : TxnSystem) (t : TaskRef) : Except TxnFault TxnTask :=
  match s.txns[t.txn]? with
  | none => .error .txnFreed
  | some slot =>
    if slot.released then .error .txnFreed
    else
      match slot.txn.taskTbl[t.taskId]? with
      | none => .error .noTask
      | some k => .ok k

/-- Write to a task. -/
def setTask (s : TxnSystem) (t : TaskRef) (k : TxnTask) : TxnSystem :=
  { s with txns := s.txns.modify t.txn fun slot =>
      { slot with txn := { slot.txn with taskTbl := slot.txn.taskTbl.set t.taskId k } } }

/-! ### The handlers for a transaction -/

/-- A handler on the transaction `x` is done. -/
def commit (s : TxnSystem) (x : TxnId) (r : TxnRun) : TxnSystem :=
  { s with
    txns := s.txns.modify x fun slot => { slot with txn := r.txn, released := r.released }
    net := s.net ++ r.sent
    log := s.log ++ r.log }

/-- Run a handler on the transaction of the message `e`. -/
def onTxn (s : TxnSystem) (e : Event) (f : TxnEnv → TxnRun → Except TxnFault TxnRun) :
    Except TxnFault TxnSystem :=
  match e.owner with
  | .inr _ => .error (.srv .noTxn)
  | .inl x =>
    match s.txns[x]? with
    | none => .error .txnFreed
    | some slot =>
      if slot.released then .error .txnFreed
      else
        (f { bioCnt, services := s.services, sched := e.dst, home := slot.home, id := x }
          { txn := slot.txn, sent := [], log := [], released := false }).map (s.commit x)

/-! ### Pending calls -/

/-- `skull_ep_send` or `skull_service_job_create` on `sched`, with a call that is accepted. -/
def pendingCall (sched : Sched) (service : Nat) (t : TaskRef) (s : TxnSystem)
    (kind : PendingKind) : Except TxnFault TxnSystem :=
  (s.task t).map fun k =>
    let s := s.setTask t { k with pendings := k.pendings + 1 }
    match kind with
    | .ep => { s with calls := s.calls ++ [⟨t, service, sched, none⟩] }
    | .job rw =>
      { s with calls := s.calls ++ [⟨t, service, sched, some ⟨s.jobs, some t, rw⟩⟩]
               jobs := s.jobs + 1 }

/-- The pending calls of a piece of service code. -/
def pendingCalls (sched : Sched) (service : Nat) (t : TaskRef) :
    List PendingKind → TxnSystem → Except TxnFault TxnSystem
  | [], s => .ok s
  | kind :: kinds, s =>
    s.pendingCall sched service t kind >>= pendingCalls sched service t kinds

/-- `sk_service_api_complete`. -/
def apiComplete (sched : Sched) (service : Nat) (t : TaskRef) (s : TxnSystem) :
    Except TxnFault TxnSystem :=
  match s.txns[t.txn]? with
  | none => .error .txnFreed
  | some slot =>
    (s.task t).map fun k =>
      -- The task still waits for other pending calls.
      if ¬ k.taskDone then s
      else s.send ⟨sched, slot.home, .inl t.txn, .svcTaskCb t service k.apiName .done false⟩

/-- The callback of a pending call (`_ep_cb`, `_job_cb`), which makes more `calls`. -/
def pendingCb (sched : Sched) (service : Nat) (t : TaskRef) (calls : List PendingKind)
    (s : TxnSystem) : Except TxnFault TxnSystem := do
  -- The new calls are counted before this one is taken off, so that the task stays pending.
  let s ← s.pendingCalls sched service t calls
  let k ← s.task t
  (s.setTask t { k with pendings := k.pendings - 1 }).apiComplete sched service t

/-- The handler of `SK_PTO_SVC_TASK_RUN`. -/
def svcTaskRun (s : TxnSystem) (e : Event) (service api : Nat) (apiCaller : Sched)
    (t : TaskRef) (code : UserCode) : Except TxnFault TxnSystem :=
  match s.services[service]? with
  | none => .error (.srv .noService)
  | some svc =>
    if (svc.api api).isNone ∨ code.failed then .error (.srv .taskFailed)
    else do
      let s ← s.pendingCalls e.dst service t code.calls
      let k ← s.task t
      let status := if k.taskDone then TaskStatus.done else .pending
      .ok (s.send ⟨e.dst, apiCaller, e.owner, .svcTaskCb t service api status true⟩)

/-- The handler of `SK_PTO_SVC_TIMER_RUN`, with `_job_cb`. -/
def svcTimerRun (s : TxnSystem) (e : Event) (service : Nat) (ud : JobData) (valid : Bool)
    (status : JobRet) (interval : Nat) (code : UserCode) : Except TxnFault TxnSystem := do
  if ¬ valid then .error .jobValid
  else
    -- Only a job of a task completes an api.
    let s ← (match ud.task with
      | some t => s.pendingCb e.dst service t code.calls
      | none => .ok s)
    .ok (s.send ⟨e.dst, e.src, e.owner, .svcTimerDone service status interval⟩)

/-! ### The handlers of the master -/

/-- What a turn of `sk_service_schedule_tasks` did, to be remembered. -/
def markOf (x : Scheduled) : Option Mark :=
  match x.task.data with
  | .api _ _ _ t => some (.scheduled t)
  | .timer .. => none

/-- After a round of scheduling of the service `k`. -/
def afterRound (k : Nat) (s : TxnSystem) (r : List Scheduled × Service) : TxnSystem :=
  { s with
    services := s.services.set k r.2
    net := s.net ++ r.1.map Scheduled.event
    log := s.log ++ r.1.filterMap markOf }

/-- After the master offered a task to the service `k`. -/
def afterOffer (k : Nat) (s : TxnSystem)
    (r : (SrvTask × (Event ⊕ List Scheduled)) × Service) : TxnSystem :=
  match r with
  | ((_, .inl busy), svc) => { s with services := s.services.set k svc }.send busy
  | ((_, .inr xs), svc) => s.afterRound k (xs, svc)

/-- Run a handler on the service `k`. -/
def onService {β : Type} (s : TxnSystem) (k : Nat) (f : Service → Except SrvFault β)
    (after : TxnSystem → β → TxnSystem) : Except TxnFault TxnSystem :=
  match s.services[k]? with
  | none => .error (.srv .noService)
  | some svc =>
    match f svc with
    | .error fault => .error (.srv fault)
    | .ok r => .ok (after s r)

/-- The handler of the message `e`, which has been taken out of `s.net`. -/
def handle (s : TxnSystem) (e : Event) (code : UserCode) : Except TxnFault TxnSystem :=
  match e.pto with
  | .workflowRun => s.onTxn bioCnt e fun v r => r.workflowRun v code
  | .svcTaskCb t service _ status svcTaskDone =>
    s.onTxn bioCnt e fun v r => r.svcTaskCb v code.run t service status svcTaskDone
  | .svcTaskRun service api _ apiCaller t => s.svcTaskRun e service api apiCaller t code
  | .svcTimerRun service ud valid status interval =>
    s.svcTimerRun e service ud valid status interval code
  | .svcIocall service api bidx t =>
    match e.owner with
    | .inr _ => .error (.srv .noTxn)
    | .inl x =>
      s.onService service (fun svc => svc.svcIocall bioCnt e.src x api bidx t)
        (afterOffer service)
  | .timerEmit service ud valid bidx type interval =>
    match e.owner with
    | .inl _ => .error (.srv .noEntity)
    | .inr entity =>
      s.onService service
        (fun svc => svc.timerEmit bioCnt e.src entity ud valid bidx type interval)
        (afterOffer service)
  | .svcTaskDone service resumeWf svcTaskDone =>
    -- The workflow is resumed before the next tasks are scheduled.
    let s := if resumeWf then s.send ⟨e.dst, e.src, e.owner, .workflowRun⟩ else s
    s.onService service (fun svc => svc.svcTaskDone bioCnt svcTaskDone) (afterRound service)
  | .svcTimerDone service status _ =>
    s.onService service (fun svc => svc.svcTimerDone bioCnt status) (afterRound service)

/-! ### The machine -/

/-- A transaction that was just unpacked, or made without a request. -/
def newTxn (workflow : Workflow) (now : Int) (immediate : Bool) : Txn :=
  { Txn.create workflow now with state := if immediate then .running else .unpacked }

/-- What runs on an action. -/
def exec (s : TxnSystem) : TxnAction → Except TxnFault TxnSystem
  | .create workflow home now immediate =>
    .ok { s with txns := s.txns ++ [⟨newTxn workflow now immediate, home, false, false⟩] }
  | .deliver x src =>
    match s.txns[x]? with
    | none => .ok s
    | some slot =>
      .ok ({ s with txns := s.txns.modify x fun slot => { slot with delivered := true } }.send
        ⟨src, slot.home, .inl x, .workflowRun⟩)
  | .handle i code =>
    match s.net[i]? with
    | none => .ok s
    | some e => { s with net := s.net.eraseIdx i }.handle bioCnt e code
  | .epCb i calls =>
    match s.calls[i]? with
    | none => .ok s
    | some c => { s with calls := s.calls.eraseIdx i }.pendingCb c.sched c.service c.task calls
  | .jobTriggered i =>
    match s.calls[i]? with
    | none => .ok s
    | some c =>
      match c.job with
      | none => .ok s
      | some ud =>
        .ok ({ s with calls := s.calls.eraseIdx i }.send
          ⟨c.sched, .master, .inr ud.id, .timerEmit c.service ud true 0 ud.rwType 0⟩)
  | .npTriggered src service entity id rw bidx interval =>
    .ok (s.send ⟨src, .master, .inr entity,
      .timerEmit service ⟨id, none, rw⟩ true bidx rw interval⟩)

/-- When an action may happen: a transaction is delivered once, and a message is handled when
    no earlier one of its source, destination and priority is in flight. -/
def enabled (s : TxnSystem) : TxnAction → Prop
  | .create .. => True
  | .deliver x _ => ∃ slot ∈ s.txns[x]?, slot.delivered = false
  | .handle i _ => ∃ e ∈ s.net[i]?, ∀ e' ∈ s.net.take i, e'.key ≠ e.key
  | .epCb i _ => ∃ c ∈ s.calls[i]?, c.job = none
  | .jobTriggered i => ∃ c ∈ s.calls[i]?, c.job.isSome
  | .npTriggered _ service _ _ _ bidx _ =>
    service < s.services.length ∧ Service.validateBidx bioCnt bidx = true

instance (s : TxnSystem) (a : TxnAction) : Decidable (s.enabled bioCnt a) :=
  match a with
  | .create .. => inferInstanceAs (Decidable True)
  | .deliver .. => inferInstanceAs (Decidable (∃ slot ∈ _, _ = false))
  | .handle .. => inferInstanceAs (Decidable (∃ e ∈ _, ∀ e' ∈ _, _ ≠ _))
  | .epCb .. => inferInstanceAs (Decidable (∃ c ∈ _, _ = none))
  | .jobTriggered _ => inferInstanceAs (Decidable (∃ c ∈ _, _ = true))
  | .npTriggered .. => inferInstanceAs (Decidable (_ ∧ _))

/-- Freshly created services, and nothing else. -/
def Init (s : TxnSystem) : Prop :=
  (∀ k svc, s.services[k]? = some svc → ∃ preferRead maxQsize apis, maxQsize < 2 ^ 31 ∧
    Service.create k preferRead maxQsize apis = .ok (some svc)) ∧
  s.txns = [] ∧ s.net = [] ∧ s.calls = [] ∧ s.log = []

/-- The runs of the system on a core with `bioCnt` bios. -/
def machine : Machine TxnSystem TxnAction TxnFault where
  init := Init
  enabled := enabled bioCnt
  exec := exec bioCnt

instance (s : TxnSystem) (a : TxnAction) : Decidable ((machine bioCnt).enabled s a) :=
  inferInstanceAs (Decidable (s.enabled bioCnt a))

end TxnSystem

end Skull
