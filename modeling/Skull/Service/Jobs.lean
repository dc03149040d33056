import Skull.Service.System
import Skull.Entity.Entity
import Skull.Lib.Dict

namespace Skull

open Machines

/-!
# Service jobs

A user function of a service may create a job: a timer of the engine it runs on, which offers a
task to the service when it fires, and whose entity keeps the data of the job until the end:

* `JobSystem` — a service with its messages, and the timers and timer entities of all engines;
* `JobSystem.skullServiceJobCreate`, `JobSystem.skullServiceJobCreateNp` — the calls of the user,
  with `_create_job` and `sk_service_job_create`;
* `JobSystem.timerTriggered`, `JobSystem.handled`, `JobSystem.jobReturns` — what the handlers do to
  a job, around what they do to the service (`SrvSystem.exec`);
* `JobSystem.entitySafeDestroy`, `JobSystem.mgrDel`, `JobSystem.cleanDead` — the way of its entity;
* `JobSystem.machine` — the machine of all runs.

A job has the number of the call that created it, and so have its timer, its entity and its data.
A timer may fire at any time, so the delay of a call does not matter.  `JobMark`s remember what
happened; the code does not look at them.
-/

/-- `skull_job_ret_t`. -/
inductive SkullJobRet
  | ok | errorEnv | errorNocb | errorBio | errorBusy
  deriving DecidableEq, Repr

/-- `skull_service_t`: what a user function knows of the service call that it works for. -/
structure SkullService where
  txn : Option TxnId
  task : Option TaskRef
  deriving DecidableEq, Repr

/-- A call that creates a job, and what it returned. -/
structure JobCall where
  src : Sched
  /-- The task of a pending job. -/
  task : Option TaskRef
  rwType : JobRw
  interval : Nat
  bidx : Int
  /-- `udfree` is not `NULL`. -/
  udfree : Bool
  ret : SkullJobRet
  deriving DecidableEq, Repr

/-- What happens to a job. -/
inductive JobMark
  /-- The master offers it to the queue of the service, which is full or not. -/
  | offered (job : Nat) (full : Bool)
  /-- The job function is called. -/
  | called (job : Nat) (ret : SkullJobRet)
  /-- It has returned. -/
  | returned (job : Nat)
  /-- `pendings` of its task is decremented. -/
  | pendingsDown (job : Nat) (task : TaskRef)
  /-- `sk_service_task_setcomplete` is applied. -/
  | setcomplete (job : Nat)
  /-- `udfree` is called on `ud`. -/
  | udfree (job : Nat)
  deriving DecidableEq, Repr

/-- The job of a mark. -/
def JobMark.job : JobMark → Nat
  | .offered i _ | .called i _ | .returned i | .pendingsDown i _ | .setcomplete i | .udfree i => i

/-- `job_data_t` in its `sk_obj_t`. -/
structure JobObj where
  data : JobData
  destroyer : Bool
  deriving DecidableEq, Repr

/-- `srv_jobdata_t`; its `type` is that of `ud`. -/
structure SrvJobdata where
  entity : Nat
  ud : JobData
  bidx : Int
  interval : Nat
  deriving DecidableEq, Repr

/-- `sk_timer_t`, in the timer service of the engine `owner`. -/
structure SkTimer where
  owner : Sched
  entity : Nat
  ud : SrvJobdata
  valid : Bool
  triggered : Bool
  interval : Nat
  deriving DecidableEq, Repr

/-- `SK_PTO_TIMER_TRIGGERED`, which an engine sends to itself. -/
structure TimerMsg where
  timer : Nat
  entity : Nat
  ud : SrvJobdata
  deriving DecidableEq, Repr

/-- The entity of a timer, in the entity manager of the engine `owner`. -/
structure TimerEntity where
  owner : Sched
  status : EntityStatus
  timers : List JobObj
  deriving DecidableEq, Repr

/-- The assertions and the uses of freed memory on the way of a job. -/
inductive JobFault
  | srv (fault : SrvFault)
  /-- `valid` in `_job_cb`. -/
  | notValid
  /-- The check of `ret` in `_job_cb`. -/
  | jobRet
  /-- The status check of `sk_entity_destroy`. -/
  | destroyStatus
  /-- A timer is used that was destroyed. -/
  | timerFreed
  /-- An entity, or the job data that it keeps, is used after it was freed. -/
  | entityFreed
  deriving DecidableEq, Repr

/-- A service, and the jobs that its users create. -/
structure JobSystem where
  srv : SrvSystem
  /-- The calls so far. -/
  calls : List JobCall
  timers : Dict Nat SkTimer
  /-- The `SK_PTO_TIMER_TRIGGERED` in flight. -/
  triggered : List TimerMsg
  entities : Dict Nat TimerEntity
  /-- The `SK_PTO_ENTITY_DESTROY` in flight. -/
  destroys : List Nat
  /-- The inactive entities of all entity managers. -/
  inactive : List Nat
  /-- The entities that were freed. -/
  freed : List Nat
  /-- `pendings` of the tasks. -/
  pendings : TaskRef → Int
  log : List JobMark

namespace JobSystem

/-- Remember what happened. -/
def mark (s : JobSystem) (m : JobMark) : JobSystem := { s with log := s.log ++ [m] }

/-- A step of the service and its messages. -/
def srvExec (bioCnt : Nat) (s : JobSystem) (a : SrvAction) : Except JobFault JobSystem :=
  match s.srv.exec bioCnt a with
  | .error fault => .error (.srv fault)
  | .ok srv => .ok { s with srv }

/-! ### Creation -/

/-- `_job_data_destroy`. -/
def jobDataDestroy (s : JobSystem) (obj : JobObj) : JobSystem :=
  if obj.destroyer then s.mark (.udfree obj.data.id) else s

/-- `sk_service_job_create`. -/
def skServiceJobCreate (bioCnt : Nat) (s : JobSystem) (src : Sched) (interval : Nat)
    (arg : JobObj) (bidx : Int) : JobRet × JobSystem :=
  if Service.validateBidx bioCnt bidx then
    let n := s.calls.length
    (.ok, { s with
      entities := s.entities.set n { owner := src, status := .active, timers := [arg] }
      timers := s.timers.set n
        { owner := src, entity := n, ud := { entity := n, ud := arg.data, bidx, interval }
          valid := true, triggered := false, interval } })
  else (.errorBio, s)

/-- `_create_job`. -/
def createJob (bioCnt : Nat) (s : JobSystem) (src : Sched) (interval : Nat) (arg : JobObj)
    (bidx : Int) : JobRet × JobSystem :=
  let r := s.skServiceJobCreate bioCnt src interval arg bidx
  if r.1 = .ok then r else (r.1, r.2.jobDataDestroy arg)

/-- `skull_service_job_create`; after `create_job_error` it returns 1, whatever the error is. -/
def skullServiceJobCreate (bioCnt : Nat) (s : JobSystem) (src : Sched) (svc : SkullService)
    (type : JobRw) (job udfree : Bool) : SkullJobRet × JobSystem :=
  let arg : JobObj := { data := ⟨s.calls.length, svc.task, type⟩, destroyer := udfree }
  match svc.task, svc.txn, job with
  | some task, some _, true =>
    let r := s.createJob bioCnt src 0 arg 0
    if r.1 ≠ .ok then (.errorBio, r.2)
    else (.ok, { r.2 with
      pendings := fun t => if t = task then r.2.pendings t + 1 else r.2.pendings t })
  | _, _, _ => (.errorEnv, if udfree then s.mark (.udfree s.calls.length) else s)

/-- `skull_service_job_create_np`. -/
def skullServiceJobCreateNp (bioCnt : Nat) (s : JobSystem) (src : Sched) (interval : Nat)
    (type : JobRw) (job udfree : Bool) (bidx : Int) : SkullJobRet × JobSystem :=
  let arg : JobObj := { data := ⟨s.calls.length, none, type⟩, destroyer := udfree }
  if job = false then (.errorNocb, if udfree then s.mark (.udfree s.calls.length) else s)
  else
    let r := s.createJob bioCnt src interval arg bidx
    (if r.1 ≠ .ok then .errorBio else .ok, r.2)

/-- Remember a call. -/
def recordCall (c : JobCall) (r : SkullJobRet × JobSystem) : JobSystem :=
  { r.2 with calls := r.2.calls ++ [{ c with ret := r.1 }] }

/-! ### The timer -/

/-- `_timer_triggered`: the timer `t` fires. -/
def timerFires (s : JobSystem) (t : Nat) : Except JobFault JobSystem :=
  match s.timers.get? t with
  | none => .error .timerFreed
  | some timer => .ok { s with
      timers := s.timers.set t { timer with triggered := true }
      triggered := s.triggered ++ [⟨t, timer.entity, timer.ud⟩] }

/-- The handler of `SK_PTO_TIMER_TRIGGERED`, with `_job_triggered`; the message was taken out. -/
def timerTriggered (bioCnt : Nat) (s : JobSystem) (m : TimerMsg) : Except JobFault JobSystem :=
  if (s.entities.get? m.entity).isNone then .error .entityFreed
  else
    match s.timers.get? m.timer with
    | none => .error .timerFreed
    | some timer => do
      let s ← s.srvExec bioCnt
        (.jobTriggered timer.owner m.entity m.ud.ud timer.valid m.ud.bidx m.ud.interval)
      if timer.interval = 0 then
        -- `_jobdata_destroyer` looks at the owner of the entity
        if (s.entities.get? timer.ud.entity).isNone then .error .entityFreed
        else .ok { s with timers := s.timers.erase m.timer }
      else .ok s

/-! ### The entity -/

/-- `sk_entity_mgr_del`; there is nothing behind the `destroy` of such an entity. -/
def mgrDel (s : JobSystem) (i : Nat) : Except JobFault JobSystem :=
  match s.entities.get? i with
  | none => .error .entityFreed
  | some e =>
    if e.status = .dead then .ok s
    else .ok { s with
      entities := s.entities.set i { e with status := .dead }
      inactive := s.inactive ++ [i] }

/-- `sk_entity_safe_destroy` on the master. -/
def entitySafeDestroy (s : JobSystem) (i : Nat) : Except JobFault JobSystem :=
  match s.entities.get? i with
  | none => .error .entityFreed
  | some e =>
    if e.owner ≠ .master then
      if e.status ≠ .active then .ok s else .ok { s with destroys := s.destroys ++ [i] }
    else s.mgrDel i

/-- One turn of `_cleanup_dead_entities`: a timer entity has no tasks, so it is freed. -/
def freeDead (s : JobSystem) (i : Nat) : Except JobFault JobSystem :=
  match s.entities.get? i with
  | none => .error .entityFreed
  | some e =>
    if e.status ≠ .dead then .error .destroyStatus
    else
      let s := e.timers.foldl jobDataDestroy s
      .ok { s with
        entities := s.entities.erase i
        inactive := s.inactive.erase i
        freed := s.freed ++ [i] }

/-- `sk_entity_mgr_clean_dead` on the engine `x`. -/
def cleanDead (s : JobSystem) (x : Sched) : Except JobFault JobSystem :=
  (s.inactive.filter fun i => (s.entities.get? i).all fun e => e.owner = x).foldlM freeDead s

/-! ### The job function -/

/-- `_job_cb`, up to the call of the user. -/
def jobCb (s : JobSystem) (ud : JobData) (valid : Bool) (ret : JobRet) :
    Except JobFault JobSystem :=
  if (s.entities.get? ud.id).isNone then .error .entityFreed
  else if valid = false then .error .notValid
  else if ret ≠ .ok ∧ ret ≠ .errorBusy then .error .jobRet
  else .ok (s.mark (.called ud.id (if ret ≠ .ok then .errorBusy else .ok)))

/-- `_job_cb` on the engine `dst`, after the call of the user; `home` and `api` are the scheduler
    of the caller and the api of a task. -/
def jobReturns (bioCnt : Nat) (home : TaskRef → Sched) (api : TaskRef → Nat) (s : JobSystem)
    (dst : Sched) (ud : JobData) : Except JobFault JobSystem :=
  let s := s.mark (.returned ud.id)
  match ud.task with
  | none => .ok s
  | some task =>
    let s := { s with
      pendings := fun t => if t = task then s.pendings t - 1 else s.pendings t }.mark
        (.pendingsDown ud.id task)
    -- `sk_service_api_complete`
    if s.pendings task ≠ 0 then .ok s
    else s.srvExec bioCnt (.apiComplete dst (home task) task.txn (api task) task)

/-- What the end of the body of `p` does to a job. -/
def returned (bioCnt : Nat) (home : TaskRef → Sched) (api : TaskRef → Nat) (s : JobSystem)
    (p : Packet) : Except JobFault JobSystem :=
  match p.event.pto with
  | .svcTimerRun _ ud _ _ _ => s.jobReturns bioCnt home api p.event.dst ud
  | _ => .ok s

/-- The buffer that would take a task offered by the timer of a job is full. -/
def queueFull (s : JobSystem) (type : JobRw) : Bool :=
  let task := Service.emitTask .master 0 ⟨0, none, type⟩ true 0 type 0
  (s.srv.svc.pendingTasks.data.bufferFor task).elems.length = s.srv.svc.pendingTasks.maxSlots

/-- What the handler of the message of `p` does to a job; `full` says whether the queue was full
    before. -/
def handled (s : JobSystem) (p : Packet) (full : JobRw → Bool) : Except JobFault JobSystem :=
  match p.event.pto, p.event.owner with
  | .timerEmit _ ud _ _ type _, _ => .ok (s.mark (.offered ud.id (full type)))
  | .svcTimerRun _ ud valid status _, _ => s.jobCb ud valid status
  | .svcTimerDone _ status interval, .inr i =>
    let s := if status = .ok then s.mark (.setcomplete i) else s
    if interval = 0 then s.entitySafeDestroy i else .ok s
  | _, _ => .ok s

end JobSystem

/-! ### All runs -/

/-- What may happen next. -/
inductive JobAction
  /-- `skull_service_job_create` on the engine `src`. -/
  | create (src : Sched) (svc : SkullService) (type : JobRw) (job udfree : Bool)
  /-- `skull_service_job_create_np` on the engine `src`. -/
  | createNp (src : Sched) (interval : Nat) (type : JobRw) (job udfree : Bool) (bidx : Int)
  /-- A timer fires. -/
  | timerFires (t : Nat)
  /-- The `SK_PTO_TIMER_TRIGGERED` at `k` is handled. -/
  | timerTriggered (k : Nat)
  /-- A step of the service, which may call a job, end its call, or report it done. -/
  | srv (a : SrvAction)
  /-- The `SK_PTO_ENTITY_DESTROY` at `k` is handled. -/
  | entityDestroy (k : Nat)
  /-- The engine `x` cleans up its dead entities. -/
  | cleanDead (x : Sched)
  /-- Endpoint calls of a task begin or end. -/
  | pendings (task : TaskRef) (n : Int)
  deriving DecidableEq, Repr

/-- The timer of a job fires. -/
def SrvAction.fromTimer : SrvAction → Bool
  | .jobTriggered .. => true
  | _ => false

namespace JobSystem

/-- `_run_event` looks at the entity of a message; a message that is not about a job has that of
    its transaction. -/
def entityAlive (s : JobSystem) (p : Packet) : Bool :=
  match p.event.pto, p.event.owner with
  | .timerEmit .., .inr i | .svcTimerRun .., .inr i | .svcTimerDone .., .inr i =>
    (s.entities.get? i).isSome
  | _, _ => true

/-- The message at `i` is handled. -/
def deliver (bioCnt : Nat) (s : JobSystem) (i : Nat) (resumeWf : Bool) :
    Except JobFault JobSystem :=
  match s.srv.net[i]? with
  | none => .ok s
  | some p =>
    if s.entityAlive p = false then .error .entityFreed
    else do
      let s' ← s.srvExec bioCnt (.deliver i resumeWf)
      s'.handled p s.queueFull

/-- The body at `j` ends. -/
def bodyEnd (bioCnt : Nat) (home : TaskRef → Sched) (api : TaskRef → Nat) (s : JobSystem)
    (j : Nat) (failed taskDone : Bool) : Except JobFault JobSystem :=
  match s.srv.running[j]? with
  | none => .ok s
  | some p => do
    let s ← s.returned bioCnt home api p
    s.srvExec bioCnt (.bodyEnd j failed taskDone)

/-- What runs on an action. -/
def exec (bioCnt : Nat) (home : TaskRef → Sched) (api : TaskRef → Nat) (s : JobSystem) :
    JobAction → Except JobFault JobSystem
  | .create src svc type job udfree =>
    .ok (recordCall ⟨src, svc.task, type, 0, 0, udfree, .ok⟩
      (s.skullServiceJobCreate bioCnt src svc type job udfree))
  | .createNp src interval type job udfree bidx =>
    .ok (recordCall ⟨src, none, type, interval, bidx, udfree, .ok⟩
      (s.skullServiceJobCreateNp bioCnt src interval type job udfree bidx))
  | .timerFires t => s.timerFires t
  | .timerTriggered k =>
    match s.triggered[k]? with
    | none => .ok s
    | some m => { s with triggered := s.triggered.eraseIdx k }.timerTriggered bioCnt m
  | .srv (.deliver i resumeWf) => s.deliver bioCnt i resumeWf
  | .srv (.bodyEnd j failed taskDone) => s.bodyEnd bioCnt home api j failed taskDone
  | .srv a => s.srvExec bioCnt a
  | .entityDestroy k =>
    match s.destroys[k]? with
    | none => .ok s
    | some i => { s with destroys := s.destroys.eraseIdx k }.mgrDel i
  | .cleanDead x => s.cleanDead x
  | .pendings task n =>
    .ok { s with pendings := fun t => if t = task then s.pendings t + n else s.pendings t }

/-- When an action may happen: a timer without an interval fires once, and the service is told of
    a job by its timer only. -/
def enabled (bioCnt : Nat) (s : JobSystem) : JobAction → Prop
  | .timerFires t => ∃ timer ∈ s.timers.get? t, timer.triggered = false ∨ timer.interval ≠ 0
  | .timerTriggered k => k < s.triggered.length
  | .srv a => a.fromTimer = false ∧ s.srv.enabled bioCnt a
  | .entityDestroy k => k < s.destroys.length
  | .create .. | .createNp .. | .cleanDead _ | .pendings .. => True

instance (bioCnt : Nat) (s : JobSystem) (a : JobAction) : Decidable (s.enabled bioCnt a) :=
  match a with
  | .timerFires _ => inferInstanceAs (Decidable (∃ timer ∈ _, _ = _ ∨ _ ≠ _))
  | .timerTriggered _ | .entityDestroy _ => inferInstanceAs (Decidable (_ < _))
  | .srv a => inferInstanceAs (Decidable (a.fromTimer = false ∧ s.srv.enabled bioCnt a))
  | .create .. | .createNp .. | .cleanDead _ | .pendings .. => inferInstanceAs (Decidable True)

/-- A service that was just created, without jobs. -/
def Init (s : JobSystem) : Prop :=
  s.srv.Init ∧ s.calls = [] ∧ s.timers = Dict.empty ∧ s.triggered = [] ∧
    s.entities = Dict.empty ∧ s.destroys = [] ∧ s.inactive = [] ∧ s.freed = [] ∧ s.log = []

/-- The runs of a service with jobs, on a core with `bioCnt` bios. -/
def machine (bioCnt : Nat) (home : TaskRef → Sched) (api : TaskRef → Nat) :
    Machine JobSystem JobAction JobFault where
  init := Init
  enabled := enabled bioCnt
  exec := exec bioCnt home api

instance (bioCnt : Nat) (home : TaskRef → Sched) (api : TaskRef → Nat) (s : JobSystem)
    (a : JobAction) : Decidable ((machine bioCnt home api).enabled s a) :=
  inferInstanceAs (Decidable (s.enabled bioCnt a))

end JobSystem

end Skull
