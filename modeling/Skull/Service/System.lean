import Skull.Service.Schedule
import Skull.Lib.Machine
import Skull.Lib.Network

namespace Skull

open Machines

/-!
# One service and everything that talks to it

The system around a service: modules that call it, timers that fire, the master that handles
the messages about it, and the workers and bios that run the bodies of its apis and jobs.

* `SrvSystem` — the service, the messages in flight and the bodies that run;
* `SrvAction` — what may happen next: a call or a job is sent, a message is handled (in any
  order), a body ends or touches the service data;
* `SrvSystem.exec` — the code that runs then;
* `SrvSystem.machine` — the machine of all runs.

A `Packet` remembers the task whose completion its message will lead to.  The code does not
look at it; it says which tasks are scheduled and not yet reported done.
-/

/-- A message in flight, with the scheduled task that it will report done. -/
structure Packet where
  event : Event
  task : Option SrvTask
  deriving DecidableEq, Repr

/-- The packet of a task that was just scheduled. -/
def Scheduled.packet (x : Scheduled) : Packet := ⟨x.event, some x.task⟩

/-- A service, the messages about it and the history of its tasks. -/
structure SrvSystem where
  svc : Service
  /-- The messages in flight. -/
  net : List Packet
  /-- The messages whose api or job body is running. -/
  running : List Packet
  /-- The tasks for which `sk_service_push_task` returned OK. -/
  pushed : List SrvTask
  /-- What `sk_service_schedule_tasks` did. -/
  scheduled : List Scheduled
  /-- The tasks to which `sk_service_task_setcomplete` was applied. -/
  reported : List SrvTask
  deriving DecidableEq, Repr

/-- What may happen next. -/
inductive SrvAction
  /-- `sk_service_iocall` on the scheduler `src`. -/
  | iocall (src : Sched) (txn : TxnId) (api : Nat) (bidx : Int) (taskdata : TaskRef)
  /-- The timer of a service job fires (`_job_triggered`). -/
  | jobTriggered (src : Sched) (entity : Nat) (udata : JobData) (valid : Bool) (bidx : Int)
      (interval : Nat)
  /-- The message at `i` is handled; a caller resumes its workflow or not. -/
  | deliver (i : Nat) (resumeWf : Bool)
  /-- The body at `j` ends: whether it failed, and whether it left nothing pending. -/
  | bodyEnd (j : Nat) (failed taskDone : Bool)
  /-- A pending call of a finished body ends (`sk_service_api_complete`). -/
  | apiComplete (src caller : Sched) (txn : TxnId) (api : Nat) (taskdata : TaskRef)
  /-- The body at `j` calls `sk_service_data`. -/
  | getData (j : Nat)
  /-- The body at `j` calls `sk_service_data_set`. -/
  | setData (j : Nat) (data : Nat)
  deriving DecidableEq, Repr

/-- The body of a write api, or of a write job that is not turned away. -/
def Packet.isWriteBody (svc : Service) (p : Packet) : Bool :=
  match p.event.pto with
  | .svcTaskRun _ api _ _ _ => svc.api api = some .write
  | .svcTimerRun _ ud _ status _ => ud.rwType = .write ∧ status = .ok
  | _ => false

namespace SrvSystem

/-- The tasks scheduled and not yet reported done. -/
def outstanding (s : SrvSystem) : List SrvTask := (s.running ++ s.net).filterMap Packet.task

/-- Put a message in flight. -/
def send (s : SrvSystem) (e : Event) (task : Option SrvTask) : SrvSystem :=
  { s with net := s.net ++ [⟨e, task⟩] }

/-- After a round of scheduling. -/
def afterRound (s : SrvSystem) (r : List Scheduled × Service) : SrvSystem :=
  { s with svc := r.2, net := s.net ++ r.1.map Scheduled.packet, scheduled := s.scheduled ++ r.1 }

/-- After the master handled a new task. -/
def afterOffer (s : SrvSystem) (r : (SrvTask × (Event ⊕ List Scheduled)) × Service) :
    SrvSystem :=
  match r with
  | ((_, .inl busy), svc) => { s with svc }.send busy none
  | ((task, .inr xs), svc) => { s with pushed := s.pushed ++ [task] }.afterRound (xs, svc)

/-- The handler of the message of `p`, which has been taken out of `s.net`. -/
def handle (bioCnt : Nat) (s : SrvSystem) (p : Packet) (resumeWf : Bool) :
    Except SrvFault SrvSystem :=
  match p.event.pto with
  | .svcIocall service api bidx taskdata =>
    match p.event.owner with
    | .inr _ => .error .noTxn
    | .inl txn =>
      if service ≠ s.svc.name then .error .noService
      else (s.svc.svcIocall bioCnt p.event.src txn api bidx taskdata).map s.afterOffer
  | .timerEmit _ udata valid bidx type interval =>
    match p.event.owner with
    | .inl _ => .error .noEntity
    | .inr entity =>
      (s.svc.timerEmit bioCnt p.event.src entity udata valid bidx type interval).map s.afterOffer
  | .svcTaskRun service .. =>
    if service ≠ s.svc.name then .error .noService
    else .ok { s with running := s.running ++ [p] }
  | .svcTimerRun .. => .ok { s with running := s.running ++ [p] }
  | .svcTaskCb _ service _ _ svcTaskDone =>
    if service ≠ s.svc.name then .error .noService
    else .ok (s.send { p.event with src := p.event.dst, dst := .master,
                                    pto := .svcTaskDone service resumeWf svcTaskDone } p.task)
  | .svcTaskDone service _ svcTaskDone =>
    if service ≠ s.svc.name then .error .noService
    else (s.svc.svcTaskDone bioCnt svcTaskDone).map
      { s with reported := s.reported ++ p.task.toList }.afterRound
  | .svcTimerDone _ status _ =>
    (s.svc.svcTimerDone bioCnt status).map
      { s with reported := s.reported ++ p.task.toList }.afterRound
  | .workflowRun => .ok s

/-- The body of `p`, which has been taken out of `s.running`, ends. -/
def finish (s : SrvSystem) (p : Packet) (failed taskDone : Bool) : Except SrvFault SrvSystem :=
  match p.event.pto with
  | .svcTaskRun service api _ apiCaller taskdata =>
    if failed then .error .taskFailed
    else
      let status := if taskDone then TaskStatus.done else .pending
      .ok (s.send { p.event with src := p.event.dst, dst := apiCaller,
                                 pto := .svcTaskCb taskdata service api status true } p.task)
  | .svcTimerRun svc _ _ status interval =>
    .ok (s.send { p.event with src := p.event.dst, dst := .master,
                               pto := .svcTimerDone svc status interval } p.task)
  | _ => .ok s

/-- What runs on an action. -/
def exec (bioCnt : Nat) (s : SrvSystem) : SrvAction → Except SrvFault SrvSystem
  | .iocall src txn api bidx taskdata =>
    if Service.validateBidx bioCnt bidx then
      .ok (s.send ⟨src, .master, .inl txn, .svcIocall s.svc.name api bidx taskdata⟩ none)
    else .ok s
  | .jobTriggered src entity udata valid bidx interval =>
    .ok (s.send ⟨src, .master, .inr entity,
      .timerEmit s.svc.name udata valid bidx udata.rwType interval⟩ none)
  | .deliver i resumeWf =>
    match s.net[i]? with
    | none => .ok s
    | some p => { s with net := s.net.eraseIdx i }.handle bioCnt p resumeWf
  | .bodyEnd j failed taskDone =>
    match s.running[j]? with
    | none => .ok s
    | some p => { s with running := s.running.eraseIdx j }.finish p failed taskDone
  | .apiComplete src caller txn api taskdata =>
    .ok (s.send ⟨src, caller, .inl txn, .svcTaskCb taskdata s.svc.name api .done false⟩ none)
  | .getData _ => s.svc.getData.map fun _ => s
  | .setData _ data => (s.svc.setData data).map fun svc => { s with svc }

/-- When an action may happen: only registered apis are called, the bio index of a job was
    checked when it was created, a scheduler runs one body at a time, and the service data is
    touched by write bodies. -/
def enabled (bioCnt : Nat) (s : SrvSystem) : SrvAction → Prop
  | .iocall _ _ api _ _ => (s.svc.api api).isSome
  | .jobTriggered _ _ _ _ bidx _ => Service.validateBidx bioCnt bidx = true
  | .deliver i _ => ∃ p ∈ s.net[i]?, ∀ b ∈ s.running, b.event.dst ≠ p.event.dst
  | .bodyEnd j _ _ => j < s.running.length
  | .apiComplete .. => True
  | .getData j | .setData j _ => ∃ p ∈ s.running[j]?, p.isWriteBody s.svc = true

instance (bioCnt : Nat) (s : SrvSystem) (a : SrvAction) : Decidable (s.enabled bioCnt a) :=
  match a with
  | .iocall .. => inferInstanceAs (Decidable (_ = true))
  | .jobTriggered .. => inferInstanceAs (Decidable (_ = true))
  | .deliver .. => inferInstanceAs (Decidable (∃ p ∈ _, ∀ b ∈ _, _ ≠ _))
  | .bodyEnd .. => inferInstanceAs (Decidable (_ < _))
  | .apiComplete .. => inferInstanceAs (Decidable True)
  | .getData _ => inferInstanceAs (Decidable (∃ p ∈ _, _ = true))
  | .setData .. => inferInstanceAs (Decidable (∃ p ∈ _, _ = true))

/-- A freshly created service, with a configured `max_qsize` (a C `int`). -/
def Init (s : SrvSystem) : Prop :=
  ∃ name preferRead maxQsize apis, maxQsize < 2 ^ 31 ∧
    Service.create name preferRead maxQsize apis = .ok (some s.svc) ∧
    s.net = [] ∧ s.running = [] ∧ s.pushed = [] ∧ s.scheduled = [] ∧ s.reported = []

/-- The runs of a service on a core with `bioCnt` bios. -/
def machine (bioCnt : Nat) : Machine SrvSystem SrvAction SrvFault where
  init := Init
  enabled := enabled bioCnt
  exec := exec bioCnt

instance (bioCnt : Nat) (s : SrvSystem) (a : SrvAction) :
    Decidable ((machine bioCnt).enabled s a) :=
  inferInstanceAs (Decidable (s.enabled bioCnt a))

end SrvSystem

end Skull
