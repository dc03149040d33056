import Skull.Txn.Known
import Skull.Txn.Completion
import Mathlib.Algebra.BigOperators.Group.List.Basic

namespace Skull

open Machines

/-!
# Every run comes to an end

A message leads to others, those to others again.  What is in the system is weighed by the number
of steps that it leads to, where no user code makes new calls:

* `Event.work`, `SrvTask.work`, `PendingCall.work`, `TxnSlot.work` — the steps still to come for
  a message, a queued task, a pending call, a transaction with modules left;
* `TxnAction.gain` — the steps that requests and the calls of user code add;
* `TxnSystem.work_step` — every step takes one off;
* `TxnSystem.run_bounded` — a run takes no more steps than there were and were added.
-/

/-- The steps that a message leads to. -/
def Event.work (e : Event) : Nat :=
  match e.pto with
  | .workflowRun => 1
  | .svcTaskDone .. => 2
  | .svcTaskCb .. => 3
  | .svcTaskRun .. => 4
  | .svcIocall .. => 5
  | .svcTimerDone .. => 1
  | .svcTimerRun .. => 5
  | .timerEmit .. => 6

/-- The steps that a queued task leads to. -/
def SrvTask.work (q : SrvTask) : Nat :=
  match q.data with
  | .api .. => 4
  | .timer .. => 5

/-- The steps that a new pending call leads to. -/
def PendingKind.work : PendingKind → Nat
  | .ep => 4
  | .job _ => 7

/-- The steps that a pending call leads to. -/
def PendingCall.work (c : PendingCall) : Nat := if c.job.isSome then 7 else 4

/-- The modules that are left. -/
def Txn.left (t : Txn) : Nat := t.workflow.modules - t.workflowIdx

/-- The steps that a transaction leads to by itself. -/
def TxnSlot.work (slot : TxnSlot) : Nat := slot.txn.left + if slot.delivered then 0 else 2

/-- What a list of pending calls adds. -/
def callsGain (calls : List PendingKind) : Nat := (calls.map PendingKind.work).sum

/-- What the service calls of module code add. -/
def ModuleCode.gain (code : ModuleCode) : Nat := 5 * code.iocalls.length

/-- What user code adds. -/
def UserCode.gain (code : UserCode) : Nat :=
  code.run.gain + code.pack.gain + callsGain code.calls

/-- What an action adds. -/
def TxnAction.gain : TxnAction → Nat
  | .create workflow _ _ _ => workflow.modules + 3
  | .deliver .. => 0
  | .handle _ code => code.gain
  | .epCb _ calls => callsGain calls
  | .jobTriggered _ => 0
  | .npTriggered .. => 7

/-! ### What a handler for a transaction leaves -/

namespace TxnRun

/-- The steps that the transaction and what was sent lead to. -/
def work (r : TxnRun) : Nat := (r.sent.map Event.work).sum + r.txn.left

/-- What user code may still add in a state. -/
def allowance (code : UserCode) : TxnState → Nat
  | .init | .unpacked | .pending | .running => code.run.gain + code.pack.gain
  | .completed | .error | .timeout => code.pack.gain
  | .packed | .destroyed => 0

variable {v : TxnEnv} {code : UserCode} {r r' : TxnRun}

/-- A change of state is no work. -/
theorem setstate_work {st : TxnState} (h : r.setstate v st = .ok r') :
    r'.work = r.work ∧ r'.txn.state = st := by
  obtain ⟨rfl, -⟩ := setstate_ok h
  exact ⟨rfl, rfl⟩

/-- A call is work for those that answer it. -/
theorem iocall_work {c : Iocall} (h : r.iocall v c = .ok r') :
    r'.work ≤ r.work + 5 ∧ r'.txn.state = r.txn.state := by
  unfold iocall at h
  split at h
  · exact Except.ok.inj h ▸ ⟨Nat.le_add_right _ _, rfl⟩
  · split at h
    · exact Except.ok.inj h ▸ ⟨Nat.le_add_right _ _, rfl⟩
    · split at h
      · exact Except.ok.inj h ▸ ⟨Nat.le_add_right _ _, rfl⟩
      · split at h
        · exact Except.ok.inj h ▸ ⟨Nat.le_add_right _ _, rfl⟩
        · -- a call that is accepted sends one message
          obtain ⟨⟨id, txn⟩, hadd, rfl⟩ := except_map_ok.mp h
          have htxn : txn.left = r.txn.left ∧ txn.state = r.txn.state := by
            simp only [Txn.taskAdd] at hadd
            split at hadd
            · simp only [Except.ok.injEq, Prod.mk.injEq] at hadd
              rw [← hadd.2]
              exact ⟨rfl, rfl⟩
            · exact absurd hadd (by simp)
          refine ⟨?_, htxn.2⟩
          simp only [work, List.map_append, List.sum_append, htxn.1, List.map_cons, List.map_nil,
            List.sum_cons, List.sum_nil, Event.work]
          omega

theorem iocalls_work {cs : List Iocall} (h : r.iocalls v cs = .ok r') :
    r'.work ≤ r.work + 5 * cs.length ∧ r'.txn.state = r.txn.state := by
  induction cs generalizing r with
  | nil => exact Except.ok.inj h ▸ ⟨Nat.le_add_right _ _, rfl⟩
  | cons c cs ih =>
    obtain ⟨r₁, h1, h2⟩ := except_bind_ok.mp h
    obtain ⟨hwork, hstate⟩ := iocall_work h1
    obtain ⟨hwork', hstate'⟩ := ih h2
    refine ⟨?_, hstate'.trans hstate⟩
    rw [List.length_cons]
    omega

/-- The end of a transaction is no work. -/
theorem txnLogAndDestroy_work (r : TxnRun) : r.txnLogAndDestroy.work = r.work := by
  unfold txnLogAndDestroy
  split <;> rfl

/-- A module takes one off those that are left, and sends at most one message to go on. -/
theorem moduleRun_work {again : TxnRun → Except TxnFault TxnRun}
    (hagain : ∀ r r', again r = .ok r' → r'.work ≤ r.work + allowance code r.txn.state)
    (h : r.moduleRun v code.run again = .ok r') :
    r'.work ≤ r.work + code.run.gain + code.pack.gain := by
  unfold moduleRun at h
  by_cases hnone : r.txn.nextModule.1.isNone = true
  · -- no module is left
    simp only [hnone, if_true] at h
    obtain ⟨r₁, h1, h2⟩ := except_bind_ok.mp h
    obtain ⟨hwork, hstate⟩ := setstate_work h1
    have hnext : r.txn.nextModule.2.left = r.txn.left := by
      unfold Txn.nextModule at hnone ⊢
      split at hnone
      · exact absurd hnone (by simp)
      · rename_i hlt
        rw [if_neg hlt]
        rfl
    have hrest := hagain _ _ h2
    rw [hstate, allowance, hwork] at hrest
    simp only [work, hnext] at hrest ⊢
    omega
  · simp only [hnone, if_false, Bool.false_eq_true] at h
    obtain ⟨r₁, h1, h⟩ := except_bind_ok.mp h
    obtain ⟨r₂, h2, h⟩ := except_bind_ok.mp h
    have hnext : r.txn.nextModule.2.left + 1 = r.txn.left := by
      unfold Txn.nextModule at hnone ⊢
      split at hnone
      · rename_i hlt
        rw [if_pos hlt]
        simp only [Txn.left]
        omega
      · exact absurd rfl hnone
    obtain ⟨hwork₁, -⟩ := iocalls_work h1
    have hcode : r₂.work + 1 ≤ r.work + code.run.gain := by
      have h12 : r₂.work = r₁.work := by
        split at h2
        · exact (setstate_work h2).1
        · rw [← Except.ok.inj h2]
      simp only [work] at hwork₁ h12 ⊢
      simp only [ModuleCode.gain]
      omega
    split at h
    · split at h
      · have hwork := (setstate_work h).1
        omega
      · rw [← Except.ok.inj h]
        omega
    · split at h
      · -- a module that failed goes to `pack`
        rename_i hfailed
        rw [if_pos hfailed] at h2
        have hrest := hagain _ _ h
        rw [(setstate_work h2).2, allowance] at hrest
        omega
      · split at h
        · rw [← Except.ok.inj h]
          simp only [work, List.map_append, List.sum_append, List.map_cons, List.map_nil,
            List.sum_cons, List.sum_nil, Event.work] at hcode ⊢
          omega
        · obtain ⟨r₃, h3, h4⟩ := except_bind_ok.mp h
          have hrest := hagain _ _ h4
          obtain ⟨hwork, hstate⟩ := setstate_work h3
          rw [hstate, allowance, hwork] at hrest
          omega

/-- A pack is as much as it gains. -/
theorem modulePack_work {again : TxnRun → Except TxnFault TxnRun}
    (hagain : ∀ r r', again r = .ok r' → r'.work ≤ r.work + allowance code r.txn.state)
    (h : r.modulePack v code.pack again = .ok r') : r'.work ≤ r.work + code.pack.gain := by
  unfold modulePack at h
  split at h
  · exact absurd h (by simp)
  · split at h
    · obtain ⟨r₁, h1, h2⟩ := except_bind_ok.mp h
      obtain ⟨hwork, hstate⟩ := setstate_work h1
      have hrest := hagain _ _ h2
      rw [hstate, allowance] at hrest
      omega
    · obtain ⟨r₁, h1, h⟩ := except_bind_ok.mp h
      obtain ⟨r₂, h2, h3⟩ := except_bind_ok.mp h
      obtain ⟨hwork₁, -⟩ := iocalls_work h1
      obtain ⟨hwork₂, hstate⟩ := setstate_work h2
      have hrest := hagain _ _ h3
      rw [hstate, allowance] at hrest
      simp only [work, ModuleCode.gain] at *
      omega

/-- **A whole run** adds what its code calls. -/
theorem run_work (depth : Nat) : ∀ {r r' : TxnRun}, r.run v code depth = .ok r' →
    r'.work ≤ r.work + allowance code r.txn.state := by
  induction depth with
  | zero => intro r r' h; exact absurd h (by simp [run])
  | succ depth ih =>
    intro r r' h
    simp only [run] at h
    obtain ⟨r₁, h1, h⟩ := except_bind_ok.mp h
    -- a call that is late changes the state, which costs nothing
    have hwork₁ : r₁.work = r.work := by
      split at h1
      · exact (setstate_work h1).1
      · rw [← Except.ok.inj h1]
    have hagain : ∀ r r' : TxnRun, r.run v code depth = .ok r' →
        r'.work ≤ r.work + allowance code r.txn.state := fun _ _ => ih
    cases hst : r.txn.state <;> simp only [hst] at h
    -- the state becomes running, and `_run` is called again
    case init | unpacked | pending =>
      obtain ⟨r₂, h2, h3⟩ := except_bind_ok.mp h
      obtain ⟨hwork, hstate⟩ := setstate_work h2
      have hrest := ih h3
      rw [hstate, hwork, hwork₁] at hrest
      exact hrest
    case running =>
      have hrest := moduleRun_work hagain h
      rw [hwork₁] at hrest
      rw [allowance]
      omega
    case completed | error | timeout =>
      have hrest := modulePack_work hagain h
      rwa [hwork₁] at hrest
    -- it is logged and destroyed, and sends nothing
    case packed =>
      obtain ⟨r₂, h2, h3⟩ := except_bind_ok.mp h
      rw [← Except.ok.inj h3, txnLogAndDestroy_work, (setstate_work h2).1, hwork₁]
      exact Nat.le_add_right _ _
    case destroyed =>
      rw [← Except.ok.inj h, txnLogAndDestroy_work, hwork₁]
      exact Nat.le_add_right _ _

/-- What a state is allowed is no more than what the code gains. -/
theorem allowance_le (st : TxnState) : allowance code st ≤ code.run.gain + code.pack.gain := by
  cases st <;> simp only [allowance] <;> omega

/-- A run of the workflow is as much as it gains. -/
theorem workflowRun_work (h : r.workflowRun v code = .ok r') :
    r'.work ≤ r.work + (code.run.gain + code.pack.gain) :=
  (run_work 4 h).trans (Nat.add_le_add_left (allowance_le _) _)

/-- A callback is followed by a message to the master. -/
theorem svcTaskCb_work {code : ModuleCode} {t : TaskRef} {service : Nat} {status : TaskStatus}
    {done : Bool} (h : r.svcTaskCb v code t service status done = .ok r') :
    r'.work ≤ r.work + code.gain + 2 := by
  obtain ⟨-, k, r₁, -, -, h1, rfl⟩ := svcTaskCb_ok h
  -- the callback adds what its code asks for, the report is 2
  have hfirst : r₁.work ≤ r.work + code.gain := by
    split at h1
    · obtain ⟨txn, htxn, h1⟩ := except_bind_ok.mp h1
      -- setting the task complete leaves the modules that are to come
      have hleft : txn.left = r.txn.left := by
        unfold Txn.taskSetcomplete at htxn
        split at htxn
        · cases hk : r.txn.taskTbl[t.taskId]? with
          | none => simp [hk] at htxn
          | some k =>
            simp only [hk, Except.ok.injEq] at htxn
            rw [← htxn]
            rfl
        · exact absurd htxn (by simp)
      simp only at h1
      split at h1
      · exact absurd h1 (by simp)
      · unfold iocallComplete at h1
        cases hk : txn.taskTbl[t.taskId]? with
        | none => simp [hk] at h1
        | some k =>
          simp only [hk] at h1
          split at h1
          · -- the callback may make calls, and may fail
            obtain ⟨r₂, h2, h3⟩ := except_bind_ok.mp h1
            obtain ⟨hwork₂, -⟩ := iocalls_work h2
            have hwork₃ : r₁.work = r₂.work := by
              split at h3
              · exact (setstate_work h3).1
              · rw [← Except.ok.inj h3]
            simp only [work, hleft, ModuleCode.gain] at *
            omega
          · rw [← Except.ok.inj h1]
            simp only [work, hleft]
            omega
    · rw [← Except.ok.inj h1]
      omega
  simp only [work, List.map_append, List.sum_append, List.map_cons, List.map_nil,
    List.sum_cons, List.sum_nil, Event.work] at hfirst ⊢
  omega

end TxnRun

/-! ### The system -/

/-- The steps that the queue of a service leads to. -/
def Service.work (svc : Service) : Nat := (svc.queued.map SrvTask.work).sum

/-- A task that is scheduled is as much as before. -/
theorem runEvent_work (q : SrvTask) (name : Nat) (dst : Sched) :
    (q.runEvent name dst).work = q.work := by
  unfold SrvTask.runEvent SrvTask.work Event.work
  cases q.data <;> rfl

/-- One that is refused is no more. -/
theorem busyEvent_work (q : SrvTask) (name : Nat) : (q.busyEvent name).work ≤ q.work := by
  unfold SrvTask.busyEvent SrvTask.work Event.work
  cases q.data <;> simp

/-- A sum over a list of which an element is taken out. -/
theorem sum_take {α : Type} {l : List α} {i : Nat} {a : α} (w : α → Nat) (h : l[i]? = some a) :
    (l.map w).sum = w a + ((l.eraseIdx i).map w).sum := by
  rw [((perm_take h).map w).sum_eq, List.map_cons, List.sum_cons]

/-- And replaced by another one. -/
theorem sum_set {α : Type} {l : List α} {i : Nat} {a : α} (w : α → Nat) (h : l[i]? = some a)
    (b : α) : ((l.set i b).map w).sum = w b + ((l.eraseIdx i).map w).sum := by
  have hlt := (List.getElem?_eq_some_iff.mp h).1
  rw [((List.set_perm_cons_eraseIdx hlt b).map w).sum_eq, List.map_cons, List.sum_cons]

/-- One element of a sum changes. -/
theorem sum_modify {α : Type} {l : List α} {i : Nat} {a : α} (w : α → Nat) (h : l[i]? = some a)
    (f : α → α) : ((l.modify i f).map w).sum = w (f a) + ((l.eraseIdx i).map w).sum := by
  obtain ⟨hlt, rfl⟩ := List.getElem?_eq_some_iff.mp h
  rw [← sum_set w (List.getElem?_eq_getElem hlt) (f l[i]), List.modify_eq_take_cons_drop hlt,
    List.set_eq_take_append_cons_drop, if_pos hlt]

/-- A round of scheduling turns queued tasks into messages. -/
theorem Service.Conserves.work {bioCnt : Nat} {svc svc' : Service} {xs : List Scheduled}
    (hc : svc.Conserves bioCnt xs svc') :
    ((xs.map Scheduled.event).map Event.work).sum + svc'.work = svc.work := by
  have hevents : (xs.map Scheduled.event).map Event.work =
      (xs.map Scheduled.task).map SrvTask.work := by
    rw [List.map_map, List.map_map]
    refine List.map_congr_left fun x hx => ?_
    obtain ⟨dst, -, hevent⟩ := hc.event x hx
    show x.event.work = x.task.work
    rw [hevent, runEvent_work]
  rw [hevents, Service.work, Service.work, (hc.queued.map SrvTask.work).sum_eq, List.map_append,
    List.sum_append]

namespace TxnSystem

variable {s s' : TxnSystem} {bioCnt : Nat}

/-- The steps that are still to come. -/
def work (s : TxnSystem) : Nat :=
  (s.net.map Event.work).sum + (s.calls.map PendingCall.work).sum +
    (s.services.map Service.work).sum + (s.txns.map TxnSlot.work).sum

/-- A message that is taken. -/
theorem work_take {i : Nat} {e : Event} (h : s.net[i]? = some e) :
    s.work = e.work + ({ s with net := s.net.eraseIdx i } : TxnSystem).work := by
  simp only [work, sum_take Event.work h]
  omega

/-- A call that is taken. -/
theorem work_takeCall {i : Nat} {c : PendingCall} (h : s.calls[i]? = some c) :
    s.work = c.work + ({ s with calls := s.calls.eraseIdx i } : TxnSystem).work := by
  simp only [work, sum_take PendingCall.work h]
  omega

/-- Messages that are sent. -/
theorem work_sent (s : TxnSystem) (es : List Event) :
    ({ s with net := s.net ++ es } : TxnSystem).work = s.work + (es.map Event.work).sum := by
  simp only [work, List.map_append, List.sum_append]
  omega

/-- A message that is sent. -/
theorem work_send (s : TxnSystem) (e : Event) : (s.send e).work = s.work + e.work := by
  rw [send, work_sent, List.map_singleton, List.sum_singleton]

/-- What a task waits for leads to no steps. -/
theorem work_setTask (s : TxnSystem) (t : TaskRef) (k : TxnTask) :
    (s.setTask t k).work = s.work := by
  cases hslot : s.txns[t.txn]? with
  | none =>
    rw [setTask, work, work, List.modify_eq_self (List.getElem?_eq_none_iff.mp hslot)]
  | some slot =>
    have htxns := sum_modify TxnSlot.work hslot fun slot =>
      { slot with txn := { slot.txn with taskTbl := slot.txn.taskTbl.set t.taskId k } }
    rw [setTask, work, work, htxns, sum_take TxnSlot.work hslot]
    rfl

/-- A pending call. -/
theorem pendingCall_work {sched : Sched} {service : Nat} {t : TaskRef} {kind : PendingKind}
    (h : s.pendingCall sched service t kind = .ok s') : s'.work = s.work + kind.work := by
  obtain ⟨k, -, rfl⟩ := except_map_ok.mp h
  have hset := work_setTask s t { k with pendings := k.pendings + 1 }
  cases kind with
  | ep =>
    simp only [work, List.map_append, List.sum_append, List.map_cons, List.map_nil, List.sum_cons,
      List.sum_nil, PendingCall.work, PendingKind.work] at hset ⊢
    simp only [Option.isSome_none, Bool.false_eq_true, if_false]
    omega
  | job rw' =>
    simp only [work, List.map_append, List.sum_append, List.map_cons, List.map_nil, List.sum_cons,
      List.sum_nil, PendingCall.work, PendingKind.work] at hset ⊢
    simp only [Option.isSome_some, if_true]
    omega

/-- Pending calls. -/
theorem pendingCalls_work {sched : Sched} {service : Nat} {t : TaskRef} {calls : List PendingKind}
    (h : s.pendingCalls sched service t calls = .ok s') : s'.work = s.work + callsGain calls := by
  induction calls generalizing s with
  | nil => exact Except.ok.inj h ▸ rfl
  | cons kind calls ih =>
    obtain ⟨s₁, h1, h2⟩ := except_bind_ok.mp h
    rw [ih h2, pendingCall_work h1, callsGain, callsGain, List.map_cons, List.sum_cons, add_assoc]

/-- A callback may send an answer. -/
theorem pendingCb_work {sched : Sched} {service : Nat} {t : TaskRef} {calls : List PendingKind}
    (h : s.pendingCb sched service t calls = .ok s') :
    s'.work ≤ s.work + callsGain calls + 3 := by
  obtain ⟨s₁, h1, h⟩ := except_bind_ok.mp h
  obtain ⟨k, -, h2⟩ := except_bind_ok.mp h
  have hcalls := pendingCalls_work h1
  have hset := work_setTask s₁ t { k with pendings := k.pendings - 1 }
  obtain ⟨k', -, rfl⟩ := apiComplete_spec h2
  split
  · rw [work_send]
    simp only [Event.work]
    omega
  · omega

/-- A handler of the master on the service `k`. -/
theorem work_service {k : Nat} {svc : Service} (h : s.services[k]? = some svc) (svc' : Service)
    (net : List Event) (log : List Mark) :
    ({ s with services := s.services.set k svc', net, log } : TxnSystem).work + svc.work +
      (s.net.map Event.work).sum = s.work + svc'.work + (net.map Event.work).sum := by
  have hset := sum_set Service.work h svc'
  have htake := sum_take Service.work h
  simp only [work]
  omega

/-- A task is offered to a service. -/
theorem offer_work {k : Nat} {svc : Service} {q : SrvTask} (hk : s.services[k]? = some svc)
    {r : (SrvTask × (Event ⊕ List Scheduled)) × Service} (ho : svc.Offered bioCnt q r) :
    (afterOffer k s r).work ≤ s.work + q.work := by
  cases ho with
  | @busy svc' hqueued hname hapis =>
    have hsvc : svc'.work = svc.work := by
      rw [Service.work, Service.work, (hqueued.map SrvTask.work).sum_eq]
    have hbusy := busyEvent_work q svc.name
    have hstep := work_service hk svc' (s.net ++ [q.busyEvent svc.name]) s.log
    rw [List.map_append, List.sum_append, List.map_singleton, List.sum_singleton] at hstep
    show TxnSystem.work { s with
      services := s.services.set k svc', net := s.net ++ [q.busyEvent svc.name] } ≤ _
    omega
  | @queued svc₁ svc' xs hqueued hname hapis hround =>
    have hround' := hround.work
    have hsvc : svc₁.work = svc.work + q.work := by
      rw [Service.work, Service.work, (hqueued.map SrvTask.work).sum_eq, List.map_append,
        List.sum_append, List.map_singleton, List.sum_singleton]
    have hstep := work_service hk svc' (s.net ++ xs.map Scheduled.event)
      (s.log ++ xs.filterMap markOf)
    rw [List.map_append, List.sum_append] at hstep
    show TxnSystem.work { s with
      services := s.services.set k svc', net := s.net ++ xs.map Scheduled.event
      log := s.log ++ xs.filterMap markOf } ≤ _
    omega

/-- A round of scheduling. -/
theorem round_work {k : Nat} {svc svc' : Service} {xs : List Scheduled}
    (hk : s.services[k]? = some svc) (hc : svc.Conserves bioCnt xs svc') :
    (afterRound k s (xs, svc')).work = s.work := by
  have hround := hc.work
  have hstep := work_service hk svc' (s.net ++ xs.map Scheduled.event)
    (s.log ++ xs.filterMap markOf)
  rw [List.map_append, List.sum_append] at hstep
  show TxnSystem.work { s with
    services := s.services.set k svc', net := s.net ++ xs.map Scheduled.event
    log := s.log ++ xs.filterMap markOf } = _
  omega

/-- A handler for a transaction. -/
theorem commit_work {x : TxnId} {slot : TxnSlot} (hslot : s.txns[x]? = some slot) {r : TxnRun} :
    (s.commit x r).work + slot.txn.left = s.work + r.work := by
  have hmodify := sum_modify TxnSlot.work hslot fun slot =>
    { slot with txn := r.txn, released := r.released }
  have htake := sum_take TxnSlot.work hslot
  simp only [commit, work, TxnRun.work, hmodify, htake, List.map_append, List.sum_append,
    TxnSlot.work]
  omega

/-- **A message is handled**, and leads to fewer steps than it did. -/
theorem handle_work {i : Nat} {e : Event} (hi : s.net[i]? = some e) {code : UserCode}
    (hx : ({ s with net := s.net.eraseIdx i } : TxnSystem).handle bioCnt e code = .ok s') :
    s'.work + 1 ≤ s.work + code.gain := by
  have htake := work_take hi
  -- the rest of the system, of which nothing more is needed
  obtain ⟨s₀, hs₀⟩ : ∃ s₀, ({ s with net := s.net.eraseIdx i } : TxnSystem) = s₀ := ⟨_, rfl⟩
  rw [hs₀] at htake hx
  unfold TxnSystem.handle at hx
  cases hpto : e.pto with
  | workflowRun =>
    simp only [hpto] at hx
    obtain ⟨x, slot, r, -, hslot, -, hr, rfl⟩ := onTxn_ok hx
    -- each message is worth more than all that its handler sends
    have hwork : e.work = 1 := by rw [Event.work, hpto]
    have hrun := TxnRun.workflowRun_work hr
    have hcommit := commit_work hslot (r := r)
    simp only [TxnRun.work, List.map_nil, List.sum_nil, UserCode.gain] at hrun hcommit ⊢
    omega
  | svcTaskCb t service api status done =>
    simp only [hpto] at hx
    obtain ⟨x, slot, r, -, hslot, -, hr, rfl⟩ := onTxn_ok hx
    have hwork : e.work = 3 := by rw [Event.work, hpto]
    have hrun := TxnRun.svcTaskCb_work hr
    have hcommit := commit_work hslot (r := r)
    simp only [TxnRun.work, List.map_nil, List.sum_nil, UserCode.gain] at hrun hcommit ⊢
    omega
  | svcTaskRun service api io caller t =>
    simp only [hpto] at hx
    obtain ⟨s₁, k, h1, -, rfl⟩ := svcTaskRun_ok hx
    have hwork : e.work = 4 := by rw [Event.work, hpto]
    have hcalls := pendingCalls_work h1
    rw [work_send]
    simp only [Event.work, UserCode.gain] at hcalls ⊢
    omega
  | svcTimerRun service ud valid status interval =>
    simp only [hpto] at hx
    obtain ⟨s₁, rfl, hrun⟩ := svcTimerRun_ok hx
    have hwork : e.work = 5 := by rw [Event.work, hpto]
    -- what the callback of the job asks for comes to its report
    have hcb : s₁.work ≤ s₀.work + callsGain code.calls + 3 := by
      rcases hrun with ⟨-, rfl⟩ | ⟨t, -, h1⟩
      · omega
      · exact pendingCb_work h1
    rw [work_send]
    simp only [Event.work, UserCode.gain]
    omega
  | svcIocall service api bidx t =>
    simp only [hpto] at hx
    have hwork : e.work = 5 := by rw [Event.work, hpto]
    cases howner : e.owner with
    | inr entity => simp [howner] at hx
    | inl x =>
      simp only [howner] at hx
      obtain ⟨svc, r, hsvc, hr, rfl⟩ := onService_ok hx
      obtain ⟨type, ho⟩ := Service.svcIocall_conserves hr
      have hoffer := offer_work hsvc ho
      -- a task in the queue is worth one less than its message
      have htask : (svc.iocallTask e.src x api type bidx t).work = 4 := rfl
      omega
  | timerEmit service ud valid bidx type interval =>
    simp only [hpto] at hx
    have hwork : e.work = 6 := by rw [Event.work, hpto]
    cases howner : e.owner with
    | inl x => simp [howner] at hx
    | inr entity =>
      simp only [howner] at hx
      obtain ⟨svc, r, hsvc, hr, rfl⟩ := onService_ok hx
      have hoffer := offer_work hsvc (Service.timerEmit_conserves hr)
      have htask : (Service.emitTask e.src entity ud valid bidx type interval).work = 5 := rfl
      omega
  | svcTaskDone service resumeWf done =>
    simp only [hpto] at hx
    have hwork : e.work = 2 := by rw [Event.work, hpto]
    obtain ⟨svc, ⟨xs, svc'⟩, hsvc, hr, rfl⟩ := onService_ok hx
    have hc := Service.svcTaskDone_conserves hr
    -- a task that is scheduled was worth as much in the queue
    rw [round_work hsvc hc]
    split
    · rw [work_send]
      simp only [Event.work]
      omega
    · omega
  | svcTimerDone service status interval =>
    simp only [hpto] at hx
    have hwork : e.work = 1 := by rw [Event.work, hpto]
    obtain ⟨svc, ⟨xs, svc'⟩, hsvc, hr, rfl⟩ := onService_ok hx
    rw [round_work hsvc (Service.svcTimerDone_conserves hr)]
    omega

/-- **Every step** takes one off. -/
theorem work_step {a : TxnAction} (he : s.enabled bioCnt a) (hx : s.exec bioCnt a = .ok s') :
    s'.work + 1 ≤ s.work + a.gain := by
  cases a with
  | create workflow home now immediate =>
    rw [← Except.ok.inj hx]
    -- each module to come is paid for by the new transaction
    have hleft : (newTxn workflow now immediate).left = workflow.modules := rfl
    simp only [work, List.map_append, List.sum_append, List.map_cons, List.map_nil, List.sum_cons,
      List.sum_nil, TxnSlot.work, TxnAction.gain, hleft, Bool.false_eq_true, if_false]
    omega
  | deliver x src =>
    obtain ⟨slot, hslot, hdel⟩ := he
    rw [Option.mem_def] at hslot
    simp only [exec, hslot] at hx
    rw [← Except.ok.inj hx, work_send]
    -- a transaction that is not delivered is worth its message, too
    have hmodify := sum_modify TxnSlot.work hslot fun slot => { slot with delivered := true }
    have htake := sum_take TxnSlot.work hslot
    simp only [work, hmodify, htake, TxnSlot.work, hdel, Event.work, TxnAction.gain, if_true,
      Bool.false_eq_true, if_false]
    omega
  | handle i code =>
    obtain ⟨e, hi, -⟩ := he
    rw [Option.mem_def] at hi
    simp only [exec, hi] at hx
    exact handle_work hi hx
  | epCb i calls =>
    obtain ⟨c, hi, hjob⟩ := he
    rw [Option.mem_def] at hi
    simp only [exec, hi] at hx
    have hcb := pendingCb_work hx
    have htake := work_takeCall hi
    -- a call is worth more than the answer that it gives
    have hwork : c.work = 4 := by rw [PendingCall.work, hjob]; rfl
    simp only [TxnAction.gain]
    omega
  | jobTriggered i =>
    obtain ⟨c, hi, hjob⟩ := he
    rw [Option.mem_def] at hi
    obtain ⟨ud, hud⟩ := Option.isSome_iff_exists.mp hjob
    simp only [exec, hi, hud] at hx
    have htake := work_takeCall hi
    have hwork : c.work = 7 := by rw [PendingCall.work, hud]; rfl
    rw [← Except.ok.inj hx, work_send]
    simp only [TxnAction.gain, Event.work]
    omega
  | npTriggered src service entity id rw bidx interval =>
    rw [← Except.ok.inj hx, work_send]
    simp only [TxnAction.gain, Event.work]
    omega

/-- **Runs are bounded.** A run takes no more steps than those that were to come when it began and
    those that its requests and the calls of user code added; what is left is still to come. -/
theorem run_bounded {p : List (TxnAction × TxnSystem)} (hp : (machine bioCnt).Path s p) :
    p.length + (Machine.last s p).work ≤ s.work + (p.map fun b => b.1.gain).sum :=
  hp.length_add_le (I := fun _ => True) (fun _ _ _ _ _ _ => trivial)
    (fun _ _ _ _ he hx => work_step he hx) trivial

/-- One call is made and answered. -/
theorem oneCall_bounded :
    ((machine 0).trace fresh oneCall).length +
        (Machine.last fresh ((machine 0).trace fresh oneCall)).work ≤
      fresh.work + (((machine 0).trace fresh oneCall).map fun b => b.1.gain).sum :=
  run_bounded (Machine.trace_path oneCall fresh)

end TxnSystem

end Skull
