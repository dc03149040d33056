import Skull.Service.Service
import Mathlib.Data.List.Perm.Basic

namespace Skull

/-!
# Transactions (`sk_txn`)

A `Txn` is one request on its way through the modules of a workflow, with the service calls
(its tasks) that the modules make.  Task ids are handed out in order, so the task table is a
list and the id of a task its place there; tasks stay in the table until the transaction is
destroyed.

The counters `totalTasks`, `completeTasks`, `pendingTasks` and `pendings` count objects in
memory and are unbounded here.
-/

/-- `sk_txn_state_t`. -/
inductive TxnState
  | init | unpacked | running | pending | completed | packed | error | timeout | destroyed
  deriving DecidableEq, Repr

/-- The assertions and the uses of freed memory on the way of a transaction. -/
inductive TxnFault
  /-- An assertion of a service. -/
  | srv (fault : SrvFault)
  /-- `state == SK_TXN_DESTROYED` in `sk_txn_setstate`. -/
  | setstate
  /-- `complete_tasks < total_tasks` in `sk_txn_task_add` and `sk_txn_task_setcomplete`. -/
  | taskCount
  /-- `task` is `NULL`. -/
  | noTask
  /-- A destroyed transaction is used. -/
  | txnFreed
  /-- The last module is `NULL` in `_module_pack`. -/
  | noModule
  /-- The calls of `_run` in the handler of `SK_PTO_WORKFLOW_RUN` nest too deep. -/
  | depth
  /-- `sched == sk_entity_sched(entity)` in the handler of `SK_PTO_SVC_TASK_CB`. -/
  | cbSched
  /-- `caller_module` is `NULL` where the handler of `SK_PTO_SVC_TASK_CB` reads its name. -/
  | noCaller
  /-- `valid` in `_job_cb`. -/
  | jobValid
  deriving DecidableEq, Repr

/-- `sk_workflow_t`: the number of modules, whether the last one has a `pack` function, and
    `cfg->timeout` in milliseconds. -/
structure Workflow where
  modules : Nat
  hasPack : Bool
  timeout : Int
  deriving DecidableEq, Repr

/-- `sk_txn_task_t` with its `sk_txn_taskdata_t`; `cb` says whether there is a callback. -/
structure TxnTask where
  apiName : Nat
  cb : Bool
  callerModule : Option Nat
  pendings : Int
  status : TaskStatus
  deriving DecidableEq, Repr

/-- `sk_txn_t`: `current` is the number of the current module, `workflowIdx` that of the module
    the iterator will give next. -/
structure Txn where
  workflow : Workflow
  current : Option Nat
  workflowIdx : Nat
  taskTbl : List TxnTask
  error : Bool
  totalTasks : Int
  completeTasks : Int
  startTime : Int
  state : TxnState
  pendingTasks : Int
  deriving DecidableEq, Repr

/-- `SK_US_PER_MS`. -/
def usPerMs : Int := 1000

/-- `sk_txn_task_done`; `pendings` is unsigned, so it is done at zero only. -/
def TxnTask.taskDone (k : TxnTask) : Bool := if k.pendings ≠ 0 then false else true

/-- The task has not been completed. -/
def TxnTask.incomplete (k : TxnTask) : Bool := k.status = .running

/-- `sk_workflow_last_module`. -/
def Workflow.lastModule (w : Workflow) : Option Nat :=
  if w.modules = 0 then none else some (w.modules - 1)

namespace Txn

/-- `sk_txn_create`. -/
def create (workflow : Workflow) (now : Int) : Txn :=
  { workflow, current := none, workflowIdx := 0, taskTbl := [], error := false, totalTasks := 0
    completeTasks := 0, startTime := now, state := .init, pendingTasks := 0 }

/-- `sk_txn_next_module`. -/
def nextModule (t : Txn) : Option Nat × Txn :=
  if t.workflowIdx < t.workflow.modules then
    (some t.workflowIdx, { t with current := some t.workflowIdx, workflowIdx := t.workflowIdx + 1 })
  else (none, { t with current := none })

/-- `sk_txn_current_module`. -/
def currentModule (t : Txn) : Option Nat := t.current

/-- `sk_txn_is_last_module`. -/
def isLastModule (t : Txn) : Bool := t.current = t.workflow.lastModule

/-- `sk_txn_module_complete`. -/
def moduleComplete (t : Txn) : Bool := t.pendingTasks = 0

/-- `sk_txn_alltask_complete`. -/
def alltaskComplete (t : Txn) : Bool := t.completeTasks = t.totalTasks

/-- `sk_txn_task_add`: the id of the task. -/
def taskAdd (t : Txn) (apiName : Nat) (cb : Bool) (callerModule : Option Nat) :
    Except TxnFault (Nat × Txn) :=
  let task : TxnTask := { apiName, cb, callerModule, pendings := 0, status := .running }
  let taskId := t.taskTbl.length
  let t := { t with
    taskTbl := t.taskTbl ++ [task]
    totalTasks := t.totalTasks + 1
    pendingTasks := t.pendingTasks + if cb then 1 else 0 }
  if t.completeTasks < t.totalTasks then .ok (taskId, t) else .error .taskCount

/-- `sk_txn_task_setcomplete`. -/
def taskSetcomplete (t : Txn) (taskId : Nat) (status : TaskStatus) : Except TxnFault Txn :=
  if t.completeTasks < t.totalTasks then
    match t.taskTbl[taskId]? with
    | none => .error .noTask
    | some task => .ok { t with
        taskTbl := t.taskTbl.set taskId { task with status }
        completeTasks := t.completeTasks + 1
        pendingTasks := t.pendingTasks - if task.cb then 1 else 0 }
  else .error .taskCount

/-- `sk_txn_setstate`. -/
def setstate (t : Txn) (state : TxnState) : Except TxnFault Txn :=
  if t.state = .destroyed ∧ state ≠ .destroyed then .error .setstate
  else .ok { t with state, error := t.error || state = .error }

/-- `sk_txn_timeout`, when `sk_time_us` gives `now`. -/
def timeout (t : Txn) (now : Int) : Bool :=
  if t.workflow.timeout ≤ 0 then false
  else if t.state = .error then false
  else (now - t.startTime).tdiv usPerMs > t.workflow.timeout

/-- The tasks with a callback that are not complete, as the table shows them. -/
def waiting (t : Txn) : Nat := t.taskTbl.countP fun k => k.cb && k.incomplete

/-- The tasks that are complete, as the table shows them. -/
def finished (t : Txn) : Nat := t.taskTbl.countP fun k => !k.incomplete

/-! ### What the counters count -/

/-- The counters agree with the task table. -/
structure Counts (t : Txn) : Prop where
  total : t.totalTasks = t.taskTbl.length
  complete : t.completeTasks = t.finished
  pending : t.pendingTasks = t.waiting

/-- A new transaction counts nothing. -/
theorem create_counts (workflow : Workflow) (now : Int) : (create workflow now).Counts :=
  ⟨rfl, rfl, rfl⟩

/-- The counters depend on the table only. -/
theorem Counts.congr {t t' : Txn} (h : t.Counts) (htbl : t'.taskTbl = t.taskTbl)
    (htotal : t'.totalTasks = t.totalTasks) (hcomplete : t'.completeTasks = t.completeTasks)
    (hpending : t'.pendingTasks = t.pendingTasks) : t'.Counts := by
  refine ⟨?_, ?_, ?_⟩
  · rw [htotal, htbl, h.total]
  · rw [hcomplete, finished, htbl, h.complete, finished]
  · rw [hpending, waiting, htbl, h.pending, waiting]

/-- No more tasks are complete than there are. -/
theorem finished_le (t : Txn) : t.finished ≤ t.taskTbl.length := List.countP_le_length

/-- All tasks are complete exactly when the counters of `sk_txn_alltask_complete` agree. -/
theorem Counts.alltaskComplete_iff {t : Txn} (h : t.Counts) :
    t.alltaskComplete = true ↔ ∀ k ∈ t.taskTbl, k.incomplete = false := by
  have hcount : t.alltaskComplete = true ↔ t.finished = t.taskTbl.length := by
    simp only [alltaskComplete, h.complete, h.total, decide_eq_true_eq]
    omega
  rw [hcount, finished, List.countP_eq_length]
  simp

/-- What `_txn_log_and_destroy` tests. -/
theorem Counts.alltaskComplete_of_not_lt {t : Txn} (h : t.Counts)
    (hlt : ¬ t.completeTasks < t.totalTasks) : t.alltaskComplete = true := by
  have hle := t.finished_le
  simp only [alltaskComplete, h.complete, h.total, decide_eq_true_eq] at hlt ⊢
  omega

/-- The module is complete exactly when no task with a callback is incomplete. -/
theorem Counts.moduleComplete_iff {t : Txn} (h : t.Counts) :
    t.moduleComplete = true ↔ t.waiting = 0 := by
  simp only [moduleComplete, h.pending, decide_eq_true_eq]
  omega

/-- An incomplete task with a callback keeps the module incomplete. -/
theorem waiting_pos {t : Txn} {k : TxnTask} (hk : k ∈ t.taskTbl) (hcb : k.cb = true)
    (hi : k.incomplete = true) : 0 < t.waiting :=
  List.countP_pos_iff.mpr ⟨k, hk, by simp [hcb, hi]⟩

/-- When all tasks are complete, so is the module. -/
theorem Counts.moduleComplete_of_all {t : Txn} (h : t.Counts)
    (hall : t.alltaskComplete = true) : t.moduleComplete = true := by
  rw [h.moduleComplete_iff, waiting, List.countP_eq_zero]
  intro k hk
  simp [h.alltaskComplete_iff.mp hall k hk]

/-- And when there are none. -/
theorem Counts.moduleComplete_of_none {t : Txn} (h : t.Counts) (hnone : t.totalTasks = 0) :
    t.moduleComplete = true := by
  refine h.moduleComplete_of_all ?_
  have hle := t.finished_le
  have htbl := h.total
  have hcomp := h.complete
  simp only [alltaskComplete, decide_eq_true_eq]
  omega

/-- **Adding a task** never aborts. -/
theorem Counts.taskAdd {t : Txn} (h : t.Counts) (apiName : Nat) (cb : Bool)
    (callerModule : Option Nat) :
    ∃ t', t.taskAdd apiName cb callerModule = .ok (t.taskTbl.length, t') ∧ t'.Counts ∧
      t' = { t with
        taskTbl := t.taskTbl ++ [{ apiName, cb, callerModule, pendings := 0, status := .running }]
        totalTasks := t.totalTasks + 1
        pendingTasks := t.pendingTasks + if cb then 1 else 0 } := by
  have hlt : t.completeTasks < t.totalTasks + 1 := by
    have := t.finished_le
    rw [h.complete, h.total]
    omega
  refine ⟨_, by simp [Txn.taskAdd, hlt], ⟨?_, ?_, ?_⟩, rfl⟩
  · simp [h.total]
  · simp [h.complete, finished, TxnTask.incomplete]
  · cases cb <;> simp [h.pending, waiting, TxnTask.incomplete]

/-- Replacing an element of a list, as far as counting goes. -/
theorem countP_set_add {α : Type} {p : α → Bool} {l : List α} {i : Nat} {a : α} (b : α)
    (h : l[i]? = some a) :
    (l.set i b).countP p + (if p a then 1 else 0) = l.countP p + if p b then 1 else 0 := by
  obtain ⟨hi, rfl⟩ := List.getElem?_eq_some_iff.mp h
  have hset := (List.set_perm_cons_eraseIdx hi b).countP_eq p
  have hget := (List.getElem_cons_eraseIdx_perm hi).countP_eq p
  rw [List.countP_cons] at hset hget
  omega

/-- **Completing a task** that is not complete never aborts. -/
theorem Counts.taskSetcomplete {t : Txn} (h : t.Counts) {taskId : Nat} {k : TxnTask}
    (hk : t.taskTbl[taskId]? = some k) (hi : k.incomplete = true) {status : TaskStatus}
    (hs : status ≠ .running) :
    ∃ t', t.taskSetcomplete taskId status = .ok t' ∧ t'.Counts ∧
      t' = { t with
        taskTbl := t.taskTbl.set taskId { k with status }
        completeTasks := t.completeTasks + 1
        pendingTasks := t.pendingTasks - if k.cb then 1 else 0 } := by
  have hk' : ({ k with status } : TxnTask).incomplete = false := by simp [TxnTask.incomplete, hs]
  have hfin := countP_set_add (p := fun k => !k.incomplete) { k with status } hk
  have hwait := countP_set_add (p := fun k => k.cb && k.incomplete) { k with status } hk
  have hlt : t.completeTasks < t.totalTasks := by
    have hle := List.countP_le_length (p := fun k => !k.incomplete)
      (l := t.taskTbl.set taskId { k with status })
    simp only [hi, hk', Bool.not_true, Bool.not_false, if_true, Bool.false_eq_true, if_false,
      List.length_set] at hfin hle
    rw [h.complete, h.total, finished]
    omega
  refine ⟨_, by simp [Txn.taskSetcomplete, hlt, hk], ⟨?_, ?_, ?_⟩, rfl⟩
  · simp [h.total]
  · simp only [hi, hk', Bool.not_true, Bool.not_false, if_true, Bool.false_eq_true,
      if_false] at hfin
    simp only [h.complete, finished]
    omega
  · simp only [hi, hk', Bool.and_true, Bool.and_false, Bool.false_eq_true, if_false] at hwait
    simp only [h.pending, waiting]
    cases hcb : k.cb <;> simp only [hcb, if_true, if_false, Bool.false_eq_true] at hwait ⊢ <;>
      omega

/-- Changing what a task waits for leaves the counters alone. -/
theorem Counts.setPendings {t : Txn} (h : t.Counts) {taskId : Nat} {k : TxnTask}
    (hk : t.taskTbl[taskId]? = some k) (pendings : Int) :
    ({ t with taskTbl := t.taskTbl.set taskId { k with pendings } } : Txn).Counts := by
  have hfin := countP_set_add (p := fun k => !k.incomplete) { k with pendings } hk
  have hwait := countP_set_add (p := fun k => k.cb && k.incomplete) { k with pendings } hk
  have hi : ({ k with pendings } : TxnTask).incomplete = k.incomplete := rfl
  refine ⟨by simp [h.total], ?_, ?_⟩
  · simp only [hi] at hfin
    simp only [h.complete, finished]
    omega
  · simp only [hi] at hwait
    simp only [h.pending, waiting]
    omega

end Txn

end Skull
