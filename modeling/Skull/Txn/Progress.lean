import Skull.Txn.System
import Mathlib.Algebra.Order.Group.Multiset
import Mathlib.Tactic.Abel

namespace Skull

/-!
# The progress of a service call

The abstract side of a task.  A task is at one point of its way (`Progress`), and everything in
the system that is about it is known from that point: the messages, queue entries and pending
calls (`Progress.stages`), what happened so far (`Progress.marks`), and its entry in the task
table (`Progress.Matches`).

* `Stage` — what can be in the system for a task; `stray` is something no sender makes;
* `Event.token`, `SrvTask.token`, `PendingCall.token` — how the system shows it;
* `Progress.of_waiting` … `Progress.of_call` — one thing that is seen in the system tells where
  the task is, and what else there is.
-/

/-- A thing in the system that is about a task. -/
inductive Stage
  /-- A `SK_PTO_SVC_IOCALL`, or a task in the queue of a service. -/
  | waiting (caller : Sched)
  /-- A `SK_PTO_SVC_TASK_RUN`. -/
  | running (caller : Sched)
  /-- A pending call of the body, that will call back on `host`. -/
  | call (host : Sched)
  /-- A `SK_PTO_SVC_TASK_CB` with status PENDING. -/
  | notice (host caller : Sched)
  /-- A `SK_PTO_SVC_TASK_CB` with status DONE. -/
  | answer (host caller : Sched) (svcTaskDone : Bool)
  /-- A `SK_PTO_SVC_TASK_CB` with status BUSY. -/
  | refusal (caller : Sched)
  /-- A message that does not fit its task. -/
  | stray
  deriving DecidableEq, Repr

/-- How far a task is. -/
inductive Progress
  /-- There is no such task. -/
  | absent
  /-- Called, and waiting in the queue of the service. -/
  | waiting
  /-- Scheduled. -/
  | running
  /-- The body left `n + 1` pending calls; `told` when the caller has handled the notice. -/
  | calling (host : Sched) (n : Nat) (told : Bool)
  /-- The last pending call was called back. -/
  | ending (host : Sched) (told : Bool)
  /-- The body left nothing pending. -/
  | answered (host : Sched)
  /-- The service was busy. -/
  | refused
  /-- The caller has handled the end, of a task that was scheduled or not. -/
  | done (scheduled : Bool)
  deriving DecidableEq, Repr

namespace Progress

/-- The notice that the body left something pending, until it is handled. -/
def untold (host home : Sched) (told : Bool) : Multiset Stage :=
  if told then 0 else {.notice host home}

/-- What is in the system for a task whose caller is `home`. -/
def stages (home : Sched) : Progress → Multiset Stage
  | .absent => 0
  | .waiting => {.waiting home}
  | .running => {.running home}
  | .calling host n told => Multiset.replicate (n + 1) (.call host) + untold host home told
  | .ending host told => .answer host home false ::ₘ untold host home told
  | .answered host => {.answer host home true}
  | .refused => {.refusal home}
  | .done _ => 0

/-- The number of pending calls. -/
def calls : Progress → Nat
  | .calling _ n _ => n + 1
  | _ => 0

/-- The caller has handled the end. -/
def isDone : Progress → Bool
  | .done _ => true
  | _ => false

/-- The task was sent to a scheduler. -/
def isScheduled : Progress → Bool
  | .running | .calling .. | .ending .. | .answered _ => true
  | .done scheduled => scheduled
  | .absent | .waiting | .refused => false

/-- The master was told that the service is free again. -/
def isReported : Progress → Bool
  | .calling _ _ told => told
  | .ending _ told => told
  | .done scheduled => scheduled
  | _ => false

/-- What happened to the task `t`. -/
def marks (t : TaskRef) (p : Progress) : Multiset Mark :=
  (if p.isScheduled then {.scheduled t} else 0) + (if p.isReported then {.taskDone t} else 0) +
    if p.isDone then {.terminal t, .setcomplete t} else 0

/-- The entry in the task table. -/
structure Matches (p : Progress) (entry : Option TxnTask) : Prop where
  absent : p = .absent ↔ entry = none
  pendings : ∀ k ∈ entry, k.pendings = p.calls
  incomplete : ∀ k ∈ entry, k.incomplete = !p.isDone

/-! ### What one thing tells about the rest -/

variable {home : Sched} {p : Progress} {rest : Multiset Stage}

/-- What is seen is one of the stages. -/
theorem mem_of_cons {a : Stage} (h : a ::ₘ rest = p.stages home) : a ∈ p.stages home :=
  h ▸ Multiset.mem_cons_self a rest

/-- The notice that is due. -/
theorem mem_untold {a : Stage} {host : Sched} {told : Bool} :
    a ∈ untold host home told ↔ told = false ∧ a = .notice host home := by
  cases told <;> simp [untold]

/-- The stages of a task. -/
theorem mem_stages {a : Stage} : a ∈ p.stages home ↔
    match p with
    | .absent | .done _ => False
    | .waiting => a = .waiting home
    | .running => a = .running home
    | .calling host _ told => a = .call host ∨ told = false ∧ a = .notice host home
    | .ending host told => a = .answer host home false ∨ told = false ∧ a = .notice host home
    | .answered host => a = .answer host home true
    | .refused => a = .refusal home := by
  cases p
  case calling => simp only [stages, Multiset.mem_add, Multiset.mem_replicate, mem_untold]; simp
  all_goals simp [stages, mem_untold]

/-- A task in one stage is in no other. -/
theorem rest_of_singleton {a : Stage} (h : a ::ₘ rest = {a}) : rest = 0 := by
  rwa [← Multiset.cons_zero a, Multiset.cons_inj_right] at h

/-- Nothing is stray. -/
theorem not_stray : Stage.stray ∉ p.stages home := by
  rw [mem_stages]
  cases p <;> simp

/-- A task that waits in its queue. -/
theorem of_waiting {caller : Sched} (h : .waiting caller ::ₘ rest = p.stages home) :
    p = .waiting ∧ caller = home ∧ rest = 0 := by
  have hmem := mem_stages.mp (mem_of_cons h)
  cases p <;> simp only [reduceCtorEq, and_false, or_self] at hmem
  simp only [Stage.waiting.injEq] at hmem
  subst hmem
  exact ⟨rfl, rfl, rest_of_singleton h⟩

/-- A task that runs. -/
theorem of_running {caller : Sched} (h : .running caller ::ₘ rest = p.stages home) :
    p = .running ∧ caller = home ∧ rest = 0 := by
  have hmem := mem_stages.mp (mem_of_cons h)
  cases p <;> simp only [reduceCtorEq, and_false, or_self] at hmem
  simp only [Stage.running.injEq] at hmem
  subst hmem
  exact ⟨rfl, rfl, rest_of_singleton h⟩

/-- A task with a pending call. -/
theorem of_call {host : Sched} (h : .call host ::ₘ rest = p.stages home) :
    ∃ n told, p = .calling host n told ∧
      rest = Multiset.replicate n (.call host) + untold host home told := by
  have hmem := mem_stages.mp (mem_of_cons h)
  cases p <;> simp only [reduceCtorEq, and_false, or_self, or_false, Stage.call.injEq] at hmem
  rename_i n told
  subst hmem
  refine ⟨n, told, rfl, ?_⟩
  rwa [stages, Multiset.replicate_succ, Multiset.cons_add, Multiset.cons_inj_right] at h

/-- A task of which the service is yet to be told. -/
theorem of_notice {host caller : Sched} (h : .notice host caller ::ₘ rest = p.stages home) :
    caller = home ∧
      ((∃ n, p = .calling host n false ∧ rest = Multiset.replicate (n + 1) (.call host)) ∨
        p = .ending host false ∧ rest = {.answer host home false}) := by
  have hmem := mem_stages.mp (mem_of_cons h)
  cases p <;> simp only [reduceCtorEq, false_or, Stage.notice.injEq] at hmem
  case calling n told =>
    obtain ⟨rfl, rfl, rfl⟩ := hmem
    refine ⟨rfl, .inl ⟨n, rfl, ?_⟩⟩
    simpa [stages, untold, ← Multiset.cons_zero, Multiset.add_cons] using h
  case ending told =>
    obtain ⟨rfl, rfl, rfl⟩ := hmem
    refine ⟨rfl, .inr ⟨rfl, ?_⟩⟩
    rw [stages, untold, if_neg (by simp), ← Multiset.cons_zero, Multiset.cons_swap,
      Multiset.cons_inj_right] at h
    exact h

/-- A task that was answered. -/
theorem of_answer {host caller : Sched} {svcTaskDone : Bool}
    (h : .answer host caller svcTaskDone ::ₘ rest = p.stages home) :
    caller = home ∧
      (svcTaskDone = true ∧ p = .answered host ∧ rest = 0 ∨
        svcTaskDone = false ∧ ∃ told, p = .ending host told ∧ rest = untold host home told) := by
  have hmem := mem_stages.mp (mem_of_cons h)
  cases p <;> simp only [reduceCtorEq, and_false, or_self, or_false, Stage.answer.injEq] at hmem
  case ending told =>
    obtain ⟨rfl, rfl, rfl⟩ := hmem
    exact ⟨rfl, .inr ⟨rfl, told, rfl, by simpa [stages] using h⟩⟩
  case answered =>
    obtain ⟨rfl, rfl, rfl⟩ := hmem
    exact ⟨rfl, .inl ⟨rfl, rfl, rest_of_singleton h⟩⟩

/-- A task that was refused. -/
theorem of_refusal {caller : Sched} (h : .refusal caller ::ₘ rest = p.stages home) :
    p = .refused ∧ caller = home ∧ rest = 0 := by
  have hmem := mem_stages.mp (mem_of_cons h)
  cases p <;> simp only [reduceCtorEq, and_false, or_self] at hmem
  simp only [Stage.refusal.injEq] at hmem
  subst hmem
  exact ⟨rfl, rfl, rest_of_singleton h⟩

end Progress

/-! ### How the system shows a stage -/

/-- A message about the task `t`, which names the transaction of the task. -/
def stageFor (owner : TxnId ⊕ Nat) (t : TaskRef) (st : Stage) : TaskRef × Stage :=
  (t, if owner = .inl t.txn then st else .stray)

/-- The message that carries a task on, if it does. -/
def Event.token (e : Event) : Option (TaskRef × Stage) :=
  match e.pto with
  | .svcIocall _ _ _ t => some (stageFor e.owner t (.waiting e.src))
  | .svcTaskRun _ _ _ caller t => some (stageFor e.owner t (.running caller))
  | .svcTaskCb t _ _ .pending true => some (stageFor e.owner t (.notice e.src e.dst))
  | .svcTaskCb t _ _ .done b => some (stageFor e.owner t (.answer e.src e.dst b))
  | .svcTaskCb t _ _ .busy false => some (stageFor e.owner t (.refusal e.dst))
  | .svcTaskCb t _ _ _ _ => some (t, .stray)
  | .timerEmit _ ud _ bidx _ _ => ud.task.map fun t => (t, if bidx = 0 then .call e.src else .stray)
  | .svcTimerRun _ ud _ _ _ => ud.task.map fun t => (t, .call e.dst)
  | .workflowRun | .svcTaskDone .. | .svcTimerDone .. => none

/-- A task in the queue of a service. -/
def SrvTask.token (q : SrvTask) : Option (TaskRef × Stage) :=
  match q.data with
  | .api _ txn _ t => some (stageFor (.inl txn) t (.waiting q.src))
  | .timer _ ud _ _ => ud.task.map fun t => (t, if q.bidx = 0 then .call q.src else .stray)

/-- A pending call that is out. -/
def PendingCall.token (c : PendingCall) : TaskRef × Stage :=
  (c.task, if c.job.all (·.task = some c.task) then .call c.sched else .stray)

/-- The stages that a list of tokens shows of a task. -/
def stagesOf (t : TaskRef) (tokens : List (TaskRef × Stage)) : Multiset Stage :=
  ((tokens.filter (·.1 = t)).map Prod.snd : List Stage)

/-- The marks of a task. -/
def Mark.task : Mark → Option TaskRef
  | .entered .. | .packed .. | .state .. | .inactive _ => none
  | .terminal t | .setcomplete t | .scheduled t | .taskDone t => some t

/-- The transaction of a mark that a handler of transactions leaves. -/
def Mark.txn : Mark → Option TxnId
  | .entered x _ | .packed x _ _ | .state x _ | .inactive x => some x
  | .terminal _ | .setcomplete _ | .scheduled _ | .taskDone _ => none

/-- A mark is about a transaction or about a task. -/
theorem Mark.task_none {m : Mark} {x : TxnId} (h : m.txn = some x) : m.task = none := by
  cases m <;> simp_all [Mark.txn, Mark.task]

theorem Mark.txn_none {m : Mark} (h : m.task.isSome) : m.txn = none := by
  cases m <;> simp_all [Mark.txn, Mark.task]

/-- The marks of the task `t` in a log. -/
def marksOf (t : TaskRef) (log : List Mark) : Multiset Mark :=
  (log.filter (·.task = some t) : List Mark)

@[simp] theorem stagesOf_nil (t : TaskRef) : stagesOf t [] = 0 := rfl

@[simp] theorem stagesOf_append (t : TaskRef) (l l' : List (TaskRef × Stage)) :
    stagesOf t (l ++ l') = stagesOf t l + stagesOf t l' := by
  simp [stagesOf]

theorem stagesOf_cons (t : TaskRef) (k : TaskRef × Stage) (l : List (TaskRef × Stage)) :
    stagesOf t (k :: l) = (if k.1 = t then {k.2} else 0) + stagesOf t l := by
  by_cases hk : k.1 = t <;> simp [stagesOf, hk, ← Multiset.cons_coe]

/-- The order does not matter. -/
theorem stagesOf_perm {t : TaskRef} {l l' : List (TaskRef × Stage)} (h : l.Perm l') :
    stagesOf t l = stagesOf t l' :=
  Multiset.coe_eq_coe.mpr ((h.filter _).map _)

@[simp] theorem marksOf_nil (t : TaskRef) : marksOf t [] = 0 := rfl

@[simp] theorem marksOf_append (t : TaskRef) (l l' : List Mark) :
    marksOf t (l ++ l') = marksOf t l + marksOf t l' := by
  simp [marksOf]

theorem marksOf_cons (t : TaskRef) (m : Mark) (l : List Mark) :
    marksOf t (m :: l) = (if m.task = some t then {m} else 0) + marksOf t l := by
  by_cases hm : m.task = some t <;> simp [marksOf, hm, ← Multiset.cons_coe]

end Skull
