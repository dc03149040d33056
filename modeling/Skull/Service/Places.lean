import Skull.Service.Invariant
import Skull.Service.Conserve
import Mathlib.Algebra.BigOperators.Group.List.Basic
import Mathlib.Tactic.Abel

namespace Skull

open Machines

/-!
# Where the tasks of a service are

A task is offered by a message, waits in the queue, and is run and reported by messages again:

* `SrvMove` — what a step takes away from these places, and what it adds;
* `SrvMove.total` — what it does to a sum over all places;
* `Packet.Moves`, `Packet.Ends` — what a step may do when it handles a message, or ends a body;
* `SrvSystem.handle_moves`, `SrvSystem.finish_ends` — every step does.

A step that has nothing to do with a job is said to move messages of smaller `Packet.rank`.
-/

/-- The messages, bodies and tasks that a step takes away and adds. -/
structure SrvMove where
  goneNet : List Packet := []
  goneRun : List Packet := []
  newNet : List Packet := []
  newRun : List Packet := []
  pushed : List SrvTask := []
  scheduled : List Scheduled := []

/-- The step from `s` to `s'` moves what `m` says. -/
structure SrvMove.Of (m : SrvMove) (s s' : SrvSystem) : Prop where
  net : (s'.net ++ m.goneNet).Perm (s.net ++ m.newNet ++ m.scheduled.map Scheduled.packet)
  running : (s'.running ++ m.goneRun).Perm (s.running ++ m.newRun)
  queued : (s'.svc.queued ++ m.scheduled.map Scheduled.task).Perm (s.svc.queued ++ m.pushed)
  pushed : s'.pushed = s.pushed ++ m.pushed
  name : s'.svc.name = s.svc.name
  event : ∀ x ∈ m.scheduled, ∃ dst, x.event = x.task.runEvent s.svc.name dst

namespace SrvMove

variable {bioCnt : Nat} {m : SrvMove} {s s' s₁ : SrvSystem} {i j : Nat} {p q : Packet}

/-- Nothing moves. -/
theorem Of.refl : ({} : SrvMove).Of s s where
  net := by simp
  running := by simp
  queued := by simp
  pushed := by simp
  name := rfl
  event x hx := absurd hx List.not_mem_nil

/-- A message is taken out. -/
theorem Of.take (hp : s.net[i]? = some p) :
    ({ goneNet := [p] } : SrvMove).Of s { s with net := s.net.eraseIdx i } where
  net := by
    have htake : (s.net.eraseIdx i ++ [p]).Perm s.net :=
      List.perm_append_comm.trans (perm_take hp).symm
    simpa using htake
  running := by simp
  queued := by simp
  pushed := by simp
  name := rfl
  event x hx := absurd hx List.not_mem_nil

/-- A body is taken out. -/
theorem Of.ends (hp : s.running[j]? = some p) :
    ({ goneRun := [p] } : SrvMove).Of s { s with running := s.running.eraseIdx j } where
  net := by simp
  running := by
    have htake : (s.running.eraseIdx j ++ [p]).Perm s.running :=
      List.perm_append_comm.trans (perm_take hp).symm
    simpa using htake
  queued := by simp
  pushed := by simp
  name := rfl
  event x hx := absurd hx List.not_mem_nil

/-- A message is sent. -/
theorem Of.send (h : m.Of s s₁) (hm : m.scheduled = []) (e : Event) (task : Option SrvTask) :
    ({ m with newNet := m.newNet ++ [⟨e, task⟩] } : SrvMove).Of s (s₁.send e task) where
  net := by
    have hnet := h.net
    rw [hm, List.map_nil, List.append_nil] at hnet
    have hsent : (s₁.net ++ [(⟨e, task⟩ : Packet)] ++ m.goneNet).Perm
        (s₁.net ++ m.goneNet ++ [⟨e, task⟩]) := by
      rw [List.append_assoc, List.append_assoc]
      exact List.perm_append_comm.append_left s₁.net
    rw [hm, List.map_nil, List.append_nil, ← List.append_assoc]
    exact hsent.trans (hnet.append_right _)
  running := h.running
  queued := h.queued
  pushed := h.pushed
  name := h.name
  event := h.event

/-- A body starts. -/
theorem Of.start (h : m.Of s s₁) (q : Packet) :
    ({ m with newRun := m.newRun ++ [q] } : SrvMove).Of s
      { s₁ with running := s₁.running ++ [q] } where
  net := h.net
  running := by
    have hsent : (s₁.running ++ [q] ++ m.goneRun).Perm (s₁.running ++ m.goneRun ++ [q]) := by
      rw [List.append_assoc, List.append_assoc]
      exact List.perm_append_comm.append_left s₁.running
    show (s₁.running ++ [q] ++ m.goneRun).Perm (s.running ++ (m.newRun ++ [q]))
    rw [← List.append_assoc]
    exact hsent.trans (h.running.append_right _)
  queued := h.queued
  pushed := h.pushed
  name := h.name
  event := h.event

/-- A task is queued. -/
theorem Of.push (h : m.Of s s₁) (hm : m.scheduled = []) {svc : Service} {t : SrvTask}
    (hqueued : svc.queued.Perm (s₁.svc.queued ++ [t])) (hname : svc.name = s₁.svc.name) :
    ({ m with pushed := m.pushed ++ [t] } : SrvMove).Of s
      { s₁ with svc, pushed := s₁.pushed ++ [t] } where
  net := h.net
  running := h.running
  queued := by
    have hq := h.queued
    rw [hm, List.map_nil, List.append_nil] at hq
    show (svc.queued ++ m.scheduled.map Scheduled.task).Perm (s.svc.queued ++ (m.pushed ++ [t]))
    rw [hm, List.map_nil, List.append_nil, ← List.append_assoc]
    exact hqueued.trans (hq.append_right _)
  pushed := by
    show s₁.pushed ++ [t] = s.pushed ++ (m.pushed ++ [t])
    rw [h.pushed, List.append_assoc]
  name := hname.trans h.name
  event := h.event

/-- A round of scheduling follows. -/
theorem Of.round (h : m.Of s s₁) (hm : m.scheduled = []) {xs : List Scheduled} {svc : Service}
    (hround : s₁.svc.Conserves bioCnt xs svc) :
    ({ m with scheduled := xs } : SrvMove).Of s (s₁.afterRound (xs, svc)) where
  net := by
    have hnet := h.net
    rw [hm, List.map_nil, List.append_nil] at hnet
    have hsent : (s₁.net ++ xs.map Scheduled.packet ++ m.goneNet).Perm
        (s₁.net ++ m.goneNet ++ xs.map Scheduled.packet) := by
      rw [List.append_assoc, List.append_assoc]
      exact List.perm_append_comm.append_left s₁.net
    exact hsent.trans (hnet.append_right _)
  running := h.running
  queued := by
    have hq := h.queued
    rw [hm, List.map_nil, List.append_nil] at hq
    exact (List.perm_append_comm.trans hround.queued.symm).trans hq
  pushed := h.pushed
  name := hround.name.trans h.name
  event x hx := by
    obtain ⟨dst, -, hevent⟩ := hround.event x hx
    exact ⟨dst, h.name ▸ hevent⟩

/-- Only the service changes, and not its queue. -/
theorem Of.service (h : m.Of s s₁) {svc : Service} (hqueued : svc.queued.Perm s₁.svc.queued)
    (hname : svc.name = s₁.svc.name) : m.Of s { s₁ with svc } where
  net := h.net
  running := h.running
  queued := (hqueued.append_right _).trans h.queued
  pushed := h.pushed
  name := hname.trans h.name
  event := h.event

/-- A task is reported done. -/
theorem Of.report (h : m.Of s s₁) (reported : List SrvTask) :
    m.Of s { s₁ with reported } :=
  ⟨h.net, h.running, h.queued, h.pushed, h.name, h.event⟩

end SrvMove

/-! ### Sums -/

section Sums

variable {M : Type} [AddCommMonoid M] (net run : Packet → M) (queue : SrvTask → M)

/-- The sum over all places. -/
def SrvSystem.total (s : SrvSystem) : M :=
  (s.net.map net).sum + (s.running.map run).sum + (s.svc.queued.map queue).sum

/-- **A step and a sum.** What is taken away and what is added is all that changes. -/
theorem SrvMove.total {m : SrvMove} {s s' : SrvSystem} (h : m.Of s s') :
    s'.total net run queue + ((m.goneNet.map net).sum + (m.goneRun.map run).sum +
        (m.scheduled.map fun x => queue x.task).sum) =
      s.total net run queue + ((m.newNet.map net).sum + (m.newRun.map run).sum +
        (m.pushed.map queue).sum + (m.scheduled.map fun x => net x.packet).sum) := by
  have hnet := (h.net.map net).sum_eq
  have hrun := (h.running.map run).sum_eq
  have hqueue := (h.queued.map queue).sum_eq
  simp only [List.map_append, List.sum_append, List.map_map] at hnet hrun hqueue
  have hfun : queue ∘ Scheduled.task = fun x => queue x.task := rfl
  have hfun' : net ∘ Scheduled.packet = fun x => net x.packet := rfl
  rw [hfun] at hqueue
  rw [hfun'] at hnet
  calc s'.total net run queue + ((m.goneNet.map net).sum + (m.goneRun.map run).sum +
        (m.scheduled.map fun x => queue x.task).sum)
      = ((s'.net.map net).sum + (m.goneNet.map net).sum) +
          ((s'.running.map run).sum + (m.goneRun.map run).sum) +
          ((s'.svc.queued.map queue).sum + (m.scheduled.map fun x => queue x.task).sum) := by
        rw [SrvSystem.total]
        abel
    _ = s.total net run queue + ((m.newNet.map net).sum + (m.newRun.map run).sum +
        (m.pushed.map queue).sum + (m.scheduled.map fun x => net x.packet).sum) := by
        rw [hnet, hrun, hqueue, SrvSystem.total]
        abel

end Sums

/-! ### What a step may do -/

/-- A message about a job. -/
def Packet.ofJob (p : Packet) : Bool :=
  match p.event.pto with
  | .timerEmit .. | .svcTimerRun .. | .svcTimerDone .. => true
  | _ => false

/-- A task of a job. -/
def SrvTask.ofJob (t : SrvTask) : Bool :=
  match t.data with
  | .api .. => false
  | .timer .. => true

/-- How many steps a message may lead to, at most. -/
def Packet.rank (p : Packet) : Nat :=
  match p.event.pto with
  | .workflowRun => 1
  | .svcTaskDone .. => 1
  | .svcTaskCb .. => 2
  | .svcTimerDone .. => 3
  | .svcTaskRun .. => 4
  | .svcIocall .. => 6
  | .svcTimerRun .. => 7
  | .timerEmit .. => 9

/-- The same for a body that runs. -/
def Packet.runRank (p : Packet) : Nat := p.rank - 1

/-- The same for a task in the queue. -/
def SrvTask.rank (t : SrvTask) : Nat := if t.ofJob then 8 else 5

/-- The buffer that would take a task is full. -/
def Service.Full (svc : Service) (t : SrvTask) : Prop :=
  (svc.pendingTasks.data.bufferFor t).elems.length = svc.pendingTasks.maxSlots

/-- What a step moves that handles the message of `p`. -/
inductive Packet.Moves (svc : Service) (p : Packet) : SrvMove → Prop
  /-- It is not about a job. -/
  | other {newNet newRun : List Packet} {pushed : List SrvTask} {scheduled : List Scheduled}
      (hp : p.ofJob = false) (hnet : ∀ q ∈ newNet, q.ofJob = false)
      (hrun : ∀ q ∈ newRun, q.ofJob = false) (hpushed : ∀ t ∈ pushed, t.ofJob = false)
      (hrank : (newNet.map Packet.rank).sum + (newRun.map Packet.runRank).sum +
        (pushed.map SrvTask.rank).sum < p.rank) :
      Moves svc p { goneNet := [p], newNet, newRun, pushed, scheduled }
  /-- The task of a job is refused. -/
  | refused {name entity : Nat} {ud : JobData} {valid : Bool} {bidx : Int} {type : JobRw}
      {interval : Nat} (hpto : p.event.pto = .timerEmit name ud valid bidx type interval)
      (howner : p.event.owner = .inr entity)
      (hfull : svc.Full (Service.emitTask p.event.src entity ud valid bidx type interval)) :
      Moves svc p { goneNet := [p], newNet := [⟨(Service.emitTask p.event.src entity ud valid bidx
        type interval).busyEvent svc.name, none⟩] }
  /-- The task of a job is queued. -/
  | queued {name entity : Nat} {ud : JobData} {valid : Bool} {bidx : Int} {type : JobRw}
      {interval : Nat} {scheduled : List Scheduled}
      (hpto : p.event.pto = .timerEmit name ud valid bidx type interval)
      (howner : p.event.owner = .inr entity)
      (hfull : ¬ svc.Full (Service.emitTask p.event.src entity ud valid bidx type interval)) :
      Moves svc p { goneNet := [p], scheduled
                    pushed := [Service.emitTask p.event.src entity ud valid bidx type interval] }
  /-- The body of a job starts. -/
  | run {name : Nat} {ud : JobData} {valid : Bool} {status : JobRet} {interval : Nat}
      (hpto : p.event.pto = .svcTimerRun name ud valid status interval) :
      Moves svc p { goneNet := [p], newRun := [p] }
  /-- A job is reported done. -/
  | done {name interval : Nat} {status : JobRet} {scheduled : List Scheduled}
      (hpto : p.event.pto = .svcTimerDone name status interval) :
      Moves svc p { goneNet := [p], scheduled }

/-- What a step moves that ends the body of `p`. -/
inductive Packet.Ends (p : Packet) : SrvMove → Prop
  /-- It is the body of an api. -/
  | api {newNet : List Packet} (hp : p.ofJob = false) (hnet : ∀ q ∈ newNet, q.ofJob = false)
      (hrank : (newNet.map Packet.rank).sum < p.runRank) :
      Ends p { goneRun := [p], newNet }
  /-- It is the body of a job. -/
  | job {name : Nat} {ud : JobData} {valid : Bool} {status : JobRet} {interval : Nat}
      (hpto : p.event.pto = .svcTimerRun name ud valid status interval) :
      Ends p { goneRun := [p], newNet := [⟨{ p.event with
        src := p.event.dst, dst := .master, pto := .svcTimerDone name status interval }, p.task⟩] }

namespace SrvSystem

variable {bioCnt : Nat} {s s' : SrvSystem} {i j : Nat} {p : Packet}

/-- A task that is pushed is refused when its buffer is full, and only then. -/
theorem timerEmit_full {svc : Service} {l : RWLock} (h : svc.Inv bioCnt l) {src : Sched}
    {entity : Nat} {ud : JobData} {valid : Bool} {bidx : Int} {type : JobRw} {interval : Nat}
    {r : (SrvTask × (Event ⊕ List Scheduled)) × Service}
    (hr : svc.timerEmit bioCnt src entity ud valid bidx type interval = .ok r) :
    svc.Full (Service.emitTask src entity ud valid bidx type interval) ↔
      ∃ e, r.1.2 = .inl e := by
  -- the task of a timer is a read or a write
  have hbase : elemType (Service.emitTask src entity ud valid bidx type interval) = .read ∨
      elemType (Service.emitTask src entity ud valid bidx type interval) = .write := by
    cases type
    · exact .inl rfl
    · exact .inr rfl
  have hio : (Service.emitTask src entity ud valid bidx type interval).ioStatus = .ok := rfl
  rw [Service.timerEmit] at hr
  -- the queue is full, or has room
  rcases Queue.push_cases h.readWrite h.sized hbase with ⟨hlen, hpush⟩ | ⟨d, hlen, -, -, hpush⟩
  · have hp : svc.pushTask (Service.emitTask src entity ud valid bidx type interval) =
        .ok (.busy, svc) := by
      simp [Service.pushTask, hio, hpush]
    rw [Service.emitTask] at hp
    simp only [hp, ne_eq, reduceCtorEq, not_false_eq_true, not_true_eq_false, if_true,
      if_false] at hr
    obtain ⟨⟨svc', e⟩, -, rfl⟩ := except_map_ok.mp hr
    exact ⟨fun _ => ⟨e, rfl⟩, fun _ => hlen⟩
  · have hp : svc.pushTask (Service.emitTask src entity ud valid bidx type interval) =
        .ok (.ok, { svc with pendingTasks := { svc.pendingTasks with data := d } }) := by
      simp [Service.pushTask, hio, hpush]
    rw [Service.emitTask] at hp
    simp only [hp, ne_eq, not_true_eq_false, if_false] at hr
    obtain ⟨⟨xs, svc'⟩, -, rfl⟩ := except_map_ok.mp hr
    refine ⟨fun hfull => absurd hfull (Nat.ne_of_lt hlen), ?_⟩
    rintro ⟨e, he⟩
    exact absurd he (by simp)

/-- A task that is offered is answered, or queued. -/
theorem offer_moves (hp : s.net[i]? = some p) {t : SrvTask}
    {r : (SrvTask × (Event ⊕ List Scheduled)) × Service}
    (h : Service.Offered bioCnt s.svc t r) :
    ∃ m : SrvMove, m.Of s (({ s with net := s.net.eraseIdx i } : SrvSystem).afterOffer r) ∧
      ((∃ e, r.1.2 = .inl e) ∧
          m = { goneNet := [p], newNet := [⟨t.busyEvent s.svc.name, none⟩] } ∨
        (¬ ∃ e, r.1.2 = .inl e) ∧
          ∃ scheduled, m = { goneNet := [p], pushed := [t], scheduled }) := by
  have htake := SrvMove.Of.take hp
  cases h with
  | busy hqueued hname hapis =>
    have hsent := (htake.service hqueued hname).send rfl (t.busyEvent s.svc.name) none
    exact ⟨_, hsent, .inl ⟨⟨_, rfl⟩, rfl⟩⟩
  | queued hqueued hname hapis hround =>
    have hround' := (htake.push rfl hqueued hname).round rfl hround
    exact ⟨_, hround', .inr ⟨by simp, _, rfl⟩⟩

/-- **Handling a message.** -/
theorem handle_moves (h : s.Inv bioCnt) (hp : s.net[i]? = some p) {resumeWf : Bool}
    (hok : ({ s with net := s.net.eraseIdx i } : SrvSystem).handle bioCnt p resumeWf = .ok s') :
    ∃ m : SrvMove, m.Of s s' ∧ p.Moves s.svc m := by
  obtain ⟨⟨l, hheld⟩, -⟩ := h
  have htake := SrvMove.Of.take hp
  rw [handle] at hok
  cases hpto : p.event.pto <;> simp only [hpto] at hok
  case workflowRun =>
    obtain rfl := Except.ok.inj hok
    exact ⟨_, htake, .other (by simp [Packet.ofJob, hpto]) (by simp) (by simp) (by simp)
      (by simp [Packet.rank, hpto])⟩
  case svcIocall service api bidx taskdata =>
    -- the task of an API call is queued, or its caller told that the service is busy
    have hno : p.ofJob = false := by simp [Packet.ofJob, hpto]
    cases howner : p.event.owner with
    | inr entity => simp [howner] at hok
    | inl txn =>
      simp only [howner] at hok
      split at hok
      · exact absurd hok (by simp)
      · obtain ⟨r, hr, rfl⟩ := except_map_ok.mp hok
        obtain ⟨type, hoffer⟩ := Service.svcIocall_conserves hr
        obtain ⟨m, hm, hcases⟩ := offer_moves hp hoffer
        refine ⟨m, hm, ?_⟩
        rcases hcases with ⟨-, rfl⟩ | ⟨-, scheduled, rfl⟩
        · exact .other hno (by simp [Packet.ofJob, SrvTask.busyEvent, Service.iocallTask])
            (by simp) (by simp)
            (by simp [Packet.rank, hpto, SrvTask.busyEvent, Service.iocallTask])
        · exact .other hno (by simp) (by simp) (by simp [SrvTask.ofJob, Service.iocallTask])
            (by simp [Packet.rank, hpto, SrvTask.rank, SrvTask.ofJob, Service.iocallTask])
  case timerEmit name ud valid bidx type interval =>
    cases howner : p.event.owner with
    | inl txn => simp [howner] at hok
    | inr entity =>
      simp only [howner] at hok
      obtain ⟨r, hr, rfl⟩ := except_map_ok.mp hok
      -- the task of a job is queued, or the job is refused when the queue is full
      have hfull := timerEmit_full hheld.svc hr
      obtain ⟨m, hm, hcases⟩ := offer_moves hp (Service.timerEmit_conserves hr)
      refine ⟨m, hm, ?_⟩
      rcases hcases with ⟨hbusy, rfl⟩ | ⟨hqueued, scheduled, rfl⟩
      · exact .refused hpto howner (hfull.mpr hbusy)
      · exact .queued hpto howner fun hf => hqueued (hfull.mp hf)
  case svcTaskRun service api ioStatus src taskdata =>
    have hno : p.ofJob = false := by simp [Packet.ofJob, hpto]
    split at hok
    · exact absurd hok (by simp)
    · obtain rfl := Except.ok.inj hok
      -- the body starts, and is an API's
      exact ⟨_, htake.start p, .other hno (by simp) (by simpa using hno) (by simp)
        (by simp [Packet.rank, Packet.runRank, hpto])⟩
  case svcTimerRun name ud valid status interval =>
    obtain rfl := Except.ok.inj hok
    exact ⟨_, htake.start p, .run hpto⟩
  case svcTaskCb taskdata service api status svcTaskDone =>
    split at hok
    · exact absurd hok (by simp)
    · obtain rfl := Except.ok.inj hok
      exact ⟨_, htake.send rfl _ _, .other (by simp [Packet.ofJob, hpto])
        (by simp [Packet.ofJob]) (by simp) (by simp) (by simp [Packet.rank, hpto])⟩
  case svcTaskDone service resumeWf' svcTaskDone =>
    split at hok
    · exact absurd hok (by simp)
    · obtain ⟨⟨xs, svc⟩, hr, rfl⟩ := except_map_ok.mp hok
      exact ⟨_, (htake.report _).round rfl (Service.svcTaskDone_conserves hr),
        .other (by simp [Packet.ofJob, hpto]) (by simp) (by simp) (by simp)
          (by simp [Packet.rank, hpto])⟩
  case svcTimerDone name status interval =>
    obtain ⟨⟨xs, svc⟩, hr, rfl⟩ := except_map_ok.mp hok
    exact ⟨_, (htake.report _).round rfl (Service.svcTimerDone_conserves hr), .done hpto⟩

/-- **The end of a body.** -/
theorem finish_ends (hp : s.running[j]? = some p) (hbody : p.isBody = true)
    {failed taskDone : Bool}
    (hok : ({ s with running := s.running.eraseIdx j } : SrvSystem).finish p failed taskDone =
      .ok s') : ∃ m : SrvMove, m.Of s s' ∧ p.Ends m := by
  have hends := SrvMove.Of.ends hp
  rw [finish] at hok
  cases hpto : p.event.pto <;> simp only [hpto] at hok
  case svcTaskRun service api ioStatus apiCaller taskdata =>
    split at hok
    · exact absurd hok (by simp)
    · obtain rfl := Except.ok.inj hok
      exact ⟨_, hends.send rfl _ _, .api (by simp [Packet.ofJob, hpto]) (by simp [Packet.ofJob])
        (by simp [Packet.rank, Packet.runRank, hpto])⟩
  case svcTimerRun name ud valid status interval =>
    obtain rfl := Except.ok.inj hok
    exact ⟨_, hends.send rfl _ _, .job hpto⟩
  -- no other message has a body
  all_goals simp [Packet.isBody, hpto] at hbody

end SrvSystem

end Skull
