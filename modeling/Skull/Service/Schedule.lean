import Skull.Service.Ledger
import Skull.Service.Service
import Skull.Lib.RWLock

namespace Skull

open Machines

/-!
# Scheduling the tasks of a service

The state machine around the pending tasks, as a readers–writer lock:

* `Service.HasLock` — the queue state and the running counter are those of a lock;
* `Service.Inv` — what every handler of the master keeps;
* `Service.scheduleTasks_spec` — a round of scheduling grants the lock to every task it pops
  and stops when the queue is blocked;
* `Service.taskSetcomplete_spec` — completing a task releases the lock;
* `Service.svcIocall_spec`, `Service.timerEmit_spec` — an accepted call is pushed and a round
  of scheduling follows, a refused one is answered and changes nothing.
-/

/-! ### The state machine -/

/-- A task waits for a read or a write lock on the service. -/
def SrvTask.kind (t : SrvTask) : RWKind := if t.base = .read then .read else .write

/-- A task that can be sent to a scheduler. -/
structure SrvTask.Ready (bioCnt : Nat) (t : SrvTask) : Prop where
  ioStatus : t.ioStatus = .ok
  bidx : Service.validateBidx bioCnt t.bidx = true

/-- Who gets the event of a task. -/
def SrvTask.owner (t : SrvTask) : TxnId ⊕ Nat :=
  match t.data with
  | .api _ txn _ _ => .inl txn
  | .timer entity _ _ _ => .inr entity

/-- The message that runs the task `t` of the service `name` on `dst`. -/
def SrvTask.runEvent (t : SrvTask) (name : Nat) (dst : Sched) : Event :=
  { src := .master, dst, owner := t.owner
    pto := match t.data with
      | .api _ _ api taskdata => .svcTaskRun name api .ok t.src taskdata
      | .timer _ ud valid interval => .svcTimerRun name ud valid .ok interval }

/-- The message that turns the task `t` of the service `name` away. -/
def SrvTask.busyEvent (t : SrvTask) (name : Nat) : Event :=
  { src := .master, dst := t.src, owner := t.owner
    pto := match t.data with
      | .api _ _ api taskdata => .svcTaskCb taskdata name api .busy false
      | .timer _ ud valid interval => .svcTimerRun name ud valid .errorBusy interval }

/-- A task scheduled, with the data of the queue it left behind. -/
def Scheduled.entry (x : Scheduled) : SrvTask × QueueData SrvTask := (x.task, x.rest.data)

namespace Service

variable {bioCnt : Nat}

/-- A valid bio index finds its target scheduler. -/
theorem findTargetSched_ok {bidx : Int} (src : Sched) (h : validateBidx bioCnt bidx = true) :
    ∃ dst, findTargetSched bioCnt src bidx = .ok dst := by
  unfold validateBidx at h
  unfold findTargetSched
  by_cases h0 : bidx = 0
  · exact ⟨src, by simp [h0]⟩
  · by_cases hpos : bidx > 0
    · simp only [hpos, if_true, decide_eq_true_eq] at h
      exact ⟨.bio bidx.toNat, by simp [h0, hpos, h]⟩
    · have hneg : bidx < 0 := by omega
      simp only [hpos, if_false, hneg, if_true, decide_eq_true_eq] at h
      exact ⟨.bio 1, by simp [h0, hpos, Nat.pos_iff_ne_zero.mp h]⟩

/-- Scheduling a ready task counts it and sends it to its target. -/
theorem scheduleTask_ready {t : SrvTask} (s : Service) (h : t.Ready bioCnt) :
    ∃ dst, findTargetSched bioCnt t.src t.bidx = .ok dst ∧
      s.scheduleTask bioCnt t =
        .ok ({ s with runningTaskCnt := s.runningTaskCnt + 1 }, t.runEvent s.name dst) := by
  obtain ⟨dst, hdst⟩ := findTargetSched_ok t.src h.bidx
  refine ⟨dst, hdst, ?_⟩
  obtain ⟨base, ioStatus, bidx, src, data⟩ := t
  have hio : ioStatus = .ok := h.ioStatus
  subst hio
  simp only at hdst
  cases data <;>
    simp [scheduleTask, scheduleNormaltask, scheduleApiTask, scheduleTimerTask, hdst,
      SrvTask.runEvent, SrvTask.owner, Except.map]

/-- Turning a task away answers its source and leaves the service alone. -/
theorem scheduleTask_busy (bioCnt : Nat) (s : Service) (t : SrvTask) :
    s.scheduleTask bioCnt { t with ioStatus := .busy } = .ok (s, t.busyEvent s.name) := by
  obtain ⟨base, ioStatus, bidx, src, data⟩ := t
  cases data <;>
    simp [scheduleTask, scheduleErrortask, scheduleApiErrortask, scheduleTimerTask,
      SrvTask.busyEvent, SrvTask.owner, Except.map]

/-- The queue state and the running counter of `s` are those of the lock `l`. -/
def HasLock (s : Service) : RWLock → Prop
  | .free => s.pendingTasks.state = .idle ∧ s.runningTaskCnt = 0
  | .shared n => s.pendingTasks.state = .read ∧ s.runningTaskCnt = n + 1
  | .exclusive => s.pendingTasks.state = .write ∧ s.runningTaskCnt = 1

/-- What every handler of the master keeps of a service: a readers–writer queue of ready
    tasks, and the state machine in the state of the lock `l`. -/
structure Inv (bioCnt : Nat) (s : Service) (l : RWLock) : Prop where
  readWrite : s.pendingTasks.data.ReadWrite
  sized : s.pendingTasks.Sized
  ready : ∀ t ∈ s.queued, t.Ready bioCnt
  lock : s.HasLock l

/-- A lock that is held was started. -/
theorem HasLock.started {s : Service} {l : RWLock} (h : s.HasLock l) :
    s.pendingTasks.state.Started := by
  cases l with
  | free => exact .inl h.1
  | shared n => exact .inr (.inl h.1)
  | exclusive => exact .inr (.inr h.1)

/-- One turn of the scheduling loop, as a relation: `x.task` is popped by the policy and sent
    to its target. -/
structure Turn (bioCnt : Nat) (s : Service) (x : Scheduled) (s' : Service) : Prop where
  pop : s.pendingTasks.data.Pop x.task x.rest.data
  rest : s'.pendingTasks = x.rest
  ready : x.task.Ready bioCnt
  name : s'.name = s.name
  apis : s'.apis = s.apis
  data : s'.data = s.data
  event : ∃ dst, findTargetSched bioCnt x.task.src x.task.bidx = .ok dst ∧
    x.event = x.task.runEvent s.name dst

/-- **One turn.** It never aborts: it grants the lock to the task it pops, or leaves the loop
    because the queue is blocked. -/
theorem scheduleTurn_spec {s : Service} {l : RWLock} (h : s.Inv bioCnt l) :
    (s.scheduleTurn bioCnt = .ok (none, s) ∧ s.pendingTasks.Blocked) ∨
      ∃ x s' l', s.scheduleTurn bioCnt = .ok (some x, s') ∧ s.Turn bioCnt x s' ∧
        l.grant x.task.kind = some l' ∧ s'.Inv bioCnt l' := by
  by_cases hempty : s.pendingTasks.empty = true
  · refine .inl ⟨by simp [scheduleTurn, popTask, hempty], ?_⟩
    exact Queue.blocked_of_empty h.readWrite h.sized.elemSz hempty
  · obtain ⟨r, hpull, hr⟩ := Queue.pull_one h.readWrite h.lock.started h.sized.maxSlots
    cases hr with
    | blocked hb => exact .inl ⟨by simp [scheduleTurn, popTask, hempty, hpull], hb⟩
    | @popped x d hpop hst =>
      have hready : x.Ready bioCnt := h.ready x (by simp [queued, hpop.elems])
      -- the state after the pop, and the lock it stands for
      obtain ⟨st, l', hnew, hne, hgrant, hlock⟩ : ∃ st l',
          newState x.base s.pendingTasks.state = .ok st ∧ st ≠ .lock ∧
            l.grant x.kind = some l' ∧
            ∀ q : Queue SrvTask, q.state = st → HasLock
              { s with pendingTasks := q, runningTaskCnt := s.runningTaskCnt + 1 } l' := by
        have hl := h.lock
        rcases hst with ⟨hx, hst⟩ | ⟨hx, hst⟩ <;> simp only [elemType_srvTask] at hx
        · rcases hst with hst | hst <;> cases l <;>
            simp only [HasLock, hst, reduceCtorEq, false_and] at hl
          · exact ⟨.read, .shared 0, by simp [newState, hx, hst], by simp,
              by simp [SrvTask.kind, hx, RWLock.grant], fun q hq => by simp [HasLock, hq, hl.2]⟩
          · rename_i n
            exact ⟨.read, .shared (n + 1), by simp [newState, hx, hst], by simp,
              by simp [SrvTask.kind, hx, RWLock.grant], fun q hq => by simp [HasLock, hq, hl.2]⟩
        · cases l <;> simp only [HasLock, hst, reduceCtorEq, false_and] at hl
          exact ⟨.write, .exclusive, by simp [newState, hx, hst], by simp,
            by simp [SrvTask.kind, hx, RWLock.grant], fun q hq => by simp [HasLock, hq, hl.2]⟩
      have hd : d.ReadWrite := hpop.readWrite h.readWrite
      set q : Queue SrvTask := { s.pendingTasks with data := d, state := st } with hq
      have hset : Queue.setState { s.pendingTasks with data := d } st = .ok q := by
        unfold Queue.setState
        cases d with
        | exclusive mq => exact absurd hd (by simp [QueueData.ReadWrite])
        | rwPw mq => simp [hne, hq]
        | rwPr rmq wmq => simp [hne, hq]
      obtain ⟨dst, hdst, hsched⟩ :=
        scheduleTask_ready { s with pendingTasks := q } hready
      refine .inr ⟨⟨x, q, x.runEvent s.name dst⟩,
        { s with pendingTasks := q, runningTaskCnt := s.runningTaskCnt + 1 }, l', ?_, ?_,
        hgrant, ?_⟩
      · simp [scheduleTurn, popTask, hempty, hpull, hnew, hset, handleException,
          hready.ioStatus, hsched]
      · exact ⟨hpop, rfl, hready, rfl, rfl, rfl, dst, hdst, rfl⟩
      · refine ⟨hd, ⟨h.sized.elemSz, h.sized.maxSlots, h.sized.limit, hpop.fits h.sized.fits⟩,
          fun t ht => h.ready t ?_, hlock q rfl⟩
        have hmem : t ∈ d.elems := ht
        simp [queued, hpop.elems, hmem]

/-! ### A round of scheduling -/

/-- The turns of a round. -/
inductive Turns (bioCnt : Nat) : Service → List Scheduled → Service → Prop
  | nil {s : Service} : Turns bioCnt s [] s
  | cons {s s₁ s' : Service} {x : Scheduled} {xs : List Scheduled}
      (hx : s.Turn bioCnt x s₁) (hxs : Turns bioCnt s₁ xs s') : Turns bioCnt s (x :: xs) s'

/-- A round keeps the name, the api table and the data of the service. -/
theorem Turns.frame {s s' : Service} {xs : List Scheduled} (h : Turns bioCnt s xs s') :
    s'.name = s.name ∧ s'.apis = s.apis ∧ s'.data = s.data := by
  induction h with
  | nil => exact ⟨rfl, rfl, rfl⟩
  | cons hx _ ih =>
    obtain ⟨hn, ha, hd⟩ := ih
    exact ⟨hn.trans hx.name, ha.trans hx.apis, hd.trans hx.data⟩

/-- Every task scheduled in a round is sent to its target. -/
theorem Turns.event {s s' : Service} {xs : List Scheduled} (h : Turns bioCnt s xs s') :
    ∀ x ∈ xs, x.task.Ready bioCnt ∧
      ∃ dst, findTargetSched bioCnt x.task.src x.task.bidx = .ok dst ∧
        x.event = x.task.runEvent s.name dst := by
  induction h with
  | nil => intro x hx; simp at hx
  | cons hx _ ih =>
    intro y hy
    rcases List.mem_cons.mp hy with rfl | hy
    · exact ⟨hx.ready, hx.event⟩
    · rw [← hx.name]
      exact ih y hy

/-- A round keeps the ledger of the queue. -/
theorem Turns.ledger {s s' : Service} {xs : List Scheduled} (h : Turns bioCnt s xs s')
    {pushed : List SrvTask} {pulled : List (SrvTask × QueueData SrvTask)}
    (hrw : s.pendingTasks.data.ReadWrite)
    (hl : Ledger s.pendingTasks.data pushed pulled) :
    Ledger s'.pendingTasks.data pushed (pulled ++ xs.map Scheduled.entry) := by
  induction h generalizing pulled with
  | nil => simpa using hl
  | cons hx _ ih =>
    have hnext := hl.pop hrw hx.pop
    have hrest := hx.pop.readWrite hrw
    rw [← hx.rest] at hnext hrest
    simpa [Scheduled.entry, hx.rest] using ih hrest hnext

/-- A task that waits after a round waited before it. -/
theorem Turns.queued_subset {s s' : Service} {xs : List Scheduled} (h : Turns bioCnt s xs s') :
    ∀ t, t ∈ s'.queued ∨ (∃ x ∈ xs, x.task = t) → t ∈ s.queued := by
  induction h with
  | nil => intro t ht; simpa using ht
  | cons hx _ ih =>
    intro t ht
    rw [Service.queued, hx.pop.elems, ← hx.rest]
    rcases ht with ht | ⟨y, hy, rfl⟩
    · exact List.mem_cons_of_mem _ (ih t (.inl ht))
    · rcases List.mem_cons.mp hy with rfl | hy
      · exact List.mem_cons_self
      · exact List.mem_cons_of_mem _ (ih _ (.inr ⟨y, hy, rfl⟩))

/-- What a round of scheduling leaves: the lock is granted to every task it scheduled, and no
    task that still waits may start. -/
structure Round (bioCnt : Nat) (s : Service) (l : RWLock) (xs : List Scheduled) (s' : Service)
    (l' : RWLock) : Prop where
  turns : Turns bioCnt s xs s'
  inv : s'.Inv bioCnt l'
  blocked : s'.pendingTasks.Blocked
  grants : ∀ ks, l.Holds ks → l'.Holds (xs.map (·.task.kind) ++ ks)

/-- With a turn for each queued task to spare, the loop ends because the queue is blocked. -/
theorem scheduleLoop_spec (turns : Nat) : ∀ {s : Service} {l : RWLock}, s.Inv bioCnt l →
    s.queued.length < turns →
    ∃ xs s' l', scheduleLoop bioCnt turns s = .ok (xs, s') ∧ s.Round bioCnt l xs s' l' := by
  induction turns with
  | zero => intro s l _ hlen; exact absurd hlen (by omega)
  | succ turns ih =>
    intro s l h hlen
    rcases scheduleTurn_spec h with ⟨hturn, hb⟩ | ⟨x, s₁, l₁, hturn, ht, hgrant, h₁⟩
    · exact ⟨[], s, l, by simp [scheduleLoop, hturn], .nil, h, hb, fun ks hks => hks⟩
    · have hlen₁ : s₁.queued.length < turns := by
        have hpop := congrArg List.length ht.pop.elems
        simp only [List.length_cons] at hpop
        rw [Service.queued, ht.rest]
        unfold Service.queued at hlen
        omega
      obtain ⟨xs, s', l', hloop, hr⟩ := ih h₁ hlen₁
      refine ⟨x :: xs, s', l', by simp [scheduleLoop, hturn, hloop, Except.map],
        .cons ht hr.turns, hr.inv, hr.blocked, fun ks hks => ?_⟩
      -- the kind of `x` moves behind those of the later turns
      exact (hr.grants _ (hks.grant hgrant)).perm List.perm_middle

/-- **A round of scheduling.** It never aborts, and it leaves nothing that may start. -/
theorem scheduleTasks_spec {s : Service} {l : RWLock} (h : s.Inv bioCnt l) :
    ∃ xs s' l', s.scheduleTasks bioCnt = .ok (xs, s') ∧ s.Round bioCnt l xs s' l' :=
  scheduleLoop_spec _ h (Nat.lt_succ_self _)

/-! ### The handlers of the master -/

/-- Completing the last running task makes the service idle. -/
theorem taskSetcomplete_last {s : Service} (h : s.runningTaskCnt = 1) :
    s.taskSetcomplete = .ok { s with
      runningTaskCnt := 0, pendingTasks := { s.pendingTasks with state := .idle } } := by
  have hset : s.pendingTasks.setState .idle = .ok { s.pendingTasks with state := .idle } := by
    unfold Queue.setState
    split <;> simp
  simp [taskSetcomplete, h, hset]

/-- Completing another one only counts down. -/
theorem taskSetcomplete_more {s : Service} (h : s.runningTaskCnt ≠ 1) :
    s.taskSetcomplete = .ok { s with runningTaskCnt := s.runningTaskCnt - 1 } := by
  have hne : s.runningTaskCnt - 1 ≠ 0 := by omega
  simp [taskSetcomplete, hne]

/-- **Completing a task** releases the lock and leaves the queued tasks alone. -/
theorem taskSetcomplete_spec {s : Service} {l l' : RWLock} (h : s.Inv bioCnt l)
    (hl : l.release = some l') :
    ∃ s', s.taskSetcomplete = .ok s' ∧ s'.Inv bioCnt l' ∧
      s'.pendingTasks.data = s.pendingTasks.data ∧ s'.name = s.name ∧ s'.apis = s.apis ∧
      s'.data = s.data := by
  -- the last one that ends frees the lock
  have hlast : s.runningTaskCnt = 1 → ({ s with
      runningTaskCnt := 0,
      pendingTasks := { s.pendingTasks with state := .idle } } : Service).Inv bioCnt .free :=
    fun _ => ⟨h.readWrite, ⟨h.sized.elemSz, h.sized.maxSlots, h.sized.limit, h.sized.fits⟩,
      h.ready, rfl, rfl⟩
  cases l with
  | free => simp [RWLock.release] at hl
  | shared n =>
    obtain ⟨hst, hcnt⟩ := h.lock
    -- one reader ends: the last or not
    cases n with
    | zero =>
      simp only [RWLock.release, Option.some.injEq] at hl
      subst hl
      exact ⟨_, taskSetcomplete_last hcnt, hlast hcnt, rfl, rfl, rfl, rfl⟩
    | succ n =>
      simp only [RWLock.release, Option.some.injEq] at hl
      subst hl
      refine ⟨_, taskSetcomplete_more (by omega), ?_, rfl, rfl, rfl, rfl⟩
      refine ⟨h.readWrite, h.sized, h.ready, hst, ?_⟩
      simp only
      omega
  | exclusive =>
    simp only [RWLock.release, Option.some.injEq] at hl
    subst hl
    exact ⟨_, taskSetcomplete_last h.lock.2, hlast h.lock.2, rfl, rfl, rfl, rfl⟩

/-- Offering a task to the queue: it is refused and changes nothing, or it is queued. -/
theorem pushTask_spec {s : Service} {l : RWLock} {t : SrvTask} (h : s.Inv bioCnt l)
    (ht : t.Ready bioCnt) (hrw : t.base = .read ∨ t.base = .write) :
    s.pushTask t = .ok (.busy, s) ∨
      ∃ d, s.pendingTasks.data.Push t d ∧
        s.pushTask t =
          .ok (.ok, { s with pendingTasks := { s.pendingTasks with data := d } }) ∧
        ({ s with pendingTasks := { s.pendingTasks with data := d } } : Service).Inv bioCnt l := by
  rcases Queue.push_spec h.readWrite h.sized hrw with hp | ⟨d, hd, hfits, hp⟩
  · exact .inl (by simp [pushTask, ht.ioStatus, hp])
  · refine .inr ⟨d, hd, by simp [pushTask, ht.ioStatus, hp], hd.readWrite h.readWrite,
      ⟨h.sized.elemSz, h.sized.maxSlots, h.sized.limit, hfits⟩, fun u hu => ?_, ?_⟩
    · have hmem : u ∈ d.elems := hu
      rcases List.mem_append.mp (hd.perm.mem_iff.mp hmem) with hu | hu
      · exact h.ready u hu
      · rw [List.mem_singleton.mp hu]; exact ht
    · have hl := h.lock
      cases l <;> exact hl

/-- What the master does with a new task `t`: it answers that the service is busy, or queues
    the task and runs a round of scheduling. -/
inductive Offer (bioCnt : Nat) (s : Service) (l : RWLock) (t : SrvTask) :
    (SrvTask × (Event ⊕ List Scheduled)) × Service → RWLock → Prop
  | busy : Offer bioCnt s l t ((t, .inl (t.busyEvent s.name)), s) l
  | queued {d : QueueData SrvTask} {xs : List Scheduled} {s' : Service} {l' : RWLock}
      (hpush : s.pendingTasks.data.Push t d)
      (hinv : ({ s with pendingTasks := { s.pendingTasks with data := d } } : Service).Inv
        bioCnt l)
      (hround : Round bioCnt { s with pendingTasks := { s.pendingTasks with data := d } }
        l xs s' l') : Offer bioCnt s l t ((t, .inr xs), s') l'

/-- The task that the handler of `SK_PTO_SVC_IOCALL` makes. -/
def iocallTask (s : Service) (src : Sched) (txn : TxnId) (apiName : Nat) (type : ApiType)
    (bidx : Int) (taskdata : TaskRef) : SrvTask :=
  { base := if type = .read then .read else .write
    ioStatus := .ok, bidx, src, data := .api s.name txn apiName taskdata }

/-- The task that the handler of `SK_PTO_TIMER_EMIT` makes. -/
def emitTask (src : Sched) (entity : Nat) (udata : JobData) (valid : Bool) (bidx : Int)
    (type : JobRw) (interval : Nat) : SrvTask :=
  { base := if type = .read then .read else .write
    ioStatus := .ok, bidx, src, data := .timer entity udata valid interval }

/-- **An iocall** of a registered api with a valid bio index is offered to the queue. -/
theorem svcIocall_spec {s : Service} {l : RWLock} (h : s.Inv bioCnt l) (src : Sched)
    (txn : TxnId) {apiName : Nat} {type : ApiType} {bidx : Int} (taskdata : TaskRef)
    (hapi : s.api apiName = some type) (hbidx : validateBidx bioCnt bidx = true) :
    ∃ r l', s.svcIocall bioCnt src txn apiName bidx taskdata = .ok r ∧
      s.Offer bioCnt l (s.iocallTask src txn apiName type bidx taskdata) r l' := by
  have hrw : (s.iocallTask src txn apiName type bidx taskdata).base = .read ∨
      (s.iocallTask src txn apiName type bidx taskdata).base = .write := by
    cases type <;> simp [iocallTask]
  rcases pushTask_spec h ⟨rfl, hbidx⟩ hrw with hp | ⟨d, hd, hp, h₁⟩
  · have hb := scheduleTask_busy bioCnt s
      (s.iocallTask src txn apiName type bidx taskdata)
    refine ⟨_, l, ?_, .busy⟩
    simp only [iocallTask] at hp hb
    simp [svcIocall, hapi, hp, hb, Except.map, iocallTask]
  · obtain ⟨xs, s', l', hs, hr⟩ := scheduleTasks_spec h₁
    refine ⟨_, l', ?_, .queued hd h₁ hr⟩
    simp only [iocallTask] at hp
    simp [svcIocall, hapi, hp, hs, Except.map, iocallTask]

/-- **A triggered job** with a valid bio index is offered to the queue. -/
theorem timerEmit_spec {s : Service} {l : RWLock} (h : s.Inv bioCnt l) (src : Sched)
    (entity : Nat) (udata : JobData) (valid : Bool) {bidx : Int} (type : JobRw)
    (interval : Nat) (hbidx : validateBidx bioCnt bidx = true) :
    ∃ r l', s.timerEmit bioCnt src entity udata valid bidx type interval = .ok r ∧
      s.Offer bioCnt l (emitTask src entity udata valid bidx type interval) r l' := by
  have hrw : (emitTask src entity udata valid bidx type interval).base = .read ∨
      (emitTask src entity udata valid bidx type interval).base = .write := by
    cases type <;> simp [emitTask]
  rcases pushTask_spec h ⟨rfl, hbidx⟩ hrw with hp | ⟨d, hd, hp, h₁⟩
  · have hb := scheduleTask_busy bioCnt s
      (emitTask src entity udata valid bidx type interval)
    refine ⟨_, l, ?_, .busy⟩
    simp only [emitTask] at hp hb
    simp [timerEmit, hp, hb, Except.map, emitTask]
  · obtain ⟨xs, s', l', hs, hr⟩ := scheduleTasks_spec h₁
    refine ⟨_, l', ?_, .queued hd h₁ hr⟩
    simp only [emitTask] at hp
    simp [timerEmit, hp, hs, Except.map, emitTask]

/-! ### A freshly created service -/

/-- The configured size is positive and leaves room to compute with. -/
theorem maxQueueSize_bounds {maxQsize : Int} (h : maxQsize < 2 ^ 31) :
    0 < maxQueueSize maxQsize ∧ maxQueueSize maxQsize ≤ 2 ^ 31 := by
  unfold maxQueueSize srvMaxTask sizeTMod srvTaskSize
  split
  · split <;> omega
  · omega

/-- **Creation.** A service starts as a free lock with an empty queue. -/
theorem create_spec {name : Nat} {preferRead : Bool} {maxQsize : Int}
    {apis : List (Nat × ApiType)} {s : Service} (hmax : maxQsize < 2 ^ 31)
    (h : create name preferRead maxQsize apis = .ok (some s)) :
    s.Inv bioCnt .free ∧ s.queued = [] ∧ s.pendingTasks.Blocked := by
  obtain ⟨hpos, hle⟩ := maxQueueSize_bounds hmax
  set n := maxQueueSize maxQsize with hn
  have hlt : srvTaskSize * n < sizeTMod := by
    unfold srvTaskSize sizeTMod
    omega
  have hspace : srvTaskSize * n % sizeTMod / n = srvTaskSize := by
    rw [Nat.mod_eq_of_lt hlt, Nat.mul_div_cancel _ hpos]
  have hlim : n * srvTaskSize < Fmbuf.sizeLimit := by
    unfold srvTaskSize Fmbuf.sizeLimit
    omega
  have hfits : ∀ slots, slots ≤ n →
      Fmbuf.Fits srvTaskSize n (Fmbuf.create (srvTaskSize * slots) : Fmbuf SrvTask) := by
    intro slots hs
    refine ⟨by simp [Fmbuf.used, Fmbuf.create], ?_⟩
    rw [Nat.mul_comm]
    exact Nat.mul_le_mul_right _ hs
  have hne : ¬ (n = 0 ∨ 0 > n) := by omega
  have hsz : 0 < srvTaskSize := by decide
  cases preferRead <;>
    simp only [create, Queue.create, ← hn, hne, hspace, queueMode, if_false, if_true, ne_eq,
      not_true_eq_false, Except.ok.injEq, Option.some.injEq, Bool.false_eq_true] at h <;>
    subst h
  · exact ⟨⟨by simp [QueueData.ReadWrite, Fmbuf.create],
      ⟨hsz, hpos, hlim, hfits 0 (by omega)⟩, by simp [queued, QueueData.elems, Fmbuf.create],
      rfl, rfl⟩, rfl, .inl rfl⟩
  · exact ⟨⟨by simp [QueueData.ReadWrite, Fmbuf.create],
      ⟨hsz, hpos, hlim, hfits 0 (by omega), hfits 1 hpos⟩,
      by simp [queued, QueueData.elems, Fmbuf.create], rfl, rfl⟩, rfl, .inr ⟨rfl, .inl rfl⟩⟩

end Service

end Skull
