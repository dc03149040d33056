import Skull.Service.System

namespace Skull

open Machines

/-!
# The invariant of a service system

What holds between the service, the messages in flight and the history of the tasks, in every
state that a run reaches:

* `Packet.Wf` — a message carries the task that it will report done, if there is one;
* `SrvSystem.History` — the tasks pushed, scheduled, reported and queued, in order;
* `SrvSystem.Held` — the service is a lock held by the outstanding tasks;
* `SrvSystem.Inv` — with it, nothing that waits may start;
* `SrvSystem.exec_inv` — the step lemma: no step aborts but for a failed body, and every step
  keeps the invariant.
-/

variable {bioCnt : Nat}

/-- The type of a task is the one registered for its api, or the one of its job. -/
def SrvTask.Typed (svc : Service) (t : SrvTask) : Prop :=
  match t.data with
  | .api _ _ name _ => ∃ type, svc.api name = some type ∧
      t.base = if type = .read then .read else .write
  | .timer _ ud _ _ => t.base = if ud.rwType = .read then .read else .write

/-- A task of the service reads or writes. -/
theorem SrvTask.Typed.base {svc : Service} {t : SrvTask} (h : t.Typed svc) :
    t.base = .read ∨ t.base = .write := by
  unfold SrvTask.Typed at h
  split at h
  · obtain ⟨type, -, h⟩ := h
    cases type <;> simp [h]
  · rw [h]
    split <;> simp

/-- A message about the service `svc` is as its sender made it; it carries a task exactly when
    that task is scheduled and will be reported done by it. -/
def Packet.Wf (bioCnt : Nat) (svc : Service) (p : Packet) : Prop :=
  match p.event.pto with
  | .svcIocall service api bidx _ => p.task = none ∧ (∃ txn, p.event.owner = .inl txn) ∧
      service = svc.name ∧ (svc.api api).isSome ∧ Service.validateBidx bioCnt bidx = true
  | .timerEmit _ ud _ bidx type _ => p.task = none ∧ (∃ entity, p.event.owner = .inr entity) ∧
      type = ud.rwType ∧ Service.validateBidx bioCnt bidx = true
  | .svcTaskRun service api _ _ _ => service = svc.name ∧
      ∃ t, p.task = some t ∧ (svc.api api = some .write → t.base = .write)
  | .svcTimerRun _ ud _ status _ =>
      status = .ok ∧ (∃ t, p.task = some t ∧ (ud.rwType = .write → t.base = .write)) ∨
        status = .errorBusy ∧ p.task = none
  | .svcTaskCb _ service _ _ svcTaskDone => service = svc.name ∧ p.task.isSome = svcTaskDone
  | .svcTaskDone service _ svcTaskDone => service = svc.name ∧ p.task.isSome = svcTaskDone
  | .svcTimerDone _ status _ =>
      status = .ok ∧ p.task.isSome ∨ status = .errorBusy ∧ p.task = none
  | .workflowRun => False

/-- A message whose handler runs the body of an api or a job. -/
def Packet.isBody (p : Packet) : Bool :=
  match p.event.pto with
  | .svcTaskRun .. | .svcTimerRun .. => true
  | _ => false

/-- Only the name and the api table of the service matter. -/
theorem Packet.Wf.frame {svc svc' : Service} {p : Packet} (h : p.Wf bioCnt svc)
    (hname : svc'.name = svc.name) (hapis : svc'.apis = svc.apis) : p.Wf bioCnt svc' := by
  have hapi : svc'.api = svc.api := by funext name; rw [Service.api, Service.api, hapis]
  simp only [Packet.Wf, hname, hapi]
  exact h

/-- It does as long as the apis are the same. -/
theorem SrvTask.Typed.frame {svc svc' : Service} {t : SrvTask} (h : t.Typed svc)
    (hapis : svc'.apis = svc.apis) : t.Typed svc' := by
  have hapi : svc'.api = svc.api := by funext name; rw [Service.api, Service.api, hapis]
  simp only [SrvTask.Typed, hapi]
  exact h

/-- The body of an api fails. -/
def SrvAction.fails : SrvAction → Bool
  | .bodyEnd _ failed _ => failed
  | _ => false

namespace SrvSystem

/-- What happened to the tasks: the ledger of the queue, and what became of the scheduled
    tasks. -/
structure History (s : SrvSystem) : Prop where
  base : ∀ t ∈ s.pushed, t.base = .read ∨ t.base = .write
  ledger : Ledger s.svc.pendingTasks.data s.pushed (s.scheduled.map Scheduled.entry)
  reported : (s.scheduled.map Scheduled.task).Perm (s.reported ++ s.outstanding)

/-- The service is the lock `l`, held by the outstanding tasks. -/
structure Held (bioCnt : Nat) (s : SrvSystem) (l : RWLock) : Prop where
  svc : s.svc.Inv bioCnt l
  holds : l.Holds (s.outstanding.map SrvTask.kind)
  typed : ∀ t ∈ s.svc.queued, t.Typed s.svc
  net : ∀ p ∈ s.net, p.Wf bioCnt s.svc
  running : ∀ p ∈ s.running, p.isBody = true ∧ p.Wf bioCnt s.svc
  history : s.History

/-- **The invariant**: a held lock, and nothing that waits may start. -/
structure Inv (bioCnt : Nat) (s : SrvSystem) : Prop where
  held : ∃ l, s.Held bioCnt l
  blocked : s.svc.pendingTasks.Blocked

/-- What runs is a body. -/
theorem Inv.body {s : SrvSystem} (h : s.Inv bioCnt) {p : Packet} (hp : p ∈ s.running) :
    p.isBody = true := by
  obtain ⟨l, hheld⟩ := h.held
  exact (hheld.running p hp).1

/-! ### What moving messages keeps -/

/-- Messages may move and change as long as they carry the same tasks. -/
theorem Held.packets {s : SrvSystem} {l : RWLock} (h : s.Held bioCnt l)
    {net running : List Packet} (hnet : ∀ p ∈ net, p.Wf bioCnt s.svc)
    (hrunning : ∀ p ∈ running, p.isBody = true ∧ p.Wf bioCnt s.svc)
    (hperm : s.outstanding.Perm ((running ++ net).filterMap Packet.task)) :
    Held bioCnt { s with net, running } l :=
  ⟨h.svc, h.holds.perm (hperm.map _), h.typed, hnet, hrunning,
    ⟨h.history.base, h.history.ledger,
      h.history.reported.trans (List.Perm.append_left _ hperm)⟩⟩

/-- A new message that reports nothing. -/
theorem Held.send {s : SrvSystem} {l : RWLock} (h : s.Held bioCnt l) {e : Event}
    (he : Packet.Wf bioCnt s.svc ⟨e, none⟩) : (s.send e none).Held bioCnt l := by
  refine h.packets (fun p hp => ?_) h.running ?_
  · rcases List.mem_append.mp hp with hp | hp
    · exact h.net p hp
    · rw [List.mem_singleton.mp hp]; exact he
  · simp [outstanding, List.filterMap_append]

/-- Taking the message `p` out leaves the others, and the tasks outstanding are that of `p`
    and theirs. -/
theorem outstanding_take {s : SrvSystem} {i : Nat} {p : Packet} (hp : s.net[i]? = some p) :
    s.outstanding.Perm
      (p.task.toList ++ ({ s with net := s.net.eraseIdx i } : SrvSystem).outstanding) := by
  have hperm : (s.running ++ s.net).Perm (p :: (s.running ++ s.net.eraseIdx i)) :=
    ((perm_take hp).append_left _).trans List.perm_middle
  refine (hperm.filterMap _).trans ?_
  cases htask : p.task <;> simp [outstanding, htask]

/-- The same for a body that ends. -/
theorem outstanding_end {s : SrvSystem} {j : Nat} {p : Packet} (hp : s.running[j]? = some p) :
    s.outstanding.Perm
      (p.task.toList ++ ({ s with running := s.running.eraseIdx j } : SrvSystem).outstanding) := by
  have hperm : (s.running ++ s.net).Perm (p :: (s.running.eraseIdx j ++ s.net)) :=
    (perm_take hp).append_right _
  refine (hperm.filterMap _).trans ?_
  cases htask : p.task <;> simp [outstanding, htask]

/-! ### What the master does -/

/-- A task that is queued. -/
theorem Held.push {s : SrvSystem} {l : RWLock} (h : s.Held bioCnt l) {t : SrvTask}
    {d : QueueData SrvTask} (hpush : s.svc.pendingTasks.data.Push t d)
    (htyped : t.Typed s.svc)
    (hinv : ({ s.svc with
      pendingTasks := { s.svc.pendingTasks with data := d } } : Service).Inv bioCnt l) :
    Held bioCnt { s with
      svc := { s.svc with pendingTasks := { s.svc.pendingTasks with data := d } }
      pushed := s.pushed ++ [t] } l := by
  have hist := h.history
  refine ⟨hinv, h.holds, fun u hu => ?_, fun p hp => (h.net p hp).frame rfl rfl,
    fun p hp => ⟨(h.running p hp).1, (h.running p hp).2.frame rfl rfl⟩, fun u hu => ?_,
    hist.ledger.push h.svc.readWrite hpush, hist.reported⟩
  · rcases List.mem_append.mp (hpush.perm.mem_iff.mp hu) with hu | hu
    · exact h.typed u hu
    · rw [List.mem_singleton.mp hu]; exact htyped
  · rcases List.mem_append.mp hu with hu | hu
    · exact hist.base u hu
    · rw [List.mem_singleton.mp hu]; exact htyped.base

/-- The tasks scheduled in a round become outstanding. -/
theorem filterMap_packet (xs : List Scheduled) :
    (xs.map Scheduled.packet).filterMap Packet.task = xs.map Scheduled.task := by
  rw [List.filterMap_map]
  exact congrFun List.filterMap_eq_map xs

/-- The packet of a scheduled task is well formed. -/
theorem wf_packet {svc svc' : Service} {xs : List Scheduled} (h : svc.Turns bioCnt xs svc')
    (htyped : ∀ t ∈ svc.queued, t.Typed svc) : ∀ x ∈ xs, x.packet.Wf bioCnt svc := by
  intro x hx
  obtain ⟨_, dst, _, hevent⟩ := h.event x hx
  have ht : x.task.Typed svc := htyped _ (h.queued_subset _ (.inr ⟨x, hx, rfl⟩))
  unfold SrvTask.Typed at ht
  cases hdata : x.task.data with
  | api service txn name taskdata =>
    rw [hdata] at ht
    obtain ⟨type, hapi, hbase⟩ := ht
    have hpto : x.packet.event.pto = .svcTaskRun svc.name name .ok x.task.src taskdata := by
      simp [Scheduled.packet, hevent, SrvTask.runEvent, hdata]
    simp only [Packet.Wf, hpto, true_and]
    refine ⟨x.task, rfl, fun hw => ?_⟩
    have htype : type = .write := Option.some.inj (hapi.symm.trans hw)
    simp [hbase, htype]
  | timer entity ud valid interval =>
    rw [hdata] at ht
    have hpto : x.packet.event.pto = .svcTimerRun svc.name ud valid .ok interval := by
      simp [Scheduled.packet, hevent, SrvTask.runEvent, hdata]
    simp only [Packet.Wf, hpto, true_and]
    exact .inl ⟨x.task, rfl, fun hw => by simp [ht, hw]⟩

/-- A round of scheduling. -/
theorem Held.round {s : SrvSystem} {l l' : RWLock} {xs : List Scheduled} {svc : Service}
    (h : s.Held bioCnt l) (hr : s.svc.Round bioCnt l xs svc l') :
    (s.afterRound (xs, svc)).Inv bioCnt := by
  obtain ⟨hname, hapis, _⟩ := hr.turns.frame
  have hout : (s.afterRound (xs, svc)).outstanding =
      s.outstanding ++ xs.map Scheduled.task := by
    simp only [outstanding, afterRound, List.filterMap_append, filterMap_packet,
      List.append_assoc]
  refine ⟨⟨l', hr.inv, ?_, fun t ht => ?_, fun p hp => ?_,
    fun p hp => ⟨(h.running p hp).1, (h.running p hp).2.frame hname hapis⟩, h.history.base, ?_, ?_⟩, hr.blocked⟩
  · rw [hout]
    refine (hr.grants _ h.holds).perm ?_
    rw [List.map_append]
    refine List.perm_append_comm.trans (List.Perm.append_left _ ?_)
    simp [Function.comp_def]
  · exact (h.typed t (hr.turns.queued_subset t (.inl ht))).frame hapis
  · rcases List.mem_append.mp hp with hp | hp
    · exact (h.net p hp).frame hname hapis
    · obtain ⟨x, hx, rfl⟩ := List.mem_map.mp hp
      exact (wf_packet hr.turns h.typed x hx).frame hname hapis
  · simpa [afterRound] using hr.turns.ledger h.svc.readWrite h.history.ledger
  · rw [hout]
    simp only [afterRound, List.map_append, ← List.append_assoc]
    exact h.history.reported.append_right _

/-- A new task: it is refused or queued. -/
theorem Held.offer {s : SrvSystem} {l l' : RWLock} (h : s.Held bioCnt l)
    (hb : s.svc.pendingTasks.Blocked) {t : SrvTask}
    {r : (SrvTask × (Event ⊕ List Scheduled)) × Service} (htyped : t.Typed s.svc)
    (hr : s.svc.Offer bioCnt l t r l') : (s.afterOffer r).Inv bioCnt := by
  cases hr with
  | busy =>
    refine ⟨⟨l, h.send ?_⟩, hb⟩
    -- the answer reports nothing, for the task was never scheduled
    cases hdata : t.data <;> simp [Packet.Wf, SrvTask.busyEvent, hdata]
  | queued hpush hinv hround => exact (h.push hpush htyped hinv).round hround

/-- A round after the task of a report, if any, was completed. -/
theorem Held.complete {s : SrvSystem} {l : RWLock} {i : Nat} {p : Packet} {t : SrvTask}
    (h : s.Held bioCnt l) (hp : s.net[i]? = some p) (ht : p.task = some t) :
    ∃ svc l', s.svc.taskSetcomplete = .ok svc ∧
      Held bioCnt { s with svc, net := s.net.eraseIdx i, reported := s.reported ++ [t] } l' := by
  have hout := outstanding_take hp
  simp only [ht, Option.toList_some, List.singleton_append] at hout
  obtain ⟨l', hrel, hholds⟩ := (h.holds.perm (hout.map SrvTask.kind)).release
  obtain ⟨svc, hset, hinv, hdata, hname, hapis, _⟩ := Service.taskSetcomplete_spec h.svc hrel
  refine ⟨svc, l', hset, hinv, hholds, fun u hu => ?_,
    fun p hp => (h.net p (mem_of_mem_take hp)).frame hname hapis,
    fun p hp => ⟨(h.running p hp).1, (h.running p hp).2.frame hname hapis⟩, h.history.base, ?_, ?_⟩
  · simp only [Service.queued, hdata] at hu
    exact (h.typed u hu).frame hapis
  · simpa only [hdata] using h.history.ledger
  · refine h.history.reported.trans ?_
    simp only [List.append_assoc]
    exact List.Perm.append_left _ hout

/-! ### The step lemma -/

/-- A step is fine when it is the abort of a failed body, or keeps the invariant. -/
def Fine (bioCnt : Nat) (r : Except SrvFault SrvSystem) : Prop :=
  r = .error .taskFailed ∨ ∃ s', r = .ok s' ∧ s'.Inv bioCnt

/-- A round on a held lock. -/
theorem Held.scheduleTasks {s : SrvSystem} {l : RWLock} (h : s.Held bioCnt l) :
    ∃ s', (s.svc.scheduleTasks bioCnt).map s.afterRound = .ok s' ∧ s'.Inv bioCnt := by
  obtain ⟨xs, svc, l', hs, hr⟩ := Service.scheduleTasks_spec h.svc
  exact ⟨_, by rw [hs]; rfl, h.round hr⟩

/-- Without the message at `i`, which reports nothing. -/
theorem Held.drop {s : SrvSystem} {l : RWLock} {i : Nat} {p : Packet} (h : s.Held bioCnt l)
    (hp : s.net[i]? = some p) (ht : p.task = none) :
    Held bioCnt { s with net := s.net.eraseIdx i } l := by
  have hout := outstanding_take hp
  rw [ht] at hout
  exact h.packets (fun q hq => h.net q (mem_of_mem_take hq)) h.running hout

/-- **Handling a message.** -/
theorem handle_ok {s : SrvSystem} (h : s.Inv bioCnt) {i : Nat} {p : Packet}
    (hp : s.net[i]? = some p) (resumeWf : Bool) :
    ∃ s', ({ s with net := s.net.eraseIdx i } : SrvSystem).handle bioCnt p resumeWf = .ok s' ∧
      s'.Inv bioCnt := by
  obtain ⟨⟨l, h⟩, hb⟩ := h
  have hwf : p.Wf bioCnt s.svc := h.net p (List.mem_of_getElem? hp)
  have hrest : ∀ q ∈ s.net.eraseIdx i, q.Wf bioCnt s.svc :=
    fun q hq => h.net q (mem_of_mem_take hq)
  have hout := outstanding_take hp
  unfold handle
  -- a message that only moves on carries its task along
  have hforward : ∀ e : Event, Packet.Wf bioCnt s.svc ⟨e, p.task⟩ →
      (send { s with net := s.net.eraseIdx i } e p.task).Inv bioCnt := by
    intro e he
    refine ⟨⟨l, h.packets (fun q hq => ?_) h.running ?_⟩, hb⟩
    · rcases List.mem_append.mp hq with hq | hq
      · exact hrest q hq
      · rw [List.mem_singleton.mp hq]; exact he
    · refine hout.trans (List.perm_append_comm.trans ?_)
      cases htask : p.task <;> simp [outstanding, List.filterMap_append, List.append_assoc]
  have hrun : p.isBody = true →
      Inv bioCnt { s with net := s.net.eraseIdx i, running := s.running ++ [p] } := by
    intro hbody
    refine ⟨⟨l, h.packets hrest (fun q hq => ?_) ?_⟩, hb⟩
    · rcases List.mem_append.mp hq with hq | hq
      · exact h.running q hq
      · rw [List.mem_singleton.mp hq]; exact ⟨hbody, h.net p (List.mem_of_getElem? hp)⟩
    · refine (perm_take hp).append_left s.running |>.filterMap Packet.task |>.trans ?_
      simp
  cases hpto : p.event.pto <;> simp only [Packet.Wf, hpto] at hwf
  case svcIocall service api bidx taskdata =>
    obtain ⟨htask, ⟨txn, howner⟩, rfl, hapi, hbidx⟩ := hwf
    obtain ⟨type, hapi⟩ := Option.isSome_iff_exists.mp hapi
    obtain ⟨r, l', hr, hoffer⟩ := Service.svcIocall_spec h.svc p.event.src txn taskdata hapi
      hbidx
    have htyped : (s.svc.iocallTask p.event.src txn api type bidx taskdata).Typed s.svc :=
      ⟨type, hapi, rfl⟩
    simp only [howner, ne_eq, not_true_eq_false, if_false, hr, Except.map]
    exact ⟨_, rfl, (h.drop hp htask).offer hb htyped hoffer⟩
  case svcTaskRun service api ioStatus src taskdata =>
    simp only [hwf.1, ne_eq, not_true_eq_false, if_false]
    exact ⟨_, rfl, hrun (by rw [Packet.isBody, hpto])⟩
  case svcTaskCb taskdata service api taskStatus svcTaskDone =>
    simp only [hwf.1, ne_eq, not_true_eq_false, if_false]
    refine ⟨_, rfl, hforward _ ?_⟩
    exact ⟨rfl, hwf.2⟩
  case svcTaskDone service resumeWf svcTaskDone =>
    obtain ⟨rfl, hdone⟩ := hwf
    simp only [ne_eq, not_true_eq_false, if_false, Service.svcTaskDone]
    cases svcTaskDone with
    | true =>
      obtain ⟨t, ht⟩ := Option.isSome_iff_exists.mp hdone
      obtain ⟨svc, l', hset, hheld⟩ := h.complete hp ht
      simp only [hset, ht, if_true]
      exact hheld.scheduleTasks
    | false =>
      have ht : p.task = none := Option.isNone_iff_eq_none.mp (by simpa using hdone)
      simp only [ht, Bool.false_eq_true, if_false, Option.toList_none, List.append_nil]
      exact (h.drop hp ht).scheduleTasks
  case timerEmit svc udata valid bidx type interval =>
    obtain ⟨htask, ⟨entity, howner⟩, rfl, hbidx⟩ := hwf
    obtain ⟨r, l', hr, hoffer⟩ := Service.timerEmit_spec h.svc p.event.src entity udata valid
      udata.rwType interval hbidx
    have htyped : (Service.emitTask p.event.src entity udata valid bidx udata.rwType
      interval).Typed s.svc := rfl
    simp only [howner, hr, Except.map]
    exact ⟨_, rfl, (h.drop hp htask).offer hb htyped hoffer⟩
  case svcTimerRun svc ud valid status interval =>
    exact ⟨_, rfl, hrun (by rw [Packet.isBody, hpto])⟩
  case svcTimerDone svc status interval =>
    simp only [Service.svcTimerDone]
    rcases hwf with ⟨rfl, htask⟩ | ⟨rfl, ht⟩
    · obtain ⟨t, ht⟩ := Option.isSome_iff_exists.mp htask
      obtain ⟨svc, l', hset, hheld⟩ := h.complete hp ht
      simp only [hset, ht, if_true]
      exact hheld.scheduleTasks
    · simp only [ht, reduceCtorEq, if_false, ne_eq, not_true_eq_false, Option.toList_none,
        List.append_nil]
      exact (h.drop hp ht).scheduleTasks

/-- **The end of a body.** -/
theorem finish_fine {s : SrvSystem} (h : s.Inv bioCnt) {j : Nat} {p : Packet}
    (hp : s.running[j]? = some p) (failed taskDone : Bool) :
    failed = true ∧ ({ s with running := s.running.eraseIdx j } : SrvSystem).finish p failed
        taskDone = .error .taskFailed ∨
      ∃ s', ({ s with running := s.running.eraseIdx j } : SrvSystem).finish p failed taskDone =
        .ok s' ∧ s'.Inv bioCnt := by
  obtain ⟨⟨l, h⟩, hb⟩ := h
  obtain ⟨hbody, hwf⟩ := h.running p (List.mem_of_getElem? hp)
  have hforward : ∀ e : Event, Packet.Wf bioCnt s.svc ⟨e, p.task⟩ →
      (send { s with running := s.running.eraseIdx j } e p.task).Inv bioCnt := by
    intro e he
    refine ⟨⟨l, h.packets (fun q hq => ?_) (fun q hq => h.running q (mem_of_mem_take hq)) ?_⟩, hb⟩
    · rcases List.mem_append.mp hq with hq | hq
      · exact h.net q hq
      · rw [List.mem_singleton.mp hq]; exact he
    · refine (outstanding_end hp).trans (List.perm_append_comm.trans ?_)
      cases htask : p.task <;> simp [outstanding, List.filterMap_append, List.append_assoc]
  unfold finish
  cases hpto : p.event.pto <;> simp only [Packet.Wf, hpto] at hwf
  case svcTaskRun service api ioStatus src taskdata =>
    obtain ⟨hname, t, ht, _⟩ := hwf
    cases failed with
    | true => exact .inl ⟨rfl, rfl⟩
    | false =>
      refine .inr ⟨_, rfl, hforward _ ?_⟩
      exact ⟨hname, by rw [ht]; rfl⟩
  case svcTimerRun svc ud valid status interval =>
    refine .inr ⟨_, rfl, hforward _ ?_⟩
    rcases hwf with ⟨hok, t, ht, _⟩ | ⟨hbusy, ht⟩
    · exact .inl ⟨hok, by rw [ht]; rfl⟩
    · exact .inr ⟨hbusy, ht⟩
  -- no other message has a body
  all_goals simp [Packet.isBody, hpto] at hbody

/-- While a write body runs, the service is in a state in which its data may be touched. -/
theorem dataMutable_of_writeBody {s : SrvSystem} (h : s.Inv bioCnt) {j : Nat} {p : Packet}
    (hp : s.running[j]? = some p) (hw : p.isWriteBody s.svc = true) :
    s.svc.dataMutable = true := by
  obtain ⟨⟨l, h⟩, -⟩ := h
  obtain ⟨-, hwf⟩ := h.running p (List.mem_of_getElem? hp)
  -- the body runs for an outstanding task that holds the lock for writing
  obtain ⟨t, ht, hbase⟩ : ∃ t, p.task = some t ∧ t.base = .write := by
    unfold Packet.isWriteBody at hw
    split at hw <;> rename_i hpto <;> simp only [Packet.Wf, hpto] at hwf
    · obtain ⟨-, t, ht, hbase⟩ := hwf
      exact ⟨t, ht, hbase (by simpa using hw)⟩
    · simp only [Bool.decide_and, Bool.and_eq_true, decide_eq_true_eq] at hw
      rcases hwf with ⟨-, t, ht, hbase⟩ | ⟨hbusy, -⟩
      · exact ⟨t, ht, hbase hw.1⟩
      · exact absurd (hbusy.symm.trans hw.2) (by simp)
    · exact absurd hw (by simp)
  have hmem : t ∈ s.outstanding := by
    refine List.mem_filterMap.mpr ⟨p, ?_, ht⟩
    exact List.mem_append_left _ (List.mem_of_getElem? hp)
  have hkind : RWKind.write ∈ s.outstanding.map SrvTask.kind :=
    List.mem_map.mpr ⟨t, hmem, by simp [SrvTask.kind, hbase]⟩
  have hl : l = .exclusive := h.holds.eq_exclusive hkind
  have hlock := h.svc.lock
  rw [hl] at hlock
  simp [Service.dataMutable, hlock.1]

/-- Writing the data keeps the invariant. -/
theorem setData_inv {s : SrvSystem} (h : s.Inv bioCnt) (data : Nat) :
    Inv bioCnt { s with svc := { s.svc with data } } := by
  obtain ⟨⟨l, h⟩, hb⟩ := h
  refine ⟨⟨l, ⟨h.svc.readWrite, h.svc.sized, h.svc.ready, ?_⟩, h.holds,
    fun t ht => (h.typed t ht).frame rfl, fun p hp => (h.net p hp).frame rfl rfl,
    fun p hp => ⟨(h.running p hp).1, (h.running p hp).2.frame rfl rfl⟩, h.history.base,
    h.history.ledger, h.history.reported⟩, hb⟩
  have hlock := h.svc.lock
  cases l <;> exact hlock

/-- A step that aborts is the end of a body that failed, and every other step keeps the
    invariant. -/
theorem exec_cases {s : SrvSystem} (h : s.Inv bioCnt) {a : SrvAction} (he : s.enabled bioCnt a) :
    a.fails = true ∧ s.exec bioCnt a = .error .taskFailed ∨
      ∃ s', s.exec bioCnt a = .ok s' ∧ s'.Inv bioCnt := by
  obtain ⟨l, hheld⟩ := h.held
  cases a with
  | iocall src txn api bidx taskdata =>
    simp only [exec]
    split
    · -- the index of the bio is checked at the call
      rename_i hbidx
      exact .inr ⟨_, rfl, ⟨l, hheld.send ⟨rfl, ⟨txn, rfl⟩, rfl, he, hbidx⟩⟩, h.blocked⟩
    · exact .inr ⟨s, rfl, h⟩
  | jobTriggered src entity udata valid bidx interval =>
    exact .inr ⟨_, rfl, ⟨l, hheld.send ⟨rfl, ⟨entity, rfl⟩, rfl, he⟩⟩, h.blocked⟩
  | deliver i resumeWf =>
    obtain ⟨p, hp, -⟩ := he
    rw [Option.mem_def] at hp
    simp only [exec, hp]
    exact .inr (handle_ok h hp resumeWf)
  -- only a body that fails is an assertion
  | bodyEnd j failed taskDone =>
    obtain ⟨p, hp⟩ : ∃ p, s.running[j]? = some p := ⟨_, List.getElem?_eq_getElem he⟩
    simp only [exec, hp]
    exact finish_fine h hp failed taskDone
  | apiComplete src caller txn api taskdata =>
    exact .inr ⟨_, rfl, ⟨l, hheld.send ⟨rfl, rfl⟩⟩, h.blocked⟩
  -- the data is only touched from the body of a write
  | getData j =>
    obtain ⟨p, hp, hw⟩ := he
    have hd := dataMutable_of_writeBody h hp hw
    exact .inr ⟨s, by simp [exec, Service.getData, hd, Except.map], h⟩
  | setData j data =>
    obtain ⟨p, hp, hw⟩ := he
    have hd := dataMutable_of_writeBody h hp hw
    exact .inr ⟨_, by simp [exec, Service.setData, hd, Except.map], setData_inv h data⟩

/-- **The step lemma.** From a state with the invariant no step aborts but for a failed body,
    and every step keeps the invariant. -/
theorem exec_fine {s : SrvSystem} (h : s.Inv bioCnt) {a : SrvAction} (he : s.enabled bioCnt a) :
    Fine bioCnt (s.exec bioCnt a) := (exec_cases h he).imp And.right id

/-! ### Every run -/

/-- A freshly created service has the invariant. -/
theorem init_inv {s : SrvSystem} (h : Init s) : s.Inv bioCnt := by
  obtain ⟨name, preferRead, maxQsize, apis, hmax, hcreate, hnet, hrunning, hpushed, hscheduled,
    hreported⟩ := h
  obtain ⟨hinv, hqueued, hb⟩ := Service.create_spec hmax hcreate
  refine ⟨⟨.free, hinv, ?_, ?_, ?_, ?_, ?_, ?_, ?_⟩, hb⟩
  · simp [RWLock.Holds, outstanding, hnet, hrunning]
  · simp [hqueued]
  · simp [hnet]
  · simp [hrunning]
  · simp [hpushed]
  · rw [hpushed, hscheduled]
    exact Ledger.nil hqueued
  · simp [hscheduled, hreported, outstanding, hnet, hrunning]

/-- **The run lemma.** Every state a run reaches has the invariant. -/
theorem reach_inv {s : SrvSystem} (h : (machine bioCnt).Reach Machine.anyStep s) :
    s.Inv bioCnt := by
  refine h.invariant (I := Inv bioCnt) (fun _ hs => init_inv hs) fun s a t hs he _ hx => ?_
  rcases exec_fine hs he with herr | ⟨s', hok, hinv⟩
  · exact absurd (herr.symm.trans hx) (by simp)
  · exact Except.ok.inj (hok.symm.trans hx) ▸ hinv

end SrvSystem

end Skull
