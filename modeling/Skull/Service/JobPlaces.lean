import Skull.Service.Jobs
import Skull.Service.Places
import Skull.Lib.Tokens

namespace Skull

open Machines

/-!
# Where a job is, and what is known of it

A job without an interval is at one place from its creation to the end: its timer, a message, the
queue of the service, a body, or its entity.

* `JobPhase` — what a place says of a job there;
* `JobSystem.places` — the tokens of all places;
* `JobCall.life` — all that happens to a job, in order, and `JobCall.Seen`, how much of it has
  happened in each phase;
* `JobTimers`, `JobMessages`, `JobEntities`, `JobLog` — what the timers, the messages and the
  entities carry, and what is known of the other calls;
* `JobSystem.Inv` — the invariant.
-/

/-- The phase of a job without an interval. -/
inductive JobPhase
  /-- It has not been offered to the queue. -/
  | waiting
  /-- It is in the queue, or a message is to call its function. -/
  | offered (full : Bool)
  /-- Its function runs. -/
  | running (full : Bool)
  /-- A message reports it done. -/
  | finished (full : Bool)
  /-- Its entity is to be freed. -/
  | ended
  /-- Its entity was freed. -/
  | released
  deriving DecidableEq, Repr

/-! ### Places -/

/-- The token of a job, if it has no interval. -/
def jobToken (interval i : Nat) (phase : JobPhase) : Nat → Multiset JobPhase :=
  if interval = 0 then token i phase else 0

/-- A timer that has not fired. -/
def SkTimer.place (timer : SkTimer) : Nat → Multiset JobPhase :=
  if timer.triggered then 0 else jobToken timer.interval timer.ud.ud.id .waiting

/-- A timer that has. -/
def TimerMsg.place (m : TimerMsg) : Nat → Multiset JobPhase :=
  jobToken m.ud.interval m.ud.ud.id .waiting

/-- A message. -/
def Packet.place (p : Packet) : Nat → Multiset JobPhase :=
  match p.event.pto, p.event.owner with
  | .timerEmit _ ud _ _ _ interval, _ => jobToken interval ud.id .waiting
  | .svcTimerRun _ ud _ status interval, _ =>
    jobToken interval ud.id (.offered (status ≠ .ok))
  | .svcTimerDone _ status interval, .inr i => jobToken interval i (.finished (status ≠ .ok))
  | _, _ => 0

/-- A body. -/
def Packet.runPlace (p : Packet) : Nat → Multiset JobPhase :=
  match p.event.pto with
  | .svcTimerRun _ ud _ status interval => jobToken interval ud.id (.running (status ≠ .ok))
  | _ => 0

/-- A task in the queue. -/
def SrvTask.place (t : SrvTask) : Nat → Multiset JobPhase :=
  match t.data with
  | .timer _ ud _ interval => jobToken interval ud.id (.offered false)
  | .api .. => 0

/-- The tokens of all places. -/
def JobSystem.places (s : JobSystem) : Nat → Multiset JobPhase :=
  s.timers.sum (fun _ => SkTimer.place) + (s.triggered.map TimerMsg.place).sum +
    s.srv.total Packet.place Packet.runPlace SrvTask.place +
    (s.destroys.map (token · JobPhase.ended)).sum +
    (s.inactive.map (token · JobPhase.ended)).sum + (s.freed.map (token · JobPhase.released)).sum

@[simp] theorem jobToken_zero (i : Nat) (phase : JobPhase) : jobToken 0 i phase = token i phase :=
  if_pos rfl

/-- A job that repeats has no token. -/
theorem jobToken_ne {interval : Nat} (h : interval ≠ 0) (i : Nat) (phase : JobPhase) :
    jobToken interval i phase = 0 := if_neg h

theorem Packet.place_other {p : Packet} (h : p.ofJob = false) :
    p.place = 0 ∧ p.runPlace = 0 := by
  rw [Packet.ofJob] at h
  rw [Packet.place, Packet.runPlace]
  cases hpto : p.event.pto <;> simp_all

theorem SrvTask.place_other {t : SrvTask} (h : t.ofJob = false) : t.place = 0 := by
  rw [SrvTask.ofJob] at h
  rw [SrvTask.place]
  cases hdata : t.data <;> simp_all

/-- A task that is scheduled stays in its phase. -/
theorem Scheduled.place {x : Scheduled} {name : Nat} {dst : Sched}
    (h : x.event = x.task.runEvent name dst) : x.packet.place = x.task.place := by
  rw [Packet.place, SrvTask.place, Scheduled.packet, h, SrvTask.runEvent]
  cases x.task.data with
  | api service txn api taskdata => rfl
  | timer entity ud valid interval =>
    show jobToken interval ud.id (.offered (JobRet.ok ≠ .ok)) = _
    simp

/-- **A step of the service and the tokens.** -/
theorem SrvMove.places {m : SrvMove} {s s' : SrvSystem} (h : m.Of s s') :
    s'.total Packet.place Packet.runPlace SrvTask.place +
        ((m.goneNet.map Packet.place).sum + (m.goneRun.map Packet.runPlace).sum) =
      s.total Packet.place Packet.runPlace SrvTask.place + ((m.newNet.map Packet.place).sum +
        (m.newRun.map Packet.runPlace).sum + (m.pushed.map SrvTask.place).sum) := by
  have htotal := SrvMove.total Packet.place Packet.runPlace SrvTask.place h
  have hsame : (m.scheduled.map fun x => x.packet.place) =
      m.scheduled.map fun x => x.task.place := by
    apply List.map_congr_left
    intro x hx
    obtain ⟨dst, hevent⟩ := h.event x hx
    exact Scheduled.place hevent
  rw [hsame] at htotal
  apply add_right_cancel (b := (m.scheduled.map fun x => x.task.place).sum)
  rw [add_assoc, htotal]
  exact (add_assoc _ _ _).symm

/-! ### What happens to a job -/

/-- The marks of a job. -/
def jobMarksOf (i : Nat) (log : List JobMark) : List JobMark := log.filter fun m => m.job = i

/-- The job of a task. -/
def SrvTask.job (t : SrvTask) : Option Nat :=
  match t.data with
  | .timer _ ud _ _ => some ud.id
  | .api .. => none

/-- How often a job was pushed to the queue. -/
def pushesOf (i : Nat) (pushed : List SrvTask) : Nat := pushed.countP fun t => t.job = some i

namespace JobCall

/-- The job is offered and its function is called. -/
def calledMarks (i : Nat) (full : Bool) : List JobMark :=
  [.offered i full, .called i (if full then .errorBusy else .ok)]

/-- It returns, which counts for the task of a pending job. -/
def returnedMarks (c : JobCall) (i : Nat) (full : Bool) : List JobMark :=
  calledMarks i full ++ .returned i :: (c.task.map (JobMark.pendingsDown i)).toList

/-- It is reported done, which counts for the service if it was queued. -/
def endedMarks (c : JobCall) (i : Nat) (full : Bool) : List JobMark :=
  c.returnedMarks i full ++ if full then [] else [.setcomplete i]

/-- **All that happens to a job**, until its data are freed. -/
def life (c : JobCall) (i : Nat) (full : Bool) : List JobMark :=
  c.endedMarks i full ++ if c.udfree then [.udfree i] else []

/-- How often it is pushed. -/
def pushes (full : Bool) : Nat := if full then 0 else 1

/-- What has happened to a job in each phase. -/
def Seen (c : JobCall) (i : Nat) (marks : List JobMark) (pushes : Nat) : JobPhase → Prop
  | .waiting => marks = [] ∧ pushes = 0
  | .offered full => marks = [.offered i full] ∧ pushes = JobCall.pushes full
  | .running full => marks = calledMarks i full ∧ pushes = JobCall.pushes full
  | .finished full => marks = c.returnedMarks i full ∧ pushes = JobCall.pushes full
  | .ended => ∃ full, marks = c.endedMarks i full ∧ pushes = JobCall.pushes full
  | .released => ∃ full, marks = c.life i full ∧ pushes = JobCall.pushes full

/-! ### What the objects of a job carry -/

/-- The `job_data_t` of the job `i`. -/
def data (c : JobCall) (i : Nat) : JobData := ⟨i, c.task, c.rwType⟩

/-- Its `srv_jobdata_t`. -/
def jobdata (c : JobCall) (i : Nat) : SrvJobdata := ⟨i, c.data i, c.bidx, c.interval⟩

/-- Its timer. -/
def timer (c : JobCall) (i : Nat) (triggered : Bool) : SkTimer :=
  ⟨c.src, i, c.jobdata i, true, triggered, c.interval⟩

/-- The message of its timer. -/
def timerMsg (c : JobCall) (i : Nat) : TimerMsg := ⟨i, i, c.jobdata i⟩

/-- Its entity. -/
def entity (c : JobCall) (i : Nat) (status : EntityStatus) : TimerEntity :=
  ⟨c.src, status, [⟨c.data i, c.udfree⟩]⟩

end JobCall

/-- The call `c` created the job `i`. -/
def IsJob (calls : List JobCall) (i : Nat) (c : JobCall) : Prop :=
  calls[i]? = some c ∧ c.ret = .ok

/-- The job `i` has no interval. -/
def OneShot (calls : List JobCall) (i : Nat) : Prop := ∃ c, IsJob calls i c ∧ c.interval = 0

/-- What is known of the job `i` in a phase. -/
def JobHolds (calls : List JobCall) (log : List JobMark) (pushed : List SrvTask) (i : Nat)
    (phase : JobPhase) : Prop :=
  ∃ c, IsJob calls i c ∧ c.Seen i (jobMarksOf i log) (pushesOf i pushed) phase

/-- The timers are those of jobs, and a message of a timer finds it. -/
structure JobTimers (bioCnt : Nat) (calls : List JobCall) (timers : Dict Nat SkTimer)
    (triggered : List TimerMsg) : Prop where
  timer : ∀ t timer, timers.get? t = some timer → ∃ c b, IsJob calls t c ∧ timer = c.timer t b ∧
    Service.validateBidx bioCnt c.bidx = true
  message : ∀ m ∈ triggered, ∃ c, IsJob calls m.timer c ∧ m = c.timerMsg m.timer ∧
    timers.get? m.timer = some (c.timer m.timer true)

/-- What a message or a task of a job carries. -/
def Carries (calls : List JobCall) (ud : JobData) (valid : Bool) (interval : Nat) : Prop :=
  ∃ c, IsJob calls ud.id c ∧ ud = c.data ud.id ∧ valid = true ∧ interval = c.interval

/-- A message is about a job, or not about jobs. -/
def Packet.OfJob (calls : List JobCall) (p : Packet) : Prop :=
  match p.event.pto with
  | .timerEmit _ ud valid _ _ interval => Carries calls ud valid interval ∧
      p.event.owner = .inr ud.id
  | .svcTimerRun _ ud valid _ interval => Carries calls ud valid interval ∧
      p.event.owner = .inr ud.id
  | .svcTimerDone _ _ interval => ∃ i c, IsJob calls i c ∧ p.event.owner = .inr i ∧
      interval = c.interval
  | _ => True

/-- The same for a task. -/
def SrvTask.OfJob (calls : List JobCall) (t : SrvTask) : Prop :=
  match t.data with
  | .timer entity ud valid interval => Carries calls ud valid interval ∧ entity = ud.id
  | .api .. => True

/-- What the messages and tasks carry. -/
structure JobMessages (calls : List JobCall) (srv : SrvSystem) : Prop where
  net : ∀ p ∈ srv.net, p.OfJob calls
  running : ∀ p ∈ srv.running, p.OfJob calls
  queued : ∀ t ∈ srv.svc.queued, t.OfJob calls

/-- Every job that was not freed has its entity. -/
structure JobEntities (calls : List JobCall) (entities : Dict Nat TimerEntity)
    (inactive freed : List Nat) : Prop where
  entity : ∀ i e, entities.get? i = some e →
    ∃ c, IsJob calls i c ∧ e = c.entity i (if i ∈ inactive then .dead else .active)
  kept : ∀ i c, IsJob calls i c → i ∉ freed → ∃ e, entities.get? i = some e

/-- What is known of the calls that have not been made, of those that were refused, and of the
    jobs with an interval. -/
structure JobLog (calls : List JobCall) (log : List JobMark) (pushed : List SrvTask) : Prop where
  unknown : ∀ i, calls.length ≤ i → jobMarksOf i log = [] ∧ pushesOf i pushed = 0
  refused : ∀ i c, calls[i]? = some c → c.ret ≠ .ok →
    jobMarksOf i log = if c.udfree then [.udfree i] else []
  recurring : ∀ i c, IsJob calls i c → c.interval ≠ 0 → .udfree i ∉ log

/-- **The invariant.** -/
structure JobSystem.Inv (bioCnt : Nat) (s : JobSystem) : Prop where
  srv : s.srv.Inv bioCnt
  tracked : Tracked (OneShot s.calls) s.places (JobHolds s.calls s.log s.srv.pushed)
  timers : JobTimers bioCnt s.calls s.timers s.triggered
  messages : JobMessages s.calls s.srv
  entities : JobEntities s.calls s.entities s.inactive s.freed
  log : JobLog s.calls s.log s.srv.pushed
  pending : ∀ c ∈ s.calls, c.task ≠ none → c.interval = 0

/-! ### What stays the same -/

theorem jobMarksOf_append (i : Nat) (log ms : List JobMark) :
    jobMarksOf i (log ++ ms) = jobMarksOf i log ++ jobMarksOf i ms := List.filter_append ..

/-- Marks of one job only. -/
theorem jobMarksOf_same {i : Nat} {ms : List JobMark} (h : ∀ m ∈ ms, m.job = i) :
    jobMarksOf i ms = ms := List.filter_eq_self.mpr fun m hm => by simpa using h m hm

theorem jobMarksOf_other {i : Nat} {ms : List JobMark} (h : ∀ m ∈ ms, m.job ≠ i) :
    jobMarksOf i ms = [] := List.filter_eq_nil_iff.mpr fun m hm => by simp [h m hm]

theorem pushesOf_append (i : Nat) (pushed ts : List SrvTask) :
    pushesOf i (pushed ++ ts) = pushesOf i pushed + pushesOf i ts := List.countP_append ..

theorem pushesOf_other {i : Nat} {ts : List SrvTask} (h : ∀ t ∈ ts, t.job ≠ some i) :
    pushesOf i ts = 0 := List.countP_eq_zero.mpr fun t ht => by simpa using h t ht

/-- A job has the number of a call. -/
theorem IsJob.lt {calls : List JobCall} {i : Nat} {c : JobCall} (h : IsJob calls i c) :
    i < calls.length := (List.getElem?_eq_some_iff.mp h.1).1

/-- A number is that of one job. -/
theorem IsJob.unique {calls : List JobCall} {i : Nat} {c c' : JobCall} (h : IsJob calls i c)
    (h' : IsJob calls i c') : c = c' := Option.some.inj (h.1.symm.trans h'.1)

/-- A job that does not repeat. -/
theorem IsJob.oneShot {calls : List JobCall} {i : Nat} {c : JobCall} (h : IsJob calls i c)
    (hshot : OneShot calls i) : c.interval = 0 := by
  obtain ⟨c', hc', hzero⟩ := hshot
  rw [h.unique hc']
  exact hzero

/-- Marks and pushes of other jobs do not matter. -/
theorem JobHolds.other {calls : List JobCall} {log : List JobMark} {pushed : List SrvTask}
    {i : Nat} {phase : JobPhase} (h : JobHolds calls log pushed i phase) (ms : List JobMark)
    (ts : List SrvTask) (hms : ∀ m ∈ ms, m.job ≠ i) (hts : ∀ t ∈ ts, t.job ≠ some i) :
    JobHolds calls (log ++ ms) (pushed ++ ts) i phase := by
  obtain ⟨c, hc, hseen⟩ := h
  refine ⟨c, hc, ?_⟩
  rw [jobMarksOf_append, jobMarksOf_other hms, List.append_nil, pushesOf_append,
    pushesOf_other hts, Nat.add_zero]
  exact hseen

/-- Marks and pushes of jobs, with no `udfree` of one that has an interval. -/
theorem JobLog.marks {calls : List JobCall} {log : List JobMark} {pushed : List SrvTask}
    (h : JobLog calls log pushed) (ms : List JobMark) (ts : List SrvTask)
    (hms : ∀ m ∈ ms, ∃ c, IsJob calls m.job c ∧ (c.interval ≠ 0 → m ≠ .udfree m.job))
    (hts : ∀ t ∈ ts, ∀ i, t.job = some i → i < calls.length) :
    JobLog calls (log ++ ms) (pushed ++ ts) := by
  refine ⟨fun i hi => ?_, fun i c hc hret => ?_, fun i c hc hint hmem => ?_⟩
  · have hother : ∀ m ∈ ms, m.job ≠ i := fun m hm heq => by
      obtain ⟨c, hc, -⟩ := hms m hm
      have hlt := hc.lt
      omega
    have hother' : ∀ t ∈ ts, t.job ≠ some i := fun t ht heq => by
      have hlt := hts t ht i heq
      omega
    rw [jobMarksOf_append, jobMarksOf_other hother, List.append_nil, pushesOf_append,
      pushesOf_other hother', Nat.add_zero]
    exact h.unknown i hi
  · have hother : ∀ m ∈ ms, m.job ≠ i := fun m hm heq => by
      obtain ⟨d, hd, -⟩ := hms m hm
      rw [heq] at hd
      exact hret (Option.some.inj (hc.symm.trans hd.1) ▸ hd.2)
    rw [jobMarksOf_append, jobMarksOf_other hother, List.append_nil]
    exact h.refused i c hc hret
  · rcases List.mem_append.mp hmem with hold | hnew
    · exact h.recurring i c hc hint hold
    · obtain ⟨d, hd, hfree⟩ := hms _ hnew
      exact hfree (hc.unique hd ▸ hint) rfl

end Skull
