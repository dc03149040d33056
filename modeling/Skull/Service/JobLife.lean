import Skull.Service.JobProgress

namespace Skull

open Machines

/-!
# The life of a service job

What becomes of a call that creates a job, in every run:

* `JobSystem.exec_calls` — a call is remembered as it returned;
* `JobCall.Lived` — what has happened to its job so far, and what has when nothing is in flight;
* `JobSystem.job_life` — every call has it, no step aborts but for an api body that fails, and the
  steps that work off what is in flight come to an end.
-/

namespace JobSystem

variable {bioCnt : Nat} {home : TaskRef → Sched} {api : TaskRef → Nat} {s : JobSystem}

/-! ### Calls -/

/-- The calls stay. -/
def SameCalls (s : JobSystem) (r : Except JobFault JobSystem) : Prop :=
  Ensures r fun s' => s'.calls = s.calls

/-- A step of the service makes no calls of jobs. -/
theorem sameCalls_srvExec (bioCnt : Nat) (s : JobSystem) (a : SrvAction) :
    SameCalls s (s.srvExec bioCnt a) := by
  rw [srvExec]
  cases s.srv.exec bioCnt a with
  | error fault => exact ensures_error
  | ok srv => exact ensures_ok rfl

theorem sameCalls_mgrDel (s : JobSystem) (i : Nat) : SameCalls s (s.mgrDel i) := by
  rw [mgrDel]
  cases s.entities.get? i with
  | none => exact ensures_error
  | some e =>
    show SameCalls s (if e.status = .dead then _ else _)
    split
    · exact ensures_ok rfl
    · exact ensures_ok rfl

theorem sameCalls_entitySafeDestroy (s : JobSystem) (i : Nat) :
    SameCalls s (s.entitySafeDestroy i) := by
  rw [entitySafeDestroy]
  cases s.entities.get? i with
  | none => exact ensures_error
  | some e =>
    show SameCalls s (if e.owner ≠ .master then _ else _)
    split
    · split
      · exact ensures_ok rfl
      · exact ensures_ok rfl
    · exact sameCalls_mgrDel s i

theorem calls_jobDataDestroy (s : JobSystem) (objs : List JobObj) :
    (objs.foldl jobDataDestroy s).calls = s.calls := by
  induction objs generalizing s with
  | nil => rfl
  | cons obj objs ih =>
    rw [List.foldl_cons, ih, jobDataDestroy_eq]

theorem sameCalls_freeDead (s : JobSystem) (i : Nat) : SameCalls s (s.freeDead i) := by
  rw [freeDead]
  cases s.entities.get? i with
  | none => exact ensures_error
  | some e =>
    show SameCalls s (if e.status ≠ .dead then _ else _)
    split
    · exact ensures_error
    · exact ensures_ok (calls_jobDataDestroy s e.timers)

theorem sameCalls_freeAll (s : JobSystem) (dead : List Nat) :
    SameCalls s (dead.foldlM freeDead s) := by
  induction dead generalizing s with
  | nil => exact ensures_ok rfl
  | cons i dead ih =>
    rw [List.foldlM_cons]
    exact Ensures.bind (sameCalls_freeDead s i) fun t ht => (ih t).mono fun u hu => hu.trans ht

theorem sameCalls_timerFires (s : JobSystem) (t : Nat) : SameCalls s (s.timerFires t) := by
  rw [timerFires]
  cases s.timers.get? t with
  | none => exact ensures_error
  | some timer => exact ensures_ok rfl

theorem sameCalls_timerTriggered (s : JobSystem) (m : TimerMsg) :
    SameCalls s (s.timerTriggered bioCnt m) := by
  rw [timerTriggered]
  split
  · exact ensures_error
  · cases s.timers.get? m.timer with
    | none => exact ensures_error
    | some timer =>
      refine Ensures.bind (sameCalls_srvExec bioCnt s _) fun t ht => ?_
      split
      · split
        · exact ensures_error
        · exact ensures_ok ht
      · exact ensures_ok ht

theorem sameCalls_jobCb (s : JobSystem) (ud : JobData) (valid : Bool) (status : JobRet) :
    SameCalls s (s.jobCb ud valid status) := by
  rw [jobCb]
  split
  · exact ensures_error
  · split
    · exact ensures_error
    · split
      · exact ensures_error
      · exact ensures_ok rfl

theorem sameCalls_handled (s : JobSystem) (p : Packet) (full : JobRw → Bool) :
    SameCalls s (s.handled p full) := by
  rw [handled]
  split
  · exact ensures_ok rfl
  · exact sameCalls_jobCb s _ _ _
  · rename_i name status interval i hpto howner
    set t : JobSystem := if status = .ok then s.mark (.setcomplete i) else s with ht
    have hcalls : t.calls = s.calls := by
      rw [ht]
      split <;> rfl
    split
    · exact (sameCalls_entitySafeDestroy t i).mono fun u hu => hu.trans hcalls
    · exact ensures_ok hcalls
  · exact ensures_ok rfl

theorem sameCalls_returned (s : JobSystem) (p : Packet) :
    SameCalls s (s.returned bioCnt home api p) := by
  rw [returned]
  split
  · rename_i name ud valid status interval hpto
    rw [jobReturns]
    split
    · exact ensures_ok rfl
    · rename_i task htask
      show SameCalls s (if _ ≠ 0 then _ else _)
      split
      · exact ensures_ok rfl
      · exact sameCalls_srvExec bioCnt _ _
  · exact ensures_ok rfl

/-- The job of a call is made by itself. -/
theorem calls_createJob (bioCnt : Nat) (s : JobSystem) (src : Sched) (interval : Nat) (arg : JobObj)
    (bidx : Int) :
    (s.createJob bioCnt src interval arg bidx).2.calls = s.calls := by
  rw [createJob, skServiceJobCreate]
  split
  · rfl
  · simp [jobDataDestroy_eq]

/-- A call with a data mode. -/
theorem calls_create (s : JobSystem) (src : Sched) (svc : SkullService) (type : JobRw)
    (job udfree : Bool) :
    (s.skullServiceJobCreate bioCnt src svc type job udfree).2.calls = s.calls := by
  obtain ⟨txn, task⟩ := svc
  have herror : (if udfree then s.mark (.udfree s.calls.length) else s).calls = s.calls := by
    split <;> rfl
  cases task with
  | none => exact herror
  | some task =>
    cases txn with
    | none => exact herror
    | some txn =>
      cases job with
      | false => exact herror
      | true =>
        have hcreate := calls_createJob bioCnt s src 0
          { data := ⟨s.calls.length, some task, type⟩, destroyer := udfree } 0
        simp only [skullServiceJobCreate]
        split
        · exact hcreate
        · exact hcreate

/-- A call without one. -/
theorem calls_createNp (s : JobSystem) (src : Sched) (interval : Nat) (type : JobRw)
    (job udfree : Bool) (bidx : Int) :
    (s.skullServiceJobCreateNp bioCnt src interval type job udfree bidx).2.calls = s.calls := by
  rw [skullServiceJobCreateNp]
  split
  · split <;> rfl
  · exact calls_createJob bioCnt s _ _ _ _

/-- **A step keeps the calls**, and may add one. -/
theorem exec_calls (a : JobAction) :
    Ensures (s.exec bioCnt home api a) fun s' => s.calls <+: s'.calls := by
  -- only the two functions that create a job add a call
  have hsame : ∀ {r : Except JobFault JobSystem}, SameCalls s r →
      Ensures r fun s' => s.calls <+: s'.calls := fun h =>
    h.mono fun s' hs' => hs'.symm ▸ List.prefix_rfl
  cases a with
  | create src svc type job udfree =>
    apply ensures_ok
    rw [recordCall, calls_create]
    exact List.prefix_append _ _
  | createNp src interval type job udfree bidx =>
    apply ensures_ok
    rw [recordCall, calls_createNp]
    exact List.prefix_append _ _
  | timerFires t => exact hsame (sameCalls_timerFires s t)
  | timerTriggered k =>
    rw [exec]
    split
    · exact ensures_ok List.prefix_rfl
    · exact hsame (sameCalls_timerTriggered (s := { s with triggered := _ }) _)
  | entityDestroy k =>
    rw [exec]
    split
    · exact ensures_ok List.prefix_rfl
    · exact hsame (sameCalls_mgrDel { s with destroys := _ } _)
  | cleanDead x => exact hsame (sameCalls_freeAll s _)
  | pendings task n => exact ensures_ok List.prefix_rfl
  | srv a =>
    cases a with
    | deliver i resumeWf =>
      rw [exec, deliver]
      split
      · exact ensures_ok List.prefix_rfl
      · split
        · exact ensures_error
        · exact hsame (Ensures.bind (sameCalls_srvExec bioCnt s _) fun t ht =>
            (sameCalls_handled t _ _).mono fun u hu => hu.trans ht)
    | bodyEnd j failed taskDone =>
      rw [exec, bodyEnd]
      split
      · exact ensures_ok List.prefix_rfl
      · exact hsame (Ensures.bind (sameCalls_returned s _) fun t ht =>
          (sameCalls_srvExec bioCnt t _).mono fun u hu => hu.trans ht)
    | iocall src txn name bidx task =>
      exact hsame (sameCalls_srvExec bioCnt s (.iocall src txn name bidx task))
    | jobTriggered src entity ud valid bidx interval =>
      exact hsame (sameCalls_srvExec bioCnt s (.jobTriggered src entity ud valid bidx interval))
    | apiComplete src caller txn name task =>
      exact hsame (sameCalls_srvExec bioCnt s (.apiComplete src caller txn name task))
    | getData j => exact hsame (sameCalls_srvExec bioCnt s (.getData j))
    | setData j data => exact hsame (sameCalls_srvExec bioCnt s (.setData j data))

end JobSystem

/-! ### What becomes of a call -/

namespace JobCall

variable {bioCnt : Nat} {c : JobCall} {i : Nat}

/-- What has happened to a job in any phase is the beginning of its life. -/
theorem Seen.begun {marks : List JobMark} {pushes : Nat} {phase : JobPhase}
    (h : c.Seen i marks pushes phase) : ∃ full, marks <+: c.life i full ∧
      (marks ≠ [] → pushes = JobCall.pushes full) := by
  -- the marks of each phase begin those of the next one
  have hended : ∀ full, c.endedMarks i full <+: c.life i full := fun full =>
    List.prefix_append _ _
  have hreturned : ∀ full, c.returnedMarks i full <+: c.life i full := fun full =>
    (List.prefix_append _ _).trans (hended full)
  have hcalled : ∀ full, calledMarks i full <+: c.life i full := fun full =>
    (List.prefix_append _ _).trans (hreturned full)
  cases phase with
  -- nothing was seen of it yet
  | waiting =>
    obtain ⟨rfl, -⟩ := h
    exact ⟨false, List.nil_prefix, fun hne => absurd rfl hne⟩
  | offered full =>
    obtain ⟨rfl, hpushes⟩ := h
    exact ⟨full, List.IsPrefix.trans ⟨_, rfl⟩ (hcalled full), fun _ => hpushes⟩
  | running full =>
    obtain ⟨rfl, hpushes⟩ := h
    exact ⟨full, hcalled full, fun _ => hpushes⟩
  | finished full =>
    obtain ⟨rfl, hpushes⟩ := h
    exact ⟨full, hreturned full, fun _ => hpushes⟩
  | ended =>
    obtain ⟨full, rfl, hpushes⟩ := h
    exact ⟨full, hended full, fun _ => hpushes⟩
  | released =>
    obtain ⟨full, rfl, hpushes⟩ := h
    exact ⟨full, List.prefix_rfl, fun _ => hpushes⟩

/-- **What becomes of the call `c`, which is the `i`-th.** -/
structure Lived (c : JobCall) (bioCnt : Nat) (s : JobSystem) (i : Nat) : Prop where
  /-- If it fails, the object of the user is freed, and nothing else happens. -/
  refused : c.ret ≠ .ok → jobMarksOf i s.log = if c.udfree then [.udfree i] else []
  /-- What happens to a job without an interval is its life, and it is pushed to the queue once if
      the queue was not full. -/
  begun : c.ret = .ok → c.interval = 0 → ∃ full, jobMarksOf i s.log <+: c.life i full ∧
    (jobMarksOf i s.log ≠ [] → pushesOf i s.srv.pushed = pushes full)
  /-- All of it has happened when nothing is in flight. -/
  ended : c.ret = .ok → c.interval = 0 → s.AtRest bioCnt →
    ∃ full, jobMarksOf i s.log = c.life i full ∧ pushesOf i s.srv.pushed = pushes full

end JobCall

namespace JobSystem

variable {bioCnt : Nat} {home : TaskRef → Sched} {api : TaskRef → Nat} {s : JobSystem}

/-- A call has become of it what the invariant says. -/
theorem Inv.lived (h : s.Inv bioCnt) {i : Nat} {c : JobCall} (hc : s.calls[i]? = some c) :
    c.Lived bioCnt s i := by
  refine ⟨h.log.refused i c hc, fun hret hint => ?_, fun hret hint hrest => ?_⟩
  · obtain ⟨phase, -, d, hd, hseen⟩ := h.tracked.one i ⟨c, ⟨hc, hret⟩, hint⟩
    obtain rfl := hd.unique ⟨hc, hret⟩
    exact hseen.begun
  · obtain ⟨d, hd, hseen⟩ := Inv.released hrest h ⟨c, ⟨hc, hret⟩, hint⟩
    obtain rfl := hd.unique ⟨hc, hret⟩
    exact hseen

/-- **The life of a service job.** In every run:

    * a call that fails calls `udfree`, and its job never runs; a job without an interval is called
      once, with `ERROR_BUSY` if the queue was full; then it counts once for its task, the service
      is told of it once if it was pushed, and `udfree` is called once;
    * no step aborts but for an api body that fails;
    * what is in flight is worked off in finitely many steps, and then all of this has happened. -/
theorem job_life (h : (machine bioCnt home api).Reach Machine.anyStep s) :
    (∀ i (c : JobCall), s.calls[i]? = some c → c.Lived bioCnt s i) ∧
      (∀ a fault, s.enabled bioCnt a → s.exec bioCnt home api a = .error fault →
        a.fails = true ∧ fault = .srv .taskFailed) ∧
      (∀ p, (machine bioCnt home api).Path s p → Machine.StepsMeet works s p →
        p.length ≤ s.work) ∧
      ∃ p, (machine bioCnt home api).Path s p ∧ Machine.StepsMeet works s p ∧
        (Machine.last s p).AtRest bioCnt ∧
        ∀ i (c : JobCall), s.calls[i]? = some c → c.Lived bioCnt (Machine.last s p) i := by
  have hinv := reach_inv h
  have hkeep : ∀ (s : JobSystem) (a : JobAction) (t : JobSystem), s.Inv bioCnt →
      (machine bioCnt home api).enabled s a → (machine bioCnt home api).exec s a = .ok t →
      t.Inv bioCnt := by
    intro s a t hs he hx
    rcases exec_fine home api hs he with ⟨-, herr⟩ | ⟨t', hok, ht'⟩
    · exact absurd (herr.symm.trans hx) (by simp)
    · exact Except.ok.inj (hok.symm.trans hx) ▸ ht'
  refine ⟨fun i c hc => hinv.lived hc, fun a fault he hx => ?_, fun p hp hworks => ?_, ?_⟩
  · rcases exec_fine home api hinv he with ⟨hfails, herr⟩ | ⟨t, hok, -⟩
    · exact ⟨hfails, (Except.error.inj (herr.symm.trans hx)).symm⟩
    · exact absurd (hok.symm.trans hx) (by simp)
  · exact hp.length_le hkeep (fun s a t hs he hw hx => work_lt hs he hw hx) hinv hworks
  -- the run that works everything off keeps the calls
  · obtain ⟨p, hp, hworks, hrest⟩ := Machine.exists_path_last (M := machine bioCnt home api)
      (I := Inv bioCnt) (f := work) hkeep (fun s a t hs he hw hx => work_lt hs he hw hx)
      (fun s hs hrest => exists_works hs hrest) hinv
    obtain ⟨hlast, hcalls⟩ := hp.last_invariant (I := fun t => t.Inv bioCnt ∧ s.calls <+: t.calls)
      (fun t a u ht he hx => ⟨hkeep t a u ht.1 he hx, ht.2.trans (exec_calls a u hx)⟩)
      ⟨hinv, List.prefix_rfl⟩
    refine ⟨p, hp, hworks, hrest, fun i c hc => hlast.lived ?_⟩
    obtain ⟨hi, rfl⟩ := List.getElem?_eq_some_iff.mp hc
    exact List.prefix_iff_getElem?.mp hcalls i hi

/-! A pending job that is queued, run and freed, and a call for a bio that does not exist. -/

/-- A service that was just created. -/
def freshJobs : JobSystem :=
  { srv := SrvSystem.fresh, calls := [], timers := Dict.empty, triggered := []
    entities := Dict.empty, destroys := [], inactive := [], freed := [], pendings := fun _ => 0
    log := [] }

/-- The two calls, and what follows. -/
def oneJob : List JobAction :=
  [.create (.worker 1) ⟨some 7, some ⟨7, 0⟩⟩ .write true true,
    .createNp (.worker 1) 0 .read true true 5, .timerFires 0, .timerTriggered 0,
    .srv (.deliver 0 false), .srv (.deliver 0 false), .srv (.bodyEnd 0 false true),
    .srv (.deliver 1 false), .entityDestroy 0, .cleanDead (.worker 1)]

/-- After them. -/
def jobDone : JobSystem :=
  (machine 1 (fun _ => .worker 1) fun _ => 0).final freshJobs oneJob

/-- A job that is done once. -/
theorem jobDone_life : (∀ (c : JobCall), jobDone.calls[0]? = some c → c.Lived 1 jobDone 0) ∧
    jobMarksOf 0 jobDone.log = [.offered 0 false, .called 0 .ok, .returned 0,
      .pendingsDown 0 ⟨7, 0⟩, .setcomplete 0, .udfree 0] ∧
    jobMarksOf 1 jobDone.log = [.udfree 1] := by
  have hinit : Init freshJobs :=
    ⟨⟨0, true, 0, [(0, .read), (1, .write)], by decide, rfl, rfl, rfl, rfl, rfl, rfl⟩, rfl, rfl,
      rfl, rfl, rfl, rfl, rfl, rfl⟩
  have hreach := Machine.final_reach (Machine.Reach.init (C := Machine.anyStep)
    (M := machine 1 (fun _ => .worker 1) fun _ => 0) hinit) oneJob (Machine.stepsMeet_any _ _)
  exact ⟨(job_life hreach).1 0, by decide +kernel, by decide +kernel⟩

end JobSystem

end Skull
