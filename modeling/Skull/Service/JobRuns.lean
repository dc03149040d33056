import Skull.Service.JobSteps

namespace Skull

open Machines

/-!
# All runs of a service with jobs

Every step keeps the invariant, and does not abort but for an api body that fails:

* `JobSystem.deliver_ok`, `JobSystem.bodyEnd_fine` — messages and bodies;
* `JobSystem.Inv.refused`, `JobSystem.Inv.created` — a call that creates no job, and one that does;
* `JobSystem.timerFires_ok`, `JobSystem.timerTriggered_ok` — the timer of a job;
* `JobSystem.exec_fine` — the step lemma;
* `JobSystem.reach_inv` — the run lemma.
-/

/-- The body of an api fails. -/
def JobAction.fails : JobAction → Bool
  | .srv a => a.fails
  | _ => false

namespace JobSystem

variable {bioCnt : Nat} {home : TaskRef → Sched} {api : TaskRef → Nat} {s : JobSystem}

/-! ### Messages and bodies -/

/-- A step of the service that moves no job. -/
theorem srvExec_other (h : s.Inv bioCnt) {a : SrvAction} (he : s.srv.enabled bioCnt a)
    (hmoves : ∀ srv', s.srv.exec bioCnt a = .ok srv' → ∃ m : SrvMove, m.Of s.srv srv' ∧ NoJob m) :
    Fine bioCnt a.fails (s.srvExec bioCnt a) := by
  rcases SrvSystem.exec_cases h.srv he with ⟨hfails, herr⟩ | ⟨srv', hok, hinv⟩
  · exact .inl ⟨hfails, srvExec_error herr⟩
  · obtain ⟨m, hm, hno⟩ := hmoves srv' hok
    exact .inr ⟨_, srvExec_ok hok, h.moveOther hinv hm hno⟩

/-- The entity of a message about a job is there. -/
theorem Inv.alive (h : s.Inv bioCnt) {p : Packet} (hp : p ∈ s.srv.net) :
    s.entityAlive p = true := by
  have hjob := h.messages.net p hp
  -- the entity of a job is there until the job is released
  have hentity : ∀ i c phase, IsJob s.calls i c → phase ≠ .released →
      p.place = jobToken c.interval i phase → (s.entities.get? i).isSome = true := by
    intro i c phase hc hphase hplace
    have hin : c.interval = 0 → phase ∈ s.places i := fun hzero => by
      apply mem_places_net hp
      rw [hplace]
      exact mem_jobToken hzero _
    rw [h.entity hc hin hphase]
    rfl
  rw [Packet.OfJob] at hjob
  rw [entityAlive]
  -- the three messages that name an entity
  cases hpto : p.event.pto <;> simp only [hpto] at hjob ⊢
  case timerEmit name ud valid bidx type interval =>
    obtain ⟨⟨c, hc, hud, hvalid, hint⟩, howner⟩ := hjob
    simp only [howner]
    exact hentity ud.id c .waiting hc (by simp) (by rw [Packet.place, hpto, hint])
  case svcTimerRun name ud valid status interval =>
    obtain ⟨⟨c, hc, hud, hvalid, hint⟩, howner⟩ := hjob
    simp only [howner]
    exact hentity ud.id c (.offered (status ≠ .ok)) hc (by simp) (by rw [Packet.place, hpto, hint])
  case svcTimerDone name status interval =>
    obtain ⟨i, c, hc, howner, hint⟩ := hjob
    simp only [howner]
    exact hentity i c (.finished (status ≠ .ok)) hc (by simp)
      (by rw [Packet.place, hpto, howner, hint])

/-- A message is handled. -/
theorem deliver_ok (h : s.Inv bioCnt) {i : Nat} {resumeWf : Bool}
    (he : s.srv.enabled bioCnt (.deliver i resumeWf)) :
    ∃ s', s.deliver bioCnt i resumeWf = .ok s' ∧ s'.Inv bioCnt := by
  obtain ⟨p, hp, -⟩ := id he
  rw [Option.mem_def] at hp
  have hmem : p ∈ s.srv.net := List.mem_of_getElem? hp
  simp only [deliver, hp, h.alive hmem, Bool.true_eq_false, if_false]
  obtain ⟨srv', hhandle, hinv⟩ := SrvSystem.handle_ok h.srv hp resumeWf
  obtain ⟨m, hm, hmoves⟩ := SrvSystem.handle_moves h.srv hp hhandle
  have hok : s.srv.exec bioCnt (.deliver i resumeWf) = .ok srv' := by
    simp only [SrvSystem.exec, hp]
    exact hhandle
  rw [srvExec_ok hok]
  show ∃ s', ({ s with srv := srv' } : JobSystem).handled p s.queueFull = .ok s' ∧ s'.Inv bioCnt
  -- what the handler did to the message
  cases hmoves with
  | other hno hnet hrun hpushed hrank =>
    rw [handled_other hno]
    exact ⟨_, rfl, h.moveOther hinv hm ⟨by simpa using hno, by simp, hnet, hrun, hpushed⟩⟩
  -- the queue was full: the job is refused
  | @refused _ entity ud valid bidx type interval hpto howner hfull =>
    have hbusy := (queueFull_iff p.event.src entity ud valid bidx type interval).mpr hfull
    have hinv' := h.refuse hinv hmem hpto howner hm
    rw [← hbusy] at hinv'
    exact ⟨_, by rw [handled, hpto]; rfl, hinv'⟩
  -- it had room: the job waits
  | @queued _ entity ud valid bidx type interval _ hpto howner hfull =>
    have hroom := mt (queueFull_iff p.event.src entity ud valid bidx type interval).mp hfull
    have hinv' := h.enqueue hinv hmem hpto howner hm
    rw [← Bool.not_eq_true _ |>.mp hroom] at hinv'
    exact ⟨_, by rw [handled, hpto]; rfl, hinv'⟩
  -- its callback is run
  | run hpto =>
    obtain ⟨s', hs', hinv'⟩ := h.call hinv hmem hpto hm
    exact ⟨s', by rw [handled, hpto]; exact hs', hinv'⟩
  | done hpto => exact h.report hinv hmem hpto hm s.queueFull

/-- The marks at the end of a body: it has returned, which counts for the task of a pending job. -/
def returnMarks (ud : JobData) : List JobMark :=
  .returned ud.id :: (ud.task.map (JobMark.pendingsDown ud.id)).toList

/-- The marks of a return are of its job. -/
theorem mem_returnMarks {ud : JobData} {x : JobMark} (hx : x ∈ returnMarks ud) :
    x.job = ud.id ∧ x ≠ .udfree ud.id := by
  rcases List.mem_cons.mp hx with rfl | hx
  · exact ⟨rfl, by simp⟩
  · obtain ⟨task, -, rfl⟩ := by simpa using hx
    exact ⟨rfl, by simp⟩

/-- What `_job_cb` does after the call of the user. -/
theorem jobReturns_ok (home : TaskRef → Sched) (api : TaskRef → Nat) (h : s.Inv bioCnt)
    (dst : Sched) (ud : JobData) :
    ∃ srv' pendings, s.jobReturns bioCnt home api dst ud =
        .ok { s with srv := srv', log := s.log ++ returnMarks ud, pendings } ∧
      ({ s with srv := srv' } : JobSystem).Inv bioCnt ∧ srv'.running = s.srv.running ∧
      srv'.total Packet.rank Packet.runRank SrvTask.rank ≤
        s.srv.total Packet.rank Packet.runRank SrvTask.rank + 2 := by
  obtain ⟨id, task, rwType⟩ := ud
  cases task with
  | none => exact ⟨s.srv, s.pendings, rfl, h, rfl, Nat.le_add_right _ _⟩
  | some task =>
    have hlog : ∀ i, s.log ++ [.returned i] ++ [.pendingsDown i task] =
        s.log ++ returnMarks ⟨i, some task, rwType⟩ := fun i => List.append_assoc ..
    simp only [jobReturns, mark, hlog, if_true]
    set pendings : TaskRef → Int := fun t => if t = task then s.pendings t - 1 else s.pendings t
    by_cases hzero : s.pendings task - 1 ≠ 0
    · rw [if_pos hzero]
      exact ⟨s.srv, pendings, rfl, h, rfl, Nat.le_add_right _ _⟩
    · rw [if_neg hzero]
      -- the answer to the caller of the api is not about a job
      set e : Event := ⟨dst, home task, .inl task.txn,
        .svcTaskCb task s.srv.svc.name (api task) .done false⟩
      obtain ⟨l, hheld⟩ := h.srv.held
      have hinv : (s.srv.send e none).Inv bioCnt := ⟨⟨l, hheld.send ⟨rfl, rfl⟩⟩, h.srv.blocked⟩
      have hsent := SrvMove.Of.refl.send (s := s.srv) rfl e none
      have hno : e.pto = .svcTaskCb task s.srv.svc.name (api task) .done false := rfl
      refine ⟨s.srv.send e none, pendings, rfl,
        h.moveOther hinv hsent ⟨by simp, by simp, by simp [Packet.ofJob, hno], by simp, by simp⟩,
        rfl, ?_⟩
      simp only [SrvSystem.total, SrvSystem.send, List.map_append, List.sum_append, List.map_cons,
        List.map_nil, List.sum_singleton, Packet.rank, hno]
      omega

/-- A body ends. -/
theorem bodyEnd_fine (h : s.Inv bioCnt) {j : Nat} {failed taskDone : Bool}
    (he : s.srv.enabled bioCnt (.bodyEnd j failed taskDone)) :
    Fine bioCnt failed (s.bodyEnd bioCnt home api j failed taskDone) := by
  obtain ⟨p, hp⟩ : ∃ p, s.srv.running[j]? = some p := ⟨_, List.getElem?_eq_getElem he⟩
  have hmem : p ∈ s.srv.running := List.mem_of_getElem? hp
  have hbody := h.srv.body hmem
  have hofJob := h.messages.running p hmem
  simp only [bodyEnd, hp]
  cases hpto : p.event.pto <;> simp only [Packet.isBody, hpto] at hbody
  case svcTaskRun service apiName ioStatus src taskdata =>
    have hno : p.ofJob = false := by rw [Packet.ofJob, hpto]
    have hreturned : s.returned bioCnt home api p = .ok s := by rw [returned, hpto]
    rw [hreturned]
    apply srvExec_other h he
    intro srv' hok
    simp only [SrvSystem.exec, hp] at hok
    obtain ⟨m, hm, hends⟩ := SrvSystem.finish_ends hp (by rw [Packet.isBody, hpto]) hok
    refine ⟨m, hm, ?_⟩
    cases hends with
    | api _ hnet _ => exact ⟨by simp, by simpa using hno, hnet, by simp, by simp⟩
    | job hpto' => simp [hpto] at hpto'
  case svcTimerRun name ud valid status interval =>
    rw [Packet.OfJob, hpto] at hofJob
    obtain ⟨⟨c, hc, hud, hvalid, hint⟩, howner⟩ := hofJob
    have hplace : p.runPlace = jobToken c.interval ud.id (.running (status ≠ .ok)) := by
      rw [Packet.runPlace, hpto, hint]
    obtain ⟨srv₁, pendings, hret, hinv₁, hrunning, -⟩ :=
      jobReturns_ok home api h p.event.dst ud
    have hreturned : s.returned bioCnt home api p =
        .ok { s with srv := srv₁, log := s.log ++ returnMarks ud, pendings } := by
      rw [returned, hpto]
      exact hret
    -- the body is still there, and ends after what the job has left behind was sent
    rw [← hrunning] at hp hmem
    have he₁ : srv₁.enabled bioCnt (.bodyEnd j failed taskDone) :=
      (List.getElem?_eq_some_iff.mp hp).1
    rw [hreturned]
    show Fine bioCnt failed (srvExec bioCnt
      { s with srv := srv₁, log := s.log ++ returnMarks ud, pendings } (.bodyEnd j failed taskDone))
    rcases SrvSystem.exec_cases hinv₁.srv he₁ with ⟨hfails, herr⟩ | ⟨srv', hok, hinv⟩
    · exact .inl ⟨hfails, srvExec_error herr⟩
    · have hfinish := hok
      simp only [SrvSystem.exec, hp] at hfinish
      obtain ⟨m, hm, hends⟩ := SrvSystem.finish_ends hp (by rw [Packet.isBody, hpto]) hfinish
      refine .inr ⟨_, srvExec_ok hok, ?_⟩
      cases hends with
      | api hno _ _ => simp [Packet.ofJob, hpto] at hno
      | job hpto' =>
        rw [hpto] at hpto'
        cases hpto'
        refine hinv₁.moveJob (c := c) (i := ud.id) (.running (status ≠ .ok))
          (.finished (status ≠ .ok)) (returnMarks ud) hinv hm ⟨?_, by simp, by simp⟩
          hc (fun hzero => ?_) (by simp [hplace]) (by simp [Packet.place, howner, hint])
          (fun x hx => mem_returnMarks hx) (by simp) ?_ pendings
        · intro q hq
          rw [List.mem_singleton.mp hq]
          exact ⟨ud.id, c, hc, howner, hint⟩
        · apply mem_places_running hmem
          rw [hplace]
          exact mem_jobToken hzero _
        · rintro marks pushes ⟨rfl, rfl⟩
          refine ⟨?_, rfl⟩
          rw [JobCall.returnedMarks, returnMarks, hud]
          rfl
  all_goals simp at hbody

/-! ### Calls -/

section Calls

variable {calls : List JobCall} {i : Nat} {c d : JobCall}

theorem isJob_append : IsJob (calls ++ [d]) i c ↔
    IsJob calls i c ∨ i = calls.length ∧ c = d ∧ d.ret = .ok := by
  constructor
  · rintro ⟨hi, hret⟩
    rcases lt_or_ge i calls.length with hlt | hge
    · rw [List.getElem?_append_left hlt] at hi
      exact .inl ⟨hi, hret⟩
    · rw [List.getElem?_append_right hge] at hi
      obtain ⟨hzero, rfl⟩ := List.getElem?_eq_some_iff.mp hi
      have heq : i = calls.length := by
        simp only [List.length_singleton] at hzero
        omega
      exact .inr ⟨heq, by simp, by simpa using hret⟩
  · rintro (h | ⟨rfl, rfl, hret⟩)
    · exact ⟨(List.getElem?_append_left h.lt).trans h.1, h.2⟩
    · exact ⟨List.getElem?_concat_length, hret⟩

/-- A job stays one. -/
theorem isJob_mono (d : JobCall) (h : IsJob calls i c) : IsJob (calls ++ [d]) i c :=
  isJob_append.mpr (.inl h)

/-- A message carries its job still. -/
theorem carries_mono (d : JobCall) {ud : JobData} {valid : Bool} {interval : Nat}
    (h : Carries calls ud valid interval) : Carries (calls ++ [d]) ud valid interval := by
  obtain ⟨c, hc, hrest⟩ := h
  exact ⟨c, isJob_mono d hc, hrest⟩

/-- What holds of a job does still. -/
theorem jobHolds_mono (d : JobCall) {log : List JobMark} {pushed : List SrvTask}
    {phase : JobPhase} (h : JobHolds calls log pushed i phase) :
    JobHolds (calls ++ [d]) log pushed i phase := by
  obtain ⟨c, hc, hseen⟩ := h
  exact ⟨c, isJob_mono d hc, hseen⟩

/-- So does what holds of all messages. -/
theorem messages_mono (d : JobCall) {srv : SrvSystem} (h : JobMessages calls srv) :
    JobMessages (calls ++ [d]) srv := by
  have hpacket : ∀ p : Packet, p.OfJob calls → p.OfJob (calls ++ [d]) := by
    intro p hp
    rw [Packet.OfJob] at hp ⊢
    cases hpto : p.event.pto <;> simp only [hpto] at hp ⊢
    case svcTimerDone name status interval =>
      obtain ⟨i, c, hc, hrest⟩ := hp
      exact ⟨i, c, isJob_mono d hc, hrest⟩
    all_goals exact ⟨carries_mono d hp.1, hp.2⟩
  have htask : ∀ t : SrvTask, t.OfJob calls → t.OfJob (calls ++ [d]) := by
    intro t ht
    rw [SrvTask.OfJob] at ht ⊢
    cases hdata : t.data <;> simp only [hdata] at ht ⊢
    exact ⟨carries_mono d ht.1, ht.2⟩
  exact ⟨fun p hp => hpacket p (h.net p hp), fun p hp => hpacket p (h.running p hp),
    fun t ht => htask t (h.queued t ht)⟩

theorem timers_mono (d : JobCall) {timers : Dict Nat SkTimer} {triggered : List TimerMsg}
    (h : JobTimers bioCnt calls timers triggered) :
    JobTimers bioCnt (calls ++ [d]) timers triggered := by
  refine ⟨fun t timer ht => ?_, fun m hm => ?_⟩
  · obtain ⟨c, b, hc, hrest⟩ := h.timer t timer ht
    exact ⟨c, b, isJob_mono d hc, hrest⟩
  · obtain ⟨c, hc, hrest⟩ := h.message m hm
    exact ⟨c, isJob_mono d hc, hrest⟩

/-- A call that creates no job has no token. -/
theorem oneShot_append : OneShot (calls ++ [d]) i ↔
    OneShot calls i ∨ i = calls.length ∧ d.ret = .ok ∧ d.interval = 0 := by
  constructor
  · rintro ⟨c, hc, hint⟩
    rcases isJob_append.mp hc with hc | ⟨rfl, rfl, hret⟩
    · exact .inl ⟨c, hc, hint⟩
    · exact .inr ⟨rfl, hret, hint⟩
  · rintro (⟨c, hc, hint⟩ | ⟨rfl, hret, hint⟩)
    · exact ⟨c, isJob_mono d hc, hint⟩
    · exact ⟨d, isJob_append.mpr (.inr ⟨rfl, rfl, hret⟩), hint⟩

/-- A job that does not repeat is one. -/
theorem oneShot_lt (h : OneShot calls i) : i < calls.length := by
  obtain ⟨c, hc, -⟩ := h
  exact hc.lt

/-- **A call that creates no job.** -/
theorem Inv.refused (h : s.Inv bioCnt) (hret : c.ret ≠ .ok)
    (hpending : c.task ≠ none → c.interval = 0) :
    ({ s with
      calls := s.calls ++ [c]
      log := s.log ++ if c.udfree then [.udfree s.calls.length] else [] } : JobSystem).Inv
        bioCnt := by
  set ms : List JobMark := if c.udfree then [.udfree s.calls.length] else []
  have hmark : ∀ m ∈ ms, m = .udfree s.calls.length := fun m hm => by
    by_cases hfree : c.udfree <;> simp_all [ms]
  -- so the jobs are the old ones, and only `udfree` of the new call is logged
  have hold : ∀ i d, IsJob (s.calls ++ [c]) i d → IsJob s.calls i d := fun i d hd =>
    (isJob_append.mp hd).resolve_right fun hnew => hret hnew.2.2
  have hother : ∀ i, i ≠ s.calls.length → jobMarksOf i (s.log ++ ms) = jobMarksOf i s.log := by
    intro i hi
    have hnone : jobMarksOf i ms = [] := jobMarksOf_other fun m hm => by
      rw [hmark m hm]
      exact Ne.symm hi
    rw [jobMarksOf_append, hnone, List.append_nil]
  exact {
    srv := h.srv
    tracked := by
      refine h.tracked.keep (show s.places = s.places from rfl)
        (fun j => oneShot_append.trans (or_iff_left fun hnew => hret hnew.2.1))
        fun j phase hj hholds => ?_
      have hlt := oneShot_lt hj
      apply jobHolds_mono
      have hkept := hholds.other ms []
        (fun m hm => by rw [hmark m hm]; exact (Nat.ne_of_lt hlt).symm) (by simp)
      rwa [List.append_nil] at hkept
    timers := timers_mono c h.timers
    messages := messages_mono c h.messages
    entities := by
      refine ⟨fun i e he => ?_, fun i d hd hfreed => h.entities.kept i d (hold i d hd) hfreed⟩
      obtain ⟨d, hd, hrest⟩ := h.entities.entity i e he
      exact ⟨d, isJob_mono c hd, hrest⟩
    log := by
      refine ⟨fun i hi => ?_, fun i d hd hdret => ?_, fun i d hd hint hmem => ?_⟩
      · simp only [List.length_append, List.length_singleton] at hi
        rw [hother i (by omega)]
        exact h.log.unknown i (by omega)
      · by_cases hi : i = s.calls.length
        · subst hi
          -- the new call: `udfree` ran for its data, if anything
          obtain rfl : c = d := by simpa using hd
          rw [jobMarksOf_append, (h.log.unknown _ le_rfl).1, List.nil_append]
          exact jobMarksOf_same fun m hm => by rw [hmark m hm, JobMark.job]
        · rw [hother i hi]
          obtain ⟨hlt, -⟩ := List.getElem?_eq_some_iff.mp hd
          simp only [List.length_append, List.length_singleton] at hlt
          rw [List.getElem?_append_left (by omega)] at hd
          exact h.log.refused i d hd hdret
      · have hjob := hold i d hd
        rcases List.mem_append.mp hmem with hmem | hmem
        · exact h.log.recurring i d hjob hint hmem
        · have heq := hmark _ hmem
          have hlt := hjob.lt
          simp only [JobMark.udfree.injEq] at heq
          omega
    pending := by
      intro d hd
      rcases List.mem_append.mp hd with hd | hd
      · exact h.pending d hd
      · rw [List.mem_singleton.mp hd]
        exact hpending }

/-- **A call that creates a job.** -/
theorem Inv.created (h : s.Inv bioCnt) (hret : c.ret = .ok)
    (hbidx : Service.validateBidx bioCnt c.bidx = true)
    (hpending : c.task ≠ none → c.interval = 0) (pendings : TaskRef → Int) :
    ({ s with
      calls := s.calls ++ [c]
      timers := s.timers.set s.calls.length (c.timer s.calls.length false)
      entities := s.entities.set s.calls.length (c.entity s.calls.length .active)
      pendings } : JobSystem).Inv bioCnt := by
  have hnew : IsJob (s.calls ++ [c]) s.calls.length c :=
    isJob_append.mpr (.inr ⟨rfl, rfl, hret⟩)
  have hshot : ¬ OneShot s.calls s.calls.length := fun hshot => (oneShot_lt hshot).false
  -- the number of the call is not in use yet
  have htimer : s.timers.get? s.calls.length = none := by
    cases ht : s.timers.get? s.calls.length with
    | none => rfl
    | some timer =>
      obtain ⟨d, b, hd, -⟩ := h.timers.timer _ timer ht
      exact absurd hd.lt (lt_irrefl _)
  have hinactive : s.calls.length ∉ s.inactive := fun hmem =>
    hshot (h.tracked.found (mem_places_inactive hmem)).1
  have hunknown := h.log.unknown s.calls.length le_rfl
  have hwaiting : JobHolds (s.calls ++ [c]) s.log s.srv.pushed s.calls.length .waiting :=
    ⟨c, hnew, hunknown⟩
  exact {
    srv := h.srv
    tracked := by
      have hplaces : ∀ (entities : Dict Nat TimerEntity) (calls : List JobCall), ({ s with
          calls, entities, pendings
          timers := s.timers.set s.calls.length (c.timer s.calls.length false) } :
          JobSystem).places = jobToken c.interval s.calls.length .waiting + s.places := by
        intro entities calls
        simp only [places, Dict.sum_set_new _ htimer]
        rw [SkTimer.place, JobCall.timer, JobCall.jobdata, JobCall.data]
        simp only [Bool.false_eq_true, if_false]
        abel
      by_cases hint : c.interval = 0
      · refine h.tracked.enter hshot (by rw [hplaces, hint, jobToken_zero])
          (fun j => ?_) (fun j phase _ hholds => jobHolds_mono c hholds) hwaiting
        rw [oneShot_append]
        simp [hret, hint]
      · refine h.tracked.keep (by rw [hplaces, jobToken_ne hint, zero_add])
          (fun j => oneShot_append.trans (or_iff_left fun hj => hint hj.2.2))
          fun j phase _ hholds => jobHolds_mono c hholds
    timers := by
      have htimers := timers_mono c h.timers
      refine ⟨fun t timer ht => ?_, fun m hm => ?_⟩
      · rcases Dict.get?_set_cases ht with ⟨rfl, rfl⟩ | ⟨-, ht⟩
        · exact ⟨c, false, hnew, rfl, hbidx⟩
        · exact htimers.timer t timer ht
      · obtain ⟨d, hd, hmsg, hget⟩ := h.timers.message m hm
        refine ⟨d, isJob_mono c hd, hmsg, ?_⟩
        rw [Dict.get?_set_of_ne _ _ hd.lt.ne]
        exact hget
    messages := messages_mono c h.messages
    entities := by
      refine ⟨fun i e he => ?_, fun i d hd hfreed => ?_⟩
      · rcases Dict.get?_set_cases he with ⟨rfl, rfl⟩ | ⟨-, he⟩
        · exact ⟨c, hnew, by rw [if_neg hinactive]⟩
        · obtain ⟨d, hd, hrest⟩ := h.entities.entity i e he
          exact ⟨d, isJob_mono c hd, hrest⟩
      · rcases isJob_append.mp hd with hd | ⟨rfl, -, -⟩
        · obtain ⟨e, he⟩ := h.entities.kept i d hd hfreed
          exact ⟨e, by rw [Dict.get?_set_of_ne _ _ hd.lt.ne]; exact he⟩
        · exact ⟨_, Dict.get?_set_self ..⟩
    log := by
      refine ⟨fun i hi => ?_, fun i d hd hdret => ?_, fun i d hd hint hmem => ?_⟩
      · simp only [List.length_append, List.length_singleton] at hi
        exact h.log.unknown i (by omega)
      · have hi : i ≠ s.calls.length := by
          rintro rfl
          obtain rfl : c = d := by simpa using hd
          exact hdret hret
        obtain ⟨hlt, -⟩ := List.getElem?_eq_some_iff.mp hd
        simp only [List.length_append, List.length_singleton] at hlt
        rw [List.getElem?_append_left (by omega)] at hd
        exact h.log.refused i d hd hdret
      · rcases isJob_append.mp hd with hd | ⟨rfl, -, -⟩
        · exact h.log.recurring i d hd hint hmem
        · have hmark : JobMark.udfree s.calls.length ∈ jobMarksOf s.calls.length s.log :=
            List.mem_filter.mpr ⟨hmem, by simp [JobMark.job]⟩
          rw [hunknown.1] at hmark
          exact absurd hmark List.not_mem_nil
    pending := by
      intro d hd
      rcases List.mem_append.mp hd with hd | hd
      · exact h.pending d hd
      · rw [List.mem_singleton.mp hd]
        exact hpending }

end Calls

/-- `create_job_error`: the call returns an error, and frees the object of the user. -/
theorem Inv.createError (h : s.Inv bioCnt) {c : JobCall} (ret : SkullJobRet) (hret : ret ≠ .ok)
    (hpending : c.task ≠ none → c.interval = 0) :
    (recordCall c (ret, if c.udfree then s.mark (.udfree s.calls.length) else s)).Inv bioCnt := by
  have hmark : (if c.udfree then s.mark (.udfree s.calls.length) else s) =
      { s with log := s.log ++ if c.udfree then [.udfree s.calls.length] else [] } := by
    split
    · rfl
    · rw [List.append_nil]
  rw [hmark]
  exact h.refused (c := { c with ret }) hret hpending

/-- `skull_service_job_create`. -/
theorem create_inv (h : s.Inv bioCnt) (src : Sched) (svc : SkullService) (type : JobRw)
    (job udfree : Bool) :
    (recordCall ⟨src, svc.task, type, 0, 0, udfree, .ok⟩
      (s.skullServiceJobCreate bioCnt src svc type job udfree)).Inv bioCnt := by
  obtain ⟨txn, task⟩ := svc
  have herror := h.createError (c := ⟨src, task, type, 0, 0, udfree, .ok⟩) .errorEnv
    (by simp) fun _ => rfl
  cases task with
  | none => exact herror
  | some task =>
    cases txn with
    | none => exact herror
    | some txn =>
      cases job with
      | false => exact herror
      | true =>
        exact h.created (c := ⟨src, some task, type, 0, 0, udfree, .ok⟩) rfl rfl (fun _ => rfl)
          fun t => if t = task then s.pendings t + 1 else s.pendings t

/-- `skull_service_job_create_np`. -/
theorem createNp_inv (h : s.Inv bioCnt) (src : Sched) (interval : Nat) (type : JobRw)
    (job udfree : Bool) (bidx : Int) :
    (recordCall ⟨src, none, type, interval, bidx, udfree, .ok⟩
      (s.skullServiceJobCreateNp bioCnt src interval type job udfree bidx)).Inv bioCnt := by
  rw [skullServiceJobCreateNp]
  cases job with
  | false =>
    exact h.createError (c := ⟨src, none, type, interval, bidx, udfree, .ok⟩) _ (by simp)
      fun hno => absurd rfl hno
  | true =>
    simp only [Bool.true_eq_false, if_false, createJob, skServiceJobCreate]
    by_cases hbidx : Service.validateBidx bioCnt bidx = true
    · simp only [hbidx, if_true]
      exact h.created (c := ⟨src, none, type, interval, bidx, udfree, .ok⟩) rfl hbidx
        (fun hno => absurd rfl hno) s.pendings
    · simp only [hbidx]
      exact h.createError (c := ⟨src, none, type, interval, bidx, udfree, .ok⟩) _ (by simp)
        fun hno => absurd rfl hno

/-! ### Timers -/

/-- A timer fires. -/
theorem timerFires_ok (h : s.Inv bioCnt) {t : Nat}
    (he : ∃ timer ∈ s.timers.get? t, timer.triggered = false ∨ timer.interval ≠ 0) :
    ∃ s', s.timerFires t = .ok s' ∧ s'.Inv bioCnt := by
  obtain ⟨timer, hget, hfires⟩ := he
  rw [Option.mem_def] at hget
  obtain ⟨c, b, hc, rfl, hbidx⟩ := h.timers.timer t timer hget
  refine ⟨{ s with
    timers := s.timers.set t (c.timer t true)
    triggered := s.triggered ++ [c.timerMsg t] }, by rw [timerFires, hget]; rfl, ?_⟩
  have hplaces : ({ s with
      timers := s.timers.set t (c.timer t true)
      triggered := s.triggered ++ [c.timerMsg t] } : JobSystem).places = s.places := by
    have hset := Dict.sum_set (fun _ => SkTimer.place) s.timers t (c.timer t true)
    -- the token goes from the timer to the message
    have htimer : (c.timer t true).place = 0 := by simp [SkTimer.place, JobCall.timer]
    have hpart : Dict.part (fun _ => SkTimer.place) s.timers t = (c.timerMsg t).place := by
      rw [Dict.part, hget, Option.elim_some, SkTimer.place, TimerMsg.place]
      rcases hfires with hfires | hint
      · rw [if_neg (by rw [hfires]; simp)]
        rfl
      · change c.interval ≠ 0 at hint
        rw [JobCall.timer, JobCall.timerMsg, JobCall.jobdata]
        simp only [jobToken_ne hint, ite_self]
    rw [htimer, hpart, add_zero] at hset
    simp only [places, List.map_append, List.sum_append, List.map_cons, List.map_nil,
      List.sum_singleton]
    rw [← hset]
    abel
  refine { h with
    tracked := h.tracked.keep hplaces (fun _ => Iff.rfl) fun _ _ _ hholds => hholds
    timers := ⟨fun k timer hk => ?_, fun m hm => ?_⟩ }
  · rcases Dict.get?_set_cases hk with ⟨rfl, rfl⟩ | ⟨-, hk⟩
    · exact ⟨c, true, hc, rfl, hbidx⟩
    · exact h.timers.timer k timer hk
  · rcases List.mem_append.mp hm with hm | hm
    · obtain ⟨d, hd, hmsg, hd'⟩ := h.timers.message m hm
      refine ⟨d, hd, hmsg, ?_⟩
      by_cases hk : m.timer = t
      · rw [hk] at hd ⊢
        rw [hd.unique hc]
        exact Dict.get?_set_self ..
      · rw [Dict.get?_set_of_ne _ _ hk]
        exact hd'
    · rw [List.mem_singleton.mp hm]
      exact ⟨c, hc, rfl, Dict.get?_set_self ..⟩

section Triggered

variable {k : Nat} {m : TimerMsg} {c : JobCall}

/-- A message of a timer is that of a job, which waits. -/
theorem Inv.waits (h : s.Inv bioCnt) (hm : m ∈ s.triggered) :
    ∃ c, IsJob s.calls m.timer c ∧ m = c.timerMsg m.timer ∧
      s.timers.get? m.timer = some (c.timer m.timer true) ∧
      Service.validateBidx bioCnt c.bidx = true ∧
      (c.interval = 0 → .waiting ∈ s.places m.timer) := by
  obtain ⟨c, hc, hmsg, hget⟩ := h.timers.message m hm
  obtain ⟨d, b, hd, -, hbidx⟩ := h.timers.timer _ _ hget
  obtain rfl := hd.unique hc
  refine ⟨d, hd, hmsg, hget, hbidx, fun hint => mem_places_triggered hm ?_⟩
  rw [TimerMsg.place, hmsg]
  exact mem_jobToken hint _

/-- Without its message, a job is nowhere. -/
theorem places_triggered (hm : s.triggered[k]? = some m) (hmsg : m = c.timerMsg m.timer) :
    ({ s with triggered := s.triggered.eraseIdx k } : JobSystem).places +
      jobToken c.interval m.timer .waiting = s.places := by
  have hplace : m.place = jobToken c.interval m.timer .waiting := by
    rw [hmsg]
    rfl
  have hsum := ((perm_take hm).map TimerMsg.place).sum_eq
  rw [List.map_cons, List.sum_cons, hplace] at hsum
  simp only [places]
  rw [hsum]
  abel

/-- So a timer without an interval has one message. -/
theorem Inv.last_message (h : s.Inv bioCnt) (hm : s.triggered[k]? = some m)
    (hc : IsJob s.calls m.timer c) (hmsg : m = c.timerMsg m.timer) (hint : c.interval = 0) :
    ∀ m' ∈ s.triggered.eraseIdx k, m'.timer ≠ m.timer := by
  intro m' hm' heq
  obtain ⟨d, hd, hmsg', -⟩ := h.waits (mem_of_mem_take hm')
  rw [heq] at hd hmsg'
  obtain rfl := hd.unique hc
  have hsame : m' = m := hmsg'.trans hmsg.symm
  have hplaces := congrFun (places_triggered hm hmsg) m.timer
  have hwaits : .waiting ∈ m.place m.timer := by
    rw [TimerMsg.place, hmsg]
    exact mem_jobToken hint _
  have hone := (h.tracked.found (mem_places_triggered (mem_of_mem_take (hsame ▸ hm')) hwaits)).2.1
  have htwo := mem_places_triggered (s := { s with triggered := s.triggered.eraseIdx k })
    (hsame ▸ hm') hwaits
  rw [Pi.add_apply, hint, jobToken_zero, token_same, hone, add_eq_right] at hplaces
  rw [hplaces] at htwo
  exact absurd htwo (Multiset.notMem_zero _)

/-- **`_job_triggered`.** The task of the job is offered to the service. -/
theorem Inv.jobTriggered (h : s.Inv bioCnt) (hm : s.triggered[k]? = some m)
    (hc : IsJob s.calls m.timer c) (hmsg : m = c.timerMsg m.timer)
    (hbidx : Service.validateBidx bioCnt c.bidx = true) :
    ∃ srv', ({ s with triggered := s.triggered.eraseIdx k } : JobSystem).srvExec bioCnt
        (.jobTriggered c.src m.entity m.ud.ud true m.ud.bidx m.ud.interval) =
          .ok { s with srv := srv', triggered := s.triggered.eraseIdx k } ∧
      ({ s with srv := srv', triggered := s.triggered.eraseIdx k } : JobSystem).Inv bioCnt := by
  set e : Event := ⟨c.src, .master, .inr m.timer, .timerEmit s.srv.svc.name (c.data m.timer) true
    c.bidx c.rwType c.interval⟩ with he
  obtain ⟨l, hheld⟩ := h.srv.held
  have hinv : (s.srv.send e none).Inv bioCnt :=
    ⟨⟨l, hheld.send ⟨rfl, ⟨m.timer, rfl⟩, rfl, hbidx⟩⟩, h.srv.blocked⟩
  have hsent := SrvMove.Of.refl.send (s := s.srv) rfl e none
  -- the token goes from the message of the timer to this one
  have hplaces := places_moved (s := { s with triggered := s.triggered.eraseIdx k }) hsent s.log
  have hpacket : (⟨e, none⟩ : Packet).place = jobToken c.interval m.timer .waiting := rfl
  simp only [List.nil_append, List.map_nil, List.sum_nil, List.map_cons, List.sum_cons, add_zero,
    hpacket, places_triggered hm hmsg] at hplaces
  refine ⟨s.srv.send e none, by rw [hmsg]; rfl, { h with
    srv := hinv
    tracked := h.tracked.keep hplaces (fun _ => Iff.rfl) fun _ _ _ hholds => hholds
    timers := ⟨h.timers.timer, fun m' hm' => h.timers.message m' (mem_of_mem_take hm')⟩
    messages := messages_moved h.messages hsent ⟨fun q hq => ?_, by simp, by simp⟩ }⟩
  rw [List.mem_singleton.mp hq]
  exact ⟨⟨c, hc, rfl, rfl, rfl⟩, rfl⟩

/-- A timer that has fired, and has no message, is destroyed. -/
theorem Inv.eraseTimer {t : Nat} (h : s.Inv bioCnt)
    (hget : s.timers.get? t = some (c.timer t true)) (hlast : ∀ m ∈ s.triggered, m.timer ≠ t) :
    ({ s with timers := s.timers.erase t } : JobSystem).Inv bioCnt := by
  have hplaces : ({ s with timers := s.timers.erase t } : JobSystem).places = s.places := by
    have hsum := Dict.sum_erase (fun _ => SkTimer.place) s.timers t
    have hpart : Dict.part (fun _ => SkTimer.place) s.timers t = 0 := by
      rw [Dict.part, hget]
      simp [SkTimer.place, JobCall.timer]
    rw [hpart, add_zero] at hsum
    simp only [places]
    rw [hsum]
  refine { h with
    tracked := h.tracked.keep hplaces (fun _ => Iff.rfl) fun _ _ _ hholds => hholds
    timers := ⟨fun k timer hk => ?_, fun m hm => ?_⟩ }
  · exact h.timers.timer k timer (Dict.get?_erase_some hk).2
  · obtain ⟨d, hd, hmsg, hd'⟩ := h.timers.message m hm
    refine ⟨d, hd, hmsg, ?_⟩
    rw [Dict.get?_erase, if_neg (hlast m hm)]
    exact hd'

/-- The message of a timer is handled. -/
theorem timerTriggered_ok (h : s.Inv bioCnt) (hm : s.triggered[k]? = some m) :
    ∃ s', ({ s with triggered := s.triggered.eraseIdx k } : JobSystem).timerTriggered bioCnt m =
      .ok s' ∧ s'.Inv bioCnt := by
  obtain ⟨c, hc, hmsg, hget, hbidx, hwaiting⟩ := h.waits (List.mem_of_getElem? hm)
  obtain ⟨srv', hexec, hinv⟩ := h.jobTriggered hm hc hmsg hbidx
  have hentity := h.entity hc hwaiting (by simp)
  have htimer : ({ s with triggered := s.triggered.eraseIdx k } : JobSystem).timers.get? m.timer =
      some (c.timer m.timer true) := hget
  have hm_entity : m.entity = m.timer := by
    rw [hmsg]
    rfl
  rw [JobSystem.timerTriggered, hm_entity, htimer]
  rw [hm_entity] at hexec
  simp only [hentity, Option.isNone_some, Bool.false_eq_true, if_false, JobCall.timer,
    JobCall.jobdata, hexec, except_bind_ok, Except.ok.injEq]
  by_cases hint : c.interval = 0
  · refine ⟨_, ⟨_, rfl, ?_⟩, hinv.eraseTimer hget (h.last_message hm hc hmsg hint)⟩
    simp only [hint, hentity, if_true, Option.isNone_some, Bool.false_eq_true, if_false]
  · simp only [hint, if_false]
    exact ⟨_, ⟨_, rfl, rfl⟩, hinv⟩

end Triggered

/-! ### Every step -/

/-- **The step lemma.** -/
theorem exec_fine (home : TaskRef → Sched) (api : TaskRef → Nat) (h : s.Inv bioCnt) {a : JobAction}
    (he : s.enabled bioCnt a) :
    Fine bioCnt a.fails (s.exec bioCnt home api a) := by
  cases a with
  | create src svc type job udfree =>
    exact .inr ⟨_, rfl, create_inv h src svc type job udfree⟩
  | createNp src interval type job udfree bidx =>
    exact .inr ⟨_, rfl, createNp_inv h src interval type job udfree bidx⟩
  | timerFires t => exact .inr (timerFires_ok h he)
  | timerTriggered k =>
    have hk : s.triggered[k]? = some s.triggered[k] := List.getElem?_eq_getElem he
    simp only [exec, hk]
    exact .inr (timerTriggered_ok h hk)
  | entityDestroy k =>
    have hk : s.destroys[k]? = some s.destroys[k] := List.getElem?_eq_getElem he
    simp only [exec, hk]
    refine .inr (Inv.mgrDel (h.perm_destroys ?_))
    exact List.perm_append_comm.trans (perm_take hk).symm
  | cleanDead x => exact .inr (h.freeAll (List.filter_sublist ..).subperm)
  | pendings task n => exact .inr ⟨_, rfl, { h with }⟩
  | srv a =>
    -- a step of the service: the timers of jobs are stepped apart from it
    obtain ⟨hno, he⟩ := he
    cases a with
    | jobTriggered => simp [SrvAction.fromTimer] at hno
    | deliver i resumeWf => exact .inr (deliver_ok h he)
    | bodyEnd j failed taskDone => exact bodyEnd_fine h he
    | iocall src txn apiName bidx taskdata =>
      apply srvExec_other h he
      intro srv' hok
      simp only [SrvSystem.exec] at hok
      split at hok
      · obtain rfl := Except.ok.inj hok
        exact ⟨_, SrvMove.Of.refl.send rfl _ _, by simp, by simp, by simp [Packet.ofJob], by simp,
          by simp⟩
      · obtain rfl := Except.ok.inj hok
        exact ⟨_, SrvMove.Of.refl, by simp, by simp, by simp, by simp, by simp⟩
    | apiComplete src caller txn apiName taskdata =>
      apply srvExec_other h he
      intro srv' hok
      obtain rfl := Except.ok.inj hok
      exact ⟨_, SrvMove.Of.refl.send rfl _ _, by simp, by simp, by simp [Packet.ofJob], by simp,
        by simp⟩
    | getData j =>
      apply srvExec_other h he
      intro srv' hok
      obtain ⟨data, -, rfl⟩ := except_map_ok.mp hok
      exact ⟨_, SrvMove.Of.refl, by simp, by simp, by simp, by simp, by simp⟩
    | setData j data =>
      apply srvExec_other h he
      intro srv' hok
      obtain ⟨svc, hset, rfl⟩ := except_map_ok.mp hok
      -- data are set only under the write lock
      rw [Service.setData] at hset
      split at hset
      · obtain rfl := Except.ok.inj hset
        exact ⟨_, SrvMove.Of.refl.service (List.Perm.refl _) rfl, by simp, by simp, by simp,
          by simp, by simp⟩
      · exact absurd hset (by simp)

/-! ### Every run -/

/-- A service that was just created has no jobs. -/
theorem init_inv (h : Init s) : s.Inv bioCnt := by
  obtain ⟨hsrv, hcalls, htimers, htriggered, hentities, hdestroys, hinactive, hfreed, hlog⟩ := h
  have hinv : s.srv.Inv bioCnt := SrvSystem.init_inv hsrv
  obtain ⟨name, preferRead, maxQsize, apis, hmax, hcreate, hnet, hrunning, hpushed, -, -⟩ := hsrv
  obtain ⟨-, hqueued, -⟩ : s.srv.svc.Inv bioCnt .free ∧ _ := Service.create_spec hmax hcreate
  have hnone : ∀ i c, ¬ IsJob s.calls i c := fun i c hc => by simp [IsJob, hcalls] at hc
  exact {
    srv := hinv
    tracked := by
      refine ⟨fun i hi => ?_, fun i hi => ?_⟩
      · obtain ⟨c, hc, -⟩ := hi
        exact absurd hc (hnone i c)
      · simp [places, SrvSystem.total, htimers, htriggered, hdestroys, hinactive, hfreed, hnet,
          hrunning, hqueued]
    timers := ⟨fun t timer ht => by simp [htimers] at ht, fun m hm => by simp [htriggered] at hm⟩
    messages := ⟨fun p hp => by simp [hnet] at hp, fun p hp => by simp [hrunning] at hp,
      fun t ht => by simp [hqueued] at ht⟩
    entities := ⟨fun i e he => by simp [hentities] at he, fun i c hc => absurd hc (hnone i c)⟩
    log := ⟨fun i hi => by simp [jobMarksOf, pushesOf, hlog, hpushed],
      fun i c hc => by simp [hcalls] at hc, fun i c hc => absurd hc (hnone i c)⟩
    pending := fun c hc => by simp [hcalls] at hc }

/-- **The run lemma.** -/
theorem reach_inv (h : (machine bioCnt home api).Reach Machine.anyStep s) : s.Inv bioCnt := by
  refine h.invariant (I := Inv bioCnt) (fun _ hs => init_inv hs) fun s a t hs he _ hx => ?_
  rcases exec_fine home api hs he with ⟨-, herr⟩ | ⟨s', hok, hinv⟩
  · exact absurd (herr.symm.trans hx) (by simp)
  · exact Except.ok.inj (hok.symm.trans hx) ▸ hinv

end JobSystem

end Skull
