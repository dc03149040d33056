import Skull.Service.JobPlaces

namespace Skull

open Machines

/-!
# What a step does to a job

* `JobSystem.Fine` — a step keeps the invariant, or is the abort of an api body that fails;
* `JobSystem.Inv.advance` — a job goes from one phase to the next;
* `JobSystem.Inv.entity` — the entity of a job is there until the last phase;
* `JobSystem.Inv.moveOther`, `JobSystem.Inv.move` — a step of the service that moves no job, or one;
* `JobSystem.Inv.mgrDel`, `JobSystem.Inv.freeAll` — the end of an entity;
* `JobSystem.Inv.refuse`, `JobSystem.Inv.enqueue`, `JobSystem.Inv.call`, `JobSystem.Inv.report` —
  the messages about a job.
-/

namespace JobSystem

variable {bioCnt : Nat} {home : TaskRef → Sched} {api : TaskRef → Nat} {s : JobSystem}

/-- A step is fine when it keeps the invariant, or is the abort of an api body that fails. -/
def Fine (bioCnt : Nat) (fails : Bool) (r : Except JobFault JobSystem) : Prop :=
  fails = true ∧ r = .error (.srv .taskFailed) ∨ ∃ s', r = .ok s' ∧ s'.Inv bioCnt

/-! ### Tokens that are there -/

section Tokens

variable {i : Nat} {phase : JobPhase}

/-- A timer that has fired is a place of its job. -/
theorem mem_places_triggered {m : TimerMsg} (hm : m ∈ s.triggered) (hp : phase ∈ m.place i) :
    phase ∈ s.places i := by
  have hmem := mem_sum_places.mpr ⟨m, hm, hp⟩
  simp only [places, Pi.add_apply, Multiset.mem_add]
  tauto

theorem mem_places_net {p : Packet} (hp : p ∈ s.srv.net) (hphase : phase ∈ p.place i) :
    phase ∈ s.places i := by
  have hmem := mem_sum_places.mpr ⟨p, hp, hphase⟩
  simp only [places, SrvSystem.total, Pi.add_apply, Multiset.mem_add]
  tauto

/-- So is a body that runs. -/
theorem mem_places_running {p : Packet} (hp : p ∈ s.srv.running) (hphase : phase ∈ p.runPlace i) :
    phase ∈ s.places i := by
  have hmem := mem_sum_places.mpr ⟨p, hp, hphase⟩
  simp only [places, SrvSystem.total, Pi.add_apply, Multiset.mem_add]
  tauto

/-- So is an entity that is to be destroyed. -/
theorem mem_places_destroys (hi : i ∈ s.destroys) : JobPhase.ended ∈ s.places i := by
  have hmem := mem_sum_token.mpr ⟨hi, rfl (a := JobPhase.ended)⟩
  simp only [places, Pi.add_apply, Multiset.mem_add]
  tauto

/-- So is one that is inactive. -/
theorem mem_places_inactive (hi : i ∈ s.inactive) : JobPhase.ended ∈ s.places i := by
  have hmem := mem_sum_token.mpr ⟨hi, rfl (a := JobPhase.ended)⟩
  simp only [places, Pi.add_apply, Multiset.mem_add]
  tauto

/-- So is one that was freed. -/
theorem mem_places_freed (hi : i ∈ s.freed) : JobPhase.released ∈ s.places i := by
  have hmem := mem_sum_token.mpr ⟨hi, rfl (a := JobPhase.released)⟩
  simp only [places, Pi.add_apply, Multiset.mem_add]
  tauto

end Tokens

/-- A job that does not repeat has its token. -/
theorem mem_jobToken {interval i : Nat} (h : interval = 0) (phase : JobPhase) :
    phase ∈ jobToken interval i phase i := by
  rw [h, jobToken_zero, token_same]
  exact Multiset.mem_singleton_self phase

/-! ### A job in its phases -/

section Phases

variable {i : Nat} {c : JobCall} {phase phase' : JobPhase}

/-- **A job goes on.**  If it has an interval, it has no phase, and only marks are made. -/
theorem Inv.advance (h : s.Inv bioCnt) (ms : List JobMark) (ts : List SrvTask)
    {places' : Nat → Multiset JobPhase} (hi : IsJob s.calls i c)
    (hin : c.interval = 0 → phase ∈ s.places i)
    (hplaces : places' + jobToken c.interval i phase = s.places + jobToken c.interval i phase')
    (hms : ∀ m ∈ ms, m.job = i) (hts : ∀ t ∈ ts, ∀ j, t.job = some j → j = i)
    (hseen : ∀ marks pushes, c.Seen i marks pushes phase →
      c.Seen i (marks ++ ms) (pushes + pushesOf i ts) phase') :
    Tracked (OneShot s.calls) places'
      (JobHolds s.calls (s.log ++ ms) (s.srv.pushed ++ ts)) := by
  have hother : ∀ j r, j ≠ i → JobHolds s.calls s.log s.srv.pushed j r →
      JobHolds s.calls (s.log ++ ms) (s.srv.pushed ++ ts) j r := by
    intro j r hj hold
    apply JobHolds.other hold ms ts
    · intro m hm heq
      exact hj (heq.symm.trans (hms m hm))
    · intro t ht heq
      exact hj (hts t ht j heq)
  -- a job with an interval has no token, so for it the tokens stay
  by_cases hint : c.interval = 0
  · rw [hint, jobToken_zero, jobToken_zero] at hplaces
    refine h.tracked.move (hin hint) hplaces hother ?_
    rintro ⟨d, hd, hold⟩
    obtain rfl := hd.unique hi
    refine ⟨d, hd, ?_⟩
    rw [jobMarksOf_append, jobMarksOf_same hms, pushesOf_append]
    exact hseen _ _ hold
  · rw [jobToken_ne hint, jobToken_ne hint, add_zero, add_zero] at hplaces
    refine h.tracked.keep hplaces (fun _ => Iff.rfl) fun j r hj hold => hother j r ?_ hold
    rintro rfl
    exact hint (hi.oneShot hj)

/-- A job that is freed has no interval and is in its last phase. -/
theorem Inv.freed (h : s.Inv bioCnt) (hi : i ∈ s.freed) :
    OneShot s.calls i ∧ s.places i = {.released} :=
  have hfound := h.tracked.found (mem_places_freed hi)
  ⟨hfound.1, hfound.2.1⟩

/-- **The entity** of a job is there until the last phase, and active until the last but one. -/
theorem Inv.entity (h : s.Inv bioCnt) (hi : IsJob s.calls i c)
    (hin : c.interval = 0 → phase ∈ s.places i) (hphase : phase ≠ .released) :
    s.entities.get? i = some (c.entity i (if i ∈ s.inactive then .dead else .active)) := by
  have hkept : i ∉ s.freed := by
    intro hfreed
    obtain ⟨hshot, hplaces⟩ := h.freed hfreed
    have hmem := hin (hi.oneShot hshot)
    rw [hplaces] at hmem
    exact hphase (Multiset.mem_singleton.mp hmem)
  obtain ⟨e, he⟩ := h.entities.kept i c hi hkept
  obtain ⟨d, hd, rfl⟩ := h.entities.entity i e he
  rw [he, hd.unique hi]

end Phases

/-! ### Steps of the service -/

section Moves

variable {calls : List JobCall} {m : SrvMove} {srv srv' : SrvSystem}

/-- The messages and tasks that a step adds are about jobs. -/
structure MovesJobs (calls : List JobCall) (m : SrvMove) : Prop where
  net : ∀ p ∈ m.newNet, p.OfJob calls
  run : ∀ p ∈ m.newRun, p.OfJob calls
  pushed : ∀ t ∈ m.pushed, t.OfJob calls

/-- The message of a task that is scheduled carries what the task does. -/
theorem ofJob_packet {x : Scheduled} {name : Nat} {dst : Sched}
    (hevent : x.event = x.task.runEvent name dst) (h : x.task.OfJob calls) :
    x.packet.OfJob calls := by
  rw [SrvTask.OfJob] at h
  rw [Packet.OfJob, Scheduled.packet, hevent, SrvTask.runEvent, SrvTask.owner]
  cases hdata : x.task.data with
  | api service txn name taskdata => trivial
  | timer entity ud valid interval =>
    rw [hdata] at h
    obtain ⟨hcarries, rfl⟩ := h
    exact ⟨hcarries, rfl⟩

/-- What the service moves stays of its job. -/
theorem messages_moved (h : JobMessages calls srv) (hm : m.Of srv srv')
    (hjobs : MovesJobs calls m) : JobMessages calls srv' := by
  have hqueued : ∀ t ∈ srv.svc.queued ++ m.pushed, t.OfJob calls := by
    intro t ht
    rcases List.mem_append.mp ht with ht | ht
    · exact h.queued t ht
    · exact hjobs.pushed t ht
  refine ⟨fun p hp => ?_, fun p hp => ?_, fun t ht => ?_⟩
  -- a message was there, is sent by the step, or runs a task that left the queue
  · have hmem := hm.net.subset (List.mem_append_left _ hp)
    rcases List.mem_append.mp hmem with hmem | hmem
    · rcases List.mem_append.mp hmem with hmem | hmem
      · exact h.net p hmem
      · exact hjobs.net p hmem
    · obtain ⟨x, hx, rfl⟩ := List.mem_map.mp hmem
      obtain ⟨dst, hevent⟩ := hm.event x hx
      apply ofJob_packet hevent
      apply hqueued
      exact hm.queued.subset (List.mem_append_right _ (List.mem_map_of_mem hx))
  · have hmem := hm.running.subset (List.mem_append_left _ hp)
    rcases List.mem_append.mp hmem with hmem | hmem
    · exact h.running p hmem
    · exact hjobs.run p hmem
  · exact hqueued t (hm.queued.subset (List.mem_append_left _ ht))

/-- **The tokens** after a step of the service. -/
theorem places_moved (hm : m.Of s.srv srv') (log : List JobMark) :
    ({ s with srv := srv', log } : JobSystem).places +
        ((m.goneNet.map Packet.place).sum + (m.goneRun.map Packet.runPlace).sum) =
      s.places + ((m.newNet.map Packet.place).sum + (m.newRun.map Packet.runPlace).sum +
        (m.pushed.map SrvTask.place).sum) := by
  have hsrv := SrvMove.places hm
  set gone := (m.goneNet.map Packet.place).sum + (m.goneRun.map Packet.runPlace).sum
  set new := (m.newNet.map Packet.place).sum + (m.newRun.map Packet.runPlace).sum +
    (m.pushed.map SrvTask.place).sum
  simp only [places]
  rw [add_right_comm, add_right_comm _ _ gone, add_right_comm _ _ gone, add_assoc _ _ gone, hsrv]
  abel

end Moves

/-- Nothing that a step moves has to do with a job. -/
structure NoJob (m : SrvMove) : Prop where
  goneNet : ∀ p ∈ m.goneNet, p.ofJob = false
  goneRun : ∀ p ∈ m.goneRun, p.ofJob = false
  newNet : ∀ p ∈ m.newNet, p.ofJob = false
  newRun : ∀ p ∈ m.newRun, p.ofJob = false
  pushed : ∀ t ∈ m.pushed, t.ofJob = false

theorem ofJob_other {calls : List JobCall} {p : Packet} (hp : p.ofJob = false) :
    p.OfJob calls := by
  rw [Packet.ofJob] at hp
  rw [Packet.OfJob]
  cases hpto : p.event.pto <;> simp_all

theorem task_other {t : SrvTask} (ht : t.ofJob = false) : t.job = none := by
  rw [SrvTask.ofJob] at ht
  rw [SrvTask.job]
  cases hdata : t.data <;> simp_all

/-- What has to do with no job moves none. -/
theorem NoJob.jobs {m : SrvMove} (h : NoJob m) (calls : List JobCall) : MovesJobs calls m where
  net p hp := ofJob_other (h.newNet p hp)
  run p hp := ofJob_other (h.newRun p hp)
  pushed t ht := by
    have hno := h.pushed t ht
    rw [SrvTask.ofJob] at hno
    rw [SrvTask.OfJob]
    cases hdata : t.data <;> simp_all

/-- A step that moves no job leaves the tokens alone. -/
theorem NoJob.places {m : SrvMove} {srv' : SrvSystem} (h : NoJob m) (hm : m.Of s.srv srv') :
    ({ s with srv := srv' } : JobSystem).places = s.places := by
  have hnet : ∀ l : List Packet, (∀ p ∈ l, p.ofJob = false) → (l.map Packet.place).sum = 0 := by
    intro l hl
    apply List.sum_eq_zero
    intro x hx
    obtain ⟨p, hp, rfl⟩ := List.mem_map.mp hx
    exact (Packet.place_other (hl p hp)).1
  have hrun : ∀ l : List Packet, (∀ p ∈ l, p.ofJob = false) →
      (l.map Packet.runPlace).sum = 0 := by
    intro l hl
    apply List.sum_eq_zero
    intro x hx
    obtain ⟨p, hp, rfl⟩ := List.mem_map.mp hx
    exact (Packet.place_other (hl p hp)).2
  have hpushed : (m.pushed.map SrvTask.place).sum = 0 := by
    apply List.sum_eq_zero
    intro x hx
    obtain ⟨t, ht, rfl⟩ := List.mem_map.mp hx
    exact SrvTask.place_other (h.pushed t ht)
  have hplaces := places_moved hm s.log
  rw [hnet _ h.goneNet, hrun _ h.goneRun, hnet _ h.newNet, hrun _ h.newRun, hpushed] at hplaces
  simpa only [add_zero] using hplaces

/-- **A step that moves no job.** -/
theorem Inv.moveOther {m : SrvMove} {srv' : SrvSystem} (h : s.Inv bioCnt)
    (hinv : srv'.Inv bioCnt) (hm : m.Of s.srv srv') (hno : NoJob m) :
    ({ s with srv := srv' } : JobSystem).Inv bioCnt where
  srv := hinv
  tracked := by
    have hjob : ∀ i, ∀ t ∈ m.pushed, t.job ≠ some i := fun i t ht => by
      simp [task_other (hno.pushed t ht)]
    refine h.tracked.keep (hno.places hm) (fun _ => Iff.rfl) fun i phase _ hholds => ?_
    have hother := hholds.other [] m.pushed (by simp) (hjob i)
    rwa [List.append_nil, ← hm.pushed] at hother
  timers := h.timers
  messages := messages_moved h.messages hm (hno.jobs _)
  entities := h.entities
  log := by
    have hlog := h.log.marks [] m.pushed (by simp) fun t ht i hi => by
      simp [task_other (hno.pushed t ht)] at hi
    rwa [List.append_nil, ← hm.pushed] at hlog
  pending := h.pending

/-- **A step that moves a job**, and may send a message to destroy its entity. -/
theorem Inv.move {m : SrvMove} {srv' : SrvSystem} {i : Nat} {c : JobCall} (h : s.Inv bioCnt)
    (phase phase' : JobPhase) (ms : List JobMark) (destroys : List Nat)
    (hinv : srv'.Inv bioCnt) (hm : m.Of s.srv srv') (hjobs : MovesJobs s.calls m)
    (hi : IsJob s.calls i c) (hin : c.interval = 0 → phase ∈ s.places i)
    (hplaces : ({ s with srv := srv', log := s.log ++ ms, destroys } : JobSystem).places +
      jobToken c.interval i phase = s.places + jobToken c.interval i phase')
    (hms : ∀ x ∈ ms, x.job = i ∧ x ≠ .udfree i) (hts : ∀ t ∈ m.pushed, t.job = some i)
    (hseen : ∀ marks pushes, c.Seen i marks pushes phase →
      c.Seen i (marks ++ ms) (pushes + pushesOf i m.pushed) phase') (pendings : TaskRef → Int) :
    ({ s with srv := srv', log := s.log ++ ms, destroys, pendings } : JobSystem).Inv bioCnt where
  srv := hinv
  tracked := by
    have htracked := h.advance ms m.pushed hi hin hplaces (fun x hx => (hms x hx).1)
      (fun t ht j hj => (Option.some.inj ((hts t ht).symm.trans hj)).symm) hseen
    rwa [← hm.pushed] at htracked
  timers := h.timers
  messages := messages_moved h.messages hm hjobs
  entities := h.entities
  log := by
    have hlog := h.log.marks ms m.pushed
      (fun x hx => ⟨c, (hms x hx).1 ▸ hi, fun _ => (hms x hx).1 ▸ (hms x hx).2⟩)
      fun t ht j hj => by
        rw [← Option.some.inj ((hts t ht).symm.trans hj)]
        exact hi.lt
    rwa [← hm.pushed] at hlog
  pending := h.pending

/-- The same for a step that moves it by messages, tasks and bodies only. -/
theorem Inv.moveJob {m : SrvMove} {srv' : SrvSystem} {i : Nat} {c : JobCall} (h : s.Inv bioCnt)
    (phase phase' : JobPhase) (ms : List JobMark) (hinv : srv'.Inv bioCnt)
    (hm : m.Of s.srv srv') (hjobs : MovesJobs s.calls m) (hi : IsJob s.calls i c)
    (hin : c.interval = 0 → phase ∈ s.places i)
    (hgone : (m.goneNet.map Packet.place).sum + (m.goneRun.map Packet.runPlace).sum =
      jobToken c.interval i phase)
    (hnew : (m.newNet.map Packet.place).sum + (m.newRun.map Packet.runPlace).sum +
      (m.pushed.map SrvTask.place).sum = jobToken c.interval i phase')
    (hms : ∀ x ∈ ms, x.job = i ∧ x ≠ .udfree i) (hts : ∀ t ∈ m.pushed, t.job = some i)
    (hseen : ∀ marks pushes, c.Seen i marks pushes phase →
      c.Seen i (marks ++ ms) (pushes + pushesOf i m.pushed) phase') (pendings : TaskRef → Int) :
    ({ s with srv := srv', log := s.log ++ ms, pendings } : JobSystem).Inv bioCnt := by
  have hplaces := places_moved hm (s.log ++ ms)
  rw [hgone, hnew] at hplaces
  exact h.move phase phase' ms s.destroys hinv hm hjobs hi hin hplaces hms hts hseen pendings

/-! ### The entity of a job -/

section Entities

variable {i : Nat}

/-- One entity more to destroy. -/
theorem places_destroys (s : JobSystem) (i : Nat) :
    ({ s with destroys := s.destroys ++ [i] } : JobSystem).places = s.places + token i .ended := by
  simp only [places, List.map_append, List.sum_append, List.map_cons, List.map_nil,
    List.sum_singleton]
  abel

/-- One entity more is inactive. -/
theorem places_inactive (s : JobSystem) (entities : Dict Nat TimerEntity) (i : Nat) :
    ({ s with entities, inactive := s.inactive ++ [i] } : JobSystem).places =
      s.places + token i .ended := by
  simp only [places, List.map_append, List.sum_append, List.map_cons, List.map_nil,
    List.sum_singleton]
  abel

/-- The order of the messages does not matter. -/
theorem Inv.perm_destroys (h : s.Inv bioCnt) {destroys : List Nat}
    (hperm : destroys.Perm s.destroys) : ({ s with destroys } : JobSystem).Inv bioCnt := by
  have hplaces : ({ s with destroys } : JobSystem).places = s.places := by
    simp only [places]
    rw [(hperm.map _).sum_eq]
  exact { h with
    tracked := h.tracked.keep hplaces (fun _ => Iff.rfl) fun _ _ _ hholds => hholds }

/-- An entity that is to be destroyed is that of a job, and was not yet. -/
theorem Inv.owed (h : ({ s with destroys := s.destroys ++ [i] } : JobSystem).Inv bioCnt) :
    ∃ c, IsJob s.calls i c ∧ s.entities.get? i = some (c.entity i .active) := by
  have hmem : i ∈ s.destroys ++ [i] := List.mem_append_right _ (List.mem_singleton_self i)
  have hended := mem_places_destroys (s := { s with destroys := s.destroys ++ [i] }) hmem
  obtain ⟨⟨c, hc, hint⟩, hone, -⟩ := h.tracked.found hended
  have hentity : s.entities.get? i =
      some (c.entity i (if i ∈ s.inactive then .dead else .active)) :=
    h.entity hc (fun _ => hended) (by simp)
  -- the token is that of the message, so there is no other
  have hactive : i ∉ s.inactive := by
    intro hinactive
    have htwo := mem_places_inactive hinactive
    rw [places_destroys, Pi.add_apply, token_same, add_eq_right] at hone
    rw [hone] at htwo
    exact absurd htwo (Multiset.notMem_zero _)
  rw [if_neg hactive] at hentity
  exact ⟨c, hc, hentity⟩

/-- **`sk_entity_mgr_del`** of such an entity. -/
theorem Inv.mgrDel (h : ({ s with destroys := s.destroys ++ [i] } : JobSystem).Inv bioCnt) :
    ∃ s', s.mgrDel i = .ok s' ∧ s'.Inv bioCnt := by
  obtain ⟨c, hc, hentity⟩ := h.owed
  refine ⟨{ s with
    entities := s.entities.set i (c.entity i .dead)
    inactive := s.inactive ++ [i] }, ?_, ?_⟩
  · simp [JobSystem.mgrDel, hentity, JobCall.entity]
  · have hplaces := (places_inactive s (s.entities.set i (c.entity i .dead)) i).trans
      (places_destroys s i).symm
    refine { h with
      tracked := h.tracked.keep hplaces (fun _ => Iff.rfl) fun _ _ _ hholds => hholds
      entities := ⟨fun j e he => ?_, fun j d hd hfreed => ?_⟩ }
    · rcases Dict.get?_set_cases he with ⟨rfl, rfl⟩ | ⟨hj, he⟩
      · exact ⟨c, hc, by simp⟩
      · obtain ⟨d, hd, rfl⟩ := h.entities.entity j e he
        exact ⟨d, hd, by simp [hj]⟩
    · by_cases hj : j = i
      · rw [hj]
        exact ⟨_, Dict.get?_set_self ..⟩
      · obtain ⟨e, he⟩ := h.entities.kept j d hd hfreed
        exact ⟨e, (Dict.get?_set_of_ne _ _ hj).trans he⟩

/-- **`sk_entity_safe_destroy`** of such an entity. -/
theorem Inv.entitySafeDestroy
    (h : ({ s with destroys := s.destroys ++ [i] } : JobSystem).Inv bioCnt) :
    ∃ s', s.entitySafeDestroy i = .ok s' ∧ s'.Inv bioCnt := by
  obtain ⟨c, hc, hentity⟩ := h.owed
  rw [JobSystem.entitySafeDestroy, hentity]
  -- the master destroys its own entities, and asks the other engines to
  by_cases hsrc : c.src = .master
  · simp only [JobCall.entity, hsrc, ne_eq, not_true_eq_false, if_false]
    exact h.mgrDel
  · simp only [JobCall.entity, ne_eq, hsrc, not_false_eq_true, if_true, not_true_eq_false,
      if_false]
    exact ⟨_, rfl, h⟩

/-- The marks that `jobDataDestroy` leaves. -/
theorem jobDataDestroy_eq (s : JobSystem) (obj : JobObj) :
    s.jobDataDestroy obj =
      { s with log := s.log ++ if obj.destroyer then [.udfree obj.data.id] else [] } := by
  rw [jobDataDestroy]
  split
  · rfl
  · rw [List.append_nil]

/-- **One turn of `_cleanup_dead_entities`.** -/
theorem Inv.freeDead (h : s.Inv bioCnt) (hi : i ∈ s.inactive) :
    ∃ log s', s' = { s with
        entities := s.entities.erase i
        inactive := s.inactive.erase i
        freed := s.freed ++ [i]
        log } ∧ s.freeDead i = .ok s' ∧ s'.Inv bioCnt := by
  have hended := mem_places_inactive hi
  obtain ⟨⟨c, hc, hint⟩, -, -⟩ := h.tracked.found hended
  have hentity := h.entity hc (fun _ => hended) (by simp)
  rw [if_pos hi] at hentity
  set ms : List JobMark := if c.udfree then [.udfree i] else []
  have hmark : ∀ m ∈ ms, m = .udfree i := fun m hm => by
    by_cases hfree : c.udfree <;> simp_all [ms]
  refine ⟨s.log ++ ms, _, rfl, ?_, ?_⟩
  · simp [JobSystem.freeDead, hentity, JobCall.entity, JobCall.data, jobDataDestroy_eq, ms]
  -- the token goes from the inactive entities to those that were freed
  · have hinactive : (i :: s.inactive.erase i).Perm s.inactive := (List.perm_cons_erase hi).symm
    have hplaces : ({ s with
        entities := s.entities.erase i
        inactive := s.inactive.erase i
        freed := s.freed ++ [i]
        log := s.log ++ ms } : JobSystem).places + jobToken c.interval i .ended =
        s.places + jobToken c.interval i .released := by
      have hsum := (hinactive.map (token · JobPhase.ended)).sum_eq
      rw [List.map_cons, List.sum_cons] at hsum
      simp only [places, hint, jobToken_zero, List.map_append, List.sum_append, List.map_cons,
        List.map_nil, List.sum_singleton]
      rw [← hsum]
      abel
    refine { h with
      tracked := ?_
      entities := ⟨fun j e he => ?_, fun j d hd hfreed => ?_⟩
      log := ?_ }
    · have htracked := h.advance ms [] hc (fun _ => hended) hplaces
        (fun m hm => by rw [hmark m hm, JobMark.job]) (by simp) ?_
      · rwa [List.append_nil] at htracked
      · rintro marks pushes ⟨full, rfl, rfl⟩
        exact ⟨full, rfl, rfl⟩
    · obtain ⟨hj, he⟩ := Dict.get?_erase_some he
      obtain ⟨d, hd, rfl⟩ := h.entities.entity j e he
      exact ⟨d, hd, by simp [List.mem_erase_of_ne hj]⟩
    · have hj : j ≠ i := fun heq => hfreed (by simp [heq])
      obtain ⟨e, he⟩ := h.entities.kept j d hd fun hmem => hfreed (List.mem_append_left _ hmem)
      exact ⟨e, by rw [Dict.get?_erase, if_neg hj]; exact he⟩
    · have hlog := h.log.marks ms [] (fun m hm => ?_) (by simp)
      · rwa [List.append_nil] at hlog
      · rw [hmark m hm]
        exact ⟨c, hc, fun hne => absurd hint hne⟩

/-- **`_cleanup_dead_entities`.** -/
theorem Inv.freeAll {dead : List Nat} (h : s.Inv bioCnt) (hdead : dead.Subperm s.inactive) :
    ∃ s', dead.foldlM JobSystem.freeDead s = .ok s' ∧ s'.Inv bioCnt := by
  induction dead generalizing s with
  | nil => exact ⟨s, rfl, h⟩
  | cons i dead ih =>
    obtain ⟨log, t, rfl, ht, hinv⟩ := h.freeDead (hdead.subset List.mem_cons_self)
    have hrest := hdead.erase i
    rw [List.erase_cons_head] at hrest
    obtain ⟨s', hs', hinv'⟩ := ih hinv hrest
    exact ⟨s', except_bind_ok.mpr ⟨_, ht, hs'⟩, hinv'⟩

end Entities

/-! ### Handling a message -/

/-- A step of the service. -/
theorem srvExec_ok {srv' : SrvSystem} {a : SrvAction} (hok : s.srv.exec bioCnt a = .ok srv') :
    s.srvExec bioCnt a = .ok { s with srv := srv' } := by
  rw [srvExec, hok]

/-- A step of the service that aborts. -/
theorem srvExec_error {a : SrvAction} {fault : SrvFault}
    (herr : s.srv.exec bioCnt a = .error fault) : s.srvExec bioCnt a = .error (.srv fault) := by
  rw [srvExec, herr]

/-- A message that is not about a job does nothing to one. -/
theorem handled_other {p : Packet} (hp : p.ofJob = false) (full : JobRw → Bool) :
    s.handled p full = .ok s := by
  rw [Packet.ofJob] at hp
  rw [handled]
  cases hpto : p.event.pto <;> simp_all

/-- The buffer that would take the task of a job. -/
theorem queueFull_iff (src : Sched) (entity : Nat) (ud : JobData) (valid : Bool) (bidx : Int)
    (type : JobRw) (interval : Nat) : s.queueFull type = true ↔
      s.srv.svc.Full (Service.emitTask src entity ud valid bidx type interval) := by
  rw [queueFull, decide_eq_true_iff]
  cases type <;> rfl

section Deliver

variable {p : Packet} {srv' : SrvSystem} {name entity : Nat} {ud : JobData} {valid : Bool}
  {bidx : Int} {type : JobRw} {status : JobRet} {interval : Nat}

/-- The job of a message that offers its task. -/
theorem Inv.emits (h : s.Inv bioCnt) (hp : p ∈ s.srv.net)
    (hpto : p.event.pto = .timerEmit name ud valid bidx type interval)
    (howner : p.event.owner = .inr entity) :
    Carries s.calls ud valid interval ∧ entity = ud.id := by
  have hofJob := h.messages.net p hp
  rw [Packet.OfJob, hpto] at hofJob
  exact ⟨hofJob.1, Sum.inr.inj (howner.symm.trans hofJob.2)⟩

/-- The task of a job is refused. -/
theorem Inv.refuse (h : s.Inv bioCnt) (hinv : srv'.Inv bioCnt) (hp : p ∈ s.srv.net)
    (hpto : p.event.pto = .timerEmit name ud valid bidx type interval)
    (howner : p.event.owner = .inr entity)
    (hm : SrvMove.Of { goneNet := [p], newNet := [⟨(Service.emitTask p.event.src entity ud valid
      bidx type interval).busyEvent s.srv.svc.name, none⟩] } s.srv srv') :
    ({ s with srv := srv', log := s.log ++ [.offered ud.id true] } : JobSystem).Inv bioCnt := by
  obtain ⟨hcarries, rfl⟩ := h.emits hp hpto howner
  obtain ⟨c, hc, hud, hvalid, hint⟩ := id hcarries
  have hplace : p.place = jobToken c.interval ud.id .waiting := by
    rw [Packet.place, hpto, hint]
  refine h.moveJob .waiting (.offered true) _ hinv hm ⟨?_, by simp, by simp⟩ hc
    (fun hzero => ?_) (by simp [hplace]) ?_ (by simp [JobMark.job]) (by simp) ?_ s.pendings
  · intro q hq
    rw [List.mem_singleton.mp hq]
    exact ⟨hcarries, rfl⟩
  · apply mem_places_net hp
    rw [hplace]
    exact mem_jobToken hzero _
  · simp [Packet.place, SrvTask.busyEvent, Service.emitTask, hint]
  · rintro marks pushes ⟨rfl, rfl⟩
    exact ⟨rfl, rfl⟩

/-- The task of a job is queued. -/
theorem Inv.enqueue (h : s.Inv bioCnt) (hinv : srv'.Inv bioCnt) (hp : p ∈ s.srv.net)
    (hpto : p.event.pto = .timerEmit name ud valid bidx type interval)
    (howner : p.event.owner = .inr entity) {scheduled : List Scheduled}
    (hm : SrvMove.Of { goneNet := [p], scheduled, pushed := [Service.emitTask p.event.src entity ud
      valid bidx type interval] } s.srv srv') :
    ({ s with srv := srv', log := s.log ++ [.offered ud.id false] } : JobSystem).Inv bioCnt := by
  obtain ⟨hcarries, rfl⟩ := h.emits hp hpto howner
  obtain ⟨c, hc, hud, hvalid, hint⟩ := id hcarries
  have hplace : p.place = jobToken c.interval ud.id .waiting := by
    rw [Packet.place, hpto, hint]
  refine h.moveJob .waiting (.offered false) _ hinv hm
    ⟨by simp, by simp, ?_⟩ hc (fun hzero => ?_) (by simp [hplace]) ?_ (by simp [JobMark.job]) ?_ ?_
    s.pendings
  · intro t ht
    rw [List.mem_singleton.mp ht]
    exact ⟨hcarries, rfl⟩
  · apply mem_places_net hp
    rw [hplace]
    exact mem_jobToken hzero _
  · simp [SrvTask.place, Service.emitTask, hint]
  · intro t ht
    rw [List.mem_singleton.mp ht]
    rfl
  · rintro marks pushes ⟨rfl, rfl⟩
    refine ⟨rfl, ?_⟩
    simp [pushesOf, SrvTask.job, Service.emitTask, JobCall.pushes]

/-- The function of a job is called. -/
theorem Inv.call (h : s.Inv bioCnt) (hinv : srv'.Inv bioCnt) (hp : p ∈ s.srv.net)
    (hpto : p.event.pto = .svcTimerRun name ud valid status interval)
    (hm : SrvMove.Of { goneNet := [p], newRun := [p] } s.srv srv') :
    ∃ s', ({ s with srv := srv' } : JobSystem).jobCb ud valid status = .ok s' ∧ s'.Inv bioCnt := by
  have hofJob := h.messages.net p hp
  have hjob := hofJob
  rw [Packet.OfJob, hpto] at hjob
  obtain ⟨⟨c, hc, hud, hvalid, hint⟩, howner⟩ := hjob
  have hplace : p.place = jobToken c.interval ud.id (.offered (status ≠ .ok)) := by
    rw [Packet.place, hpto, hint]
  have hrunPlace : p.runPlace = jobToken c.interval ud.id (.running (status ≠ .ok)) := by
    rw [Packet.runPlace, hpto, hint]
  have hin : c.interval = 0 → .offered (decide (status ≠ .ok)) ∈ s.places ud.id := by
    intro hzero
    apply mem_places_net hp
    rw [hplace]
    exact mem_jobToken hzero _
  -- the service runs a job with one of these two only
  have hstatus : ¬ (status ≠ .ok ∧ status ≠ .errorBusy) := by
    obtain ⟨⟨l, hheld⟩, -⟩ := h.srv
    have hwf := hheld.net p hp
    rw [Packet.Wf, hpto] at hwf
    rcases hwf with ⟨hok, -⟩ | ⟨hbusy, -⟩
    · exact fun hne => hne.1 hok
    · exact fun hne => hne.2 hbusy
  have hentity := h.entity hc hin (by simp)
  refine ⟨_, ?_, h.moveJob (.offered (status ≠ .ok)) (.running (status ≠ .ok))
    [.called ud.id (if status ≠ .ok then .errorBusy else .ok)] hinv hm
    ⟨by simp, ?_, by simp⟩ hc hin (by simp [hplace]) (by simp [hrunPlace]) (by simp [JobMark.job])
    (by simp) ?_ s.pendings⟩
  · simp only [jobCb, hentity, hvalid, hstatus, mark, Option.isNone_some, Bool.false_eq_true,
      Bool.true_eq_false, if_false]
  · intro q hq
    rw [List.mem_singleton.mp hq]
    exact hofJob
  · rintro marks pushes ⟨rfl, rfl⟩
    refine ⟨?_, rfl⟩
    by_cases hok : status = .ok <;> simp [JobCall.calledMarks, hok]

/-- A job is reported done. -/
theorem Inv.report (h : s.Inv bioCnt) (hinv : srv'.Inv bioCnt) (hp : p ∈ s.srv.net)
    (hpto : p.event.pto = .svcTimerDone name status interval) {scheduled : List Scheduled}
    (hm : SrvMove.Of { goneNet := [p], scheduled } s.srv srv') (full : JobRw → Bool) :
    ∃ s', ({ s with srv := srv' } : JobSystem).handled p full = .ok s' ∧ s'.Inv bioCnt := by
  have hjob := h.messages.net p hp
  rw [Packet.OfJob, hpto] at hjob
  obtain ⟨i, c, hc, howner, hint⟩ := hjob
  have hplace : p.place = jobToken c.interval i (.finished (status ≠ .ok)) := by
    rw [Packet.place, hpto, howner, hint]
  have hin : c.interval = 0 → .finished (decide (status ≠ .ok)) ∈ s.places i := by
    intro hzero
    apply mem_places_net hp
    rw [hplace]
    exact mem_jobToken hzero _
  set ms : List JobMark := if status = .ok then [.setcomplete i] else [] with hmsdef
  have hmark : ∀ m ∈ ms, m = .setcomplete i := fun m hm => by
    by_cases hok : status = .ok <;> simp_all [ms]
  have hmarked : (if status = .ok then ({ s with srv := srv' } : JobSystem).mark (.setcomplete i)
      else { s with srv := srv' }) = { s with srv := srv', log := s.log ++ ms } := by
    by_cases hok : status = .ok <;> simp [hmsdef, hok, mark]
  have hseen : ∀ marks pushes, c.Seen i marks pushes (.finished (status ≠ .ok)) →
      c.Seen i (marks ++ ms) (pushes + pushesOf i []) .ended := by
    rintro marks pushes ⟨rfl, rfl⟩
    refine ⟨decide (status ≠ .ok), ?_, rfl⟩
    by_cases hok : status = .ok <;> simp [JobCall.endedMarks, hmsdef, hok]
  have hmarks : ∀ x ∈ ms, x.job = i ∧ x ≠ .udfree i := fun x hx => by
    rw [hmark x hx]
    exact ⟨rfl, by simp⟩
  -- without the message, the job is nowhere
  have hgone := places_moved hm (s.log ++ ms)
  simp only [List.map_cons, List.map_nil, List.sum_cons, List.sum_nil, add_zero, hplace] at hgone
  simp only [handled, hpto, howner, hmarked]
  by_cases hzero : interval = 0
  · rw [if_pos hzero]
    apply Inv.entitySafeDestroy
    refine h.move (.finished (status ≠ .ok)) .ended ms (s.destroys ++ [i]) hinv hm
      ⟨by simp, by simp, by simp⟩ hc hin ?_ hmarks (by simp) hseen s.pendings
    rw [places_destroys { s with srv := srv', log := s.log ++ ms } i, add_right_comm, hgone, ← hint,
      hzero, jobToken_zero]
  · rw [if_neg hzero]
    refine ⟨_, rfl, h.move (.finished (status ≠ .ok)) .ended ms s.destroys hinv hm
      ⟨by simp, by simp, by simp⟩ hc hin ?_ hmarks (by simp) hseen s.pendings⟩
    rw [hgone, ← hint, jobToken_ne hzero, add_zero]

end Deliver

end JobSystem

end Skull
