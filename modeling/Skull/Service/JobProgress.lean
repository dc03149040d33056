import Skull.Service.JobRuns
import Skull.Service.Exclusion
import Mathlib.Algebra.Order.Group.Nat

namespace Skull

open Machines

/-!
# Jobs come to an end

What is in flight is worked off: every step that is not a call, and not a timer with an interval
that fires, makes `JobSystem.work` smaller.

* `JobSystem.work` — how many steps the timers, messages, tasks and bodies lead to, at most;
* `JobSystem.works` — a step that works off what is in flight;
* `JobSystem.work_lt` — it makes `work` smaller;
* `JobSystem.AtRest` — nothing is left to work off;
* `JobSystem.Inv.released` — the data of every job without an interval was freed then.
-/

/-- How many steps a timer may lead to: one without an interval fires once. -/
def SkTimer.rank (timer : SkTimer) : Nat :=
  if timer.interval = 0 ∧ timer.triggered = false then 11 else 0

namespace JobSystem

variable {bioCnt : Nat} {home : TaskRef → Sched} {api : TaskRef → Nat} {s s' : JobSystem}

/-- **What is left to do.** -/
def work (s : JobSystem) : Nat :=
  s.timers.sum (fun _ => SkTimer.rank) + 10 * s.triggered.length +
    s.srv.total Packet.rank Packet.runRank SrvTask.rank + 2 * s.destroys.length + s.inactive.length

/-- A step that works off what is in flight. -/
def works (s : JobSystem) : JobAction → Prop
  | .timerFires t => ∃ timer ∈ s.timers.get? t, timer.interval = 0
  | .cleanDead x => ∃ i ∈ s.inactive, ∃ e ∈ s.entities.get? i, e.owner = x
  | .timerTriggered _ | .entityDestroy _ | .srv (.deliver ..) | .srv (.bodyEnd ..) => True
  | _ => False

/-- Nothing is in flight. -/
def AtRest (bioCnt : Nat) (s : JobSystem) : Prop := ∀ a, s.enabled bioCnt a → ¬ s.works a

/-! ### Steps of the service -/

/-- What is scheduled is a step further. -/
theorem Scheduled.rank_lt {x : Scheduled} {name : Nat} {dst : Sched}
    (h : x.event = x.task.runEvent name dst) : x.packet.rank < x.task.rank := by
  rw [Packet.rank, SrvTask.rank, SrvTask.ofJob, Scheduled.packet, h, SrvTask.runEvent]
  cases x.task.data <;> simp

/-- A step of the service takes away what it handles. -/
theorem total_moved {m : SrvMove} {srv srv' : SrvSystem} (h : m.Of srv srv') :
    srv'.total Packet.rank Packet.runRank SrvTask.rank +
        ((m.goneNet.map Packet.rank).sum + (m.goneRun.map Packet.runRank).sum) ≤
      srv.total Packet.rank Packet.runRank SrvTask.rank + ((m.newNet.map Packet.rank).sum +
        (m.newRun.map Packet.runRank).sum + (m.pushed.map SrvTask.rank).sum) := by
  have htotal := SrvMove.total Packet.rank Packet.runRank SrvTask.rank h
  -- a task that is scheduled is worth more than the message that runs it
  have hless : (m.scheduled.map fun x => x.packet.rank).sum ≤
      (m.scheduled.map fun x => x.task.rank).sum := by
    apply List.sum_le_sum
    intro x hx
    obtain ⟨dst, hevent⟩ := h.event x hx
    exact (Scheduled.rank_lt hevent).le
  omega

/-! ### What the handlers add -/

@[simp] theorem work_mark (s : JobSystem) (m : JobMark) : (s.mark m).work = s.work := rfl

/-- Taking an entity out makes the free that is due. -/
theorem mgrDel_work {i : Nat} (hok : s.mgrDel i = .ok s') : s'.work ≤ s.work + 1 := by
  rw [mgrDel] at hok
  cases he : s.entities.get? i with
  | none => simp [he] at hok
  | some e =>
    simp only [he] at hok
    split at hok
    · obtain rfl := Except.ok.inj hok
      exact Nat.le_succ _
    · obtain rfl := Except.ok.inj hok
      simp only [work, List.length_append, List.length_singleton]
      omega

theorem entitySafeDestroy_work {i : Nat} (hok : s.entitySafeDestroy i = .ok s') :
    s'.work ≤ s.work + 2 := by
  rw [entitySafeDestroy] at hok
  cases he : s.entities.get? i with
  | none => simp [he] at hok
  | some e =>
    simp only [he] at hok
    split at hok
    · split at hok
      · obtain rfl := Except.ok.inj hok
        omega
      · obtain rfl := Except.ok.inj hok
        simp only [work, List.length_append, List.length_singleton]
        omega
    · have hdel := mgrDel_work hok
      omega

/-- A callback is no work for others. -/
theorem jobCb_work {ud : JobData} {valid : Bool} {status : JobRet}
    (hok : s.jobCb ud valid status = .ok s') : s'.work = s.work := by
  rw [jobCb] at hok
  split at hok
  · exact absurd hok (by simp)
  · split at hok
    · exact absurd hok (by simp)
    · split at hok
      · exact absurd hok (by simp)
      · obtain rfl := Except.ok.inj hok
        rfl

/-- A report that a job is done adds the steps that free its entity. -/
theorem done_work {p : Packet} {full : JobRw → Bool} {name interval : Nat} {status : JobRet}
    (hpto : p.event.pto = .svcTimerDone name status interval)
    (hok : s.handled p full = .ok s') : s'.work ≤ s.work + 2 := by
  rw [handled, hpto] at hok
  cases howner : p.event.owner with
  | inl txn =>
    simp only [howner] at hok
    obtain rfl := Except.ok.inj hok
    exact Nat.le_add_right _ _
  | inr i =>
    simp only [howner] at hok
    set t : JobSystem := if status = .ok then s.mark (.setcomplete i) else s with ht
    have hmark : t.work = s.work := by
      rw [ht]
      split
      · exact work_mark ..
      · rfl
    split at hok
    · have hdestroy := entitySafeDestroy_work hok
      omega
    · obtain rfl := Except.ok.inj hok
      omega

/-- What follows from a message is less than the message. -/
theorem deliver_work (h : s.Inv bioCnt) {i : Nat} {resumeWf : Bool}
    (he : s.srv.enabled bioCnt (.deliver i resumeWf)) (hok : s.deliver bioCnt i resumeWf = .ok s') :
    s'.work < s.work := by
  obtain ⟨p, hp, -⟩ := id he
  rw [Option.mem_def] at hp
  simp only [deliver, hp, h.alive (List.mem_of_getElem? hp), Bool.true_eq_false, if_false] at hok
  obtain ⟨t, ht, hhandled⟩ := except_bind_ok.mp hok
  obtain ⟨srv', hhandle, -⟩ := SrvSystem.handle_ok h.srv hp resumeWf
  obtain ⟨m, hm, hmoves⟩ := SrvSystem.handle_moves h.srv hp hhandle
  have hsrv : s.srv.exec bioCnt (.deliver i resumeWf) = .ok srv' := by
    simp only [SrvSystem.exec, hp]
    exact hhandle
  obtain rfl := Except.ok.inj ((srvExec_ok hsrv).symm.trans ht)
  have hmoved := total_moved hm
  -- only the service's part of the measure changes with the message
  have hwork : ({ s with srv := srv' } : JobSystem).work +
      s.srv.total Packet.rank Packet.runRank SrvTask.rank =
      s.work + srv'.total Packet.rank Packet.runRank SrvTask.rank := by
    simp only [work]
    omega
  cases hmoves with
  | other hno hnet hrun hpushed hrank =>
    rw [handled_other hno] at hhandled
    obtain rfl := Except.ok.inj hhandled
    simp only [List.map_cons, List.map_nil, List.sum_cons, List.sum_nil] at hmoved
    omega
  | refused hpto howner hfull =>
    rw [handled, hpto] at hhandled
    obtain rfl := Except.ok.inj hhandled
    simp [Packet.rank, hpto, SrvTask.busyEvent, Service.emitTask] at hmoved
    rw [work_mark]
    omega
  | queued hpto howner hfull =>
    rw [handled, hpto] at hhandled
    obtain rfl := Except.ok.inj hhandled
    simp [Packet.rank, hpto, SrvTask.rank, SrvTask.ofJob, Service.emitTask] at hmoved
    rw [work_mark]
    omega
  | run hpto =>
    rw [handled, hpto] at hhandled
    have hcb := jobCb_work hhandled
    simp [Packet.rank, Packet.runRank, hpto] at hmoved
    omega
  | done hpto =>
    have hdone := done_work hpto hhandled
    simp [Packet.rank, hpto] at hmoved
    omega

/-- The end of a body takes it away, and sends its answer. -/
theorem srvExec_end_work {j : Nat} {failed taskDone : Bool} {p : Packet}
    (hp : s.srv.running[j]? = some p) (hbody : p.isBody = true)
    (hok : s.srvExec bioCnt (.bodyEnd j failed taskDone) = .ok s') :
    ∃ m, p.Ends m ∧ s'.work + p.runRank ≤ s.work + (m.newNet.map Packet.rank).sum := by
  rw [srvExec] at hok
  cases hsrv : s.srv.exec bioCnt (.bodyEnd j failed taskDone) with
  | error fault => simp [hsrv] at hok
  | ok srv' =>
    rw [hsrv] at hok
    obtain rfl := Except.ok.inj hok
    simp only [SrvSystem.exec, hp] at hsrv
    obtain ⟨m, hm, hends⟩ := SrvSystem.finish_ends hp hbody hsrv
    have hmoved := total_moved hm
    refine ⟨m, hends, ?_⟩
    simp only [work]
    cases hends with
    | api hno hnet hrank =>
      simp only [List.map_cons, List.map_nil, List.sum_cons, List.sum_nil] at hmoved ⊢
      omega
    | job hpto =>
      simp only [List.map_cons, List.map_nil, List.sum_cons, List.sum_nil] at hmoved ⊢
      omega

/-- What follows from the end of a body is less than the body. -/
theorem bodyEnd_work (h : s.Inv bioCnt) {j : Nat} {failed taskDone : Bool}
    (he : s.srv.enabled bioCnt (.bodyEnd j failed taskDone))
    (hok : s.bodyEnd bioCnt home api j failed taskDone = .ok s') : s'.work < s.work := by
  obtain ⟨p, hp⟩ : ∃ p, s.srv.running[j]? = some p := ⟨_, List.getElem?_eq_getElem he⟩
  have hbody := h.srv.body (List.mem_of_getElem? hp)
  simp only [bodyEnd, hp] at hok
  obtain ⟨t, ht, hend⟩ := except_bind_ok.mp hok
  cases hpto : p.event.pto <;> simp only [Packet.isBody, hpto] at hbody
  case svcTaskRun service apiName ioStatus src taskdata =>
    rw [returned, hpto] at ht
    obtain rfl := Except.ok.inj ht
    obtain ⟨m, hends, hwork⟩ := srvExec_end_work hp (by rw [Packet.isBody, hpto]) hend
    cases hends with
    | api _ _ hrank =>
      have hless := Nat.add_lt_add_left hrank s.work
      exact Nat.lt_of_add_lt_add_right (hwork.trans_lt hless)
    | job hpto' => simp [hpto] at hpto'
  case svcTimerRun name ud valid status interval =>
    obtain ⟨srv₁, pendings, hret, -, hrunning, hadded⟩ :=
      jobReturns_ok home api h p.event.dst ud
    rw [returned, hpto] at ht
    obtain rfl := Except.ok.inj (hret.symm.trans ht)
    rw [← hrunning] at hp
    obtain ⟨m, hends, hwork⟩ := srvExec_end_work
      (s := { s with srv := srv₁, log := s.log ++ returnMarks ud, pendings }) hp
      (by rw [Packet.isBody, hpto]) hend
    -- what the job adds for its task is counted with its body
    cases hends with
    | api hno _ _ => simp [Packet.ofJob, hpto] at hno
    | job hpto' =>
      simp only [Packet.runRank, Packet.rank, hpto, List.map_cons, List.map_nil, List.sum_cons,
        List.sum_nil, work] at hwork ⊢
      omega
  all_goals simp at hbody

/-! ### Timers and entities -/

/-- A timer that fires for the last time. -/
theorem timerFires_work {t : Nat} (he : s.enabled bioCnt (.timerFires t))
    (hw : s.works (.timerFires t)) (hok : s.timerFires t = .ok s') : s'.work < s.work := by
  obtain ⟨timer, hget, hfires⟩ := he
  obtain ⟨timer', hget', hint⟩ := hw
  rw [Option.mem_def] at hget hget'
  obtain rfl := Option.some.inj (hget.symm.trans hget')
  have htriggered : timer.triggered = false := hfires.resolve_right fun hne => hne hint
  rw [timerFires, hget] at hok
  obtain rfl := Except.ok.inj hok
  have hset := Dict.sum_set (fun _ => SkTimer.rank) s.timers t { timer with triggered := true }
  have hbefore : Dict.part (fun _ => SkTimer.rank) s.timers t = 11 := by
    rw [Dict.part, hget, Option.elim_some, SkTimer.rank, if_pos ⟨hint, htriggered⟩]
  have hafter : SkTimer.rank { timer with triggered := true } = 0 := by simp [SkTimer.rank]
  simp only [work, List.length_append, List.length_singleton]
  omega

/-- The message of a timer. -/
theorem timerTriggered_work (h : s.Inv bioCnt) {k : Nat} {m : TimerMsg}
    (hm : s.triggered[k]? = some m)
    (hok : ({ s with triggered := s.triggered.eraseIdx k } : JobSystem).timerTriggered bioCnt m =
      .ok s') : s'.work < s.work := by
  obtain ⟨c, hc, hmsg, hget, -⟩ := h.waits (List.mem_of_getElem? hm)
  have hlength : (s.triggered.eraseIdx k).length + 1 = s.triggered.length :=
    (perm_take hm).length_eq.symm
  have htimer : ({ s with triggered := s.triggered.eraseIdx k } : JobSystem).timers.get? m.timer =
      some (c.timer m.timer true) := hget
  rw [JobSystem.timerTriggered, htimer] at hok
  split at hok
  · exact absurd hok (by simp)
  obtain ⟨t, ht, hrest⟩ := except_bind_ok.mp hok
  obtain rfl := Except.ok.inj ht
  have hsum := Dict.sum_erase (fun _ => SkTimer.rank) s.timers m.timer
  have hsent : ∀ e : Event, (s.srv.send e none).total Packet.rank Packet.runRank SrvTask.rank =
      s.srv.total Packet.rank Packet.runRank SrvTask.rank + (⟨e, none⟩ : Packet).rank := by
    intro e
    simp only [SrvSystem.total, SrvSystem.send, List.map_append, List.sum_append, List.map_cons,
      List.map_nil, List.sum_singleton]
    omega
  -- the message is worth 10, and the offer that follows it 9
  split at hrest
  · split at hrest
    · exact absurd hrest (by simp)
    · obtain rfl := Except.ok.inj hrest
      simp only [work, hsent, Packet.rank]
      omega
  · obtain rfl := Except.ok.inj hrest
    simp only [work, hsent, Packet.rank]
    omega

/-- Freeing the entities that are dead. -/
theorem freeAll_work {dead : List Nat} (h : s.Inv bioCnt) (hdead : dead.Subperm s.inactive)
    (hok : dead.foldlM freeDead s = .ok s') : s'.work + dead.length = s.work := by
  induction dead generalizing s with
  | nil =>
    obtain rfl := Except.ok.inj hok
    rfl
  | cons i dead ih =>
    have hi := hdead.subset List.mem_cons_self
    obtain ⟨log, t, rfl, ht, hinv⟩ := h.freeDead hi
    obtain ⟨u, hu, hrest⟩ := except_bind_ok.mp hok
    obtain rfl := Except.ok.inj (ht.symm.trans hu)
    have htail := hdead.erase i
    rw [List.erase_cons_head] at htail
    have hwork := ih hinv htail hrest
    have hlength := List.length_erase_add_one hi
    simp only [work, List.length_cons] at hwork ⊢
    omega

/-! ### Every step -/

/-- **What is left to do gets less.** -/
theorem work_lt (h : s.Inv bioCnt) {a : JobAction} (he : s.enabled bioCnt a) (hw : s.works a)
    (hok : s.exec bioCnt home api a = .ok s') : s'.work < s.work := by
  cases a with
  -- a call of the user is no work
  | create => exact hw.elim
  | createNp => exact hw.elim
  | pendings => exact hw.elim
  | timerFires t => exact timerFires_work he hw hok
  | timerTriggered k =>
    have hk : s.triggered[k]? = some s.triggered[k] := List.getElem?_eq_getElem he
    simp only [exec, hk] at hok
    exact timerTriggered_work h hk hok
  -- the entity that is destroyed waits no longer
  | entityDestroy k =>
    have hk : s.destroys[k]? = some s.destroys[k] := List.getElem?_eq_getElem he
    simp only [exec, hk] at hok
    have hlength : (s.destroys.eraseIdx k).length + 1 = s.destroys.length :=
      (perm_take hk).length_eq.symm
    have hdel := mgrDel_work hok
    simp only [work] at hdel ⊢
    omega
  -- one of the entities is freed at least
  | cleanDead x =>
    obtain ⟨i, hi, e, hget, hx⟩ := hw
    have hfreed := freeAll_work h (List.filter_sublist ..).subperm hok
    have hmem : i ∈ s.inactive.filter fun i => (s.entities.get? i).all fun e => e.owner = x :=
      List.mem_filter.mpr ⟨hi, by simp [Option.mem_def.mp hget, hx]⟩
    have hpos := List.length_pos_of_mem hmem
    omega
  | srv a =>
    cases a with
    | deliver i resumeWf => exact deliver_work h he.2 hok
    | bodyEnd j failed taskDone => exact bodyEnd_work h he.2 hok
    | _ => exact hw.elim

/-- There is a step to make, as long as something is left to do. -/
theorem exists_works (h : s.Inv bioCnt) (hrest : ¬ s.AtRest bioCnt) :
    ∃ a s', s.enabled bioCnt a ∧ s.works a ∧ s.exec bioCnt home api a = .ok s' := by
  obtain ⟨a, he, hw⟩ : ∃ a, s.enabled bioCnt a ∧ s.works a := by
    by_contra hno
    exact hrest fun a he hw => hno ⟨a, he, hw⟩
  -- where a body may fail, it may as well not
  obtain ⟨b, hb, hbw, hfails⟩ : ∃ b, s.enabled bioCnt b ∧ s.works b ∧ b.fails = false := by
    cases hfails : a.fails with
    | false => exact ⟨a, he, hw, hfails⟩
    | true =>
      cases a with
      | srv a =>
        cases a with
        | bodyEnd j failed taskDone => exact ⟨.srv (.bodyEnd j false taskDone), he, trivial, rfl⟩
        | _ => simp [JobAction.fails, SrvAction.fails] at hfails
      | _ => simp [JobAction.fails] at hfails
  rcases exec_fine home api h hb with ⟨htrue, -⟩ | ⟨s', hok, -⟩
  · exact absurd (hfails.symm.trans htrue) (by simp)
  · exact ⟨b, s', hb, hbw, hok⟩

/-! ### At rest -/

section Rest

variable (hrest : s.AtRest bioCnt)
include hrest

/-- At rest nothing runs. -/
theorem rest_running : s.srv.running = [] := by
  by_contra hne
  exact hrest (.srv (.bodyEnd 0 false false)) ⟨rfl, List.length_pos_of_ne_nil hne⟩ trivial

/-- No message is under way. -/
theorem rest_net : s.srv.net = [] := by
  by_contra hne
  obtain ⟨p, net, hnet⟩ := List.exists_cons_of_ne_nil hne
  refine hrest (.srv (.deliver 0 false)) ⟨rfl, p, by simp [hnet], fun b hb => ?_⟩ trivial
  rw [rest_running hrest] at hb
  exact absurd hb List.not_mem_nil

/-- No timer has fired. -/
theorem rest_triggered : s.triggered = [] := by
  by_contra hne
  exact hrest (.timerTriggered 0) (List.length_pos_of_ne_nil hne) trivial

/-- No entity is to be destroyed. -/
theorem rest_destroys : s.destroys = [] := by
  by_contra hne
  exact hrest (.entityDestroy 0) (List.length_pos_of_ne_nil hne) trivial

/-- Nothing runs that the queue would wait for. -/
theorem Inv.rest_queued (h : s.Inv bioCnt) : s.srv.svc.queued = [] := by
  by_contra hne
  apply h.srv.queued_outstanding hne
  rw [SrvSystem.outstanding, rest_running hrest, rest_net hrest]
  rfl

/-- None is inactive. -/
theorem Inv.rest_inactive (h : s.Inv bioCnt) : s.inactive = [] := by
  by_contra hne
  obtain ⟨i, inactive, hi⟩ := List.exists_cons_of_ne_nil hne
  have hmem : i ∈ s.inactive := by simp [hi]
  have hended := mem_places_inactive hmem
  obtain ⟨⟨c, hc, -⟩, -, -⟩ := h.tracked.found hended
  have hentity := h.entity hc (fun _ => hended) (by simp)
  exact hrest (.cleanDead c.src) trivial ⟨i, hmem, _, hentity, rfl⟩

/-- No timer waits to fire for the last time. -/
theorem Inv.rest_timers : s.timers.sum (fun _ => SkTimer.place) = 0 := by
  apply List.sum_eq_zero
  intro x hx
  obtain ⟨⟨t, timer⟩, ht, rfl⟩ := List.mem_map.mp hx
  have hget : s.timers.get? t = some timer := Dict.mem_entries_iff.mp ht
  show timer.place = 0
  rw [SkTimer.place]
  by_cases htriggered : timer.triggered = true
  · rw [if_pos htriggered]
  · have hint : timer.interval ≠ 0 := fun hint =>
      hrest (.timerFires t) ⟨timer, hget, .inl (by simpa using htriggered)⟩ ⟨timer, hget, hint⟩
    rw [if_neg htriggered, jobToken_ne hint]

/-- **All that was to happen to a job has happened.** -/
theorem Inv.released (h : s.Inv bioCnt) {i : Nat} (hi : OneShot s.calls i) :
    JobHolds s.calls s.log s.srv.pushed i .released := by
  obtain ⟨phase, hone, hholds⟩ := h.tracked.one i hi
  have hplaces : s.places = (s.freed.map (token · JobPhase.released)).sum := by
    rw [places, Inv.rest_timers hrest, SrvSystem.total, rest_running hrest, rest_net hrest,
      h.rest_queued hrest, rest_triggered hrest, rest_destroys hrest, h.rest_inactive hrest]
    simp
  have hmem : phase ∈ s.places i := by
    rw [hone]
    exact Multiset.mem_singleton_self phase
  -- every token that is left is that of an entity that was freed
  rw [hplaces] at hmem
  obtain ⟨-, rfl⟩ := mem_sum_token.mp hmem
  exact hholds

end Rest

end JobSystem

end Skull
