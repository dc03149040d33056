import Skull.Txn.Invariant

namespace Skull

open Machines

/-!
# The master keeps the account

The handlers of the master move tasks between messages and the queues of services:

* `points_after_launch` — a round of scheduling sends tasks to their schedulers;
* `TxnSystem.Inv.offer` — a task is queued or turned away;
* `TxnSystem.exec_inv`, `TxnSystem.reach_inv` — every step keeps the account, and every run.
-/

/-! ### Tasks that are sent to a scheduler -/

/-- From `p` to `p'` the task `t` got the marks `ms`, and its entry stayed the same. -/
structure Progress.Launched (t : TaskRef) (p p' : Progress) (ms : Multiset Mark) : Prop where
  marks : p'.marks t = p.marks t + ms
  absent : p' = .absent ↔ p = .absent
  calls : p'.calls = p.calls
  isDone : p'.isDone = p.isDone

namespace Progress.Launched

variable {t : TaskRef} {p p' p'' : Progress} {ms ms' : Multiset Mark}

theorem refl (t : TaskRef) (p : Progress) : Launched t p p 0 :=
  ⟨(add_zero _).symm, Iff.rfl, rfl, rfl⟩

theorem trans (h : Launched t p p' ms) (h' : Launched t p' p'' ms') :
    Launched t p p'' (ms + ms') where
  marks := by rw [h'.marks, h.marks, add_assoc]
  absent := h'.absent.trans h.absent
  calls := h'.calls.trans h.calls
  isDone := h'.isDone.trans h.isDone

/-- The entry of the task is as it was. -/
theorem matches_entry (h : Launched t p p' ms) {entry : Option TxnTask} (hm : p.Matches entry) :
    p'.Matches entry where
  absent := h.absent.trans hm.absent
  pendings k hk := by rw [h.calls]; exact hm.pendings k hk
  incomplete k hk := by rw [h.isDone]; exact hm.incomplete k hk

end Progress.Launched

theorem stagesOf_filterMap_cons {α : Type} (f : α → Option (TaskRef × Stage)) (t : TaskRef)
    (a : α) (l : List α) : stagesOf t ((a :: l).filterMap f) =
      stagesOf t (f a).toList + stagesOf t (l.filterMap f) := by
  rw [← stagesOf_append]
  cases h : f a <;> simp [h]

/-- A queued api call that shows something is all there is of its task. -/
theorem waiting_of_stages {base : ElemType} {ioStatus : IoStatus} {bidx : Int} {src : Sched}
    {srv api : Nat} {txn : TxnId} {t : TaskRef} {p : Progress} {home : Sched}
    {rest : Multiset Stage} (h : stagesOf t
      (SrvTask.token ⟨base, ioStatus, bidx, src, .api srv txn api t⟩).toList + rest =
      p.stages home) : txn = t.txn ∧ p = .waiting ∧ src = home ∧ rest = 0 := by
  have hstages : (stageFor (.inl txn) t (.waiting src)).2 ::ₘ rest = p.stages home := by
    rw [← h]
    simp [SrvTask.token, stagesOf_cons, stageFor]
  obtain ⟨-, howner, ha⟩ :=
    TxnSystem.stageFor_mem (u := t) (Prod.ext rfl rfl) (Progress.mem_of_cons hstages)
  exact ⟨Sum.inl.inj howner, Progress.of_waiting (ha ▸ hstages)⟩

/-- A job that a task waits for is not sent to a bio. -/
theorem bidx_of_stages {base : ElemType} {ioStatus : IoStatus} {bidx : Int} {src : Sched}
    {entity interval : Nat} {ud : JobData} {valid : Bool} {t : TaskRef} (htask : ud.task = some t)
    {p : Progress} {home : Sched} {rest : Multiset Stage} (h : stagesOf t
      (SrvTask.token ⟨base, ioStatus, bidx, src, .timer entity ud valid interval⟩).toList + rest =
      p.stages home) : bidx = 0 := by
  by_contra hne
  have hstray : Stage.stray ∈ p.stages home := by
    rw [← h]
    simp [SrvTask.token, htask, hne, stagesOf_cons]
  exact Progress.not_stray hstray

/-- What a task that is sent to its scheduler shows, before and after. -/
theorem point_after_launch {bioCnt : Nat} {x : Scheduled} {name : Nat}
    (hx : ∃ dst, Service.findTargetSched bioCnt x.task.src x.task.bidx = .ok dst ∧
      x.event = x.task.runEvent name dst) {t : TaskRef} {p : Progress} {home : Sched}
    {rest : Multiset Stage} (hstages : stagesOf t x.task.token.toList + rest = p.stages home) :
    ∃ p' : Progress, stagesOf t x.event.token.toList + rest = p'.stages home ∧
      p.Launched t p' (marksOf t (TxnSystem.markOf x).toList) := by
  obtain ⟨dst, hdst, hevent⟩ := hx
  obtain ⟨⟨base, ioStatus, bidx, src, data⟩, left, event⟩ := x
  simp only at hdst hevent
  subst hevent
  cases data with
  | api srv txn api t' =>
    by_cases ht : t' = t
    · -- the task was waiting, now it runs
      subst ht
      obtain ⟨howner, rfl, rfl, rfl⟩ := waiting_of_stages hstages
      refine ⟨.running, ?_, ?_, by simp, rfl, rfl⟩
      · simp [Event.token, SrvTask.runEvent, SrvTask.owner, stageFor, stagesOf_cons, howner,
          Progress.stages]
      · simp [Progress.marks, Progress.isScheduled, Progress.isReported, Progress.isDone,
          TxnSystem.markOf, marksOf_cons, Mark.task]
    · refine ⟨p, ?_, ?_⟩
      · simpa [SrvTask.token, Event.token, SrvTask.runEvent, stageFor, stagesOf_cons, ht]
          using hstages
      · have hms : marksOf t [Mark.scheduled t'] = 0 := by simp [marksOf_cons, Mark.task, ht]
        simp only [TxnSystem.markOf, Option.toList_some, hms]
        exact .refl t p
  | timer entity ud valid interval =>
    refine ⟨p, ?_, .refl t p⟩
    rw [← hstages]
    congr 1
    cases htask : ud.task with
    | none => simp [SrvTask.token, Event.token, SrvTask.runEvent, htask]
    | some t' =>
      by_cases ht : t' = t
      · -- a pending job is not sent to a bio
        subst ht
        have hbidx := bidx_of_stages htask hstages
        subst hbidx
        have hsrc : dst = src := by simpa [Service.findTargetSched, eq_comm] using hdst
        simp [SrvTask.token, Event.token, SrvTask.runEvent, htask, hsrc]
      · simp [SrvTask.token, Event.token, SrvTask.runEvent, htask, stagesOf_cons, ht]

/-- What a task that is turned away shows, before and after. -/
theorem point_after_busy {q : SrvTask} (name : Nat) {t : TaskRef} {p : Progress} {home : Sched}
    {rest : Multiset Stage} (hstages : stagesOf t q.token.toList + rest = p.stages home) :
    ∃ p' : Progress, TxnSystem.shows (q.busyEvent name) t + rest = p'.stages home ∧
      p.Launched t p' 0 := by
  obtain ⟨base, ioStatus, bidx, src, data⟩ := q
  -- the task is a call or that of a timer
  cases data with
  | api srv txn api t' =>
    by_cases ht : t' = t
    · -- the refusal is the answer to this call
      subst ht
      obtain ⟨howner, rfl, rfl, rfl⟩ := waiting_of_stages hstages
      refine ⟨.refused, ?_, rfl, by simp, rfl, rfl⟩
      simp [TxnSystem.shows, Event.token, SrvTask.busyEvent, SrvTask.owner, stageFor,
        stagesOf_cons, howner, Progress.stages]
    · -- the call is that of another task
      refine ⟨p, ?_, .refl t p⟩
      simpa [SrvTask.token, TxnSystem.shows, Event.token, SrvTask.busyEvent, stageFor,
        stagesOf_cons, ht] using hstages
  | timer entity ud valid interval =>
    refine ⟨p, ?_, .refl t p⟩
    rw [← hstages]
    congr 1
    -- a timer without a task, or with one
    cases htask : ud.task with
    | none => simp [SrvTask.token, TxnSystem.shows, Event.token, SrvTask.busyEvent, htask]
    | some t' =>
      by_cases ht : t' = t
      · subst ht
        have hbidx := bidx_of_stages htask hstages
        simp [SrvTask.token, TxnSystem.shows, Event.token, SrvTask.busyEvent, htask, hbidx]
      · simp [SrvTask.token, TxnSystem.shows, Event.token, SrvTask.busyEvent, htask,
          stagesOf_cons, ht]

/-- **A round** moves every task on by what was sent. -/
theorem points_after_launch {bioCnt name : Nat} {t : TaskRef} {home : Sched}
    {xs : List Scheduled} :
    ∀ {p : Progress} {rest : Multiset Stage},
      (∀ x ∈ xs, ∃ dst, Service.findTargetSched bioCnt x.task.src x.task.bidx = .ok dst ∧
        x.event = x.task.runEvent name dst) →
      stagesOf t ((xs.map Scheduled.task).filterMap SrvTask.token) + rest = p.stages home →
      ∃ p' : Progress, stagesOf t ((xs.map Scheduled.event).filterMap Event.token) + rest =
          p'.stages home ∧ p.Launched t p' (marksOf t (xs.filterMap TxnSystem.markOf)) := by
  induction xs with
  | nil => exact fun {p} _ _ hstages => ⟨p, hstages, .refl t p⟩
  | cons x xs ih =>
    intro p rest hxs hstages
    simp only [List.map_cons, stagesOf_filterMap_cons, add_assoc] at hstages ⊢
    obtain ⟨p₁, hstages₁, hl₁⟩ := point_after_launch (hxs x (by simp)) hstages
    rw [add_left_comm] at hstages₁
    obtain ⟨p₂, hstages₂, hl₂⟩ := ih (fun y hy => hxs y (List.mem_cons_of_mem x hy)) hstages₁
    refine ⟨p₂, by rw [add_left_comm, hstages₂], ?_⟩
    have hms : marksOf t ((x :: xs).filterMap TxnSystem.markOf) =
        marksOf t (TxnSystem.markOf x).toList + marksOf t (xs.filterMap TxnSystem.markOf) := by
      rw [← marksOf_append]
      cases hm : TxnSystem.markOf x <;> simp [hm]
    rw [hms]
    exact hl₁.trans hl₂

namespace TxnSystem

variable {s s' : TxnSystem} {bioCnt : Nat}

/-! ### The handlers of the master -/

/-- **A round of scheduling.** -/
theorem Inv.round (h : s.Inv) {k : Nat} {svc svc' : Service} {xs : List Scheduled}
    (hk : s.services[k]? = some svc) (hc : svc.Conserves bioCnt xs svc') :
    (s.afterRound k (xs, svc')).Inv := by
  have hkept : Kept s (s.afterRound k (xs, svc')) := .of_txns rfl
  -- a round tells no caller anything
  have hevent : ∀ e ∈ xs.map Scheduled.event, e.noticeOf = none ∧ e.side = none := by
    intro e he
    obtain ⟨x, hx, rfl⟩ := List.mem_map.mp he
    obtain ⟨dst, -, hevent⟩ := hc.event x hx
    rw [hevent]
    cases hd : x.task.data <;> simp [SrvTask.runEvent, hd, Event.noticeOf, Event.side]
  refine ⟨fun t => ?_, hkept.sound h.sound,
    order_append h.order fun e he => (hevent e he).1, fun e he => ?_⟩
  · obtain ⟨p, hp⟩ := h.accounts t
    obtain ⟨rest, hbefore, hafter⟩ := stages_service hk t
    -- what the queue held is what was scheduled and what it holds now
    have hqueue : stagesOf t (queueTokens svc) =
        stagesOf t ((xs.map Scheduled.task).filterMap SrvTask.token) +
          stagesOf t (queueTokens svc') := by
      rw [queueTokens, stagesOf_perm (hc.queued.filterMap _), List.filterMap_append,
        stagesOf_append]
      rfl
    have hbefore' : stagesOf t ((xs.map Scheduled.task).filterMap SrvTask.token) +
        (stagesOf t (queueTokens svc') + rest) = p.stages (s.home t.txn) := by
      rw [← add_assoc, ← hqueue, ← hbefore, hp.stages]
    -- the progress of the task: from waiting to running
    obtain ⟨p', hstages, hl⟩ := points_after_launch hc.event hbefore'
    refine ⟨p', ?_, ?_, ?_⟩
    · rw [hkept.home, ← hstages, ← hafter svc', add_comm]
      exact stages_sent { s with services := s.services.set k svc' } _ t
    · rw [afterRound, marksOf_append, hp.marks, hl.marks]
    · exact hl.matches_entry hp.entry
  · rcases List.mem_append.mp he with he | he
    · exact hkept.addressed (h.addressed e he)
    · exact addressed_of_side (hevent e he).2

/-- **A task is offered** to a service: `e` is the message that carried it. -/
theorem Inv.offer (h : s.Inv) {i : Nat} {e : Event} (hi : s.net[i]? = some e) {k : Nat}
    {svc : Service} (hk : s.services[k]? = some svc) {q : SrvTask} (htok : e.token = q.token)
    {r : (SrvTask × (Event ⊕ List Scheduled)) × Service} (ho : svc.Offered bioCnt q r) :
    (afterOffer k { s with net := s.net.eraseIdx i } r).Inv := by
  have horder : (s.net.eraseIdx i).Pairwise Event.Before :=
    h.order.sublist (List.eraseIdx_sublist _ _)
  have haddr : ∀ b ∈ s.net.eraseIdx i, s.Addressed b := fun b hb =>
    h.addressed b (mem_of_mem_take hb)
  set s₀ : TxnSystem := { s with net := s.net.eraseIdx i } with hs₀
  have htake : ∀ t, s.stages t = stagesOf t q.token.toList + s₀.stages t := fun t => by
    rw [stages_take hi t, shows, htok]
  -- the queue of the service, before and after
  have hsvc : ∀ (svc' : Service) (l : List SrvTask), svc'.queued.Perm (svc.queued ++ l) → ∀ t,
      ({ s₀ with services := s.services.set k svc' } : TxnSystem).stages t =
        s₀.stages t + stagesOf t (l.filterMap SrvTask.token) := by
    intro svc' l hperm t
    obtain ⟨rest, hbefore, hafter⟩ := stages_service (s := s₀) hk t
    have hset := hafter svc'
    rw [hset, hbefore, queueTokens, stagesOf_perm (hperm.filterMap _), List.filterMap_append,
      stagesOf_append, ← queueTokens]
    abel
  cases ho with
  | @busy svc' hqueued hname hapis =>
    have hkept : Kept s (afterOffer k s₀ ((q, .inl (q.busyEvent svc.name)), svc')) :=
      .of_txns rfl
    have hstages₀ := hsvc svc' [] (by simpa using hqueued)
    have hquiet : (q.busyEvent svc.name).noticeOf = none ∧ (q.busyEvent svc.name).side = none := by
      cases hd : q.data <;> simp [SrvTask.busyEvent, hd, Event.noticeOf, Event.side]
    refine ⟨fun t => ?_, hkept.sound h.sound, order_append horder ?_, fun b hb => ?_⟩
    · obtain ⟨p, hp⟩ := h.accounts t
      obtain ⟨p', hstages, hl⟩ := point_after_busy svc.name (htake t ▸ hp.stages)
      refine ⟨p', ?_, ?_, hl.matches_entry hp.entry⟩
      · rw [hkept.home, ← hstages, add_comm]
        refine (stages_send _ _ t).trans ?_
        rw [hstages₀ t]
        simp
      · rw [hl.marks, add_zero, ← hp.marks]
        rfl
    · intro b hb
      rw [List.mem_singleton.mp hb]
      exact hquiet.1
    · rcases List.mem_append.mp hb with hb | hb
      · exact hkept.addressed (haddr b hb)
      · rw [List.mem_singleton.mp hb]
        exact addressed_of_side hquiet.2
  | @queued svc₁ svc' xs hqueued hname hapis hround =>
    -- first the task is queued, then the round runs
    have hlt := (List.getElem?_eq_some_iff.mp hk).1
    have h₁ : Inv { s₀ with services := s.services.set k svc₁ } := by
      refine h.same rfl (fun t => ?_) (fun _ => rfl) horder haddr
      rw [hsvc svc₁ [q] hqueued t, htake t, add_comm]
      cases hq : q.token <;> simp [hq]
    have h₂ := h₁.round (List.getElem?_set_self hlt) hround
    simpa [afterRound, afterOffer, List.set_set] using h₂

/-! ### Every step -/

/-- What runs on a service. -/
theorem onService_ok {k : Nat} {β : Type} {f : Service → Except SrvFault β}
    {after : TxnSystem → β → TxnSystem} (h : s.onService k f after = .ok s') :
    ∃ svc r, s.services[k]? = some svc ∧ f svc = .ok r ∧ s' = after s r := by
  unfold onService at h
  cases hsvc : s.services[k]? with
  | none => simp [hsvc] at h
  | some svc =>
    cases hf : f svc with
    | error fault => simp [hsvc, hf] at h
    | ok r => exact ⟨svc, r, rfl, hf, by simpa [hsvc, hf, eq_comm] using h⟩

/-- **A message is handled.** -/
theorem Inv.handle (h : s.Inv) {i : Nat} {e : Event} (hi : s.net[i]? = some e)
    (hfirst : ∀ e' ∈ s.net.take i, e'.key ≠ e.key) {code : UserCode}
    (hx : ({ s with net := s.net.eraseIdx i } : TxnSystem).handle bioCnt e code = .ok s') :
    s'.Inv := by
  have hdrop := h.drop hi
  unfold TxnSystem.handle at hx
  cases hpto : e.pto with
  | workflowRun =>
    simp only [hpto] at hx
    -- the four handlers off the master have lemmas of their own
    exact h.workflowRun hi hpto hx
  | svcTaskCb t service api status done =>
    simp only [hpto] at hx
    exact h.taskCb hi hfirst hpto hx
  | svcTaskRun service api io caller t =>
    simp only [hpto] at hx
    exact h.taskRun hi hpto hx
  | svcTimerRun service ud valid status interval =>
    simp only [hpto] at hx
    exact h.timerRun hi hpto hx
  | svcIocall service api bidx t =>
    simp only [hpto] at hx
    cases howner : e.owner with
    | inr entity => simp [howner] at hx
    | inl x =>
      simp only [howner] at hx
      obtain ⟨svc, r, hsvc, hr, rfl⟩ := onService_ok hx
      obtain ⟨type, ho⟩ := Service.svcIocall_conserves hr
      -- the task in the queue is the token that the message was
      refine h.offer hi hsvc ?_ ho
      rw [Event.token, hpto]
      simp only [howner]
      rfl
  | timerEmit service ud valid bidx type interval =>
    simp only [hpto] at hx
    cases howner : e.owner with
    | inl x => simp [howner] at hx
    | inr entity =>
      simp only [howner] at hx
      obtain ⟨svc, r, hsvc, hr, rfl⟩ := onService_ok hx
      refine h.offer hi hsvc ?_ (Service.timerEmit_conserves hr)
      rw [Event.token, hpto]
      rfl
  | svcTaskDone service resumeWf done =>
    simp only [hpto] at hx
    obtain ⟨svc, ⟨xs, svc'⟩, hsvc, hr, rfl⟩ := onService_ok hx
    refine Inv.round ?_ hsvc (Service.svcTaskDone_conserves hr)
    -- the report is no token: dropping it changes no account
    have hd := hdrop (by rw [Event.token, hpto])
    cases resumeWf with
    | false => exact hd
    | true =>
      -- the workflow is resumed at the home of the transaction
      refine hd.send rfl fun c hc => ?_
      exact h.addressed e (List.mem_of_getElem? hi) c (by rw [Event.side, hpto]; exact hc)
  | svcTimerDone service status interval =>
    simp only [hpto] at hx
    obtain ⟨svc, ⟨xs, svc'⟩, hsvc, hr, rfl⟩ := onService_ok hx
    exact (hdrop (by rw [Event.token, hpto])).round hsvc (Service.svcTimerDone_conserves hr)

/-- **A transaction is made.** -/
theorem Inv.create (h : s.Inv) (workflow : Workflow) (home : Sched) (now : Int)
    (immediate : Bool) : Inv { s with
      txns := s.txns ++ [⟨newTxn workflow now immediate, home, false, false⟩] } := by
  set slot : TxnSlot := ⟨newTxn workflow now immediate, home, false, false⟩ with hslot
  have hold : ∀ x < s.txns.length, (s.txns ++ [slot])[x]? = s.txns[x]? := fun x hx =>
    List.getElem?_append_left hx
  have hnew : ∀ x slot', s.txns.length ≤ x → (s.txns ++ [slot])[x]? = some slot' →
      slot' = slot := by
    intro x slot' hx hs
    rw [List.getElem?_append_right hx, List.getElem?_singleton] at hs
    split at hs
    · exact (Option.some.inj hs).symm
    · exact absurd hs (by simp)
  refine ⟨fun t => ?_, fun x slot' hs => ?_, h.order, fun e he => ?_⟩
  · obtain ⟨p, hp⟩ := h.accounts t
    by_cases ht : t.txn < s.txns.length
    · refine ⟨p, hp.same ⟨rfl, rfl, ?_, ?_⟩⟩
      · simp only [TxnSystem.entry, hold _ ht]
      · simp only [TxnSystem.home, hold _ ht]
    · -- there are no tasks of it yet
      have hnone : s.entry t = none := by
        simp [TxnSystem.entry, List.getElem?_eq_none (Nat.not_lt.mp ht)]
      obtain rfl := hp.entry.absent.mpr hnone
      refine ⟨.absent, hp.stages, hp.marks, ?_⟩
      have hnone' : ({ s with txns := s.txns ++ [slot] } : TxnSystem).entry t = none := by
        unfold TxnSystem.entry
        cases hs : (s.txns ++ [slot])[t.txn]? with
        | none => rfl
        | some slot' =>
          rw [hnew _ slot' (Nat.not_lt.mp ht) hs]
          rfl
      rw [hnone', ← hnone]
      exact hp.entry
  · by_cases hx : x < s.txns.length
    · exact h.sound x slot' ((hold x hx).symm.trans hs)
    · rw [hnew x slot' (Nat.not_lt.mp hx) hs]
      exact ⟨(Txn.create_counts workflow now).congr rfl rfl rfl rfl, by simp [hslot]⟩
  · refine (h.addressed e he).congr (by simp) fun x hx => ?_
    simp only [TxnSystem.home, hold x hx]

/-- **A transaction is delivered.** -/
theorem Inv.deliver (h : s.Inv) {x : TxnId} {slot : TxnSlot} (hslot : s.txns[x]? = some slot)
    (src : Sched) : (({ s with
      txns := s.txns.modify x fun slot => { slot with delivered := true } } : TxnSystem).send
        ⟨src, slot.home, .inl x, .workflowRun⟩).Inv := by
  set s₁ : TxnSystem := { s with
    txns := s.txns.modify x fun slot => { slot with delivered := true } } with hs₁
  -- only the mark of the transaction changes
  have htxns : ∀ y, s₁.txns[y]? =
      if y = x then some { slot with delivered := true } else s.txns[y]? := by
    intro y
    by_cases hy : y = x
    · subst hy
      simp [hs₁, hslot]
    · rw [if_neg hy]
      exact List.getElem?_modify_ne _ _ fun he => hy he.symm
  have hhome : ∀ y, s₁.home y = s.home y := by
    intro y
    rw [TxnSystem.home, htxns, TxnSystem.home]
    split
    · rename_i hy
      rw [hy, hslot]
      rfl
    · rfl
  have hkept : Kept s s₁ := by
    refine ⟨by simp [hs₁], hhome, fun hc y slot' hs => ?_⟩
    rw [htxns] at hs
    split at hs
    · rw [← Option.some.inj hs]
      exact ⟨(hc x slot hslot).counts, (hc x slot hslot).released⟩
    · exact hc y slot' hs
  -- being delivered changes no task; then the message is sent
  have h₁ : s₁.Inv := by
    refine ⟨fun t => ?_, hkept.sound h.sound, h.order, fun e he =>
      hkept.addressed (h.addressed e he)⟩
    obtain ⟨p, hp⟩ := h.accounts t
    refine ⟨p, hp.same ⟨rfl, rfl, ?_, hhome _⟩⟩
    rw [TxnSystem.entry, htxns]
    split
    · rename_i hy
      rw [TxnSystem.entry, hy, hslot]
      rfl
    · rfl
  -- the message is sent to the home of the transaction
  refine h₁.send rfl fun c hc => ⟨x, rfl, ?_, ?_⟩
  · rw [hkept.length]
    exact (List.getElem?_eq_some_iff.mp hslot).1
  · rw [hhome, home_eq hslot]
    exact (Option.some.inj hc).symm

/-- **Every step keeps the account.** -/
theorem exec_inv (h : s.Inv) {a : TxnAction} (he : s.enabled bioCnt a)
    (hx : s.exec bioCnt a = .ok s') : s'.Inv := by
  cases a with
  | create workflow home now immediate =>
    exact Except.ok.inj hx ▸ h.create workflow home now immediate
  | deliver x src =>
    obtain ⟨slot, hslot, -⟩ := he
    rw [Option.mem_def] at hslot
    simp only [exec, hslot] at hx
    exact Except.ok.inj hx ▸ h.deliver hslot src
  | handle i code =>
    obtain ⟨e, hi, hfirst⟩ := he
    rw [Option.mem_def] at hi
    simp only [exec, hi] at hx
    exact h.handle hi hfirst hx
  | epCb i calls =>
    obtain ⟨c, hi, hep⟩ := he
    rw [Option.mem_def] at hi
    simp only [exec, hi] at hx
    exact h.epCb hi hep hx
  | jobTriggered i =>
    obtain ⟨c, hi, hjob⟩ := he
    rw [Option.mem_def] at hi
    obtain ⟨ud, hud⟩ := Option.isSome_iff_exists.mp hjob
    simp only [exec, hi, hud] at hx
    exact Except.ok.inj hx ▸ h.jobTriggered hi hud
  | npTriggered src service entity id rw bidx interval =>
    exact Except.ok.inj hx ▸ h.send rfl (addressed_of_side rfl)

/-- At first nothing is there. -/
theorem init_inv (h : Init s) : s.Inv := by
  obtain ⟨hsvc, htxns, hnet, hcalls, hlog⟩ := h
  have hqueued : s.services.flatMap queueTokens = [] := by
    refine List.flatMap_eq_nil_iff.mpr fun svc hmem => ?_
    obtain ⟨k, hk⟩ := List.mem_iff_getElem?.mp hmem
    obtain ⟨preferRead, maxQsize, apis, hmax, hcreate⟩ := hsvc k svc hk
    obtain ⟨-, hq, -⟩ : svc.Inv 0 .free ∧ svc.queued = [] ∧ svc.pendingTasks.Blocked :=
      Service.create_spec hmax hcreate
    simp [queueTokens, hq]
  refine ⟨fun t => ⟨.absent, ?_, ?_, ?_⟩, ?_, ?_, ?_⟩
  · simp [TxnSystem.stages, tokens, hnet, hcalls, hqueued, Progress.stages]
  · simp [hlog, Progress.marks, Progress.isScheduled, Progress.isReported, Progress.isDone]
  · simp only [TxnSystem.entry, htxns]
    exact ⟨by simp, by simp, by simp⟩
  · simp [htxns]
  · simp [hnet]
  · simp [hnet]

/-- **The run lemma.** Every state a run reaches has the invariant. -/
theorem reach_inv {C : TxnSystem → TxnAction → Prop} (h : (machine bioCnt).Reach C s) : s.Inv :=
  h.invariant (I := Inv) (fun _ hs => init_inv hs) fun _ _ _ hs he _ hx => exec_inv hs he hx

end TxnSystem

end Skull
