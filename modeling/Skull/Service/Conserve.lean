import Skull.Service.Schedule
import Skull.Lib.Machine

namespace Skull

open Machines

/-!
# What a service conserves

Whatever state a service is in, a handler of the master that does not abort loses no task: every
task that was queued or offered is queued after it, was sent to a scheduler, or was turned away.

* `Queue.pull_one_perm`, `Queue.push_perm` — the queue;
* `Service.Conserves` — a round of scheduling;
* `Service.Offered` — a task offered to the service.

Unlike the specifications in `Skull.Service.Schedule` these facts need no invariant, so the rest
of the system can use them without knowing the lock.
-/

/-! ### The queue -/

variable {α : Type} [QueueElem α]

/-- A pull takes elements off the front, at most as many as there are slots. -/
theorem Fmbuf.queuePull_append (type : Option ElemType) (elemSz base : Nat) :
    ∀ (slots pulledCnt : Nat) (mq : Fmbuf α),
      (mq.queuePull type elemSz base slots pulledCnt).1.map Prod.snd ++
          (mq.queuePull type elemSz base slots pulledCnt).2.elems = mq.elems ∧
        (mq.queuePull type elemSz base slots pulledCnt).1.length ≤ slots := by
  intro slots
  induction slots with
  | zero => intro pulledCnt mq; simp [queuePull]
  | succ slots ih =>
    intro pulledCnt mq
    obtain ⟨size, elems⟩ := mq
    cases elems with
    | nil => simp [queuePull]
    | cons x rest =>
      obtain ⟨happ, hlen⟩ := ih (pulledCnt + 1) ⟨size, rest⟩
      by_cases hx : type.all (· = elemType x) = true
      · simp only [queuePull, hx, if_true, List.map_cons, List.cons_append, happ,
          List.length_cons, true_and]
        omega
      · simp only [queuePull, hx]
        simp

namespace Queue

omit [QueueElem α] in
/-- In exclusive mode the front element is pulled, or nothing. -/
theorem pullExclusive_perm (state : QueueState) (mq : Fmbuf α) :
    (pullExclusive state mq).1.map Prod.snd ++ (pullExclusive state mq).2.elems = mq.elems ∧
      (pullExclusive state mq).1.length ≤ 1 := by
  obtain ⟨size, elems⟩ := mq
  by_cases hlock : state = .lock
  · simp [pullExclusive, hlock]
  · cases elems <;> simp [pullExclusive, hlock]

/-- The rw-pw queue loses what is pulled, and nothing else. -/
theorem pullRwPw_perm {state : QueueState} {elemSz slots : Nat} {mq mq' : Fmbuf α}
    {pulled : List (Nat × α)} (hslots : slots ≤ 1)
    (h : pullRwPw state elemSz slots mq = .ok (pulled, mq')) :
    pulled.map Prod.snd ++ mq'.elems = mq.elems ∧ pulled.length ≤ 1 := by
  cases state <;> simp only [pullRwPw, reduceCtorEq] at h
  case idle =>
    -- an idle queue pulls one element, whatever it is, and then only reads
    have hone := Fmbuf.queuePull_append none elemSz 0 1 0 mq
    cases hr : mq.queuePull none elemSz 0 1 0 with
    | mk first rest =>
      rw [hr] at h hone
      obtain ⟨happ, hlen⟩ := hone
      cases first with
      | nil =>
        simp only [Except.ok.injEq, Prod.mk.injEq] at h
        obtain ⟨rfl, rfl⟩ := h
        exact ⟨happ, hlen⟩
      | cons x xs =>
        have hxs : xs = [] := List.length_eq_zero_iff.mp (by simpa using hlen)
        subst hxs
        have hfirst : pulled = [x] ∧ mq' = rest := by
          simp only at h
          by_cases h1 : slots = 1
          · simpa [h1, eq_comm] using h
          · by_cases h2 : elemType x.2 = .write
            · simpa [h1, h2, eq_comm] using h
            · by_cases h3 : elemType x.2 = .read
              · -- with at most one slot nothing more is pulled
                have hzero : slots - 1 = 0 := by omega
                simpa [h1, h3, hzero, Fmbuf.queuePull, eq_comm] using h
              · simp [h1, h2, h3] at h
        rw [hfirst.1, hfirst.2]
        exact ⟨happ, hlen⟩
  case read =>
    obtain ⟨happ, hlen⟩ := Fmbuf.queuePull_append (some .read) elemSz 0 slots 0 mq
    simp only [Except.ok.injEq] at h
    rw [h] at happ hlen
    exact ⟨happ, hlen.trans hslots⟩
  case write =>
    simp only [Except.ok.injEq, Prod.mk.injEq] at h
    obtain ⟨rfl, rfl⟩ := h
    simp

/-- So does the rw-pr queue. -/
theorem pullRwPr_perm {state : QueueState} {elemSz slots : Nat} {rmq wmq rmq' wmq' : Fmbuf α}
    {pulled : List (Nat × α)} (hslots : slots ≤ 1)
    (h : pullRwPr state elemSz slots rmq wmq = .ok (pulled, rmq', wmq')) :
    (pulled.map Prod.snd ++ (rmq'.elems ++ wmq'.elems)).Perm (rmq.elems ++ wmq.elems) ∧
      pulled.length ≤ 1 := by
  have hreads := Fmbuf.queuePull_append (some .read) elemSz 0 slots 0 rmq
  cases hr : rmq.queuePull (some .read) elemSz 0 slots 0 with
  | mk reads rest =>
    rw [hr] at hreads
    obtain ⟨happ, hlen⟩ := hreads
    have hdone : pulled = reads → rmq' = rest → wmq' = wmq →
        (pulled.map Prod.snd ++ (rmq'.elems ++ wmq'.elems)).Perm (rmq.elems ++ wmq.elems) ∧
          pulled.length ≤ 1 := by
      rintro rfl rfl rfl
      rw [← List.append_assoc, happ]
      exact ⟨.refl _, hlen.trans hslots⟩
    cases state <;> simp only [pullRwPr, hr, reduceCtorEq] at h
    case idle =>
      cases reads with
      | nil =>
        -- without a read the queue of the writes is asked for one
        have hwrites := Fmbuf.queuePull_append (some .write) elemSz 0 1 0 wmq
        cases hw : wmq.queuePull (some .write) elemSz 0 1 0 with
        | mk writes wrest =>
          rw [hw] at hwrites
          simp only [hw, Except.ok.injEq, Prod.mk.injEq] at h
          obtain ⟨rfl, rfl, rfl⟩ := h
          refine ⟨?_, hwrites.2⟩
          simp only [List.map_nil, List.nil_append] at happ
          rw [happ, ← hwrites.1, ← List.append_assoc, ← List.append_assoc]
          exact List.perm_append_comm.append_right _
      | cons x xs =>
        simp only [Except.ok.injEq, Prod.mk.injEq] at h
        exact hdone h.1.symm h.2.1.symm h.2.2.symm
    case read =>
      simp only [Except.ok.injEq, Prod.mk.injEq] at h
      exact hdone h.1.symm h.2.1.symm h.2.2.symm
    case write =>
      simp only [Except.ok.injEq, Prod.mk.injEq] at h
      obtain ⟨rfl, rfl, rfl⟩ := h
      simp

/-- **A pull with one slot** keeps the elements, and pulls at most one. -/
theorem pull_one_perm {q q' : Queue α} {pulled : List (Nat × α)}
    (h : q.pull 1 = .ok (pulled, q')) :
    (pulled.map Prod.snd ++ q'.data.elems).Perm q.data.elems ∧ pulled.length ≤ 1 := by
  obtain ⟨state, elemSz, maxSlots, data⟩ := q
  have hslots : (if 1 > maxSlots then maxSlots else 1) ≤ 1 := by split <;> omega
  cases data with
  | exclusive mq =>
    obtain ⟨happ, hlen⟩ := pullExclusive_perm state mq
    simp only [Queue.pull, Nat.one_ne_zero, if_false, Except.ok.injEq, Prod.mk.injEq] at h
    obtain ⟨rfl, rfl⟩ := h
    exact ⟨by rw [QueueData.elems, happ, QueueData.elems], hlen⟩
  | rwPw mq =>
    simp only [Queue.pull, Nat.one_ne_zero, if_false] at h
    obtain ⟨⟨xs, mq'⟩, hp, heq⟩ := except_map_ok.mp h
    simp only [Prod.mk.injEq] at heq
    obtain ⟨rfl, rfl⟩ := heq
    obtain ⟨happ, hlen⟩ := pullRwPw_perm hslots hp
    exact ⟨by rw [QueueData.elems, happ, QueueData.elems], hlen⟩
  | rwPr rmq wmq =>
    simp only [Queue.pull, Nat.one_ne_zero, if_false] at h
    obtain ⟨⟨xs, rmq', wmq'⟩, hp, heq⟩ := except_map_ok.mp h
    simp only [Prod.mk.injEq] at heq
    obtain ⟨rfl, rfl⟩ := heq
    exact pullRwPr_perm hslots hp

end Queue

omit [QueueElem α] in
/-- A push that is refused leaves the elements alone, another one adds the element. -/
theorem Fmbuf.queuePush_elems {mq mq' : Fmbuf α} {maxSlots elemSz : Nat} {x : α} {full : Bool}
    (h : mq.queuePush maxSlots elemSz x = .ok (full, mq')) :
    mq'.elems = mq.elems ++ if full then [] else [x] := by
  have hpush : ∀ m m' : Fmbuf α, m.push elemSz x = some m' → m'.elems = m.elems ++ [x] := by
    intro m m' hm
    unfold push at hm
    split at hm
    · rw [← Option.some.inj hm]
    · exact absurd hm (by simp)
  unfold queuePush at h
  -- there is room at once
  cases hp : mq.push elemSz x with
  | some m =>
    simp only [hp, Except.ok.injEq, Prod.mk.injEq] at h
    obtain ⟨rfl, rfl⟩ := h
    simpa using hpush mq m hp
  -- the buffer grows first, or is full
  | none =>
    simp only [hp] at h
    cases hn : mq.newSize 1 maxSlots elemSz with
    | error f => simp [hn] at h
    | ok newSz =>
      simp only [hn] at h
      split at h
      · simp only [Except.ok.injEq, Prod.mk.injEq] at h
        obtain ⟨rfl, rfl⟩ := h
        simp
      · cases hr : (mq.realloc newSz).push elemSz x with
        | none => simp [hr] at h
        | some m =>
          simp only [hr, Except.ok.injEq, Prod.mk.injEq] at h
          obtain ⟨rfl, rfl⟩ := h
          simpa [realloc] using hpush (mq.realloc newSz) m hr

/-- The same for the whole queue. -/
theorem Queue.push_perm {q q' : Queue α} {x : α} {full : Bool} (h : q.push x = .ok (full, q')) :
    q'.data.elems.Perm (q.data.elems ++ if full then [] else [x]) := by
  obtain ⟨state, elemSz, maxSlots, data⟩ := q
  -- in each mode one buffer gets the element, unless it is full
  have hone : ∀ {mq : Fmbuf α} (mk : Fmbuf α → QueueData α),
      (mq.queuePush maxSlots elemSz x).map
        (fun r => (r.1, (⟨state, elemSz, maxSlots, mk r.2⟩ : Queue α))) = .ok (full, q') →
      ∃ mq', q'.data = mk mq' ∧ mq'.elems = mq.elems ++ if full then [] else [x] := by
    intro mq mk hm
    obtain ⟨⟨ret, mq'⟩, hp, heq⟩ := except_map_ok.mp hm
    simp only [Prod.mk.injEq] at heq
    obtain ⟨rfl, rfl⟩ := heq
    exact ⟨mq', rfl, Fmbuf.queuePush_elems hp⟩
  cases data with
  | exclusive mq =>
    simp only [Queue.push] at h
    split at h
    · exact absurd h (by simp)
    · obtain ⟨mq', hd, he⟩ := hone _ h
      rw [hd, QueueData.elems, he, QueueData.elems]
  | rwPw mq =>
    simp only [Queue.push] at h
    split at h
    · exact absurd h (by simp)
    · obtain ⟨mq', hd, he⟩ := hone _ h
      rw [hd, QueueData.elems, he, QueueData.elems]
  | rwPr rmq wmq =>
    simp only [Queue.push] at h
    split at h
    · exact absurd h (by simp)
    · split at h
      · obtain ⟨mq', hd, he⟩ := hone (fun m => .rwPr m wmq) h
        rw [hd, QueueData.elems, he, QueueData.elems, List.append_assoc, List.append_assoc]
        exact List.Perm.append_left _ List.perm_append_comm
      · obtain ⟨mq', hd, he⟩ := hone (fun m => .rwPr rmq m) h
        rw [hd, QueueData.elems, he, QueueData.elems, List.append_assoc]

/-! ### A round of scheduling -/

namespace Service

variable {bioCnt : Nat}

/-- The service `s` sent the tasks of `xs` to their targets and became `s'`; no task is lost. -/
structure Conserves (bioCnt : Nat) (s : Service) (xs : List Scheduled) (s' : Service) : Prop where
  queued : s.queued.Perm (xs.map Scheduled.task ++ s'.queued)
  name : s'.name = s.name
  apis : s'.apis = s.apis
  event : ∀ x ∈ xs, ∃ dst, findTargetSched bioCnt x.task.src x.task.bidx = .ok dst ∧
    x.event = x.task.runEvent s.name dst

/-- One task is scheduled, and others after it. -/
theorem Conserves.cons {s s₁ s' : Service} {x : Scheduled} {xs : List Scheduled}
    (h : Conserves bioCnt s [x] s₁) (hxs : Conserves bioCnt s₁ xs s') :
    Conserves bioCnt s (x :: xs) s' where
  queued := by
    refine h.queued.trans ?_
    simpa using hxs.queued
  name := hxs.name.trans h.name
  apis := hxs.apis.trans h.apis
  event y hy := by
    rcases List.mem_cons.mp hy with rfl | hy
    · exact h.event y (by simp)
    · rw [← h.name]
      exact hxs.event y hy

/-- A task that is popped was queued. -/
theorem popTask_conserves {s s' : Service} {status : SrvStatus} {o : Option SrvTask}
    (h : s.popTask = .ok (status, o, s')) :
    s.queued.Perm (o.toList ++ s'.queued) ∧ s'.name = s.name ∧ s'.apis = s.apis := by
  unfold popTask at h
  by_cases hempty : s.pendingTasks.empty = true
  · simp only [hempty, if_true, Except.ok.injEq, Prod.mk.injEq] at h
    obtain ⟨-, rfl, rfl⟩ := h
    exact ⟨.refl _, rfl, rfl⟩
  · simp only [hempty, if_false, Bool.false_eq_true] at h
    cases hpull : s.pendingTasks.pull 1 with
    | error f => simp [hpull] at h
    | ok r =>
      obtain ⟨pulled, q⟩ := r
      obtain ⟨hperm, hlen⟩ := Queue.pull_one_perm hpull
      cases pulled with
      | nil =>
        simp only [hpull, Except.ok.injEq, Prod.mk.injEq] at h
        obtain ⟨-, rfl, rfl⟩ := h
        exact ⟨hperm.symm, rfl, rfl⟩
      | cons p ps =>
        have hps : ps = [] := List.length_eq_zero_iff.mp (by simpa using hlen)
        subst hps
        simp only [hpull, Except.ok.injEq, Prod.mk.injEq] at h
        obtain ⟨-, rfl, rfl⟩ := h
        exact ⟨hperm.symm, rfl, rfl⟩

/-- A task that is scheduled with status OK is sent to its target. -/
theorem scheduleTask_event {s s' : Service} {t : SrvTask} {e : Event} (ht : t.ioStatus = .ok)
    (h : s.scheduleTask bioCnt t = .ok (s', e)) :
    (∃ dst, findTargetSched bioCnt t.src t.bidx = .ok dst ∧ e = t.runEvent s.name dst) ∧
      s' = { s with runningTaskCnt := s.runningTaskCnt + 1 } := by
  obtain ⟨base, ioStatus, bidx, src, data⟩ := t
  simp only at ht
  subst ht
  cases data <;>
    simp only [scheduleTask, scheduleNormaltask, scheduleApiTask, scheduleTimerTask,
      if_true, except_map_ok, Prod.mk.injEq] at h <;>
    obtain ⟨e', ⟨dst, hdst, rfl⟩, rfl, rfl⟩ := h <;>
    exact ⟨⟨dst, hdst, rfl⟩, rfl⟩

/-- **One turn** of the loop. -/
theorem scheduleTurn_conserves {s s' : Service} {o : Option Scheduled}
    (h : s.scheduleTurn bioCnt = .ok (o, s')) : Conserves bioCnt s o.toList s' := by
  unfold scheduleTurn at h
  cases hpop : s.popTask with
  | error f => simp [hpop] at h
  | ok r =>
    obtain ⟨status, task, s₁⟩ := r
    obtain ⟨hq, hname, hapis⟩ := popTask_conserves hpop
    cases task with
    | none =>
      simp only [hpop, Except.ok.injEq, Prod.mk.injEq] at h
      obtain ⟨rfl, rfl⟩ := h
      exact ⟨hq, hname, hapis, by simp⟩
    | some task =>
      simp only [hpop] at h
      -- the checks of the source: each failure aborts the round
      cases hstate : newState task.base s₁.pendingTasks.state with
      | error f => simp [hstate] at h
      | ok state =>
        simp only [hstate] at h
        cases hset : s₁.pendingTasks.setState state with
        | error f => simp [hset] at h
        | ok q =>
          simp only [hset] at h
          cases hexc : handleException status with
          | error f => simp [hexc] at h
          | ok u =>
            simp only [hexc] at h
            by_cases hio : task.ioStatus = .ok
            · simp only [hio, ne_eq, not_true_eq_false, if_false] at h
              cases hsch : ({ s₁ with pendingTasks := q } : Service).scheduleTask bioCnt task with
              | error f => simp [hsch] at h
              | ok r =>
                obtain ⟨s₂, e⟩ := r
                obtain ⟨⟨dst, hdst, rfl⟩, rfl⟩ := scheduleTask_event hio hsch
                simp only [hsch, Except.ok.injEq, Prod.mk.injEq] at h
                obtain ⟨rfl, rfl⟩ := h
                -- the new state of the queue does not touch what is in it
                have hqd : q.data = s₁.pendingTasks.data := by
                  unfold Queue.setState at hset
                  split at hset <;> split at hset <;>
                    simp only [Except.ok.injEq, reduceCtorEq] at hset <;> rw [← hset]
                refine ⟨?_, hname, hapis, ?_⟩
                · simpa [queued, hqd] using hq
                · intro x hx
                  simp only [Option.toList_some, List.mem_singleton] at hx
                  subst hx
                  exact ⟨dst, hdst, by rw [← hname]⟩
            · simp [hio] at h

/-- **A round** of scheduling. -/
theorem scheduleLoop_conserves (turns : Nat) : ∀ {s s' : Service} {xs : List Scheduled},
    scheduleLoop bioCnt turns s = .ok (xs, s') → Conserves bioCnt s xs s' := by
  induction turns with
  | zero =>
    intro s s' xs h
    simp only [scheduleLoop, Except.ok.injEq, Prod.mk.injEq] at h
    obtain ⟨rfl, rfl⟩ := h
    exact ⟨.refl _, rfl, rfl, by simp⟩
  | succ turns ih =>
    intro s s' xs h
    unfold scheduleLoop at h
    cases hturn : s.scheduleTurn bioCnt with
    | error f => simp [hturn] at h
    | ok r =>
      obtain ⟨o, s₁⟩ := r
      have hone := scheduleTurn_conserves hturn
      cases o with
      -- a turn that schedules nothing is the last one
      | none =>
        simp only [hturn, Except.ok.injEq, Prod.mk.injEq] at h
        obtain ⟨rfl, rfl⟩ := h
        exact hone
      -- a turn that schedules is followed by the others
      | some x =>
        simp only [hturn] at h
        obtain ⟨⟨ys, s₂⟩, hloop, heq⟩ := except_map_ok.mp h
        simp only [Prod.mk.injEq] at heq
        obtain ⟨rfl, rfl⟩ := heq
        exact hone.cons (ih hloop)

/-- Completing a task leaves the queued tasks alone. -/
theorem taskSetcomplete_conserves {s s' : Service} (h : s.taskSetcomplete = .ok s') :
    s'.queued = s.queued ∧ s'.name = s.name ∧ s'.apis = s.apis := by
  by_cases hcnt : s.runningTaskCnt = 1
  · rw [taskSetcomplete_last hcnt] at h
    rw [← Except.ok.inj h]
    exact ⟨rfl, rfl, rfl⟩
  · rw [taskSetcomplete_more hcnt] at h
    rw [← Except.ok.inj h]
    exact ⟨rfl, rfl, rfl⟩

/-! ### The handlers of the master -/

/-- The master answers `t` with BUSY, or queues it and runs a round. -/
inductive Offered (bioCnt : Nat) (s : Service) (t : SrvTask) :
    (SrvTask × (Event ⊕ List Scheduled)) × Service → Prop
  | busy {s' : Service} (hqueued : s'.queued.Perm s.queued) (hname : s'.name = s.name)
      (hapis : s'.apis = s.apis) : Offered bioCnt s t ((t, .inl (t.busyEvent s.name)), s')
  | queued {s₁ s' : Service} {xs : List Scheduled} (hqueued : s₁.queued.Perm (s.queued ++ [t]))
      (hname : s₁.name = s.name) (hapis : s₁.apis = s.apis) (hround : Conserves bioCnt s₁ xs s') :
      Offered bioCnt s t ((t, .inr xs), s')

/-- A task that is pushed is queued, or the service is busy. -/
theorem pushTask_conserves {s s' : Service} {t : SrvTask} {status : SrvStatus}
    (ht : t.ioStatus = .ok) (h : s.pushTask t = .ok (status, s')) :
    s'.name = s.name ∧ s'.apis = s.apis ∧
      (status = .busy ∧ s'.queued.Perm s.queued ∨
        status = .ok ∧ s'.queued.Perm (s.queued ++ [t])) := by
  unfold pushTask at h
  simp only [ht, ne_eq, not_true_eq_false, if_false] at h
  cases hp : s.pendingTasks.push t with
  | error f => simp [hp] at h
  | ok r =>
    obtain ⟨full, q⟩ := r
    have hperm := Queue.push_perm hp
    cases full <;> simp only [hp, Except.ok.injEq, Prod.mk.injEq] at h <;>
      obtain ⟨rfl, rfl⟩ := h
    · exact ⟨rfl, rfl, .inr ⟨rfl, hperm⟩⟩
    · exact ⟨rfl, rfl, .inl ⟨rfl, by simpa [queued] using hperm⟩⟩

/-- A call is queued or refused. -/
theorem svcIocall_conserves {s : Service} {src : Sched} {txn : TxnId} {apiName : Nat}
    {bidx : Int} {taskdata : TaskRef} {r : (SrvTask × (Event ⊕ List Scheduled)) × Service}
    (h : s.svcIocall bioCnt src txn apiName bidx taskdata = .ok r) :
    ∃ type, Offered bioCnt s (s.iocallTask src txn apiName type bidx taskdata) r := by
  unfold svcIocall at h
  -- a call of an api that is not there is an assertion
  cases hapi : s.api apiName with
  | none => simp [hapi] at h
  | some type =>
    simp only [hapi] at h
    refine ⟨type, ?_⟩
    cases hp : s.pushTask (s.iocallTask src txn apiName type bidx taskdata) with
    | error f =>
      simp only [iocallTask] at hp
      simp [hp] at h
    | ok p =>
      obtain ⟨status, s₁⟩ := p
      obtain ⟨hname, hapis, hst⟩ := pushTask_conserves rfl hp
      simp only [iocallTask] at hp
      simp only [hp] at h
      -- the queue is full, and the caller is told, or the task waits and the service has a round
      rcases hst with ⟨rfl, hq⟩ | ⟨rfl, hq⟩
      · have hb := scheduleTask_busy bioCnt s₁ (s.iocallTask src txn apiName type bidx taskdata)
        simp only [iocallTask] at hb
        simp only [if_true, hb, Except.map, Except.ok.injEq] at h
        rw [← h, hname]
        exact .busy hq hname hapis
      · simp only [reduceCtorEq, if_false] at h
        obtain ⟨⟨xs, s'⟩, hs, rfl⟩ := except_map_ok.mp h
        exact .queued hq hname hapis (scheduleLoop_conserves _ hs)

theorem timerEmit_conserves {s : Service} {src : Sched} {entity : Nat} {udata : JobData}
    {valid : Bool} {bidx : Int} {type : JobRw} {interval : Nat}
    {r : (SrvTask × (Event ⊕ List Scheduled)) × Service}
    (h : s.timerEmit bioCnt src entity udata valid bidx type interval = .ok r) :
    Offered bioCnt s (emitTask src entity udata valid bidx type interval) r := by
  unfold timerEmit at h
  cases hp : s.pushTask (emitTask src entity udata valid bidx type interval) with
  | error f =>
    simp only [emitTask] at hp
    simp [hp] at h
  | ok p =>
    obtain ⟨status, s₁⟩ := p
    obtain ⟨hname, hapis, hst⟩ := pushTask_conserves rfl hp
    simp only [emitTask] at hp
    simp only [hp] at h
    rcases hst with ⟨rfl, hq⟩ | ⟨rfl, hq⟩
    · have hb := scheduleTask_busy bioCnt s₁ (emitTask src entity udata valid bidx type interval)
      simp only [emitTask] at hb
      simp only [ne_eq, reduceCtorEq, not_false_eq_true, if_true, not_true_eq_false, if_false,
        hb, Except.map, Except.ok.injEq] at h
      rw [← h, hname]
      exact .busy hq hname hapis
    · simp only [ne_eq, not_true_eq_false, if_false] at h
      obtain ⟨⟨xs, s'⟩, hs, rfl⟩ := except_map_ok.mp h
      exact .queued hq hname hapis (scheduleLoop_conserves _ hs)

/-- A report frees the service, if it is one, and a round follows. -/
theorem report_conserves {s s' : Service} {xs : List Scheduled}
    (h : (s.taskSetcomplete >>= fun s => s.scheduleTasks bioCnt) = .ok (xs, s') ∨
      s.scheduleTasks bioCnt = .ok (xs, s')) : Conserves bioCnt s xs s' := by
  rcases h with h | h
  · obtain ⟨s₁, hset, hs⟩ := except_bind_ok.mp h
    obtain ⟨hq, hname, hapis⟩ := taskSetcomplete_conserves hset
    have hr := scheduleLoop_conserves _ hs
    refine ⟨hq ▸ hr.queued, hr.name.trans hname, hr.apis.trans hapis, fun x hx => ?_⟩
    rw [← hname]
    exact hr.event x hx
  · exact scheduleLoop_conserves _ h

/-- What the handler of `SK_PTO_SVC_TASK_DONE` does to the service. -/
theorem svcTaskDone_cases {s : Service} {r : List Scheduled × Service} {done : Bool}
    (h : s.svcTaskDone bioCnt done = .ok r) :
    done = true ∧ (s.taskSetcomplete >>= fun s => s.scheduleTasks bioCnt) = .ok r ∨
      done = false ∧ s.scheduleTasks bioCnt = .ok r := by
  cases done with
  | false => exact .inr ⟨rfl, h⟩
  | true =>
    refine .inl ⟨rfl, ?_⟩
    simp only [svcTaskDone, if_true] at h
    cases hset : s.taskSetcomplete with
    | error f => simp [hset] at h
    | ok s₁ => exact except_bind_ok.mpr ⟨s₁, rfl, by simpa [hset] using h⟩

/-- What the handler of `SK_PTO_SVC_TIMER_DONE` does to the service. -/
theorem svcTimerDone_cases {s : Service} {r : List Scheduled × Service} {status : JobRet}
    (h : s.svcTimerDone bioCnt status = .ok r) :
    status = .ok ∧ (s.taskSetcomplete >>= fun s => s.scheduleTasks bioCnt) = .ok r ∨
      status = .errorBusy ∧ s.scheduleTasks bioCnt = .ok r := by
  unfold svcTimerDone at h
  by_cases hok : status = .ok
  · refine .inl ⟨hok, ?_⟩
    simp only [hok, if_true] at h
    cases hset : s.taskSetcomplete with
    | error f => simp [hset] at h
    | ok s₁ => exact except_bind_ok.mpr ⟨s₁, rfl, by simpa [hset] using h⟩
  · by_cases hbusy : status = .errorBusy
    · exact .inr ⟨hbusy, by simpa [hbusy] using h⟩
    · simp [hok, hbusy] at h

/-- A task that ends schedules others. -/
theorem svcTaskDone_conserves {s s' : Service} {xs : List Scheduled} {done : Bool}
    (h : s.svcTaskDone bioCnt done = .ok (xs, s')) : Conserves bioCnt s xs s' :=
  report_conserves ((svcTaskDone_cases h).imp And.right And.right)

/-- So does a job that ends. -/
theorem svcTimerDone_conserves {s s' : Service} {xs : List Scheduled} {status : JobRet}
    (h : s.svcTimerDone bioCnt status = .ok (xs, s')) : Conserves bioCnt s xs s' :=
  report_conserves ((svcTimerDone_cases h).imp And.right And.right)

end Service

end Skull
