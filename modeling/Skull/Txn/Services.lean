import Skull.Txn.Master

namespace Skull

open Machines

/-!
# No service of the system is stuck

Every message that keeps a service busy is counted by it, so its queue can only hold tasks
while such a message is in flight:

* `Service.Tended` — what the master keeps of a service: the running counter, and that nothing
  that is queued may start;
* `TxnSystem.Tends` — every service is tended, for the messages in flight;
* `TxnSystem.queued_nil` — when no message is in flight, no task is queued.
-/

namespace Service

variable {bioCnt : Nat}

/-- A service between two handlers of the master, with `n` tasks that were not reported. -/
structure Tended (bioCnt : Nat) (svc : Service) (n : Nat) : Prop where
  inv : ∃ l, svc.Inv bioCnt l
  running : svc.runningTaskCnt = n
  blocked : svc.pendingTasks.Blocked

/-- The running counter counts the holders of the lock. -/
theorem Inv.running {svc : Service} {l : RWLock} (h : svc.Inv bioCnt l) :
    svc.runningTaskCnt = l.holders := by
  have hlock := h.lock
  cases l with
  | free => exact hlock.2
  | shared n => exact hlock.2
  | exclusive => exact hlock.2

/-- Every lock can be held. -/
theorem exists_holds (l : RWLock) : ∃ ks, l.Holds ks := by
  cases l with
  | free => exact ⟨[], rfl⟩
  | shared n =>
    exact ⟨List.replicate (n + 1) .read, by simp, fun k hk => List.eq_of_mem_replicate hk⟩
  | exclusive => exact ⟨[.write], rfl⟩

/-- A round adds the tasks that it starts. -/
theorem Round.tended {s s' : Service} {l l' : RWLock} {xs : List Scheduled} {n : Nat}
    (h : s.Round bioCnt l xs s' l') (hinv : s.Inv bioCnt l) (hn : s.runningTaskCnt = n) :
    s'.Tended bioCnt (n + xs.length) := by
  obtain ⟨ks, hks⟩ := exists_holds l
  have hlen := (h.grants ks hks).length
  have hlen' := hks.length
  have hrun := hinv.running
  simp only [List.length_append, List.length_map] at hlen
  refine ⟨⟨l', h.inv⟩, ?_, h.blocked⟩
  rw [h.inv.running, ← hlen, Nat.cast_add, hlen', ← hrun, hn, Nat.cast_add, add_comm]

/-- How many tasks the master started when it was offered one. -/
def started : Event ⊕ List Scheduled → Nat
  | .inl _ => 0
  | .inr xs => xs.length

/-- An offer is tended to. -/
theorem Offer.tended {s : Service} {l l' : RWLock} {t : SrvTask} {n : Nat}
    {r : (SrvTask × (Event ⊕ List Scheduled)) × Service} (h : s.Offer bioCnt l t r l')
    (ht : s.Tended bioCnt n) : r.2.Tended bioCnt (n + started r.1.2) := by
  cases h with
  | busy => exact ht
  | queued hpush hinv hround => exact hround.tended hinv ht.running

/-- A call is. -/
theorem Tended.svcIocall {s : Service} {n : Nat} (h : s.Tended bioCnt n) {src : Sched}
    {txn : TxnId} {apiName : Nat} {bidx : Int} {taskdata : TaskRef}
    (hbidx : validateBidx bioCnt bidx = true)
    {r : (SrvTask × (Event ⊕ List Scheduled)) × Service}
    (hx : s.svcIocall bioCnt src txn apiName bidx taskdata = .ok r) :
    r.2.Tended bioCnt (n + started r.1.2) := by
  obtain ⟨l, hl⟩ := h.inv
  obtain ⟨type, hapi⟩ : ∃ type, s.api apiName = some type := by
    cases hapi : s.api apiName with
    | none => simp [Service.svcIocall, hapi] at hx
    | some type => exact ⟨type, rfl⟩
  obtain ⟨r', l', hok, ho⟩ := svcIocall_spec hl src txn taskdata hapi hbidx
  rw [← Except.ok.inj (hok.symm.trans hx)]
  exact ho.tended h

/-- A job is. -/
theorem Tended.timerEmit {s : Service} {n : Nat} (h : s.Tended bioCnt n) {src : Sched}
    {entity : Nat} {udata : JobData} {valid : Bool} {bidx : Int} {type : JobRw} {interval : Nat}
    (hbidx : validateBidx bioCnt bidx = true)
    {r : (SrvTask × (Event ⊕ List Scheduled)) × Service}
    (hx : s.timerEmit bioCnt src entity udata valid bidx type interval = .ok r) :
    r.2.Tended bioCnt (n + started r.1.2) := by
  obtain ⟨l, hl⟩ := h.inv
  obtain ⟨r', l', hok, ho⟩ := timerEmit_spec hl src entity udata valid type interval hbidx
  rw [← Except.ok.inj (hok.symm.trans hx)]
  exact ho.tended h

/-- A report takes one task off, if it is one, and a round follows. -/
theorem Tended.report {s s' : Service} {n : Nat} {xs : List Scheduled}
    (hx : (s.taskSetcomplete >>= fun s => s.scheduleTasks bioCnt) = .ok (xs, s') ∧
        s.Tended bioCnt (n + 1) ∨
      s.scheduleTasks bioCnt = .ok (xs, s') ∧ s.Tended bioCnt n) :
    s'.Tended bioCnt (n + xs.length) := by
  rcases hx with ⟨hx, h⟩ | ⟨hx, h⟩
  · obtain ⟨l, hl⟩ := h.inv
    have hcnt : l.holders = n + 1 := by
      have hrun := hl.running
      rw [h.running] at hrun
      omega
    obtain ⟨ks, hks⟩ := exists_holds l
    obtain ⟨k, ks, rfl⟩ := List.exists_cons_of_length_eq_add_one (hks.length.trans hcnt)
    obtain ⟨l₁, hrel, hks₁⟩ := hks.release
    obtain ⟨s₁, hset, hinv, -⟩ := taskSetcomplete_spec hl hrel
    obtain ⟨s₁', hset', hs⟩ := except_bind_ok.mp hx
    obtain rfl := Except.ok.inj (hset.symm.trans hset')
    obtain ⟨ys, s₂, l', hs', hr⟩ := scheduleTasks_spec hinv
    obtain ⟨rfl, rfl⟩ := Prod.mk.inj (Except.ok.inj (hs'.symm.trans hs))
    refine hr.tended hinv ?_
    have hlen := hks.length
    rw [hinv.running, ← hks₁.length]
    simp only [List.length_cons] at hlen
    omega
  · obtain ⟨l, hl⟩ := h.inv
    obtain ⟨ys, s₂, l', hs', hr⟩ := scheduleTasks_spec hl
    obtain ⟨rfl, rfl⟩ := Prod.mk.inj (Except.ok.inj (hs'.symm.trans hx))
    exact hr.tended hl h.running

/-- A task that ends makes room for others. -/
theorem Tended.svcTaskDone {s s' : Service} {n : Nat} {xs : List Scheduled} {done : Bool}
    (h : s.Tended bioCnt (n + if done then 1 else 0))
    (hx : s.svcTaskDone bioCnt done = .ok (xs, s')) : s'.Tended bioCnt (n + xs.length) := by
  rcases svcTaskDone_cases hx with ⟨rfl, hr⟩ | ⟨rfl, hr⟩
  · exact report (.inl ⟨hr, h⟩)
  · exact report (.inr ⟨hr, h⟩)

/-- So does a job that ends. -/
theorem Tended.svcTimerDone {s s' : Service} {n : Nat} {xs : List Scheduled} {status : JobRet}
    (h : s.Tended bioCnt (n + if status = .ok then 1 else 0))
    (hx : s.svcTimerDone bioCnt status = .ok (xs, s')) : s'.Tended bioCnt (n + xs.length) := by
  rcases svcTimerDone_cases hx with ⟨rfl, hr⟩ | ⟨rfl, hr⟩
  · exact report (.inl ⟨hr, h⟩)
  · exact report (.inr ⟨hr, h⟩)

/-- A service has the name it was created with. -/
theorem create_name {name : Nat} {preferRead : Bool} {maxQsize : Int}
    {apis : List (Nat × ApiType)} {s : Service}
    (h : create name preferRead maxQsize apis = .ok (some s)) : s.name = name := by
  unfold create at h
  split at h
  · exact absurd h (by simp)
  · exact absurd h (by simp)
  · rw [← Option.some.inj (Except.ok.inj h)]

/-- When nothing runs, nothing is queued. -/
theorem Tended.queued_nil {s : Service} (h : s.Tended bioCnt 0) : s.queued = [] := by
  obtain ⟨l, hl⟩ := h.inv
  have hidle : s.pendingTasks.state = .idle := by
    have hrun := hl.running
    rw [h.running] at hrun
    have hlock := hl.lock
    cases l with
    | free => exact hlock.1
    | shared n => simp [RWLock.holders] at hrun; omega
    | exclusive => simp [RWLock.holders] at hrun
  have hb := h.blocked
  unfold Queue.Blocked at hb
  unfold queued
  cases hd : s.pendingTasks.data with
  | exclusive mq => simp [hd] at hb
  | rwPw mq =>
    simp only [hd, hidle, reduceCtorEq, false_and, or_false] at hb
    simpa [QueueData.elems] using hb
  | rwPr rmq wmq =>
    simp only [hd, hidle, reduceCtorEq, false_or, or_false] at hb
    simp [QueueData.elems, hb.1, hb.2]

end Service

namespace TxnSystem

variable {s s' : TxnSystem} {bioCnt : Nat}

/-- How many messages in flight occupy the service `k`. -/
def occupied (s : TxnSystem) (k : Nat) : Nat := (s.net.filterMap Event.occupies).count k

/-- **Every service is tended.** -/
structure Tends (bioCnt : Nat) (s : TxnSystem) : Prop where
  services : ∀ (k : Nat) (svc : Service), s.services[k]? = some svc →
    svc.name = k ∧ svc.Tended bioCnt (s.occupied k)
  valid : ∀ e ∈ s.net, e.Valid bioCnt

/-- A message is replaced by others that occupy the same service. -/
theorem Tends.replace (h : s.Tends bioCnt) {i : Nat} {e : Event} (hi : s.net[i]? = some e)
    {es : List Event} (hsvc : s'.services = s.services) (hnet : s'.net = s.net.eraseIdx i ++ es)
    (hes : es.filterMap Event.occupies = e.occupies.toList) (hv : ∀ e ∈ es, e.Valid bioCnt) :
    s'.Tends bioCnt where
  services k svc hk := by
    obtain ⟨hname, ht⟩ := h.services k svc (hsvc ▸ hk)
    have hocc : s'.occupied k = s.occupied k := by
      have hperm := ((perm_take hi).filterMap Event.occupies).count_eq k
      have htake : (e :: s.net.eraseIdx i).filterMap Event.occupies =
          e.occupies.toList ++ (s.net.eraseIdx i).filterMap Event.occupies := by
        cases ho : e.occupies <;> simp [ho]
      rw [htake, List.count_append] at hperm
      rw [occupied, occupied, hnet, List.filterMap_append, List.count_append, hes, hperm, add_comm]
    exact ⟨hname, hocc ▸ ht⟩
  valid q hq := by
    rw [hnet] at hq
    rcases List.mem_append.mp hq with hq | hq
    · exact h.valid q (mem_of_mem_take hq)
    · exact hv q hq

/-- Messages that occupy no service are sent. -/
theorem Tends.sent (h : s.Tends bioCnt) (es : List Event) (hsvc : s'.services = s.services)
    (hnet : s'.net = s.net ++ es) (hes : ∀ e ∈ es, e.occupies = none ∧ e.Valid bioCnt) :
    s'.Tends bioCnt where
  services k svc hk := by
    obtain ⟨hname, ht⟩ := h.services k svc (hsvc ▸ hk)
    have hnil : es.filterMap Event.occupies = [] :=
      List.filterMap_eq_nil_iff.mpr fun e he => (hes e he).1
    have hocc : s'.occupied k = s.occupied k := by
      rw [occupied, hnet, List.filterMap_append, hnil, List.append_nil, occupied]
    exact ⟨hname, hocc ▸ ht⟩
  valid q hq := by
    rw [hnet] at hq
    rcases List.mem_append.mp hq with hq | hq
    · exact h.valid q hq
    · exact (hes q hq).2

/-- **A handler of the master** on the service `k`: `e` was taken out, `es` were sent, and all
    of them occupy `k` or no service. -/
theorem Tends.onService (h : s.Tends bioCnt) {i : Nat} {e : Event} (hi : s.net[i]? = some e)
    {k : Nat} {svc svc' : Service} (hk : s.services[k]? = some svc) (es : List Event)
    (hsvc : s'.services = s.services.set k svc') (hnet : s'.net = s.net.eraseIdx i ++ es)
    (he : ∀ j ∈ e.occupies, j = k) (hes : ∀ j ∈ es.filterMap Event.occupies, j = k)
    (hname : svc'.name = k) (ht : ∀ n, svc.Tended bioCnt (n + e.occupies.toList.length) →
      svc'.Tended bioCnt (n + (es.filterMap Event.occupies).length))
    (hv : ∀ e ∈ es, e.Valid bioCnt) : s'.Tends bioCnt where
  services j svcj hj := by
    -- the ends of bodies in flight before and after, of each service apart
    have hbefore : s.occupied j = e.occupies.toList.count j +
        ((s.net.eraseIdx i).filterMap Event.occupies).count j := by
      have hperm := ((perm_take hi).filterMap Event.occupies).count_eq j
      rw [occupied, hperm, ← List.count_append]
      cases ho : e.occupies <;> simp [ho]
    have hafter : s'.occupied j = ((s.net.eraseIdx i).filterMap Event.occupies).count j +
        (es.filterMap Event.occupies).count j := by
      rw [occupied, hnet, List.filterMap_append, List.count_append]
    rw [hsvc] at hj
    by_cases hjk : k = j
    · -- the service itself: all of them are its own
      subst hjk
      rw [List.getElem?_set_self (List.getElem?_eq_some_iff.mp hk).1] at hj
      obtain rfl := Option.some.inj hj
      refine ⟨hname, ?_⟩
      have hall : ∀ l : List Nat, (∀ j ∈ l, j = k) → l.count k = l.length := fun l hl =>
        List.count_eq_length.mpr fun b hb => (hl b hb).symm
      rw [hall _ fun j hj => he j (Option.mem_toList.mp hj)] at hbefore
      rw [hafter, hall _ hes]
      refine ht _ ?_
      rw [add_comm, ← hbefore]
      exact (h.services k svc hk).2
    · rw [List.getElem?_set_ne hjk] at hj
      -- another service: none of them is about it
      obtain ⟨hn, htj⟩ := h.services j svcj hj
      have hzero : ∀ l : List Nat, (∀ b ∈ l, b = k) → l.count j = 0 := fun l hl =>
        List.count_eq_zero.mpr fun hmem => hjk (hl j hmem).symm
      rw [hzero _ fun b hb => he b (Option.mem_toList.mp hb), zero_add] at hbefore
      rw [hzero _ hes, add_zero, ← hbefore] at hafter
      exact ⟨hn, hafter ▸ htj⟩
  valid q hq := by
    rw [hnet] at hq
    rcases List.mem_append.mp hq with hq | hq
    · exact h.valid q (mem_of_mem_take hq)
    · exact hv q hq

/-! ### What the handlers send -/

/-- Messages that occupy no service, to bios that exist. -/
def Light (bioCnt : Nat) (es : List Event) : Prop :=
  ∀ e ∈ es, e.occupies = none ∧ e.Valid bioCnt

/-- Light messages occupy nothing. -/
theorem Light.occupies {es : List Event} (h : Light bioCnt es) :
    es.filterMap Event.occupies = [] :=
  List.filterMap_eq_nil_iff.mpr fun e he => (h e he).1

/-- Answers are light. -/
theorem light_of_answers {t : TaskRef} {service : Nat} {es : List Event}
    (h : ∀ e ∈ es, ∃ api, e.pto = .svcTaskCb t service api .done false) : Light bioCnt es := by
  intro e he
  obtain ⟨api, hpto⟩ := h e he
  simp [Event.occupies, Event.Valid, hpto]

/-- So is what a handler for a transaction sends. -/
theorem light_of_sends {v : TxnEnv} {es : List Event} (h : ∀ e ∈ es, v.Sends e) :
    Light v.bioCnt es := fun e he => ⟨(h e he).occupies, (h e he).valid⟩

/-- The messages of a round occupy the service. -/
theorem round_occupies {svc svc' : Service} {k : Nat} {xs : List Scheduled}
    (hc : svc.Conserves bioCnt xs svc') (hname : svc.name = k) :
    (xs.map Scheduled.event).filterMap Event.occupies = List.replicate xs.length k ∧
      ∀ e ∈ xs.map Scheduled.event, e.Valid bioCnt := by
  have hevent : ∀ x ∈ xs, x.event.occupies = some k ∧ x.event.Valid bioCnt := by
    intro x hx
    obtain ⟨dst, -, hevent⟩ := hc.event x hx
    rw [hevent]
    cases hd : x.task.data <;>
      simp [SrvTask.runEvent, hd, Event.occupies, Event.Valid, hname]
  refine ⟨?_, fun e he => ?_⟩
  · clear hc
    induction xs with
    | nil => rfl
    | cons x xs ih =>
      have hx := (hevent x (by simp)).1
      rw [List.map_cons, List.filterMap_cons_some hx,
        ih fun y hy => hevent y (List.mem_cons_of_mem x hy)]
      rfl
  · obtain ⟨x, hx, rfl⟩ := List.mem_map.mp he
    exact (hevent x hx).2

/-! ### Every step -/

/-- A task is offered to a service. -/
theorem Tends.offer (h : s.Tends bioCnt) {i : Nat} {e : Event} (hi : s.net[i]? = some e)
    (he : e.occupies = none) {k : Nat} {svc : Service} (hk : s.services[k]? = some svc)
    {q : SrvTask} {r : (SrvTask × (Event ⊕ List Scheduled)) × Service}
    (ho : svc.Offered bioCnt q r)
    (ht : ∀ n, svc.Tended bioCnt n → r.2.Tended bioCnt (n + Service.started r.1.2)) :
    (afterOffer k { s with net := s.net.eraseIdx i } r).Tends bioCnt := by
  have hj : ∀ j ∈ e.occupies, j = k := by simp [he]
  have hself := (h.services k svc hk).1
  cases ho with
  | @busy svc' hqueued hname hapis =>
    have hlight : Light bioCnt [q.busyEvent svc.name] := by
      intro b hb
      rw [List.mem_singleton.mp hb]
      cases hd : q.data <;> simp [SrvTask.busyEvent, hd, Event.occupies, Event.Valid]
    exact h.onService hi hk _ rfl rfl hj (by simp [hlight.occupies]) (hname.trans hself)
      (by simpa [he, hlight.occupies, Service.started] using ht) fun b hb => (hlight b hb).2
  | @queued svc₁ svc' xs hqueued hname hapis hround =>
    have hname₁ : svc₁.name = k := hname.trans hself
    obtain ⟨hocc, hv⟩ := round_occupies hround hname₁
    refine h.onService hi hk _ rfl (by simp [afterOffer, afterRound]) hj ?_ (hround.name.trans hname₁)
      ?_ hv
    · rw [hocc]
      exact fun j hj => List.eq_of_mem_replicate hj
    · simpa [he, hocc, Service.started] using ht

/-- **A message is handled.** -/
theorem Tends.handle (h : s.Tends bioCnt) {i : Nat} {e : Event} (hi : s.net[i]? = some e)
    {code : UserCode}
    (hx : ({ s with net := s.net.eraseIdx i } : TxnSystem).handle bioCnt e code = .ok s') :
    s'.Tends bioCnt := by
  unfold TxnSystem.handle at hx
  cases hpto : e.pto with
  | workflowRun =>
    simp only [hpto] at hx
    obtain ⟨x, slot, r, -, -, -, hr, rfl⟩ := onTxn_ok hx
    obtain ⟨es, ms, hsent, -, hg⟩ := TxnRun.run_grew _ hr
    have hlight : Light bioCnt es := light_of_sends hg.sends
    -- a run of a workflow ends no body
    simp only [List.nil_append] at hsent
    refine h.replace hi rfl (by rw [commit, hsent]) ?_ fun b hb => (hlight b hb).2
    rw [hlight.occupies]
    simp [Event.occupies, hpto]
  | svcTaskCb t service api status done =>
    simp only [hpto] at hx
    obtain ⟨x, slot, r, -, -, -, hr, rfl⟩ := onTxn_ok hx
    obtain ⟨-, r₁, r₂, es, ms, k, hcomp, hset, -, -, rfl⟩ := TxnRun.svcTaskCb_spec hr
    have hlight : Light bioCnt es := light_of_sends hset.grows.sends
    have hsent : r₂.sent = es := by rw [hset.sent, hcomp.sent, List.nil_append]
    refine h.replace hi rfl (by rw [commit, hsent]) ?_ fun b hb => ?_
    · -- the report takes the place of the callback: both end a body or neither does
      rw [List.filterMap_append, hlight.occupies]
      cases done <;> simp [Event.occupies, hpto]
    · rcases List.mem_append.mp hb with hb | hb
      · exact (hlight b hb).2
      · rw [List.mem_singleton.mp hb]
        trivial
  | svcTaskRun service api io caller t =>
    simp only [hpto] at hx
    obtain ⟨s₁, k, h1, -, rfl⟩ := TxnSystem.svcTaskRun_ok hx
    have hc := pendingCalls_counted h1
    refine h.replace hi hc.services (by rw [TxnSystem.send, hc.net]) ?_ fun b hb => ?_
    · -- the callback takes the place of the body
      simp [Event.occupies, hpto]
    · rw [List.mem_singleton.mp hb]
      trivial
  | svcTimerRun service ud valid status interval =>
    simp only [hpto] at hx
    obtain ⟨t, s₂, es, hc, rfl, hes⟩ := TxnSystem.svcTimerRun_counted hx
    have hlight : Light bioCnt es := light_of_answers hes
    refine h.replace hi hc.services (by rw [TxnSystem.send, hc.net, List.append_assoc]) ?_
      fun b hb => ?_
    · -- the report takes the place of the body of the timer
      rw [List.filterMap_append, hlight.occupies]
      cases status <;> simp [Event.occupies, hpto]
    · rcases List.mem_append.mp hb with hb | hb
      · exact (hlight b hb).2
      · rw [List.mem_singleton.mp hb]
        trivial
  | svcIocall service api bidx t =>
    have hv := h.valid e (List.mem_of_getElem? hi)
    -- the index of the bio was valid when the message was sent
    simp only [Event.Valid, hpto] at hv
    simp only [hpto] at hx
    cases howner : e.owner with
    | inr entity => simp [howner] at hx
    | inl x =>
      simp only [howner] at hx
      obtain ⟨svc, r, hsvc, hr, rfl⟩ := onService_ok hx
      obtain ⟨type, ho⟩ := Service.svcIocall_conserves hr
      exact h.offer hi (by simp [Event.occupies, hpto]) hsvc ho fun n hn => hn.svcIocall hv hr
  | timerEmit service ud valid bidx type interval =>
    have hv := h.valid e (List.mem_of_getElem? hi)
    simp only [Event.Valid, hpto] at hv
    simp only [hpto] at hx
    cases howner : e.owner with
    | inl x => simp [howner] at hx
    | inr entity =>
      simp only [howner] at hx
      obtain ⟨svc, r, hsvc, hr, rfl⟩ := onService_ok hx
      exact h.offer hi (by simp [Event.occupies, hpto]) hsvc (Service.timerEmit_conserves hr)
        fun n hn => hn.timerEmit hv hr
  | svcTaskDone service resumeWf done =>
    simp only [hpto] at hx
    obtain ⟨svc, ⟨xs, svc'⟩, hsvc, hr, rfl⟩ := onService_ok hx
    -- the master resumes the transaction first, and then the service has a round
    have hsvc₀ : s.services[service]? = some svc := by
      cases resumeWf <;> exact hsvc
    have hself := (h.services service svc hsvc₀).1
    have hc := Service.svcTaskDone_conserves hr
    obtain ⟨hocc, hv⟩ := round_occupies hc hself
    set es : List Event := if resumeWf then [⟨e.dst, e.src, e.owner, .workflowRun⟩] else [] with hes
    have hlight : Light bioCnt es := by
      intro b hb
      cases resumeWf <;> simp only [hes, if_true, if_false, Bool.false_eq_true, List.not_mem_nil,
        List.mem_singleton] at hb
      rw [hb]
      exact ⟨rfl, trivial⟩
    refine h.onService hi hsvc₀ (es ++ xs.map Scheduled.event) ?_ ?_ ?_ ?_
      (hc.name.trans hself) (fun n hn => ?_) fun b hb => ?_
    · cases resumeWf <;> rfl
    · cases resumeWf <;> simp [hes, afterRound, TxnSystem.send]
    · cases done <;> simp [Event.occupies, hpto]
    · rw [List.filterMap_append, hlight.occupies, hocc]
      exact fun j hj => List.eq_of_mem_replicate hj
    · rw [List.filterMap_append, hlight.occupies, hocc, List.nil_append, List.length_replicate]
      refine Service.Tended.svcTaskDone ?_ hr
      cases done <;> simpa [Event.occupies, hpto] using hn
    · -- what is sent is valid: the message to resume, and the tasks of the round
      rcases List.mem_append.mp hb with hb | hb
      · exact (hlight b hb).2
      · exact hv b hb
  | svcTimerDone service status interval =>
    simp only [hpto] at hx
    obtain ⟨svc, ⟨xs, svc'⟩, hsvc, hr, rfl⟩ := onService_ok hx
    have hself := (h.services service svc hsvc).1
    have hc := Service.svcTimerDone_conserves hr
    obtain ⟨hocc, hv⟩ := round_occupies hc hself
    -- a message that does not count as the end of a body takes nothing from the service
    refine h.onService hi hsvc _ rfl rfl ?_ ?_ (hc.name.trans hself) (fun n hn => ?_) hv
    · cases status <;> simp [Event.occupies, hpto]
    · rw [hocc]
      exact fun j hj => List.eq_of_mem_replicate hj
    · rw [hocc, List.length_replicate]
      refine Service.Tended.svcTimerDone ?_ hr
      cases status <;> simpa [Event.occupies, hpto] using hn

/-- **Every step** leaves the services tended. -/
theorem exec_tends (h : s.Tends bioCnt) {a : TxnAction} (he : s.enabled bioCnt a)
    (hx : s.exec bioCnt a = .ok s') : s'.Tends bioCnt := by
  have hlight : ∀ e : Event, e.occupies = none → e.Valid bioCnt → Light bioCnt [e] := by
    intro e ho hv b hb
    rw [List.mem_singleton.mp hb]
    exact ⟨ho, hv⟩
  cases a with
  | create workflow home now immediate =>
    rw [← Except.ok.inj hx]
    exact h.sent [] rfl (by simp) (by simp)
  | deliver x src =>
    obtain ⟨slot, hslot, -⟩ := he
    rw [Option.mem_def] at hslot
    simp only [exec, hslot] at hx
    rw [← Except.ok.inj hx]
    exact h.sent _ rfl rfl (hlight _ rfl trivial)
  | handle i code =>
    obtain ⟨e, hi, -⟩ := he
    rw [Option.mem_def] at hi
    simp only [exec, hi] at hx
    exact h.handle hi hx
  | epCb i calls =>
    obtain ⟨c, hi, -⟩ := he
    rw [Option.mem_def] at hi
    simp only [exec, hi] at hx
    obtain ⟨s₂, es, hc, rfl, hes⟩ := pendingCb_counted hx
    -- an answer of a call ends no body
    exact h.sent _ hc.services (by rw [hc.net]) (light_of_answers hes)
  | jobTriggered i =>
    obtain ⟨c, hi, hjob⟩ := he
    rw [Option.mem_def] at hi
    obtain ⟨ud, hud⟩ := Option.isSome_iff_exists.mp hjob
    simp only [exec, hi, hud] at hx
    rw [← Except.ok.inj hx]
    exact h.sent _ rfl rfl (hlight _ rfl rfl)
  | npTriggered src service entity id rw bidx interval =>
    rw [← Except.ok.inj hx]
    exact h.sent _ rfl rfl (hlight _ rfl he.2)

theorem init_tends (h : Init s) : s.Tends bioCnt := by
  obtain ⟨hsvc, -, hnet, -⟩ := h
  refine ⟨fun k svc hk => ?_, by simp [hnet]⟩
  obtain ⟨preferRead, maxQsize, apis, hmax, hcreate⟩ := hsvc k svc hk
  obtain ⟨hinv, -, hb⟩ : svc.Inv bioCnt .free ∧ svc.queued = [] ∧ svc.pendingTasks.Blocked :=
    Service.create_spec hmax hcreate
  exact ⟨Service.create_name hcreate, ⟨.free, hinv⟩, by simp [occupied, hnet, hinv.lock.2], hb⟩

/-- In every state a run reaches the services are tended. -/
theorem reach_tends {C : TxnSystem → TxnAction → Prop} (h : (machine bioCnt).Reach C s) :
    s.Tends bioCnt :=
  h.invariant (I := Tends bioCnt) (fun _ hs => init_tends hs) fun _ _ _ hs he _ hx =>
    exec_tends hs he hx

/-- **Nothing is stuck.** When no message is in flight, no task is queued. -/
theorem Tends.queued_nil (h : s.Tends bioCnt) (hnet : s.net = []) :
    ∀ svc ∈ s.services, svc.queued = [] := by
  intro svc hmem
  obtain ⟨k, hk⟩ := List.mem_iff_getElem?.mp hmem
  have ht := (h.services k svc hk).2
  simp only [occupied, hnet, List.filterMap_nil, List.count_nil] at ht
  exact ht.queued_nil

/-- And when no call is pending either, no task is under way. -/
theorem Tends.stages_nil (h : s.Tends bioCnt) (hnet : s.net = []) (hcalls : s.calls = [])
    (t : TaskRef) : s.stages t = 0 := by
  have hqueued : s.services.flatMap queueTokens = [] :=
    List.flatMap_eq_nil_iff.mpr fun svc hmem => by
      simp [queueTokens, h.queued_nil hnet svc hmem]
  simp [stages, tokens, hnet, hcalls, hqueued]

end TxnSystem

end Skull
