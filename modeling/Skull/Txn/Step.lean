import Skull.Txn.Master

namespace Skull

open Machines

/-!
# The steps of the system, as a transaction sees them

A step makes a transaction, delivers one, or runs one of the two handlers that work on a
transaction.  Every other step is aside: it leaves the transactions but for what their tasks wait
for, and as many messages that resume each of them as there were.

* `TxnSystem.Aside` — the steps that no transaction sees;
* `TxnSystem.Stepped` — all steps, and `TxnSystem.exec_stepped` that there are no others.
-/

/-- The message resumes the transaction `x`, or makes the master do so. -/
def Event.resumes (e : Event) (x : TxnId) : Bool := e.isResume && e.owner = .inl x

namespace TxnSystem

variable {s s' : TxnSystem} {bioCnt : Nat}

/-- How many messages resume the transaction `x`. -/
def resumes (s : TxnSystem) (x : TxnId) : Nat := s.net.countP (·.resumes x)

/-- A step that no transaction sees. -/
structure Aside (s s' : TxnSystem) : Prop where
  bare : s'.txns.map TxnSystem.bare = s.txns.map TxnSystem.bare
  resumes : ∀ x, s'.resumes x = s.resumes x
  marks : ∃ ms, s'.log = s.log ++ ms ∧ ∀ m ∈ ms, m.task.isSome

variable (bioCnt) in
/-- What a step is to the transactions. -/
inductive Stepped (s : TxnSystem) : TxnAction → TxnSystem → Prop
  | create (workflow : Workflow) (home : Sched) (now : Int) (immediate : Bool) :
    Stepped s (.create workflow home now immediate)
      { s with txns := s.txns ++ [⟨newTxn workflow now immediate, home, false, false⟩] }
  | deliver {x : TxnId} {src : Sched} {slot : TxnSlot} (hslot : s.txns[x]? = some slot)
    (hdel : slot.delivered = false) : Stepped s (.deliver x src)
      (({ s with txns := s.txns.modify x fun slot => { slot with delivered := true } } :
        TxnSystem).send ⟨src, slot.home, .inl x, .workflowRun⟩)
  | workflowRun {i : Nat} {e : Event} {code : UserCode} {x : TxnId} {slot : TxnSlot}
    {r : TxnRun} (hi : s.net[i]? = some e) (hpto : e.pto = .workflowRun)
    (howner : e.owner = .inl x) (hslot : s.txns[x]? = some slot) (hrel : slot.released = false)
    (hr : TxnRun.workflowRun ⟨bioCnt, s.services, e.dst, slot.home, x⟩ code
      ⟨slot.txn, [], [], false⟩ = .ok r) :
    Stepped s (.handle i code) (({ s with net := s.net.eraseIdx i } : TxnSystem).commit x r)
  | taskCb {i : Nat} {e : Event} {code : UserCode} {x : TxnId} {slot : TxnSlot} {r : TxnRun}
    {t : TaskRef} {service api : Nat} {status : TaskStatus} {done : Bool}
    (hi : s.net[i]? = some e) (hfirst : ∀ e' ∈ s.net.take i, e'.key ≠ e.key)
    (hpto : e.pto = .svcTaskCb t service api status done)
    (howner : e.owner = .inl x) (hslot : s.txns[x]? = some slot) (hrel : slot.released = false)
    (hr : TxnRun.svcTaskCb ⟨bioCnt, s.services, e.dst, slot.home, x⟩ code.run t service status
      done ⟨slot.txn, [], [], false⟩ = .ok r) :
    Stepped s (.handle i code) (({ s with net := s.net.eraseIdx i } : TxnSystem).commit x r)
  | aside {a : TxnAction} {s' : TxnSystem} (h : Aside s s') : Stepped s a s'

/-! ### Counting the messages that resume a transaction -/

/-- A message that is taken may resume. -/
theorem resumes_take {i : Nat} {e : Event} (h : s.net[i]? = some e) (x : TxnId) :
    s.resumes x = (e.resumes x).toNat +
      ({ s with net := s.net.eraseIdx i } : TxnSystem).resumes x := by
  rw [resumes, (perm_take h).countP_eq, List.countP_cons, resumes]
  cases e.resumes x <;> simp [add_comm]

/-- So may those that are sent. -/
theorem resumes_sent (s : TxnSystem) (es : List Event) (x : TxnId) :
    ({ s with net := s.net ++ es } : TxnSystem).resumes x =
      s.resumes x + es.countP (·.resumes x) := List.countP_append

/-- Messages that resume nothing. -/
theorem countP_resumes_calm {es : List Event} (h : ∀ e ∈ es, e.isResume = false) (x : TxnId) :
    es.countP (·.resumes x) = 0 :=
  List.countP_eq_zero.mpr fun e he => by simp [Event.resumes, h e he]

/-- Messages of one transaction. -/
theorem countP_resumes_owner {es : List Event} {x : TxnId} (h : ∀ e ∈ es, e.owner = .inl x)
    (y : TxnId) : es.countP (·.resumes y) =
      if y = x then es.countP (·.isResume) else 0 := by
  split
  · rename_i hy
    subst hy
    exact List.countP_congr fun e he => by simp [Event.resumes, h e he]
  · rename_i hy
    have hy' : x ≠ y := fun he => hy he.symm
    exact List.countP_eq_zero.mpr fun e he => by simp [Event.resumes, h e he, hy']

/-- How many messages resume each transaction after a handler on the transaction `x`. -/
theorem resumes_commit {i : Nat} {e : Event} (hi : s.net[i]? = some e) {x : TxnId}
    (howner : e.owner = .inl x) {r : TxnRun} (hsent : ∀ b ∈ r.sent, b.owner = .inl x) (y : TxnId) :
    (({ s with net := s.net.eraseIdx i } : TxnSystem).commit x r).resumes y =
      if y = x then s.resumes x - e.isResume.toNat + r.sent.countP (·.isResume)
      else s.resumes y := by
  have htake := resumes_take hi y
  have hres : (({ s with net := s.net.eraseIdx i } : TxnSystem).commit x r).resumes y =
      ({ s with net := s.net.eraseIdx i } : TxnSystem).resumes y + r.sent.countP (·.resumes y) :=
    resumes_sent { s with net := s.net.eraseIdx i } r.sent y
  rw [hres, countP_resumes_owner hsent]
  by_cases hy : y = x
  · subst hy
    have hself : e.resumes y = e.isResume := by simp [Event.resumes, howner]
    rw [hself] at htake
    rw [if_pos rfl, if_pos rfl]
    omega
  · have hyx : x ≠ y := fun he => hy he.symm
    have hother : e.resumes y = false := by simp [Event.resumes, howner, hyx]
    rw [hother, Bool.toNat_false] at htake
    rw [if_neg hy, if_neg hy]
    omega

/-- And after the transaction `x` is delivered. -/
theorem resumes_deliver (s : TxnSystem) (x : TxnId) (src home : Sched) (y : TxnId) :
    (({ s with txns := s.txns.modify x fun slot => { slot with delivered := true } } :
      TxnSystem).send ⟨src, home, .inl x, .workflowRun⟩).resumes y =
      s.resumes y + if y = x then 1 else 0 := by
  refine (resumes_sent _ _ y).trans ?_
  by_cases hy : y = x
  · simp [Event.resumes, Event.isResume, hy, resumes]
  · have hxy : x ≠ y := fun he => hy he.symm
    simp [Event.resumes, Event.isResume, hy, hxy, resumes]

/-- A message that resumes a transaction resumes one that there is. -/
theorem resumes_zero (hinv : s.Inv) {x : TxnId} (hx : s.txns.length ≤ x) : s.resumes x = 0 := by
  refine List.countP_eq_zero.mpr fun e he hres => ?_
  simp only [Event.resumes, Bool.and_eq_true, decide_eq_true_eq] at hres
  obtain ⟨c, hc⟩ : ∃ c, e.side = some c := by
    unfold Event.isResume at hres
    unfold Event.side
    cases hpto : e.pto <;> simp_all
  obtain ⟨y, hy, hlt, -⟩ := hinv.addressed e he c hc
  obtain rfl : x = y := Sum.inl.inj (hres.2.symm.trans hy)
  exact Nat.not_lt.mpr hx hlt

/-! ### The steps aside -/

/-- A message is replaced by others that resume the same transaction, if any. -/
theorem Aside.replace {i : Nat} {e : Event} (hi : s.net[i]? = some e)
    (hbare : s'.txns.map TxnSystem.bare = s.txns.map TxnSystem.bare) (es : List Event)
    (hnet : s'.net = s.net.eraseIdx i ++ es)
    (hes : ∀ x, es.countP (·.resumes x) = (e.resumes x).toNat) (ms : List Mark)
    (hlog : s'.log = s.log ++ ms) (hms : ∀ m ∈ ms, m.task.isSome) : Aside s s' := by
  refine ⟨hbare, fun x => ?_, ms, hlog, hms⟩
  have htake := resumes_take hi x
  rw [TxnSystem.resumes, hnet, List.countP_append, hes, htake, TxnSystem.resumes, add_comm]

/-- A message that resumes nothing is replaced by others that do not. -/
theorem Aside.calm {i : Nat} {e : Event} (hi : s.net[i]? = some e)
    (he : e.isResume = false) (hbare : s'.txns.map TxnSystem.bare = s.txns.map TxnSystem.bare)
    (es : List Event) (hnet : s'.net = s.net.eraseIdx i ++ es)
    (hes : ∀ e ∈ es, e.isResume = false) (ms : List Mark) (hlog : s'.log = s.log ++ ms)
    (hms : ∀ m ∈ ms, m.task.isSome) : Aside s s' := by
  refine .replace hi hbare es hnet (fun x => ?_) ms hlog hms
  rw [countP_resumes_calm hes x]
  simp [Event.resumes, he]

/-- Messages that resume nothing are sent. -/
theorem Aside.sent (hbare : s'.txns.map TxnSystem.bare = s.txns.map TxnSystem.bare)
    (es : List Event) (hnet : s'.net = s.net ++ es) (hes : ∀ e ∈ es, e.isResume = false)
    (hlog : s'.log = s.log) : Aside s s' := by
  refine ⟨hbare, fun x => ?_, [], by simp [hlog], by simp⟩
  rw [TxnSystem.resumes, hnet, List.countP_append, countP_resumes_calm hes, add_zero,
    TxnSystem.resumes]

/-- A round of scheduling resumes nothing. -/
theorem round_calm {svc svc' : Service} {xs : List Scheduled}
    (hc : svc.Conserves bioCnt xs svc') :
    (∀ e ∈ xs.map Scheduled.event, e.isResume = false) ∧
      ∀ m ∈ xs.filterMap markOf, m.task.isSome := by
  refine ⟨fun e he => ?_, fun m hm => ?_⟩
  · obtain ⟨x, hx, rfl⟩ := List.mem_map.mp he
    obtain ⟨dst, -, hevent⟩ := hc.event x hx
    rw [hevent]
    cases hd : x.task.data <;> simp [SrvTask.runEvent, hd, Event.isResume]
  · obtain ⟨x, -, hx⟩ := List.mem_filterMap.mp hm
    unfold markOf at hx
    split at hx
    · rw [← Option.some.inj hx]
      rfl
    · exact absurd hx (by simp)

/-- Answers resume nothing. -/
theorem answers_calm {t : TaskRef} {service : Nat} {es : List Event}
    (h : ∀ e ∈ es, ∃ api, e.pto = .svcTaskCb t service api .done false) :
    ∀ e ∈ es, e.isResume = false := by
  intro e he
  obtain ⟨api, hpto⟩ := h e he
  simp [Event.isResume, hpto]

/-- A task is offered to a service. -/
theorem Aside.offer {i : Nat} {e : Event} (hi : s.net[i]? = some e)
    (he : e.isResume = false) {k : Nat} {svc : Service} {q : SrvTask}
    {r : (SrvTask × (Event ⊕ List Scheduled)) × Service} (ho : svc.Offered bioCnt q r) :
    Aside s (afterOffer k { s with net := s.net.eraseIdx i } r) := by
  cases ho with
  | @busy svc' hqueued hname hapis =>
    refine .calm hi he rfl [_] rfl (fun b hb => ?_) [] (by simp [afterOffer,
      TxnSystem.send]) (by simp)
    rw [List.mem_singleton.mp hb]
    cases hd : q.data <;> simp [SrvTask.busyEvent, hd, Event.isResume]
  | @queued svc₁ svc' xs hqueued hname hapis hround =>
    obtain ⟨hes, hms⟩ := round_calm hround
    exact .calm hi he rfl _ rfl hes _ rfl hms

/-- **A message is handled.** -/
theorem handle_stepped {i : Nat} {e : Event} (hi : s.net[i]? = some e)
    (hfirst : ∀ e' ∈ s.net.take i, e'.key ≠ e.key) {code : UserCode}
    (hx : ({ s with net := s.net.eraseIdx i } : TxnSystem).handle bioCnt e code = .ok s') :
    Stepped bioCnt s (.handle i code) s' := by
  unfold TxnSystem.handle at hx
  cases hpto : e.pto with
  | workflowRun =>
    simp only [hpto] at hx
    obtain ⟨x, slot, r, howner, hslot, hrel, hr, rfl⟩ := onTxn_ok hx
    exact .workflowRun hi hpto howner hslot hrel hr
  | svcTaskCb t service api status done =>
    simp only [hpto] at hx
    obtain ⟨x, slot, r, howner, hslot, hrel, hr, rfl⟩ := onTxn_ok hx
    exact .taskCb hi hfirst hpto howner hslot hrel hr
  | svcTaskRun service api io caller t =>
    simp only [hpto] at hx
    obtain ⟨s₁, k, h1, -, rfl⟩ := svcTaskRun_ok hx
    have hc := pendingCalls_counted h1
    -- neither a body nor its calls touch a transaction
    refine .aside (.calm hi (by simp [Event.isResume, hpto]) hc.bare [_]
      (by rw [TxnSystem.send, hc.net]) (fun b hb => ?_) []
      (by rw [List.append_nil]; exact hc.log) (by simp))
    rw [List.mem_singleton.mp hb]
    rfl
  | svcTimerRun service ud valid status interval =>
    simp only [hpto] at hx
    obtain ⟨t, s₂, es, hc, rfl, hes⟩ := svcTimerRun_counted hx
    -- the answers of a timer are callbacks and reports, which resume nothing themselves
    refine .aside (.calm hi (by simp [Event.isResume, hpto]) hc.bare (es ++ [_])
      (by rw [TxnSystem.send, hc.net, List.append_assoc]) (fun b hb => ?_) []
      (by rw [List.append_nil]; exact hc.log) (by simp))
    rcases List.mem_append.mp hb with hb | hb
    · exact answers_calm hes b hb
    · rw [List.mem_singleton.mp hb]
      rfl
  | svcIocall service api bidx t =>
    simp only [hpto] at hx
    cases howner : e.owner with
    | inr entity => simp [howner] at hx
    | inl x =>
      simp only [howner] at hx
      obtain ⟨svc, r, hsvc, hr, rfl⟩ := onService_ok hx
      obtain ⟨type, ho⟩ := Service.svcIocall_conserves hr
      exact .aside (.offer hi (by simp [Event.isResume, hpto]) ho)
  | timerEmit service ud valid bidx type interval =>
    simp only [hpto] at hx
    cases howner : e.owner with
    | inl x => simp [howner] at hx
    | inr entity =>
      simp only [howner] at hx
      obtain ⟨svc, r, hsvc, hr, rfl⟩ := onService_ok hx
      exact .aside (.offer hi (by simp [Event.isResume, hpto]) (Service.timerEmit_conserves hr))
  | svcTaskDone service resumeWf done =>
    simp only [hpto] at hx
    obtain ⟨svc, ⟨xs, svc'⟩, hsvc, hr, rfl⟩ := onService_ok hx
    obtain ⟨hes, hms⟩ := round_calm (Service.svcTaskDone_conserves hr)
    -- the message to resume takes the place of the one that says so
    cases resumeWf with
    | false => exact .aside (.calm hi (by simp [Event.isResume, hpto]) rfl _ rfl hes _ rfl hms)
    | true =>
      refine .aside (.replace hi rfl (⟨e.dst, e.src, e.owner, .workflowRun⟩ ::
        xs.map Scheduled.event) (by simp [afterRound, TxnSystem.send]) (fun x => ?_) _ rfl hms)
      -- of the messages to resume one is gone and one has come
      rw [List.countP_cons, countP_resumes_calm hes]
      by_cases hown : e.owner = .inl x <;> simp [Event.resumes, Event.isResume, hpto, hown]
  | svcTimerDone service status interval =>
    simp only [hpto] at hx
    obtain ⟨svc, ⟨xs, svc'⟩, hsvc, hr, rfl⟩ := onService_ok hx
    obtain ⟨hes, hms⟩ := round_calm (Service.svcTimerDone_conserves hr)
    exact .aside (.calm hi (by simp [Event.isResume, hpto]) rfl _ rfl hes _ rfl hms)

/-- **Every step** is one of these. -/
theorem exec_stepped {a : TxnAction} (he : s.enabled bioCnt a)
    (hx : s.exec bioCnt a = .ok s') : Stepped bioCnt s a s' := by
  cases a with
  | create workflow home now immediate =>
    exact Except.ok.inj hx ▸ .create workflow home now immediate
  | deliver x src =>
    obtain ⟨slot, hslot, hdel⟩ := he
    rw [Option.mem_def] at hslot
    simp only [exec, hslot] at hx
    exact Except.ok.inj hx ▸ .deliver hslot hdel
  | handle i code =>
    obtain ⟨e, hi, hfirst⟩ := he
    rw [Option.mem_def] at hi
    simp only [exec, hi] at hx
    exact handle_stepped hi hfirst hx
  | epCb i calls =>
    obtain ⟨c, hi, -⟩ := he
    rw [Option.mem_def] at hi
    simp only [exec, hi] at hx
    obtain ⟨s₂, es, hc, rfl, hes⟩ := pendingCb_counted hx
    -- nor do the answers of calls
    exact .aside (.sent hc.bare _ (by rw [hc.net]) (answers_calm hes) hc.log)
  | jobTriggered i =>
    obtain ⟨c, hi, hjob⟩ := he
    rw [Option.mem_def] at hi
    obtain ⟨ud, hud⟩ := Option.isSome_iff_exists.mp hjob
    simp only [exec, hi, hud] at hx
    rw [← Except.ok.inj hx]
    refine .aside (.sent rfl [_] rfl (fun b hb => ?_) rfl)
    rw [List.mem_singleton.mp hb]
    rfl
  | npTriggered src service entity id rw bidx interval =>
    rw [← Except.ok.inj hx]
    refine .aside (.sent rfl [_] rfl (fun b hb => ?_) rfl)
    rw [List.mem_singleton.mp hb]
    rfl

/-- A step aside, seen from a transaction after it. -/
theorem Aside.slot (h : Aside s s') {x : TxnId} {slot : TxnSlot}
    (hslot : s'.txns[x]? = some slot) :
    ∃ slot₀, s.txns[x]? = some slot₀ ∧ TxnSystem.bare slot = TxnSystem.bare slot₀ := by
  have hx := congrArg (·[x]?) h.bare
  simp only [List.getElem?_map, hslot, Option.map_some] at hx
  obtain ⟨slot₀, hslot₀, hb⟩ := Option.map_eq_some_iff.mp hx.symm
  exact ⟨slot₀, hslot₀, hb.symm⟩

/-! ### The end of a task -/

/-- What a `SK_PTO_SVC_TASK_CB` is to its transaction. -/
structure Answered (x : TxnId) (slot : TxnSlot) (r : TxnRun) : Prop where
  tasks : slot.txn.totalTasks ≠ 0
  owners : ∀ b ∈ r.sent, b.owner = .inl x
  resumes : ∀ b ∈ r.sent, b.isResume = true → r.txn.moduleComplete = true
  attended : r.txn.alltaskComplete = true → ∃ b ∈ r.sent, b.isResume = true
  complete : slot.txn.moduleComplete = true → r.txn.moduleComplete = true
  released : r.released = false
  workflow : r.txn.workflow = slot.txn.workflow
  log : ∃ ms ms', r.log = ms ++ ms' ∧ (∀ m ∈ ms ++ ms', m.txn = none) ∧
      r.txn.state = slot.txn.state ∨
    r.log = ms ++ .state x .error :: ms' ∧ (∀ m ∈ ms ++ ms', m.txn = none) ∧
      r.txn.state = .error ∧ slot.txn.state ≠ .destroyed

/-- **The end of a task**: a callback may fail, and makes calls only when its own task was
    awaited; the master resumes the transaction only when nothing is awaited. -/
theorem Inv.answered (hinv : s.Inv) {i : Nat} {e : Event} (hi : s.net[i]? = some e)
    (hfirst : ∀ e' ∈ s.net.take i, e'.key ≠ e.key) {t : TaskRef} {service api : Nat}
    {status : TaskStatus} {done : Bool} (hpto : e.pto = .svcTaskCb t service api status done)
    {code : ModuleCode} {x : TxnId} (howner : e.owner = .inl x) {slot : TxnSlot}
    (hslot : s.txns[x]? = some slot) {r : TxnRun}
    (hr : TxnRun.svcTaskCb ⟨bioCnt, s.services, e.dst, slot.home, x⟩ code t service status done
      ⟨slot.txn, [], [], false⟩ = .ok r) : Answered x slot r := by
  -- the callback is about a task of this transaction that has not ended
  obtain ⟨howner', k, hk, hinc⟩ := hinv.incomplete_of_callback hi hfirst hpto
  obtain rfl : x = t.txn := Sum.inl.inj (howner.symm.trans howner')
  obtain ⟨-, r₁, r₂, es, ms, k', hcomp, hset, hsame, hk', rfl⟩ := TxnRun.svcTaskCb_spec hr
  have hkt : slot.txn.taskTbl[t.taskId]? = some k := (entry_eq hslot).symm.trans hk
  have hc := (hinv.sound _ slot hslot).counts
  -- such a task holds its module up when it has a callback
  have hwait : k.cb = true → slot.txn.moduleComplete = false := by
    intro hcb
    have hpos := Txn.waiting_pos (List.mem_of_getElem? hkt) hcb hinc
    by_contra hm
    have hzero := hc.moduleComplete_iff.mp (by simpa using hm)
    omega
  -- the task after it was completed
  obtain ⟨hc₁, hstate₁, hworkflow₁, hnone₁, hsent₁, hlive₁, k₁, hk₁, hcb₁, hm₁⟩ :
      r₁.txn.Counts ∧ r₁.txn.state = slot.txn.state ∧ r₁.txn.workflow = slot.txn.workflow ∧
      (∀ m ∈ r₁.log, m.txn = none) ∧ r₁.sent = [] ∧ r₁.released = false ∧
      ∃ k₁, r₁.txn.taskTbl[t.taskId]? = some k₁ ∧ k₁.cb = k.cb ∧
        (k.cb = false → r₁.txn.moduleComplete = slot.txn.moduleComplete) := by
    cases hcomp with
    | notice hs => exact ⟨hc, rfl, rfl, by simp, rfl, rfl, k, hkt, rfl, fun _ => rfl⟩
    | @terminal k₀ txn hs hk₀ htxn =>
      have hs' : status ≠ .running := by rcases hs with rfl | rfl <;> simp
      obtain ⟨txn', htxn', hc', hspec⟩ := hc.taskSetcomplete hkt hinc hs'
      obtain rfl : txn' = txn := Except.ok.inj (htxn'.symm.trans htxn)
      have hlt := (List.getElem?_eq_some_iff.mp hkt).1
      refine ⟨hc', by rw [hspec], by rw [hspec], by simp [Mark.txn], rfl, rfl,
        { k with status }, ?_, rfl, fun hcb => ?_⟩
      · rw [hspec]
        exact List.getElem?_set_self hlt
      · rw [hspec]
        simp [Txn.moduleComplete, hcb]
  -- it is the same task after its callback was run
  have hcb' : k'.cb = k.cb := by
    rw [hset.grows.old _ (List.getElem?_eq_some_iff.mp hk₁).1, hk₁] at hk'
    rw [← Option.some.inj hk', hcb₁]
  set ms' : List Mark := if done then [Mark.taskDone t] else [] with hms'
  have hdone : ∀ m ∈ ms', m.txn = none := by
    cases done <;> simp [hms', Mark.txn]
  have hc₂ := hset.grows.counts hc₁
  refine ⟨?_, fun b hb => ?_, fun b hb hres => ?_, fun hall => ?_, fun hm => ?_,
    hset.released.trans hlive₁,
    hset.workflow.trans hworkflow₁, ?_⟩
  · rw [hc.total]
    have hlt := (List.getElem?_eq_some_iff.mp hkt).1
    omega
  · -- what is sent is about this transaction
    rw [hset.sent, hsent₁, List.nil_append] at hb
    rcases List.mem_append.mp hb with hb | hb
    · exact (hset.grows.sends b hb).owner
    · rw [List.mem_singleton.mp hb]
  · -- only the report may say that it is to be resumed, and only when its module is complete
    rw [hset.sent, hsent₁, List.nil_append] at hb
    rcases List.mem_append.mp hb with hb | hb
    · exact absurd hres (by simp [hset.quiet b hb])
    · rw [List.mem_singleton.mp hb] at hres
      have hflag : (if k'.cb then r₂.txn.moduleComplete else r₂.txn.alltaskComplete) = true := hres
      split at hflag
      · exact hflag
      · exact hc₂.moduleComplete_of_all hflag
  · -- when all tasks are complete the report says so
    refine ⟨_, List.mem_append_right _ (List.mem_singleton_self _), ?_⟩
    simp only [Event.isResume]
    split
    · exact hc₂.moduleComplete_of_all hall
    · exact hall
  · -- a module that was complete before had no callback to wait for
    have hnocb : k.cb = false := by
      by_contra hcb
      exact absurd (hm.symm.trans (hwait (by simpa using hcb))) (by simp)
    obtain rfl := hsame (.inl (hcb'.trans hnocb))
    exact (hm₁ hnocb).trans hm
  · -- the callback failed or not, its marks come last
    rcases hset.state with ⟨rfl, hst⟩ | ⟨rfl, hst, hne⟩
    · refine ⟨r₁.log, ms', .inl ⟨by rw [hset.log, List.append_nil], fun m hm => ?_,
        hst.trans hstate₁⟩⟩
      exact (List.mem_append.mp hm).elim (hnone₁ m) (hdone m)
    · refine ⟨r₁.log, ms', .inr ⟨by rw [hset.log, List.append_assoc]; rfl, fun m hm => ?_, hst,
        hstate₁ ▸ hne⟩⟩
      exact (List.mem_append.mp hm).elim (hnone₁ m) (hdone m)

end TxnSystem

end Skull
