import Skull.Txn.Placed
import Skull.Txn.Terminal
import Skull.Txn.Contain

namespace Skull

open Machines

/-!
# Every object has its scheduler

The schedulers run at the same time and take no locks.  That is sound because each object is
written by one of them only: services by the master, a transaction by the scheduler of its entity,
the pending calls of a task by the scheduler that ran its body:

* `TxnSystem.runsOn` — the scheduler on which an action runs;
* `TxnSystem.Confined` — what a step on a scheduler may write and send;
* `TxnSystem.Hosts` — messages, queued tasks and pending calls agree on where a task runs;
* `TxnSystem.exec_confined` — one step;
* `TxnSystem.confined_run` — a whole run, with one scheduler for the pending calls of each task.
-/

/-- What a stage says about the scheduler that a task runs on. -/
def Stage.Fits (host : Option Sched) : Stage → Prop
  | .call d | .notice d _ | .answer d _ _ => host = some d
  | .waiting _ | .running _ | .refusal _ => host = none
  | .stray => True

/-- Where the stage is that of a message for another owner, it says nothing. -/
theorem Stage.Fits.stageFor {owner : TxnId ⊕ Nat} {t : TaskRef} {p : Stage}
    {g : TaskRef → Option Sched} (h : p.Fits (g t)) :
    (Skull.stageFor owner t p).2.Fits (g (Skull.stageFor owner t p).1) := by
  show (if owner = .inl t.txn then p else .stray).Fits (g t)
  split
  · exact h
  · trivial

/-! ### The handlers for a transaction -/

/-- The message is not about one of the first `n` tasks of the transaction. -/
def TxnEnv.Fresh (v : TxnEnv) (n : Nat) (e : Event) : Prop :=
  ∀ k ∈ e.token, k.1.txn = v.id ∧ n ≤ k.1.taskId ∧ k.2 = .waiting v.sched

namespace TxnRun

variable {v : TxnEnv} {r r' : TxnRun}

/-- An operation completes tasks and adds others. -/
theorem Op.tasks (h : Op v r r') : r.txn.taskTbl.length ≤ r'.txn.taskTbl.length ∧
    ∀ (id : Nat) (k : TxnTask), r.txn.taskTbl[id]? = some k →
      ∃ status, r'.txn.taskTbl[id]? = some { k with status } := by
  -- most of them leave the table alone
  have hsame : r'.txn.taskTbl = r.txn.taskTbl →
      r.txn.taskTbl.length ≤ r'.txn.taskTbl.length ∧
        ∀ (id : Nat) (k : TxnTask), r.txn.taskTbl[id]? = some k →
          ∃ status, r'.txn.taskTbl[id]? = some { k with status } := by
    intro htbl
    rw [htbl]
    exact ⟨le_rfl, fun id k hk => ⟨k.status, hk⟩⟩
  cases h with
  | setstate h =>
    obtain ⟨rfl, -⟩ := setstate_ok h
    exact hsame rfl
  | iocall h =>
    obtain ⟨es, hcalled⟩ := iocall_spec h
    refine ⟨hcalled.grows.len, fun id k hk => ⟨k.status, ?_⟩⟩
    rw [hcalled.grows.old id (List.getElem?_eq_some_iff.mp hk).1]
    exact hk
  | next =>
    refine hsame ?_
    rw [nextModule_frame]
  | mark | goOn | report => exact hsame rfl
  | destroy => exact hsame (by rw [(txnLogAndDestroy_txn r).1])
  | @complete taskId status txn h =>
    simp only [Txn.taskSetcomplete] at h
    split at h
    · cases hk₀ : r.txn.taskTbl[taskId]? with
      | none => simp [hk₀] at h
      | some k₀ =>
        simp only [hk₀] at h
        rw [← Except.ok.inj h]
        refine ⟨by simp, fun id k hk => ?_⟩
        by_cases hid : taskId = id
        · subst hid
          obtain rfl := Option.some.inj (hk₀.symm.trans hk)
          exact ⟨status, by simp [List.getElem?_set_self (List.getElem?_eq_some_iff.mp hk).1]⟩
        · exact ⟨k.status, by simpa [List.getElem?_set_ne hid] using hk⟩
    · exact absurd h (by simp)

/-- An operation sends messages about new tasks. -/
theorem Op.sendsFresh (h : Op v r r') :
    ∀ e ∈ r'.sent, e ∈ r.sent ∨ v.Fresh r.txn.taskTbl.length e := by
  -- one message is added, if any
  have hadd : ∀ {b : Event}, v.Fresh r.txn.taskTbl.length b →
      ∀ e ∈ r.sent ++ [b], e ∈ r.sent ∨ v.Fresh r.txn.taskTbl.length e := by
    intro b hb e he
    rcases List.mem_append.mp he with he | he
    · exact .inl he
    · exact .inr (List.mem_singleton.mp he ▸ hb)
  cases h with
  | setstate h =>
    obtain ⟨rfl, -⟩ := setstate_ok h
    exact fun e he => .inl he
  | iocall h =>
    obtain ⟨es, hcalled⟩ := iocall_spec h
    intro e he
    rw [hcalled.sent] at he
    rcases List.mem_append.mp he with he | he
    · exact .inl he
    · refine .inr fun k hk => ?_
      have hmem : k.2 ∈ stagesOf k.1 (es.filterMap Event.token) := by
        refine Multiset.mem_coe.mpr (List.mem_map.mpr ⟨k, List.mem_filter.mpr ⟨?_, by simp⟩, rfl⟩)
        exact List.mem_filterMap.mpr ⟨e, he, hk⟩
      rw [hcalled.grows.tokens k.1] at hmem
      split at hmem
      · rename_i hnew
        exact ⟨hnew.1, hnew.2.1, Multiset.mem_singleton.mp hmem⟩
      · simp at hmem
  | next | mark | complete => exact fun e he => .inl he
  | goOn => exact hadd fun k hk => by simp [Event.token] at hk
  | destroy =>
    intro e he
    rw [(txnLogAndDestroy_txn r).2.1] at he
    exact .inl he
  | report => exact hadd fun k hk => by simp [Event.token] at hk

/-- **A handler** completes tasks, adds others and sends messages about those that it added. -/
theorem Did.tasks (h : Did v r r') : r.txn.taskTbl.length ≤ r'.txn.taskTbl.length ∧
    (∀ (id : Nat) (k : TxnTask), r.txn.taskTbl[id]? = some k →
      ∃ status, r'.txn.taskTbl[id]? = some { k with status }) ∧
    ∀ e ∈ r'.sent, e ∈ r.sent ∨ v.Fresh r.txn.taskTbl.length e := by
  induction h with
  | refl => exact ⟨le_rfl, fun id k hk => ⟨k.status, hk⟩, fun e he => .inl he⟩
  | @tail r₁ r₂ _ hop ih =>
    obtain ⟨hlen, htasks, hsent⟩ := ih
    obtain ⟨hlen', htasks'⟩ := hop.tasks
    refine ⟨hlen.trans hlen', fun id k hk => ?_, fun e he => ?_⟩
    · obtain ⟨status, hk₁⟩ := htasks id k hk
      obtain ⟨status', hk₂⟩ := htasks' id _ hk₁
      exact ⟨status', hk₂⟩
    · rcases hop.sendsFresh e he with he | hfresh
      · exact hsent e he
      · refine .inr fun k hk => ?_
        obtain ⟨htxn, hle, hstage⟩ := hfresh k hk
        exact ⟨htxn, hlen.trans hle, hstage⟩

end TxnRun

namespace TxnSystem

variable {s s' : TxnSystem} {bioCnt : Nat} {g host : TaskRef → Option Sched}

/-! ### What a step may write -/

/-- The scheduler on which an action runs. -/
def runsOn (s : TxnSystem) : TxnAction → Sched
  | .create _ home _ _ => home
  | .deliver _ src => src
  | .handle i _ => (s.net[i]?.map Event.dst).getD .master
  | .epCb i _ | .jobTriggered i => (s.calls[i]?.map PendingCall.sched).getD .master
  | .npTriggered src .. => src

/-- **What a step on the scheduler `on` may write and send**, where the pending calls of a task are
    counted on its `host`. -/
structure Confined (host : TaskRef → Option Sched) (on : Sched) (s s' : TxnSystem) : Prop where
  /-- The master writes the services, whose apis stay. -/
  services : s'.services = s.services ∨ on = .master
  apis : SameApis s.services s'.services
  /-- A transaction is written on its scheduler, but for the mark that it was delivered. -/
  txns : ∀ (x : TxnId) (slot : TxnSlot), s.txns[x]? = some slot → ∃ slot', s'.txns[x]? = some slot' ∧
    (on = slot.home ∨ bare slot' = bare { slot with delivered := slot'.delivered })
  /-- A task is completed there, and its pending calls are counted on its host. -/
  tasks : ∀ (t : TaskRef) (k : TxnTask), s.entry t = some k → ∃ k', s'.entry t = some k' ∧
    (k' = k ∨ on = s.home t.txn ∧ k' = { k with status := k'.status } ∨
      host t = some on ∧ k' = { k with pendings := k'.pendings })
  /-- Messages carry the name of their sender. -/
  sent : ∀ e ∈ s'.net, e ∈ s.net ∨ e.src = on

/-- Transactions that stay. -/
theorem txns_kept {on : Sched} (htxns : s'.txns = s.txns) (x : TxnId) (slot : TxnSlot)
    (hslot : s.txns[x]? = some slot) : ∃ slot', s'.txns[x]? = some slot' ∧
      (on = slot.home ∨ bare slot' = bare { slot with delivered := slot'.delivered }) :=
  ⟨slot, htxns ▸ hslot, .inr rfl⟩

/-- A task is kept, or its status changes at home. -/
theorem tasks_kept {on : Sched} (htxns : s'.txns = s.txns) (t : TaskRef) (k : TxnTask)
    (hk : s.entry t = some k) : ∃ k', s'.entry t = some k' ∧
      (k' = k ∨ on = s.home t.txn ∧ k' = { k with status := k'.status } ∨
        host t = some on ∧ k' = { k with pendings := k'.pendings }) :=
  ⟨k, by rw [entry, htxns]; exact hk, .inl rfl⟩

/-- A step that only sends. -/
theorem Confined.sends {on : Sched} (hsvc : s'.services = s.services) (htxns : s'.txns = s.txns)
    (hnet : ∀ e ∈ s'.net, e ∈ s.net ∨ e.src = on) : Confined host on s s' where
  services := .inl hsvc
  apis := by rw [SameApis, hsvc]
  txns := txns_kept htxns
  tasks := tasks_kept htxns
  sent := hnet

/-- A handler of the master on the service `k`. -/
theorem Confined.onService {k : Nat} {svc svc' : Service} (hk : s.services[k]? = some svc)
    (hsvc : s'.services = s.services.set k svc') (hname : svc'.name = svc.name)
    (hapis : svc'.apis = svc.apis) (htxns : s'.txns = s.txns)
    (hnet : ∀ e ∈ s'.net, e ∈ s.net ∨ e.src = .master) : Confined host .master s s' where
  services := .inr rfl
  apis := hsvc ▸ sameApis_set hk hname hapis
  txns := txns_kept htxns
  tasks := tasks_kept htxns
  sent := hnet

/-- The pending calls of the task `t` are counted. -/
theorem Confined.counted {on : Sched} {t : TaskRef} (hhost : host t = some on) {s₀ s₁ : TxnSystem}
    (hs₀ : s₀.txns = s.txns ∧ s₀.services = s.services) (hc : Counted t s₀ s₁)
    (hpend : ∀ k, s.entry t = some k → ∃ n, s₁.entry t = some { k with pendings := n })
    (hs' : s'.txns = s₁.txns ∧ s'.services = s₁.services)
    (hnet : ∀ e ∈ s'.net, e ∈ s.net ∨ e.src = on) : Confined host on s s' where
  services := .inl (hs'.2.trans (hc.services.trans hs₀.2))
  apis := by rw [SameApis, hs'.2, hc.services, hs₀.2]
  txns x slot hslot := by
    have hbare : s'.txns.map TxnSystem.bare = s.txns.map TxnSystem.bare := by
      rw [hs'.1, hc.bare, hs₀.1]
    have hx := congrArg (·[x]?) hbare
    simp only [List.getElem?_map, hslot, Option.map_some] at hx
    obtain ⟨slot', hslot', hb⟩ := Option.map_eq_some_iff.mp hx
    refine ⟨slot', hslot', .inr ?_⟩
    have hdel : slot'.delivered = slot.delivered := by
      show (TxnSystem.bare slot').delivered = (TxnSystem.bare slot).delivered
      rw [hb]
    rw [hb, hdel]
  tasks t' k hk := by
    have hentry : ∀ u, s'.entry u = s₁.entry u := fun u => by rw [entry, entry, hs'.1]
    by_cases ht : t' = t
    · subst ht
      obtain ⟨n, hn⟩ := hpend k hk
      exact ⟨_, (hentry _).trans hn, .inr (.inr ⟨hhost, rfl⟩)⟩
    · refine ⟨k, ?_, .inl rfl⟩
      rw [hentry, hc.other t' ht, entry, hs₀.1]
      exact hk
  sent := hnet

/-- A handler for the transaction `x` at home. -/
theorem Confined.commit {i : Nat} {x : TxnId} {slot : TxnSlot} (hslot : s.txns[x]? = some slot)
    {v : TxnEnv} (hv : v.id = x) (hhome : v.sched = slot.home) {r : TxnRun}
    (hdid : TxnRun.Did v ⟨slot.txn, [], [], false⟩ r) :
    Confined host v.sched s (({ s with net := s.net.eraseIdx i } : TxnSystem).commit x r) where
  services := .inl rfl
  apis := rfl
  txns y slot' hslot' := by
    rw [txns_commit (s := { s with net := s.net.eraseIdx i }) hslot]
    -- the transaction of the handler is at home where the handler runs
    by_cases hy : y = x
    · subst hy
      obtain rfl := Option.some.inj (hslot.symm.trans hslot')
      rw [if_pos rfl]
      exact ⟨_, rfl, .inl hhome⟩
    · rw [if_neg hy]
      exact ⟨slot', hslot', .inr rfl⟩
  tasks t k hk := by
    have htxns := txns_commit (s := { s with net := s.net.eraseIdx i }) hslot (r := r) t.txn
    -- only its own tasks may change
    by_cases ht : t.txn = x
    · rw [if_pos ht] at htxns
      rw [← ht] at hslot
      obtain ⟨status, hstatus⟩ := hdid.tasks.2.1 t.taskId k ((entry_eq hslot).symm.trans hk)
      refine ⟨{ k with status }, (entry_eq htxns).trans hstatus, .inr (.inl ⟨?_, rfl⟩)⟩
      rw [hhome, home_eq hslot]
    · rw [if_neg ht] at htxns
      refine ⟨k, ?_, .inl rfl⟩
      rw [entry, htxns]
      exact hk
  -- what it sends is sent from there
  sent e he := by
    rcases List.mem_append.mp he with he | he
    · exact .inl (mem_of_mem_take he)
    · exact .inr (((hdid.sends e he).resolve_left List.not_mem_nil).src)

/-- Tasks stay. -/
theorem Confined.entry_none {on : Sched} (h : Confined host on s s') {t : TaskRef}
    (hnone : s'.entry t = none) : s.entry t = none := by
  by_contra hk
  obtain ⟨k, hk⟩ := Option.ne_none_iff_exists'.mp hk
  obtain ⟨k', hk', -⟩ := h.tasks t k hk
  exact absurd (hk'.symm.trans hnone) (by simp)

/-! ### Where a task runs -/

/-- Everything in the system that is about a task agrees on where it runs, and a task that is not in
    its table does not run. -/
structure Hosts (g : TaskRef → Option Sched) (s : TxnSystem) : Prop where
  net : ∀ e ∈ s.net, ∀ k ∈ e.token, k.2.Fits (g k.1)
  calls : ∀ c ∈ s.calls, c.token.2.Fits (g c.token.1)
  queued : ∀ svc ∈ s.services, ∀ q ∈ svc.queued, ∀ k ∈ q.token, k.2.Fits (g k.1)
  fresh : ∀ t, s.entry t = none → g t = none

/-- The scheduler of a `SK_PTO_SVC_TASK_RUN` becomes the host of its task. -/
def hosted (s : TxnSystem) (a : TxnAction) (g : TaskRef → Option Sched) :
    TaskRef → Option Sched :=
  match a with
  | .handle i _ =>
    match s.net[i]? with
    | none => g
    | some e =>
      match e.pto with
      | .svcTaskRun _ _ _ _ t => Function.update g t (some e.dst)
      | _ => g
  | _ => g

/-- What is in the system about a task is one of its stages. -/
theorem mem_stages_of_tokens {t : TaskRef} {a : Stage} (h : (t, a) ∈ s.tokens) :
    a ∈ s.stages t :=
  Multiset.mem_coe.mpr (List.mem_map.mpr ⟨(t, a), List.mem_filter.mpr ⟨h, by simp⟩, rfl⟩)

/-- A queued task is a token. -/
theorem queue_token {svc : Service} (hsvc : svc ∈ s.services) {q : SrvTask} (hq : q ∈ svc.queued)
    {k : TaskRef × Stage} (hk : k ∈ q.token) : k ∈ s.tokens := by
  refine List.mem_append_right _ (List.mem_append_right _ (List.mem_flatMap.mpr ⟨svc, hsvc, ?_⟩))
  exact List.mem_filterMap.mpr ⟨q, hq, hk⟩

theorem call_token {c : PendingCall} (hc : c ∈ s.calls) : c.token ∈ s.tokens :=
  List.mem_append_right _ (List.mem_append_left _ (List.mem_map_of_mem hc))

theorem net_token {e : Event} (he : e ∈ s.net) {k : TaskRef × Stage} (hk : k ∈ e.token) :
    k ∈ s.tokens :=
  List.mem_append_left _ (List.mem_filterMap.mpr ⟨e, he, hk⟩)

/-- No sender makes a stray message. -/
theorem Inv.not_stray (h : s.Inv) {k : TaskRef × Stage} (hk : k ∈ s.tokens) : k.2 ≠ .stray := by
  intro hstray
  obtain ⟨p, hp⟩ := h.accounts k.1
  have hmem : k.2 ∈ s.stages k.1 := mem_stages_of_tokens hk
  rw [hp.stages, hstray] at hmem
  exact Progress.not_stray hmem

/-- A task of a service agrees on where the task runs that it is about. -/
structure Agrees (g : TaskRef → Option Sched) (q : SrvTask) : Prop where
  fits : ∀ k ∈ q.token, k.2.Fits (g k.1)
  stray : ∀ k ∈ q.token, k.2 ≠ .stray

/-- A call that waits has no host. -/
theorem Agrees.api {q : SrvTask} (h : Agrees g q) {srv api : Nat} {txn : TxnId} {t : TaskRef}
    (hdata : q.data = .api srv txn api t) : g t = none := by
  have htok : q.token = some (stageFor (.inl txn) t (.waiting q.src)) := by
    rw [SrvTask.token, hdata]
  have hfits := h.fits _ htok
  have hstray := h.stray _ htok
  unfold stageFor at hfits hstray
  split at hstray
  · rwa [if_pos ‹_›] at hfits
  · exact absurd rfl hstray

/-- A job runs where its task does. -/
theorem Agrees.timer {q : SrvTask} (h : Agrees g q) {entity interval : Nat} {ud : JobData}
    {valid : Bool} (hdata : q.data = .timer entity ud valid interval) {t : TaskRef}
    (ht : ud.task = some t) : q.bidx = 0 ∧ g t = some q.src := by
  have htok : q.token = some (t, if q.bidx = 0 then .call q.src else .stray) := by
    simp [SrvTask.token, hdata, ht]
  have hfits := h.fits _ htok
  have hstray := h.stray _ htok
  by_cases hbidx : q.bidx = 0
  · rw [if_pos hbidx] at hfits
    exact ⟨hbidx, hfits⟩
  · rw [if_neg hbidx] at hstray
    exact absurd rfl hstray

/-- A task that is sent to a scheduler. -/
theorem Agrees.run {q : SrvTask} (h : Agrees g q) {dst : Sched}
    (hdst : Service.findTargetSched bioCnt q.src q.bidx = .ok dst) (name : Nat) :
    ∀ k ∈ (q.runEvent name dst).token, k.2.Fits (g k.1) := by
  intro k hk
  unfold SrvTask.runEvent at hk
  cases hdata : q.data with
  | api srv txn api t =>
    simp only [hdata, Event.token, Option.mem_def, Option.some.injEq] at hk
    exact hk ▸ Stage.Fits.stageFor (p := .running q.src) (h.api hdata)
  | timer entity ud valid interval =>
    simp only [hdata, Event.token, Option.mem_def, Option.map_eq_some_iff] at hk
    obtain ⟨t, ht, rfl⟩ := hk
    obtain ⟨hbidx, hhost⟩ := h.timer hdata ht
    rw [Service.findTargetSched, if_pos hbidx] at hdst
    rw [← Except.ok.inj hdst]
    exact hhost

/-- One that is refused. -/
theorem Agrees.refuse {q : SrvTask} (h : Agrees g q) (name : Nat) :
    ∀ k ∈ (q.busyEvent name).token, k.2.Fits (g k.1) := by
  intro k hk
  unfold SrvTask.busyEvent at hk
  cases hdata : q.data with
  | api srv txn api t =>
    simp only [hdata, Event.token, Option.mem_def, Option.some.injEq] at hk
    exact hk ▸ Stage.Fits.stageFor (p := .refusal q.src) (h.api hdata)
  | timer entity ud valid interval =>
    simp only [hdata, Event.token, Option.mem_def, Option.map_eq_some_iff] at hk
    obtain ⟨t, ht, rfl⟩ := hk
    exact (h.timer hdata ht).2

/-- A queued task is at its host. -/
theorem Hosts.agrees (h : s.Hosts g) (hinv : s.Inv) {svc : Service} (hsvc : svc ∈ s.services)
    {q : SrvTask} (hq : q ∈ svc.queued) : Agrees g q :=
  ⟨h.queued svc hsvc q hq, fun _ hk => hinv.not_stray (queue_token hsvc hq hk)⟩

/-- Messages, pending calls and queued tasks are those of before, or agree. -/
theorem Hosts.step {on : Sched} (h : s.Hosts g) (hc : Confined g on s s')
    (hnet : ∀ e ∈ s'.net, e ∈ s.net ∨ ∀ k ∈ e.token, k.2.Fits (g k.1))
    (hcalls : ∀ c ∈ s'.calls, c ∈ s.calls ∨ c.token.2.Fits (g c.token.1))
    (hqueued : ∀ svc ∈ s'.services, svc ∈ s.services ∨
      ∀ q ∈ svc.queued, ∀ k ∈ q.token, k.2.Fits (g k.1)) : s'.Hosts g where
  net e he := (hnet e he).elim (h.net e) id
  calls c hc' := (hcalls c hc').elim (h.calls c) id
  queued svc hsvc := (hqueued svc hsvc).elim (h.queued svc) id
  fresh t ht := h.fresh t (hc.entry_none ht)

/-- A round of scheduling. -/
theorem fits_of_round {svc svc' : Service} {xs : List Scheduled}
    (hc : svc.Conserves bioCnt xs svc') (hq : ∀ q ∈ svc.queued, Agrees g q) :
    (∀ e ∈ xs.map Scheduled.event, ∀ k ∈ e.token, k.2.Fits (g k.1)) ∧
      ∀ q ∈ svc'.queued, ∀ k ∈ q.token, k.2.Fits (g k.1) := by
  have hmem : ∀ q, q ∈ xs.map Scheduled.task ∨ q ∈ svc'.queued → Agrees g q := fun q hq' =>
    hq q (hc.queued.mem_iff.mpr (List.mem_append.mpr hq'))
  refine ⟨fun e he => ?_, fun q hq' => (hmem q (.inr hq')).fits⟩
  obtain ⟨x, hx, rfl⟩ := List.mem_map.mp he
  obtain ⟨dst, hdst, hevent⟩ := hc.event x hx
  rw [hevent]
  exact (hmem x.task (.inl (List.mem_map_of_mem hx))).run hdst _

/-- The master sends what a round of scheduling does. -/
theorem src_of_round {svc svc' : Service} {xs : List Scheduled}
    (hc : svc.Conserves bioCnt xs svc') : ∀ e ∈ xs.map Scheduled.event, e.src = .master := by
  intro e he
  obtain ⟨x, hx, rfl⟩ := List.mem_map.mp he
  obtain ⟨dst, -, hevent⟩ := hc.event x hx
  rw [hevent]
  rfl

/-- A step has been taken on `on`: what it wrote, and where the tasks run after it. -/
def Took (g : TaskRef → Option Sched) (on : Sched) (s s' : TxnSystem) : Prop :=
  Confined g on s s' ∧ s'.Hosts g

/-- **A task is offered** to a service. -/
theorem Hosts.offer (h : s.Hosts g) (hinv : s.Inv) {i k : Nat} {svc : Service} {q : SrvTask}
    (hk : s.services[k]? = some svc) (hq : Agrees g q)
    {r : (SrvTask × (Event ⊕ List Scheduled)) × Service} (ho : svc.Offered bioCnt q r) :
    Took g .master s (afterOffer k { s with net := s.net.eraseIdx i } r) := by
  have hold : ∀ p ∈ svc.queued, Agrees g p := fun p => h.agrees hinv (List.mem_of_getElem? hk)
  cases ho with
  -- the queue is full, and the refusal goes back to the caller
  | @busy svc' hqueued hname hapis =>
    have hc : Confined g .master s (afterOffer k { s with net := s.net.eraseIdx i }
        ((q, .inl (q.busyEvent svc.name)), svc')) := by
      refine .onService hk rfl hname hapis rfl fun e he => ?_
      rcases List.mem_append.mp he with he | he
      · exact .inl (mem_of_mem_take he)
      · exact .inr (by rw [List.mem_singleton.mp he]; rfl)
    refine ⟨hc, h.step hc (fun e he => ?_) (fun c hc' => .inl hc') fun svc₀ hmem => ?_⟩
    · rcases List.mem_append.mp he with he | he
      · exact .inl (mem_of_mem_take he)
      · exact .inr (List.mem_singleton.mp he ▸ hq.refuse _)
    · rcases List.mem_or_eq_of_mem_set hmem with hmem | rfl
      · exact .inl hmem
      · exact .inr fun p hp => (hold p (hqueued.mem_iff.mp hp)).fits
  -- the task waits, and the service has a round with it
  | @queued svc₁ svc' xs hqueued hname hapis hround =>
    have hq₁ : ∀ p ∈ svc₁.queued, Agrees g p := by
      intro p hp
      rcases List.mem_append.mp (hqueued.mem_iff.mp hp) with hp | hp
      · exact hold p hp
      · exact List.mem_singleton.mp hp ▸ hq
    -- what the round takes from the queue and what it leaves agree with the hosts
    obtain ⟨hes, hleft⟩ := fits_of_round hround hq₁
    have hc : Confined g .master s (afterOffer k { s with net := s.net.eraseIdx i }
        ((q, .inr xs), svc')) := by
      refine .onService hk rfl (hround.name.trans hname) (hround.apis.trans hapis) rfl
        fun e he => ?_
      rcases List.mem_append.mp he with he | he
      · exact .inl (mem_of_mem_take he)
      · exact .inr (src_of_round hround e he)
    refine ⟨hc, h.step hc (fun e he => ?_) (fun c hc' => .inl hc') fun svc₀ hmem => ?_⟩
    · rcases List.mem_append.mp he with he | he
      · exact .inl (mem_of_mem_take he)
      · exact .inr (hes e he)
    · rcases List.mem_or_eq_of_mem_set hmem with hmem | rfl
      · exact .inl hmem
      · exact .inr hleft

/-- **A report**, and the round after it. -/
theorem Hosts.report (h : s.Hosts g) (hinv : s.Inv) {i k : Nat} {svc svc' : Service}
    {xs : List Scheduled} (hk : s.services[k]? = some svc) (hround : svc.Conserves bioCnt xs svc')
    (es : List Event) (hes : ∀ e ∈ es, e.src = .master ∧ e.token = none) :
    Took g .master s (afterRound k { s with net := s.net.eraseIdx i ++ es } (xs, svc')) := by
  obtain ⟨hxs, hleft⟩ := fits_of_round hround fun p => h.agrees hinv (List.mem_of_getElem? hk)
  have hc : Confined g .master s
      (afterRound k { s with net := s.net.eraseIdx i ++ es } (xs, svc')) := by
    refine .onService hk rfl hround.name hround.apis rfl fun e he => ?_
    rcases List.mem_append.mp he with he | he
    · rcases List.mem_append.mp he with he | he
      · exact .inl (mem_of_mem_take he)
      · exact .inr (hes e he).1
    · exact .inr (src_of_round hround e he)
  refine ⟨hc, h.step hc (fun e he => ?_) (fun c hc' => .inl hc') fun svc₀ hmem => ?_⟩
  · rcases List.mem_append.mp he with he | he
    · rcases List.mem_append.mp he with he | he
      · exact .inl (mem_of_mem_take he)
      · exact .inr (by simp [(hes e he).2])
    · exact .inr (hxs e he)
  · rcases List.mem_or_eq_of_mem_set hmem with hmem | rfl
    · exact .inl hmem
    · exact .inr hleft

/-! ### Pending calls -/

/-- The pending calls of a piece of service code call back where it runs. -/
theorem pendingCalls_token {sched : Sched} {service : Nat} {t : TaskRef}
    {kinds : List PendingKind} (h : s.pendingCalls sched service t kinds = .ok s') :
    ∀ c ∈ s'.calls, c ∈ s.calls ∨ c.token = (t, .call sched) := by
  induction kinds generalizing s with
  | nil => exact Except.ok.inj h ▸ fun c hc => .inl hc
  | cons kind kinds ih =>
    obtain ⟨s₁, h1, h2⟩ := except_bind_ok.mp h
    intro c hc
    rcases ih h2 c hc with hc | hc
    · obtain ⟨k, -, rfl⟩ := except_map_ok.mp h1
      cases kind <;> rcases List.mem_append.mp hc with hc | hc
      · exact .inl hc
      · exact .inr (by rw [List.mem_singleton.mp hc]; rfl)
      · exact .inl hc
      · exact .inr (by rw [List.mem_singleton.mp hc]; simp [PendingCall.token])
    · exact .inr hc

/-- **A callback of a pending call** on the host of its task. -/
theorem Hosts.callBack (h : s.Hosts g) {on : Sched} {t : TaskRef} (hhost : g t = some on)
    (s₀ : TxnSystem) (hs₀ : s₀.txns = s.txns ∧ s₀.services = s.services)
    (hnet : ∀ e ∈ s₀.net, e ∈ s.net) (hcalls : ∀ c ∈ s₀.calls, c ∈ s.calls) {service : Nat}
    {calls : List PendingKind} (hx : s₀.pendingCb on service t calls = .ok s') :
    Took g on s s' := by
  obtain ⟨s₁, h1, hx⟩ := except_bind_ok.mp hx
  obtain ⟨k₁, hk₁, h2⟩ := except_bind_ok.mp hx
  obtain ⟨hc₂, hentry₁, hentry₂⟩ := counted_setTask hk₁ (k₁.pendings - 1)
  have hcounted := (pendingCalls_counted h1).trans hc₂
  obtain ⟨k', -, rfl⟩ := apiComplete_spec h2
  set s₂ := s₁.setTask t { k₁ with pendings := k₁.pendings - 1 } with hs₂
  -- the task has the entry of before, but for what it waits for
  have hpend : ∀ k, s.entry t = some k → ∃ n, s₂.entry t = some { k with pendings := n } := by
    intro k hk
    have hk₀ : s₀.entry t = some k := by rw [entry, hs₀.1]; exact hk
    obtain ⟨-, hentry, -⟩ := pendingCalls_spec h1 hk₀
    obtain rfl := Option.some.inj (hentry₁.symm.trans hentry)
    exact ⟨_, hentry₂⟩
  have hnew : ∀ c ∈ s₂.calls, c ∈ s.calls ∨ c.token.2.Fits (g c.token.1) := by
    intro c hc
    rcases pendingCalls_token h1 c hc with hc | hc
    · exact .inl (hcalls c hc)
    · rw [hc]
      exact .inr hhost
  have hold : ∀ e ∈ s₂.net, e ∈ s.net := fun e he => hnet e (hcounted.net ▸ he)
  have hsvcs : ∀ svc ∈ s₂.services, svc ∈ s.services := fun svc hsvc => by
    rw [← hs₀.2, ← hcounted.services]
    exact hsvc
  split
  · have hc : Confined g on s (s₂.send ⟨on, s₂.home t.txn, .inl t.txn,
        .svcTaskCb t service k'.apiName .done false⟩) := by
      refine .counted hhost hs₀ hcounted hpend ⟨rfl, rfl⟩ fun e he => ?_
      rcases List.mem_append.mp he with he | he
      · exact .inl (hold e he)
      · exact .inr (by rw [List.mem_singleton.mp he])
    refine ⟨hc, h.step hc (fun e he => ?_) hnew fun svc hsvc => .inl (hsvcs svc hsvc)⟩
    rcases List.mem_append.mp he with he | he
    · exact .inl (hold e he)
    · rw [List.mem_singleton.mp he]
      refine .inr fun k hk => ?_
      obtain rfl := Option.some.inj hk
      exact Stage.Fits.stageFor (p := .answer on (s₂.home t.txn) false) hhost
  · have hc : Confined g on s s₂ :=
      .counted hhost hs₀ hcounted hpend ⟨rfl, rfl⟩ fun e he => .inl (hold e he)
    exact ⟨hc, h.step hc (fun e he => .inl (hold e he)) hnew fun svc hsvc => .inl (hsvcs svc hsvc)⟩

/-- A message without a task is sent by the scheduler that takes the step. -/
theorem Took.send {on : Sched} (h : Took g on s s') {e : Event} (hsrc : e.src = on)
    (htok : e.token = none) : Took g on s (s'.send e) := by
  obtain ⟨hc, hh⟩ := h
  refine ⟨⟨hc.services, hc.apis, hc.txns, hc.tasks, fun b hb => ?_⟩, fun b hb => ?_, hh.calls,
    hh.queued, hh.fresh⟩
  · rcases List.mem_append.mp hb with hb | hb
    · exact hc.sent b hb
    · exact .inr (List.mem_singleton.mp hb ▸ hsrc)
  · rcases List.mem_append.mp hb with hb | hb
    · exact hh.net b hb
    · rw [List.mem_singleton.mp hb, htok]
      simp

/-- **The body of an api** makes its scheduler the host of the task, about which there was nothing
    else in the system. -/
theorem Hosts.taskRun (h : s.Hosts g) (hinv : s.Inv) {i : Nat} {e : Event}
    (hi : s.net[i]? = some e) {t : TaskRef} {service api : Nat} {io : IoStatus} {caller : Sched}
    (hpto : e.pto = .svcTaskRun service api io caller t) {code : UserCode}
    (hx : ({ s with net := s.net.eraseIdx i } : TxnSystem).svcTaskRun e service api caller t code =
      .ok s') : g t = none ∧ Took (Function.update g t (some e.dst)) e.dst s s' := by
  -- the body runs where it was sent, which is from now on the host of its task
  obtain ⟨s₁, k₁, h1, hk₁, rfl⟩ := svcTaskRun_ok hx
  obtain ⟨howner, -, k, hk⟩ := hinv.running hi hpto
  have htok : e.token = some (t, .running caller) := by
    rw [Event.token, hpto]
    simp [stageFor, howner]
  have hnone : g t = none := h.net e (List.mem_of_getElem? hi) _ htok
  -- there is nothing else about the task
  have hrest : ({ s with net := s.net.eraseIdx i } : TxnSystem).stages t = 0 := by
    obtain ⟨p, hp⟩ := hinv.accounts t
    have hshow := hp.stages
    rw [stages_take hi t, shows_some htok, if_pos rfl, Multiset.singleton_add] at hshow
    exact (Progress.of_running hshow).2.2
  have halone : ∀ k ∈ ({ s with net := s.net.eraseIdx i } : TxnSystem).tokens, k.1 ≠ t := by
    rintro ⟨u, a⟩ htoken rfl
    have hmem := mem_stages_of_tokens htoken
    rw [hrest] at hmem
    exact absurd hmem (Multiset.notMem_zero a)
  -- the other tasks have the hosts that they had
  have hkeep : ∀ k ∈ ({ s with net := s.net.eraseIdx i } : TxnSystem).tokens,
      k.2.Fits (g k.1) → k.2.Fits (Function.update g t (some e.dst) k.1) := by
    intro k hk hfits
    rwa [Function.update_of_ne (halone k hk)]
  have hhost : Function.update g t (some e.dst) t = some e.dst := Function.update_self ..
  have hcounted := pendingCalls_counted h1
  obtain ⟨slot, hslot, -, htbl⟩ := task_ok hk
  have hentry : s.entry t = some k := (entry_eq hslot).trans htbl
  have hpend : ∀ k, s.entry t = some k → ∃ n, s₁.entry t = some { k with pendings := n } :=
    fun k hk => ⟨_, (pendingCalls_spec h1 hk).2.1⟩
  have htaken : ({ s with net := s.net.eraseIdx i } : TxnSystem).txns = s.txns ∧
      ({ s with net := s.net.eraseIdx i } : TxnSystem).services = s.services := ⟨rfl, rfl⟩
  refine ⟨hnone, .counted hhost htaken hcounted hpend ⟨rfl, rfl⟩ fun b hb => ?_, fun b hb => ?_,
    fun c hc => ?_, fun svc hsvc q hq k hk => ?_, fun u hu => ?_⟩
  · -- the messages: the answer is the only one of the task
    rcases List.mem_append.mp hb with hb | hb
    · exact .inl (mem_of_mem_take (hcounted.net ▸ hb))
    · exact .inr (by rw [List.mem_singleton.mp hb])
  · intro k hk
    rcases List.mem_append.mp hb with hb | hb
    · rw [hcounted.net] at hb
      exact hkeep k (net_token hb hk) (h.net b (mem_of_mem_take hb) k hk)
    · rw [List.mem_singleton.mp hb] at hk
      by_cases hdone : k₁.taskDone = true
      · rw [if_pos hdone] at hk
        exact Option.some.inj hk ▸ Stage.Fits.stageFor (p := .answer e.dst caller true) hhost
      · rw [if_neg hdone] at hk
        exact Option.some.inj hk ▸ Stage.Fits.stageFor (p := .notice e.dst caller) hhost
  · -- the calls: those that the body makes wait on its own thread
    rcases pendingCalls_token h1 c hc with hc | hc
    · exact hkeep _ (call_token hc) (h.calls c hc)
    · rw [hc]
      exact hhost
  · -- the queues keep what they had
    have hsvc' : svc ∈ s.services := hcounted.services ▸ hsvc
    exact hkeep k (queue_token (s := { s with net := s.net.eraseIdx i }) hsvc' hq hk)
      (h.queued svc hsvc' q hq k hk)
  · -- a task without an entry is another one, so it has no host yet
    have hu' : s.entry u = none := by
      by_cases hut : u = t
      · subst hut
        obtain ⟨n, hn⟩ := hpend k hentry
        exact absurd (hn.symm.trans hu) (by simp)
      · exact (hcounted.other u hut).symm.trans hu
    have hut : u ≠ t := fun hut => absurd (hut ▸ hu' : s.entry t = none) (by simp [hentry])
    rw [Function.update_of_ne hut]
    exact h.fresh u hu'

/-! ### Every step -/

/-- A handler for a transaction. -/
theorem Hosts.commit (h : s.Hosts g) {i : Nat} {x : TxnId} {slot : TxnSlot}
    (hslot : s.txns[x]? = some slot) {v : TxnEnv} (hv : v.id = x) (hhome : v.sched = slot.home)
    {r : TxnRun} (hdid : TxnRun.Did v ⟨slot.txn, [], [], false⟩ r) :
    Took g v.sched s (({ s with net := s.net.eraseIdx i } : TxnSystem).commit x r) := by
  have hc : Confined g v.sched s (({ s with net := s.net.eraseIdx i } : TxnSystem).commit x r) :=
    .commit hslot hv hhome hdid
  refine ⟨hc, h.step hc (fun e he => ?_) (fun c hc' => .inl hc') fun svc hsvc => .inl hsvc⟩
  rcases List.mem_append.mp he with he | he
  · exact .inl (mem_of_mem_take he)
  · refine .inr fun k hk => ?_
    obtain ⟨htxn, hle, hstage⟩ := ((hdid.tasks.2.2 e he).resolve_left List.not_mem_nil) k hk
    -- a task that was just added was in no table
    have hnone : s.entry k.1 = none := by
      have hslot' : s.txns[k.1.txn]? = some slot := by rw [htxn, hv]; exact hslot
      exact (entry_eq hslot').trans (List.getElem?_eq_none_iff.mpr hle)
    rw [hstage]
    exact h.fresh _ hnone

/-- **A message is handled.** -/
theorem Hosts.handle (h : s.Hosts g) (hinv : s.Inv) (hplaced : s.Placed fun _ => True) {i : Nat}
    {e : Event} (hi : s.net[i]? = some e) {code : UserCode}
    (hx : ({ s with net := s.net.eraseIdx i } : TxnSystem).handle bioCnt e code = .ok s') :
    Took (s.hosted (.handle i code) g) e.dst s s' ∧
      ∀ t d, g t = some d → s.hosted (.handle i code) g t = some d := by
  have hmem := List.mem_of_getElem? hi
  have hfine := (hplaced.net e hmem).fine
  unfold TxnSystem.handle at hx
  cases hpto : e.pto with
  | workflowRun =>
    simp only [hosted, hi, hpto] at hx ⊢
    obtain ⟨x, slot, r, howner, hslot, hrel, hr, rfl⟩ := onTxn_ok hx
    -- a transaction is only touched on the thread of its home
    obtain ⟨y, howner', -, hdst⟩ := hinv.addressed e hmem e.dst (by rw [Event.side, hpto])
    obtain rfl : x = y := Sum.inl.inj (howner.symm.trans howner')
    exact ⟨h.commit (v := ⟨bioCnt, s.services, e.dst, slot.home, x⟩) hslot rfl
      (hdst.trans (home_eq hslot)) (TxnRun.run_did 4 hr), fun _ _ hd => hd⟩
  | svcTaskCb t service api status done =>
    simp only [hosted, hi, hpto] at hx ⊢
    obtain ⟨x, slot, r, howner, hslot, hrel, hr, rfl⟩ := onTxn_ok hx
    -- `_run` asserts that its thread is the home
    have hsched : e.dst = slot.home := (TxnRun.svcTaskCb_spec hr).1
    exact ⟨h.commit (v := ⟨bioCnt, s.services, e.dst, slot.home, x⟩) hslot rfl hsched
      (TxnRun.svcTaskCb_did hr), fun _ _ hd => hd⟩
  | svcTaskRun service api io caller t =>
    simp only [hosted, hi, hpto] at hx ⊢
    obtain ⟨hnone, htook⟩ := h.taskRun hinv hi hpto hx
    refine ⟨htook, fun u d hu => ?_⟩
    have hut : u ≠ t := fun hut => absurd (hut ▸ hu) (by simp [hnone])
    rw [Function.update_of_ne hut, hu]
  | svcTimerRun service ud valid status interval =>
    simp only [hosted, hi, hpto] at hx ⊢
    obtain ⟨s₁, rfl, hrun⟩ := svcTimerRun_ok hx
    refine ⟨Took.send ?_ rfl rfl, fun _ _ hd => hd⟩
    -- either no callback counts on a task
    rcases hrun with ⟨-, rfl⟩ | ⟨t, htask, h1⟩
    · have hc : Confined g e.dst s { s with net := s.net.eraseIdx i } :=
        .sends rfl rfl fun b hb => .inl (mem_of_mem_take hb)
      exact ⟨hc, h.step hc (fun b hb => .inl (mem_of_mem_take hb)) (fun c hc' => .inl hc')
        fun svc hsvc => .inl hsvc⟩
    · -- or the callback counts on the task that waits, whose host this is
      have hhost : g t = some e.dst := h.net e hmem (t, .call e.dst) (by simp [Event.token, hpto, htask])
      exact h.callBack hhost { s with net := s.net.eraseIdx i } ⟨rfl, rfl⟩
        (fun b hb => mem_of_mem_take hb) (fun c hc => hc) h1
  | svcIocall service api bidx t =>
    simp only [hosted, hi, hpto] at hx ⊢
    cases howner : e.owner with
    | inr entity => simp [howner] at hx
    | inl x =>
      simp only [howner] at hx
      obtain ⟨svc, r, hsvc, hr, rfl⟩ := onService_ok hx
      obtain ⟨type, ho⟩ := Service.svcIocall_conserves hr
      -- the task that waits is the token that the message was
      have htok : (svc.iocallTask e.src x api type bidx t).token = e.token := by
        rw [Event.token, hpto, howner]
        rfl
      have hagrees : Agrees g (svc.iocallTask e.src x api type bidx t) := by
        constructor <;> rw [htok]
        · exact h.net e hmem
        · exact fun k hk => hinv.not_stray (net_token hmem hk)
      rw [Event.Fine, hpto] at hfine
      -- the master hands it to the service
      exact ⟨hfine ▸ h.offer hinv hsvc hagrees ho, fun _ _ hd => hd⟩
  | timerEmit service ud valid bidx type interval =>
    simp only [hosted, hi, hpto] at hx ⊢
    cases howner : e.owner with
    | inl x => simp [howner] at hx
    | inr entity =>
      simp only [howner] at hx
      obtain ⟨svc, r, hsvc, hr, rfl⟩ := onService_ok hx
      have htok : (Service.emitTask e.src entity ud valid bidx type interval).token = e.token := by
        rw [Event.token, hpto]
        rfl
      have hagrees : Agrees g (Service.emitTask e.src entity ud valid bidx type interval) := by
        constructor <;> rw [htok]
        · exact h.net e hmem
        · exact fun k hk => hinv.not_stray (net_token hmem hk)
      rw [Event.Fine, hpto] at hfine
      exact ⟨hfine.1 ▸ h.offer hinv hsvc hagrees (Service.timerEmit_conserves hr),
        fun _ _ hd => hd⟩
  | svcTaskDone service resumeWf done =>
    simp only [hosted, hi, hpto] at hx ⊢
    rw [Event.Fine, hpto] at hfine
    obtain ⟨svc, ⟨xs, svc'⟩, hsvc, hr, rfl⟩ := onService_ok hx
    have hround := Service.svcTaskDone_conserves hr
    refine ⟨?_, fun _ _ hd => hd⟩
    cases resumeWf with
    | false =>
      have hrep := h.report (i := i) hinv hsvc hround [] (by simp)
      rw [List.append_nil] at hrep
      exact hfine ▸ hrep
    | true =>
      have hrep := h.report (i := i) hinv hsvc hround [⟨e.dst, e.src, e.owner, .workflowRun⟩]
        (fun b hb => by rw [List.mem_singleton.mp hb]; exact ⟨hfine, rfl⟩)
      -- the message to resume is one of the master as well
      rw [hfine] at hrep ⊢
      exact hrep
  | svcTimerDone service status interval =>
    simp only [hosted, hi, hpto] at hx ⊢
    rw [Event.Fine, hpto] at hfine
    obtain ⟨svc, ⟨xs, svc'⟩, hsvc, hr, rfl⟩ := onService_ok hx
    have hrep := h.report (i := i) hinv hsvc (Service.svcTimerDone_conserves hr) [] (by simp)
    rw [List.append_nil] at hrep
    exact ⟨hfine.1 ▸ hrep, fun _ _ hd => hd⟩

/-- **Every step** writes what its scheduler may write. -/
theorem exec_confined (h : s.Hosts g) (hinv : s.Inv) (hplaced : s.Placed fun _ => True)
    {a : TxnAction} (he : s.enabled bioCnt a) (hx : s.exec bioCnt a = .ok s') :
    Took (s.hosted a g) (s.runsOn a) s s' ∧ ∀ t d, g t = some d → s.hosted a g t = some d := by
  cases a with
  | create workflow home now immediate =>
    rw [← Except.ok.inj hx]
    -- the transactions that were there keep their numbers
    have hold : ∀ (x : TxnId) (slot : TxnSlot), s.txns[x]? = some slot →
        (s.txns ++ [⟨newTxn workflow now immediate, home, false, false⟩])[x]? = some slot := by
      intro x slot hslot
      rw [List.getElem?_append_left (List.getElem?_eq_some_iff.mp hslot).1]
      exact hslot
    have hc : Confined g home s
        { s with txns := s.txns ++ [⟨newTxn workflow now immediate, home, false, false⟩] } := by
      refine ⟨.inl rfl, rfl, fun x slot hslot => ⟨slot, hold x slot hslot, .inr rfl⟩,
        fun t k hk => ⟨k, ?_, .inl rfl⟩, fun e he => .inl he⟩
      cases hslot : s.txns[t.txn]? with
      | none => simp [entry, hslot] at hk
      | some slot => exact (entry_eq (hold _ _ hslot)).trans ((entry_eq hslot).symm.trans hk)
    exact ⟨⟨hc, h.step hc (fun e he => .inl he) (fun c hc' => .inl hc') fun svc hsvc => .inl hsvc⟩,
      fun _ _ hd => hd⟩
  | deliver x src =>
    obtain ⟨slot, hslot, -⟩ := he
    rw [Option.mem_def] at hslot
    simp only [exec, hslot] at hx
    rw [← Except.ok.inj hx]
    refine ⟨Took.send ?_ rfl rfl, fun _ _ hd => hd⟩
    -- only the mark that it was delivered changes
    have hold : ∀ (y : TxnId) (slot : TxnSlot), s.txns[y]? = some slot →
        ∃ slot', (s.txns.modify x fun slot => { slot with delivered := true })[y]? = some slot' ∧
          slot' = { slot with delivered := slot'.delivered } := by
      intro y slot hslot
      rw [List.getElem?_modify, hslot]
      refine ⟨_, rfl, ?_⟩
      split <;> rfl
    have hc : Confined g src s
        { s with txns := s.txns.modify x fun slot => { slot with delivered := true } } := by
      refine ⟨.inl rfl, rfl, fun y slot hslot => ?_, fun t k hk => ⟨k, ?_, .inl rfl⟩,
        fun e he => .inl he⟩
      · obtain ⟨slot', hslot', hsame⟩ := hold y slot hslot
        exact ⟨slot', hslot', .inr (congrArg bare hsame)⟩
      · cases hslot : s.txns[t.txn]? with
        | none => simp [entry, hslot] at hk
        | some slot =>
          obtain ⟨slot', hslot', hsame⟩ := hold _ slot hslot
          refine (entry_eq hslot').trans ?_
          rw [hsame]
          exact (entry_eq hslot).symm.trans hk
    exact ⟨hc, h.step hc (fun e he => .inl he) (fun c hc' => .inl hc') fun svc hsvc => .inl hsvc⟩
  | handle i code =>
    obtain ⟨e, hi, -⟩ := he
    rw [Option.mem_def] at hi
    simp only [exec, hi] at hx
    have hrun : s.runsOn (.handle i code) = e.dst := by simp [runsOn, hi]
    rw [hrun]
    exact h.handle hinv hplaced hi hx
  | epCb i calls =>
    obtain ⟨c, hi, hjob⟩ := he
    rw [Option.mem_def] at hi
    simp only [exec, hi] at hx
    have hmem := List.mem_of_getElem? hi
    have hrun : s.runsOn (.epCb i calls) = c.sched := by simp [runsOn, hi]
    -- the callback comes back to the thread that made the call
    have hhost : g c.task = some c.sched := by
      have hfits := h.calls c hmem
      simp only [PendingCall.token, hjob, Option.all_none, if_true] at hfits
      exact hfits
    rw [hrun]
    exact ⟨h.callBack hhost { s with calls := s.calls.eraseIdx i } ⟨rfl, rfl⟩ (fun b hb => hb)
      (fun c hc => mem_of_mem_take hc) hx, fun _ _ hd => hd⟩
  | jobTriggered i =>
    obtain ⟨c, hi, hjob⟩ := he
    rw [Option.mem_def] at hi
    obtain ⟨ud, hud⟩ := Option.isSome_iff_exists.mp hjob
    simp only [exec, hi, hud] at hx
    rw [← Except.ok.inj hx]
    have hmem := List.mem_of_getElem? hi
    have hrun : s.runsOn (.jobTriggered i) = c.sched := by simp [runsOn, hi]
    -- the job carries the task that waits for it
    have htask : ud.task = some c.task := by
      by_contra hne
      exact hinv.not_stray (call_token hmem) (by simp [PendingCall.token, hud, hne])
    have hhost : g c.task = some c.sched := by
      have hfits := h.calls c hmem
      simp only [PendingCall.token, hud, Option.all_some, htask, decide_true, if_true] at hfits
      exact hfits
    rw [hrun]
    have hc : Confined g c.sched s (({ s with calls := s.calls.eraseIdx i } : TxnSystem).send
        ⟨c.sched, .master, .inr ud.id, .timerEmit c.service ud true 0 ud.rwType 0⟩) := by
      refine .sends rfl rfl fun b hb => ?_
      rcases List.mem_append.mp hb with hb | hb
      · exact .inl hb
      · exact .inr (by rw [List.mem_singleton.mp hb])
    refine ⟨⟨hc, h.step hc (fun b hb => ?_) (fun c hc' => .inl (mem_of_mem_take hc'))
      fun svc hsvc => .inl hsvc⟩, fun _ _ hd => hd⟩
    rcases List.mem_append.mp hb with hb | hb
    · exact .inl hb
    · rw [List.mem_singleton.mp hb]
      refine .inr fun k hk => ?_
      simp only [Event.token, htask, Option.map_some, if_true, Option.mem_def,
        Option.some.injEq] at hk
      exact hk ▸ hhost
  | npTriggered src service entity id rw' bidx interval =>
    rw [← Except.ok.inj hx]
    have hc : Confined g src s s := .sends rfl rfl fun e he => .inl he
    exact ⟨Took.send ⟨hc, h⟩ rfl rfl, fun _ _ hd => hd⟩

theorem init_hosts (h : Init s) : s.Hosts fun _ => none := by
  obtain ⟨hsvc, htxns, hnet, hcalls, -⟩ := h
  refine ⟨by simp [hnet], by simp [hcalls], fun svc hmem q hq => ?_, fun _ _ => rfl⟩
  obtain ⟨k, hk⟩ := List.mem_iff_getElem?.mp hmem
  obtain ⟨preferRead, maxQsize, apis, hmax, hcreate⟩ := hsvc k svc hk
  obtain ⟨-, hnil, -⟩ : svc.Inv 0 .free ∧ svc.queued = [] ∧ svc.pendingTasks.Blocked :=
    Service.create_spec hmax hcreate
  simp [hnil] at hq

/-! ### Every run -/

/-- More tasks may have a host. -/
theorem Confined.mono {on : Sched} (h : Confined g on s s')
    (hle : ∀ t d, g t = some d → host t = some d) : Confined host on s s' where
  services := h.services
  apis := h.apis
  txns := h.txns
  tasks t k hk := by
    obtain ⟨k', hk', hsame | hhome | ⟨hhost, hpend⟩⟩ := h.tasks t k hk
    · exact ⟨k', hk', .inl hsame⟩
    · exact ⟨k', hk', .inr (.inl hhome)⟩
    · exact ⟨k', hk', .inr (.inr ⟨hle t on hhost, hpend⟩)⟩
  sent := h.sent

/-- The step writes what its scheduler may write. -/
def ConfinedStep (bioCnt : Nat) (host : TaskRef → Option Sched) (s : TxnSystem) (a : TxnAction) :
    Prop :=
  ∀ s', s.exec bioCnt a = .ok s' → Confined host (s.runsOn a) s s'

/-- The hosts of the tasks, as a run goes on. -/
theorem path_confined {p : List (TxnAction × TxnSystem)} (hinv : s.Inv)
    (hplaced : s.Placed fun _ => True) (h : s.Hosts g) (hp : (machine bioCnt).Path s p) :
    ∃ host, (∀ t d, g t = some d → host t = some d) ∧
      Machine.StepsMeet (ConfinedStep bioCnt host) s p := by
  induction p generalizing s g with
  | nil => exact ⟨g, fun _ _ hd => hd, trivial⟩
  | cons b p ih =>
    obtain ⟨a, s'⟩ := b
    obtain ⟨he, hx, hp⟩ := hp
    obtain ⟨⟨hc, h'⟩, hle⟩ := exec_confined h hinv hplaced he hx
    have hplaced' := exec_placed ⟨trivial, fun _ _ _ => trivial⟩ hplaced he
      (by cases a <;> trivial) hx
    obtain ⟨host, hle', hmeet⟩ := ih (exec_inv hinv he hx) hplaced' h' hp
    refine ⟨host, fun t d hd => hle' t d (hle t d hd), fun t ht => ?_, hmeet⟩
    obtain rfl : s' = t := Except.ok.inj (hx.symm.trans ht)
    exact hc.mono hle'

/-- **Every object has its scheduler.** In every run, whatever the schedulers do in between, the
    services are written by steps on the master only and their apis never change, a transaction is
    written by steps on the scheduler of its entity only, a task is completed there only, and for
    each task there is one scheduler on which all its pending calls are counted. -/
theorem confined_run (hs : Init s) {p : List (TxnAction × TxnSystem)}
    (hp : (machine bioCnt).Path s p) :
    ∃ host, Machine.StepsMeet (ConfinedStep bioCnt host) s p := by
  obtain ⟨host, -, hmeet⟩ := path_confined (init_inv hs) (init_placed hs) (init_hosts hs) hp
  exact ⟨host, hmeet⟩

/-- One call is made and answered. -/
theorem oneCall_confined :
    ∃ host, Machine.StepsMeet (ConfinedStep 0 host) fresh ((machine 0).trace fresh oneCall) :=
  confined_run fresh_init (Machine.trace_path oneCall fresh)

end TxnSystem

end Skull
