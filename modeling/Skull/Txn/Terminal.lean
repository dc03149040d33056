import Skull.Txn.Run
import Skull.Txn.Step
import Skull.Txn.Completion
import Skull.Txn.Known

namespace Skull

open Machines

/-!
# A destroyed transaction

`SK_TXN_DESTROYED` is meant to be the last state of a transaction, which stays there until its
last task completes.  Two handlers may still write another state, and then the assertion of
`sk_txn_setstate` fails:

* `TxnSystem.Lasting` — the steps that do not;
* `TxnSystem.destroyed_terminal` — in every state of every run, a step fails in
  `sk_txn_setstate` exactly when it is not one of these.
-/

namespace Progress

/-- The messages about the end of a task go to its caller. -/
theorem caller_of_mem {home host caller : Sched} {p : Progress} {a : Stage}
    (h : a ∈ p.stages home) (ha : a = .notice host caller ∨ ∃ b, a = .answer host caller b) :
    caller = home := by
  rw [mem_stages] at h
  rcases ha with rfl | ⟨b, rfl⟩ <;> cases p <;> simp_all

/-- A refusal goes home. -/
theorem caller_of_refusal {home caller : Sched} {p : Progress}
    (h : .refusal caller ∈ p.stages home) : caller = home := by
  rw [mem_stages] at h
  cases p <;> simp_all

end Progress

namespace TxnRun

variable {v : TxnEnv} {r : TxnRun}

/-- **The handler of `SK_PTO_SVC_TASK_CB`** reads the name of the module that made the call, which
    a call of `pack` may not have. -/
theorem svcTaskCb_noCaller (hsched : v.sched = v.home) {t : TaskRef} {k : TxnTask}
    (hk : r.txn.taskTbl[t.taskId]? = some k) (hcaller : k.callerModule = none) (service : Nat)
    (code : ModuleCode) (status : TaskStatus) (done : Bool) :
    r.svcTaskCb v code t service status done = .error .noCaller := by
  simp [svcTaskCb, hsched, hk, hcaller]

/-- With one it does not fail, but for a callback that returns non-zero while the transaction is
    destroyed. -/
theorem svcTaskCb_ends (hsched : v.sched = v.home) (hc : r.txn.Counts) {t : TaskRef}
    {k : TxnTask} (hk : r.txn.taskTbl[t.taskId]? = some k) (hinc : k.incomplete = true)
    (hcaller : k.callerModule.isSome = true) (service : Nat)
    (hsvc : v.services[service]?.isSome) (code : ModuleCode) (status : TaskStatus) (done : Bool) :
    if (status = .done ∨ status = .busy) ∧ k.cb = true ∧ code.failed = true ∧
        r.txn.state = .destroyed then
      r.svcTaskCb v code t service status done = .error .setstate
    else ∃ r', r.svcTaskCb v code t service status done = .ok r' := by
  have hnamed : k.callerModule.isNone = false := by simpa using hcaller
  by_cases hs : status = .done ∨ status = .busy
  · -- the task is completed
    have hrun : status ≠ .running := by rcases hs with rfl | rfl <;> simp
    obtain ⟨txn, htxn, hc', hspec⟩ := hc.taskSetcomplete hk hinc hrun
    have hlt := (List.getElem?_eq_some_iff.mp hk).1
    have hk' : txn.taskTbl[t.taskId]? = some { k with status } := by
      rw [hspec]
      exact List.getElem?_set_self hlt
    have hst' : txn.state = r.txn.state := by rw [hspec]
    set r₁ : TxnRun := { r with
      txn, log := r.log ++ [Mark.terminal t, Mark.setcomplete t] } with hr₁
    obtain ⟨svc, hsvc⟩ := Option.isSome_iff_exists.mp hsvc
    have hcomp : r.complete v code t service status = r₁.iocallComplete v code t.taskId := by
      simp [complete, htxn, hsvc, bind, Except.bind, hr₁]
    -- what comes after the callback never fails
    have hfinish : ∀ r₂, r.complete v code t service status = .ok r₂ →
        ∃ r', r.svcTaskCb v code t service status done = .ok r' := by
      intro r₂ h₂
      simp only [svcTaskCb, hsched, ne_eq, not_true_eq_false, if_false, hk, hnamed,
        Bool.false_eq_true, hs, if_true, h₂, bind, Except.bind]
      exact ⟨_, rfl⟩
    by_cases hcb : k.cb = true
    · -- its calls go out, and then it may fail
      obtain ⟨r₂, es, hr₂, hcalled, -⟩ := iocalls_ok (v := v) (r := r₁) code.iocalls hc'
      have hst₂ : r₂.txn.state = r.txn.state := hcalled.keeps.1.trans hst'
      have hend : r₁.iocallComplete v code t.taskId =
          if code.failed then r₂.setstate v .error else .ok r₂ := by
        have hk₁ : r₁.txn.taskTbl[t.taskId]? = some { k with status } := hk'
        simp only [iocallComplete, hk₁, hcb, if_true, hr₂, bind, Except.bind]
      by_cases hf : code.failed = true
      · rw [if_pos hf] at hend
        by_cases hdes : r.txn.state = .destroyed
        · -- the callback of a destroyed transaction fails
          have hbad : r₂.setstate v .error = .error .setstate := by
            simp [setstate, Txn.setstate, hst₂, hdes, Except.map]
          rw [if_pos ⟨hs, hcb, hf, hdes⟩]
          simp only [svcTaskCb, hsched, ne_eq, not_true_eq_false, if_false, hk, hnamed,
            Bool.false_eq_true, hs, if_true, hcomp, hend, hbad, bind, Except.bind]
        · rw [if_neg (by simp [hdes])]
          have hok := setstate_eq (v := v) (r := r₂) (by rw [hst₂]; exact hdes) .error
          exact hfinish _ (hcomp.trans (hend.trans hok))
      · rw [if_neg hf] at hend
        rw [if_neg (by simp [hf])]
        exact hfinish _ (hcomp.trans hend)
    · rw [if_neg (by simp [hcb])]
      refine hfinish r₁ (hcomp.trans ?_)
      simp [iocallComplete, hr₁, hk', hcb]
  · -- the message is a notice
    rw [if_neg fun hbad => hs hbad.1]
    simp only [svcTaskCb, hsched, ne_eq, not_true_eq_false, if_false, hk, hnamed,
      Bool.false_eq_true, hs, bind, Except.bind]
    exact ⟨_, rfl⟩

end TxnRun

namespace TxnSystem

variable {s s' : TxnSystem} {bioCnt : Nat}

/-- The transaction of a message. -/
def slotOf (s : TxnSystem) (e : Event) : Option TxnSlot :=
  match e.owner with
  | .inl x => s.txns[x]?
  | .inr _ => none

/-- The message does not make its handler write to a destroyed transaction: a late
    `SK_PTO_WORKFLOW_RUN`, or the end of a task that a module made and whose callback fails. -/
def LastingFor (e : Event) (code : UserCode) (txn : Txn) : Prop :=
  match e.pto with
  | .workflowRun => txn.timeout (code.clock 3) = false
  | .svcTaskCb t _ _ status _ => (status = .done ∨ status = .busy) →
    ∀ k ∈ txn.taskTbl[t.taskId]?, k.callerModule.isSome = true → k.cb = true →
      code.run.failed = false
  | _ => True

/-- The step does not handle such a message. -/
def Lasting (s : TxnSystem) : TxnAction → Prop
  | .handle i code => ∀ e ∈ s.net[i]?, ∀ slot ∈ s.slotOf e,
    slot.released = false → slot.txn.state = .destroyed → LastingFor e code slot.txn
  | _ => True

/-- `LastingFor`, to be computed. -/
def lastingFor (e : Event) (code : UserCode) (txn : Txn) : Bool :=
  match e.pto with
  | .workflowRun => !txn.timeout (code.clock 3)
  | .svcTaskCb t _ _ status _ =>
    !(status = .done ∨ status = .busy : Bool) ||
      txn.taskTbl[t.taskId]?.all fun k => !k.callerModule.isSome || !k.cb || !code.run.failed
  | _ => true

/-- The check is the condition. -/
theorem lastingFor_iff {e : Event} {code : UserCode} {txn : Txn} :
    lastingFor e code txn = true ↔ LastingFor e code txn := by
  unfold lastingFor LastingFor
  cases e.pto with
  | svcTaskCb t service api status done =>
    cases hk : txn.taskTbl[t.taskId]? with
    | none => simp [hk]
    | some k =>
      by_cases hs : status = .done ∨ status = .busy <;> cases hcb : k.cb <;>
        cases hcaller : k.callerModule <;> simp [hs, hcb, hk, hcaller]
  | _ => simp

instance (e : Event) (code : UserCode) (txn : Txn) : Decidable (LastingFor e code txn) :=
  decidable_of_iff _ lastingFor_iff

instance (s : TxnSystem) (a : TxnAction) : Decidable (s.Lasting a) :=
  match a with
  | .handle .. => inferInstanceAs (Decidable (∀ e ∈ _, ∀ slot ∈ _, _ → _ → LastingFor _ _ _))
  | .create .. | .deliver .. | .epCb .. | .jobTriggered _ | .npTriggered .. =>
    inferInstanceAs (Decidable True)

/-! ### The other handlers -/

/-- A task that is not there is no fault of the state. -/
theorem task_error {t : TaskRef} {fault : TxnFault} (h : s.task t = .error fault) :
    fault ≠ .setstate := by
  unfold task at h
  cases hslot : s.txns[t.txn]? with
  | none =>
    simp only [hslot, Except.error.injEq] at h
    simp [← h]
  | some slot =>
    simp only [hslot] at h
    split at h
    · simp only [Except.error.injEq] at h
      simp [← h]
    · cases hk : slot.txn.taskTbl[t.taskId]? with
      | none =>
        simp only [hk, Except.error.injEq] at h
        simp [← h]
      | some k => simp [hk] at h

theorem pendingCalls_error {sched : Sched} {service : Nat} {t : TaskRef}
    {kinds : List PendingKind} {fault : TxnFault}
    (h : s.pendingCalls sched service t kinds = .error fault) : fault ≠ .setstate := by
  induction kinds generalizing s with
  | nil => exact absurd h (by simp [pendingCalls])
  | cons kind kinds ih =>
    rcases except_bind_error.mp h with h | ⟨s₁, -, h⟩
    · exact task_error (except_map_error.mp h)
    · exact ih h

theorem pendingCb_error {sched : Sched} {service : Nat} {t : TaskRef}
    {calls : List PendingKind} {fault : TxnFault}
    (h : s.pendingCb sched service t calls = .error fault) : fault ≠ .setstate := by
  rcases except_bind_error.mp h with h | ⟨s₁, -, h⟩
  · exact pendingCalls_error h
  · rcases except_bind_error.mp h with h | ⟨k, -, h⟩
    · exact task_error h
    · unfold apiComplete at h
      split at h
      · simp only [Except.error.injEq] at h
        simp [← h]
      · exact task_error (except_map_error.mp h)

theorem onService_error {k : Nat} {β : Type} {f : Service → Except SrvFault β}
    {after : TxnSystem → β → TxnSystem} {fault : TxnFault}
    (h : s.onService k f after = .error fault) : fault ≠ .setstate := by
  unfold onService at h
  cases hsvc : s.services[k]? with
  | none =>
    simp only [hsvc, Except.error.injEq] at h
    simp [← h]
  | some svc =>
    cases hf : f svc with
    | error srv =>
      simp only [hsvc, hf, Except.error.injEq] at h
      simp [← h]
    | ok r => simp [hsvc, hf] at h

/-- Only the handlers of a transaction write its state. -/
theorem handle_error {e : Event} {code : UserCode}
    (h : s.handle bioCnt e code = .error .setstate) :
    e.pto = .workflowRun ∨ ∃ t service api status done,
      e.pto = .svcTaskCb t service api status done := by
  unfold TxnSystem.handle at h
  cases hpto : e.pto with
  | workflowRun => exact .inl rfl
  | svcTaskCb t service api status done => exact .inr ⟨_, _, _, _, _, rfl⟩
  -- the other handlers write no state
  | svcTaskRun service api io caller t =>
    simp only [hpto, svcTaskRun] at h
    split at h
    · exact absurd h (by simp)
    · split at h
      · exact absurd h (by simp)
      · rcases except_bind_error.mp h with h | ⟨s₁, -, h⟩
        · exact absurd rfl (pendingCalls_error h)
        · rcases except_bind_error.mp h with h | ⟨k, -, h⟩
          · exact absurd rfl (task_error h)
          · exact absurd h (by simp)
  | svcTimerRun service ud valid status interval =>
    simp only [hpto, svcTimerRun] at h
    split at h
    · exact absurd h (by simp)
    · -- a call that is made or comes back only counts
      rcases except_bind_error.mp h with h | ⟨s₁, -, h⟩
      · split at h
        · exact absurd rfl (pendingCb_error h)
        · exact absurd h (by simp)
      · exact absurd h (by simp)
  | svcIocall service api bidx t =>
    simp only [hpto] at h
    cases howner : e.owner <;> simp only [howner] at h
    · exact absurd rfl (onService_error h)
    · exact absurd h (by simp)
  | timerEmit service ud valid bidx type interval =>
    simp only [hpto] at h
    cases howner : e.owner <;> simp only [howner] at h
    · exact absurd h (by simp)
    · exact absurd rfl (onService_error h)
  | svcTaskDone service resumeWf done =>
    simp only [hpto] at h
    exact absurd rfl (onService_error h)
  | svcTimerDone service status interval =>
    simp only [hpto] at h
    exact absurd rfl (onService_error h)

/-! ### The handlers of a transaction -/

/-- A handler on a transaction that is not released fails as it does. -/
theorem onTxn_error {e : Event} {f : TxnEnv → TxnRun → Except TxnFault TxnRun} {x : TxnId}
    (howner : e.owner = .inl x) {slot : TxnSlot} (hslot : s.txns[x]? = some slot)
    (hrel : slot.released = false) {fault : TxnFault} :
    s.onTxn bioCnt e f = .error fault ↔
      f ⟨bioCnt, s.services, e.dst, slot.home, x⟩ ⟨slot.txn, [], [], false⟩ = .error fault := by
  simp [onTxn, howner, hslot, hrel, except_map_error]

/-- A message about the end of a task is handled on the scheduler of its transaction. -/
theorem Inv.callback_home (h : s.Inv) {i : Nat} {e : Event} (hi : s.net[i]? = some e)
    {t : TaskRef} {service api : Nat} {status : TaskStatus} {done : Bool}
    (hpto : e.pto = .svcTaskCb t service api status done) : e.dst = s.home t.txn := by
  -- the message is one of the stages of its task
  obtain ⟨p, hp⟩ := h.accounts t
  have hstages := hp.stages
  rw [stages_take hi t] at hstages
  obtain ⟨src, dst, owner, pto⟩ := e
  simp only at hpto
  subst hpto
  set e : Event := ⟨src, dst, owner, .svcTaskCb t service api status done⟩
  -- which names the scheduler that it goes to
  have hmem : ∀ a, e.token = some (stageFor e.owner t a) → a ∈ p.stages (s.home t.txn) := by
    intro a htok
    rw [shows_some htok, if_pos rfl, Multiset.singleton_add] at hstages
    have ha := Progress.mem_of_cons hstages
    obtain ⟨-, -, heq⟩ := stageFor_mem (u := t) rfl ha
    exact heq ▸ ha
  have hstray : e.token ≠ some (t, .stray) := by
    intro htok
    rw [shows_some htok, if_pos rfl, Multiset.singleton_add] at hstages
    exact Progress.not_stray (Progress.mem_of_cons hstages)
  -- the status says which stage it is
  cases status with
  | running => exact absurd rfl hstray
  | pending =>
    cases done with
    | false => exact absurd rfl hstray
    | true => exact Progress.caller_of_mem (hmem _ rfl) (.inl rfl)
  | done => exact Progress.caller_of_mem (hmem _ rfl) (.inr ⟨_, rfl⟩)
  | busy =>
    cases done with
    | true => exact absurd rfl hstray
    | false => exact Progress.caller_of_refusal (hmem _ rfl)

/-- A message is handled on a transaction: whether `sk_txn_setstate` fails. -/
theorem handle_setstate (hinv : s.Inv) (hknown : s.Known) {i : Nat} {e : Event}
    (hi : s.net[i]? = some e) (hfirst : ∀ e' ∈ s.net.take i, e'.key ≠ e.key) (code : UserCode) :
    ({ s with net := s.net.eraseIdx i } : TxnSystem).handle bioCnt e code = .error .setstate ↔
      ¬ ∀ slot ∈ s.slotOf e, slot.released = false → slot.txn.state = .destroyed →
        LastingFor e code slot.txn := by
  set s₀ : TxnSystem := { s with net := s.net.eraseIdx i } with hs₀
  cases hpto : e.pto with
  | workflowRun =>
    have hhandle : s₀.handle bioCnt e code = s₀.onTxn bioCnt e fun v r => r.workflowRun v code := by
      simp only [TxnSystem.handle, hpto]
    rw [hhandle]
    cases howner : e.owner with
    | inr entity => simp [onTxn, howner, slotOf]
    | inl x =>
      cases hslot : s.txns[x]? with
      | none => simp [onTxn, howner, slotOf, hslot, hs₀]
      | some slot =>
        by_cases hrel : slot.released = true
        · simp [onTxn, howner, slotOf, hslot, hs₀, hrel]
        · have hrel' : slot.released = false := by simpa using hrel
          rw [onTxn_error (s := s₀) howner hslot hrel',
            TxnRun.workflowRun_setstate (hinv.sound x slot hslot).counts]
          simp only [slotOf, howner, hslot, Option.mem_some_iff, forall_eq', hrel', true_imp_iff,
            LastingFor, hpto]
          by_cases hdes : slot.txn.state = .destroyed
          · simp [hdes, Txn.timeout_eq]
          · simp [hdes]
  | svcTaskCb t service api status done =>
    have hhandle : s₀.handle bioCnt e code =
        s₀.onTxn bioCnt e fun v r => r.svcTaskCb v code.run t service status done := by
      simp only [TxnSystem.handle, hpto]
    -- the first message about a task finds it incomplete, and its transaction alive
    obtain ⟨howner, k, hk, hinc⟩ := hinv.incomplete_of_callback hi hfirst hpto
    obtain ⟨slot, hslot, hrel⟩ := ((hinv.completesOnce hk).alive hinc).2
    have hkt : slot.txn.taskTbl[t.taskId]? = some k := (entry_eq hslot).symm.trans hk
    obtain ⟨svc, hsvc, -⟩ := hknown.net e (List.mem_of_getElem? hi) (service, none)
      (by rw [Event.names, hpto]; rfl)
    have hsched : e.dst = slot.home := (hinv.callback_home hi hpto).trans (home_eq hslot)
    rw [hhandle, onTxn_error (s := s₀) howner hslot hrel]
    simp only [slotOf, howner, hslot, Option.mem_some_iff, forall_eq', hrel, true_imp_iff,
      LastingFor, hpto, hkt]
    by_cases hcaller : k.callerModule.isSome = true
    · have hends := TxnRun.svcTaskCb_ends (v := ⟨bioCnt, s₀.services, e.dst, slot.home, t.txn⟩)
        (r := ⟨slot.txn, [], [], false⟩) hsched (hinv.sound _ slot hslot).counts hkt hinc hcaller
        service (by simp [hs₀, hsvc]) code.run status done
      split at hends
      · rename_i hbad
        have hdes : slot.txn.state = .destroyed := hbad.2.2.2
        simp [hends, hbad, hdes, hcaller]
      · rename_i hgood
        obtain ⟨r', hr'⟩ := hends
        simp only [hr', reduceCtorEq, false_iff, not_not]
        intro hdes hs _ hcb
        by_contra hf
        exact hgood ⟨hs, hcb, by simpa using hf, hdes⟩
    · -- the handler fails before the callback
      rw [TxnRun.svcTaskCb_noCaller hsched hkt (by simpa using hcaller)]
      simp [hcaller]
  | _ =>
    constructor
    · intro h
      -- no other message sets a state
      rcases handle_error h with h | ⟨t, service, api, status, done, h⟩ <;>
        exact absurd (hpto.symm.trans h) (by simp)
    · intro h
      refine absurd (fun slot _ _ _ => ?_) h
      simp only [LastingFor, hpto]

/-! ### Every step -/

/-- A handler on a destroyed transaction that comes to its end leaves it as it is. -/
theorem Stepped.destroyed {a : TxnAction} (h : Stepped bioCnt s a s') {x : TxnId} {slot : TxnSlot}
    (hslot : s.txns[x]? = some slot) (hdes : slot.txn.state = .destroyed) :
    ∃ slot', s'.txns[x]? = some slot' ∧ slot'.txn.state = .destroyed ∧
      ∃ ms, s'.log = s.log ++ ms ∧ ∀ m ∈ ms, m.txn ≠ some x := by
  have hlt := (List.getElem?_eq_some_iff.mp hslot).1
  cases h with
  | create workflow home now immediate =>
    exact ⟨slot, by simpa [List.getElem?_append_left hlt] using hslot, hdes, [], by simp, by simp⟩
  | @deliver y src slot' hslot' hdel =>
    -- its mark of delivery changes, or that of another one
    by_cases hy : y = x
    · subst hy
      exact ⟨{ slot with delivered := true }, by simp [TxnSystem.send, hslot], hdes, [],
        by simp [TxnSystem.send], by simp⟩
    · exact ⟨slot, by simpa [TxnSystem.send, List.getElem?_modify_ne _ _ hy] using hslot, hdes, [],
        by simp [TxnSystem.send], by simp⟩
  | @workflowRun i e code y slot' r hi hpto howner hslot' hrel hr =>
    obtain ⟨es, ms, -, hlog, hg⟩ := TxnRun.run_grew _ hr
    simp only [List.nil_append] at hlog
    have htxns := txns_commit (s := { s with net := s.net.eraseIdx i }) hslot' r x
    by_cases hy : x = y
    · subst hy
      obtain rfl : slot' = slot := Option.some.inj (hslot'.symm.trans hslot)
      rw [if_pos rfl] at htxns
      -- nothing happens to a destroyed transaction but that it may be released
      rw [TxnRun.workflowRun, TxnRun.run_destroyed hdes] at hr
      split at hr
      · exact absurd hr (by simp)
      · obtain rfl := Except.ok.inj hr
        obtain ⟨htxn, -, hlog'⟩ := TxnRun.txnLogAndDestroy_txn ⟨slot'.txn, [], [], false⟩
        refine ⟨_, htxns, by rw [htxn]; exact hdes, [], ?_, by simp⟩
        simp [commit, hlog']
    · -- the marks of another transaction are its own
      rw [if_neg hy] at htxns
      refine ⟨slot, htxns.trans hslot, hdes, ms, by rw [commit, hlog], fun m hm hx => hy ?_⟩
      exact Option.some.inj (hx.symm.trans (hg.marks m hm))
  | @taskCb i e code y slot' r t service api status done hi hfirst hpto howner hslot' hrel hr =>
    obtain ⟨-, r₁, r₂, es, ms, k, hcomp, hset, -, -, rfl⟩ := TxnRun.svcTaskCb_spec hr
    have htxns := txns_commit (s := { s with net := s.net.eraseIdx i }) hslot'
      { r₂ with
        sent := r₂.sent ++ [⟨e.dst, .master, .inl y, .svcTaskDone service
          (if k.cb then r₂.txn.moduleComplete else r₂.txn.alltaskComplete) done⟩]
        log := r₂.log ++ if done then [.taskDone t] else [] } x
    have hstate₁ : r₁.txn.state = slot'.txn.state := hcomp.state
    have hlog₁ : ∀ m ∈ r₁.log, m.txn = none := by
      obtain ⟨ms₁, heq, rfl | rfl⟩ := hcomp.log
      · simp [heq]
      · simp [heq, Mark.txn]
    have hdone : ∀ m ∈ (if done then [Mark.taskDone t] else []), m.txn = none := by
      cases done <;> simp [Mark.txn]
    by_cases hy : x = y
    · subst hy
      obtain rfl : slot' = slot := Option.some.inj (hslot'.symm.trans hslot)
      rw [if_pos rfl] at htxns
      -- a callback that fails would abort in `sk_txn_setstate`
      rcases hset.state with ⟨rfl, hst⟩ | ⟨-, -, hst⟩
      · refine ⟨_, htxns, hst.trans (hstate₁.trans hdes), _, rfl, fun m hm => ?_⟩
        simp only [hset.log, List.append_nil] at hm
        rcases List.mem_append.mp hm with hm | hm
        · simp [hlog₁ m hm]
        · simp [hdone m hm]
      · exact absurd (hstate₁.trans hdes) hst
    · -- the callback was one of another transaction
      rw [if_neg hy] at htxns
      refine ⟨slot, htxns.trans hslot, hdes, _, rfl, fun m hm => ?_⟩
      simp only [hset.log] at hm
      rcases List.mem_append.mp hm with hm | hm
      · rcases List.mem_append.mp hm with hm | hm
        · simp [hlog₁ m hm]
        · rw [hset.grows.marks m hm]
          exact fun hx => hy (Option.some.inj hx).symm
      · simp [hdone m hm]
  -- a step aside leaves all the states as they were
  | aside ha =>
    obtain ⟨ms, hlog, hms⟩ := ha.marks
    have hx := congrArg (·[x]?) ha.bare
    simp only [List.getElem?_map, hslot, Option.map_some] at hx
    obtain ⟨slot', hslot', hb⟩ := Option.map_eq_some_iff.mp hx
    have hst : slot'.txn.state = slot.txn.state := by
      have hb' := congrArg (·.txn.state) hb
      exact hb'
    exact ⟨slot', hslot', hst.trans hdes, ms, hlog, fun m hm => by simp [Mark.txn_none (hms m hm)]⟩

/-- **Destroyed is the last state.** In every state of every run, a step fails in
    `sk_txn_setstate` exactly when it handles a late `SK_PTO_WORKFLOW_RUN` of a destroyed
    transaction, or a callback of one that fails, of a call that a module made; any other step that
    comes to its end leaves a destroyed transaction destroyed and does nothing to it. -/
theorem destroyed_terminal (h : (machine bioCnt).Reach Machine.anyStep s) {a : TxnAction}
    (he : s.enabled bioCnt a) :
    (s.exec bioCnt a = .error .setstate ↔ ¬ s.Lasting a) ∧
      ∀ s', s.exec bioCnt a = .ok s' → ∀ (x : TxnId) (slot : TxnSlot), s.txns[x]? = some slot →
        slot.txn.state = .destroyed → ∃ slot', s'.txns[x]? = some slot' ∧
          slot'.txn.state = .destroyed ∧ ∃ ms, s'.log = s.log ++ ms ∧ ∀ m ∈ ms, m.txn ≠ some x := by
  refine ⟨?_, fun s' hx x slot hslot hdes => (exec_stepped he hx).destroyed hslot hdes⟩
  cases a with
  | handle i code =>
    obtain ⟨e, hi, hfirst⟩ := he
    rw [Option.mem_def] at hi
    simp only [exec, hi, Lasting, Option.mem_some_iff, forall_eq']
    exact handle_setstate (reach_inv h) (reach_known h) hi hfirst code
  | create workflow home now immediate => simp [exec, Lasting]
  | deliver x src =>
    obtain ⟨slot, hslot, -⟩ := he
    rw [Option.mem_def] at hslot
    simp [exec, hslot, Lasting]
  | epCb i calls =>
    obtain ⟨c, hi, -⟩ := he
    rw [Option.mem_def] at hi
    simp only [exec, hi, Lasting, not_true_eq_false, iff_false]
    exact fun hx => absurd rfl (pendingCb_error hx)
  | jobTriggered i =>
    obtain ⟨c, hi, hjob⟩ := he
    rw [Option.mem_def] at hi
    obtain ⟨ud, hud⟩ := Option.isSome_iff_exists.mp hjob
    simp [exec, hi, hud, Lasting]
  | npTriggered src service entity id rw bidx interval => simp [exec, Lasting]

/-! A workflow with a limit of one millisecond, and one module whose `run` makes a service call
without a callback: the transaction is packed and destroyed while the call is out, and when the
call completes it is resumed once more. -/

/-- Everything up to the message that resumes the destroyed transaction. -/
def limited : List TxnAction :=
  [.create ⟨1, true, 1⟩ (.worker 0) 0 false, .deliver 0 (.worker 0),
    .handle 0 { quiet with run := ⟨[⟨0, 0, false, 0⟩], false⟩ }] ++
    List.replicate 4 (.handle 0 quiet)

/-- The system with that message. -/
def lingering : TxnSystem := ((machine 0).play fresh limited).getD fresh

theorem lingering_reach : (machine 0).Reach Machine.anyStep lingering := by
  have hplay : (machine 0).play fresh limited = some lingering := by decide +kernel
  exact Machine.play_reach (.init fresh_init) hplay

/-- **A destroyed transaction times out.** -/
theorem destroyed_late : (machine 0).Reach Machine.anyStep lingering ∧
    lingering.txns.map (·.txn.state) = [.destroyed] ∧
    lingering.enabled 0 (.handle 0 { quiet with clock := fun _ => 5000 }) ∧
    lingering.exec 0 (.handle 0 { quiet with clock := fun _ => 5000 }) = .error .setstate :=
  ⟨lingering_reach, by decide +kernel, by decide +kernel, by decide +kernel⟩

/-- When the clock is in time, the assertion holds. -/
theorem lingering_ends : lingering.Lasting (.handle 0 quiet) ∧
    ¬ lingering.exec 0 (.handle 0 quiet) = .error .setstate := by
  have hlast : lingering.Lasting (.handle 0 quiet) := by decide +kernel
  refine ⟨hlast, fun hx => ?_⟩
  exact (destroyed_terminal lingering_reach (by decide +kernel)).1.mp hx hlast

end TxnSystem

end Skull
