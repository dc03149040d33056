import Skull.Txn.Placed
import Skull.Txn.Terminal
import Skull.Txn.Contain

namespace Skull

open Machines

/-!
# The assertions that can fail

The handlers are full of assertions: on the state of a transaction and its counters, on the task
table, the queue and the state of a service, the jobs and the schedulers they run on.  Only a few
things make a handler abort:

* `TxnSystem.Aborts` — these things, each with what fails;
* `TxnSystem.Guarded` — what the handlers rely on, an invariant of all runs;
* `TxnSystem.aborts_iff` — a step aborts exactly when `Aborts` says so.
-/

namespace TxnRun

variable {v : TxnEnv} {code : UserCode} {r : TxnRun}

/-- A run comes to its end where there are modules. -/
theorem run_total (depth : Nat) : ∀ {r : TxnRun}, r.txn.Counts → r.txn.workflow.modules ≠ 0 →
    r.txn.state ≠ .destroyed → r.txn.state.calls ≤ depth →
    ∃ r', r.run v code depth = .ok r' := by
  induction depth with
  | zero =>
    intro r _ _ _ hle
    -- every call of `_run` takes one from the depth, and each state needs a call at least
    cases hst : r.txn.state <;> simp [hst, TxnState.calls] at hle
  | succ depth ih =>
    intro r hc hmod halive hle
    have hc' : (r.checked v (code.clock depth)).txn.Counts := checked_counts hc _
    have hmod' : (r.checked v (code.clock depth)).txn.workflow.modules ≠ 0 := by
      rwa [checked_workflow]
    cases hst : r.txn.state with
    | destroyed => exact absurd hst halive
    | packed => exact ⟨_, run_packed hst⟩
    -- `_module_pack` ends in the state packed, from which one call is left
    | completed | error | timeout =>
      rw [run_packing (by simp [hst])]
      have hpack := modulePack_eq (v := v) code.pack (run v code depth) hc'
        (checked_alive halive _)
      rw [if_neg hmod'] at hpack
      obtain ⟨r₁, hpacks, heq⟩ := hpack
      rw [heq]
      rw [hst] at hle
      refine ih hpacks.counts (by rwa [hpacks.workflow]) (by simp [hpacks.state]) ?_
      simp only [hpacks.state, TxnState.calls] at hle ⊢
      omega
    -- the state changes to running, and `_run` is called again
    | init | unpacked | pending =>
      rw [run_starting (by simp [hst])]
      refine ih (goto_counts hc') hmod' (by simp) ?_
      rw [hst] at hle
      simp only [goto_state, TxnState.calls] at hle ⊢
      omega
    | running =>
      rw [run_running hst]
      rw [hst] at hle
      simp only [TxnState.calls] at hle
      -- the late branch of `sk_txn_timeout` leaves it neither destroyed nor new
      have hst' : (r.checked v (code.clock depth)).txn.state ≠ .destroyed ∧
          (r.checked v (code.clock depth)).txn.state ≠ .init := by
        rw [checked_state]
        split <;> simp [hst]
      have hrun := moduleRun_eq (v := v) code.run (run v code depth) hc' hst'
      split at hrun
      · -- no module is left, so the transaction is completed and packed
        rw [hrun]
        refine ih (goto_counts (nextModule_counts hc')) ?_ (by simp [exhausted]) ?_
        · rw [exhausted, goto_workflow, nextModule_frame]
          exact hmod'
        · simp only [exhausted, goto_state, TxnState.calls]
          omega
      · obtain ⟨r₁, es, henter, heq⟩ := hrun
        have hc₁ : r₁.txn.Counts := henter.counts hc'
        have hmod₁ : r₁.txn.workflow.modules ≠ 0 := by rwa [henter.workflow]
        rw [heq]
        -- it waits, is packed or goes on with the next module
        split
        · exact ⟨_, rfl⟩
        · split
          · refine ih (goto_counts hc₁) hmod₁ (by simp) ?_
            simp only [goto_state, TxnState.calls]
            omega
          · split
            · exact ⟨_, rfl⟩
            · refine ih (goto_counts hc₁) hmod₁ (by simp) ?_
              simp only [goto_state, TxnState.calls]
              omega

/-- A run aborts where there are no modules: the transaction goes to `pack`, which reads the last
    one. -/
theorem run_noModule (depth : Nat) : ∀ {r : TxnRun}, r.txn.Counts → r.txn.workflow.modules = 0 →
    r.txn.state ≠ .destroyed → r.txn.state ≠ .packed → r.txn.state.calls ≤ depth →
    r.run v code depth = .error .noModule := by
  induction depth with
  | zero =>
    intro r _ _ _ _ hle
    cases hst : r.txn.state <;> simp [hst, TxnState.calls] at hle
  | succ depth ih =>
    intro r hc hmod halive hunpacked hle
    have hc' : (r.checked v (code.clock depth)).txn.Counts := checked_counts hc _
    -- the depth is enough, so the run ends at the packing and not for lack of calls
    have hmod' : (r.checked v (code.clock depth)).txn.workflow.modules = 0 := by
      rwa [checked_workflow]
    cases hst : r.txn.state with
    | destroyed => exact absurd hst halive
    | packed => exact absurd hst hunpacked
    | completed | error | timeout =>
      rw [run_packing (by simp [hst])]
      have hpack := modulePack_eq (v := v) code.pack (run v code depth) hc'
        (checked_alive halive _)
      rwa [if_pos hmod'] at hpack
    | init | unpacked | pending =>
      -- it comes to run first, with the same workflow
      rw [run_starting (by simp [hst])]
      refine ih (goto_counts hc') hmod' (by simp) (by simp) ?_
      rw [hst] at hle
      simp only [goto_state, TxnState.calls] at hle ⊢
      omega
    | running =>
      rw [run_running hst]
      rw [hst] at hle
      simp only [TxnState.calls] at hle
      have hst' : (r.checked v (code.clock depth)).txn.state ≠ .destroyed ∧
          (r.checked v (code.clock depth)).txn.state ≠ .init := by
        rw [checked_state]
        split <;> simp [hst]
      -- there is no next module
      have hnone : (r.checked v (code.clock depth)).txn.nextModule.1.isNone = true := by
        simp [Txn.nextModule, hmod]
      have hrun := moduleRun_eq (v := v) code.run (run v code depth) hc' hst'
      rw [if_pos hnone] at hrun
      rw [hrun]
      refine ih (goto_counts (nextModule_counts hc')) ?_ (by simp [exhausted])
        (by simp [exhausted]) ?_
      · rw [exhausted, goto_workflow, nextModule_frame]
        exact hmod'
      · simp only [exhausted, goto_state, TxnState.calls]
        omega

/-- **A `SK_PTO_WORKFLOW_RUN`** aborts exactly when it finds the transaction destroyed and late, or
    on its way to the `pack` of a workflow without modules. -/
theorem workflowRun_ends (hc : r.txn.Counts) (code : UserCode) :
    if r.txn.state = .destroyed then
      if r.txn.late (code.clock 3) = true then r.workflowRun v code = .error .setstate
      else ∃ r', r.workflowRun v code = .ok r'
    else if r.txn.state ≠ .packed ∧ r.txn.workflow.modules = 0 then
      r.workflowRun v code = .error .noModule
    else ∃ r', r.workflowRun v code = .ok r' := by
  by_cases hst : r.txn.state = .destroyed
  · rw [if_pos hst, workflowRun, run_destroyed hst]
    by_cases hlate : r.txn.late (code.clock 3) = true <;> simp [hlate]
  · have hle : r.txn.state.calls ≤ 4 := by cases r.txn.state <;> simp [TxnState.calls]
    rw [if_neg hst]
    split
    · rename_i hmod
      exact run_noModule 4 hc hmod.2 hst hmod.1 hle
    · rename_i hmod
      by_cases hpacked : r.txn.state = .packed
      · exact ⟨_, run_packed hpacked⟩
      · exact run_total 4 hc (fun h => hmod ⟨hpacked, h⟩) hst hle

end TxnRun

namespace Service

variable {bioCnt : Nat}

/-- A round of scheduling never aborts. -/
theorem Tended.scheduleTasks {s : Service} {n : Nat} (h : s.Tended bioCnt n) :
    ∃ r, s.scheduleTasks bioCnt = .ok r := by
  obtain ⟨l, hl⟩ := h.inv
  obtain ⟨xs, s', l', hs', -⟩ := scheduleTasks_spec hl
  exact ⟨_, hs'⟩

/-- A report of a task that is under way neither. -/
theorem Tended.completes {s : Service} {n : Nat} (h : s.Tended bioCnt (n + 1)) :
    ∃ s', s.taskSetcomplete = .ok s' ∧ ∃ r, s'.scheduleTasks bioCnt = .ok r := by
  obtain ⟨l, hl⟩ := h.inv
  have hcnt : l.holders = n + 1 := by
    have hrun := hl.running
    rw [h.running] at hrun
    omega
  obtain ⟨ks, hks⟩ := exists_holds l
  obtain ⟨k, ks, rfl⟩ := List.exists_cons_of_length_eq_add_one (hks.length.trans hcnt)
  obtain ⟨l₁, hrel, -⟩ := hks.release
  obtain ⟨s₁, hset, hinv, -⟩ := taskSetcomplete_spec hl hrel
  obtain ⟨xs, s', l', hs', -⟩ := scheduleTasks_spec hinv
  exact ⟨s₁, hset, _, hs'⟩

end Service

namespace TxnSystem

variable {s s' : TxnSystem} {bioCnt : Nat}

/-! ### What the handlers rely on -/

/-- A transaction keeps its workflow and its scheduler. -/
theorem slots_of_bare {P : Workflow → Sched → Prop}
    (hbare : s'.txns.map TxnSystem.bare = s.txns.map TxnSystem.bare)
    (h : ∀ slot ∈ s.txns, P slot.txn.workflow slot.home) :
    ∀ slot ∈ s'.txns, P slot.txn.workflow slot.home := by
  intro slot hslot
  have hmem : TxnSystem.bare slot ∈ s.txns.map TxnSystem.bare :=
    hbare ▸ List.mem_map_of_mem hslot
  obtain ⟨slot₀, hslot₀, heq⟩ := List.mem_map.mp hmem
  have hP : P (TxnSystem.bare slot₀).txn.workflow (TxnSystem.bare slot₀).home := h slot₀ hslot₀
  rwa [heq] at hP

/-- So does one that a handler ran on. -/
theorem slots_of_commit {P : Workflow → Sched → Prop}
    (h : ∀ slot ∈ s.txns, P slot.txn.workflow slot.home) {x : TxnId} {slot : TxnSlot}
    (hslot : s.txns[x]? = some slot) {r : TxnRun} (hr : r.txn.workflow = slot.txn.workflow) :
    ∀ slot ∈ (s.commit x r).txns, P slot.txn.workflow slot.home := by
  intro slot' hmem
  obtain ⟨y, hy⟩ := List.mem_iff_getElem?.mp hmem
  rw [txns_commit hslot] at hy
  split at hy
  · rw [← Option.some.inj hy]
    show P r.txn.workflow slot.home
    rw [hr]
    exact h slot (List.mem_of_getElem? hslot)
  · exact h slot' (List.mem_of_getElem? hy)

/-- **Every step** keeps what is known of the workflows and schedulers of transactions, where it
    holds of those that are created. -/
theorem exec_slots {P : Workflow → Sched → Prop}
    (h : ∀ slot ∈ s.txns, P slot.txn.workflow slot.home) {a : TxnAction}
    (he : s.enabled bioCnt a)
    (hnew : ∀ workflow home now immediate, a = .create workflow home now immediate →
      P workflow home)
    (hx : s.exec bioCnt a = .ok s') : ∀ slot ∈ s'.txns, P slot.txn.workflow slot.home := by
  cases exec_stepped he hx with
  | create workflow home now immediate =>
    intro slot hslot
    rcases List.mem_append.mp hslot with hslot | hslot
    · exact h slot hslot
    · rw [List.mem_singleton.mp hslot]
      exact hnew workflow home now immediate rfl
  | @deliver x src slot hslot hdel =>
    intro slot' hslot'
    obtain ⟨y, hy⟩ := List.mem_iff_getElem?.mp hslot'
    change (s.txns.modify x fun slot => { slot with delivered := true })[y]? = some slot' at hy
    rw [List.getElem?_modify] at hy
    obtain ⟨slot₀, hslot₀, rfl⟩ := Option.map_eq_some_iff.mp hy
    have hP := h slot₀ (List.mem_of_getElem? hslot₀)
    split <;> exact hP
  | workflowRun hi hpto howner hslot hrel hr =>
    exact slots_of_commit (s := { s with net := s.net.eraseIdx _ }) h hslot
      (TxnRun.run_did 4 hr).workflow
  | taskCb hi hfirst hpto howner hslot hrel hr =>
    exact slots_of_commit (s := { s with net := s.net.eraseIdx _ }) h hslot
      (TxnRun.svcTaskCb_did hr).workflow
  | aside ha => exact slots_of_bare ha.bare h

/-- **What the handlers rely on.** -/
structure Guarded (bioCnt : Nat) (s : TxnSystem) : Prop where
  inv : s.Inv
  known : s.Known
  tends : s.Tends bioCnt
  placed : s.Placed fun _ => True

/-- It holds before the first step. -/
theorem init_guarded (h : Init s) : s.Guarded bioCnt :=
  ⟨init_inv h, init_known h, init_tends h, init_placed h⟩

/-- **Every step** keeps it. -/
theorem Guarded.step (h : s.Guarded bioCnt) {a : TxnAction} (he : s.enabled bioCnt a)
    (hx : s.exec bioCnt a = .ok s') : s'.Guarded bioCnt where
  inv := exec_inv h.inv he hx
  known := exec_known h.known he hx
  tends := exec_tends h.tends he hx
  placed := exec_placed ⟨trivial, fun _ _ _ => trivial⟩ h.placed he (by cases a <;> trivial) hx

/-- In every state of every run, what the handlers rely on holds. -/
theorem reach_guarded {C : TxnSystem → TxnAction → Prop} (h : (machine bioCnt).Reach C s) :
    s.Guarded bioCnt :=
  h.invariant (I := Guarded bioCnt) (fun _ hs => init_guarded hs) fun _ _ _ hs he _ hx =>
    hs.step he hx

/-! ### What aborts -/

/-- What makes the handler of a message abort, and the assertion that fails. -/
def Aborts (s : TxnSystem) (e : Event) (code : UserCode) (fault : TxnFault) : Prop :=
  match e.pto with
  -- The body of an api fails.
  | .svcTaskRun .. => code.failed = true ∧ fault = .srv .taskFailed
  -- A transaction is resumed that was released, one that was destroyed and is late, or one of a
  -- workflow without modules.
  | .workflowRun => ∃ slot ∈ s.slotOf e,
      if slot.released then fault = .txnFreed
      else if slot.txn.state = .destroyed then
        slot.txn.late (code.clock 3) = true ∧ fault = .setstate
      else slot.txn.state ≠ .packed ∧ slot.txn.workflow.modules = 0 ∧ fault = .noModule
  -- The call was made when there was no current module, or its callback fails and its transaction
  -- was destroyed.
  | .svcTaskCb t _ _ status _ => ∃ slot ∈ s.txns[t.txn]?, ∃ k ∈ slot.txn.taskTbl[t.taskId]?,
      if k.callerModule.isNone then fault = .noCaller
      else (status = .done ∨ status = .busy) ∧ k.cb = true ∧ code.run.failed = true ∧
        slot.txn.state = .destroyed ∧ fault = .setstate
  | _ => False

/-- A handler that comes to its end aborts for nothing. -/
theorem aborts_of_ok {x : Except TxnFault TxnSystem} {e : Event} {code : UserCode}
    (hok : ∃ s', x = .ok s') {fault : TxnFault} (hnot : ¬ s.Aborts e code fault) :
    x = .error fault ↔ s.Aborts e code fault := by
  obtain ⟨s', rfl⟩ := hok
  simp [hnot]

/-- A task with a pending call can be read. -/
theorem Inv.called (h : s.Inv) {t : TaskRef} {host : Sched} (hcall : .call host ∈ s.stages t) :
    ∃ k, s.task t = .ok k := by
  obtain ⟨p, hp⟩ := h.accounts t
  rw [hp.stages] at hcall
  obtain ⟨rest, hrest⟩ := Multiset.exists_cons_of_mem hcall
  obtain ⟨n, told, rfl, -⟩ := Progress.of_call hrest.symm
  obtain ⟨k, hk, -⟩ := hp.exists_entry (by simp)
  have hinc : k.incomplete = true := hp.entry.incomplete k hk
  obtain ⟨slot, hslot, hrel⟩ := ((h.completesOnce hk).alive hinc).2
  exact ⟨k, task_eq hslot hrel hk⟩

/-- A pending call of a task that can be read is called back. -/
theorem pendingCb_ok (sched : Sched) (service : Nat) {t : TaskRef} (calls : List PendingKind)
    {k : TxnTask} (hk : s.task t = .ok k) : ∃ s', s.pendingCb sched service t calls = .ok s' := by
  obtain ⟨s₁, k₁, h₁, hk₁⟩ := pendingCalls_ok sched service calls hk
  obtain ⟨slot, hslot, hrel, htbl⟩ := task_ok hk₁
  obtain ⟨-, -, hentry⟩ := counted_setTask hk₁ (k₁.pendings - 1)
  have hslot' := txns_setTask hslot { k₁ with pendings := k₁.pendings - 1 } t.txn
  rw [if_pos rfl] at hslot'
  have htask := task_eq hslot' hrel hentry
  simp only [pendingCb, h₁, hk₁, bind, Except.bind, apiComplete, hslot', htask, Except.map]
  exact ⟨_, rfl⟩

/-- A message occupies its service. -/
theorem occupied_pos {e : Event} (he : e ∈ s.net) {k : Nat} (ho : e.occupies = some k) :
    ∃ n, s.occupied k = n + 1 := by
  have hmem : k ∈ s.net.filterMap Event.occupies := List.mem_filterMap.mpr ⟨e, he, ho⟩
  exact Nat.exists_eq_add_one.mpr (List.count_pos_iff.mpr hmem)

/-- A handler of the master on a service that there is. -/
theorem onService_total {β : Type} {k : Nat} {svc : Service} (hk : s.services[k]? = some svc)
    {f : Service → Except SrvFault β} {b : β} (hf : f svc = .ok b)
    (after : TxnSystem → β → TxnSystem) : s.onService k f after = .ok (after s b) := by
  simp [onService, hk, hf]

/-! ### The handlers -/

/-- **The callback of a task.** -/
theorem Guarded.callback (h : s.Guarded bioCnt) {i : Nat} {e : Event} (hi : s.net[i]? = some e)
    (hfirst : ∀ e' ∈ s.net.take i, e'.key ≠ e.key) {t : TaskRef} {service api : Nat}
    {status : TaskStatus} {done : Bool} (hpto : e.pto = .svcTaskCb t service api status done)
    (code : UserCode) (fault : TxnFault) :
    s.exec bioCnt (.handle i code) = .error fault ↔ s.Aborts e code fault := by
  -- the task of the callback has not ended, so its transaction is there
  obtain ⟨howner, k, hk, hinc⟩ := h.inv.incomplete_of_callback hi hfirst hpto
  obtain ⟨slot, hslot, hrel⟩ := ((h.inv.completesOnce hk).alive hinc).2
  have hkt : slot.txn.taskTbl[t.taskId]? = some k := (entry_eq hslot).symm.trans hk
  obtain ⟨svc, hsvc, -⟩ := h.known.net e (List.mem_of_getElem? hi) (service, none)
    (by rw [Event.names, hpto]; rfl)
  have hhome : e.dst = slot.home := (h.inv.callback_home hi hpto).trans (home_eq hslot)
  simp only [exec, hi, TxnSystem.handle, hpto]
  rw [onTxn_error (s := { s with net := s.net.eraseIdx i }) howner hslot hrel]
  simp only [Aborts, hpto, hslot, hkt, Option.mem_def, Option.some.injEq, exists_eq_left']
  -- the call was made without a module, and its name is asked for
  by_cases hcaller : k.callerModule.isNone = true
  · rw [if_pos hcaller, TxnRun.svcTaskCb_noCaller hhome hkt (by simpa using hcaller)]
    exact ⟨fun heq => (Except.error.inj heq).symm, fun heq => by rw [heq]⟩
  · -- otherwise only a callback that fails in a destroyed transaction aborts
    have hends := TxnRun.svcTaskCb_ends (v := ⟨bioCnt, s.services, e.dst, slot.home, t.txn⟩)
      (r := ⟨slot.txn, [], [], false⟩) hhome (h.inv.sound _ slot hslot).counts hkt hinc
      (by simpa [Option.isSome_iff_ne_none] using hcaller) service (by simp [hsvc]) code.run status
      done
    rw [if_neg hcaller]
    split at hends
    · rename_i hbad
      rw [hends]
      exact ⟨fun heq => ⟨hbad.1, hbad.2.1, hbad.2.2.1, hbad.2.2.2, (Except.error.inj heq).symm⟩,
        fun heq => by rw [heq.2.2.2.2]⟩
    · rename_i hgood
      obtain ⟨r, hr⟩ := hends
      rw [hr]
      exact ⟨fun heq => absurd heq (by simp),
        fun heq => absurd ⟨heq.1, heq.2.1, heq.2.2.1, heq.2.2.2.1⟩ hgood⟩

/-- **A transaction is resumed.** -/
theorem Guarded.resume (h : s.Guarded bioCnt) {i : Nat} {e : Event} (hi : s.net[i]? = some e)
    (hpto : e.pto = .workflowRun) (code : UserCode) (fault : TxnFault) :
    s.exec bioCnt (.handle i code) = .error fault ↔ s.Aborts e code fault := by
  have hmem := List.mem_of_getElem? hi
  obtain ⟨x, howner, hlt, -⟩ := h.inv.addressed e hmem e.dst (by rw [Event.side, hpto])
  obtain ⟨slot, hslot⟩ : ∃ slot, s.txns[x]? = some slot := ⟨_, List.getElem?_eq_getElem hlt⟩
  simp only [exec, hi, TxnSystem.handle, hpto, Aborts, slotOf, howner, hslot, Option.mem_def,
    Option.some.injEq, exists_eq_left']
  -- a message to a transaction that was freed
  by_cases hrel : slot.released = true
  · rw [if_pos hrel]
    simp only [onTxn, howner, hslot, hrel, if_true, Except.error.injEq]
    exact eq_comm
  · -- the run itself
    have hrel' : slot.released = false := by simpa using hrel
    have hends := TxnRun.workflowRun_ends (v := ⟨bioCnt, s.services, e.dst, slot.home, x⟩)
      (r := ⟨slot.txn, [], [], false⟩) (h.inv.sound x slot hslot).counts code
    -- it aborts in one way at most
    have hfine : ∀ {p : Prop} [Decidable p] {f : TxnFault} {y : Except TxnFault TxnRun},
        (if p then y = .error f else ∃ r, y = .ok r) → (y = .error fault ↔ p ∧ fault = f) := by
      intro p _ f y hy
      by_cases hp : p
      · rw [if_pos hp] at hy
        simp [hy, hp, eq_comm]
      · rw [if_neg hp] at hy
        obtain ⟨r, rfl⟩ := hy
        simp [hp]
    rw [if_neg hrel, onTxn_error (s := { s with net := s.net.eraseIdx i }) howner hslot hrel']
    by_cases hst : slot.txn.state = .destroyed
    · rw [if_pos hst] at hends ⊢
      exact hfine hends
    · rw [if_neg hst] at hends ⊢
      exact (hfine hends).trans (and_assoc)

/-- **The callback of a job.** -/
theorem Guarded.jobRun (h : s.Guarded bioCnt) {i : Nat} {e : Event} (hi : s.net[i]? = some e)
    {service interval : Nat} {ud : JobData} {valid : Bool} {status : JobRet}
    (hpto : e.pto = .svcTimerRun service ud valid status interval) (code : UserCode) :
    ∃ s', s.exec bioCnt (.handle i code) = .ok s' := by
  have hfine := (h.placed.net e (List.mem_of_getElem? hi)).fine
  simp only [Event.Fine, hpto] at hfine
  obtain ⟨-, rfl, -⟩ := hfine
  cases htask : ud.task with
  | none =>
    simp [exec, hi, TxnSystem.handle, hpto, svcTimerRun, htask, bind, Except.bind]
  | some t =>
    have htok : e.token = some (t, .call e.dst) := by rw [Event.token, hpto]; simp [htask]
    obtain ⟨k, hk⟩ := h.inv.called (mem_stages_of_token (List.mem_of_getElem? hi) htok)
    obtain ⟨s₁, h₁⟩ := pendingCb_ok (s := { s with net := s.net.eraseIdx i }) e.dst service
      code.calls hk
    simp [exec, hi, TxnSystem.handle, hpto, svcTimerRun, htask, h₁, bind, Except.bind]

/-- **A task is offered** to its service. -/
theorem Guarded.offered (h : s.Guarded bioCnt) {i : Nat} {e : Event} (hi : s.net[i]? = some e)
    (hpto : (∃ service api bidx t, e.pto = .svcIocall service api bidx t) ∨
      ∃ service ud valid bidx type interval,
        e.pto = .timerEmit service ud valid bidx type interval) (code : UserCode) :
    ∃ s', s.exec bioCnt (.handle i code) = .ok s' := by
  have hmem := List.mem_of_getElem? hi
  have hvalid := h.tends.valid e hmem
  rcases hpto with ⟨service, api, bidx, t, hpto⟩ | ⟨service, ud, valid, bidx, type, interval, hpto⟩
  · obtain ⟨svc, hsvc, hapi⟩ := h.known.net e hmem (service, some api)
      (by rw [Event.names, hpto]; rfl)
    obtain ⟨type, htype⟩ := Option.isSome_iff_exists.mp (hapi api rfl)
    obtain ⟨l, hl⟩ := (h.tends.services service svc hsvc).2.inv
    have hbidx : Service.validateBidx bioCnt bidx = true := by rwa [Event.Valid, hpto] at hvalid
    -- the message is sent on behalf of the transaction of the task
    obtain ⟨p, hp⟩ := h.inv.accounts t
    have htok : e.token = some (stageFor e.owner t (.waiting e.src)) := by rw [Event.token, hpto]
    have hshow := hp.stages
    rw [stages_take hi t, shows_some htok, if_pos rfl, Multiset.singleton_add] at hshow
    obtain ⟨-, howner, -⟩ := stageFor_mem (u := t) rfl (Progress.mem_of_cons hshow)
    obtain ⟨r, l', hr, -⟩ := Service.svcIocall_spec hl e.src t.txn t htype hbidx
    refine ⟨afterOffer service { s with net := s.net.eraseIdx i } r, ?_⟩
    simp only [exec, hi, TxnSystem.handle, hpto, howner]
    exact onService_total (s := { s with net := s.net.eraseIdx i }) hsvc hr _
  · obtain ⟨svc, hsvc, -⟩ := h.known.net e hmem (service, none) (by rw [Event.names, hpto]; rfl)
    obtain ⟨l, hl⟩ := (h.tends.services service svc hsvc).2.inv
    have hbidx : Service.validateBidx bioCnt bidx = true := by rwa [Event.Valid, hpto] at hvalid
    have hfine := (h.placed.net e hmem).fine
    simp only [Event.Fine, hpto] at hfine
    obtain ⟨entity, howner⟩ := Sum.isRight_iff.mp hfine.2.2
    obtain ⟨r, l', hr, -⟩ := Service.timerEmit_spec hl e.src entity ud valid type interval hbidx
    refine ⟨afterOffer service { s with net := s.net.eraseIdx i } r, ?_⟩
    simp only [exec, hi, TxnSystem.handle, hpto, howner]
    exact onService_total (s := { s with net := s.net.eraseIdx i }) hsvc hr _

/-- **A report** to a service. -/
theorem Guarded.reported (h : s.Guarded bioCnt) {i : Nat} {e : Event} (hi : s.net[i]? = some e)
    (hpto : (∃ service resumeWf done, e.pto = .svcTaskDone service resumeWf done) ∨
      ∃ service status interval, e.pto = .svcTimerDone service status interval) (code : UserCode) :
    ∃ s', s.exec bioCnt (.handle i code) = .ok s' := by
  have hmem := List.mem_of_getElem? hi
  rcases hpto with ⟨service, resumeWf, done, hpto⟩ | ⟨service, status, interval, hpto⟩
  · -- the service of a report is one of the core, and it tends to its queues
    obtain ⟨svc, hsvc, -⟩ := h.known.net e hmem (service, none) (by rw [Event.names, hpto]; rfl)
    have ht := (h.tends.services service svc hsvc).2
    obtain ⟨b, hb⟩ : ∃ b, svc.svcTaskDone bioCnt done = .ok b := by
      cases done with
      | false => exact ht.scheduleTasks
      | true =>
        -- the report is about a body that runs, so `sk_service_task_setcomplete` has one to count
        obtain ⟨n, hn⟩ := occupied_pos (k := service) hmem (by rw [Event.occupies, hpto])
        obtain ⟨svc', hset, b, hb⟩ := Service.Tended.completes (hn ▸ ht)
        exact ⟨b, by simp [Service.svcTaskDone, hset, hb]⟩
    simp only [exec, hi, TxnSystem.handle, hpto]
    cases resumeWf with
    | false => exact ⟨_, onService_total (s := { s with net := s.net.eraseIdx i }) hsvc hb _⟩
    | true => exact ⟨_, onService_total (s := { s with net := s.net.eraseIdx i ++ _ }) hsvc hb _⟩
  · obtain ⟨svc, hsvc, -⟩ := h.known.net e hmem (service, none) (by rw [Event.names, hpto]; rfl)
    have ht := (h.tends.services service svc hsvc).2
    have hfine := (h.placed.net e hmem).fine
    simp only [Event.Fine, hpto] at hfine
    obtain ⟨b, hb⟩ : ∃ b, svc.svcTimerDone bioCnt status = .ok b := by
      cases status with
      -- no bio refuses a task of a timer: the guard says that the message is none of those
      | errorBio => exact absurd rfl hfine.2
      | errorBusy =>
        obtain ⟨b, hb⟩ := ht.scheduleTasks
        exact ⟨b, by simp [Service.svcTimerDone, hb]⟩
      | ok =>
        obtain ⟨n, hn⟩ := occupied_pos (k := service) hmem (by rw [Event.occupies, hpto])
        obtain ⟨svc', hset, b, hb⟩ := Service.Tended.completes (hn ▸ ht)
        exact ⟨b, by simp [Service.svcTimerDone, hset, hb]⟩
    simp only [exec, hi, TxnSystem.handle, hpto]
    exact ⟨_, onService_total (s := { s with net := s.net.eraseIdx i }) hsvc hb _⟩

/-- **A message is handled.** -/
theorem Guarded.handle (h : s.Guarded bioCnt) {i : Nat} {e : Event} (hi : s.net[i]? = some e)
    (hfirst : ∀ e' ∈ s.net.take i, e'.key ≠ e.key) (code : UserCode) (fault : TxnFault) :
    s.exec bioCnt (.handle i code) = .error fault ↔ s.Aborts e code fault := by
  cases hpto : e.pto with
  | workflowRun => exact h.resume hi hpto code fault
  | svcTaskCb t service api status done => exact h.callback hi hfirst hpto code fault
  | svcTaskRun service api io caller t =>
    have hbody := exec_svcTaskRun h.inv h.known h.tends hi code hpto
    by_cases hf : code.failed = true
    · rw [if_pos hf] at hbody
      rw [hbody]
      simp [Aborts, hpto, hf, eq_comm]
    · rw [if_neg hf] at hbody
      obtain ⟨-, s', status, hs', -⟩ := hbody
      exact aborts_of_ok ⟨s', hs'⟩ (by simp [Aborts, hpto, hf])
  | svcTimerRun service ud valid status interval =>
    exact aborts_of_ok (h.jobRun hi hpto code) (by simp [Aborts, hpto])
  | svcIocall service api bidx t =>
    exact aborts_of_ok (h.offered hi (.inl ⟨_, _, _, _, hpto⟩) code) (by simp [Aborts, hpto])
  | timerEmit service ud valid bidx type interval =>
    exact aborts_of_ok (h.offered hi (.inr ⟨_, _, _, _, _, _, hpto⟩) code) (by simp [Aborts, hpto])
  | svcTaskDone service resumeWf done =>
    exact aborts_of_ok (h.reported hi (.inl ⟨_, _, _, hpto⟩) code) (by simp [Aborts, hpto])
  | svcTimerDone service status interval =>
    exact aborts_of_ok (h.reported hi (.inr ⟨_, _, _, hpto⟩) code) (by simp [Aborts, hpto])

/-- The action handles a message whose handler aborts. -/
def Faults (s : TxnSystem) (a : TxnAction) (fault : TxnFault) : Prop :=
  ∃ i code e, a = .handle i code ∧ s.net[i]? = some e ∧ s.Aborts e code fault

/-- An action is executed. -/
theorem Guarded.exec_faults (h : s.Guarded bioCnt) {a : TxnAction} (he : s.enabled bioCnt a)
    (fault : TxnFault) : s.exec bioCnt a = .error fault ↔ s.Faults a fault := by
  cases a with
  -- only a message that is handled can abort
  | create workflow home now immediate => simp [exec, Faults]
  | npTriggered src service entity id rw bidx interval => simp [exec, Faults]
  | deliver x src =>
    obtain ⟨slot, hslot, -⟩ := he
    rw [Option.mem_def] at hslot
    simp [exec, hslot, Faults]
  | jobTriggered i =>
    obtain ⟨c, hi, hjob⟩ := he
    rw [Option.mem_def] at hi
    obtain ⟨ud, hud⟩ := Option.isSome_iff_exists.mp hjob
    simp [exec, hi, hud, Faults]
  | epCb i calls =>
    obtain ⟨c, hi, hjob⟩ := he
    -- the call is still open, so its task has an entry to be counted down
    rw [Option.mem_def] at hi
    have htok : c.token.2 = .call c.sched := by simp [PendingCall.token, hjob]
    have hcall : .call c.sched ∈ s.stages c.task := by
      rw [stages_call hi, if_pos rfl, htok]
      simp
    obtain ⟨k, hk⟩ := h.inv.called hcall
    obtain ⟨s₁, h₁⟩ := pendingCb_ok (s := { s with calls := s.calls.eraseIdx i }) c.sched
      c.service calls hk
    simp [exec, hi, h₁, Faults]
  | handle i code =>
    obtain ⟨e, hi, hfirst⟩ := he
    rw [Option.mem_def] at hi
    rw [h.handle hi hfirst code fault]
    constructor
    · exact fun habort => ⟨i, code, e, rfl, hi, habort⟩
    · -- the position says which message it is
      rintro ⟨i', code', e', hsame, hi', habort⟩
      obtain ⟨rfl, rfl⟩ := TxnAction.handle.inj hsame
      obtain rfl : e = e' := Option.some.inj (hi.symm.trans hi')
      exact habort

/-- The system after `asked`. -/
def asking : TxnSystem := Machine.last fresh ((machine 0).trace fresh asked)

end TxnSystem

end Skull
