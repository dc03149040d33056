import Skull.Txn.Account

namespace Skull

open Machines

/-!
# What the handlers of a transaction do

The handlers on the scheduler of a transaction add tasks, send messages and move the state of
the transaction along:

* `Grows` — tasks were added, each with its message to the master, and nothing else happened to
  the table;
* `TxnRun.iocalls_spec` — the service calls of a piece of module code;
* `TxnRun.run_grew` — a whole `SK_PTO_WORKFLOW_RUN`;
* `TxnRun.svcTaskCb_spec` — a `SK_PTO_SVC_TASK_CB`: it may complete its task, then the callback
  adds tasks, and the master is told.
-/

/-- A message that resumes a transaction, or makes the master do so. -/
def Event.isResume (e : Event) : Bool :=
  match e.pto with
  | .workflowRun => true
  | .svcTaskDone _ resumeWf _ => resumeWf
  | _ => false

/-- A message that a handler on the transaction `v.id` may send. -/
structure TxnEnv.Sends (v : TxnEnv) (e : Event) : Prop where
  notice : e.noticeOf = none
  owner : e.owner = .inl v.id
  side : ∀ c, e.side = some c → c = v.sched
  occupies : e.occupies = none
  valid : e.Valid v.bioCnt
  known : ∀ n ∈ e.names, Knows v.services n

/-- Tasks were added to `t`, the messages `es` were sent and `ms` happened. -/
structure Grows (v : TxnEnv) (t t' : Txn) (es : List Event) (ms : List Mark) : Prop where
  len : t.taskTbl.length ≤ t'.taskTbl.length
  old : ∀ id < t.taskTbl.length, t'.taskTbl[id]? = t.taskTbl[id]?
  fresh : ∀ id, t.taskTbl.length ≤ id → id < t'.taskTbl.length →
    ∃ k, t'.taskTbl[id]? = some k ∧ k.pendings = 0 ∧ k.incomplete = true
  counts : t.Counts → t'.Counts
  sends : ∀ e ∈ es, v.Sends e
  tokens : ∀ r : TaskRef, stagesOf r (es.filterMap Event.token) =
    if r.txn = v.id ∧ t.taskTbl.length ≤ r.taskId ∧ r.taskId < t'.taskTbl.length
    then {.waiting v.sched} else 0
  marks : ∀ m ∈ ms, m.txn = some v.id

namespace Grows

variable {v : TxnEnv} {t t' t'' : Txn} {es es' : List Event} {ms ms' : List Mark}

/-- Nothing happened to the table. -/
theorem of_table (htbl : t'.taskTbl = t.taskTbl) (hcounts : t.Counts → t'.Counts)
    (hes : ∀ e ∈ es, v.Sends e ∧ e.token = none) (hms : ∀ m ∈ ms, m.txn = some v.id) :
    Grows v t t' es ms where
  len := by rw [htbl]
  old id _ := by rw [htbl]
  fresh id hle hlt := absurd (htbl ▸ hlt) (Nat.not_lt.mpr hle)
  counts := hcounts
  sends e he := (hes e he).1
  tokens r := by
    have hnil : es.filterMap Event.token = [] := List.filterMap_eq_nil_iff.mpr fun e he =>
      (hes e he).2
    rw [hnil, htbl, if_neg (by omega)]
    rfl
  marks := hms

theorem refl (v : TxnEnv) (t : Txn) : Grows v t t [] [] :=
  of_table rfl id (by simp) (by simp)

theorem trans (h : Grows v t t' es ms) (h' : Grows v t' t'' es' ms') :
    Grows v t t'' (es ++ es') (ms ++ ms') where
  len := h.len.trans h'.len
  old id hid := by rw [h'.old id (hid.trans_le h.len), h.old id hid]
  fresh id hle hlt := by
    by_cases hid : id < t'.taskTbl.length
    · rw [h'.old id hid]
      exact h.fresh id hle hid
    · exact h'.fresh id (Nat.not_lt.mp hid) hlt
  counts hc := h'.counts (h.counts hc)
  sends e he := (List.mem_append.mp he).elim (h.sends e) (h'.sends e)
  tokens r := by
    rw [List.filterMap_append, stagesOf_append, h.tokens, h'.tokens]
    have h1 := h.len
    have h2 := h'.len
    -- the new places are those of the first part or those of the second
    by_cases hx : r.txn = v.id
    · by_cases hlo : r.taskId < t'.taskTbl.length
      · have hnot : ¬ t'.taskTbl.length ≤ r.taskId := by omega
        have hlo' : r.taskId < t''.taskTbl.length := by omega
        simp [hx, hlo, hlo', hnot]
      · have hle : t'.taskTbl.length ≤ r.taskId := by omega
        have hle' : t.taskTbl.length ≤ r.taskId := by omega
        simp [hx, hlo, hle, hle']
    · simp [hx]
  marks m hm := (List.mem_append.mp hm).elim (h.marks m) (h'.marks m)

end Grows

namespace TxnRun

variable (v : TxnEnv)

/-- `r'` is `r` with tasks added. -/
def Grew (r r' : TxnRun) : Prop :=
  ∃ es ms, r'.sent = r.sent ++ es ∧ r'.log = r.log ++ ms ∧ Grows v r.txn r'.txn es ms

variable {v} {r r' r'' : TxnRun}

theorem Grew.refl : Grew v r r := ⟨[], [], by simp, by simp, Grows.refl v r.txn⟩

theorem Grew.trans (h : Grew v r r') (h' : Grew v r' r'') : Grew v r r'' := by
  obtain ⟨es, ms, hsent, hlog, hg⟩ := h
  obtain ⟨es', ms', hsent', hlog', hg'⟩ := h'
  exact ⟨es ++ es', ms ++ ms', by rw [hsent', hsent, List.append_assoc],
    by rw [hlog', hlog, List.append_assoc], hg.trans hg'⟩

/-- Only the transaction changed, and not its tasks. -/
theorem Grew.of_table (hsent : r'.sent = r.sent) (hlog : r'.log = r.log)
    (htbl : r'.txn.taskTbl = r.txn.taskTbl) (hcounts : r.txn.Counts → r'.txn.Counts) :
    Grew v r r' :=
  ⟨[], [], by simp [hsent], by simp [hlog], .of_table htbl hcounts (by simp) (by simp)⟩

/-! ### The small steps -/

/-- `sk_txn_setstate` sets the state, and marks it. -/
theorem setstate_ok {st : TxnState} (h : r.setstate v st = .ok r') :
    r' = { r with
        txn := { r.txn with state := st, error := r.txn.error || st = .error }
        log := r.log ++ [.state v.id st] } ∧
      (r.txn.state = .destroyed → st = .destroyed) := by
  obtain ⟨t, ht, rfl⟩ := except_map_ok.mp h
  unfold Txn.setstate at ht
  split at ht
  · exact absurd ht (by simp)
  · rename_i hne
    rw [← Except.ok.inj ht]
    exact ⟨rfl, fun hd => by_contra fun hs => hne ⟨hd, hs⟩⟩

/-- So it adds one mark. -/
theorem setstate_grew {st : TxnState} (h : r.setstate v st = .ok r') : Grew v r r' := by
  obtain ⟨rfl, -⟩ := setstate_ok h
  exact ⟨[], [.state v.id st], by simp, rfl,
    .of_table rfl (fun hc => hc.congr rfl rfl rfl rfl) (by simp) (by simp [Mark.txn])⟩

/-- Going to the next module keeps the counts. -/
theorem nextModule_counts {t : Txn} (h : t.Counts) : t.nextModule.2.Counts := by
  unfold Txn.nextModule
  split <;> exact h.congr rfl rfl rfl rfl

/-- It changes nothing but the module. -/
theorem nextModule_frame (t : Txn) :
    t.nextModule.2 = { t with
      current := t.nextModule.2.current, workflowIdx := t.nextModule.2.workflowIdx } := by
  unfold Txn.nextModule
  split <;> rfl

/-- The next module becomes the current one. -/
theorem nextModule_current (t : Txn) : t.nextModule.2.current = t.nextModule.1 := by
  unfold Txn.nextModule
  split <;> rfl

/-- It adds nothing. -/
theorem nextModule_grew (r : TxnRun) : Grew v r { r with txn := r.txn.nextModule.2 } :=
  .of_table rfl rfl (by rw [nextModule_frame]) nextModule_counts

/-- Marks of the transaction. -/
theorem log_grew (r : TxnRun) {ms : List Mark} (hms : ∀ m ∈ ms, m.txn = some v.id) :
    Grew v r { r with log := r.log ++ ms } :=
  ⟨[], ms, by simp, rfl, .of_table rfl id (by simp) hms⟩

/-- The mark of a failed pack is of its transaction. -/
theorem inactive_txn {pack : ModuleCode} {x : TxnId} :
    ∀ m ∈ if pack.failed then [Mark.inactive x] else [], m.txn = some x := by
  intro m hm
  split at hm
  · rw [List.mem_singleton.mp hm]
    rfl
  · simp at hm

/-- The message that goes on with the next module. -/
theorem resume_grew (r : TxnRun) : Grew v r
    { r with sent := r.sent ++ [⟨v.sched, v.sched, .inl v.id, .workflowRun⟩] } := by
  refine ⟨_, [], rfl, by simp, .of_table rfl id ?_ (by simp)⟩
  intro e he
  rw [List.mem_singleton.mp he]
  exact ⟨⟨rfl, rfl, fun c hc => (Option.some.inj hc).symm, rfl, trivial, by simp [Event.names]⟩,
    rfl⟩

/-- The end of a transaction sends nothing. -/
theorem txnLogAndDestroy_txn (r : TxnRun) : r.txnLogAndDestroy.txn = r.txn ∧
    r.txnLogAndDestroy.sent = r.sent ∧ r.txnLogAndDestroy.log = r.log := by
  unfold txnLogAndDestroy
  split <;> exact ⟨rfl, rfl, rfl⟩

/-- It adds nothing. -/
theorem txnLogAndDestroy_grew (r : TxnRun) : Grew v r r.txnLogAndDestroy := by
  obtain ⟨htxn, hsent, hlog⟩ := r.txnLogAndDestroy_txn
  exact .of_table hsent hlog (by rw [htxn]) fun hc => htxn ▸ hc

/-! ### Service calls -/

variable (v) in
/-- What the service calls of a piece of code do: they add tasks and send the messages `es`. -/
structure Called (r r' : TxnRun) (es : List Event) : Prop where
  sent : r'.sent = r.sent ++ es
  log : r'.log = r.log
  released : r'.released = r.released
  grows : Grows v r.txn r'.txn es []
  quiet : ∀ e ∈ es, e.isResume = false
  txn : r'.txn = { r.txn with
    taskTbl := r'.txn.taskTbl, totalTasks := r'.txn.totalTasks
    pendingTasks := r'.txn.pendingTasks }
  callers : ∀ k ∈ r'.txn.taskTbl, k ∈ r.txn.taskTbl ∨ k.callerModule = r.txn.currentModule

theorem Called.refl : Called v r r [] :=
  ⟨by simp, rfl, rfl, Grows.refl v r.txn, by simp, rfl, fun _ hk => .inl hk⟩

theorem Called.trans {es es' : List Event} (h : Called v r r' es) (h' : Called v r' r'' es') :
    Called v r r'' (es ++ es') where
  sent := by rw [h'.sent, h.sent, List.append_assoc]
  log := h'.log.trans h.log
  released := h'.released.trans h.released
  grows := h.grows.trans h'.grows
  quiet e he := (List.mem_append.mp he).elim (h.quiet e) (h'.quiet e)
  txn := by rw [h'.txn, h.txn]
  callers k hk := by
    have hcurrent : r'.txn.currentModule = r.txn.currentModule := by rw [h.txn]; rfl
    rcases h'.callers k hk with hk | hk
    · exact h.callers k hk
    · exact .inr (hk.trans hcurrent)

/-- Calls add tasks. -/
theorem Called.grew {es : List Event} (h : Called v r r' es) : Grew v r r' :=
  ⟨es, [], h.sent, by simp [h.log], h.grows⟩

/-- Calls keep the state, the workflow and what is completed. -/
theorem Called.keeps {es : List Event} (h : Called v r r' es) :
    r'.txn.state = r.txn.state ∧ r'.txn.workflow = r.txn.workflow ∧
      r'.txn.completeTasks = r.txn.completeTasks :=
  ⟨by rw [h.txn], by rw [h.txn], by rw [h.txn]⟩

/-- They keep the module. -/
theorem Called.current {es : List Event} (h : Called v r r' es) :
    r'.txn.current = r.txn.current := by rw [h.txn]

/-- A task that was added. -/
theorem taskAdd_counts {t t' : Txn} {apiName id : Nat} {cb : Bool} {caller : Option Nat}
    (h : t.taskAdd apiName cb caller = .ok (id, t')) (hc : t.Counts) : t'.Counts := by
  obtain ⟨t'', ht, hc', -⟩ := hc.taskAdd apiName cb caller
  rw [ht] at h
  simp only [Except.ok.injEq, Prod.mk.injEq] at h
  exact h.2 ▸ hc'

/-- **One service call.** -/
theorem iocall_spec {c : Iocall} (h : r.iocall v c = .ok r') : ∃ es, Called v r r' es := by
  unfold iocall at h
  cases hsvc : v.services[c.service]? with
  | none =>
    simp only [hsvc, Except.ok.injEq] at h
    exact ⟨[], h ▸ .refl⟩
  | some svc =>
    simp only [hsvc] at h
    by_cases hrefused : (svc.api c.api).isNone = true ∨ r.txn.state = .init ∨
        ¬ Service.validateBidx v.bioCnt c.bidx = true
    · -- `sk_service_iocall` refuses the call, and nothing changes
      have hr : r' = r := by
        rcases hrefused with h1 | h1 | h1
        · simpa [h1, eq_comm] using h
        · by_cases h2 : (svc.api c.api).isNone = true <;> simpa [h1, h2, eq_comm] using h
        · by_cases h2 : (svc.api c.api).isNone = true <;>
            by_cases h3 : r.txn.state = .init <;> simpa [h1, h2, h3, eq_comm] using h
      exact ⟨[], hr ▸ .refl⟩
    · simp only [not_or, not_not] at hrefused
      obtain ⟨h1, h2, h3⟩ := hrefused
      -- a task is added, and the service asked to run it
      simp only [h1, h2, h3, if_false, not_true_eq_false, Bool.false_eq_true] at h
      obtain ⟨⟨id, t⟩, ht, rfl⟩ := except_map_ok.mp h
      have hcounts := taskAdd_counts ht
      simp only [Txn.taskAdd] at ht
      split at ht
      · simp only [Except.ok.injEq, Prod.mk.injEq] at ht
        obtain ⟨rfl, rfl⟩ := ht
        refine ⟨_, rfl, rfl, rfl, ?_, ?_, rfl, fun k hk => ?_⟩
        · refine ⟨by simp, fun id hid => ?_, fun id hle hlt => ?_, hcounts, ?_, fun t => ?_,
            by simp⟩
          · simp [List.getElem?_append, hid]
          · have hid : id = r.txn.taskTbl.length := by
              simp only [List.length_append, List.length_singleton] at hlt
              omega
            subst hid
            exact ⟨_, List.getElem?_concat_length, rfl, rfl⟩
          · intro e he
            rw [List.mem_singleton.mp he]
            refine ⟨rfl, rfl, fun c hc => absurd hc (by simp [Event.side]), rfl, h3, ?_⟩
            have hsome : (svc.api c.api).isSome = true := by
              simpa [Option.isSome_iff_ne_none] using h1
            simp [Event.names, Knows, hsvc, hsome]
          · obtain ⟨x, i⟩ := t
            have htok : List.filterMap Event.token [(⟨v.sched, .master, .inl v.id,
                .svcIocall c.service c.api c.bidx ⟨v.id, r.txn.taskTbl.length⟩⟩ : Event)] =
                [(⟨v.id, r.txn.taskTbl.length⟩, .waiting v.sched)] := by
              simp [Event.token, stageFor]
            rw [htok, stagesOf_cons, stagesOf_nil, add_zero]
            simp only [List.length_append, List.length_singleton, TaskRef.mk.injEq]
            by_cases hi : v.id = x ∧ r.txn.taskTbl.length = i
            · rw [if_pos hi, if_pos ⟨hi.1.symm, by omega, by omega⟩]
            · rw [if_neg hi, if_neg fun hx => hi ⟨hx.1.symm, by omega⟩]
        · intro e he
          rw [List.mem_singleton.mp he]
          rfl
        · rcases List.mem_append.mp hk with hk | hk
          · exact .inl hk
          · rw [List.mem_singleton.mp hk]
            exact .inr rfl
      · exact absurd ht (by simp)

/-- **The service calls** of a piece of module code. -/
theorem iocalls_spec {cs : List Iocall} (h : r.iocalls v cs = .ok r') :
    ∃ es, Called v r r' es := by
  induction cs generalizing r with
  | nil =>
    rw [← Except.ok.inj h]
    exact ⟨[], .refl⟩
  | cons c cs ih =>
    obtain ⟨r₁, h1, h2⟩ := except_bind_ok.mp h
    obtain ⟨es, hes⟩ := iocall_spec h1
    obtain ⟨es', hes'⟩ := ih h2
    exact ⟨es ++ es', hes.trans hes'⟩

/-- The calls of a module add tasks. -/
theorem iocalls_grew {cs : List Iocall} (h : r.iocalls v cs = .ok r') : Grew v r r' := by
  obtain ⟨es, hes⟩ := iocalls_spec h
  exact hes.grew

/-! ### A whole `SK_PTO_WORKFLOW_RUN` -/

/-- A run of a module adds what it calls. -/
theorem moduleRun_grew {code : ModuleCode} {again : TxnRun → Except TxnFault TxnRun}
    (hagain : ∀ r r', again r = .ok r' → Grew v r r') (h : r.moduleRun v code again = .ok r') :
    Grew v r r' := by
  unfold moduleRun at h
  -- the next module is taken, and nothing is sent
  have hnext := nextModule_grew (v := v) r
  by_cases hnone : r.txn.nextModule.1.isNone = true
  · simp only [hnone, if_true] at h
    obtain ⟨r₁, h1, h2⟩ := except_bind_ok.mp h
    exact hnext.trans ((setstate_grew h1).trans (hagain _ _ h2))
  · -- a module is left, and runs
    simp only [hnone, if_false, Bool.false_eq_true] at h
    obtain ⟨r₁, h1, h⟩ := except_bind_ok.mp h
    obtain ⟨r₂, h2, h⟩ := except_bind_ok.mp h
    have hcode : Grew v r r₂ := by
      have h12 : Grew v r₁ r₂ := by
        split at h2
        · exact setstate_grew h2
        · exact Except.ok.inj h2 ▸ .refl
      exact hnext.trans ((log_grew _ (by simp [Mark.txn])).trans ((iocalls_grew h1).trans h12))
    -- then it waits, is packed, or goes on
    refine hcode.trans ?_
    split at h
    · split at h
      · exact setstate_grew h
      · exact Except.ok.inj h ▸ .refl
    · split at h
      · exact hagain _ _ h
      · split at h
        · exact Except.ok.inj h ▸ resume_grew r₂
        · obtain ⟨r₃, h3, h4⟩ := except_bind_ok.mp h
          exact (setstate_grew h3).trans (hagain _ _ h4)

theorem modulePack_grew {pack : ModuleCode} {again : TxnRun → Except TxnFault TxnRun}
    (hagain : ∀ r r', again r = .ok r' → Grew v r r') (h : r.modulePack v pack again = .ok r') :
    Grew v r r' := by
  unfold modulePack at h
  split at h
  · exact absurd h (by simp)
  · split at h
    · obtain ⟨r₁, h1, h2⟩ := except_bind_ok.mp h
      exact (setstate_grew h1).trans (hagain _ _ h2)
    · obtain ⟨r₁, h1, h⟩ := except_bind_ok.mp h
      obtain ⟨r₂, h2, h3⟩ := except_bind_ok.mp h
      exact (log_grew r (by simp [Mark.txn])).trans ((iocalls_grew h1).trans
        ((log_grew r₁ inactive_txn).trans ((setstate_grew h2).trans (hagain _ _ h3))))

/-- **A whole run** only adds tasks. -/
theorem run_grew {code : UserCode} (depth : Nat) : ∀ {r r' : TxnRun},
    r.run v code depth = .ok r' → Grew v r r' := by
  induction depth with
  | zero => intro r r' h; exact absurd h (by simp [run])
  | succ depth ih =>
    intro r r' h
    simp only [run] at h
    obtain ⟨r₁, h1, h⟩ := except_bind_ok.mp h
    have ht : Grew v r r₁ := by
      split at h1
      · exact setstate_grew h1
      · exact Except.ok.inj h1 ▸ .refl
    refine ht.trans ?_
    have hagain : ∀ r r', r.run v code depth = .ok r' → Grew v r r' := fun _ _ => ih
    cases hst : r.txn.state <;> simp only [hst] at h
    case init | unpacked | pending =>
      obtain ⟨r₂, h2, h3⟩ := except_bind_ok.mp h
      exact (setstate_grew h2).trans (ih h3)
    case running => exact moduleRun_grew hagain h
    case completed | error | timeout => exact modulePack_grew hagain h
    case packed =>
      obtain ⟨r₂, h2, h3⟩ := except_bind_ok.mp h
      exact (setstate_grew h2).trans (Except.ok.inj h3 ▸ r₂.txnLogAndDestroy_grew)
    case destroyed => exact Except.ok.inj h ▸ r₁.txnLogAndDestroy_grew

/-- A run that releases its transaction has found no incomplete task. -/
def Freed (r : TxnRun) : Prop :=
  r.released = true → ¬ r.txn.completeTasks < r.txn.totalTasks

/-- The end of a transaction frees it once. -/
theorem txnLogAndDestroy_freed (h : r.released = false) : r.txnLogAndDestroy.Freed := by
  unfold txnLogAndDestroy Freed
  split
  · simp [h]
  · exact fun _ => ‹_›

/-- A change of state frees nothing. -/
theorem setstate_released {st : TxnState} (h : r.setstate v st = .ok r') :
    r'.released = r.released := by
  rw [(setstate_ok h).1]

/-- Calls free nothing. -/
theorem iocalls_released {cs : List Iocall} (h : r.iocalls v cs = .ok r') :
    r'.released = r.released := by
  obtain ⟨es, hes⟩ := iocalls_spec h
  exact hes.released

/-- A run frees the transaction at most once. -/
theorem moduleRun_freed {code : ModuleCode} {again : TxnRun → Except TxnFault TxnRun}
    (hagain : ∀ r r', r.released = false → again r = .ok r' → r'.Freed)
    (hr : r.released = false) (h : r.moduleRun v code again = .ok r') : r'.Freed := by
  -- as long as it is not released there is nothing to show
  have hlive : ∀ {r₁ : TxnRun}, r₁.released = false → r₁.Freed := fun h₁ h₂ =>
    absurd (h₁.symm.trans h₂) (by simp)
  unfold moduleRun at h
  -- no module is left
  by_cases hnone : r.txn.nextModule.1.isNone = true
  · simp only [hnone, if_true] at h
    obtain ⟨r₁, h1, h2⟩ := except_bind_ok.mp h
    exact hagain _ _ ((setstate_released h1).trans hr) h2
  · simp only [hnone, if_false, Bool.false_eq_true] at h
    obtain ⟨r₁, h1, h⟩ := except_bind_ok.mp h
    obtain ⟨r₂, h2, h⟩ := except_bind_ok.mp h
    have hr₁ : r₁.released = false := (iocalls_released h1).trans hr
    -- an error of the module changes its state only
    have hr₂ : r₂.released = false := by
      split at h2
      · exact (setstate_released h2).trans hr₁
      · exact Except.ok.inj h2 ▸ hr₁
    -- it waits, is packed or goes on
    split at h
    · split at h
      · exact hlive ((setstate_released h).trans hr₂)
      · exact Except.ok.inj h ▸ hlive hr₂
    · split at h
      · exact hagain _ _ hr₂ h
      · split at h
        · exact Except.ok.inj h ▸ hlive hr₂
        · obtain ⟨r₃, h3, h4⟩ := except_bind_ok.mp h
          exact hagain _ _ ((setstate_released h3).trans hr₂) h4

theorem modulePack_freed {pack : ModuleCode} {again : TxnRun → Except TxnFault TxnRun}
    (hagain : ∀ r r', r.released = false → again r = .ok r' → r'.Freed)
    (hr : r.released = false) (h : r.modulePack v pack again = .ok r') : r'.Freed := by
  unfold modulePack at h
  split at h
  · exact absurd h (by simp)
  · split at h
    · obtain ⟨r₁, h1, h2⟩ := except_bind_ok.mp h
      exact hagain _ _ ((setstate_released h1).trans hr) h2
    · obtain ⟨r₁, h1, h⟩ := except_bind_ok.mp h
      obtain ⟨r₂, h2, h3⟩ := except_bind_ok.mp h
      have hr₁ : r₁.released = false := (iocalls_released h1).trans hr
      exact hagain _ _ ((setstate_released h2).trans hr₁) h3

/-- **Release.** A run releases its transaction only when all tasks are complete. -/
theorem run_freed {code : UserCode} (depth : Nat) : ∀ {r r' : TxnRun},
    r.run v code depth = .ok r' → r.released = false → r'.Freed := by
  induction depth with
  | zero => intro r r' h; exact absurd h (by simp [run])
  | succ depth ih =>
    intro r r' h hr
    simp only [run] at h
    obtain ⟨r₁, h1, h⟩ := except_bind_ok.mp h
    have hr₁ : r₁.released = false := by
      split at h1
      · exact (setstate_released h1).trans hr
      · exact Except.ok.inj h1 ▸ hr
    have hagain : ∀ r r' : TxnRun, r.released = false → r.run v code depth = .ok r' →
        r'.Freed := fun _ _ hr h => ih h hr
    cases hst : r.txn.state <;> simp only [hst] at h
    case init | unpacked | pending =>
      obtain ⟨r₂, h2, h3⟩ := except_bind_ok.mp h
      exact ih h3 ((setstate_released h2).trans hr₁)
    case running => exact moduleRun_freed hagain hr₁ h
    case completed | error | timeout => exact modulePack_freed hagain hr₁ h
    case packed =>
      obtain ⟨r₂, h2, h3⟩ := except_bind_ok.mp h
      exact Except.ok.inj h3 ▸ txnLogAndDestroy_freed ((setstate_released h2).trans hr₁)
    case destroyed => exact Except.ok.inj h ▸ txnLogAndDestroy_freed hr₁

/-! ### A `SK_PTO_SVC_TASK_CB` -/

variable (v) in
/-- What a callback does: it adds tasks and may put the transaction into the error state. -/
structure Settled (r r' : TxnRun) (es : List Event) (ms : List Mark) : Prop where
  sent : r'.sent = r.sent ++ es
  log : r'.log = r.log ++ ms
  released : r'.released = r.released
  grows : Grows v r.txn r'.txn es ms
  quiet : ∀ e ∈ es, e.isResume = false
  workflow : r'.txn.workflow = r.txn.workflow
  complete : r'.txn.completeTasks = r.txn.completeTasks
  state : ms = [] ∧ r'.txn.state = r.txn.state ∨
    ms = [.state v.id .error] ∧ r'.txn.state = .error ∧ r.txn.state ≠ .destroyed
  current : r'.txn.current = r.txn.current
  callers : ∀ k ∈ r'.txn.taskTbl, k ∈ r.txn.taskTbl ∨ k.callerModule = r.txn.currentModule

theorem Settled.refl : Settled v r r [] [] :=
  ⟨by simp, by simp, rfl, Grows.refl v r.txn, by simp, rfl, rfl, .inl ⟨rfl, rfl⟩, rfl,
    fun _ hk => .inl hk⟩

/-- Calls settle nothing. -/
theorem Called.settled {es : List Event} (h : Called v r r' es) : Settled v r r' es [] :=
  ⟨h.sent, by simp [h.log], h.released, h.grows, h.quiet, h.keeps.2.1, h.keeps.2.2,
    .inl ⟨rfl, h.keeps.1⟩, h.current, h.callers⟩

/-- An error after the service calls. -/
theorem Called.error {es : List Event} (h : Called v r r' es)
    (he : r'.setstate v .error = .ok r'') : Settled v r r'' es [.state v.id .error] := by
  obtain ⟨rfl, hne⟩ := setstate_ok he
  have hnot : r'.txn.state ≠ .destroyed := fun hd => absurd (hne hd) (by simp)
  refine ⟨h.sent, by simp [h.log], h.released, ?_, h.quiet, h.keeps.2.1, h.keeps.2.2,
    .inr ⟨rfl, rfl, h.keeps.1 ▸ hnot⟩, h.current, h.callers⟩
  have herror : Grows v r'.txn { r'.txn with
      state := .error, error := r'.txn.error || decide (TxnState.error = TxnState.error) } []
      [.state v.id .error] :=
    .of_table rfl (fun hc => hc.congr rfl rfl rfl rfl) (by simp) (by simp [Mark.txn])
  simpa using h.grows.trans herror

/-- **The callback** of a task: without one nothing happens. -/
theorem iocallComplete_spec {code : ModuleCode} {taskId : Nat}
    (h : r.iocallComplete v code taskId = .ok r') :
    ∃ k es ms, r.txn.taskTbl[taskId]? = some k ∧ Settled v r r' es ms ∧
      (k.cb = false → r' = r) := by
  unfold iocallComplete at h
  cases hk : r.txn.taskTbl[taskId]? with
  | none => simp [hk] at h
  | some k =>
    simp only [hk] at h
    by_cases hcb : k.cb = true
    · simp only [hcb, if_true] at h
      obtain ⟨r₁, h1, h2⟩ := except_bind_ok.mp h
      obtain ⟨es, hes⟩ := iocalls_spec h1
      split at h2
      · exact ⟨k, es, _, rfl, hes.error h2, by simp [hcb]⟩
      · exact ⟨k, es, [], rfl, Except.ok.inj h2 ▸ hes.settled, by simp [hcb]⟩
    · simp only [hcb, if_false, Bool.false_eq_true, Except.ok.injEq] at h
      exact ⟨k, [], [], rfl, h ▸ .refl, fun _ => h.symm⟩

/-- The transaction after a `SK_PTO_SVC_TASK_CB` has completed its task, if the status says so. -/
inductive Completed (r : TxnRun) (t : TaskRef) (status : TaskStatus) : TxnRun → Prop
  | terminal {k : TxnTask} {txn : Txn} (hs : status = .done ∨ status = .busy)
      (hk : r.txn.taskTbl[t.taskId]? = some k)
      (htxn : r.txn.taskSetcomplete t.taskId status = .ok txn) :
      Completed r t status
        { r with txn, log := r.log ++ [Mark.terminal t, Mark.setcomplete t] }
  | notice (hs : ¬ (status = .done ∨ status = .busy)) : Completed r t status r

/-! Completing a task sends nothing, and marks only the task. -/

/-- A completed task sends nothing. -/
theorem Completed.sent {t : TaskRef} {status : TaskStatus} (h : Completed r t status r') :
    r'.sent = r.sent := by
  cases h <;> rfl

/-- It frees nothing. -/
theorem Completed.released {t : TaskRef} {status : TaskStatus} (h : Completed r t status r') :
    r'.released = r.released := by
  cases h <;> rfl

/-- It is marked, or was before. -/
theorem Completed.log {t : TaskRef} {status : TaskStatus} (h : Completed r t status r') :
    ∃ ms, r'.log = r.log ++ ms ∧ (ms = [] ∨ ms = [.terminal t, .setcomplete t]) := by
  cases h with
  | terminal hs hk htxn => exact ⟨_, rfl, .inr rfl⟩
  | notice hs => exact ⟨[], by simp, .inl rfl⟩

/-- It keeps the state. -/
theorem Completed.state {t : TaskRef} {status : TaskStatus} (h : Completed r t status r') :
    r'.txn.state = r.txn.state := by
  cases h with
  | terminal hs hk htxn =>
    unfold Txn.taskSetcomplete at htxn
    split at htxn
    · split at htxn
      · exact absurd htxn (by simp)
      · rw [← Except.ok.inj htxn]
    · exact absurd htxn (by simp)
  | notice hs => rfl

/-- Completing a task leaves who made it and whether it has a callback. -/
theorem taskSetcomplete_task {t t' : Txn} {taskId : Nat} {status : TaskStatus} {k : TxnTask}
    (h : t.taskSetcomplete taskId status = .ok t') (hk : t.taskTbl[taskId]? = some k) :
    t'.taskTbl[taskId]? = some { k with status } := by
  unfold Txn.taskSetcomplete at h
  split at h
  · simp only [hk, Except.ok.injEq] at h
    rw [← h]
    simp [(List.getElem?_eq_some_iff.mp hk).1]
  · exact absurd h (by simp)

/-- A handler of `SK_PTO_SVC_TASK_CB` that comes to its end: the call was made by a module, its end is
    handled if the status says so, and the master is told. -/
theorem svcTaskCb_ok {code : ModuleCode} {t : TaskRef} {service : Nat} {status : TaskStatus}
    {done : Bool} (h : r.svcTaskCb v code t service status done = .ok r') :
    v.sched = v.home ∧ ∃ k r₁, r.txn.taskTbl[t.taskId]? = some k ∧ k.callerModule.isSome = true ∧
      (if status = .done ∨ status = .busy then r.complete v code t service status else .ok r) =
        .ok r₁ ∧
      r' = { r₁ with
        sent := r₁.sent ++ [⟨v.sched, .master, .inl v.id, .svcTaskDone service
          (if k.cb then r₁.txn.moduleComplete else r₁.txn.alltaskComplete) done⟩]
        log := r₁.log ++ if done then [.taskDone t] else [] } := by
  unfold svcTaskCb at h
  split at h
  · exact absurd h (by simp)
  · rename_i hsched
    cases hk : r.txn.taskTbl[t.taskId]? with
    | none => simp [hk] at h
    | some k =>
      simp only [hk] at h
      split at h
      · exact absurd h (by simp)
      · rename_i hcaller
        obtain ⟨r₁, h1, h2⟩ := except_bind_ok.mp h
        exact ⟨not_not.mp hsched, k, r₁, rfl, by simpa [Option.isSome_iff_ne_none] using hcaller,
          h1, (Except.ok.inj h2).symm⟩

/-- **A callback message.** Its task is completed if the status says so, the callback adds
    tasks, and the master is told whether to resume. -/
theorem svcTaskCb_spec {code : ModuleCode} {t : TaskRef} {service : Nat} {status : TaskStatus}
    {done : Bool} (h : r.svcTaskCb v code t service status done = .ok r') :
    v.sched = v.home ∧ ∃ r₁ r₂ es ms k, Completed r t status r₁ ∧ Settled v r₁ r₂ es ms ∧
      (k.cb = false ∨ ¬ (status = .done ∨ status = .busy) → r₂ = r₁) ∧
      r₂.txn.taskTbl[t.taskId]? = some k ∧
      r' = { r₂ with
        sent := r₂.sent ++ [⟨v.sched, .master, .inl v.id, .svcTaskDone service
          (if k.cb then r₂.txn.moduleComplete else r₂.txn.alltaskComplete) done⟩]
        log := r₂.log ++ if done then [.taskDone t] else [] } := by
  obtain ⟨hsched, k, r₂, hk, -, h2, h⟩ := svcTaskCb_ok h
  refine ⟨hsched, ?_⟩
  by_cases hs : status = .done ∨ status = .busy
  · simp only [hs, if_true, complete] at h2
    obtain ⟨txn, htxn, h2⟩ := except_bind_ok.mp h2
    split at h2
    · exact absurd h2 (by simp)
    · obtain ⟨k', es, ms, hk', hset, hnocb⟩ := iocallComplete_spec h2
      -- the callback added tasks, and did not touch this one
      obtain rfl : k' = { k with status } :=
        Option.some.inj (hk'.symm.trans (taskSetcomplete_task htxn hk))
      have hid := (List.getElem?_eq_some_iff.mp hk').1
      refine ⟨_, r₂, es, ms, _, .terminal hs hk htxn, hset, fun hcb => ?_,
        (hset.grows.old _ hid).trans hk', h⟩
      rcases hcb with hcb | hcb
      · exact hnocb hcb
      · exact absurd hs hcb
  · simp only [hs, if_false, Except.ok.injEq] at h2
    exact ⟨r, r₂, [], [], k, .notice hs, h2 ▸ .refl, fun _ => h2.symm, h2 ▸ hk, h⟩

end TxnRun

end Skull
