import Skull.Txn.Handlers

namespace Skull

open Machines

/-!
# What a run of a workflow leaves

A `SK_PTO_WORKFLOW_RUN` that finds no callback task incomplete leaves as many messages that
resume the transaction as are due: one, when it can go on at once, and none when a task will make
the master resume it, or it is released.

* `Txn.due` — the messages that are due for a transaction;
* `TxnRun.Outcome` — what a run leaves, and `TxnRun.run_outcome` that it does.
-/

/-- How many messages that resume the transaction should be under way. -/
def Txn.due (t : Txn) : Nat :=
  if t.state = .destroyed then t.alltaskComplete.toNat else t.moduleComplete.toNat

/-- How often `pack` was called. -/
def Txn.packsDone (t : Txn) : Nat :=
  if t.state = .packed ∨ t.state = .destroyed then t.workflow.hasPack.toNat else 0

/-- A call of `pack` for the transaction `x`. -/
def Mark.isPackOf (x : TxnId) : Mark → Bool
  | .packed y _ _ => y = x
  | _ => false

/-- Every service call was made by a module. -/
def Txn.Named (t : Txn) : Prop := ∀ k ∈ t.taskTbl, k.callerModule.isSome = true

/-- What a run on the transaction `x` may do while no callback task is incomplete. -/
def Mark.Timely (x : TxnId) : Mark → Prop
  | .entered y w => y = x ∧ w = 0
  | .packed y w _ => y = x ∧ w = 0
  | .state y _ => y = x
  | .inactive y => y = x
  | .terminal _ | .setcomplete _ | .scheduled _ | .taskDone _ => False

namespace TxnRun

/-- From `r` to `r'` the messages `es` were sent and `ms` happened: modules were entered and
    `pack` was called while no callback task was incomplete. -/
structure Moved (v : TxnEnv) (r r' : TxnRun) (es : List Event) (ms : List Mark) : Prop where
  sent : r'.sent = r.sent ++ es
  log : r'.log = r.log ++ ms
  workflow : r'.txn.workflow = r.txn.workflow
  marks : ∀ m ∈ ms, m.Timely v.id
  packs : ms.countP (·.isPackOf v.id) + r.txn.packsDone = r'.txn.packsDone
  callers : r.txn.Named → r'.txn.Named

/-- Nothing was sent that resumes the transaction. -/
def Silent (v : TxnEnv) (r r' : TxnRun) : Prop :=
  ∃ es ms, Moved v r r' es ms ∧ es.countP (·.isResume) = 0

/-- What a run leaves. -/
structure Outcome (v : TxnEnv) (r r' : TxnRun) : Prop where
  moved : ∃ es ms, Moved v r r' es ms ∧
    es.countP (·.isResume) = if r'.released then 0 else r'.txn.due
  unpacked : r'.txn.state ≠ .packed
  destroyed : r'.txn.state = .destroyed → r'.txn.moduleComplete = true
  released : r'.released = true → r'.txn.state = .destroyed
  current : r'.txn.current = none → r'.txn.moduleComplete = true

variable {v : TxnEnv} {r r' r'' : TxnRun}

theorem Moved.trans {es es' : List Event} {ms ms' : List Mark} (h : Moved v r r' es ms)
    (h' : Moved v r' r'' es' ms') : Moved v r r'' (es ++ es') (ms ++ ms') where
  sent := by rw [h'.sent, h.sent, List.append_assoc]
  log := by rw [h'.log, h.log, List.append_assoc]
  workflow := h'.workflow.trans h.workflow
  marks m hm := (List.mem_append.mp hm).elim (h.marks m) (h'.marks m)
  packs := by
    have h1 := h.packs
    have h2 := h'.packs
    rw [List.countP_append]
    omega
  callers hn := h'.callers (h.callers hn)

theorem Silent.trans (h : Silent v r r') (h' : Silent v r' r'') : Silent v r r'' := by
  obtain ⟨es, ms, hm, hes⟩ := h
  obtain ⟨es', ms', hm', hes'⟩ := h'
  exact ⟨_, _, hm.trans hm', by rw [List.countP_append, hes, hes']⟩

/-- A silent step before an outcome. -/
theorem Silent.outcome (h : Silent v r r') (h' : Outcome v r' r'') : Outcome v r r'' := by
  obtain ⟨es, ms, hm, hes⟩ := h
  obtain ⟨es', ms', hm', hes'⟩ := h'.moved
  exact ⟨⟨_, _, hm.trans hm', by rw [List.countP_append, hes, zero_add, hes']⟩, h'.unpacked,
    h'.destroyed, h'.released, h'.current⟩

/-- Only the transaction changed, and not its tasks. -/
theorem Silent.of_txn {txn : Txn} (hworkflow : txn.workflow = r.txn.workflow)
    (htbl : txn.taskTbl = r.txn.taskTbl) (hpacks : r.txn.packsDone = txn.packsDone) :
    Silent v r { r with txn } :=
  ⟨[], [], ⟨by simp, by simp, hworkflow, by simp, by simpa using hpacks,
    fun hn k hk => hn k (htbl ▸ hk)⟩, rfl⟩

/-- Something was marked that is no call of `pack`. -/
theorem Silent.of_marks {ms : List Mark} (hms : ∀ m ∈ ms, m.Timely v.id ∧ m.isPackOf v.id = false) :
    Silent v r { r with log := r.log ++ ms } := by
  have hzero : ms.countP (·.isPackOf v.id) = 0 := List.countP_eq_zero.mpr fun m hm => by
    simp [(hms m hm).2]
  exact ⟨[], ms, ⟨by simp, rfl, rfl, fun m hm => (hms m hm).1, by simp [hzero], id⟩, rfl⟩

/-- The transaction waits for a task. -/
theorem Silent.waits (h : Silent v r r') (hr : r'.released = false)
    (hst : r'.txn.state ≠ .packed ∧ r'.txn.state ≠ .destroyed)
    (hm : r'.txn.moduleComplete = false) (hcur : r'.txn.current ≠ none) : Outcome v r r' := by
  obtain ⟨es, ms, hmoved, hes⟩ := h
  refine ⟨⟨es, ms, hmoved, ?_⟩, hst.1, fun hd => absurd hd hst.2, fun hrel => ?_,
    fun hnone => absurd hnone hcur⟩
  · simp [hes, hr, Txn.due, hst.2, hm]
  · exact absurd (hr.symm.trans hrel) (by simp)

/-- Nothing is packed yet. -/
theorem packsDone_zero {t : Txn} (h : t.state ≠ .packed ∧ t.state ≠ .destroyed) :
    t.packsDone = 0 := by
  simp [Txn.packsDone, h.1, h.2]

/-- Going from one state to another that `pack` was called as often for. -/
theorem Silent.of_setstate {st : TxnState} (h : r.setstate v st = .ok r')
    (hpacks : r.txn.packsDone = r'.txn.packsDone) : Silent v r r' := by
  obtain ⟨rfl, -⟩ := setstate_ok h
  exact ⟨[], [.state v.id st], ⟨by simp, rfl, rfl, by simp [Mark.Timely],
    by simpa [Mark.isPackOf] using hpacks, id⟩, rfl⟩

/-- Going from one state to another before the transaction is packed. -/
theorem setstate_silent {st : TxnState} (h : r.setstate v st = .ok r')
    (hst : r.txn.state ≠ .packed ∧ r.txn.state ≠ .destroyed)
    (hst' : st ≠ .packed ∧ st ≠ .destroyed) : Silent v r r' := by
  refine .of_setstate h ?_
  obtain ⟨rfl, -⟩ := setstate_ok h
  rw [packsDone_zero hst]
  exact (packsDone_zero hst').symm

/-- What the states of a transaction have in common. -/
theorem setstate_keeps {st : TxnState} (h : r.setstate v st = .ok r') :
    r'.txn.state = st ∧ (r.txn.Counts → r'.txn.Counts) ∧
      r'.txn.moduleComplete = r.txn.moduleComplete ∧ r'.released = r.released := by
  obtain ⟨rfl, -⟩ := setstate_ok h
  exact ⟨rfl, fun hc => hc.congr rfl rfl rfl rfl, rfl, rfl⟩

/-- And the current module. -/
theorem setstate_current {st : TxnState} (h : r.setstate v st = .ok r') :
    r'.txn.current = r.txn.current := by
  obtain ⟨rfl, -⟩ := setstate_ok h
  rfl

/-- A change of state sends nothing, and is marked. -/
theorem setstate_frame {st : TxnState} (h : r.setstate v st = .ok r') :
    r'.sent = r.sent ∧ r'.log = r.log ++ [.state v.id st] ∧
      r'.txn.workflow = r.txn.workflow := by
  obtain ⟨rfl, -⟩ := setstate_ok h
  exact ⟨rfl, rfl, rfl⟩

/-! ### The parts of a run -/

/-- What the nested call of `_run` leaves. -/
def Nested (v : TxnEnv) (again : TxnRun → Except TxnFault TxnRun) : Prop :=
  ∀ r r', r.txn.Counts → r.txn.moduleComplete = true → r.released = false → again r = .ok r' →
    Outcome v r r'

/-- **`_module_run`** enters a module, which goes on, waits for its tasks or goes to `pack`. -/
theorem moduleRun_outcome {code : ModuleCode} {again : TxnRun → Except TxnFault TxnRun}
    (hagain : Nested v again) (hc : r.txn.Counts) (hm : r.txn.moduleComplete = true)
    (hr : r.released = false) (hst : r.txn.state ≠ .packed ∧ r.txn.state ≠ .destroyed)
    (h : r.moduleRun v code again = .ok r') : Outcome v r r' := by
  unfold moduleRun at h
  have hframe := nextModule_frame r.txn
  have hcounts := nextModule_counts hc
  set txn := r.txn.nextModule.2 with htxn
  have hst₀ : txn.state ≠ .packed ∧ txn.state ≠ .destroyed := by rw [hframe]; exact hst
  have hm₀ : txn.moduleComplete = true := by rw [hframe]; exact hm
  have hsilent₀ : Silent v r { r with txn } :=
    .of_txn (by rw [hframe]) (by rw [hframe]) (by rw [packsDone_zero hst, packsDone_zero hst₀])
  by_cases hnone : r.txn.nextModule.1.isNone = true
  · -- no module is left
    simp only [hnone, if_true] at h
    obtain ⟨r₁, h1, h2⟩ := except_bind_ok.mp h
    obtain ⟨-, hc₁, hm₁, hr₁⟩ := setstate_keeps h1
    have hsilent₁ : Silent v { r with txn } r₁ := setstate_silent h1 hst₀ (by simp)
    exact (hsilent₀.trans hsilent₁).outcome
      (hagain _ _ (hc₁ hcounts) (hm₁.trans hm₀) (hr₁.trans hr) h2)
  · simp only [hnone, if_false, Bool.false_eq_true] at h
    obtain ⟨r₁, h1, h⟩ := except_bind_ok.mp h
    obtain ⟨r₂, h2, h⟩ := except_bind_ok.mp h
    -- the module is entered and makes its service calls
    have hcur : txn.current ≠ none := by
      rw [htxn, nextModule_current]
      simpa using hnone
    have hwait : txn.waiting = 0 := hcounts.moduleComplete_iff.mp hm₀
    have henter : Silent v { r with txn }
        { r with txn, log := r.log ++ [Mark.entered v.id txn.waiting] } :=
      .of_marks (by simp [Mark.Timely, Mark.isPackOf, hwait])
    obtain ⟨es, hes⟩ := iocalls_spec h1
    obtain ⟨hstate, hworkflow, -⟩ := hes.keeps
    have hst₁ : r₁.txn.state ≠ .packed ∧ r₁.txn.state ≠ .destroyed := by
      rw [hstate]
      exact hst₀
    have hcalls : Silent v { r with txn, log := r.log ++ [Mark.entered v.id txn.waiting] } r₁ := by
      refine ⟨es, [], ⟨hes.sent, by rw [hes.log, List.append_nil], hworkflow, by simp, ?_,
        fun hn k hk => ?_⟩, ?_⟩
      · rw [packsDone_zero hst₁]
        simpa using packsDone_zero hst₀
      · rcases hes.callers k hk with hk | hk
        · exact hn k hk
        · rw [hk]
          exact Option.isSome_iff_ne_none.mpr hcur
      · exact List.countP_eq_zero.mpr fun e he => by simp [hes.quiet e he]
    have hc₁ : r₁.txn.Counts := hes.grows.counts hcounts
    have hr₁ : r₁.released = false := hes.released.trans hr
    have hcur₁ : r₁.txn.current ≠ none := hes.current ▸ hcur
    obtain ⟨hsilent, hc₂, hst₂, hr₂, hcur₂⟩ : Silent v r r₂ ∧ r₂.txn.Counts ∧
        (r₂.txn.state ≠ .packed ∧ r₂.txn.state ≠ .destroyed) ∧ r₂.released = false ∧
        r₂.txn.current ≠ none := by
      have h01 := (hsilent₀.trans henter).trans hcalls
      split at h2
      · obtain ⟨hst₂, hc₂, -, hr₂⟩ := setstate_keeps h2
        exact ⟨h01.trans (setstate_silent h2 hst₁ (by simp)), hc₂ hc₁, by simp [hst₂],
          hr₂.trans hr₁, setstate_current h2 ▸ hcur₁⟩
      · exact Except.ok.inj h2 ▸ ⟨h01, hc₁, hst₁, hr₁, hcur₁⟩
    by_cases hm₂ : r₂.txn.moduleComplete = true
    · simp only [hm₂, not_true_eq_false, if_false] at h
      split at h
      · exact hsilent.outcome (hagain _ _ hc₂ hm₂ hr₂ h)
      · split at h
        · -- the next module is due
          rw [← Except.ok.inj h]
          obtain ⟨es', ms', hmoved, hes'⟩ := hsilent
          refine ⟨⟨es' ++ [⟨v.sched, v.sched, .inl v.id, .workflowRun⟩], ms',
            ⟨by simp [hmoved.sent], hmoved.log, hmoved.workflow, hmoved.marks, hmoved.packs,
              hmoved.callers⟩, ?_⟩,
            hst₂.1, fun hd => absurd hd hst₂.2, fun hrel => ?_, fun _ => hm₂⟩
          · rw [List.countP_append, hes']
            simp [hr₂, Txn.due, hst₂.2, hm₂, Event.isResume]
          · exact absurd (hr₂.symm.trans hrel) (by simp)
        · obtain ⟨r₃, h3, h4⟩ := except_bind_ok.mp h
          obtain ⟨-, hc₃, hm₃, hr₃⟩ := setstate_keeps h3
          exact (hsilent.trans (setstate_silent h3 hst₂ (by simp))).outcome
            (hagain _ _ (hc₃ hc₂) (hm₃.trans hm₂) (hr₃.trans hr₂) h4)
    · have hm₂' : r₂.txn.moduleComplete = false := by simpa using hm₂
      simp only [hm₂', Bool.false_eq_true, not_false_eq_true, if_true] at h
      split at h
      · obtain ⟨hst₃, -, hm₃, hr₃⟩ := setstate_keeps h
        exact (hsilent.trans (setstate_silent h hst₂ (by simp))).waits (hr₃.trans hr₂)
          (by simp [hst₃]) (hm₃.trans hm₂') (setstate_current h ▸ hcur₂)
      · exact Except.ok.inj h ▸ hsilent.waits hr₂ hst₂ hm₂' hcur₂

/-- **`_module_pack`** packs the transaction once, whether a module has a `pack` or not. -/
theorem modulePack_outcome {pack : ModuleCode} (hpack : pack.iocalls = [])
    {again : TxnRun → Except TxnFault TxnRun} (hagain : Nested v again) (hc : r.txn.Counts)
    (hm : r.txn.moduleComplete = true) (hr : r.released = false) (hst : r.txn.state ≠ .packed ∧ r.txn.state ≠ .destroyed)
    (h : r.modulePack v pack again = .ok r') : Outcome v r r' := by
  unfold modulePack at h
  split at h
  · exact absurd h (by simp)
  · by_cases hp : r.txn.workflow.hasPack = true
    · simp only [hp, not_true_eq_false, if_false] at h
      obtain ⟨r₁, h1, h⟩ := except_bind_ok.mp h
      obtain ⟨r₂, h2, h3⟩ := except_bind_ok.mp h
      -- `pack` makes no calls, and is marked once
      rw [hpack] at h1
      rw [← Except.ok.inj h1] at h2
      obtain ⟨hst₂, hc₂, hm₂, hr₂⟩ := setstate_keeps h2
      obtain ⟨hsent, hlog, hworkflow⟩ := setstate_frame h2
      have hsilent : Silent v r r₂ := by
        refine ⟨[], Mark.packed v.id r.txn.waiting r.txn.state ::
          ((if pack.failed then [.inactive v.id] else []) ++ [.state v.id .packed]),
          ⟨by simp [hsent], by simp [hlog], hworkflow, ?_, ?_, ?_⟩, rfl⟩
        · have hwait := hc.moduleComplete_iff.mp hm
          cases pack.failed <;> simp [Mark.Timely, hwait]
        · rw [packsDone_zero hst]
          cases pack.failed <;> simp [Mark.isPackOf, Txn.packsDone, hst₂, hworkflow, hp]
        · obtain ⟨rfl, -⟩ := setstate_ok h2
          exact id
      exact hsilent.outcome (hagain _ _ (hc₂ hc) (hm₂.trans hm) (hr₂.trans hr) h3)
    · -- no module has a `pack`, so nothing is marked but the state
      have hp' : r.txn.workflow.hasPack = false := by simpa using hp
      simp only [hp', Bool.false_eq_true, not_false_eq_true, if_true] at h
      obtain ⟨r₁, h1, h2⟩ := except_bind_ok.mp h
      obtain ⟨hst₁, hc₁, hm₁, hr₁⟩ := setstate_keeps h1
      obtain ⟨hsent, hlog, hworkflow⟩ := setstate_frame h1
      have hsilent : Silent v r r₁ := by
        refine .of_setstate h1 ?_
        rw [packsDone_zero hst]
        simp [Txn.packsDone, hst₁, hworkflow, hp']
      exact hsilent.outcome (hagain _ _ (hc₁ hc) (hm₁.trans hm) (hr₁.trans hr) h2)

/-- A destroyed transaction is released when its last task is complete. -/
theorem txnLogAndDestroy_outcome (hm : r.txn.moduleComplete = true)
    (hr : r.released = false) (hst : r.txn.state = .destroyed) :
    Outcome v r r.txnLogAndDestroy := by
  obtain ⟨htxn, hsent, hlog⟩ := r.txnLogAndDestroy_txn
  refine ⟨⟨[], [], ⟨by simp [hsent], by simp [hlog], by rw [htxn], by simp, by simp [htxn],
    fun hn => htxn ▸ hn⟩, ?_⟩, by simp [htxn, hst], fun _ => htxn ▸ hm, fun _ => htxn ▸ hst,
    fun _ => htxn ▸ hm⟩
  rw [List.countP_nil, htxn]
  unfold txnLogAndDestroy
  split
  · -- tasks without a callback are incomplete
    have hne : r.txn.completeTasks ≠ r.txn.totalTasks := by omega
    simp [hr, Txn.due, hst, Txn.alltaskComplete, hne]
  · simp

/-- **A run that finds no callback task incomplete** leaves what is due. -/
theorem run_outcome {code : UserCode} (hpack : code.pack.iocalls = []) (depth : Nat) :
    Nested v fun r => r.run v code depth := by
  induction depth with
  | zero => intro r r' _ _ _ h; exact absurd h (by simp [run])
  | succ depth ih =>
    intro r r' hc hm hr h
    simp only [run] at h
    obtain ⟨r₁, h1, h⟩ := except_bind_ok.mp h
    by_cases hdes : r.txn.state = .destroyed
    · -- a destroyed transaction cannot time out
      have hr₁ : r₁ = r := by
        split at h1
        · have hbad := (setstate_ok h1).2 hdes
          exact absurd hbad (by simp)
        · exact (Except.ok.inj h1).symm
      subst hr₁
      simp only [hdes] at h
      exact Except.ok.inj h ▸ txnLogAndDestroy_outcome hm hr hdes
    · have hkeep : (r₁.txn.Counts ∧ r₁.txn.moduleComplete = true ∧ r₁.released = false) ∧
          (r₁ = r ∨ r.setstate v .timeout = .ok r₁) := by
        split at h1
        · obtain ⟨-, hc₁, hm₁, hr₁⟩ := setstate_keeps h1
          exact ⟨⟨hc₁ hc, hm₁.trans hm, hr₁.trans hr⟩, .inr h1⟩
        · exact Except.ok.inj h1 ▸ ⟨⟨hc, hm, hr⟩, .inl rfl⟩
      obtain ⟨⟨hc₁, hm₁, hr₁⟩, hor⟩ := hkeep
      by_cases hpk : r.txn.state = .packed
      · simp only [hpk] at h
        -- a packed transaction is destroyed, whether it timed out before or not
        obtain ⟨r₂, h2, h3⟩ := except_bind_ok.mp h
        obtain ⟨hst₂, -, hm₂, hr₂⟩ := setstate_keeps h2
        have hsilent : Silent v r r₂ := by
          rcases hor with rfl | hto
          · refine .of_setstate h2 ?_
            obtain ⟨rfl, -⟩ := setstate_ok h2
            simp [Txn.packsDone, hpk]
          · obtain ⟨rfl, -⟩ := setstate_ok h2
            obtain ⟨rfl, -⟩ := setstate_ok hto
            exact ⟨[], [.state v.id .timeout, .state v.id .destroyed], ⟨by simp, by simp, rfl,
              by simp [Mark.Timely], by simp [Txn.packsDone, hpk, Mark.isPackOf], id⟩, rfl⟩
        exact hsilent.outcome (Except.ok.inj h3 ▸
          txnLogAndDestroy_outcome (hm₂.trans hm₁) (hr₂.trans hr₁) hst₂)
      · -- the transaction is not packed yet
        have hsilent : Silent v r r₁ := by
          rcases hor with rfl | hto
          · exact .of_txn rfl rfl rfl
          · exact setstate_silent hto ⟨hpk, hdes⟩ (by simp)
        have hst₁ : r₁.txn.state ≠ .packed ∧ r₁.txn.state ≠ .destroyed := by
          rcases hor with rfl | hto
          · exact ⟨hpk, hdes⟩
          · simp [(setstate_keeps hto).1]
        refine hsilent.outcome ?_
        -- what `_run` does next depends on the state it found
        cases hst : r.txn.state <;> simp only [hst] at h
        case init | unpacked | pending =>
          obtain ⟨r₂, h2, h3⟩ := except_bind_ok.mp h
          obtain ⟨-, hc₂, hm₂, hr₂⟩ := setstate_keeps h2
          exact (setstate_silent h2 hst₁ (by simp)).outcome
            (ih _ _ (hc₂ hc₁) (hm₂.trans hm₁) (hr₂.trans hr₁) h3)
        case running => exact moduleRun_outcome ih hc₁ hm₁ hr₁ hst₁ h
        case completed | error | timeout =>
          exact modulePack_outcome hpack ih hc₁ hm₁ hr₁ hst₁ h
        case packed => exact absurd hst hpk
        case destroyed => exact absurd hst hdes

end TxnRun

end Skull
