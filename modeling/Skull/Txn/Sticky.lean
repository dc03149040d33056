import Skull.Txn.Timeout

namespace Skull

open Machines

/-!
# A transaction that failed

When a module or a callback returns non-zero, its transaction goes into the state
`SK_TXN_ERROR`, and that state is all that remembers the error.  It stays there until it is
packed, and then `_run` is called once more:

* `TxnRun.Fate` — what a `SK_PTO_WORKFLOW_RUN` does to a transaction, as far as errors go;
* `TxnSystem.ErrorSticks` — nothing but `pack` and the end follows an error;
* `TxnSystem.error_sticks` — a run has this in all its states exactly when no transaction that
  failed is late at its end, or packed before its callback tasks are complete.
-/

/-- What may still happen to the transaction `x` after an error. -/
def Mark.AfterError (x : TxnId) : Mark → Prop
  | .entered y _ => y ≠ x
  | .packed y w st => y = x → w = 0 ∧ st = .error
  | .state y st => y = x → st = .error ∨ st = .packed ∨ st = .destroyed
  | _ => True

instance (x : TxnId) (m : Mark) : Decidable (m.AfterError x) :=
  match m with
  | .entered .. => inferInstanceAs (Decidable (_ ≠ _))
  | .packed .. => inferInstanceAs (Decidable (_ = _ → _ ∧ _))
  | .state .. => inferInstanceAs (Decidable (_ = _ → _ ∨ _ ∨ _))
  | .inactive _ | .terminal _ | .setcomplete _ | .scheduled _ | .taskDone _ =>
    inferInstanceAs (Decidable True)

/-- Nothing else happened to the transaction `x` after an error. -/
def Sticks (x : TxnId) (log : List Mark) : Prop :=
  log.Pairwise fun a b => a = .state x .error → b.AfterError x

instance (x : TxnId) (log : List Mark) : Decidable (Sticks x log) :=
  inferInstanceAs (Decidable (List.Pairwise _ _))

/-- Marks of other transactions may happen. -/
theorem Mark.afterError_of_txn {m : Mark} {x : TxnId} (h : m.txn ≠ some x) : m.AfterError x := by
  cases m <;> simp_all [Mark.AfterError, Mark.txn]

/-- Marks of other transactions. -/
theorem Sticks.other {x : TxnId} {l ms : List Mark} (h : Sticks x l)
    (hms : ∀ m ∈ ms, m.txn ≠ some x) : Sticks x (l ++ ms) := by
  have hcalm : ∀ m ∈ ms, m.AfterError x := fun m hm => Mark.afterError_of_txn (hms m hm)
  refine List.pairwise_append.mpr ⟨h, ?_, fun a _ b hb _ => hcalm b hb⟩
  exact List.Pairwise.imp_of_mem (fun _ hb _ _ => hcalm _ hb)
    (List.pairwise_of_forall (R := fun _ _ => True) fun _ _ => trivial)

/-- Marks without an error, after those of `l`. -/
theorem sticks_append {x : TxnId} {l ms : List Mark} (hms : .state x .error ∉ ms) :
    Sticks x (l ++ ms) ↔ Sticks x l ∧ (.state x .error ∈ l → ∀ m ∈ ms, m.AfterError x) := by
  rw [Sticks, List.pairwise_append]
  constructor
  · rintro ⟨hl, -, hcross⟩
    exact ⟨hl, fun herr m hm => hcross _ herr m hm rfl⟩
  · rintro ⟨hl, hafter⟩
    refine ⟨hl, ?_, fun a ha b hb hab => hafter (hab ▸ ha) b hb⟩
    exact List.Pairwise.imp_of_mem (fun ha _ _ hab => absurd (hab ▸ ha) hms)
      (List.pairwise_of_forall (R := fun _ _ => True) fun _ _ => trivial)

/-- One more error. -/
theorem Sticks.error {x : TxnId} {l : List Mark} (h : Sticks x l) :
    Sticks x (l ++ [.state x .error]) := by
  refine List.pairwise_append.mpr ⟨h, List.pairwise_singleton _ _, fun a _ b hb _ => ?_⟩
  rw [List.mem_singleton.mp hb]
  exact fun _ => .inl rfl

namespace TxnRun

variable {v : TxnEnv} {code : UserCode} {r r' : TxnRun}

/-! ### What a run does to a transaction that failed -/

/-- An error is not marked while a transaction is packed. -/
theorem finishMarks_calm (depth : Nat) : .state v.id .error ∉ r.finishMarks code depth v := by
  simp [mem_finishMarks]

/-- **The end of a transaction that failed** is as it should be when its callback tasks are complete
    before `pack` is called and the transaction is in time at the last call of `_run`. -/
theorem finishMarks_after (hst : r.txn.state = .error) (depth : Nat) :
    (∀ m ∈ r.finishMarks code depth v, m.AfterError v.id) ↔
      (r.txn.workflow.hasPack = true → r.txn.waiting = 0) ∧
        r.txn.late (code.clock depth) = false := by
  constructor
  · refine fun h => ⟨fun hp => ?_, ?_⟩
    · have hmem : Mark.packed v.id r.txn.waiting
          (r.checked v (code.clock (depth + 1))).txn.state ∈ r.finishMarks code depth v := by
        rw [mem_finishMarks]
        exact .inr (.inl ⟨hp, .inl rfl⟩)
      exact (h _ hmem rfl).1
    · by_contra hlate
      have hmem : Mark.state v.id .timeout ∈ r.finishMarks code depth v := by
        rw [mem_finishMarks]
        exact .inl ⟨.inr (by simpa using hlate), rfl⟩
      exact absurd (h _ hmem rfl) (by simp)
  · rintro ⟨hw, hlate⟩ m hm
    rw [mem_finishMarks] at hm
    have htime : r.txn.timeout (code.clock (depth + 1)) = false := by simp [Txn.timeout_eq, hst]
    rcases hm with ⟨hbad, -⟩ | ⟨hp, rfl | ⟨-, rfl⟩⟩ | rfl | rfl
    · simp [hlate, htime] at hbad
    · rw [checked_error hst, hw hp]
      exact fun _ => ⟨rfl, hst⟩
    · trivial
    · exact fun _ => .inr (.inl rfl)
    · exact fun _ => .inr (.inr rfl)

/-- The transaction had failed and is packed before its callback tasks are complete, or it fails or
    has failed and is late at its end. -/
def Unsticks (v : TxnEnv) (code : UserCode) (t : Txn) : Prop :=
  t.state = .error ∧
      (t.workflow.hasPack = true ∧ t.waiting ≠ 0 ∨ t.late (code.clock 2) = true) ∨
    Running t.state ∧ code.run.failed = true ∧ t.workflowIdx < t.workflow.modules ∧
      t.waiting = 0 ∧ v.awaited code.run.iocalls = 0 ∧
        t.late (code.clock (lastReading t.state - 1)) = true

instance (st : TxnState) : Decidable (Running st) := inferInstanceAs (Decidable (_ ∨ _))

instance (t : Txn) : Decidable (Unsticks v code t) := inferInstanceAs (Decidable (_ ∨ _))

/-- From `r` to `r'` the transaction was packed in the error state. -/
structure Buries (v : TxnEnv) (code : UserCode) (depth : Nat) (r r' : TxnRun) : Prop where
  error : r.txn.state = .error
  destroyed : r'.txn.state = .destroyed
  workflow : r'.txn.workflow = r.txn.workflow
  log : r'.log = r.log ++ r.finishMarks code depth v

/-- What is marked then is as it should be when its tasks are complete and the transaction is in
    time. -/
theorem Buries.sticks {depth : Nat} (h : Buries v code depth r r') {l : List Mark}
    (hl : .state v.id .error ∈ l) : Sticks v.id (l ++ r.finishMarks code depth v) ↔
      Sticks v.id l ∧ (r.txn.workflow.hasPack = true → r.txn.waiting = 0) ∧
        r.txn.late (code.clock depth) = false := by
  rw [sticks_append (finishMarks_calm depth), finishMarks_after h.error]
  exact and_congr_right fun _ => ⟨fun hs => hs hl, fun hs _ => hs⟩

/-- And `pack` finds the error. -/
theorem Buries.packed {depth : Nat} (h : Buries v code depth r r') (hw : r.txn.waiting = 0)
    (hp : r'.txn.workflow.hasPack = true) :
    .packed v.id 0 .error ∈ r.finishMarks code depth v := by
  rw [mem_finishMarks, checked_error h.error, hw, h.error]
  exact .inr (.inl ⟨h.workflow ▸ hp, .inl rfl⟩)

/-- What a `SK_PTO_WORKFLOW_RUN` does to a transaction, as far as errors go. -/
inductive Fate (v : TxnEnv) (code : UserCode) (r r' : TxnRun) : Prop
  /-- It had failed, and is packed. -/
  | buried (h : Buries v code 2 r r')
  /-- It is destroyed. -/
  | gone (hst : r.txn.state = .destroyed) (htxn : r'.txn = r.txn) (hlog : r'.log = r.log)
  /-- Its module fails, with tasks to wait for. -/
  | failed (hst : Running r.txn.state) (hst' : r'.txn.state = .error)
      (hwait : r.txn.waiting ≠ 0 ∨ v.awaited code.run.iocalls ≠ 0) {ms : List Mark}
      (hms : .state v.id .error ∉ ms) (hlog : r'.log = r.log ++ ms ++ [.state v.id .error])
  /-- Its module fails, and it is packed. -/
  | failedBuried (hst : Running r.txn.state) {r₁ : TxnRun}
      (h : Buries v code (lastReading r.txn.state - 1) r₁ r') (hfail : code.run.failed = true)
      (hidx : r.txn.workflowIdx < r.txn.workflow.modules) (hwait : r.txn.waiting = 0)
      (hwait' : v.awaited code.run.iocalls = 0) (hwait₁ : r₁.txn.waiting = 0)
      (hlate : ∀ now, r₁.txn.late now = r.txn.late now) {ms : List Mark}
      (hms : .state v.id .error ∉ ms) (hlog : r₁.log = r.log ++ ms ++ [.state v.id .error])
  /-- No error is marked. -/
  | well (hst : r.txn.state ≠ .error ∧ r.txn.state ≠ .destroyed) (hst' : r'.txn.state ≠ .error)
      (hkeep : ¬ Unsticks v code r.txn) {ms : List Mark} (hms : .state v.id .error ∉ ms)
      (hlog : r'.log = r.log ++ ms)

/-- A transaction in the error state is packed. -/
theorem run_buries (hst : r.txn.state = .error) (hc : r.txn.Counts) {depth : Nat}
    (hr : r.run v code (depth + 2) = .ok r') : Buries v code depth r r' := by
  have hfin := run_finishes (v := v) (r := r) code depth (.inr (.inl hst)) hc
  split at hfin
  · rw [hfin] at hr
    exact absurd hr (by simp)
  · obtain ⟨r₁, hr₁, hleaves⟩ := hfin
    obtain rfl : r₁ = r' := Except.ok.inj (hr₁.symm.trans hr)
    exact ⟨hst, hleaves.state, hleaves.workflow, hleaves.log⟩

/-- A transaction that goes on has not failed and is not destroyed. -/
theorem Running.alive {st : TxnState} (h : Running st) : st ≠ .error ∧ st ≠ .destroyed := by
  rcases h with rfl | rfl | rfl | rfl <;> simp

/-- A transaction that goes on and is packed in the end. -/
theorem run_well (hst : r.txn.state = .completed ∨ r.txn.state = .timeout) (hc : r.txn.Counts)
    {depth : Nat} (hr : r.run v code (depth + 2) = .ok r') :
    r'.txn.state = .destroyed ∧ r'.log = r.log ++ r.finishMarks code depth v := by
  have hfin := run_finishes (v := v) (r := r) code depth
    (hst.elim .inl fun h => .inr (.inr h)) hc
  split at hfin
  · rw [hfin] at hr
    exact absurd hr (by simp)
  · obtain ⟨r₁, hr₁, hleaves⟩ := hfin
    obtain rfl : r₁ = r' := Except.ok.inj (hr₁.symm.trans hr)
    exact ⟨hleaves.state, hleaves.log⟩

/-- A transaction that goes on with the next module. -/
theorem running_fate (h : Running r.txn.state) (hc : r.txn.Counts)
    (hr : r.workflowRun v code = .ok r') : Fate v code r r' := by
  have hnext : r.txn.nextModule.1.isNone = true ↔
      ¬ r.txn.workflowIdx < r.txn.workflow.modules := by
    unfold Txn.nextModule
    split <;> simp [*]
  obtain ⟨depth, hdepth⟩ : ∃ depth, lastReading r.txn.state = depth + 1 := by
    unfold lastReading
    split
    · exact ⟨1, rfl⟩
    · exact ⟨0, rfl⟩
  -- a module that does not fail keeps what was
  have hfine : ¬ code.run.failed = true → ¬ Unsticks v code r.txn := by
    rintro hf (hbad | hbad)
    · exact h.alive.1 hbad.1
    · exact hf hbad.2.1
  by_cases hnone : r.txn.nextModule.1.isNone = true
  · -- no module is left
    have hex := workflowRun_exhausted (v := v) h hc hnone code
    split at hex
    · rw [hex] at hr
      exact absurd hr (by simp)
    · obtain ⟨r₁, ms, hr₁, hdes, hlog, -, hcalm, -⟩ := hex
      obtain rfl : r₁ = r' := Except.ok.inj (hr₁.symm.trans hr)
      refine .well h.alive (by simp [hdes]) ?_ hcalm hlog
      rintro (hbad | hbad)
      · exact h.alive.1 hbad.1
      · exact hnext.mp hnone hbad.2.2.1
  · -- the next module runs; what follows depends on whether it has to wait
    have hidx : r.txn.workflowIdx < r.txn.workflow.modules := by
      by_contra hno
      exact hnone (hnext.mpr hno)
    obtain ⟨r₁, r₂, es, hb, henter, heq⟩ := workflowRun_module (v := v) h hc
      (by simpa only [Bool.not_eq_true] using hnone) code
    obtain ⟨bms, hblog, hbms⟩ := hb.marks
    set ms := bms ++ [.entered v.id r₁.txn.waiting] with hms
    have hlog₂ : r₂.log = r.log ++ ms := by rw [henter.log, hblog, hms, List.append_assoc]
    have hcalm : Mark.state v.id .error ∉ ms := by
      rw [hms, List.mem_append, List.mem_singleton]
      rintro (hmem | hmem)
      · rcases hbms _ hmem with hbad | hbad <;> simp at hbad
      · simp at hmem
    have hmod : r₂.txn.moduleComplete =
        (r.txn.moduleComplete && decide (v.awaited code.run.iocalls = 0)) := by
      rw [henter.moduleComplete (hb.counts hc), hb.moduleComplete]
    have hst₂ : r₂.txn.state ≠ .error := by
      rw [henter.state]
      rcases hb.state with hst | hst <;> simp [hst]
    have hc₂ : r₂.txn.Counts := henter.counts (hb.counts hc)
    rw [heq, hdepth] at hr
    split at hr
    · rename_i hwait
      -- it waits for a task, and `_run` returns
      have hawait : r.txn.waiting ≠ 0 ∨ v.awaited code.run.iocalls ≠ 0 := by
        by_contra hno
        obtain ⟨hzero, hnone⟩ := not_or.mp hno
        rw [hmod, hc.moduleComplete_iff.mpr (not_not.mp hzero)] at hwait
        exact hwait (by simpa using hnone)
      by_cases hf : code.run.failed = true
      · rw [if_pos hf] at hr
        rw [← Except.ok.inj hr]
        exact .failed h rfl hawait hcalm (by rw [goto_log, hlog₂])
      · rw [if_neg hf] at hr
        rw [← Except.ok.inj hr]
        have hmarks : (r₂.goto v .pending).log = r.log ++ (ms ++ [.state v.id .pending]) := by
          rw [goto_log, hlog₂, List.append_assoc]
        exact .well h.alive (by simp) (hfine hf) (by simp [hcalm]) hmarks
    · rename_i hdone
      -- it waits for nothing, so `_run` calls itself
      have hm₂ : r₂.txn.moduleComplete = true := by simpa using hdone
      obtain ⟨hm, hawait⟩ : r.txn.moduleComplete = true ∧ v.awaited code.run.iocalls = 0 := by
        simpa [hmod] using hm₂
      split at hr
      · rename_i hf
        have hbury := run_buries (r := r₂.goto v .error) rfl (goto_counts hc₂) hr
        have hdepth' : lastReading r.txn.state - 1 = depth := by omega
        refine .failedBuried h (hdepth' ▸ hbury) hf hidx (hc.moduleComplete_iff.mp hm) hawait
          ?_ (fun now => ?_) hcalm ?_
        · rw [goto_waiting]
          exact hc₂.moduleComplete_iff.mp hm₂
        · rw [goto_late, henter.late, hb.late]
        · rw [goto_log, hlog₂]
      · rename_i hf
        split at hr
        · rw [← Except.ok.inj hr]
          exact .well h.alive hst₂ (hfine hf) hcalm hlog₂
        · obtain ⟨hdes, hlog⟩ := run_well (r := r₂.goto v .completed) (.inl rfl)
            (goto_counts hc₂) hr
          have hmarks : r'.log = r.log ++ (ms ++ .state v.id .completed ::
              (r₂.goto v .completed).finishMarks code depth v) := by
            rw [hlog, goto_log, hlog₂]
            simp
          refine .well h.alive (by simp [hdes]) (hfine hf) ?_ hmarks
          simp [hcalm, finishMarks_calm]

/-- **A `SK_PTO_WORKFLOW_RUN`** does one of these. -/
theorem workflowRun_fate (hc : r.txn.Counts) (hr : r.workflowRun v code = .ok r') :
    Fate v code r r' := by
  -- nothing comes unstuck but in the state error or on the way to it
  have hkeep : ∀ {t : Txn}, t.state ≠ .error → ¬ Running t.state → ¬ Unsticks v code t := by
    rintro t h₁ h₂ (hbad | hbad)
    · exact h₁ hbad.1
    · exact h₂ hbad.1
  cases hst : r.txn.state with
  | init => exact running_fate (.inl hst) hc hr
  | unpacked => exact running_fate (.inr (.inl hst)) hc hr
  | running => exact running_fate (.inr (.inr (.inl hst))) hc hr
  | pending => exact running_fate (.inr (.inr (.inr hst))) hc hr
  | error => exact .buried (run_buries hst hc hr)
  -- it is packed without an error
  | completed =>
    obtain ⟨hdes, hlog⟩ := run_well (.inl hst) hc hr
    exact .well (by simp [hst]) (by simp [hdes]) (hkeep (by simp [hst]) (by simp [hst, Running]))
      (finishMarks_calm _) hlog
  | timeout =>
    obtain ⟨hdes, hlog⟩ := run_well (.inr hst) hc hr
    exact .well (by simp [hst]) (by simp [hdes]) (hkeep (by simp [hst]) (by simp [hst, Running]))
      (finishMarks_calm _) hlog
  -- it was packed before, and leaves
  | packed =>
    obtain ⟨r₁, hr₁, hleaves⟩ := run_leaves (v := v) code 3 hst
    obtain rfl : r₁ = r' := Except.ok.inj (hr₁.symm.trans hr)
    refine .well (by simp [hst]) (by simp [hleaves.state])
      (hkeep (by simp [hst]) (by simp [hst, Running])) ?_ hleaves.log
    unfold leaveMarks
    split <;> simp
  | destroyed =>
    rw [workflowRun, run_destroyed hst] at hr
    split at hr
    · exact absurd hr (by simp)
    · obtain rfl := Except.ok.inj hr
      obtain ⟨htxn, -, hlog⟩ := r.txnLogAndDestroy_txn
      exact .gone hst htxn hlog

/-- The calls of `_run` do not nest without end. -/
theorem workflowRun_depth (hc : r.txn.Counts) : r.workflowRun v code ≠ .error .depth := by
  by_cases hst : r.txn.state = .destroyed
  · rw [workflowRun, run_destroyed hst]
    split <;> simp
  · have hle : r.txn.state.calls ≤ 4 := by cases r.txn.state <;> simp [TxnState.calls]
    have hends : (∃ r', r.run v code 4 = .ok r') ∨ r.run v code 4 = .error .noModule :=
      run_ends 4 hc hst hle
    rcases hends with ⟨r', hr'⟩ | hr'
    · simp [workflowRun, hr']
    · simp [workflowRun, hr']

end TxnRun

namespace TxnSystem

variable {s s' : TxnSystem} {bioCnt : Nat}

/-- **Errors stick.** After an error no module of the transaction is entered, all its callback
    tasks are complete when `pack` is called, `pack` finds the error, and the state becomes nothing
    but packed and destroyed; and `pack` is called before it is destroyed. -/
structure ErrorSticks (s : TxnSystem) : Prop where
  log : ∀ x, Sticks x s.log
  ends : ∀ (x : TxnId) (slot : TxnSlot), s.txns[x]? = some slot → .state x .error ∈ s.log →
    slot.txn.state = .error ∨ slot.txn.state = .destroyed ∧
      (slot.txn.workflow.hasPack = true → .packed x 0 .error ∈ s.log)

/-- The message makes an error of its transaction come unstuck. -/
def Unsticks (bioCnt : Nat) (s : TxnSystem) (e : Event) (code : UserCode) : Prop :=
  match e.owner with
  | .inr _ => False
  | .inl x => e.pto = .workflowRun ∧ ∃ slot ∈ s.txns[x]?, slot.released = false ∧
      TxnRun.Unsticks ⟨bioCnt, s.services, e.dst, slot.home, x⟩ code slot.txn

/-- The step does not handle such a message. -/
def Sticky (bioCnt : Nat) (s : TxnSystem) : TxnAction → Prop
  | .handle i code => ∀ e ∈ s.net[i]?, ¬ s.Unsticks bioCnt e code
  | _ => True

instance (e : Event) (code : UserCode) : Decidable (s.Unsticks bioCnt e code) := by
  unfold Unsticks
  split <;> infer_instance

instance (s : TxnSystem) (a : TxnAction) : Decidable (s.Sticky bioCnt a) :=
  match a with
  | .handle .. => inferInstanceAs (Decidable (∀ e ∈ _, ¬ _))
  | .create .. | .deliver .. | .epCb .. | .jobTriggered _ | .npTriggered .. =>
    inferInstanceAs (Decidable True)

/-- **The invariant**: errors stick, and those that are in the state of a transaction were
    marked. -/
structure Steady (s : TxnSystem) : Prop where
  inv : s.Inv
  sticks : s.ErrorSticks
  marked : ∀ (x : TxnId) (slot : TxnSlot), s.txns[x]? = some slot → slot.txn.state = .error →
    .state x .error ∈ s.log
  marks : ∀ m ∈ s.log, ∀ x, m.txn = some x → x < s.txns.length

/-! ### Steps that no error comes from -/

/-- A step that no transaction sees. -/
theorem Steady.aside (h : s.Steady) (hinv : s'.Inv) (ha : Aside s s') : s'.Steady := by
  obtain ⟨ms, hlog, hms⟩ := ha.marks
  have hcalm : ∀ m ∈ ms, ∀ x, m.txn ≠ some x := fun m hm x => by simp [Mark.txn_none (hms m hm)]
  have hlen : s'.txns.length = s.txns.length := by simpa using congrArg List.length ha.bare
  -- no error is new in the log
  have hmem : ∀ x, .state x .error ∈ s'.log → Mark.state x .error ∈ s.log := by
    intro x herr
    rw [hlog] at herr
    rcases List.mem_append.mp herr with herr | herr
    · exact herr
    · exact absurd rfl (hcalm _ herr x)
  refine ⟨hinv, ⟨fun x => ?_, fun x slot hslot herr => ?_⟩, fun x slot hslot hst => ?_,
    fun m hm x hx => ?_⟩
  · rw [hlog]
    exact (h.sticks.log x).other fun m hm => hcalm m hm x
  · -- no transaction changes its state
    obtain ⟨slot₀, hslot₀, hb⟩ := ha.slot hslot
    have hstate : slot.txn.state = slot₀.txn.state := congrArg (·.txn.state) hb
    have hworkflow : slot.txn.workflow = slot₀.txn.workflow := congrArg (·.txn.workflow) hb
    rw [hstate, hworkflow, hlog]
    refine (h.sticks.ends x slot₀ hslot₀ (hmem x herr)).imp_right fun hends => ?_
    exact ⟨hends.1, fun hp => List.mem_append_left _ (hends.2 hp)⟩
  · obtain ⟨slot₀, hslot₀, hb⟩ := ha.slot hslot
    have hstate : slot.txn.state = slot₀.txn.state := congrArg (·.txn.state) hb
    rw [hlog]
    exact List.mem_append_left _ (h.marked x slot₀ hslot₀ (hstate.symm.trans hst))
  · rw [hlen]
    rw [hlog] at hm
    rcases List.mem_append.mp hm with hm | hm
    · exact h.marks m hm x hx
    · exact absurd hx (hcalm m hm x)

/-- A handler on the transaction `x`. -/
theorem Steady.commit (h : s.Steady) {x : TxnId} {slot : TxnSlot} {net : List Event}
    (hslot : s.txns[x]? = some slot) {r : TxnRun}
    (hinv : (({ s with net } : TxnSystem).commit x r).Inv)
    (hlog : ∀ m ∈ r.log, m.txn = some x ∨ m.txn = none) (hsticks : Sticks x (s.log ++ r.log))
    (hends : .state x .error ∈ s.log ++ r.log → r.txn.state = .error ∨
      r.txn.state = .destroyed ∧
        (r.txn.workflow.hasPack = true → .packed x 0 .error ∈ s.log ++ r.log))
    (hmarked : r.txn.state = .error → .state x .error ∈ s.log ++ r.log) :
    (({ s with net } : TxnSystem).commit x r).Steady := by
  set s₀ : TxnSystem := { s with net } with hs₀
  have hlog' : (s₀.commit x r).log = s.log ++ r.log := rfl
  have hother : ∀ y ≠ x, ∀ m ∈ r.log, m.txn ≠ some y := by
    intro y hy m hm hbad
    rcases hlog m hm with hx | hx
    · exact hy (Option.some.inj (hbad.symm.trans hx))
    · exact absurd (hbad.symm.trans hx) (by simp)
  refine ⟨hinv, ⟨fun y => ?_, fun y slot' hslot' herr => ?_⟩, fun y slot' hslot' hst => ?_,
    fun m hm y hy => ?_⟩
  · rw [hlog']
    by_cases hy : y = x
    · exact hy ▸ hsticks
    · exact (h.sticks.log y).other (hother y hy)
  · rw [txns_commit (s := s₀) hslot] at hslot'
    rw [hlog'] at herr ⊢
    by_cases hy : y = x
    · subst hy
      rw [if_pos rfl] at hslot'
      rw [← Option.some.inj hslot']
      exact hends herr
    · rw [if_neg hy] at hslot'
      -- what was marked for another transaction was marked before the step
      have hold : Mark.state y .error ∈ s.log := by
        rcases List.mem_append.mp herr with herr | herr
        · exact herr
        · exact absurd rfl (hother y hy _ herr)
      refine (h.sticks.ends y slot' hslot' hold).imp_right fun hends => ?_
      exact ⟨hends.1, fun hp => List.mem_append_left _ (hends.2 hp)⟩
  · rw [txns_commit (s := s₀) hslot] at hslot'
    rw [hlog']
    by_cases hy : y = x
    · subst hy
      rw [if_pos rfl] at hslot'
      rw [← Option.some.inj hslot'] at hst
      exact hmarked hst
    · rw [if_neg hy] at hslot'
      exact List.mem_append_left _ (h.marked y slot' hslot' hst)
  · have hlen : (s₀.commit x r).txns.length = s.txns.length := by simp [TxnSystem.commit, hs₀]
    rw [hlen]
    rcases List.mem_append.mp hm with hm | hm
    · exact h.marks m hm y hy
    · have hx := (List.getElem?_eq_some_iff.mp hslot).1
      -- a mark of a transaction that does not exist would be about another one
      by_contra hge
      exact hother y (fun heq => hge (heq ▸ hx)) m hm hy

/-! ### The handlers of a transaction -/

/-- A transaction that goes on has not failed. -/
theorem Steady.unmarked (h : s.Steady) {x : TxnId} {slot : TxnSlot} (hslot : s.txns[x]? = some slot)
    (hst : slot.txn.state ≠ .error ∧ slot.txn.state ≠ .destroyed) : .state x .error ∉ s.log := by
  intro herr
  rcases h.sticks.ends x slot hslot herr with hbad | ⟨hbad, -⟩
  · exact hst.1 hbad
  · exact hst.2 hbad

/-- **A `SK_PTO_WORKFLOW_RUN`** keeps the invariant, unless an error of its transaction comes
    unstuck. -/
theorem Steady.workflowRun (h : s.Steady) {i : Nat} {e : Event} {code : UserCode} {x : TxnId}
    {slot : TxnSlot} (hslot : s.txns[x]? = some slot) {r : TxnRun}
    (hr : TxnRun.workflowRun ⟨bioCnt, s.services, e.dst, slot.home, x⟩ code
      ⟨slot.txn, [], [], false⟩ = .ok r)
    (hinv : (({ s with net := s.net.eraseIdx i } : TxnSystem).commit x r).Inv) :
    if TxnRun.Unsticks ⟨bioCnt, s.services, e.dst, slot.home, x⟩ code slot.txn then
      ¬ (({ s with net := s.net.eraseIdx i } : TxnSystem).commit x r).ErrorSticks
    else (({ s with net := s.net.eraseIdx i } : TxnSystem).commit x r).Steady := by
  set v : TxnEnv := ⟨bioCnt, s.services, e.dst, slot.home, x⟩ with hv
  have hc := (h.inv.sound x slot hslot).counts
  obtain ⟨es, marks, -, hmarks, hg⟩ := TxnRun.run_grew _ hr
  simp only [List.nil_append] at hmarks
  -- what remains to be shown of a run that keeps the invariant
  have hkeep : Sticks x (s.log ++ r.log) →
      (.state x .error ∈ s.log ++ r.log → r.txn.state = .error ∨ r.txn.state = .destroyed ∧
        (r.txn.workflow.hasPack = true → .packed x 0 .error ∈ s.log ++ r.log)) →
      (r.txn.state = .error → .state x .error ∈ s.log ++ r.log) →
      (({ s with net := s.net.eraseIdx i } : TxnSystem).commit x r).Steady :=
    h.commit hslot hinv fun m hm => .inl (hg.marks m (hmarks ▸ hm))
  -- the cases are the fates that a run may have
  cases TxnRun.workflowRun_fate hc hr with
  | buried hb =>
    have hst : slot.txn.state = .error := hb.error
    have hlog : r.log = TxnRun.finishMarks code 2 v ⟨slot.txn, [], [], false⟩ := by
      rw [hb.log, List.nil_append]
    have hsticks : Sticks x (s.log ++ r.log) ↔ Sticks x s.log ∧
        (slot.txn.workflow.hasPack = true → slot.txn.waiting = 0) ∧
          slot.txn.late (code.clock 2) = false := by
      rw [hlog]
      exact hb.sticks (h.marked x slot hslot hst)
    split
    · -- its callbacks are not complete, or it is late
      rename_i hbad
      intro hs
      obtain ⟨-, hwait, hlate⟩ := hsticks.mp (hs.log x)
      rcases hbad with ⟨-, ⟨hp, hbad⟩ | hbad⟩ | hbad
      · exact hbad (hwait hp)
      · exact absurd (hlate.symm.trans hbad) (by simp)
      · exact absurd hst hbad.1.alive.1
    · -- neither is in the way of the packing
      rename_i hgood
      have hwait : slot.txn.workflow.hasPack = true → slot.txn.waiting = 0 := by
        intro hp
        by_contra hwait
        exact hgood (.inl ⟨hst, .inl ⟨hp, hwait⟩⟩)
      have hlate : slot.txn.late (code.clock 2) = false := by
        by_contra hlate
        exact hgood (.inl ⟨hst, .inr (by simpa using hlate)⟩)
      refine hkeep (hsticks.mpr ⟨h.sticks.log x, hwait, hlate⟩)
        (fun _ => .inr ⟨hb.destroyed, fun hp => ?_⟩)
        fun hst' => absurd (hb.destroyed.symm.trans hst') (by simp)
      rw [hlog]
      exact List.mem_append_right _ (hb.packed (hwait (hb.workflow ▸ hp)) hp)
  | gone hst htxn hlog =>
    have hlog' : s.log ++ r.log = s.log := by rw [hlog, List.append_nil]
    have hst' : slot.txn.state = .destroyed := hst
    -- nothing is in the log of a destroyed one that was not there before
    rw [if_neg (by simp [TxnRun.Unsticks, TxnRun.Running, hst'])]
    rw [hlog', htxn] at hkeep
    refine hkeep (h.sticks.log x) (h.sticks.ends x slot hslot) fun herr => ?_
    exact absurd (hst'.symm.trans herr) (by simp)
  | @failed hst hst' hwait ms hms hlog =>
    have hlog' : s.log ++ r.log = s.log ++ ms ++ [.state x .error] := by
      rw [hlog, List.nil_append, List.append_assoc]
    -- it waits for its tasks, so this run does not pack it
    have hnot : ¬ TxnRun.Unsticks v code slot.txn := by
      rintro (hbad | ⟨-, -, -, hzero, hnone, -⟩)
      · exact hst.alive.1 hbad.1
      · exact hwait.elim (fun hne => hne hzero) fun hne => hne hnone
    rw [if_neg hnot]
    rw [hlog'] at hkeep
    refine hkeep ?_ (fun _ => .inl hst') fun _ => by simp
    refine ((sticks_append hms).mpr ⟨h.sticks.log x, fun herr => ?_⟩).error
    exact absurd herr (h.unmarked hslot hst.alive)
  | @failedBuried hst r₁ hb hfail hidx hwait hawait hwait₁ hlate ms hms hlog =>
    have hlog' : s.log ++ r.log = s.log ++ ms ++ [.state x .error] ++
        r₁.finishMarks code (TxnRun.lastReading slot.txn.state - 1) v := by
      rw [hb.log, hlog, List.nil_append]
      simp only [List.append_assoc]
      rfl
    -- the log up to its error is that of a run that fails
    have hfailed : Sticks x (s.log ++ ms ++ [.state x .error]) := by
      refine ((sticks_append hms).mpr ⟨h.sticks.log x, fun herr => ?_⟩).error
      exact absurd herr (h.unmarked hslot hst.alive)
    have hsticks : Sticks x (s.log ++ r.log) ↔ Sticks x (s.log ++ ms ++ [.state x .error]) ∧
        (r₁.txn.workflow.hasPack = true → r₁.txn.waiting = 0) ∧
          slot.txn.late (code.clock (TxnRun.lastReading slot.txn.state - 1)) = false := by
      rw [hlog', ← hlate]
      exact hb.sticks (by simp [hv])
    split
    · -- only the clock can come between the error and the packing
      rename_i hbad
      have hlate' : slot.txn.late (code.clock (TxnRun.lastReading slot.txn.state - 1)) = true := by
        rcases hbad with hbad | hbad
        · exact absurd hbad.1 hst.alive.1
        · exact hbad.2.2.2.2.2
      intro hs
      exact absurd (hlate'.symm.trans (hsticks.mp (hs.log x)).2.2) (by simp)
    · rename_i hgood
      have hlate' : slot.txn.late (code.clock (TxnRun.lastReading slot.txn.state - 1)) = false := by
        by_contra hlate'
        exact hgood (.inr ⟨hst, hfail, hidx, hwait, hawait, by simpa using hlate'⟩)
      refine hkeep (hsticks.mpr ⟨hfailed, fun _ => hwait₁, hlate'⟩)
        (fun _ => .inr ⟨hb.destroyed, fun hp => ?_⟩)
        fun hst' => absurd (hb.destroyed.symm.trans hst') (by simp)
      rw [hlog']
      exact List.mem_append_right _ (hb.packed hwait₁ hp)
  -- no error was there, and none has come
  | well hst hst' hgood hms hlog =>
    have hunmarked := h.unmarked hslot hst
    rw [if_neg hgood]
    rw [hlog, List.nil_append] at hkeep
    refine hkeep ((sticks_append hms).mpr ⟨h.sticks.log x, fun herr => absurd herr hunmarked⟩)
      (fun herr => ?_) fun herr => absurd herr hst'
    exact ((List.mem_append.mp herr).elim hunmarked hms).elim

/-- **A `SK_PTO_SVC_TASK_CB`** keeps the invariant. -/
theorem Steady.callback (h : s.Steady) {i : Nat} {x : TxnId} {slot : TxnSlot}
    (hslot : s.txns[x]? = some slot) {r : TxnRun} (ha : Answered x slot r)
    (hinv : (({ s with net := s.net.eraseIdx i } : TxnSystem).commit x r).Inv) :
    (({ s with net := s.net.eraseIdx i } : TxnSystem).commit x r).Steady := by
  obtain ⟨ms, ms', hcases⟩ := ha.log
  have hnone : (∀ m ∈ ms, m.txn ≠ some x) ∧ ∀ m ∈ ms', m.txn ≠ some x := by
    have hall : ∀ m ∈ ms ++ ms', m.txn = none := hcases.elim (·.2.1) (·.2.1)
    refine ⟨fun m hm => ?_, fun m hm => ?_⟩
    · simp [hall m (List.mem_append_left _ hm)]
    · simp [hall m (List.mem_append_right _ hm)]
  have hlogs : ∀ m ∈ r.log, m.txn = some x ∨ m.txn = none := by
    rcases hcases with ⟨hlog, hall, -⟩ | ⟨hlog, hall, -⟩
    · exact fun m hm => .inr (hall m (hlog ▸ hm))
    · intro m hm
      rw [hlog] at hm
      rcases List.mem_append.mp hm with hm | hm
      · exact .inr (hall m (List.mem_append_left _ hm))
      · rcases List.mem_cons.mp hm with rfl | hm
        · exact .inl rfl
        · exact .inr (hall m (List.mem_append_right _ hm))
  rcases hcases with ⟨hlog, hall, hst⟩ | ⟨hlog, hall, hst, -⟩
  · -- no error is marked
    have hother : ∀ m ∈ r.log, m.txn ≠ some x := fun m hm => by simp [hall m (hlog ▸ hm)]
    refine h.commit hslot hinv hlogs ((h.sticks.log x).other hother) (fun herr => ?_) fun herr => ?_
    · have hold : Mark.state x .error ∈ s.log :=
        (List.mem_append.mp herr).resolve_right fun hbad => hother _ hbad rfl
      rw [hst, ha.workflow]
      refine (h.sticks.ends x slot hslot hold).imp_right fun hends => ?_
      exact ⟨hends.1, fun hp => List.mem_append_left _ (hends.2 hp)⟩
    · exact List.mem_append_left _ (h.marked x slot hslot (hst.symm.trans herr))
  · -- the callback failed
    have hlog' : s.log ++ r.log = s.log ++ ms ++ [.state x .error] ++ ms' := by
      rw [hlog]
      simp
    refine h.commit hslot hinv hlogs ?_ (fun _ => .inl hst) fun _ => ?_
    · rw [hlog']
      exact (((h.sticks.log x).other hnone.1).error).other hnone.2
    · rw [hlog']
      simp

/-- **A transaction is made.** -/
theorem Steady.create (h : s.Steady) (workflow : Workflow) (home : Sched) (now : Int)
    (immediate : Bool)
    (hinv : Inv { s with
      txns := s.txns ++ [⟨newTxn workflow now immediate, home, false, false⟩] }) :
    Steady { s with txns := s.txns ++ [⟨newTxn workflow now immediate, home, false, false⟩] } := by
  have hnew : ∀ {x : TxnId} {slot : TxnSlot},
      (s.txns ++ [⟨newTxn workflow now immediate, home, false, false⟩])[x]? = some slot →
      s.txns[x]? = some slot ∨ s.txns.length ≤ x ∧
        slot = ⟨newTxn workflow now immediate, home, false, false⟩ := by
    intro x slot hslot
    by_cases hx : x < s.txns.length
    · exact .inl ((List.getElem?_append_left hx).symm.trans hslot)
    · rw [List.getElem?_append_right (Nat.not_lt.mp hx), List.getElem?_singleton] at hslot
      split at hslot
      · exact .inr ⟨Nat.not_lt.mp hx, (Option.some.inj hslot).symm⟩
      · exact absurd hslot (by simp)
  refine ⟨hinv, ⟨h.sticks.log, fun x slot hslot herr => ?_⟩, fun x slot hslot hst => ?_,
    fun m hm x hx => by simpa using Nat.lt_succ_of_lt (h.marks m hm x hx)⟩
  · rcases hnew hslot with hslot | ⟨hx, -⟩
    · exact h.sticks.ends x slot hslot herr
    · exact absurd (h.marks _ herr x rfl) (Nat.not_lt.mpr hx)
  · rcases hnew hslot with hslot | ⟨-, rfl⟩
    · exact h.marked x slot hslot hst
    · cases immediate <;> simp [newTxn] at hst

/-- **A transaction is delivered.** -/
theorem Steady.deliver (h : s.Steady) {x : TxnId} (e : Event)
    (hinv : (({ s with txns := s.txns.modify x fun slot => { slot with delivered := true } } :
      TxnSystem).send e).Inv) :
    (({ s with txns := s.txns.modify x fun slot => { slot with delivered := true } } :
      TxnSystem).send e).Steady := by
  have hold : ∀ (y : TxnId) (slot' : TxnSlot),
      (s.txns.modify x fun slot => { slot with delivered := true })[y]? = some slot' →
      ∃ slot₀, s.txns[y]? = some slot₀ ∧ slot'.txn = slot₀.txn := by
    intro y slot' hslot'
    rw [List.getElem?_modify] at hslot'
    obtain ⟨slot₀, hslot₀, rfl⟩ := Option.map_eq_some_iff.mp hslot'
    exact ⟨slot₀, hslot₀, by split <;> rfl⟩
  refine ⟨hinv, ⟨h.sticks.log, fun y slot' hslot' herr => ?_⟩, fun y slot' hslot' hst => ?_,
    fun m hmem y hy => by simpa [TxnSystem.send] using h.marks m hmem y hy⟩
  · obtain ⟨slot₀, hslot₀, heq⟩ := hold y slot' hslot'
    rw [heq]
    exact h.sticks.ends y slot₀ hslot₀ herr
  · obtain ⟨slot₀, hslot₀, heq⟩ := hold y slot' hslot'
    exact h.marked y slot₀ hslot₀ (heq ▸ hst)

/-! ### Every run -/

/-- A step that is not sticky handles a message that makes an error come unstuck. -/
theorem not_sticky {a : TxnAction} (h : ¬ s.Sticky bioCnt a) :
    ∃ i code e x slot, a = .handle i code ∧ s.net[i]? = some e ∧ e.pto = .workflowRun ∧
      e.owner = .inl x ∧ s.txns[x]? = some slot ∧ slot.released = false ∧
      TxnRun.Unsticks ⟨bioCnt, s.services, e.dst, slot.home, x⟩ code slot.txn := by
  cases a with
  | handle i code =>
    simp only [Sticky, Option.mem_def, not_forall, not_not] at h
    obtain ⟨e, hi, hbad⟩ := h
    unfold Unsticks at hbad
    cases howner : e.owner with
    | inr entity => simp [howner] at hbad
    | inl x =>
      simp only [howner] at hbad
      obtain ⟨hpto, slot, hslot, hrel, hbad⟩ := hbad
      exact ⟨i, code, e, x, slot, rfl, hi, hpto, howner, hslot, hrel, hbad⟩
  | _ => exact absurd trivial h

/-- A sticky step keeps the invariant. -/
theorem Steady.step (h : s.Steady) {a : TxnAction} (he : s.enabled bioCnt a)
    (hin : s.Sticky bioCnt a) (hx : s.exec bioCnt a = .ok s') : s'.Steady := by
  have hinv := exec_inv h.inv he hx
  cases exec_stepped he hx with
  | create workflow home now immediate => exact h.create workflow home now immediate hinv
  | @deliver x src slot hslot hdel => exact h.deliver _ hinv
  | @workflowRun i e code x slot r hi hpto howner hslot hrel hr =>
    have hgood : ¬ TxnRun.Unsticks ⟨bioCnt, s.services, e.dst, slot.home, x⟩ code slot.txn := by
      simpa [Sticky, Unsticks, hi, howner, hpto, hslot, hrel] using hin
    have hstep := h.workflowRun hslot hr hinv
    rwa [if_neg hgood] at hstep
  | taskCb hi hfirst hpto howner hslot hrel hr =>
    exact h.callback hslot (h.inv.answered hi hfirst hpto howner hslot hr) hinv
  | aside ha => exact h.aside hinv ha

/-- And any other does not. -/
theorem Steady.broken (h : s.Steady) {a : TxnAction} (he : s.enabled bioCnt a)
    (hout : ¬ s.Sticky bioCnt a) (hx : s.exec bioCnt a = .ok s') : ¬ s'.ErrorSticks := by
  have hinv := exec_inv h.inv he hx
  obtain ⟨i, code, e, x, slot, rfl, hi, hpto, howner, hslot, hrel, hbad⟩ := not_sticky hout
  rw [exec_workflowRun hi hpto howner hslot hrel] at hx
  obtain ⟨r, hr, rfl⟩ := except_map_ok.mp hx
  have hstep := h.workflowRun hslot hr hinv
  rwa [if_pos hbad] at hstep

/-- Nothing has failed before the first step. -/
theorem init_steady (h : Init s) : s.Steady := by
  have htxns : s.txns = [] := h.2.1
  have hlog : s.log = [] := h.2.2.2.2
  refine ⟨init_inv h, ⟨fun x => ?_, ?_⟩, ?_, ?_⟩
  · rw [hlog]
    exact List.Pairwise.nil
  · simp [htxns]
  · simp [htxns]
  · simp [hlog]

/-- **Errors stick** in all states of a run exactly when all its steps are sticky, however many
    messages that resume a transaction are under way; and in no state of any run do the calls of
    `_run` nest without end. -/
theorem error_sticks (hs : Init s) {p : List (TxnAction × TxnSystem)}
    (hp : (machine bioCnt).Path s p) :
    ((∀ q ∈ p, q.2.ErrorSticks) ↔ Machine.StepsMeet (Sticky bioCnt) s p) ∧
      ∀ q ∈ p, ∀ (x : TxnId) (slot : TxnSlot) (v : TxnEnv) (code : UserCode),
        q.2.txns[x]? = some slot →
        TxnRun.workflowRun v code ⟨slot.txn, [], [], false⟩ ≠ .error .depth := by
  refine ⟨?_, fun q hq x slot v code hslot => ?_⟩
  · exact Machine.path_iff (I := Steady) (P := ErrorSticks) (fun _ h => h.sticks)
      (fun _ _ _ h he hc hx => h.step he hc hx) (fun _ _ _ h he hc hx => h.broken he hc hx)
      (init_steady hs) hp
  · have hmeet : Machine.StepsMeet (Machine.anyStep (σ := TxnSystem) (α := TxnAction)) s p :=
      Machine.stepsMeet_any p s
    have hinv := reach_inv (hp.reach (.init hs) hmeet q hq)
    exact TxnRun.workflowRun_depth (hinv.sound x slot hslot).counts

/-! A workflow with a limit of one millisecond and one module, which fails at once: the limit passes
while the transaction is packed, or it does not. -/

/-- The module fails, and the clock says `now` when `_run` is called the last time. -/
def failing (now : Int) : UserCode :=
  { quiet with run := ⟨[], true⟩, clock := fun depth => if depth = 0 then now else 0 }

/-- The run of the transaction. -/
def failure (now : Int) : List (TxnAction × TxnSystem) :=
  (machine 0).trace fresh (delivered ++ [.handle 0 (failing now)])

/-- In the failing run no message runs the workflow twice. -/
theorem failure_once (now : Int) (h : ∀ q ∈ failure now, q.2.net.length ≤ 1) :
    ∀ q ∈ failure now, ∀ x, q.2.resumes x ≤ 1 := fun q hq _ =>
  List.countP_le_length.trans (h q hq)

/-- **An error does not stick**: the transaction that failed times out when it is packed. -/
theorem failure_late :
    (machine 0).Path fresh (failure 5000) ∧
      (∀ q ∈ failure 5000, ∀ x, q.2.resumes x ≤ 1) ∧
      (failure 5000).map (·.2.log) = [[], [], [.state 0 .running, .entered 0 0, .state 0 .error,
        .packed 0 0 .error, .state 0 .packed, .state 0 .timeout, .state 0 .destroyed]] ∧
      ¬ ∀ q ∈ failure 5000, q.2.ErrorSticks := by
  refine ⟨Machine.trace_path _ _, failure_once _ (by decide +kernel), by decide +kernel,
    fun hs => ?_⟩
  have hsticks : ∀ q ∈ failure 5000, Sticks 0 q.2.log := fun q hq => (hs q hq).log 0
  revert hsticks
  decide +kernel

/-- When the clock is in time, it does. -/
theorem failure_sticks : Machine.StepsMeet (Sticky 0) fresh (failure 0) ∧
    ∀ q ∈ failure 0, q.2.ErrorSticks := by
  have hmeet : Machine.StepsMeet (Sticky 0) fresh (failure 0) := by decide +kernel
  exact ⟨hmeet, (error_sticks fresh_init (Machine.trace_path _ _)).1.mpr hmeet⟩

end TxnSystem

end Skull
