import Skull.Txn.Handlers
import Mathlib.Tactic.Tauto

namespace Skull

open Machines

/-!
# How far a run of a workflow goes

The calls of `_run` nest, and each begins with a check of the clock.  Here each of them is one
equation, so that a whole run can be followed from state to state:

* `TxnRun.run_starting` … `TxnRun.run_destroyed` — a call of `_run`, by the state it finds;
* `TxnRun.modulePack_eq`, `TxnRun.moduleRun_eq` — what lies between two calls;
* `TxnRun.run_ends` — a run comes to its end, unless the workflow has no modules or a timeout
  is found in a destroyed transaction.
-/

/-- The time limit of the workflow has passed at `now`. -/
def Txn.late (t : Txn) (now : Int) : Bool :=
  0 < t.workflow.timeout && t.workflow.timeout < (now - t.startTime).tdiv usPerMs

/-- A transaction in the error state does not time out. -/
theorem Txn.timeout_eq (t : Txn) (now : Int) :
    t.timeout now = (decide (t.state ≠ .error) && t.late now) := by
  unfold Txn.timeout Txn.late
  by_cases hlimit : t.workflow.timeout ≤ 0
  · have hnot : ¬ 0 < t.workflow.timeout := by omega
    simp [hlimit, hnot]
  · have hpos : 0 < t.workflow.timeout := by omega
    by_cases hst : t.state = .error <;> simp [hlimit, hpos, hst]

/-- The call is accepted by a transaction that is not new. -/
def TxnEnv.accepts (v : TxnEnv) (c : Iocall) : Bool :=
  match v.services[c.service]? with
  | none => false
  | some svc => (svc.api c.api).isSome && Service.validateBidx v.bioCnt c.bidx

/-- The accepted calls that have a callback. -/
def TxnEnv.awaited (v : TxnEnv) (cs : List Iocall) : Nat := cs.countP fun c => c.cb && v.accepts c

namespace TxnRun

variable (v : TxnEnv)

/-- The transaction in the state `st`. -/
def goto (r : TxnRun) (st : TxnState) : TxnRun :=
  { r with
    txn := { r.txn with state := st, error := r.txn.error || st = .error }
    log := r.log ++ [.state v.id st] }

/-- After the check of the clock that `_run` begins with. -/
def checked (r : TxnRun) (now : Int) : TxnRun :=
  if r.txn.timeout now then r.goto v .timeout else r

/-- What the check of the clock marks. -/
def checkMarks (r : TxnRun) (now : Int) : List Mark :=
  if r.txn.timeout now then [.state v.id .timeout] else []

variable {v} {r r' : TxnRun}

/-- `sk_txn_setstate` on a transaction that is not destroyed. -/
theorem setstate_eq (h : r.txn.state ≠ .destroyed) (st : TxnState) :
    r.setstate v st = .ok (r.goto v st) := by
  simp [setstate, Txn.setstate, h, Except.map, goto]

@[simp] theorem goto_state (st : TxnState) : (r.goto v st).txn.state = st := rfl
@[simp] theorem goto_log (st : TxnState) : (r.goto v st).log = r.log ++ [.state v.id st] := rfl
@[simp] theorem goto_sent (st : TxnState) : (r.goto v st).sent = r.sent := rfl
@[simp] theorem goto_workflow (st : TxnState) :
    (r.goto v st).txn.workflow = r.txn.workflow := rfl
@[simp] theorem goto_late (st : TxnState) (now : Int) :
    (r.goto v st).txn.late now = r.txn.late now := rfl
@[simp] theorem goto_waiting (st : TxnState) : (r.goto v st).txn.waiting = r.txn.waiting := rfl
@[simp] theorem goto_moduleComplete (st : TxnState) :
    (r.goto v st).txn.moduleComplete = r.txn.moduleComplete := rfl
@[simp] theorem goto_nextModule (st : TxnState) :
    (r.goto v st).txn.nextModule.1 = r.txn.nextModule.1 := by
  unfold Txn.nextModule goto
  split <;> rfl

/-- A change of state keeps the counts. -/
theorem goto_counts {st : TxnState} (h : r.txn.Counts) : (r.goto v st).txn.Counts :=
  h.congr rfl rfl rfl rfl

@[simp] theorem checked_log (now : Int) :
    (r.checked v now).log = r.log ++ r.checkMarks v now := by
  unfold checked checkMarks
  split <;> simp

@[simp] theorem checked_sent (now : Int) : (r.checked v now).sent = r.sent := by
  unfold checked
  split <;> rfl

@[simp] theorem checked_workflow (now : Int) :
    (r.checked v now).txn.workflow = r.txn.workflow := by
  unfold checked
  split <;> rfl

@[simp] theorem checked_late (now now' : Int) :
    (r.checked v now).txn.late now' = r.txn.late now' := by
  unfold checked
  split <;> rfl

@[simp] theorem checked_waiting (now : Int) : (r.checked v now).txn.waiting = r.txn.waiting := by
  unfold checked
  split <;> rfl

@[simp] theorem checked_moduleComplete (now : Int) :
    (r.checked v now).txn.moduleComplete = r.txn.moduleComplete := by
  unfold checked
  split <;> rfl

@[simp] theorem checked_nextModule (now : Int) :
    (r.checked v now).txn.nextModule.1 = r.txn.nextModule.1 := by
  unfold checked
  split
  · exact goto_nextModule _
  · rfl

/-- So does the check of the clock. -/
theorem checked_counts (h : r.txn.Counts) (now : Int) : (r.checked v now).txn.Counts := by
  unfold checked
  split
  · exact goto_counts h
  · exact h

/-- The check of the clock leads to the timeout, or nowhere. -/
theorem checked_state (now : Int) :
    (r.checked v now).txn.state = if r.txn.timeout now then .timeout else r.txn.state := by
  unfold checked
  split <;> rfl

/-- The check leaves a transaction alive. -/
theorem checked_alive (h : r.txn.state ≠ .destroyed) (now : Int) :
    (r.checked v now).txn.state ≠ .destroyed := by
  rw [checked_state]
  split
  · simp
  · exact h

/-- A transaction in the error state stays there. -/
theorem checked_error {now : Int} (h : r.txn.state = .error) : r.checked v now = r := by
  rw [checked, if_neg]
  simp [Txn.timeout_eq, h]

/-- It is marked when the transaction is late. -/
theorem checkMarks_late {now : Int} (h : r.txn.state ≠ .error) :
    r.checkMarks v now = if r.txn.late now then [.state v.id .timeout] else [] := by
  rw [checkMarks, Txn.timeout_eq]
  simp [h]

/-! ### A call of `_run`, by the state it finds -/

section Calls

variable {code : UserCode} {depth : Nat}

/-- The check of the clock does not fail while the transaction is not destroyed. -/
theorem check_eq {now : Int} (h : r.txn.state ≠ .destroyed) :
    (if r.txn.timeout now then r.setstate v .timeout else Except.ok r) =
      .ok (r.checked v now) := by
  unfold checked
  split
  · exact setstate_eq h _
  · rfl

/-- `_run` of a transaction that starts. -/
theorem run_starting (h : r.txn.state = .init ∨ r.txn.state = .unpacked ∨ r.txn.state = .pending) :
    r.run v code (depth + 1) =
      run v code depth ((r.checked v (code.clock depth)).goto v .running) := by
  have halive : r.txn.state ≠ .destroyed := by rcases h with h | h | h <;> simp [h]
  have hset := setstate_eq (v := v) (checked_alive (v := v) halive (code.clock depth)) .running
  rcases h with h | h | h <;>
    simp only [run, check_eq halive, h, Except.bind, bind, hset]

/-- `_run` of one that runs. -/
theorem run_running (h : r.txn.state = .running) : r.run v code (depth + 1) =
    (r.checked v (code.clock depth)).moduleRun v code.run (run v code depth) := by
  have halive : r.txn.state ≠ .destroyed := by simp [h]
  simp only [run, check_eq halive, h, Except.bind, bind]

/-- `_run` of one that packs. -/
theorem run_packing (h : r.txn.state = .completed ∨ r.txn.state = .error ∨
    r.txn.state = .timeout) : r.run v code (depth + 1) =
    (r.checked v (code.clock depth)).modulePack v code.pack (run v code depth) := by
  have halive : r.txn.state ≠ .destroyed := by rcases h with h | h | h <;> simp [h]
  rcases h with h | h | h <;> simp only [run, check_eq halive, h, Except.bind, bind]

/-- `_run` of one that was packed. -/
theorem run_packed (h : r.txn.state = .packed) : r.run v code (depth + 1) =
    .ok ((r.checked v (code.clock depth)).goto v .destroyed).txnLogAndDestroy := by
  have halive : r.txn.state ≠ .destroyed := by simp [h]
  have hset := setstate_eq (v := v) (checked_alive (v := v) halive (code.clock depth)) .destroyed
  simp only [run, check_eq halive, h, Except.bind, bind, hset]

/-- `_run` of one that was destroyed. -/
theorem run_destroyed (h : r.txn.state = .destroyed) : r.run v code (depth + 1) =
    if r.txn.late (code.clock depth) then .error .setstate else .ok r.txnLogAndDestroy := by
  have hset : r.setstate v .timeout = .error .setstate := by
    simp [setstate, Txn.setstate, h, Except.map]
  have htime : r.txn.timeout (code.clock depth) = r.txn.late (code.clock depth) := by
    simp [Txn.timeout_eq, h]
  simp only [run, htime, hset]
  split <;> simp [bind, Except.bind, h]

end Calls

/-! ### Service calls never fail -/

/-- The service calls of a piece of code are made, and those that are accepted and have a
    callback are pending after it. -/
theorem iocalls_ok (cs : List Iocall) : ∀ {r : TxnRun}, r.txn.Counts →
    ∃ r' es, r.iocalls v cs = .ok r' ∧ Called v r r' es ∧ (r.txn.state ≠ .init →
      r'.txn.pendingTasks = r.txn.pendingTasks + v.awaited cs) := by
  induction cs with
  | nil => exact fun _ => ⟨_, [], rfl, .refl, by simp [TxnEnv.awaited]⟩
  | cons c cs ih =>
    intro r hc
    -- the first call
    obtain ⟨r₁, hr₁, hpend⟩ : ∃ r₁, r.iocall v c = .ok r₁ ∧ (r.txn.state ≠ .init →
        r₁.txn.pendingTasks = r.txn.pendingTasks + v.awaited [c]) := by
      unfold iocall TxnEnv.awaited TxnEnv.accepts
      cases hsvc : v.services[c.service]? with
      | none => exact ⟨r, rfl, by simp [hsvc]⟩
      | some svc =>
        by_cases hapi : (svc.api c.api).isNone = true
        · exact ⟨r, by simp [hapi], by simp_all⟩
        · by_cases hst : r.txn.state = .init
          · exact ⟨r, by simp [hapi, hst], fun h => absurd hst h⟩
          · by_cases hbidx : Service.validateBidx v.bioCnt c.bidx = true
            · obtain ⟨t, ht, -, hspec⟩ := hc.taskAdd c.api c.cb r.txn.currentModule
              have hsome : (svc.api c.api).isSome = true := by
                simpa [Option.isSome_iff_ne_none] using hapi
              refine ⟨_, by simp [hapi, hst, hbidx, ht, Except.map]; rfl, fun _ => ?_⟩
              rw [hspec]
              cases hcb : c.cb <;> simp [hsvc, hbidx, hsome, hcb]
            · exact ⟨r, by simp [hapi, hst, hbidx], by simp [hsvc, hbidx]⟩
    obtain ⟨es, hes⟩ := iocall_spec hr₁
    -- and the others
    obtain ⟨r₂, es', hr₂, hes', hpend'⟩ := ih (hes.grows.counts hc)
    refine ⟨r₂, es ++ es', by simp only [iocalls, hr₁, bind, Except.bind, hr₂], hes.trans hes',
      fun hst => ?_⟩
    have hst₁ : r₁.txn.state ≠ .init := hes.keeps.1 ▸ hst
    have hsum : v.awaited (c :: cs) = v.awaited [c] + v.awaited cs := by
      simp only [TxnEnv.awaited, List.countP_cons, List.countP_nil]
      omega
    rw [hpend' hst₁, hpend hst, hsum]
    omega

/-- Calls make a transaction no later. -/
theorem Called.late {es : List Event} (h : Called v r r' es) (now : Int) :
    r'.txn.late now = r.txn.late now := by
  rw [h.txn]
  rfl

/-! ### Between two calls of `_run` -/

/-- What `pack` marks when it finds the transaction in the state `st`. -/
def packMarks (v : TxnEnv) (pack : ModuleCode) (t : Txn) : List Mark :=
  (if t.workflow.hasPack then
    .packed v.id t.waiting t.state :: (if pack.failed then [.inactive v.id] else [])
  else []) ++ [.state v.id .packed]

/-- From `r` to `r'` the transaction was packed. -/
structure Packs (v : TxnEnv) (pack : ModuleCode) (r r' : TxnRun) : Prop where
  state : r'.txn.state = .packed
  counts : r'.txn.Counts
  log : r'.log = r.log ++ packMarks v pack r.txn
  workflow : r'.txn.workflow = r.txn.workflow
  late : ∀ now, r'.txn.late now = r.txn.late now

/-- **`_module_pack`** goes on with a packed transaction, if there are modules. -/
theorem modulePack_eq (pack : ModuleCode) (again : TxnRun → Except TxnFault TxnRun)
    (hc : r.txn.Counts) (hst : r.txn.state ≠ .destroyed) :
    if r.txn.workflow.modules = 0 then r.modulePack v pack again = .error .noModule
    else ∃ r', Packs v pack r r' ∧ r.modulePack v pack again = again r' := by
  -- without a module there is no last one
  have hlast : r.txn.workflow.lastModule.isNone = decide (r.txn.workflow.modules = 0) := by
    unfold Workflow.lastModule
    split <;> simp [*]
  unfold modulePack
  split
  · rename_i hnone
    simp [hlast, hnone]
  · rename_i hsome
    -- the last module has a `pack`, and it runs
    by_cases hp : r.txn.workflow.hasPack = true
    · obtain ⟨r₁, es, hr₁, hcalled, -⟩ := iocalls_ok (v := v) pack.iocalls
        (r := { r with log := r.log ++ [Mark.packed v.id r.txn.waiting r.txn.state] }) hc
      have hst₁ : r₁.txn.state ≠ .destroyed := hcalled.keeps.1 ▸ hst
      refine ⟨({ r₁ with log := r₁.log ++ if pack.failed then [.inactive v.id] else [] } :
        TxnRun).goto v .packed, ⟨rfl, ?_, ?_, hcalled.keeps.2.1, ?_⟩, ?_⟩
      · exact (hcalled.grows.counts hc).congr rfl rfl rfl rfl
      · simp [packMarks, hp, hcalled.log]
      · -- whether it fails or not, the state is packed then
        exact fun now => hcalled.late now
      · have hset := setstate_eq (v := v) (r := { r₁ with
          log := r₁.log ++ if pack.failed then [.inactive v.id] else [] }) hst₁ .packed
        simp only [hlast, hsome, hp, decide_false, Bool.false_eq_true, if_false, not_true_eq_false,
          hr₁, bind, Except.bind, hset]
    · -- the last module has none
      have hp' : r.txn.workflow.hasPack = false := by simpa using hp
      refine ⟨r.goto v .packed, ⟨rfl, goto_counts hc, ?_, rfl, fun _ => rfl⟩, ?_⟩
      · simp [packMarks, hp']
      · simp [hlast, hsome, hp', setstate_eq hst .packed, bind, Except.bind]

/-- From `r` to `r'` the next module was entered and made its service calls. -/
structure Enters (v : TxnEnv) (code : ModuleCode) (r r' : TxnRun) (es : List Event) : Prop where
  called : Called v { r with
    txn := r.txn.nextModule.2, log := r.log ++ [.entered v.id r.txn.waiting] } r' es
  pending : r'.txn.pendingTasks = r.txn.pendingTasks + v.awaited code.iocalls

/-- Entering a module keeps the state. -/
theorem Enters.state {code : ModuleCode} {es : List Event} (h : Enters v code r r' es) :
    r'.txn.state = r.txn.state := by
  rw [h.called.keeps.1, nextModule_frame]

/-- It is marked. -/
theorem Enters.log {code : ModuleCode} {es : List Event} (h : Enters v code r r' es) :
    r'.log = r.log ++ [.entered v.id r.txn.waiting] := h.called.log

/-- It keeps the counts. -/
theorem Enters.counts {code : ModuleCode} {es : List Event} (h : Enters v code r r' es)
    (hc : r.txn.Counts) : r'.txn.Counts := h.called.grows.counts (nextModule_counts hc)

/-- It keeps the workflow. -/
theorem Enters.workflow {code : ModuleCode} {es : List Event} (h : Enters v code r r' es) :
    r'.txn.workflow = r.txn.workflow := by
  rw [h.called.keeps.2.1, nextModule_frame]

/-- It makes the transaction no later. -/
theorem Enters.late {code : ModuleCode} {es : List Event} (h : Enters v code r r' es)
    (now : Int) : r'.txn.late now = r.txn.late now := by
  rw [h.called.late, nextModule_frame]
  rfl

/-- The module is complete after it was entered when it was before and nothing is awaited. -/
theorem Enters.moduleComplete {code : ModuleCode} {es : List Event} (h : Enters v code r r' es)
    (hc : r.txn.Counts) : r'.txn.moduleComplete =
      (r.txn.moduleComplete && decide (v.awaited code.iocalls = 0)) := by
  have hpos := hc.pending
  simp only [Txn.moduleComplete, h.pending]
  by_cases hm : r.txn.pendingTasks = 0
  · simp [hm]
  · have hne : r.txn.pendingTasks + v.awaited code.iocalls ≠ 0 := by omega
    simp [hm, hne]

/-- The transaction when no module is left. -/
def exhausted (v : TxnEnv) (r : TxnRun) : TxnRun :=
  { r with txn := r.txn.nextModule.2 }.goto v .completed

/-- **`_module_run`** enters the next module, if there is one. -/
theorem moduleRun_eq (code : ModuleCode) (again : TxnRun → Except TxnFault TxnRun)
    (hc : r.txn.Counts) (hst : r.txn.state ≠ .destroyed ∧ r.txn.state ≠ .init) :
    if r.txn.nextModule.1.isNone then r.moduleRun v code again = again (r.exhausted v)
    else ∃ r₁ es, Enters v code r r₁ es ∧ r.moduleRun v code again =
      if ¬ r₁.txn.moduleComplete then
        .ok (if code.failed then r₁.goto v .error else r₁.goto v .pending)
      else if code.failed then again (r₁.goto v .error)
      else if ¬ r₁.txn.isLastModule then
        .ok { r₁ with sent := r₁.sent ++ [⟨v.sched, v.sched, .inl v.id, .workflowRun⟩] }
      else again (r₁.goto v .completed) := by
  have hframe := nextModule_frame r.txn
  have hst' : r.txn.nextModule.2.state = r.txn.state := by rw [hframe]
  have hwait : r.txn.nextModule.2.waiting = r.txn.waiting := by rw [hframe]; rfl
  have hpend : r.txn.nextModule.2.pendingTasks = r.txn.pendingTasks := by rw [hframe]
  unfold moduleRun
  split
  · rename_i hnone
    have hset := setstate_eq (v := v) (r := { r with txn := r.txn.nextModule.2 })
      (hst'.symm ▸ hst.1) .completed
    simp [hnone, hset, bind, Except.bind, exhausted]
  · rename_i hsome
    obtain ⟨r₁, es, hr₁, hcalled, hpend₁⟩ := iocalls_ok (v := v) code.iocalls
      (r := { r with
        txn := r.txn.nextModule.2, log := r.log ++ [Mark.entered v.id r.txn.waiting] })
      (nextModule_counts hc)
    refine ⟨r₁, es, ⟨hcalled, (hpend₁ (hst'.symm ▸ hst.2)).trans (by rw [hpend])⟩, ?_⟩
    -- the state is set at most once more, which a live transaction allows
    have hst₁ : r₁.txn.state ≠ .destroyed := by
      rw [hcalled.keeps.1]
      exact hst'.symm ▸ hst.1
    simp only [hsome, if_false, Bool.false_eq_true, hwait, hr₁, bind, Except.bind]
    by_cases hf : code.failed = true
    · by_cases hm : r₁.txn.moduleComplete = true <;> simp [hf, hm, setstate_eq hst₁]
    · by_cases hm : r₁.txn.moduleComplete = true <;>
        by_cases hl : r₁.txn.isLastModule = true <;> simp [hf, hm, hl, setstate_eq hst₁]

/-! ### The end of a run -/

/-- What a packed transaction marks when it is destroyed. -/
def leaveMarks (v : TxnEnv) (t : Txn) (now : Int) : List Mark :=
  (if t.late now then [.state v.id .timeout] else []) ++ [.state v.id .destroyed]

/-- From `r` to `r'` the transaction was destroyed, and `ms` were marked. -/
structure Leaves (r r' : TxnRun) (ms : List Mark) : Prop where
  state : r'.txn.state = .destroyed
  workflow : r'.txn.workflow = r.txn.workflow
  log : r'.log = r.log ++ ms

section Ends

variable (code : UserCode) (depth : Nat)

/-- A packed transaction is destroyed. -/
theorem run_leaves (h : r.txn.state = .packed) : ∃ r', r.run v code (depth + 1) = .ok r' ∧
    Leaves r r' (leaveMarks v r.txn (code.clock depth)) := by
  obtain ⟨htxn, -, hlog⟩ :=
    ((r.checked v (code.clock depth)).goto v .destroyed).txnLogAndDestroy_txn
  refine ⟨_, run_packed h, by rw [htxn, goto_state], by rw [htxn]; simp, ?_⟩
  have hne : r.txn.state ≠ .error := by simp [h]
  rw [hlog, goto_log, checked_log, checkMarks_late hne, leaveMarks, List.append_assoc]

/-- What a transaction marks from `pack` on. -/
def finishMarks (v : TxnEnv) (r : TxnRun) : List Mark :=
  r.checkMarks v (code.clock (depth + 1)) ++
    (packMarks v code.pack (r.checked v (code.clock (depth + 1))).txn ++
      leaveMarks v r.txn (code.clock depth))

/-- The marks of `finishMarks`. -/
theorem mem_finishMarks {m : Mark} : m ∈ r.finishMarks code depth v ↔
    (r.txn.timeout (code.clock (depth + 1)) = true ∨ r.txn.late (code.clock depth) = true) ∧
        m = .state v.id .timeout ∨
      r.txn.workflow.hasPack = true ∧
        (m = .packed v.id r.txn.waiting (r.checked v (code.clock (depth + 1))).txn.state ∨
          code.pack.failed = true ∧ m = .inactive v.id) ∨
      m = .state v.id .packed ∨ m = .state v.id .destroyed := by
  have hmem : ∀ {p : Prop} [Decidable p] {a : Mark}, m ∈ (if p then [a] else []) ↔ p ∧ m = a := by
    intro p _ a
    split <;> simp [*]
  have hpack : m ∈ packMarks v code.pack (r.checked v (code.clock (depth + 1))).txn ↔
      r.txn.workflow.hasPack = true ∧
        (m = .packed v.id r.txn.waiting (r.checked v (code.clock (depth + 1))).txn.state ∨
          code.pack.failed = true ∧ m = .inactive v.id) ∨ m = .state v.id .packed := by
    rw [packMarks, List.mem_append, List.mem_singleton, checked_workflow, checked_waiting]
    refine or_congr_left ?_
    split
    · rename_i hp
      rw [List.mem_cons, hmem]
      simp [hp]
    · rename_i hp
      simp [hp]
  rw [finishMarks, List.mem_append, List.mem_append, hpack, leaveMarks, List.mem_append, hmem,
    List.mem_singleton, checkMarks, hmem]
  tauto

/-- A transaction that is complete, failed or timed out is packed and destroyed. -/
theorem run_finishes (h : r.txn.state = .completed ∨ r.txn.state = .error ∨
    r.txn.state = .timeout) (hc : r.txn.Counts) :
    if r.txn.workflow.modules = 0 then r.run v code (depth + 2) = .error .noModule
    else ∃ r', r.run v code (depth + 2) = .ok r' ∧ Leaves r r' (r.finishMarks code depth v) := by
  have hst : (r.checked v (code.clock (depth + 1))).txn.state ≠ .destroyed :=
    checked_alive (by rcases h with h | h | h <;> simp [h]) _
  have hpack := modulePack_eq (v := v) code.pack (run v code (depth + 1))
    (checked_counts hc (code.clock (depth + 1))) hst
  rw [checked_workflow] at hpack
  rw [run_packing h]
  split
  · rename_i hnone
    rwa [if_pos hnone] at hpack
  · rename_i hsome
    rw [if_neg hsome] at hpack
    obtain ⟨r₁, hr₁, heq⟩ := hpack
    obtain ⟨r', hr', hleaves⟩ := run_leaves (v := v) code depth hr₁.state
    refine ⟨r', heq.trans hr', hleaves.state, ?_, ?_⟩
    · rw [hleaves.workflow, hr₁.workflow, checked_workflow]
    have hlate : leaveMarks v r₁.txn (code.clock depth) =
        leaveMarks v r.txn (code.clock depth) := by
      rw [leaveMarks, hr₁.late, checked_late, leaveMarks]
    rw [hleaves.log, hr₁.log, checked_log, hlate, finishMarks]
    simp only [List.append_assoc]

end Ends

end TxnRun

/-- How deep the calls of `_run` nest from a state on. -/
def TxnState.calls : TxnState → Nat
  | .packed | .destroyed => 1
  | .completed | .error | .timeout => 2
  | .running => 3
  | .init | .unpacked | .pending => 4

namespace TxnRun

variable {v : TxnEnv} {code : UserCode}

/-- **A run comes to its end**, unless the workflow has no modules. -/
theorem run_ends (depth : Nat) : ∀ {r : TxnRun}, r.txn.Counts → r.txn.state ≠ .destroyed →
    r.txn.state.calls ≤ depth →
    (∃ r', r.run v code depth = .ok r') ∨ r.run v code depth = .error .noModule := by
  induction depth with
  | zero =>
    intro r _ _ hle
    cases hst : r.txn.state <;> simp [hst, TxnState.calls] at hle
  | succ depth ih =>
    intro r hc halive hle
    cases hst : r.txn.state with
    | destroyed => exact absurd hst halive
    | packed => exact .inl ⟨_, run_packed hst⟩
    | completed | error | timeout =>
      -- packing takes one more call
      obtain ⟨depth, rfl⟩ : ∃ d, depth = d + 1 := by
        rw [hst] at hle
        exact ⟨depth - 1, by simp only [TxnState.calls] at hle; omega⟩
      have hfin := run_finishes (v := v) (r := r) code depth (by simp [hst]) hc
      split at hfin
      · exact .inr hfin
      · obtain ⟨r', hr', -⟩ := hfin
        exact .inl ⟨r', hr'⟩
    | init | unpacked | pending =>
      -- the next call finds it running, which needs one call less
      rw [run_starting (by simp [hst])]
      refine ih (goto_counts (checked_counts hc _)) (by simp) ?_
      rw [hst] at hle
      simp only [goto_state, TxnState.calls] at hle ⊢
      omega
    | running =>
      rw [run_running hst]
      rw [hst] at hle
      simp only [TxnState.calls] at hle
      have hst' : (r.checked v (code.clock depth)).txn.state ≠ .destroyed ∧
          (r.checked v (code.clock depth)).txn.state ≠ .init := by
        rw [checked_state]
        split <;> simp [hst]
      have hmod := moduleRun_eq (v := v) code.run (run v code depth)
        (checked_counts hc (code.clock depth)) hst'
      split at hmod
      · -- no module is left
        rw [hmod]
        refine ih (goto_counts (nextModule_counts (checked_counts hc _))) (by simp [exhausted]) ?_
        simp only [exhausted, goto_state, TxnState.calls]
        omega
      · obtain ⟨r₁, es, henter, heq⟩ := hmod
        -- a module ran: it waits, goes on with the next one, or is packed
        have hc₁ : r₁.txn.Counts := henter.counts (checked_counts hc _)
        rw [heq]
        split
        · exact .inl ⟨_, rfl⟩
        · split
          · refine ih (goto_counts hc₁) (by simp) ?_
            simp only [goto_state, TxnState.calls]
            omega
          · split
            · exact .inl ⟨_, rfl⟩
            · refine ih (goto_counts hc₁) (by simp) ?_
              simp only [goto_state, TxnState.calls]
              omega

/-- **The assertion in `sk_txn_setstate`** fails exactly when a destroyed transaction is late. -/
theorem workflowRun_setstate {r : TxnRun} (hc : r.txn.Counts) :
    r.workflowRun v code = .error .setstate ↔
      r.txn.state = .destroyed ∧ r.txn.late (code.clock 3) = true := by
  by_cases hst : r.txn.state = .destroyed
  · rw [workflowRun, run_destroyed hst]
    by_cases hlate : r.txn.late (code.clock 3) = true <;> simp [hst, hlate]
  · have hle : r.txn.state.calls ≤ 4 := by cases r.txn.state <;> simp [TxnState.calls]
    have hends : (∃ r', r.run v code 4 = .ok r') ∨ r.run v code 4 = .error .noModule :=
      run_ends 4 hc hst hle
    rcases hends with ⟨r', hr'⟩ | hr'
    · simp [workflowRun, hr', hst]
    · simp [workflowRun, hr', hst]

end TxnRun

end Skull
