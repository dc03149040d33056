import Skull.Txn.Known
import Mathlib.Logic.Relation

namespace Skull

open Machines

/-!
# What the handlers for a transaction are made of

The handlers for a transaction call each other in many ways, but do few things: they set its state,
add tasks and complete them, go to its next module, send messages and release it.  What holds of
each of these holds of the handlers:

* `TxnRun.Op` — one of these;
* `TxnRun.run_did`, `TxnRun.svcTaskCb_did` — a handler is a sequence of them.
-/

namespace TxnRun

/-- One thing that a handler does. -/
inductive Op (v : TxnEnv) : TxnRun → TxnRun → Prop
  | setstate {r r' : TxnRun} {st : TxnState} (h : r.setstate v st = .ok r') : Op v r r'
  | iocall {r r' : TxnRun} {c : Iocall} (h : r.iocall v c = .ok r') : Op v r r'
  | next (r : TxnRun) : Op v r { r with txn := r.txn.nextModule.2 }
  | mark (r : TxnRun) (ms : List Mark) : Op v r { r with log := r.log ++ ms }
  | goOn (r : TxnRun) :
    Op v r { r with sent := r.sent ++ [⟨v.sched, v.sched, .inl v.id, .workflowRun⟩] }
  | destroy (r : TxnRun) : Op v r r.txnLogAndDestroy
  | complete {r : TxnRun} {taskId : Nat} {status : TaskStatus} {txn : Txn}
    (h : r.txn.taskSetcomplete taskId status = .ok txn) : Op v r { r with txn }
  | report (r : TxnRun) (service : Nat) (resumeWf svcTaskDone : Bool) :
    Op v r { r with sent := r.sent ++
      [⟨v.sched, .master, .inl v.id, .svcTaskDone service resumeWf svcTaskDone⟩] }

/-- A sequence of them. -/
abbrev Did (v : TxnEnv) : TxnRun → TxnRun → Prop := Relation.ReflTransGen (Op v)

variable {v : TxnEnv} {r r' r'' : TxnRun}

/-- One operation. -/
theorem Op.did (h : Op v r r') : Did v r r' := .single h

/-- A state may be set. -/
theorem did_setstate {p : Prop} [Decidable p] {st : TxnState}
    (h : (if p then r.setstate v st else .ok r) = .ok r') : Did v r r' := by
  split at h
  · exact (Op.setstate h).did
  · exact Except.ok.inj h ▸ .refl

/-- The calls of a module are such operations. -/
theorem did_iocalls {cs : List Iocall} (h : r.iocalls v cs = .ok r') : Did v r r' := by
  induction cs generalizing r with
  | nil => exact Except.ok.inj h ▸ .refl
  | cons c cs ih =>
    obtain ⟨r₁, h1, h2⟩ := except_bind_ok.mp h
    exact (Op.iocall h1).did.trans (ih h2)

theorem did_moduleRun {code : ModuleCode} {again : TxnRun → Except TxnFault TxnRun}
    (hagain : ∀ r r', again r = .ok r' → Did v r r') (h : r.moduleRun v code again = .ok r') :
    Did v r r' := by
  unfold moduleRun at h
  by_cases hnone : r.txn.nextModule.1.isNone = true
  · simp only [hnone, if_true] at h
    obtain ⟨r₁, h1, h2⟩ := except_bind_ok.mp h
    exact (Op.next r).did.trans ((Op.setstate h1).did.trans (hagain _ _ h2))
  · simp only [hnone, if_false, Bool.false_eq_true] at h
    obtain ⟨r₁, h1, h⟩ := except_bind_ok.mp h
    obtain ⟨r₂, h2, h⟩ := except_bind_ok.mp h
    have hcode : Did v r r₂ := (Op.next r).did.trans ((Op.mark _ _).did.trans
      ((did_iocalls h1).trans (did_setstate h2)))
    refine hcode.trans ?_
    split at h
    · split at h
      · exact (Op.setstate h).did
      · exact Except.ok.inj h ▸ .refl
    · split at h
      · exact hagain _ _ h
      · split at h
        · exact Except.ok.inj h ▸ (Op.goOn r₂).did
        · obtain ⟨r₃, h3, h4⟩ := except_bind_ok.mp h
          exact (Op.setstate h3).did.trans (hagain _ _ h4)

theorem did_modulePack {pack : ModuleCode} {again : TxnRun → Except TxnFault TxnRun}
    (hagain : ∀ r r', again r = .ok r' → Did v r r') (h : r.modulePack v pack again = .ok r') :
    Did v r r' := by
  unfold modulePack at h
  split at h
  · exact absurd h (by simp)
  · split at h
    · obtain ⟨r₁, h1, h2⟩ := except_bind_ok.mp h
      exact (Op.setstate h1).did.trans (hagain _ _ h2)
    · obtain ⟨r₁, h1, h⟩ := except_bind_ok.mp h
      obtain ⟨r₂, h2, h3⟩ := except_bind_ok.mp h
      exact (Op.mark r _).did.trans ((did_iocalls h1).trans
        ((Op.mark r₁ _).did.trans ((Op.setstate h2).did.trans (hagain _ _ h3))))

/-- **A whole run** is a sequence of them. -/
theorem run_did {code : UserCode} (depth : Nat) : ∀ {r r' : TxnRun},
    r.run v code depth = .ok r' → Did v r r' := by
  induction depth with
  | zero => intro r r' h; exact absurd h (by simp [run])
  | succ depth ih =>
    intro r r' h
    simp only [run] at h
    obtain ⟨r₁, h1, h⟩ := except_bind_ok.mp h
    refine (did_setstate h1).trans ?_
    have hagain : ∀ r r' : TxnRun, r.run v code depth = .ok r' → Did v r r' := fun _ _ => ih
    cases hst : r.txn.state <;> simp only [hst] at h
    case init | unpacked | pending =>
      obtain ⟨r₂, h2, h3⟩ := except_bind_ok.mp h
      exact (Op.setstate h2).did.trans (ih h3)
    case running => exact did_moduleRun hagain h
    case completed | error | timeout => exact did_modulePack hagain h
    case packed =>
      obtain ⟨r₂, h2, h3⟩ := except_bind_ok.mp h
      exact (Op.setstate h2).did.trans (Except.ok.inj h3 ▸ (Op.destroy r₂).did)
    case destroyed => exact Except.ok.inj h ▸ (Op.destroy r₁).did

/-- So is the end of a call. -/
theorem did_iocallComplete {code : ModuleCode} {taskId : Nat}
    (h : r.iocallComplete v code taskId = .ok r') : Did v r r' := by
  unfold iocallComplete at h
  cases hk : r.txn.taskTbl[taskId]? with
  | none => simp [hk] at h
  | some k =>
    simp only [hk] at h
    split at h
    · obtain ⟨r₁, h1, h2⟩ := except_bind_ok.mp h
      exact (did_iocalls h1).trans (did_setstate h2)
    · exact Except.ok.inj h ▸ .refl

/-- So is a callback. -/
theorem svcTaskCb_did {code : ModuleCode} {t : TaskRef} {service : Nat} {status : TaskStatus}
    {done : Bool} (h : r.svcTaskCb v code t service status done = .ok r') : Did v r r' := by
  obtain ⟨-, k, r₁, -, -, h1, rfl⟩ := svcTaskCb_ok h
  have hfirst : Did v r r₁ := by
    split at h1
    · obtain ⟨txn, htxn, h1⟩ := except_bind_ok.mp h1
      simp only at h1
      split at h1
      · exact absurd h1 (by simp)
      · have hcomplete := (Op.complete (v := v) htxn).did
        exact hcomplete.trans ((Op.mark _ _).did.trans (did_iocallComplete h1))
    · exact Except.ok.inj h1 ▸ .refl
  have hreport := (Op.report (v := v) r₁ service
    (if k.cb then r₁.txn.moduleComplete else r₁.txn.alltaskComplete) done).did
  exact hfirst.trans (hreport.trans (Op.mark _ _).did)

/-! ### What they leave alone -/

/-- An operation keeps the workflow. -/
theorem Op.workflow (h : Op v r r') : r'.txn.workflow = r.txn.workflow := by
  cases h with
  | setstate h =>
    obtain ⟨rfl, -⟩ := setstate_ok h
    rfl
  | iocall h =>
    obtain ⟨es, hes⟩ := iocall_spec h
    exact hes.keeps.2.1
  | next => rw [nextModule_frame]
  | mark | goOn | report => rfl
  | destroy =>
    unfold txnLogAndDestroy
    split <;> rfl
  | @complete taskId status txn h =>
    unfold Txn.taskSetcomplete at h
    split at h
    · cases hk : r.txn.taskTbl[taskId]? with
      | none => simp [hk] at h
      | some k =>
        simp only [hk, Except.ok.injEq] at h
        rw [← h]
    · exact absurd h (by simp)

/-- **The workflow stays.** -/
theorem Did.workflow (h : Did v r r') : r'.txn.workflow = r.txn.workflow := by
  induction h with
  | refl => rfl
  | tail _ hop ih => exact hop.workflow.trans ih

end TxnRun

end Skull
