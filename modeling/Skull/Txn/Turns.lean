import Skull.Txn.Outcome
import Skull.Txn.Step
import Skull.Txn.Ops

namespace Skull

open Machines

/-!
# The messages that run a workflow

A transaction goes on when a `SK_PTO_WORKFLOW_RUN` for it is handled.  It is sent when the
transaction is delivered, by the handler for the next module, and by the master.

* `TxnRun.Turned`, `TxnRun.run_turned` — a run ends with its transaction destroyed, or leaves it as
  it is and sends one such message at most;
* `TxnSystem.runs` — how many of them there are for a transaction;
* `TxnSystem.Alike`, `TxnSystem.handle_alike` — what the handlers of other messages leave of it;
* `TxnSystem.handle_runs` — the messages that they send;
* `TxnSystem.exec_external` — both for a step without a message;
* `TxnSystem.Unheard` — nothing is about a transaction that was not delivered.
-/

/-- A `SK_PTO_WORKFLOW_RUN`. -/
def Event.isRun (e : Event) : Bool := e.pto = .workflowRun

/-- A `SK_PTO_WORKFLOW_RUN` for the transaction `x`. -/
def Event.runs (e : Event) (x : TxnId) : Bool := e.isRun && e.owner = .inl x

/-- An endpoint call is called back, or the timer of a job fires. -/
def TxnAction.external : TxnAction → Bool
  | .epCb .. | .jobTriggered _ | .npTriggered .. => true
  | .create .. | .deliver .. | .handle .. => false

/-- What resumes nothing runs nothing. -/
theorem Event.isRun_of_quiet {e : Event} (h : e.isResume = false) : e.isRun = false := by
  cases hpto : e.pto <;> simp [Event.isRun, hpto]
  simp [Event.isResume, hpto] at h

namespace TxnRun

variable {v : TxnEnv} {r r' r₁ : TxnRun}

/-- How many of them were sent. -/
def turns (r : TxnRun) : Nat := r.sent.countP (·.isRun)

/-- How a run ends. -/
inductive Turned (r r' : TxnRun) : Prop
  | ended (state : r'.txn.state = .destroyed) (turns : r'.turns = r.turns)
  | goesOn (state : r'.txn.state ≠ .destroyed) (released : r'.released = r.released)
    (turns : r'.turns ≤ r.turns + 1)

/-- Nothing was sent that runs the workflow, and nothing released. -/
structure Still (r r' : TxnRun) : Prop where
  turns : r'.turns = r.turns
  released : r'.released = r.released

theorem Still.trans (h : Still r r₁) (h' : Still r₁ r') : Still r r' :=
  ⟨h'.turns.trans h.turns, h'.released.trans h.released⟩

/-- Still, and then a turn. -/
theorem Still.turned (h : Still r r₁) (h' : Turned r₁ r') : Turned r r' := by
  cases h' with
  | ended state turns => exact .ended state (turns.trans h.turns)
  | goesOn state released turns =>
    exact .goesOn state (released.trans h.released) (h.turns ▸ turns)

/-- Still, and not destroyed. -/
theorem Still.goesOn (h : Still r r') (hst : r'.txn.state ≠ .destroyed) : Turned r r' :=
  .goesOn hst h.released (h.turns ▸ Nat.le_succ _)

/-- A change of state is still. -/
theorem setstate_still {st : TxnState} (h : r.setstate v st = .ok r') : Still r r' := by
  obtain ⟨rfl, -⟩ := setstate_ok h
  exact ⟨rfl, rfl⟩

theorem iocalls_still {cs : List Iocall} (h : r.iocalls v cs = .ok r') :
    Still r r' ∧ r'.txn.state = r.txn.state := by
  obtain ⟨es, hes⟩ := iocalls_spec h
  refine ⟨⟨?_, hes.released⟩, hes.keeps.1⟩
  have hnone : es.countP (·.isRun) = 0 :=
    List.countP_eq_zero.mpr fun e he => by simp [Event.isRun_of_quiet (hes.quiet e he)]
  show r'.sent.countP (·.isRun) = r.sent.countP (·.isRun)
  rw [hes.sent, List.countP_append, hnone, add_zero]

/-- The end of a transaction is its last turn. -/
theorem txnLogAndDestroy_turned (hst : r.txn.state = .destroyed) : Turned r r.txnLogAndDestroy := by
  unfold txnLogAndDestroy
  split
  · exact .ended hst rfl
  · exact .ended hst rfl

/-- A run of a module is a turn. -/
theorem moduleRun_turned {code : ModuleCode} {again : TxnRun → Except TxnFault TxnRun}
    (hagain : ∀ r r', again r = .ok r' → Turned r r') (hst : r.txn.state ≠ .destroyed)
    (h : r.moduleRun v code again = .ok r') : Turned r r' := by
  unfold moduleRun at h
  by_cases hnone : r.txn.nextModule.1.isNone = true
  · simp only [hnone, if_true] at h
    obtain ⟨r₁, h1, h2⟩ := except_bind_ok.mp h
    have hstart : Still r { r with txn := r.txn.nextModule.2 } := ⟨rfl, rfl⟩
    exact (hstart.trans (setstate_still h1)).turned (hagain _ _ h2)
  · simp only [hnone, if_false, Bool.false_eq_true] at h
    obtain ⟨r₁, h1, h⟩ := except_bind_ok.mp h
    obtain ⟨r₂, h2, h⟩ := except_bind_ok.mp h
    obtain ⟨hstill₁, hst₁⟩ := iocalls_still h1
    have hnext : r.txn.nextModule.2.state = r.txn.state := by rw [nextModule_frame]
    have hst₁' : r₁.txn.state ≠ .destroyed := by
      rw [hst₁]
      exact hnext ▸ hst
    have hstart : Still r r₁ := ⟨hstill₁.turns, hstill₁.released⟩
    obtain ⟨hstill, hst₂⟩ : Still r r₂ ∧ r₂.txn.state ≠ .destroyed := by
      split at h2
      · obtain ⟨hset, -⟩ := setstate_keeps h2
        exact ⟨hstart.trans (setstate_still h2), by simp [hset]⟩
      · exact Except.ok.inj h2 ▸ ⟨hstart, hst₁'⟩
    split at h
    · split at h
      · obtain ⟨hset, -⟩ := setstate_keeps h
        exact (hstill.trans (setstate_still h)).goesOn (by simp [hset])
      · exact Except.ok.inj h ▸ hstill.goesOn hst₂
    · split at h
      · exact hstill.turned (hagain _ _ h)
      · split at h
        · -- the next module is due
          rw [← Except.ok.inj h]
          refine .goesOn hst₂ hstill.released ?_
          have hone : ([⟨v.sched, v.sched, .inl v.id, .workflowRun⟩] : List Event).countP
              (·.isRun) = 1 := rfl
          show (r₂.sent ++ _).countP (·.isRun) ≤ r.turns + 1
          rw [List.countP_append, hone, ← hstill.turns]
          exact le_refl _
        · obtain ⟨r₃, h3, h4⟩ := except_bind_ok.mp h
          exact (hstill.trans (setstate_still h3)).turned (hagain _ _ h4)

theorem modulePack_turned {pack : ModuleCode} {again : TxnRun → Except TxnFault TxnRun}
    (hagain : ∀ r r', again r = .ok r' → Turned r r') (h : r.modulePack v pack again = .ok r') :
    Turned r r' := by
  unfold modulePack at h
  split at h
  · exact absurd h (by simp)
  · split at h
    · obtain ⟨r₁, h1, h2⟩ := except_bind_ok.mp h
      exact (setstate_still h1).turned (hagain _ _ h2)
    · obtain ⟨r₁, h1, h⟩ := except_bind_ok.mp h
      obtain ⟨r₂, h2, h3⟩ := except_bind_ok.mp h
      obtain ⟨hstill, -⟩ := iocalls_still h1
      have hpacked : Still r r₂ :=
        ⟨(setstate_still h2).turns.trans hstill.turns,
          (setstate_still h2).released.trans hstill.released⟩
      exact hpacked.turned (hagain _ _ h3)

/-- **How a run ends**: its transaction is destroyed, and nothing runs it again; or it is not
    released, and one message may run it again. -/
theorem run_turned {code : UserCode} (depth : Nat) : ∀ {r r' : TxnRun},
    r.run v code depth = .ok r' → Turned r r' := by
  induction depth with
  | zero => intro r r' h; exact absurd h (by simp [run])
  | succ depth ih =>
    intro r r' h
    simp only [run] at h
    obtain ⟨r₁, h1, h⟩ := except_bind_ok.mp h
    have hagain : ∀ r r' : TxnRun, r.run v code depth = .ok r' → Turned r r' := fun _ _ => ih
    -- the check of the clock
    obtain ⟨hstill, hst₁⟩ : Still r r₁ ∧ (r.txn.state ≠ .destroyed → r₁.txn.state ≠ .destroyed) ∧
        (r.txn.state = .destroyed → r₁ = r) := by
      split at h1
      · obtain ⟨hset, -⟩ := setstate_keeps h1
        refine ⟨setstate_still h1, fun _ => by simp [hset], fun hd => ?_⟩
        exact absurd (setstate_ok h1).2 (by simp [hd])
      · exact Except.ok.inj h1 ▸ ⟨⟨rfl, rfl⟩, id, fun _ => rfl⟩
    cases hst : r.txn.state <;> simp only [hst] at h
    case init | unpacked | pending =>
      obtain ⟨r₂, h2, h3⟩ := except_bind_ok.mp h
      exact (hstill.trans (setstate_still h2)).turned (ih h3)
    case running => exact hstill.turned (moduleRun_turned hagain (hst₁.1 (by simp [hst])) h)
    case completed | error | timeout => exact hstill.turned (modulePack_turned hagain h)
    case packed =>
      obtain ⟨r₂, h2, h3⟩ := except_bind_ok.mp h
      obtain ⟨hset, -⟩ := setstate_keeps h2
      exact (hstill.trans (setstate_still h2)).turned
        (Except.ok.inj h3 ▸ txnLogAndDestroy_turned hset)
    case destroyed =>
      rw [hst₁.2 hst] at h
      exact Except.ok.inj h ▸ txnLogAndDestroy_turned hst

/-- A destroyed transaction stays so. -/
theorem workflowRun_destroyed {code : UserCode} (hst : r.txn.state = .destroyed)
    (h : r.workflowRun v code = .ok r') : r'.txn.state = .destroyed := by
  have hrun : r.run v code (3 + 1) = .ok r' := h
  simp only [run, hst] at hrun
  obtain ⟨r₁, h1, h2⟩ := except_bind_ok.mp hrun
  have hsame : r₁.txn.state = .destroyed := by
    split at h1
    · exact absurd (setstate_ok h1).2 (by simp [hst])
    · exact Except.ok.inj h1 ▸ hst
  rw [← Except.ok.inj h2, (txnLogAndDestroy_txn r₁).1]
  exact hsame

end TxnRun

namespace TxnSystem

variable {s s' : TxnSystem} {bioCnt : Nat}

/-- How many messages run the transaction `x`. -/
def runs (s : TxnSystem) (x : TxnId) : Nat := s.net.countP (·.runs x)

/-- A message that is taken may be a run. -/
theorem runs_take {i : Nat} {e : Event} (h : s.net[i]? = some e) (x : TxnId) :
    s.runs x = (e.runs x).toNat + ({ s with net := s.net.eraseIdx i } : TxnSystem).runs x := by
  rw [runs, (perm_take h).countP_eq, List.countP_cons, runs]
  cases e.runs x <;> simp [add_comm]

/-- So may those that are sent. -/
theorem runs_sent (s : TxnSystem) (es : List Event) (x : TxnId) :
    ({ s with net := s.net ++ es } : TxnSystem).runs x = s.runs x + es.countP (·.runs x) :=
  List.countP_append

/-- Messages that run no workflow. -/
theorem countP_runs_none {es : List Event} (h : ∀ e ∈ es, e.isRun = false) (x : TxnId) :
    es.countP (·.runs x) = 0 :=
  List.countP_eq_zero.mpr fun e he => by simp [Event.runs, h e he]

/-- Messages of one transaction. -/
theorem countP_runs_owner {es : List Event} {x : TxnId} (h : ∀ e ∈ es, e.owner = .inl x)
    (y : TxnId) : es.countP (·.runs y) = if y = x then es.countP (·.isRun) else 0 := by
  split
  · rename_i hy
    subst hy
    exact List.countP_congr fun e he => by simp [Event.runs, h e he]
  · rename_i hy
    have hy' : x ≠ y := fun he => hy he.symm
    exact List.countP_eq_zero.mpr fun e he => by simp [Event.runs, h e he, hy']

/-- How many messages run each transaction after a handler on the transaction `x`. -/
theorem runs_commit {i : Nat} {e : Event} (hi : s.net[i]? = some e) {x : TxnId}
    (he : e.runs x = true) {r : TxnRun} (hsent : ∀ b ∈ r.sent, b.owner = .inl x) (y : TxnId) :
    (({ s with net := s.net.eraseIdx i } : TxnSystem).commit x r).runs y =
      if y = x then s.runs x - 1 + r.turns else s.runs y := by
  have htake := runs_take hi y
  have hruns : (({ s with net := s.net.eraseIdx i } : TxnSystem).commit x r).runs y =
      ({ s with net := s.net.eraseIdx i } : TxnSystem).runs y + r.sent.countP (·.runs y) :=
    runs_sent { s with net := s.net.eraseIdx i } r.sent y
  rw [hruns, countP_runs_owner hsent, TxnRun.turns]
  by_cases hy : y = x
  · subst hy
    rw [he, Bool.toNat_true] at htake
    rw [if_pos rfl, if_pos rfl]
    omega
  · have hown : e.owner = .inl x := by simpa [Event.runs] using (Bool.and_eq_true_iff.mp he).2
    have hyx : x ≠ y := fun he => hy he.symm
    have hother : e.runs y = false := by simp [Event.runs, hown, hyx]
    rw [hother, Bool.toNat_false] at htake
    rw [if_neg hy, if_neg hy]
    omega

/-- A message that runs a workflow resumes its transaction. -/
theorem runs_zero (hinv : s.Inv) {x : TxnId} (hx : s.txns.length ≤ x) : s.runs x = 0 := by
  have hle : s.runs x ≤ s.resumes x := by
    refine List.countP_mono_left fun e _ he => ?_
    obtain ⟨hrun, hown⟩ := Bool.and_eq_true_iff.mp he
    have hpto : e.pto = .workflowRun := by simpa [Event.isRun] using hrun
    simpa [Event.resumes, Event.isResume, hpto] using hown
  exact Nat.le_zero.mp (hle.trans_eq (resumes_zero hinv hx))

/-- A message that runs no workflow is replaced by others. -/
theorem runs_replace {i : Nat} {e : Event} (hi : s.net[i]? = some e) (he : e.isRun = false)
    {es : List Event} (hnet : s'.net = s.net.eraseIdx i ++ es) (x : TxnId) :
    s'.runs x = s.runs x + es.countP (·.runs x) := by
  have htake := runs_take hi x
  rw [show e.runs x = false by simp [Event.runs, he], Bool.toNat_false, zero_add] at htake
  rw [runs, hnet, List.countP_append, htake]
  rfl

/-- Others that run none, either. -/
theorem runs_calm {i : Nat} {e : Event} (hi : s.net[i]? = some e) (he : e.isRun = false)
    {es : List Event} (hnet : s'.net = s.net.eraseIdx i ++ es) (hes : ∀ b ∈ es, b.isRun = false)
    (x : TxnId) : s'.runs x = s.runs x := by
  rw [runs_replace hi he hnet, countP_runs_none hes, add_zero]

/-- A task is offered to a service. -/
theorem runs_offer {i : Nat} {e : Event} (hi : s.net[i]? = some e) (he : e.isRun = false)
    {k : Nat} {svc : Service} {q : SrvTask} {r : (SrvTask × (Event ⊕ List Scheduled)) × Service}
    (ho : svc.Offered bioCnt q r) (x : TxnId) :
    (afterOffer k { s with net := s.net.eraseIdx i } r).runs x = s.runs x := by
  cases ho with
  | @busy svc' hqueued hname hapis =>
    refine runs_calm hi he rfl (fun b hb => ?_) x
    rw [List.mem_singleton.mp hb]
    cases hd : q.data <;> simp [SrvTask.busyEvent, hd, Event.isRun]
  | @queued svc₁ svc' xs hqueued hname hapis hround =>
    obtain ⟨hes, -⟩ := round_calm hround
    exact runs_calm hi he rfl (fun b hb => Event.isRun_of_quiet (hes b hb)) x

/-- **What is sent** by the handler of a message that runs no workflow: the master sends one
    `SK_PTO_WORKFLOW_RUN` for a `SK_PTO_SVC_TASK_DONE` that says so. -/
theorem handle_runs {i : Nat} {e : Event} (hi : s.net[i]? = some e) (he : e.isRun = false)
    {code : UserCode}
    (hx : ({ s with net := s.net.eraseIdx i } : TxnSystem).handle bioCnt e code = .ok s')
    (x : TxnId) : s'.runs x = s.runs x + (e.resumes x).toNat := by
  have hquiet : e.isResume = false → (e.resumes x).toNat = 0 := fun hq => by
    simp [Event.resumes, hq]
  unfold TxnSystem.handle at hx
  cases hpto : e.pto with
  | workflowRun => exact absurd he (by simp [Event.isRun, hpto])
  | svcTaskCb t service api status done =>
    simp only [hpto] at hx
    obtain ⟨y, slot, r, howner, -, -, hr, rfl⟩ := onTxn_ok hx
    rw [hquiet (by simp [Event.isResume, hpto]), add_zero]
    obtain ⟨-, r₁, r₂, es, ms, k, hcomp, hset, -, -, rfl⟩ := TxnRun.svcTaskCb_spec hr
    -- neither a callback nor its report is a message to run
    refine runs_calm hi he rfl (fun b hb => ?_) x
    simp only [hset.sent, hcomp.sent, List.nil_append] at hb
    rcases List.mem_append.mp hb with hb | hb
    · exact Event.isRun_of_quiet (hset.quiet b hb)
    · rw [List.mem_singleton.mp hb]
      rfl
  | svcTaskRun service api io caller t =>
    simp only [hpto] at hx
    obtain ⟨s₁, k, h1, -, rfl⟩ := svcTaskRun_ok hx
    rw [hquiet (by simp [Event.isResume, hpto]), add_zero]
    refine runs_calm hi he (by rw [TxnSystem.send, (pendingCalls_counted h1).net])
      (fun b hb => ?_) x
    rw [List.mem_singleton.mp hb]
    rfl
  | svcTimerRun service ud valid status interval =>
    simp only [hpto] at hx
    obtain ⟨t, s₂, es, hc, rfl, hes⟩ := svcTimerRun_counted hx
    rw [hquiet (by simp [Event.isResume, hpto]), add_zero]
    refine runs_calm hi he (by rw [TxnSystem.send, hc.net, List.append_assoc]) (fun b hb => ?_) x
    rcases List.mem_append.mp hb with hb | hb
    · exact Event.isRun_of_quiet (answers_calm hes b hb)
    · rw [List.mem_singleton.mp hb]
      rfl
  -- the master queues the call
  | svcIocall service api bidx t =>
    simp only [hpto] at hx
    cases howner : e.owner with
    | inr entity => simp [howner] at hx
    | inl y =>
      simp only [howner] at hx
      obtain ⟨svc, r, hsvc, hr, rfl⟩ := onService_ok hx
      obtain ⟨type, ho⟩ := Service.svcIocall_conserves hr
      rw [hquiet (by simp [Event.isResume, hpto]), add_zero]
      exact runs_offer hi he ho x
  | timerEmit service ud valid bidx type interval =>
    simp only [hpto] at hx
    cases howner : e.owner with
    | inl y => simp [howner] at hx
    | inr entity =>
      simp only [howner] at hx
      obtain ⟨svc, r, hsvc, hr, rfl⟩ := onService_ok hx
      rw [hquiet (by simp [Event.isResume, hpto]), add_zero]
      exact runs_offer hi he (Service.timerEmit_conserves hr) x
  | svcTaskDone service resumeWf done =>
    simp only [hpto] at hx
    obtain ⟨svc, ⟨xs, svc'⟩, hsvc, hr, rfl⟩ := onService_ok hx
    obtain ⟨hes, -⟩ := round_calm (Service.svcTaskDone_conserves hr)
    have hround : ∀ b ∈ xs.map Scheduled.event, b.isRun = false :=
      fun b hb => Event.isRun_of_quiet (hes b hb)
    -- only a report that says so makes a message to run, and it makes one
    cases resumeWf with
    | false =>
      rw [hquiet (by simp [Event.isResume, hpto]), add_zero]
      exact runs_calm hi he rfl hround x
    | true =>
      have hnet : (afterRound service (TxnSystem.send { s with net := s.net.eraseIdx i }
          ⟨e.dst, e.src, e.owner, .workflowRun⟩) (xs, svc')).net = s.net.eraseIdx i ++
          ⟨e.dst, e.src, e.owner, .workflowRun⟩ :: xs.map Scheduled.event := by
        simp [afterRound, TxnSystem.send]
      rw [if_pos rfl, runs_replace hi he hnet, List.countP_cons, countP_runs_none hround, zero_add]
      by_cases hown : e.owner = .inl x <;>
        simp [Event.runs, Event.isRun, Event.resumes, Event.isResume, hpto, hown]
  | svcTimerDone service status interval =>
    simp only [hpto] at hx
    obtain ⟨svc, ⟨xs, svc'⟩, hsvc, hr, rfl⟩ := onService_ok hx
    obtain ⟨hes, -⟩ := round_calm (Service.svcTimerDone_conserves hr)
    rw [hquiet (by simp [Event.isResume, hpto]), add_zero]
    exact runs_calm hi he rfl (fun b hb => Event.isRun_of_quiet (hes b hb)) x

/-! ### What other steps leave of a transaction -/

/-- What stays of a transaction while it does not run. -/
structure Alike (slot slot' : TxnSlot) : Prop where
  home : slot'.home = slot.home
  delivered : slot'.delivered = slot.delivered
  released : slot'.released = slot.released
  workflow : slot'.txn.workflow = slot.txn.workflow
  destroyed : slot'.txn.state = .destroyed ↔ slot.txn.state = .destroyed

/-- The transactions are the same, one by one. -/
structure AlikeAll (s s' : TxnSystem) : Prop where
  length : s'.txns.length = s.txns.length
  slot : ∀ (x : TxnId) slot', s'.txns[x]? = some slot' →
    ∃ slot, s.txns[x]? = some slot ∧ Alike slot slot'

/-- What happens aside leaves all transactions alike. -/
theorem Aside.alikeAll (h : Aside s s') : AlikeAll s s' := by
  refine ⟨by simpa using congrArg List.length h.bare, fun x slot' hslot' => ?_⟩
  obtain ⟨slot, hslot, hb⟩ := h.slot hslot'
  have hst : slot'.txn.state = slot.txn.state := congrArg (·.txn.state) hb
  exact ⟨slot, hslot, congrArg (·.home) hb, congrArg (·.delivered) hb, congrArg (·.released) hb,
    congrArg (·.txn.workflow) hb, by rw [hst]⟩

/-- **The handler of a message that runs no workflow** leaves the transactions the same. -/
theorem handle_alike (hinv : s.Inv) {i : Nat} {e : Event} (hi : s.net[i]? = some e)
    (hfirst : ∀ e' ∈ s.net.take i, e'.key ≠ e.key) (he : e.isRun = false) {code : UserCode}
    (hx : ({ s with net := s.net.eraseIdx i } : TxnSystem).handle bioCnt e code = .ok s') :
    AlikeAll s s' := by
  cases handle_stepped hi hfirst hx with
  | @workflowRun i e' code x slot r hi' hpto howner hslot hrel hr =>
    obtain rfl := Option.some.inj (hi.symm.trans hi')
    exact absurd he (by simp [Event.isRun, hpto])
  | @taskCb i e' code x slot r t service api status done hi' hfirst' hpto howner hslot hrel hr =>
    have ha := hinv.answered hi' hfirst' hpto howner hslot hr
    have hst : r.txn.state = .destroyed ↔ slot.txn.state = .destroyed := by
      obtain ⟨ms, ms', ⟨-, -, hst⟩ | ⟨-, -, hst, hne⟩⟩ := ha.log
      · rw [hst]
      · simp [hst, hne]
    have htxns := txns_commit (s := { s with net := s.net.eraseIdx i }) hslot r
    refine ⟨by simp [commit], fun y slot' hslot' => ?_⟩
    rw [htxns y] at hslot'
    by_cases hy : y = x
    · subst hy
      rw [if_pos rfl] at hslot'
      obtain rfl := Option.some.inj hslot'
      exact ⟨slot, hslot, rfl, rfl, ha.released.trans hrel.symm, ha.workflow, hst⟩
    · rw [if_neg hy] at hslot'
      exact ⟨slot', hslot', rfl, rfl, rfl, rfl, Iff.rfl⟩
  | aside ha => exact ha.alikeAll

/-- **A step without a message** leaves the transactions the same, and runs none. -/
theorem exec_external {a : TxnAction} (ha : a.external = true) (he : s.enabled bioCnt a)
    (hx : s.exec bioCnt a = .ok s') : AlikeAll s s' ∧ ∀ x, s'.runs x = s.runs x := by
  have hsent : ∀ (s₁ : TxnSystem) {es : List Event}, s₁.net = s.net →
      (∀ b ∈ es, b.isRun = false) → ∀ x,
      ({ s₁ with net := s₁.net ++ es } : TxnSystem).runs x = s.runs x := by
    intro s₁ es hnet hes x
    rw [runs_sent, countP_runs_none hes, add_zero, runs, hnet, runs]
  -- a step from outside is one aside
  have hsame : AlikeAll s s' := by
    cases exec_stepped he hx with
    | aside h => exact h.alikeAll
    | create | deliver | workflowRun | taskCb => exact absurd ha (by simp [TxnAction.external])
  refine ⟨hsame, ?_⟩
  cases a with
  | create | deliver | handle => exact absurd ha (by simp [TxnAction.external])
  -- what each of them sends is no message to run
  | epCb i calls =>
    obtain ⟨c, hi, -⟩ := he
    rw [Option.mem_def] at hi
    simp only [exec, hi] at hx
    obtain ⟨s₂, es, hc, rfl, hes⟩ := pendingCb_counted hx
    exact hsent s₂ hc.net fun b hb => Event.isRun_of_quiet (answers_calm hes b hb)
  | jobTriggered i =>
    obtain ⟨c, hi, hjob⟩ := he
    rw [Option.mem_def] at hi
    obtain ⟨ud, hud⟩ := Option.isSome_iff_exists.mp hjob
    simp only [exec, hi, hud] at hx
    rw [← Except.ok.inj hx]
    refine hsent { s with calls := s.calls.eraseIdx i } rfl fun b hb => ?_
    rw [List.mem_singleton.mp hb]
    rfl
  | npTriggered src service entity id rw bidx interval =>
    rw [← Except.ok.inj hx]
    refine hsent s rfl fun b hb => ?_
    rw [List.mem_singleton.mp hb]
    rfl

/-! ### Before the delivery -/

/-- A transaction that was not delivered has no tasks, and nothing resumes it. -/
def Unheard (s : TxnSystem) : Prop :=
  ∀ (x : TxnId) (slot : TxnSlot), s.txns[x]? = some slot → slot.delivered = false →
    slot.txn.totalTasks = 0 ∧ slot.released = false ∧ s.resumes x = 0

/-- A handler on a transaction that was delivered. -/
theorem Unheard.commit (h : s.Unheard) {i : Nat} {e : Event} (hi : s.net[i]? = some e) {x : TxnId}
    (howner : e.owner = .inl x) {slot : TxnSlot} (hslot : s.txns[x]? = some slot)
    (hdel : slot.delivered = true) {r : TxnRun} (hsent : ∀ b ∈ r.sent, b.owner = .inl x) :
    (({ s with net := s.net.eraseIdx i } : TxnSystem).commit x r).Unheard := by
  intro y slot' hslot' hdel'
  rw [resumes_commit hi howner hsent]
  rw [txns_commit (s := { s with net := s.net.eraseIdx i }) hslot] at hslot'
  by_cases hy : y = x
  · rw [if_pos hy] at hslot'
    rw [← Option.some.inj hslot'] at hdel'
    exact absurd (hdel.symm.trans hdel') (by simp)
  · rw [if_neg hy] at hslot' ⊢
    exact h y slot' hslot' hdel'

/-- **Every step** leaves a destroyed transaction alone. -/
theorem exec_unheard (hinv : s.Inv) (h : s.Unheard) {a : TxnAction} (he : s.enabled bioCnt a)
    (hx : s.exec bioCnt a = .ok s') : s'.Unheard := by
  cases exec_stepped he hx with
  | create workflow home now immediate =>
    intro x slot hslot hdel
    -- the one that is new has never been sent
    by_cases hlt : x < s.txns.length
    · exact h x slot ((List.getElem?_append_left hlt).symm.trans hslot) hdel
    · rw [List.getElem?_append_right (Nat.not_lt.mp hlt), List.getElem?_singleton] at hslot
      split at hslot
      · rw [← Option.some.inj hslot]
        exact ⟨rfl, rfl, resumes_zero hinv (Nat.not_lt.mp hlt)⟩
      · exact absurd hslot (by simp)
  | @deliver x src slot hslot hdel =>
    intro y slot' hslot' hdel'
    rw [resumes_deliver]
    simp only [TxnSystem.send] at hslot'
    -- the one that was delivered is no longer unheard
    by_cases hy : y = x
    · subst hy
      rw [List.getElem?_modify_eq, hslot] at hslot'
      rw [← Option.some.inj hslot'] at hdel'
      exact absurd hdel' (by simp)
    · have hne : x ≠ y := fun he => hy he.symm
      rw [List.getElem?_modify_ne _ _ hne] at hslot'
      rw [if_neg hy, add_zero]
      exact h y slot' hslot' hdel'
  | @workflowRun i e code x slot r hi hpto howner hslot hrel hr =>
    obtain ⟨es, ms, hsent, -, hg⟩ := TxnRun.run_grew _ hr
    simp only [List.nil_append] at hsent
    -- a message to run is there, so it was delivered
    have hdel : slot.delivered = true := by
      by_contra hd
      have hzero := (h x slot hslot (by simpa using hd)).2.2
      have htake := resumes_take hi x
      rw [show e.resumes x = true by simp [Event.resumes, Event.isResume, hpto, howner]] at htake
      simp only [Bool.toNat_true] at htake
      omega
    exact h.commit hi howner hslot hdel fun b hb => (hg.sends b (hsent ▸ hb)).owner
  | @taskCb i e code x slot r t service api status done hi hfirst hpto howner hslot hrel hr =>
    have ha := hinv.answered hi hfirst hpto howner hslot hr
    -- a task is there, so it has run before
    have hdel : slot.delivered = true := by
      by_contra hd
      exact ha.tasks (h x slot hslot (by simpa using hd)).1
    exact h.commit hi howner hslot hdel ha.owners
  | aside ha =>
    -- nothing of it changes beside
    intro x slot hslot hdel
    obtain ⟨slot₀, hslot₀, hb⟩ := ha.slot hslot
    have hdel₀ : slot.delivered = slot₀.delivered := congrArg (·.delivered) hb
    have htotal : slot.txn.totalTasks = slot₀.txn.totalTasks := congrArg (·.txn.totalTasks) hb
    have hrel : slot.released = slot₀.released := congrArg (·.released) hb
    rw [ha.resumes, htotal, hrel]
    exact h x slot₀ hslot₀ (hdel₀ ▸ hdel)

/-- In every state of every run. -/
theorem reach_unheard {C : TxnSystem → TxnAction → Prop} (h : (machine bioCnt).Reach C s) :
    s.Unheard := by
  refine (h.invariant (I := fun s => s.Inv ∧ s.Unheard) (fun s hs => ⟨init_inv hs, ?_⟩)
    fun s a t hs he _ hx => ⟨exec_inv hs.1 he hx, exec_unheard hs.1 hs.2 he hx⟩).2
  intro x slot hslot
  rw [hs.2.1] at hslot
  exact absurd hslot (by simp)

end TxnSystem

end Skull
