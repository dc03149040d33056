import Skull.Txn.Step
import Skull.Txn.Run
import Skull.Txn.Known
import Skull.Txn.Completion

namespace Skull

open Machines

/-!
# A service call that fails

The handler of `SK_PTO_SVC_TASK_RUN` means to tell the caller that a task was run even if its
body failed, or else the module would hang.  It asserts that the body did not fail, though:

* `TxnSystem.exec_svcTaskRun` — what the handler does to a body that does not fail;
* `TxnSystem.Lively` — a transaction whose tasks are all complete is about to be resumed;
* `TxnSystem.taskRun_contained` — a body is contained exactly when it does not fail.
-/

namespace TxnRun

variable {v : TxnEnv} {code : UserCode}

/-- The run released its transaction, left a task incomplete, or resumes the transaction. -/
def Attended (r : TxnRun) : Prop :=
  r.released = true ∨ r.txn.alltaskComplete = false ∨ ∃ b ∈ r.sent, b.isResume = true

/-- While the module is not complete, a task is not. -/
theorem attended_of_waiting {r : TxnRun} (hc : r.txn.Counts) (hm : r.txn.moduleComplete = false) :
    r.Attended := by
  refine .inr (.inl ?_)
  by_contra hall
  have hcomp := hc.moduleComplete_of_all (by simpa using hall)
  exact absurd (hcomp.symm.trans hm) (by simp)

/-- The end of a transaction attends to the message. -/
theorem txnLogAndDestroy_attended {r : TxnRun} : r.txnLogAndDestroy.Attended := by
  unfold txnLogAndDestroy
  split
  · rename_i hlt
    refine .inr (.inl ?_)
    simp only [Txn.alltaskComplete, decide_eq_false_iff_not]
    omega
  · exact .inl rfl

/-- **A whole run** leaves its transaction attended. -/
theorem run_attended (depth : Nat) : ∀ {r r' : TxnRun}, r.txn.Counts →
    r.run v code depth = .ok r' → r'.Attended := by
  induction depth with
  | zero => intro r r' _ h; exact absurd h (by simp [run])
  | succ depth ih =>
    intro r r' hc hr
    have hchecked : (r.checked v (code.clock depth)).txn.Counts := checked_counts hc _
    cases hst : r.txn.state with
    | init | unpacked | pending =>
      rw [run_starting (by simp [hst])] at hr
      exact ih (goto_counts hchecked) hr
    | running =>
      rw [run_running hst] at hr
      have halive : (r.checked v (code.clock depth)).txn.state ≠ .destroyed ∧
          (r.checked v (code.clock depth)).txn.state ≠ .init := by
        rw [checked_state]
        split <;> simp [hst]
      have hmod := moduleRun_eq (v := v) code.run (run v code depth) hchecked halive
      split at hmod
      · rw [hmod] at hr
        exact ih (goto_counts (nextModule_counts hchecked)) hr
      · obtain ⟨r₁, es, henter, heq⟩ := hmod
        have hc₁ : r₁.txn.Counts := henter.counts hchecked
        rw [heq] at hr
        split at hr
        · rename_i hwait
          rw [← Except.ok.inj hr]
          -- a call that it waits for is not complete
          have hm : r₁.txn.moduleComplete = false := by simpa using hwait
          split <;> exact attended_of_waiting (goto_counts hc₁) hm
        · split at hr
          · exact ih (goto_counts hc₁) hr
          · split at hr
            · rw [← Except.ok.inj hr]
              -- it goes on through a message to itself
              exact .inr (.inr ⟨_, List.mem_append_right _ (List.mem_singleton_self _), rfl⟩)
            · exact ih (goto_counts hc₁) hr
    | completed | error | timeout =>
      rw [run_packing (by simp [hst])] at hr
      have hpack := modulePack_eq (v := v) code.pack (run v code depth) hchecked
        (checked_alive (by simp [hst]) _)
      split at hpack
      · rw [hpack] at hr
        exact absurd hr (by simp)
      · obtain ⟨r₁, hpacks, heq⟩ := hpack
        exact ih hpacks.counts (heq.symm.trans hr)
    | packed =>
      rw [run_packed hst] at hr
      exact Except.ok.inj hr ▸ txnLogAndDestroy_attended
    | destroyed =>
      rw [run_destroyed hst] at hr
      split at hr
      · exact absurd hr (by simp)
      · exact Except.ok.inj hr ▸ txnLogAndDestroy_attended

end TxnRun

namespace TxnSystem

variable {s s' : TxnSystem} {bioCnt : Nat}

/-! ### A body that does not fail -/

/-- A task of a transaction that is not released can be read. -/
theorem task_eq {t : TaskRef} {slot : TxnSlot} (hslot : s.txns[t.txn]? = some slot)
    (hrel : slot.released = false) {k : TxnTask} (hk : s.entry t = some k) : s.task t = .ok k := by
  rw [entry_eq hslot] at hk
  simp [task, hslot, hrel, hk]

/-- The pending calls of a task that can be read go out, and it can be read after them. -/
theorem pendingCalls_ok (sched : Sched) (service : Nat) {t : TaskRef} (kinds : List PendingKind)
    {k : TxnTask} (hk : s.task t = .ok k) :
    ∃ s' k', s.pendingCalls sched service t kinds = .ok s' ∧ s'.task t = .ok k' := by
  induction kinds generalizing s k with
  | nil => exact ⟨s, k, rfl, hk⟩
  | cons kind kinds ih =>
    obtain ⟨slot, hslot, hrel, htbl⟩ := task_ok hk
    obtain ⟨-, -, hentry⟩ := counted_setTask hk (k.pendings + 1)
    have hslot' := txns_setTask hslot { k with pendings := k.pendings + 1 } t.txn
    rw [if_pos rfl] at hslot'
    -- the first call counts itself
    obtain ⟨s₁, h₁, htxns⟩ : ∃ s₁, s.pendingCall sched service t kind = .ok s₁ ∧
        s₁.txns = (s.setTask t { k with pendings := k.pendings + 1 }).txns := by
      rw [pendingCall, hk]
      cases kind <;> exact ⟨_, rfl, rfl⟩
    have htask : s₁.task t = .ok { k with pendings := k.pendings + 1 } := by
      rw [← htxns] at hslot'
      refine task_eq hslot' hrel ?_
      rw [← hentry, entry, entry, htxns]
    obtain ⟨s₂, k₂, h₂, htask₂⟩ := ih htask
    exact ⟨s₂, k₂, except_bind_ok.mpr ⟨s₁, h₁, h₂⟩, htask₂⟩

/-- A task that runs is there, on behalf of its own transaction. -/
theorem Inv.running (h : s.Inv) {i : Nat} {e : Event} (hi : s.net[i]? = some e) {t : TaskRef}
    {service api : Nat} {io : IoStatus} {caller : Sched}
    (hpto : e.pto = .svcTaskRun service api io caller t) :
    e.owner = .inl t.txn ∧ caller = s.home t.txn ∧ ∃ k, s.task t = .ok k := by
  obtain ⟨p, hp⟩ := h.accounts t
  have htok : e.token = some (stageFor e.owner t (.running caller)) := by rw [Event.token, hpto]
  have hshow := hp.stages
  rw [stages_take hi t, shows_some htok, if_pos rfl, Multiset.singleton_add] at hshow
  obtain ⟨-, howner, ha⟩ := stageFor_mem (u := t) rfl (Progress.mem_of_cons hshow)
  rw [ha] at hshow
  obtain ⟨rfl, rfl, -⟩ := Progress.of_running hshow
  obtain ⟨k, hk, -⟩ := hp.exists_entry (by simp)
  have hinc : k.incomplete = true := hp.entry.incomplete k hk
  obtain ⟨slot, hslot, hrel⟩ := ((h.completesOnce hk).alive hinc).2
  exact ⟨howner, rfl, k, task_eq hslot hrel hk⟩

/-- The message has the outcome the caller waits for: nothing aborts, the master sent it, and
    exactly one message goes back to the caller. -/
def Contained (bioCnt : Nat) (s : TxnSystem) (i : Nat) (code : UserCode) (e : Event)
    (service api : Nat) (caller : Sched) (t : TaskRef) : Prop :=
  e.src = .master ∧ ∃ s' status, s.exec bioCnt (.handle i code) = .ok s' ∧
    s'.net = s.net.eraseIdx i ++ [⟨e.dst, caller, e.owner, .svcTaskCb t service api status true⟩] ∧
    s'.services = s.services

/-- **The handler of `SK_PTO_SVC_TASK_RUN`**. -/
theorem exec_svcTaskRun (hinv : s.Inv) (hknown : s.Known) (htends : s.Tends bioCnt) {i : Nat}
    {e : Event} (hi : s.net[i]? = some e) (code : UserCode) {t : TaskRef} {service api : Nat}
    {io : IoStatus} {caller : Sched} (hpto : e.pto = .svcTaskRun service api io caller t) :
    if code.failed then s.exec bioCnt (.handle i code) = .error (.srv .taskFailed)
    else Contained bioCnt s i code e service api caller t := by
  -- the api of the body is there, or the call had been refused
  have hmem := List.mem_of_getElem? hi
  obtain ⟨svc, hsvc, hapi⟩ := hknown.net e hmem (service, some api) (by rw [Event.names, hpto]; rfl)
  have hsome : (svc.api api).isSome = true := hapi api rfl
  -- the message came from the master
  have hsrc : e.src = .master := by
    have hv := htends.valid e hmem
    rwa [Event.Valid, hpto] at hv
  obtain ⟨-, -, k, hk⟩ := hinv.running hi hpto
  set s₀ : TxnSystem := { s with net := s.net.eraseIdx i } with hs₀
  have hexec : s.exec bioCnt (.handle i code) = s₀.svcTaskRun e service api caller t code := by
    simp only [exec, hi, TxnSystem.handle, hpto, hs₀]
  have hsvc₀ : s₀.services[service]? = some svc := hsvc
  have hapi' : (svc.api api).isNone = false := by simpa [Option.isSome_iff_ne_none] using hsome
  split
  · rename_i hf
    simp [hexec, svcTaskRun, hsvc₀, hf]
  · rename_i hf
    -- the body does not fail: its calls are counted, and the answer is sent
    have hk₀ : s₀.task t = .ok k := hk
    obtain ⟨s₁, k₁, h₁, hk₁⟩ := pendingCalls_ok e.dst service code.calls hk₀
    have hc := pendingCalls_counted h₁
    set status : TaskStatus := if k₁.taskDone then .done else .pending
    refine ⟨hsrc, s₁.send ⟨e.dst, caller, e.owner, .svcTaskCb t service api status true⟩, status, ?_,
      ?_, hc.services⟩
    · rw [hexec]
      simp only [svcTaskRun, hsvc₀, hapi', hf, Bool.false_eq_true, or_self, if_false, h₁, hk₁, bind,
        Except.bind]
      rfl
    · rw [TxnSystem.send, hc.net]

/-! ### The transaction of a task is resumed -/

/-- **No transaction is forgotten.** When all tasks of a transaction that was delivered are
    complete, a message is under way that resumes it. -/
def Lively (s : TxnSystem) : Prop :=
  ∀ (x : TxnId) (slot : TxnSlot), s.txns[x]? = some slot → slot.delivered = true →
    slot.released = false → slot.txn.alltaskComplete = true → 0 < s.resumes x

/-- A handler on the transaction `x`. -/
theorem Lively.commit (h : s.Lively) {i : Nat} {e : Event} (hi : s.net[i]? = some e) {x : TxnId}
    (howner : e.owner = .inl x) {slot : TxnSlot} (hslot : s.txns[x]? = some slot) {r : TxnRun}
    (hsent : ∀ b ∈ r.sent, b.owner = .inl x) (hr : r.Attended) :
    (({ s with net := s.net.eraseIdx i } : TxnSystem).commit x r).Lively := by
  intro y slot' hslot' hdel hrel hall
  rw [resumes_commit hi howner hsent]
  rw [txns_commit (s := { s with net := s.net.eraseIdx i }) hslot] at hslot'
  by_cases hy : y = x
  · rw [if_pos hy] at hslot' ⊢
    rw [← Option.some.inj hslot'] at hrel hall
    rcases hr with hbad | hbad | ⟨b, hb, hres⟩
    · exact absurd (hrel.symm.trans hbad) (by simp)
    · exact absurd (hall.symm.trans hbad) (by simp)
    · have hpos : 0 < r.sent.countP (·.isResume) := List.countP_pos_iff.mpr ⟨b, hb, hres⟩
      omega
  · rw [if_neg hy] at hslot' ⊢
    exact h y slot' hslot' hdel hrel hall

/-- **Every step** forgets no transaction. -/
theorem exec_lively (hinv : s.Inv) (h : s.Lively) {a : TxnAction} (he : s.enabled bioCnt a)
    (hx : s.exec bioCnt a = .ok s') : s'.Lively := by
  cases exec_stepped he hx with
  | create workflow home now immediate =>
    intro x slot hslot hdel
    by_cases hlt : x < s.txns.length
    · exact h x slot ((List.getElem?_append_left hlt).symm.trans hslot) hdel
    · -- the new transaction was not delivered
      rw [List.getElem?_append_right (Nat.not_lt.mp hlt), List.getElem?_singleton] at hslot
      split at hslot
      · rw [← Option.some.inj hslot] at hdel
        exact absurd hdel (by simp)
      · exact absurd hslot (by simp)
  | @deliver x src slot hslot hdel =>
    intro y slot' hslot' hdel' hrel hall
    rw [resumes_deliver]
    by_cases hy : y = x
    · rw [if_pos hy]
      omega
    · have hne : x ≠ y := fun he => hy he.symm
      simp only [TxnSystem.send, List.getElem?_modify_ne _ _ hne] at hslot'
      rw [if_neg hy, add_zero]
      exact h y slot' hslot' hdel' hrel hall
  | @workflowRun i e code x slot r hi hpto howner hslot hrel hr =>
    obtain ⟨es, ms, hsent, -, hg⟩ := TxnRun.run_grew _ hr
    simp only [List.nil_append] at hsent
    exact h.commit hi howner hslot (fun b hb => (hg.sends b (hsent ▸ hb)).owner)
      (TxnRun.run_attended _ (hinv.sound x slot hslot).counts hr)
  | @taskCb i e code x slot r t service api status done hi hfirst hpto howner hslot hrel hr =>
    have ha := hinv.answered hi hfirst hpto howner hslot hr
    refine h.commit hi howner hslot ha.owners (.inr ?_)
    -- with all tasks complete it resumes, else a task is left to come back
    by_cases hall : r.txn.alltaskComplete = true
    · exact .inr (ha.attended hall)
    · exact .inl (by simpa using hall)
  | aside ha =>
    intro x slot hslot hdel hrel hall
    -- no transaction changes, and nothing that resumes one comes or goes
    obtain ⟨slot₀, hslot₀, hb⟩ := ha.slot hslot
    have hdel₀ : slot.delivered = slot₀.delivered := congrArg (·.delivered) hb
    have hrel₀ : slot.released = slot₀.released := congrArg (·.released) hb
    have hall₀ : slot.txn.alltaskComplete = slot₀.txn.alltaskComplete :=
      congrArg (·.txn.alltaskComplete) hb
    rw [ha.resumes]
    exact h x slot₀ hslot₀ (hdel₀ ▸ hdel) (hrel₀ ▸ hrel) (hall₀ ▸ hall)

/-- In every state of every run no transaction is forgotten. -/
theorem reach_lively {C : TxnSystem → TxnAction → Prop} (h : (machine bioCnt).Reach C s) :
    s.Lively := by
  refine (h.invariant (I := fun s => s.Inv ∧ s.Lively) (fun s hs => ⟨init_inv hs, ?_⟩)
    fun s a t hs he _ hx => ⟨exec_inv hs.1 he hx, exec_lively hs.1 hs.2 he hx⟩).2
  intro x slot hslot
  rw [hs.2.1] at hslot
  exact absurd hslot (by simp)

/-- **When nothing is in flight or pending**, every transaction that was delivered has been
    resumed to its end. -/
theorem Lively.released (h : s.Lively) (hinv : s.Inv) (htends : s.Tends bioCnt)
    (hnet : s.net = []) (hcalls : s.calls = []) {x : TxnId} {slot : TxnSlot}
    (hslot : s.txns[x]? = some slot) (hdel : slot.delivered = true) : slot.released = true := by
  by_contra hrel
  have hc := (hinv.sound x slot hslot).counts
  have hall : slot.txn.alltaskComplete = true := by
    refine hc.alltaskComplete_iff.mpr fun k hk => ?_
    obtain ⟨id, hid⟩ := List.mem_iff_getElem?.mp hk
    have hentry : s.entry ⟨x, id⟩ = some k := (entry_eq hslot).trans hid
    by_contra hinc
    exact ((hinv.completesOnce hentry).alive (by simpa using hinc)).1
      (htends.stages_nil hnet hcalls _)
  have hres := h x slot hslot hdel (by simpa using hrel) hall
  simp [resumes, hnet] at hres

/-- **A failing service call is not contained.** In every state of every run, the handler of a
    `SK_PTO_SVC_TASK_RUN` sends its one message to the caller exactly when the body does not fail,
    and aborts otherwise. As long as none fails, the running counter of every service counts its
    tasks under way, and when nothing is in flight or pending it is zero and every transaction was
    resumed to its end. -/
theorem taskRun_contained (h : (machine bioCnt).Reach Machine.anyStep s) :
    (∀ (i : Nat) (e : Event) (code : UserCode) (t : TaskRef) (service api : Nat) (io : IoStatus)
      (caller : Sched), s.net[i]? = some e → e.pto = .svcTaskRun service api io caller t →
      (Contained bioCnt s i code e service api caller t ↔ code.failed = false)) ∧
    (∀ (k : Nat) (svc : Service), s.services[k]? = some svc →
      svc.runningTaskCnt = s.occupied k) ∧
    (s.net = [] → s.calls = [] → (∀ svc ∈ s.services, svc.runningTaskCnt = 0) ∧
      ∀ slot ∈ s.txns, slot.delivered = true → slot.released = true) := by
  have hinv := reach_inv h
  have htends := reach_tends h
  refine ⟨fun i e code t service api io caller hi hpto => ?_, fun k svc hk =>
    (htends.services k svc hk).2.running, fun hnet hcalls => ⟨fun svc hsvc => ?_,
      fun slot hslot hdel => ?_⟩⟩
  · have hexec := exec_svcTaskRun hinv (reach_known h) htends hi code hpto
    split at hexec
    · rename_i hf
      rw [hf]
      refine ⟨fun hcon => ?_, fun hbad => absurd hbad (by simp)⟩
      obtain ⟨-, s', status, hx, -⟩ := hcon
      exact absurd (hexec.symm.trans hx) (by simp)
    · rename_i hf
      exact ⟨fun _ => by simpa using hf, fun _ => hexec⟩
  · obtain ⟨k, hk⟩ := List.mem_iff_getElem?.mp hsvc
    have hrun := (htends.services k svc hk).2.running
    simpa [occupied, hnet] using hrun
  · obtain ⟨x, hx⟩ := List.mem_iff_getElem?.mp hslot
    exact (reach_lively h).released hinv htends hnet hcalls hx hdel

/-! The call of `oneCall`, whose body is about to run. -/

/-- Everything up to the message that runs the body. -/
def asked : List TxnAction :=
  [.create ⟨1, true, 0⟩ (.worker 0) 0 false, .deliver 0 (.worker 0),
    .handle 0 { quiet with run := ⟨[⟨0, 0, true, 0⟩], false⟩ }, .handle 0 quiet]

/-- The system with that message. -/
def aboutToRun : TxnSystem := ((machine 0).play fresh asked).getD fresh

theorem aboutToRun_reach : (machine 0).Reach Machine.anyStep aboutToRun := by
  have hplay : (machine 0).play fresh asked = some aboutToRun := by decide +kernel
  exact Machine.play_reach (.init fresh_init) hplay

/-- **A body that fails** aborts the handler. -/
theorem failed_body_aborts :
    (machine 0).Reach Machine.anyStep aboutToRun ∧
      aboutToRun.net =
        [⟨.master, .worker 0, .inl 0, .svcTaskRun 0 0 .ok (.worker 0) ⟨0, 0⟩⟩] ∧
      aboutToRun.enabled 0 (.handle 0 { quiet with failed := true }) ∧
      aboutToRun.exec 0 (.handle 0 { quiet with failed := true }) = .error (.srv .taskFailed) :=
  ⟨aboutToRun_reach, by decide +kernel, by decide +kernel, by decide +kernel⟩

/-- One that does not fail is contained. -/
theorem quiet_body_contained :
    Contained 0 aboutToRun 0 quiet
      ⟨.master, .worker 0, .inl 0, .svcTaskRun 0 0 .ok (.worker 0) ⟨0, 0⟩⟩ 0 0 (.worker 0)
      ⟨0, 0⟩ :=
  ((taskRun_contained aboutToRun_reach).1 0 _ quiet _ 0 0 .ok _ (by decide +kernel) rfl).mpr rfl

end TxnSystem

end Skull
