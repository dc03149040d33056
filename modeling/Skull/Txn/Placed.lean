import Skull.Txn.Ops

namespace Skull

open Machines

/-!
# Messages go to schedulers that there are

A message is sent by the scheduler that runs the code, to the master, to a bio, to the scheduler
that a message came from or to the one of an entity.  So where the drivers only use schedulers of
a set that has the master and the bios in it, all messages stay in that set, and they are what
their handlers expect:

* `TxnEnv.Local` — what the handlers for a transaction send;
* `TxnSystem.Placed` — the invariant, for transactions, messages, queued tasks and pending calls;
* `TxnSystem.exec_placed` — every step keeps it.
-/

/-- The scheduler that a message asks to answer to. -/
def Event.caller (e : Event) : Option Sched :=
  match e.pto with
  | .svcTaskRun _ _ _ src _ => some src
  | _ => none

/-- A message is what its handler expects: what is for the services goes to the master, the timer of
    a job was valid, and the service did not turn the job away for its bio. -/
def Event.Fine (e : Event) : Prop :=
  match e.pto with
  | .svcIocall .. | .svcTaskDone .. => e.dst = .master
  | .timerEmit _ _ valid _ _ _ => e.dst = .master ∧ valid = true ∧ e.owner.isRight = true
  | .svcTimerRun _ _ valid status _ => e.src = .master ∧ valid = true ∧ status ≠ .errorBio
  | .svcTimerDone _ status _ => e.dst = .master ∧ status ≠ .errorBio
  | .workflowRun | .svcTaskRun .. | .svcTaskCb .. => True

/-- So is a job in the queue of a service. -/
def SrvTask.Fine (q : SrvTask) : Prop :=
  match q.data with
  | .timer _ _ valid _ => valid = true
  | .api .. => True

/-! ### What the handlers for a transaction send -/

/-- A message from a handler, to the master or to its own scheduler. -/
structure TxnEnv.Local (v : TxnEnv) (e : Event) : Prop where
  src : e.src = v.sched
  dst : e.dst = .master ∨ e.dst = v.sched
  caller : e.caller = none
  fine : e.Fine

namespace TxnRun

variable {v : TxnEnv} {r r' : TxnRun}

/-- An operation sends local messages. -/
theorem Op.sends (h : Op v r r') : ∀ e ∈ r'.sent, e ∈ r.sent ∨ v.Local e := by
  -- one message is added, if any
  have hadd : ∀ {b : Event}, v.Local b → ∀ e ∈ r.sent ++ [b], e ∈ r.sent ∨ v.Local e := by
    intro b hb e he
    rcases List.mem_append.mp he with he | he
    · exact .inl he
    · exact .inr (List.mem_singleton.mp he ▸ hb)
  cases h with
  | setstate h =>
    obtain ⟨rfl, -⟩ := setstate_ok h
    exact fun e he => .inl he
  | iocall h =>
    unfold TxnRun.iocall at h
    split at h
    · exact Except.ok.inj h ▸ fun e he => .inl he
    · split at h
      · exact Except.ok.inj h ▸ fun e he => .inl he
      · split at h
        · exact Except.ok.inj h ▸ fun e he => .inl he
        · split at h
          · exact Except.ok.inj h ▸ fun e he => .inl he
          · obtain ⟨a, -, rfl⟩ := except_map_ok.mp h
            exact hadd ⟨rfl, .inl rfl, rfl, rfl⟩
  | next | mark | complete => exact fun e he => .inl he
  | goOn => exact hadd ⟨rfl, .inr rfl, rfl, trivial⟩
  | destroy =>
    unfold txnLogAndDestroy
    split <;> exact fun e he => .inl he
  | report => exact hadd ⟨rfl, .inl rfl, rfl, rfl⟩

/-- **A handler** sends local messages. -/
theorem Did.sends (h : Did v r r') : ∀ e ∈ r'.sent, e ∈ r.sent ∨ v.Local e := by
  induction h with
  | refl => exact fun e he => .inl he
  | tail _ hop ih => exact fun e he => (hop.sends e he).elim (ih e) .inr

end TxnRun

namespace TxnSystem

variable {s s' : TxnSystem} {bioCnt : Nat} {E : Sched → Prop}

/-! ### The invariant -/

/-- The message is sent, handled and answered on schedulers in `E`. -/
structure Among (E : Sched → Prop) (e : Event) : Prop where
  src : E e.src
  dst : E e.dst
  caller : ∀ c ∈ e.caller, E c
  fine : e.Fine

/-- So is a task. -/
structure Waits (E : Sched → Prop) (q : SrvTask) : Prop where
  src : E q.src
  fine : q.Fine

/-- **All schedulers are in `E`**, and all jobs are valid. -/
structure Placed (E : Sched → Prop) (s : TxnSystem) : Prop where
  homes : ∀ slot ∈ s.txns, E slot.home
  net : ∀ e ∈ s.net, Among E e
  calls : ∀ c ∈ s.calls, E c.sched
  queued : ∀ svc ∈ s.services, ∀ q ∈ svc.queued, Waits E q

/-- The master and the bios are in `E`. -/
structure Central (bioCnt : Nat) (E : Sched → Prop) : Prop where
  master : E .master
  bio : ∀ i, 0 < i → i ≤ bioCnt → E (.bio i)

/-- What drivers, modules and timers bring in is in `E`. -/
def Within (E : Sched → Prop) (_ : TxnSystem) : TxnAction → Prop
  | .create _ home _ _ => E home
  | .deliver _ src => E src
  | .npTriggered src .. => E src
  | .handle .. | .epCb .. | .jobTriggered _ => True

/-- A task runs where it comes from, or on a bio. -/
theorem Central.target (hE : Central bioCnt E) {src dst : Sched} {bidx : Int}
    (h : Service.findTargetSched bioCnt src bidx = .ok dst) (hsrc : E src) : E dst := by
  unfold Service.findTargetSched at h
  split at h
  · exact Except.ok.inj h ▸ hsrc
  · split at h
    · split at h
      · exact Except.ok.inj h ▸ hE.bio _ (by omega) (by omega)
      · exact absurd h (by simp)
    · split at h
      · exact absurd h (by simp)
      · exact Except.ok.inj h ▸ hE.bio 1 (by omega) (by omega)

/-- The home of a transaction is among the schedulers. -/
theorem Placed.home (h : s.Placed E) (hE : Central bioCnt E) (x : TxnId) : E (s.home x) := by
  cases hslot : s.txns[x]? with
  | none =>
    rw [TxnSystem.home, hslot]
    exact hE.master
  | some slot =>
    rw [home_eq hslot]
    exact h.homes slot (List.mem_of_getElem? hslot)

/-- The transactions stay at home. -/
theorem homes_of_bare (hbare : s'.txns.map TxnSystem.bare = s.txns.map TxnSystem.bare)
    (h : ∀ slot ∈ s.txns, E slot.home) : ∀ slot ∈ s'.txns, E slot.home := by
  intro slot hslot
  have hmem : TxnSystem.bare slot ∈ s.txns.map TxnSystem.bare :=
    hbare ▸ List.mem_map_of_mem hslot
  obtain ⟨slot₀, hslot₀, heq⟩ := List.mem_map.mp hmem
  have hhome : (TxnSystem.bare slot₀).home = (TxnSystem.bare slot).home := by rw [heq]
  have hE := h slot₀ hslot₀
  rwa [show slot₀.home = slot.home from hhome] at hE

/-- One of them may change in other ways. -/
theorem homes_of_modify {x : TxnId} {f : TxnSlot → TxnSlot} (hf : ∀ slot, (f slot).home = slot.home)
    (h : ∀ slot ∈ s.txns, E slot.home) : ∀ slot ∈ s.txns.modify x f, E slot.home := by
  intro slot hslot
  obtain ⟨y, hy⟩ := List.mem_iff_getElem?.mp hslot
  by_cases hyx : x = y
  · subst hyx
    rw [List.getElem?_modify_eq] at hy
    obtain ⟨slot₀, hslot₀, rfl⟩ := Option.map_eq_some_iff.mp hy
    rw [hf]
    exact h slot₀ (List.mem_of_getElem? hslot₀)
  · rw [List.getElem?_modify_ne _ _ hyx] at hy
    exact h slot (List.mem_of_getElem? hy)

/-! ### What the master sends -/

/-- A round of scheduling. -/
theorem among_of_round (hE : Central bioCnt E) {svc svc' : Service} {xs : List Scheduled}
    (hc : svc.Conserves bioCnt xs svc') (hqueued : ∀ q ∈ svc.queued, Waits E q) :
    (∀ e ∈ xs.map Scheduled.event, Among E e) ∧ ∀ q ∈ svc'.queued, Waits E q := by
  have hmem : ∀ q, q ∈ xs.map Scheduled.task ∨ q ∈ svc'.queued → Waits E q := fun q hq =>
    hqueued q (hc.queued.mem_iff.mpr (List.mem_append.mpr hq))
  refine ⟨fun e he => ?_, fun q hq => hmem q (.inr hq)⟩
  obtain ⟨x, hx, rfl⟩ := List.mem_map.mp he
  obtain ⟨dst, hdst, hevent⟩ := hc.event x hx
  obtain ⟨hsrc, hfine⟩ := hmem x.task (.inl (List.mem_map_of_mem hx))
  rw [hevent]
  unfold SrvTask.Fine at hfine
  unfold SrvTask.runEvent
  cases hdata : x.task.data with
  | api service txn name t =>
    exact ⟨hE.master, hE.target hdst hsrc, fun c hc => Option.some.inj hc ▸ hsrc, trivial⟩
  | timer entity ud valid interval =>
    rw [hdata] at hfine
    exact ⟨hE.master, hE.target hdst hsrc, by simp [Event.caller], rfl, hfine, by simp⟩

/-- A task that is refused. -/
theorem among_of_busy (hE : Central bioCnt E) {q : SrvTask} (hq : Waits E q) (name : Nat) :
    Among E (q.busyEvent name) := by
  obtain ⟨hsrc, hfine⟩ := hq
  unfold SrvTask.Fine at hfine
  unfold SrvTask.busyEvent
  cases hdata : q.data with
  | api service txn name t =>
    exact ⟨hE.master, hsrc, by simp [Event.caller], trivial⟩
  | timer entity ud valid interval =>
    rw [hdata] at hfine
    exact ⟨hE.master, hsrc, by simp [Event.caller], rfl, hfine, by simp⟩

/-- A handler of the master on the service `k`. -/
theorem Placed.onService (h : s.Placed E) {k : Nat} {svc' : Service}
    (htxns : s'.txns = s.txns) (hsvc : s'.services = s.services.set k svc')
    (hqueued : ∀ q ∈ svc'.queued, Waits E q)
    (hnet : ∀ e ∈ s'.net, e ∈ s.net ∨ Among E e) (hcalls : s'.calls = s.calls) :
    s'.Placed E where
  homes slot hslot := h.homes slot (htxns ▸ hslot)
  net e he := (hnet e he).elim (h.net e) id
  calls c hc := h.calls c (hcalls ▸ hc)
  queued svc hmem q hq := by
    rw [hsvc] at hmem
    rcases List.mem_or_eq_of_mem_set hmem with hmem | rfl
    · exact h.queued svc hmem q hq
    · exact hqueued q hq

/-- A task is offered to a service. -/
theorem Placed.offer (h : s.Placed E) (hE : Central bioCnt E) {i k : Nat} {svc : Service}
    {q : SrvTask} (hk : s.services[k]? = some svc) (hq : Waits E q)
    {r : (SrvTask × (Event ⊕ List Scheduled)) × Service} (ho : svc.Offered bioCnt q r) :
    (afterOffer k { s with net := s.net.eraseIdx i } r).Placed E := by
  have hold := h.queued svc (List.mem_of_getElem? hk)
  cases ho with
  | @busy svc' hqueued hname hapis =>
    refine h.onService rfl rfl (fun p hp => hold p (hqueued.mem_iff.mp hp)) (fun e he => ?_) rfl
    rcases List.mem_append.mp he with he | he
    · exact .inl (mem_of_mem_take he)
    · exact .inr (List.mem_singleton.mp he ▸ among_of_busy hE hq _)
  | @queued svc₁ svc' xs hqueued hname hapis hround =>
    have hqueued₁ : ∀ p ∈ svc₁.queued, Waits E p := by
      intro p hp
      rcases List.mem_append.mp (hqueued.mem_iff.mp hp) with hp | hp
      · exact hold p hp
      · exact List.mem_singleton.mp hp ▸ hq
    obtain ⟨hes, hleft⟩ := among_of_round hE hround hqueued₁
    refine h.onService rfl rfl hleft (fun e he => ?_) rfl
    rcases List.mem_append.mp he with he | he
    · exact .inl (mem_of_mem_take he)
    · exact .inr (hes e he)

/-- A report, and the round after it. -/
theorem Placed.report (h : s.Placed E) (hE : Central bioCnt E) {i k : Nat} {svc svc' : Service}
    {xs : List Scheduled} (hk : s.services[k]? = some svc) (hc : svc.Conserves bioCnt xs svc')
    (es : List Event) (hes : ∀ e ∈ es, Among E e) :
    (afterRound k { s with net := s.net.eraseIdx i ++ es } (xs, svc')).Placed E := by
  obtain ⟨hround, hleft⟩ := among_of_round hE hc (h.queued svc (List.mem_of_getElem? hk))
  refine h.onService rfl rfl hleft (fun e he => ?_) rfl
  rcases List.mem_append.mp he with he | he
  · rcases List.mem_append.mp he with he | he
    · exact .inl (mem_of_mem_take he)
    · exact .inr (hes e he)
  · exact .inr (hround e he)

/-! ### Pending calls -/

/-- A piece of service code makes its pending calls where it runs. -/
theorem pendingCalls_sched {sched : Sched} {service : Nat} {t : TaskRef}
    {kinds : List PendingKind} (h : s.pendingCalls sched service t kinds = .ok s') :
    ∀ c ∈ s'.calls, c ∈ s.calls ∨ c.sched = sched := by
  induction kinds generalizing s with
  | nil => exact Except.ok.inj h ▸ fun c hc => .inl hc
  | cons kind kinds ih =>
    obtain ⟨s₁, h1, h2⟩ := except_bind_ok.mp h
    intro c hc
    rcases ih h2 c hc with hc | hc
    · obtain ⟨k, -, rfl⟩ := except_map_ok.mp h1
      cases kind <;> rcases List.mem_append.mp hc with hc | hc
      · exact .inl hc
      · exact .inr (by rw [List.mem_singleton.mp hc])
      · exact .inl hc
      · exact .inr (by rw [List.mem_singleton.mp hc])
    · exact .inr hc

/-- The transactions are those of before, up to what tasks wait for. -/
theorem Placed.counted (h : s.Placed E) {t : TaskRef} (hc : Counted t s s')
    (hcalls : ∀ c ∈ s'.calls, c ∈ s.calls ∨ E c.sched) : s'.Placed E where
  homes := homes_of_bare hc.bare h.homes
  net e he := h.net e (hc.net ▸ he)
  calls c hc' := (hcalls c hc').elim (h.calls c) id
  queued svc hmem := h.queued svc (hc.services ▸ hmem)

/-- A message among them is sent. -/
theorem Placed.sent (h : s.Placed E) {e : Event} (he : Among E e) : (s.send e).Placed E where
  homes := h.homes
  net b hb := (List.mem_append.mp hb).elim (h.net b) fun hb => List.mem_singleton.mp hb ▸ he
  calls := h.calls
  queued := h.queued

/-- A message is taken out. -/
theorem Placed.erase (h : s.Placed E) (i : Nat) :
    ({ s with net := s.net.eraseIdx i } : TxnSystem).Placed E :=
  ⟨h.homes, fun _ he => h.net _ (mem_of_mem_take he), h.calls, h.queued⟩

/-- **A callback of a pending call.** -/
theorem Placed.callBack (h : s.Placed E) (hE : Central bioCnt E) {host : Sched} (hhost : E host)
    {service : Nat} {t : TaskRef} {calls : List PendingKind}
    (hx : s.pendingCb host service t calls = .ok s') : s'.Placed E := by
  obtain ⟨s₁, h1, hx⟩ := except_bind_ok.mp hx
  obtain ⟨k, hk, h2⟩ := except_bind_ok.mp hx
  have h₁ : s₁.Placed E := h.counted (pendingCalls_counted h1) fun c hc =>
    (pendingCalls_sched h1 c hc).imp id fun heq => by rwa [heq]
  have h₂ := h₁.counted (counted_setTask hk (k.pendings - 1)).1 fun c hc => .inl hc
  obtain ⟨k', -, rfl⟩ := apiComplete_spec h2
  split
  · exact h₂.sent ⟨hhost, h₂.home hE _, by simp [Event.caller], trivial⟩
  · exact h₂

/-! ### Every step -/

/-- A handler for a transaction. -/
theorem Placed.commit (h : s.Placed E) (hE : Central bioCnt E) {x : TxnId} {v : TxnEnv}
    {r : TxnRun} (hsched : E v.sched) (hr : ∀ e ∈ r.sent, v.Local e) :
    (s.commit x r).Placed E where
  homes := homes_of_modify (fun _ => rfl) h.homes
  net e he := by
    rcases List.mem_append.mp he with he | he
    · exact h.net e he
    · have hloc := hr e he
      refine ⟨hloc.src ▸ hsched, ?_, by simp [hloc.caller], hloc.fine⟩
      rcases hloc.dst with hdst | hdst
      · exact hdst ▸ hE.master
      · exact hdst ▸ hsched
  calls := h.calls
  queued := h.queued

/-- **A message is handled.** -/
theorem Placed.handle (h : s.Placed E) (hE : Central bioCnt E) {i : Nat} {e : Event}
    (hi : s.net[i]? = some e) {code : UserCode}
    (hx : ({ s with net := s.net.eraseIdx i } : TxnSystem).handle bioCnt e code = .ok s') :
    s'.Placed E := by
  obtain ⟨hsrc, hdst, hcaller, hfine⟩ := h.net e (List.mem_of_getElem? hi)
  have herase := h.erase i
  unfold TxnSystem.handle at hx
  cases hpto : e.pto with
  | workflowRun =>
    simp only [hpto] at hx
    obtain ⟨x, slot, r, -, -, -, hr, rfl⟩ := onTxn_ok hx
    refine herase.commit hE (v := ⟨bioCnt, s.services, e.dst, slot.home, x⟩) hdst fun b hb => ?_
    exact ((TxnRun.run_did _ hr).sends b hb).resolve_left List.not_mem_nil
  | svcTaskCb t service api status done =>
    simp only [hpto] at hx
    obtain ⟨x, slot, r, -, -, -, hr, rfl⟩ := onTxn_ok hx
    refine herase.commit hE (v := ⟨bioCnt, s.services, e.dst, slot.home, x⟩) hdst fun b hb => ?_
    exact ((TxnRun.svcTaskCb_did hr).sends b hb).resolve_left List.not_mem_nil
  | svcTaskRun service api io caller t =>
    simp only [hpto] at hx
    obtain ⟨s₁, k, h1, -, rfl⟩ := svcTaskRun_ok hx
    -- the calls of the body wait where it runs
    have h₁ := herase.counted (pendingCalls_counted h1) fun c hc =>
      (pendingCalls_sched h1 c hc).imp id fun heq => by rwa [heq]
    -- the answer goes back to the scheduler that asked
    refine h₁.sent ⟨hdst, hcaller caller ?_, by simp [Event.caller], trivial⟩
    rw [Event.caller, hpto]
    rfl
  | svcTimerRun service ud valid status interval =>
    simp only [hpto] at hx
    obtain ⟨s₁, rfl, hrun⟩ := svcTimerRun_ok hx
    have h₁ : s₁.Placed E := by
      rcases hrun with ⟨-, rfl⟩ | ⟨t, -, h1⟩
      · exact herase
      · exact herase.callBack hE hdst h1
    rw [Event.Fine, hpto] at hfine
    -- the report goes to the scheduler that the message came from
    exact h₁.sent ⟨hdst, hsrc, by simp [Event.caller], hfine.1, hfine.2.2⟩
  | svcIocall service api bidx t =>
    simp only [hpto] at hx
    cases howner : e.owner with
    | inr entity => simp [howner] at hx
    | inl x =>
      simp only [howner] at hx
      obtain ⟨svc, r, hsvc, hr, rfl⟩ := onService_ok hx
      obtain ⟨type, ho⟩ := Service.svcIocall_conserves hr
      -- the task waits for the scheduler that asked for it
      have hq : Waits E (svc.iocallTask e.src x api type bidx t) := ⟨hsrc, trivial⟩
      exact h.offer hE hsvc hq ho
  | timerEmit service ud valid bidx type interval =>
    simp only [hpto] at hx
    cases howner : e.owner with
    | inl x => simp [howner] at hx
    | inr entity =>
      simp only [howner] at hx
      obtain ⟨svc, r, hsvc, hr, rfl⟩ := onService_ok hx
      rw [Event.Fine, hpto] at hfine
      have hq : Waits E (Service.emitTask e.src entity ud valid bidx type interval) := ⟨hsrc, hfine.2.1⟩
      exact h.offer hE hsvc hq (Service.timerEmit_conserves hr)
  | svcTaskDone service resumeWf done =>
    simp only [hpto] at hx
    obtain ⟨svc, ⟨xs, svc'⟩, hsvc, hr, rfl⟩ := onService_ok hx
    have hc := Service.svcTaskDone_conserves hr
    cases resumeWf with
    | false =>
      have hrep := h.report (i := i) hE hsvc hc [] (by simp)
      rwa [List.append_nil] at hrep
    | true =>
      -- the workflow is resumed where the report comes from
      refine h.report (i := i) hE hsvc hc [⟨e.dst, e.src, e.owner, .workflowRun⟩] fun b hb => ?_
      rw [List.mem_singleton.mp hb]
      exact ⟨hdst, hsrc, by simp [Event.caller], trivial⟩
  | svcTimerDone service status interval =>
    simp only [hpto] at hx
    obtain ⟨svc, ⟨xs, svc'⟩, hsvc, hr, rfl⟩ := onService_ok hx
    have hrep := h.report (i := i) hE hsvc (Service.svcTimerDone_conserves hr) [] (by simp)
    rwa [List.append_nil] at hrep

/-- **Every step** keeps the schedulers in `E`. -/
theorem exec_placed (hE : Central bioCnt E) (h : s.Placed E) {a : TxnAction}
    (he : s.enabled bioCnt a) (hw : Within E s a) (hx : s.exec bioCnt a = .ok s') :
    s'.Placed E := by
  cases a with
  | create workflow home now immediate =>
    rw [← Except.ok.inj hx]
    -- a new transaction has its home among the engines
    refine ⟨fun slot hslot => ?_, h.net, h.calls, h.queued⟩
    rcases List.mem_append.mp hslot with hslot | hslot
    · exact h.homes slot hslot
    · rw [List.mem_singleton.mp hslot]
      exact hw
  | deliver x src =>
    obtain ⟨slot, hslot, -⟩ := he
    rw [Option.mem_def] at hslot
    simp only [exec, hslot] at hx
    rw [← Except.ok.inj hx]
    have hdel : Placed E { s with
        txns := s.txns.modify x fun slot => { slot with delivered := true } } :=
      ⟨homes_of_modify (fun _ => rfl) h.homes, h.net, h.calls, h.queued⟩
    -- the first message goes to that home
    exact hdel.sent ⟨hw, h.homes slot (List.mem_of_getElem? hslot),
      by simp [Event.caller], trivial⟩
  | handle i code =>
    obtain ⟨e, hi, -⟩ := he
    rw [Option.mem_def] at hi
    simp only [exec, hi] at hx
    exact h.handle hE hi hx
  | epCb i calls =>
    obtain ⟨c, hi, -⟩ := he
    rw [Option.mem_def] at hi
    simp only [exec, hi] at hx
    have herase : Placed E { s with calls := s.calls.eraseIdx i } :=
      ⟨h.homes, h.net, fun _ hc => h.calls _ (mem_of_mem_take hc), h.queued⟩
    exact herase.callBack hE (h.calls c (List.mem_of_getElem? hi)) hx
  | jobTriggered i =>
    obtain ⟨c, hi, hjob⟩ := he
    rw [Option.mem_def] at hi
    obtain ⟨ud, hud⟩ := Option.isSome_iff_exists.mp hjob
    simp only [exec, hi, hud] at hx
    rw [← Except.ok.inj hx]
    have herase : Placed E { s with calls := s.calls.eraseIdx i } :=
      ⟨h.homes, h.net, fun _ hc => h.calls _ (mem_of_mem_take hc), h.queued⟩
    -- an emitted timer is handled by the master
    exact herase.sent ⟨h.calls c (List.mem_of_getElem? hi), hE.master,
      by simp [Event.caller], rfl, rfl, rfl⟩
  | npTriggered src service entity id rw bidx interval =>
    rw [← Except.ok.inj hx]
    exact h.sent ⟨hw, hE.master, by simp [Event.caller], rfl, rfl, rfl⟩

theorem init_placed (h : Init s) : s.Placed E := by
  obtain ⟨hsvc, htxns, hnet, hcalls, -⟩ := h
  refine ⟨by simp [htxns], by simp [hnet], by simp [hcalls], fun svc hmem q hq => ?_⟩
  obtain ⟨k, hk⟩ := List.mem_iff_getElem?.mp hmem
  obtain ⟨preferRead, maxQsize, apis, hmax, hcreate⟩ := hsvc k svc hk
  obtain ⟨-, hnil, -⟩ : svc.Inv 0 .free ∧ svc.queued = [] ∧ svc.pendingTasks.Blocked :=
    Service.create_spec hmax hcreate
  simp [hnil] at hq

end TxnSystem

end Skull
