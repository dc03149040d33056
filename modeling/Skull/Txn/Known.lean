import Skull.Txn.Services

namespace Skull

open Machines

/-!
# Messages name what there is

The services of a core are there before the first message and stay, with their apis.  So every
message names a service that there is, and an api that it has:

* `TxnSystem.Known` — the invariant, for messages, queued tasks and pending calls;
* `TxnSystem.reach_known` — it holds in every state of every run.
-/

/-- The service and the api of a task in the queue of the service `name`. -/
def SrvTask.names (q : SrvTask) (name : Nat) : Nat × Option Nat :=
  match q.data with
  | .api _ _ api _ => (name, some api)
  | .timer .. => (name, none)

namespace TxnSystem

variable {s s' : TxnSystem} {bioCnt : Nat}

/-- **Messages, queued tasks and pending calls name what there is.** -/
structure Known (s : TxnSystem) : Prop where
  names : ∀ (k : Nat) (svc : Service), s.services[k]? = some svc → svc.name = k
  net : ∀ e ∈ s.net, ∀ n ∈ e.names, Knows s.services n
  calls : ∀ c ∈ s.calls, Knows s.services (c.service, none)
  queued : ∀ svc ∈ s.services, ∀ q ∈ svc.queued, Knows s.services (q.names svc.name)

/-- The services have the same names and apis. -/
def SameApis (l l' : List Service) : Prop :=
  l'.map (fun svc => (svc.name, svc.apis)) = l.map fun svc => (svc.name, svc.apis)

/-- The same apis are known. -/
theorem Knows.same {l l' : List Service} (h : SameApis l l') {n : Nat × Option Nat}
    (hn : Knows l n) : Knows l' n := by
  obtain ⟨svc, hsvc, hapi⟩ := hn
  have hat := congrArg (·[n.1]?) h
  simp only [List.getElem?_map, hsvc, Option.map_some] at hat
  obtain ⟨svc', hsvc', heq⟩ := Option.map_eq_some_iff.mp hat
  simp only [Prod.mk.injEq] at heq
  refine ⟨svc', hsvc', fun api ha => ?_⟩
  rw [Service.api, heq.2]
  exact hapi api ha

/-- One service is replaced by itself after a handler. -/
theorem sameApis_set {l : List Service} {k : Nat} {svc svc' : Service} (hk : l[k]? = some svc)
    (hname : svc'.name = svc.name) (hapis : svc'.apis = svc.apis) :
    SameApis l (l.set k svc') := by
  obtain ⟨hlt, rfl⟩ := List.getElem?_eq_some_iff.mp hk
  have hset := List.map_set (f := fun svc : Service => (svc.name, svc.apis)) (l := l) (i := k)
    (a := svc')
  rw [SameApis, hset, hname, hapis]
  refine List.ext_getElem? fun j => ?_
  rw [List.getElem?_set]
  split
  · rename_i hj
    subst hj
    simp [hlt]
  · rfl

/-- A step that leaves the services alone. -/
theorem Known.sent (h : s.Known) (hsvc : s'.services = s.services)
    (hnet : ∀ e ∈ s'.net, e ∈ s.net ∨ ∀ n ∈ e.names, Knows s.services n)
    (hcalls : ∀ c ∈ s'.calls, c ∈ s.calls ∨ Knows s.services (c.service, none)) : s'.Known where
  names k svc hk := h.names k svc (hsvc ▸ hk)
  net e he n hn := by
    rw [hsvc]
    rcases hnet e he with he | hnew
    · exact h.net e he n hn
    · exact hnew n hn
  calls c hc := by
    rw [hsvc]
    rcases hcalls c hc with hc | hnew
    · exact h.calls c hc
    · exact hnew
  queued svc hmem q hq := by
    rw [hsvc] at hmem ⊢
    exact h.queued svc hmem q hq

/-- A handler of the master on the service `k`. -/
theorem Known.onService (h : s.Known) {k : Nat} {svc svc' : Service}
    (hk : s.services[k]? = some svc) (hsvc : s'.services = s.services.set k svc')
    (hname : svc'.name = svc.name) (hapis : svc'.apis = svc.apis)
    (hqueued : ∀ q ∈ svc'.queued, Knows s.services (q.names svc.name))
    (hnet : ∀ e ∈ s'.net, e ∈ s.net ∨ ∀ n ∈ e.names, Knows s.services n)
    (hcalls : s'.calls = s.calls) : s'.Known := by
  have hsame : SameApis s.services s'.services := hsvc ▸ sameApis_set hk hname hapis
  refine ⟨fun j svcj hj => ?_, fun e he n hn => ?_, fun c hc => ?_, fun svcj hmem q hq => ?_⟩
  · rw [hsvc, List.getElem?_set] at hj
    split at hj
    · rename_i hkj
      subst hkj
      split at hj
      · rw [← Option.some.inj hj, hname]
        exact h.names k svc hk
      · exact absurd hj (by simp)
    · exact h.names j svcj hj
  · refine Knows.same hsame ?_
    rcases hnet e he with he | hnew
    · exact h.net e he n hn
    · exact hnew n hn
  · exact Knows.same hsame (h.calls c (hcalls ▸ hc))
  · refine Knows.same hsame ?_
    rw [hsvc] at hmem
    rcases List.mem_or_eq_of_mem_set hmem with hmem | rfl
    · exact h.queued svcj hmem q hq
    · rw [hname]
      exact hqueued q hq

/-! ### What the handlers send -/

/-- A round of scheduling names the service and the apis of what was queued. -/
theorem names_of_round {l : List Service} {svc svc' : Service} {xs : List Scheduled}
    (hc : svc.Conserves bioCnt xs svc')
    (hqueued : ∀ q ∈ svc.queued, Knows l (q.names svc.name)) :
    (∀ e ∈ xs.map Scheduled.event, ∀ n ∈ e.names, Knows l n) ∧
      ∀ q ∈ svc'.queued, Knows l (q.names svc.name) := by
  have hmem : ∀ q, q ∈ xs.map Scheduled.task ∨ q ∈ svc'.queued → Knows l (q.names svc.name) :=
    fun q hq => hqueued q (hc.queued.mem_iff.mpr (List.mem_append.mpr hq))
  refine ⟨fun e he n hn => ?_, fun q hq => hmem q (.inr hq)⟩
  obtain ⟨x, hx, rfl⟩ := List.mem_map.mp he
  obtain ⟨dst, -, hevent⟩ := hc.event x hx
  have hknown := hmem x.task (.inl (List.mem_map_of_mem hx))
  rw [Option.mem_def, hevent, Event.names] at hn
  unfold SrvTask.names at hknown
  cases hd : x.task.data <;> simp only [hd, SrvTask.runEvent, Option.some.injEq] at hn hknown <;>
    exact hn ▸ hknown

/-- A task is offered to a service. -/
theorem Known.offer (h : s.Known) {i k : Nat} {svc : Service} {q : SrvTask}
    (hk : s.services[k]? = some svc) (hq : Knows s.services (q.names svc.name))
    {r : (SrvTask × (Event ⊕ List Scheduled)) × Service} (ho : svc.Offered bioCnt q r) :
    (afterOffer k { s with net := s.net.eraseIdx i } r).Known := by
  have hold := h.queued svc (List.mem_of_getElem? hk)
  cases ho with
  | @busy svc' hqueued hname hapis =>
    refine h.onService hk rfl hname hapis (fun p hp => hold p (hqueued.mem_iff.mp hp))
      (fun e he => ?_) rfl
    rcases List.mem_append.mp he with he | he
    · exact .inl (mem_of_mem_take he)
    · -- the answer names the service
      rw [List.mem_singleton.mp he]
      refine .inr fun n hn => ⟨svc, ?_, ?_⟩
      · have hn1 : n.1 = k := by
          rw [Option.mem_def, Event.names, SrvTask.busyEvent] at hn
          cases hd : q.data <;> simp only [hd, Option.some.injEq] at hn <;>
            rw [← hn, h.names k svc hk]
        rw [hn1, hk]
      · rw [Option.mem_def, Event.names, SrvTask.busyEvent] at hn
        cases hd : q.data <;> simp only [hd, Option.some.injEq] at hn <;> simp [← hn]
  | @queued svc₁ svc' xs hqueued hname hapis hround =>
    have hqueued₁ : ∀ p ∈ svc₁.queued, Knows s.services (p.names svc₁.name) := by
      intro p hp
      rw [hname]
      rcases List.mem_append.mp (hqueued.mem_iff.mp hp) with hp | hp
      · exact hold p hp
      · rw [List.mem_singleton.mp hp]
        exact hq
    obtain ⟨hes, hleft⟩ := names_of_round hround hqueued₁
    refine h.onService hk rfl (hround.name.trans hname) (hround.apis.trans hapis)
      (fun p hp => hname ▸ hleft p hp) (fun e he => ?_) rfl
    rcases List.mem_append.mp he with he | he
    · exact .inl (mem_of_mem_take he)
    · exact .inr (hes e he)

/-- A report, and the round after it. -/
theorem Known.report (h : s.Known) {i k : Nat} {svc svc' : Service} {xs : List Scheduled}
    (hk : s.services[k]? = some svc) (hc : svc.Conserves bioCnt xs svc') (es : List Event)
    (hes : ∀ e ∈ es, e.names = none) : Known (afterRound k
      { s with net := s.net.eraseIdx i ++ es } (xs, svc')) := by
  obtain ⟨hround, hleft⟩ := names_of_round hc (h.queued svc (List.mem_of_getElem? hk))
  refine h.onService hk rfl hc.name hc.apis hleft (fun e he => ?_) rfl
  rcases List.mem_append.mp he with he | he
  · rcases List.mem_append.mp he with he | he
    · exact .inl (mem_of_mem_take he)
    · exact .inr (by simp [hes e he])
  · exact .inr (hround e he)

/-- The pending calls that a piece of service code makes are those of its service. -/
theorem pendingCalls_calls {sched : Sched} {service : Nat} {t : TaskRef}
    {kinds : List PendingKind} (h : s.pendingCalls sched service t kinds = .ok s') :
    ∀ c ∈ s'.calls, c ∈ s.calls ∨ c.service = service := by
  induction kinds generalizing s with
  | nil =>
    rw [← Except.ok.inj h]
    exact fun c hc => .inl hc
  | cons kind kinds ih =>
    obtain ⟨s₁, h1, h2⟩ := except_bind_ok.mp h
    intro c hc
    rcases ih h2 c hc with hc | hc
    · obtain ⟨k, -, rfl⟩ := except_map_ok.mp h1
      cases kind <;> simp only [List.mem_append, List.mem_singleton] at hc <;>
        rcases hc with hc | rfl
      · exact .inl hc
      · exact .inr rfl
      · exact .inl hc
      · exact .inr rfl
    · exact .inr hc

/-- Pending calls are of their service. -/
theorem pendingCb_calls {sched : Sched} {service : Nat} {t : TaskRef}
    {calls : List PendingKind} (h : s.pendingCb sched service t calls = .ok s') :
    ∀ c ∈ s'.calls, c ∈ s.calls ∨ c.service = service := by
  obtain ⟨s₁, h1, h⟩ := except_bind_ok.mp h
  obtain ⟨k, -, h2⟩ := except_bind_ok.mp h
  obtain ⟨k', -, rfl⟩ := apiComplete_spec h2
  have hcalls := pendingCalls_calls h1
  split <;> exact hcalls

/-- A callback of a pending call. -/
theorem Known.callBack (h : s.Known) (s₀ : TxnSystem) (hsvc : s₀.services = s.services)
    (hnet : ∀ e ∈ s₀.net, e ∈ s.net) (hcalls : ∀ c ∈ s₀.calls, c ∈ s.calls)
    {host : Sched} {service : Nat} {t : TaskRef} {calls : List PendingKind}
    (hknown : Knows s.services (service, none))
    (hx : s₀.pendingCb host service t calls = .ok s') : s'.Known := by
  have hnew := pendingCb_calls hx
  obtain ⟨s₂, es, hc, rfl, hes⟩ := pendingCb_counted hx
  refine h.sent (hc.services.trans hsvc) (fun e he => ?_) fun c hc' => ?_
  · rcases List.mem_append.mp he with he | he
    · exact .inl (hnet e (hc.net ▸ he))
    · obtain ⟨api, hpto⟩ := hes e he
      exact .inr (Event.knows (by rw [Event.names, hpto]) hknown)
  · rcases hnew c hc' with hmem | rfl
    · exact .inl (hcalls c hmem)
    · exact .inr hknown

/-! ### Every step -/

/-- **A message is handled.** -/
theorem Known.handle (h : s.Known) {i : Nat} {e : Event} (hi : s.net[i]? = some e)
    {code : UserCode}
    (hx : ({ s with net := s.net.eraseIdx i } : TxnSystem).handle bioCnt e code = .ok s') :
    s'.Known := by
  have hmem := List.mem_of_getElem? hi
  have hself := h.net e hmem
  have hdrop : ∀ b ∈ s.net.eraseIdx i, b ∈ s.net := fun b hb => mem_of_mem_take hb
  unfold TxnSystem.handle at hx
  cases hpto : e.pto with
  -- the calls of a run are of services that are there
  | workflowRun =>
    simp only [hpto] at hx
    obtain ⟨x, slot, r, -, -, -, hr, rfl⟩ := onTxn_ok hx
    obtain ⟨es, ms, hsent, -, hg⟩ := TxnRun.run_grew _ hr
    refine h.sent rfl (fun b hb => ?_) fun c hc => .inl hc
    rcases List.mem_append.mp hb with hb | hb
    · exact .inl (hdrop b hb)
    · rw [hsent] at hb
      exact .inr (hg.sends b hb).known
  | svcTaskCb t service api status done =>
    simp only [hpto] at hx
    obtain ⟨x, slot, r, -, -, -, hr, rfl⟩ := onTxn_ok hx
    obtain ⟨-, r₁, r₂, es, ms, k, hcomp, hset, -, -, rfl⟩ := TxnRun.svcTaskCb_spec hr
    have hsent : r₂.sent = es := by rw [hset.sent, hcomp.sent, List.nil_append]
    refine h.sent rfl (fun b hb => ?_) fun c hc => .inl hc
    rcases List.mem_append.mp hb with hb | hb
    · exact .inl (hdrop b hb)
    · refine .inr ?_
      simp only [hsent] at hb
      rcases List.mem_append.mp hb with hb | hb
      · exact (hset.grows.sends b hb).known
      · -- the master is told about the same service
        rw [List.mem_singleton.mp hb]
        exact Event.knows rfl (hself _ (by rw [Event.names, hpto]; rfl))
  | svcTaskRun service api io caller t =>
    simp only [hpto] at hx
    -- the body names its service in its calls and in its answer
    obtain ⟨svc, hsvc, -⟩ := hself (service, some api) (by rw [Event.names, hpto]; rfl)
    have hknown : Knows s.services (service, none) := ⟨svc, hsvc, by simp⟩
    obtain ⟨s₁, k, h1, -, rfl⟩ := svcTaskRun_ok hx
    have hc := pendingCalls_counted h1
    refine h.sent hc.services (fun b hb => ?_) fun c hc' => ?_
    · rcases List.mem_append.mp hb with hb | hb
      · rw [hc.net] at hb
        exact .inl (hdrop b hb)
      · rw [List.mem_singleton.mp hb]
        exact .inr (Event.knows rfl hknown)
    · -- the calls are of the service of the body
      rcases pendingCalls_calls h1 c hc' with hc' | rfl
      · exact .inl hc'
      · exact .inr hknown
  | svcTimerRun service ud valid status interval =>
    simp only [hpto] at hx
    have hknown := hself (service, none) (by rw [Event.names, hpto]; rfl)
    obtain ⟨s₁, rfl, hrun⟩ := svcTimerRun_ok hx
    -- whether the job was valid or not, no service has changed
    have h₁ : s₁.Known ∧ s₁.services = s.services := by
      rcases hrun with ⟨-, rfl⟩ | ⟨t, -, h1⟩
      · exact ⟨h.sent rfl (fun b hb => .inl (hdrop b hb)) fun c hc => .inl hc, rfl⟩
      · obtain ⟨s₂, es, hc, rfl, -⟩ := pendingCb_counted h1
        exact ⟨h.callBack { s with net := s.net.eraseIdx i } rfl hdrop (fun _ hc => hc) hknown h1,
          hc.services⟩
    refine h₁.1.sent rfl (fun b hb => ?_) fun c hc => .inl hc
    rcases List.mem_append.mp hb with hb | hb
    · exact .inl hb
    · rw [List.mem_singleton.mp hb, h₁.2]
      exact .inr (Event.knows rfl hknown)
  | svcIocall service api bidx t =>
    simp only [hpto] at hx
    cases howner : e.owner with
    | inr entity => simp [howner] at hx
    | inl x =>
      -- the task that waits names what the message named
      simp only [howner] at hx
      obtain ⟨svc, r, hsvc, hr, rfl⟩ := onService_ok hx
      obtain ⟨type, ho⟩ := Service.svcIocall_conserves hr
      refine h.offer hsvc ?_ ho
      have hname := h.names service svc hsvc
      simp only [SrvTask.names, hname]
      exact hself (service, some api) (by rw [Event.names, hpto]; rfl)
  | timerEmit service ud valid bidx type interval =>
    simp only [hpto] at hx
    cases howner : e.owner with
    | inl x => simp [howner] at hx
    | inr entity =>
      simp only [howner] at hx
      obtain ⟨svc, r, hsvc, hr, rfl⟩ := onService_ok hx
      refine h.offer hsvc ?_ (Service.timerEmit_conserves hr)
      have hname := h.names service svc hsvc
      simp only [SrvTask.names, hname]
      exact hself (service, none) (by rw [Event.names, hpto]; rfl)
  | svcTaskDone service resumeWf done =>
    simp only [hpto] at hx
    obtain ⟨svc, ⟨xs, svc'⟩, hsvc, hr, rfl⟩ := onService_ok hx
    have hc := Service.svcTaskDone_conserves hr
    cases resumeWf with
    | false =>
      have hrep := h.report (i := i) hsvc hc [] (by simp)
      rwa [List.append_nil] at hrep
    -- the message to resume names no service
    | true =>
      exact h.report (i := i) hsvc hc [⟨e.dst, e.src, e.owner, .workflowRun⟩]
        (by simp [Event.names])
  | svcTimerDone service status interval =>
    simp only [hpto] at hx
    obtain ⟨svc, ⟨xs, svc'⟩, hsvc, hr, rfl⟩ := onService_ok hx
    have hrep := h.report (i := i) hsvc (Service.svcTimerDone_conserves hr) [] (by simp)
    rwa [List.append_nil] at hrep

/-- **Every step** keeps what is known. -/
theorem exec_known (h : s.Known) {a : TxnAction} (he : s.enabled bioCnt a)
    (hx : s.exec bioCnt a = .ok s') : s'.Known := by
  cases a with
  | create workflow home now immediate =>
    -- a new transaction asks for nothing
    rw [← Except.ok.inj hx]
    exact h.sent rfl (fun e he => .inl he) fun c hc => .inl hc
  | deliver x src =>
    obtain ⟨slot, hslot, -⟩ := he
    rw [Option.mem_def] at hslot
    simp only [exec, hslot] at hx
    rw [← Except.ok.inj hx]
    refine h.sent rfl (fun e he => ?_) fun c hc => .inl hc
    rcases List.mem_append.mp he with he | he
    · exact .inl he
    · rw [List.mem_singleton.mp he]
      exact .inr (by simp [Event.names])
  | handle i code =>
    obtain ⟨e, hi, -⟩ := he
    rw [Option.mem_def] at hi
    simp only [exec, hi] at hx
    exact h.handle hi hx
  | epCb i calls =>
    obtain ⟨c, hi, -⟩ := he
    rw [Option.mem_def] at hi
    simp only [exec, hi] at hx
    -- the call that comes back names a service that is there
    exact h.callBack { s with calls := s.calls.eraseIdx i } rfl (fun _ he => he)
      (fun _ hc => mem_of_mem_take hc) (h.calls c (List.mem_of_getElem? hi)) hx
  | jobTriggered i =>
    obtain ⟨c, hi, hjob⟩ := he
    rw [Option.mem_def] at hi
    obtain ⟨ud, hud⟩ := Option.isSome_iff_exists.mp hjob
    simp only [exec, hi, hud] at hx
    rw [← Except.ok.inj hx]
    refine h.sent rfl (fun e he => ?_) fun c hc => .inl (mem_of_mem_take hc)
    rcases List.mem_append.mp he with he | he
    · exact .inl he
    · rw [List.mem_singleton.mp he]
      exact .inr (Event.knows rfl (h.calls c (List.mem_of_getElem? hi)))
  | npTriggered src service entity id rw bidx interval =>
    rw [← Except.ok.inj hx]
    -- its service is one of the core
    refine h.sent rfl (fun e he' => ?_) fun c hc => .inl hc
    rcases List.mem_append.mp he' with he' | he'
    · exact .inl he'
    · rw [List.mem_singleton.mp he']
      exact .inr (Event.knows rfl ⟨_, List.getElem?_eq_getElem he.1, by simp⟩)

theorem init_known (h : Init s) : s.Known := by
  obtain ⟨hsvc, -, hnet, hcalls, -⟩ := h
  refine ⟨fun k svc hk => ?_, by simp [hnet], by simp [hcalls], fun svc hmem q hq => ?_⟩
  · obtain ⟨preferRead, maxQsize, apis, -, hcreate⟩ := hsvc k svc hk
    exact Service.create_name hcreate
  · obtain ⟨k, hk⟩ := List.mem_iff_getElem?.mp hmem
    obtain ⟨preferRead, maxQsize, apis, hmax, hcreate⟩ := hsvc k svc hk
    obtain ⟨-, hnil, -⟩ : svc.Inv 0 .free ∧ svc.queued = [] ∧ svc.pendingTasks.Blocked :=
      Service.create_spec hmax hcreate
    simp [hnil] at hq

/-- In every state of every run messages name what there is. -/
theorem reach_known {C : TxnSystem → TxnAction → Prop} (h : (machine bioCnt).Reach C s) :
    s.Known :=
  h.invariant (I := Known) (fun _ hs => init_known hs) fun _ _ _ hs he _ hx => exec_known hs he hx

end TxnSystem

end Skull
