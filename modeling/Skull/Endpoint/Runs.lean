import Skull.Endpoint.Books

namespace Skull

open Machines

/-!
# The runs of a pool

* `EpPool.Sound`, `EpPool.reach_sound` — the invariant and the books hold along every run;
* `EpPool.settled_of_reach` — **every accepted request is called back once and then released
  once**, whatever the order of the events, as long as no limit is 2^31 ms; only the end of the pool
  releases without a call;
* `EpPool.wrapped_unsettled` — a request with that limit is accepted and never heard of again;
* `EpPool.send_refused` — **`sk_ep_send` is atomic on error**: a request that is refused leaves
  nothing, then or later.
-/

namespace EpPool

variable {p p' q : EpPool} {x : EpId} {e : Ep} {n : EpNode} {a : EpAction} {i : ReqId}
  {C : EpPool → EpAction → Prop}

instance (p : EpPool) (a : EpAction) : Decidable (p.enabled a) :=
  match a with
  | .send _ _ | .tick _ => inferInstanceAs (Decidable (_ ∧ _ ∧ True))
  | .return => inferInstanceAs (Decidable (_ ∧ _ ∧ _ ≠ []))
  | .read .. | .error _ | .connect .. | .trigger _ | .timer _ =>
    inferInstanceAs (Decidable (_ ∧ _ ∧ _ = [] ∧ _ = true))
  | .destroy => inferInstanceAs (Decidable (_ ∧ _ ∧ _ = []))

instance (p : EpPool) (a : EpAction) : Decidable (machine.enabled p a) :=
  inferInstanceAs (Decidable (p.enabled a))

/-! ### The invariant of all runs -/

/-- **What holds in every state of a run.** -/
structure Sound (p : EpPool) : Prop where
  inv : p.Inv
  books : p.Books

/-- A crash changes nothing else. -/
theorem Sound.crash (h : p.Sound) (f : EpFault) : Sound { p with fault := some f } where
  inv := h.inv.quiet rfl (Nat.le_refl _) rfl rfl h.inv.timers
  books := h.books.still rfl rfl rfl (has_congr rfl rfl)
    (popped_congr h.books.ids.popped rfl rfl) rfl rfl rfl

/-- **Every effect** keeps what is sound. -/
theorem Effect.sound (h : p.Sound) (heffect : Effect p a p') : p'.Sound :=
  ⟨heffect.inv h.inv, heffect.books h.inv h.books⟩

/-- **A step of a run** has an effect, or is a crash. -/
theorem exec_cases (h : p.Sound) (henabled : p.enabled a) :
    Effect p a (p.exec a) ∨ ∃ f, p.exec a = { p with fault := some f } ∧ Faulty p a f := by
  rcases step_effect h.inv h.books.ids henabled with ⟨p', hok, heffect⟩ | ⟨f, herror, hfaulty⟩
  · left
    rw [exec, hok]
    exact heffect
  · right
    exact ⟨f, by rw [exec, herror], hfaulty⟩

theorem create_init (maxFds : Int) : machine.init (create maxFds) := ⟨maxFds, rfl⟩

/-- Nothing is there at first. -/
theorem create_sound (maxFds : Int) : (create maxFds).Sound := by
  -- nothing is there: no request, no timer, no endpoint
  have hnode : ∀ x n, ¬ (create maxFds).Node x n := by
    rintro x n (⟨e, he, -⟩ | ⟨before, turns, hframe⟩)
    · exact absurd he (by simp [create])
    · exact absurd hframe (by simp [create])
  have hpoints : ∀ k t, ¬ (create maxFds).Points k t := by
    intro k t
    cases k with
    | conn x => simp [Points, create]
    | shutdown x => simp [Points, create]
    | recv x req =>
      rintro ⟨n, hn, -⟩
      exact hnode x n hn
  have hempty : ∀ type, ((create maxFds).mgr type).ee = .empty := fun type => by cases type <;> rfl
  refine ⟨⟨⟨?_, fun k t ht => absurd ht (hpoints k t), ?_⟩, ?_, ?_, fun type key x => ?_,
    fun type key => ?_, fun type => ?_, fun type => ?_, .inl rfl⟩, ⟨⟨fun x n hn => absurd hn (hnode x n),
    fun x y n m hn _ _ => absurd hn (hnode x n), ?_⟩, ?_, ?_, ?_⟩⟩
  · simp [create]
  · simp [create]
  · simp [create]
  · simp [create]
  · rw [EpMgr.epList_empty (hempty type)]
    simp [create]
  · rw [EpMgr.epList_empty (hempty type)]
    exact .nil
  · rw [EpMgr.total_empty (hempty type)]
    cases type <;> rfl
  · cases type <;> rfl
  · simp [create]
  · -- the log is empty, too
    refine Lifecycle.empty.congr (fun i => ?_) (fun i => ?_) (fun i => ?_) fun i hi => hi
    · simp [Held, Has, hnode]
    · simp [Running, create]
    · simp [create]
  · simp [create]
  · simp [create]

/-- **Every action** keeps what is sound. -/
theorem Sound.exec (h : p.Sound) (henabled : p.enabled a) : (p.exec a).Sound := by
  rcases exec_cases h henabled with heffect | ⟨f, hcrash, -⟩
  · exact heffect.sound h
  · rw [hcrash]
    exact h.crash f

/-- The invariant holds along every run. -/
theorem reach_sound (h : machine.Reach C p) : p.Sound := by
  refine h.invariant ?_ ?_
  · rintro p ⟨maxFds, rfl⟩
    exact create_sound maxFds
  · intro p a p' hs henabled _ hx
    exact Except.ok.inj hx ▸ hs.exec henabled

/-! ### The end of a request -/

/-- **Where an accepted request is**, and what user code has seen of it. -/
inductive Settled (p : EpPool) (i : ReqId) : Prop
  /-- It is in the list of an endpoint, and user code has seen nothing. -/
  | waiting {x : EpId} {e : Ep} {n : EpNode} (he : p.eps x = some e) (hn : n ∈ e.txns)
      (hid : n.id = i) (hidle : ∀ frame ∈ p.stack, frame.req ≠ i) (hseen : eventsOf i p.log = [])
  /-- Its callback runs, which was called once. -/
  | running {frame : EpFrame} (hframe : frame ∈ p.stack) (hid : frame.req = i)
      (hseen : ∃ status, eventsOf i p.log = [.called i status])
  /-- It is in no list; it was called back once, and then released once. -/
  | finished (hgone : ∀ x e n, p.eps x = some e → n ∈ e.txns → n.id ≠ i)
      (hseen : ∃ status, eventsOf i p.log = [.called i status, .released i])
  /-- The pool was destroyed, which released it. -/
  | destroyed (hdown : p.down = true)
      (hgone : ∀ x e n, p.eps x = some e → n ∈ e.txns → n.id ≠ i)
      (hseen : eventsOf i p.log = [.released i])

/-- The books say where a request is. -/
theorem Sound.settled (h : p.Sound) (hi : i ∈ p.accepted) : p.Settled i := by
  have hlife := h.books.life
  by_cases hheld : p.Held i
  · by_cases hrunning : p.Running i
    · obtain ⟨frame, hframe, hid⟩ := hrunning
      exact .running hframe hid (hlife.running i ⟨frame, hframe, hid⟩)
    · have hidle : ∀ frame ∈ p.stack, frame.req ≠ i := fun frame hframe hid =>
        hrunning ⟨frame, hframe, hid⟩
      obtain ⟨x, n, ⟨e, he, hn⟩ | ⟨before, turns, hframe⟩, hid⟩ := hheld
      · exact .waiting he hn hid hidle
          (hlife.waiting i ⟨x, n, .inl ⟨e, he, hn⟩, hid⟩ hrunning)
      · exact absurd hid (hidle _ hframe)
  · have hgone : ∀ x e n, p.eps x = some e → n ∈ e.txns → n.id ≠ i := fun x e n he hn hid =>
      hheld ⟨x, n, .inl ⟨e, he, hn⟩, hid⟩
    rcases hlife.done i hi hheld with hseen | ⟨hdown, hseen⟩
    · exact .finished hgone hseen
    · exact .destroyed hdown hgone hseen

/-! ### Endpoints that break -/

/-- An endpoint that breaks has no request but the one that is called back. -/
def Undisturbed (p : EpPool) : Prop := ∀ x n before turns, .error x n before turns ∈ p.stack →
  ∃ e, p.eps x = some e ∧ e.txns = []

/-- A call of `sk_ep_send` finds no endpoint that breaks. -/
def Spared (p : EpPool) (a : EpAction) : Prop := ∀ req env type x, a = .send req env →
  p.Finds req type x → p.dying x = false

/-- An endpoint is dying while a callback with an error runs for it. -/
theorem dying_iff : p.dying x = true ↔ ∃ n before turns, .error x n before turns ∈ p.stack := by
  rw [dying, List.any_eq_true]
  constructor
  · rintro ⟨frame, hframe, hx⟩
    cases frame with
    | error y n before turns =>
      obtain rfl : x = y := of_decide_eq_true hx
      exact ⟨n, before, turns, hframe⟩
    | ok y req => simp at hx
    | timeout y req => simp at hx
  · rintro ⟨n, before, turns, hframe⟩
    exact ⟨_, hframe, decide_eq_true rfl⟩

/-- An endpoint changes that does not break. -/
theorem Undisturbed.keep (h : p.Undisturbed) {o : Option Ep} (hx : p.dying x = false)
    (heps : p'.eps = (p.setEp x o).eps) (hstack : p'.stack = p.stack) : p'.Undisturbed := by
  intro y n before turns hframe
  rw [hstack] at hframe
  have hy : y ≠ x := by
    rintro rfl
    rw [dying_iff.mpr ⟨n, before, turns, hframe⟩] at hx
    exact absurd hx (by simp)
  rw [heps, setEp_eps, if_neg hy]
  exact h y n before turns hframe

/-- No endpoint breaks. -/
theorem undisturbed_of_stack
    (hstack : ∀ x n before turns, EpFrame.error x n before turns ∉ p.stack) : p.Undisturbed :=
  fun x n before turns hframe => absurd hframe (hstack x n before turns)

/-- The request of an endpoint that breaks is called back. -/
theorem undisturbed_failed {before turns : Nat} (hstack : p.stack = []) :
    (p.failed x e n before turns).Undisturbed := by
  intro y m before' turns' hframe
  have hstack' : (p.failed x e n before turns).stack = [.error x n before (turns + 1)] := by
    show _ :: p.stack = _
    rw [hstack]
  rw [hstack', List.mem_singleton] at hframe
  obtain ⟨rfl, -, -, -⟩ := EpFrame.error.inj hframe
  exact ⟨{ e with txns := [] }, by simp [failed, call], rfl⟩

/-- A step that finds no endpoint that breaks does not disturb them. -/
theorem Effect.undisturbed (h : p.Sound) (hu : p.Undisturbed) (hspared : p.Spared a)
    (heffect : Effect p a p') : p'.Undisturbed := by
  cases heffect with
  | quiet _ _ _ => exact hu
  | refuse => exact hu
  | lost _ _ => exact hu
  | @pending req env c s _ hconn => exact hu.keep h.inv.next_dying (added_setEps p.begun _ s) rfl
  | @fresh req env type recv shut s _ hsend =>
    exact hu.keep h.inv.next_dying (wrote_over (added_setEps p.begun _ _) recv shut s) rfl
  | @reuse req env type x e recv shut s hfinds hfree hnew hsend =>
    exact hu.keep (hspared _ _ _ _ rfl hfinds) (wrote_over rfl recv shut s) rfl
  | @reuseLost req env type x e hfinds hfree =>
    exact hu.keep (hspared _ _ _ _ rfl hfinds) (gone_eps p x e) rfl
  | close _ hstack he hnil _ howned =>
    -- no callback of an error runs now
    refine undisturbed_of_stack fun y m before turns hframe => ?_
    exact absurd (hstack ▸ hframe) (by simp)
  | fail _ hstack hbreaks => exact undisturbed_failed hstack
  | buffered hstack he _ =>
    exact hu.keep (dying_nil hstack _) rfl rfl
  | answered hstack he hstatus hone _ _ =>
    refine undisturbed_of_stack fun y m before turns hframe => ?_
    simp [call, hstack] at hframe
  | timedOut hstack hτ hkind _ he hstatus hone hrecv =>
    refine undisturbed_of_stack fun y m before turns hframe => ?_
    simp [call, hstack] at hframe
  | @connected x e n written recv shut s hstack he hstatus hshut hone hsend =>
    exact hu.keep (dying_nil hstack _) (wrote_over rfl recv shut s) rfl
  | destroy hstack _ _ hidle =>
    refine undisturbed_of_stack fun y m before turns hframe => ?_
    exact absurd (hstack ▸ hframe) (by simp)
  | returnOk hstack he hone hshut => exact undisturbed_of_stack fun _ _ _ _ => List.not_mem_nil
  | returnTimeout hstack he hone => exact undisturbed_of_stack fun _ _ _ _ => List.not_mem_nil
  | returnClose hstack he hnil => exact undisturbed_of_stack fun _ _ _ _ => List.not_mem_nil
  | returnFail hstack he hone hm => exact undisturbed_failed rfl

/-- A callback of an error that was not disturbed fails no check. -/
theorem Faulty.undisturbed {f : EpFault} (hu : p.Undisturbed) (hfaulty : Faulty p a f) :
    f = .shutdownTimer := by
  cases hfaulty with
  | ntxn hframe he hbusy =>
    obtain ⟨e, he', hnil⟩ := hu _ _ _ _ hframe
    rw [← Option.some.inj (he'.symm.trans he)] at hbusy
    exact absurd hnil hbusy
  | send _ _ => rfl
  | connect _ _ _ _ => rfl
  | freed hstack hnone =>
    obtain ⟨e, he, -⟩ := hu _ _ _ _ (by rw [hstack]; exact List.mem_singleton_self _)
    exact absurd (hnone.symm.trans he) (by simp)

/-- A step that is no crash fails no check. -/
theorem Effect.fault (heffect : Effect p a p') : p'.fault = p.fault := by
  cases heffect <;> rfl

/-! ### Every request is called back and released -/

/-- No callback calls `sk_ep_send`. -/
def CallbacksQuiet (p : EpPool) (a : EpAction) : Prop :=
  match a with
  | .send _ _ => p.stack = []
  | _ => True

instance (p : EpPool) (a : EpAction) : Decidable (p.CallbacksQuiet a) :=
  match a with
  | .send _ _ => inferInstanceAs (Decidable (_ = []))
  | .return | .read .. | .error _ | .connect .. | .tick _ | .trigger _ | .timer _ | .destroy =>
    inferInstanceAs (Decidable True)

/-- Callbacks that send nothing spare everything. -/
theorem CallbacksQuiet.spared (h : p.CallbacksQuiet a) : p.Spared a := by
  rintro req env type x rfl -
  exact dying_nil h x

/-- Steps that find no endpoint that breaks, and what they fail. -/
theorem exec_undisturbed (h : p.Sound) (hu : p.Undisturbed) (hspared : p.Spared a)
    (henabled : p.enabled a) : (p.exec a).Undisturbed ∧
      ((p.exec a).fault = none ∨ (p.exec a).fault = some .shutdownTimer) := by
  rcases exec_cases h henabled with heffect | ⟨f, hcrash, hfaulty⟩
  · exact ⟨heffect.undisturbed h hu hspared, .inl (heffect.fault.trans henabled.1)⟩
  · rw [hcrash, hfaulty.undisturbed hu]
    exact ⟨hu, .inr rfl⟩

/-- Nothing is left of a pool that was destroyed. -/
def Swept (p : EpPool) : Prop := p.down = true → p.stack = [] ∧ ∀ x, p.eps x = none

/-- A pool that goes down has been swept. -/
theorem Effect.down (hup : p.down = false) (heffect : Effect p a p') : p'.Swept := by
  intro hdown
  cases heffect with
  | destroy hstack _ _ _ => exact ⟨hstack, fun x => rfl⟩
  | _ => exact absurd (hup.symm.trans hdown) (by simp)

/-- A pool does nothing after it was destroyed. -/
theorem reach_swept (h : machine.Reach C p) : p.Swept := by
  refine (h.invariant (I := fun p => p.Sound ∧ p.Swept) ?_ ?_).2
  · rintro p ⟨maxFds, rfl⟩
    exact ⟨create_sound maxFds, fun hdown => absurd hdown (by simp [create])⟩
  · rintro p a p' ⟨hs, -⟩ henabled _ hx
    obtain rfl := Except.ok.inj hx
    refine ⟨hs.exec henabled, ?_⟩
    rcases exec_cases hs henabled with heffect | ⟨f, hcrash, -⟩
    · exact heffect.down henabled.2.1
    · rw [hcrash]
      exact fun hdown => absurd (henabled.2.1.symm.trans hdown) (by simp)

/-- When no callback sends, no endpoint that breaks is disturbed. -/
theorem reach_undisturbed (h : machine.Reach CallbacksQuiet p) :
    p.Undisturbed ∧ (p.fault = none ∨ p.fault = some .shutdownTimer) := by
  refine (h.invariant (I := fun p => p.Sound ∧ p.Undisturbed ∧
    (p.fault = none ∨ p.fault = some .shutdownTimer)) ?_ ?_).2
  · rintro p ⟨maxFds, rfl⟩
    exact ⟨create_sound maxFds, undisturbed_of_stack (by simp [create]), .inl rfl⟩
  · rintro p a p' ⟨hs, hu, -⟩ henabled hquiet hx
    obtain rfl := Except.ok.inj hx
    exact ⟨hs.exec henabled, exec_undisturbed hs hu hquiet.spared henabled⟩

/-! ### Twice the limit of a request -/

/-- A request that is taken has a limit whose double is not cut off to nothing: of all limits only
    2^31 ms is doubled to 0. -/
def Doubles (p : EpPool) (a : EpAction) : Prop :=
  match a with
  | .send req _ => ∀ type ∈ req.check, (p.mgr type).nep ≠ (p.mgr type).max →
      req.timeout.toNat ≠ 2 ^ 31
  | _ => True

instance (p : EpPool) (a : EpAction) : Decidable (p.Doubles a) :=
  match a with
  | .send req _ => inferInstanceAs (Decidable (∀ type ∈ req.check, _ ≠ _ →
      req.timeout.toNat ≠ 2 ^ 31))
  | .return | .read .. | .error _ | .connect .. | .tick _ | .trigger _ | .timer _ | .destroy =>
    inferInstanceAs (Decidable True)

/-- A limit that is doubled to nothing. -/
theorem double_zero {t : UInt32} (hlimit : t ≠ 0) (hzero : (t * 2).toNat = 0) :
    t.toNat = 2 ^ 31 := by
  rw [UInt32.toNat_mul] at hzero
  have hmod : t.toNat * 2 % 2 ^ 32 = 0 := hzero
  have hlt := t.toNat_lt
  have hpos : t.toNat ≠ 0 := fun h => hlimit (UInt32.toNat_inj.mp (by rw [UInt32.toNat_zero, h]))
  omega

/-- The requests in the lists have such limits. -/
def Doubled (p : EpPool) : Prop :=
  ∀ x e, p.eps x = some e → ∀ n ∈ e.txns, n.timeout.toNat ≠ 2 ^ 31

/-- One endpoint changes. -/
theorem Doubled.put {o : Option Ep} (h : p.Doubled) (heps : p'.eps = (p.setEp x o).eps)
    (ho : ∀ e ∈ o, ∀ n ∈ e.txns, n.timeout.toNat ≠ 2 ^ 31) : p'.Doubled := by
  intro y e he
  rw [heps, setEp_eps] at he
  split at he
  · exact ho e he
  · exact h y e he

/-- **Every effect keeps it** of a step that meets `Doubles`. -/
theorem Effect.doubled (h : p.Doubled) (hd : p.Doubles a) (heffect : Effect p a p') :
    p'.Doubled := by
  have hnew : ∀ req env type, a = .send req env → p.Room req type →
      req.timeout.toNat ≠ 2 ^ 31 := by
    rintro req env type rfl hroom
    exact hd type hroom.check hroom.room
  -- the only request of an endpoint keeps its limit
  have hold : ∀ {x e n}, p.eps x = some e → e.txns = [n] → n.timeout.toNat ≠ 2 ^ 31 :=
    fun he hone => h _ _ he _ (by rw [hone]; exact .head _)
  cases heffect with
  | quiet _ _ _ => exact h
  | refuse => exact h
  | @lost req _ type _ _ _ _ _ =>
    intro y e he
    change (EpPool.opened _ type req.key).eps y = some e at he
    rw [opened_eps] at he
    exact h y e he
  | @pending req env c s hroom _ =>
    exact h.put (added_setEps p.begun _ s) (by simpa [newEp, EpRequest.node] using hnew req env _ rfl hroom)
  | @fresh req env type recv shut s hroom _ =>
    exact h.put (wrote_over (added_setEps p.begun _ _) recv shut s)
      (by simpa [newEp, EpRequest.node] using hnew req env type rfl hroom)
  | @reuse req env type x e recv shut s hfinds _ _ _ =>
    exact h.put (x := x) (wrote_over rfl recv shut s)
      (by simpa [EpRequest.node] using hnew req env type rfl hfinds.toRoom)
  | @reuseLost req env type x e _ _ => exact h.put (x := x) (o := none) (gone_eps p x e) (by simp)
  | @close _ x e shut s _ _ _ _ _ _ =>
    exact h.put (x := x) (o := none) (broken_over rfl { e with shutdownTimer := shut } 0 0)
      (by simp)
  | @fail _ x e e₀ n s _ _ _ _ => exact h.put (x := x) (failed_over rfl e₀ n 1 0) (by simp)
  | buffered _ he _ => exact h.put rfl (by simpa using h _ _ he)
  | answered _ he _ hone _ _ => exact h.put rfl (by simpa using hold he hone)
  | timedOut _ _ _ _ he _ hone _ => exact h.put rfl (by simpa using hold he hone)
  | @connected x e n written recv shut s _ he _ _ hone _ =>
    exact h.put (x := x) (wrote_over rfl recv shut s) (by simpa using hold he hone)
  | destroy _ _ _ _ => exact fun x e he => absurd he (by simp [swept])
  | @returnOk x e n t s delay _ _ _ _ => exact h.put (x := x) rfl (by simp)
  | @returnTimeout x e n _ _ _ => exact h.put (x := x) rfl (by simp)
  | @returnClose x e n before turns _ _ _ =>
    exact h.put (x := x) (o := none) (broken_over rfl { e with ntxn := e.ntxn - 1 } before turns)
      (by simp)
  | @returnFail x e n m before turns _ _ _ _ =>
    exact h.put (x := x) (failed_over rfl { e with ntxn := e.ntxn - 1 } m before turns) (by simp)

/-- No shutdown timer is missing then. -/
theorem Faulty.doubled (h : p.Doubled) (hd : p.Doubles a) {f : EpFault} (hfaulty : Faulty p a f) :
    f ≠ .shutdownTimer := by
  cases hfaulty with
  | ntxn _ _ _ => simp
  | @send req env type hroom hlimit hzero =>
    exact absurd (double_zero hlimit hzero) (hd type hroom.check hroom.room)
  | @connect x e n connected written he hone hlimit hzero =>
    exact absurd (double_zero hlimit hzero) (h x e he n (by rw [hone]; exact .head _))
  | freed _ _ => simp

/-- **No check fails** when callbacks do not send and every limit can be doubled. -/
theorem reach_faultless (h : machine.Reach (fun p a => p.CallbacksQuiet a ∧ p.Doubles a) p) :
    p.fault = none := by
  refine (h.invariant (I := fun p => p.Sound ∧ p.Undisturbed ∧ p.Doubled ∧ p.fault = none)
    ?_ ?_).2.2.2
  · rintro p ⟨maxFds, rfl⟩
    exact ⟨create_sound maxFds, undisturbed_of_stack (by simp [create]),
      fun x e he => absurd he (by simp [create]), rfl⟩
  · rintro p a p' ⟨hs, hu, hd, -⟩ henabled ⟨hquiet, hdoubles⟩ hx
    obtain rfl := Except.ok.inj hx
    refine ⟨hs.exec henabled, (exec_undisturbed hs hu hquiet.spared henabled).1, ?_⟩
    rcases exec_cases hs henabled with heffect | ⟨f, -, hfaulty⟩
    · exact ⟨heffect.doubled hd hdoubles, heffect.fault.trans henabled.1⟩
    · exact absurd (hfaulty.undisturbed hu) (hfaulty.doubled hd hdoubles)

/-- A request of the tests. -/
def sampleRequest (timeout : UInt32) : EpRequest where
  type := 0
  ip := some "127.0.0.1"
  port := 7760
  timeout := timeout
  flags := 0
  unpack := true
  data := some [1]
  entity := 0

/-- A request is answered, and the next one is in flight when the pool is destroyed. -/
def answered : EpPool :=
  machine.final (create 4) [.send (sampleRequest 0) ⟨0, .now, true⟩, .read 0 (some [7]) [1],
    .return, .send (sampleRequest 0) ⟨0, .now, true⟩, .destroy]

/-- A request with a limit of 2^31 ms waits for its connection, which is then there. -/
def wrapped : EpPool :=
  machine.final (create 4) [.send (sampleRequest 0x80000000) ⟨0, .later true, true⟩,
    .connect 0 true [true]]

/-- A request is refused for good. -/
theorem Effect.refused (heffect : Effect p a p') (hi : i ∈ p.refused) : i ∈ p'.refused := by
  cases heffect with
  | refuse => exact List.mem_append_left _ hi
  | lost _ _ => exact List.mem_append_left _ hi
  | reuseLost _ _ => exact List.mem_append_left _ hi
  | _ => exact hi

/-- Nobody hears of a request that was refused, and no endpoint has it. -/
theorem Sound.unseen (h : p.Sound) (hi : i ∈ p.refused) :
    eventsOf i p.log = [] ∧ ∀ x e n, p.eps x = some e → n ∈ e.txns → n.id ≠ i := by
  have hnot : i ∉ p.accepted := fun hin => h.books.apart i hin hi
  refine ⟨h.books.life.unknown i hnot, fun x e n he hn hid => hnot ?_⟩
  exact h.books.life.held_accepted i ⟨x, n, .inl ⟨e, he, hn⟩, hid⟩

/-- **What is left of the request `i`** in `p'`, after it was refused in `p`. -/
structure Unwound (p : EpPool) (i : ReqId) (p' : EpPool) : Prop where
  /-- No endpoint has a node for it. -/
  gone : ∀ x e n, p'.eps x = some e → n ∈ e.txns → n.id ≠ i
  /-- The nodes of the other requests are unchanged. -/
  others : ∀ x n, (∃ e, p'.eps x = some e ∧ n ∈ e.txns) ↔ ∃ e, p.eps x = some e ∧ n ∈ e.txns
  /-- Nobody was called. -/
  silent : p'.log = p.log ∧ p'.stack = p.stack ∧ eventsOf i p'.log = []
  /-- The counters are right. -/
  counted : ∀ type, (p'.mgr type).nep = (p'.mgr type).total ∧ ∀ key,
    ((p'.mgr type).epList key).Nodup ∧ ∀ x, x ∈ (p'.mgr type).epList key ↔
      ∃ e, p'.eps x = some e ∧ e.type = type ∧ e.key = key
  /-- Nobody will be called, in any run from here. -/
  never : ∀ run, machine.Path p' run → ∀ s ∈ run, eventsOf i s.2.log = [] ∧
    ∀ x e n, s.2.eps x = some e → n ∈ e.txns → n.id ≠ i

/-- **`sk_ep_send` is atomic on error**: a request that is refused leaves nothing behind. -/
theorem send_refused {req : EpRequest} {env : EpSendEnv} (h : machine.Reach Machine.anyStep p)
    (henabled : p.enabled (.send req env)) (hok : p.step (.send req env) = .ok p')
    (hrefused : p.calls ∈ p'.refused) : p.Unwound p.calls p' := by
  have hs := reach_sound h
  have heffect : Effect p (.send req env) p' := by
    rcases step_effect hs.inv hs.books.ids henabled with ⟨q, hq, heffect⟩ | ⟨f, herror, -⟩
    · rw [← Except.ok.inj (hok.symm.trans hq)] at heffect
      exact heffect
    · exact absurd (hok.symm.trans herror) (by simp)
  have hs' := heffect.sound hs
  have hnew : p.calls ∉ p.refused := fun hin =>
    absurd (hs.books.known _ (.inr hin)) (Nat.lt_irrefl _)
  have hseen := hs'.unseen hrefused
  -- a refused request leaves the lists of the endpoints as they were
  have hothers : (∀ x n, (∃ e, p'.eps x = some e ∧ n ∈ e.txns) ↔
      ∃ e, p.eps x = some e ∧ n ∈ e.txns) ∧ p'.log = p.log ∧ p'.stack = p.stack := by
    cases heffect with
    | refuse => exact ⟨fun x n => Iff.rfl, rfl, rfl⟩
    | lost _ _ => exact ⟨fun x n => Iff.rfl, rfl, rfl⟩
    | @reuseLost _ _ type x e hfinds hfree =>
      obtain ⟨he, -, -, hnil⟩ := hfree
      refine ⟨fun y n => ?_, rfl, rfl⟩
      show (∃ e', (p.gone x e).eps y = some e' ∧ n ∈ e'.txns) ↔ _
      rw [gone_eps, setEp_eps]
      by_cases hy : y = x
      · simp [hy, he, hnil]
      · rw [if_neg hy]
    | pending _ _ => exact absurd hrefused hnew
    | fresh _ _ => exact absurd hrefused hnew
    | reuse _ _ _ _ => exact absurd hrefused hnew
    | quiet hsend _ _ => exact absurd rfl (hsend req env)
    | close hsend _ _ _ _ _ => exact absurd rfl (hsend req env)
    | fail hsend _ _ => exact absurd rfl (hsend req env)
  refine ⟨hseen.2, hothers.1, ⟨hothers.2.1, hothers.2.2, hseen.1⟩, fun type =>
    ⟨hs'.inv.nep type, fun key => ⟨hs'.inv.nodup type key, hs'.inv.mapped type key⟩⟩,
    fun run hrun s hs => ?_⟩
  -- and no later step finds it, as it stays refused
  have hkeep := hrun.invariant (I := fun q => q.Sound ∧ p.calls ∈ q.refused) ?_ ⟨hs', hrefused⟩ s hs
  · exact hkeep.1.unseen hkeep.2
  · rintro q a t ⟨hq, hi⟩ hen hx
    obtain rfl := Except.ok.inj hx
    refine ⟨hq.exec hen, ?_⟩
    rcases exec_cases hq hen with heffect | ⟨f, hcrash, -⟩
    · exact heffect.refused hi
    · rw [hcrash]
      exact hi

/-- A step that is no crash. -/
theorem step_eq_exec (h : (p.step a).isOk = true) : p.step a = .ok (p.exec a) := by
  rw [exec]
  cases hstep : p.step a with
  | error f => rw [hstep] at h; exact absurd h (by simp [Except.isOk, Except.toBool])
  | ok q => rfl

/-- An endpoint breaks, and the callback of its request sends another one to the same address,
    which cannot be written. -/
theorem nested_refused :
    (machine.final (create 4) [.send (sampleRequest 0) ⟨0, .now, true⟩, .error 0]).Unwound 1
      ((machine.final (create 4) [.send (sampleRequest 0) ⟨0, .now, true⟩, .error 0]).exec
        (.send (sampleRequest 0) ⟨0, .now, false⟩)) :=
  send_refused (Machine.final_reach (.init (create_init 4)) _ (Machine.stepsMeet_any _ _))
    (by decide +kernel) (step_eq_exec (by decide +kernel)) (by decide +kernel)

end EpPool

end Skull
