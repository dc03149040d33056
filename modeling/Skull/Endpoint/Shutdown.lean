import Skull.Endpoint.Errors

namespace Skull

open Machines

/-!
# The shutdown timer of an endpoint

One timer closes an endpoint that is not used any more.  It is set when a request is written whose
time is limited, to twice that time, and when a request was answered; all requests that ever use
the connection share it.

* `EpPool.ShutdownSafe` — what is promised: it never ends a request that still has time;
* `EpPool.Limited` — what a request has to meet for that;
* `EpPool.Guarded` — why the requests of an endpoint are safe: no valid shutdown timer goes off
  before their time is over;
* `EpPool.Guard` — the invariant, kept by every effect of a step that is `Limited`;
* `EpPool.shutdownSafe_of_reach` — the promise, along all runs of such steps;
* `EpPool.unlimited_not_safe` — a request without a limit that follows one with a limit.
-/

/-- The request still has time. -/
def EpNode.WithinLimit (n : EpNode) (now : Nat) : Prop :=
  n.timeout = 0 ∨ now < n.start + n.timeout.toNat

namespace EpPool

variable {p p' : EpPool} {x : EpId} {e : Ep} {n m : EpNode} {a : EpAction}
  {s s' : TimerSvc EpTimerKind} {new : Timer EpTimerKind → Prop}

/-- **What is promised of shutdown timers.** -/
structure ShutdownSafe (p : EpPool) : Prop where
  /-- When a valid one is handled, no request with an unpack function still has time. -/
  spares : ∀ t τ x, p.enabled (.timer t) → p.tmsvc.timers t = some τ → τ.valid = true →
    τ.kind = .shutdown x → ∀ e, p.eps x = some e → ∀ n ∈ e.txns, n.unpack = true →
      ¬ n.WithinLimit p.tmsvc.now
  /-- `_ep_create_shutdown_timer` always gets a timer. -/
  created : p.fault ≠ some .shutdownTimer

/-- A request that is taken has a limit below 2^31 ms, and has one at all if its endpoint has a
    shutdown timer and it waits for a response. -/
def Limited (p : EpPool) (a : EpAction) : Prop :=
  match a with
  | .send req _ => ∀ type ∈ req.check, (p.mgr type).nep ≠ (p.mgr type).max →
      req.timeout.toNat < 2 ^ 31 ∧ (req.timeout = 0 → req.unpack = true →
        ∀ x ∈ p.firstFree type req, ∀ e ∈ p.eps x, e.shutdownTimer = none)
  | _ => True

instance (p : EpPool) (a : EpAction) : Decidable (p.Limited a) :=
  match a with
  | .send req _ => inferInstanceAs (Decidable (∀ type ∈ req.check, _ ≠ _ →
      req.timeout.toNat < 2 ^ 31 ∧ (req.timeout = 0 → req.unpack = true →
        ∀ x ∈ p.firstFree type req, ∀ e ∈ p.eps x, e.shutdownTimer = none)))
  | .return | .read .. | .error _ | .connect .. | .tick _ | .trigger _ | .timer _ | .destroy =>
    inferInstanceAs (Decidable True)

/-! ### The timers of one endpoint -/

/-- No valid shutdown timer of `x` goes off before the time of its request `n` is over. -/
structure Guarded (s : TimerSvc EpTimerKind) (x : EpId) (n : EpNode) : Prop where
  bound : n.timeout.toNat < 2 ^ 31
  start : n.start ≤ s.now
  outlived : n.unpack = true → ∀ t τ, s.timers t = some τ → τ.valid = true →
    τ.kind = .shutdown x → n.timeout ≠ 0 ∧ n.start + n.timeout.toNat ≤ τ.due

/-- A request stays safe while no shutdown timer of its endpoint is set. -/
theorem Guarded.follows (h : Guarded s x n) (hfollows : TimerSvc.Follows new s s')
    (hnew : ∀ τ, new τ → τ.kind ≠ .shutdown x)
    (hsame : m.timeout = n.timeout ∧ m.start = n.start ∧ m.unpack = n.unpack) :
    Guarded s' x m := by
  obtain ⟨htimeout, hstart, hunpack⟩ := hsame
  refine ⟨by rw [htimeout]; exact h.bound, ?_, fun hm t τ' hτ' hv hk => ?_⟩
  · rw [hstart]
    exact Nat.le_trans h.start hfollows.now
  · rw [hunpack] at hm
    rw [htimeout, hstart]
    rcases hfollows.timers t τ' hτ' hv with ⟨τ, hτ, hvalid, hkind, hdue, -⟩ | ⟨-, hn⟩
    · rw [hdue]
      exact h.outlived hm t τ hτ hvalid (hkind.symm.trans hk)
    · exact absurd hk (hnew τ' hn)

/-- A timer of `x`. -/
def About (x : EpId) (τ : Timer EpTimerKind) : Prop :=
  τ.kind = .conn x ∨ (∃ req, τ.kind = .recv x req) ∨ τ.kind = .shutdown x

/-- A timer of one endpoint is no shutdown timer of another. -/
theorem About.other {y : EpId} {τ : Timer EpTimerKind} (h : About x τ) (hy : y ≠ x) :
    τ.kind ≠ .shutdown y := by
  rintro hk
  rcases h with hkind | ⟨req, hkind⟩ | hkind
  · exact absurd (hk.symm.trans hkind) (by simp)
  · exact absurd (hk.symm.trans hkind) (by simp)
  · exact hy (EpTimerKind.shutdown.inj (hk.symm.trans hkind))

/-- What a refreshed shutdown timer leaves of the others. -/
theorem Refresh.follows {old : Option TimerId} {delay : Nat} {t : TimerId}
    (h : Refresh s x old delay t s')
    (hold : ∀ i τ, old = some i → s.timers i = some τ → τ.kind = .shutdown x) :
    TimerSvc.Follows (About x) s s' := by
  cases h with
  | reset ht hτ hfire =>
    have hkind := hold _ _ ht hτ
    exact .reset _ hfire (.inr (.inr hkind))
  | create _ => exact ((TimerSvc.Follows.refl s).cancelled old).create (.inr (.inr rfl))

/-- When it goes off. -/
theorem Refresh.due {old : Option TimerId} {delay : Nat} {t : TimerId} {τ : Timer EpTimerKind}
    (h : Refresh s x old delay t s') (hτ : s'.timers t = some τ) : τ.due = s.now + delay := by
  cases h with
  | reset ht hτ₀ hfire =>
    rw [TimerSvc.set_timers, if_pos rfl] at hτ
    rw [← Option.some.inj hτ]
  | create _ =>
    rw [TimerSvc.create_timers, if_pos (TimerSvc.cancelled_created s old).symm] at hτ
    rw [← Option.some.inj hτ]
    rfl

/-- The timer that was made is older than the next one. -/
theorem Refresh.lt {old : Option TimerId} {delay : Nat} {t : TimerId}
    (h : Refresh s x old delay t s') (hfresh : ∀ i τ, s.timers i = some τ → i < s.created) :
    t < s'.created := by
  cases h with
  | reset ht hτ hfire => exact hfresh _ _ hτ
  | create _ => exact Nat.lt_succ_self _

/-- What writing a request leaves of the other timers. -/
theorem SendTimers.follows {old recv shut : Option TimerId} (h : SendTimers s x n old recv shut s')
    (hold : ∀ i τ, old = some i → s.timers i = some τ → τ.kind = .shutdown x) :
    TimerSvc.Follows (About x) s s' := by
  cases h with
  | limited _ _ hrefresh => exact (hrefresh.follows hold).create (.inr (.inl ⟨n.id, rfl⟩))
  | oneWay _ hrefresh => exact hrefresh.follows hold
  | unlimited _ _ => exact .refl s

/-- Twice a limit below 2^31 ms is not cut off. -/
theorem toNat_double {t : UInt32} (h : t.toNat < 2 ^ 31) : (t * 2).toNat = 2 * t.toNat := by
  rw [UInt32.toNat_mul]
  show t.toNat * 2 % 2 ^ 32 = _
  omega

/-- **A request is written**: the shutdown timer of its endpoint goes off after its time, unless it
    has no limit and the timer was there before. -/
theorem SendTimers.outlived {old recv shut : Option TimerId} {t : TimerId} {τ : Timer EpTimerKind}
    (h : SendTimers s x n old recv shut s') (hbound : n.timeout.toNat < 2 ^ 31)
    (hstart : n.start ≤ s.now) (hold : n.timeout = 0 → n.unpack = true → old = none)
    (hfresh : ∀ i τ, s.timers i = some τ → i < s.created) (hunpack : n.unpack = true)
    (ht : shut = some t) (hτ : s'.timers t = some τ) :
    n.timeout ≠ 0 ∧ n.start + n.timeout.toNat ≤ τ.due := by
  cases h with
  | @limited t' s₁ hlimit _ hrefresh =>
    refine ⟨hlimit, ?_⟩
    obtain rfl : t' = t := Option.some.inj ht
    -- the receive timer is another one
    have hlt := hrefresh.lt hfresh
    rw [TimerSvc.create_timers, if_neg (Nat.ne_of_lt hlt)] at hτ
    rw [hrefresh.due hτ, toNat_double hbound]
    omega
  | oneWay hno _ => exact absurd (hno.symm.trans hunpack) (by simp)
  | unlimited hlimit _ => exact absurd ((hold hlimit hunpack).symm.trans ht) (by simp)

/-- The connection timer is about its endpoint. -/
theorem ConnTimer.follows {c : Option TimerId} (h : ConnTimer s x n c s') :
    TimerSvc.Follows (About x) s s' := by
  cases h with
  | limited _ => exact (TimerSvc.Follows.refl s).create (.inl rfl)
  | unlimited _ => exact .refl s

/-- Time makes no timers. -/
theorem Later.follows (h : Later s s') : TimerSvc.Follows new s s' := by
  refine ⟨h.now, fun t τ' hτ' hv => .inl ?_⟩
  obtain ⟨τ, hτ, hkind, hvalid, hdue, hfire⟩ := h.timers t τ' hτ'
  refine ⟨τ, hτ, hvalid.symm.trans hv, hkind, hdue, fun htriggered => ?_⟩
  exact (hfire htriggered).imp_right fun hle => Nat.le_trans hle h.now

/-! ### The invariant -/

/-- **The invariant**: every request is guarded, and a valid timer that went off was due. -/
structure Guard (p : EpPool) : Prop where
  nodes : ∀ x e, p.eps x = some e → ∀ n ∈ e.txns, Guarded p.tmsvc x n
  fired : ∀ t τ, p.tmsvc.timers t = some τ → τ.valid = true → τ.triggered = true →
    τ.due ≤ p.tmsvc.now

/-- **One endpoint changes**, and its requests are guarded. -/
theorem Guard.step (h : p.Guard) (hfollows : TimerSvc.Follows (About x) p.tmsvc p'.tmsvc)
    (heps : ∀ y, y ≠ x → p'.eps y = p.eps y)
    (hx : ∀ e, p'.eps x = some e → ∀ n ∈ e.txns, Guarded p'.tmsvc x n) : p'.Guard := by
  refine ⟨fun y e he n hn => ?_, fun t τ' hτ' hv hfire => ?_⟩
  · by_cases hy : y = x
    · subst hy
      exact hx e he n hn
    · rw [heps y hy] at he
      exact (h.nodes y e he n hn).follows hfollows (fun τ hτ => hτ.other hy) ⟨rfl, rfl, rfl⟩
  · rcases hfollows.timers t τ' hτ' hv with ⟨τ, hτ, hvalid, -, hdue, htriggered⟩ | ⟨hno, -⟩
    · rw [hdue]
      rcases htriggered hfire with hold | hle
      · exact Nat.le_trans (h.fired t τ hτ hvalid hold) hfollows.now
      · exact hle
    · rw [hno] at hfire
      exact absurd hfire (by simp)

/-- No endpoint changes. -/
theorem Guard.still (h : p.Guard) (hfollows : TimerSvc.Follows (fun _ => False) p.tmsvc p'.tmsvc)
    (heps : p'.eps = p.eps) : p'.Guard := by
  refine h.step (x := 0) (hfollows.mono fun _ hτ => hτ.elim) (fun y _ => by rw [heps])
    fun e he n hn => ?_
  rw [heps] at he
  exact (h.nodes 0 e he n hn).follows hfollows (fun _ hτ => hτ.elim) ⟨rfl, rfl, rfl⟩

/-- One endpoint is left without requests. -/
theorem Guard.clear (h : p.Guard) {o : Option Ep}
    (hfollows : TimerSvc.Follows (About x) p.tmsvc p'.tmsvc) (heps : p'.eps = (p.setEp x o).eps)
    (hnil : ∀ e ∈ o, e.txns = []) : p'.Guard := by
  refine h.step hfollows (fun y hy => by rw [heps, setEp_eps, if_neg hy]) fun e he n hn => ?_
  rw [heps, setEp_eps, if_pos rfl] at he
  rw [hnil e he] at hn
  exact absurd hn List.not_mem_nil

/-- The requests of one endpoint stay, with other pointers. -/
theorem Guard.keep (h : p.Guard) {e' : Ep}
    (hfollows : TimerSvc.Follows (fun _ => False) p.tmsvc p'.tmsvc) (he : p.eps x = some e)
    (heps : p'.eps = (p.setEp x (some e')).eps)
    (hsame : ∀ n ∈ e'.txns, ∃ m ∈ e.txns, n.timeout = m.timeout ∧ n.start = m.start ∧
      n.unpack = m.unpack) : p'.Guard := by
  refine h.step (hfollows.mono fun _ hτ => hτ.elim)
    (fun y hy => by rw [heps, setEp_eps, if_neg hy]) fun e₁ he₁ n hn => ?_
  rw [heps, setEp_eps, if_pos rfl] at he₁
  rw [← Option.some.inj he₁] at hn
  obtain ⟨m, hm, hsame⟩ := hsame n hn
  exact (h.nodes x e he m hm).follows hfollows (fun _ hτ => hτ.elim) hsame

/-- **One endpoint gets a request**: it is enough to look at the shutdown timer it points to. -/
theorem Guard.put (h : p.Guard) (hinv : p'.Inv) {e' : Ep}
    (hfollows : TimerSvc.Follows (About x) p.tmsvc p'.tmsvc)
    (heps : p'.eps = (p.setEp x (some e')).eps) (hone : e'.txns = [n])
    (hbound : n.timeout.toNat < 2 ^ 31) (hstart : n.start ≤ p'.tmsvc.now)
    (hout : n.unpack = true → ∀ t τ, e'.shutdownTimer = some t → p'.tmsvc.timers t = some τ →
      n.timeout ≠ 0 ∧ n.start + n.timeout.toNat ≤ τ.due) : p'.Guard := by
  refine h.step hfollows (fun y hy => by rw [heps, setEp_eps, if_neg hy]) fun e₁ he₁ m hm => ?_
  have he' : p'.eps x = some e' := by rw [heps, setEp_eps, if_pos rfl]
  rw [← Option.some.inj (he'.symm.trans he₁), hone, List.mem_singleton] at hm
  subst hm
  refine ⟨hbound, hstart, fun hu t τ hτ hv hk => hout hu t τ ?_ hτ⟩
  -- a valid shutdown timer is the one the endpoint points to
  have hpts := hinv.timers.owned t τ hτ hv
  rw [hk] at hpts
  obtain ⟨e₂, he₂, ht⟩ := hpts
  rwa [← Option.some.inj (he'.symm.trans he₂)] at ht

/-- The kind of the timer that an endpoint points to. -/
theorem Inv.shutdown_kind (h : p.Inv) (he : p.eps x = some e) : ∀ i τ,
    e.shutdownTimer = some i → p.tmsvc.timers i = some τ → τ.kind = .shutdown x := by
  intro i τ hi hτ
  exact h.timers.kind_eq (k := .shutdown x) ⟨e, he, hi⟩ hτ

/-- **Every effect keeps it** of a step that is `Limited`. -/
theorem Effect.guard (hs : p.Sound) (hg : p.Guard) (hlimited : p.Limited a)
    (heffect : Effect p a p') : p'.Guard := by
  have hinv := heffect.inv hs.inv
  have hbound : ∀ req env type, a = .send req env → p.Room req type →
      req.timeout.toNat < 2 ^ 31 := by
    rintro req env type rfl hroom
    exact (hlimited type hroom.check hroom.room).1
  cases heffect with
  | quiet _ _ hlater => exact hg.still hlater.follows rfl
  | refuse => exact hg.still (.refl _) rfl
  | @lost req _ type _ _ _ hgrown _ =>
    refine hg.still (.of_grown hgrown) ?_
    exact opened_eps _ type req.key
  | @pending req env c s hroom hconn =>
    -- a new endpoint has no shutdown timer before its first request is written
    have hfollows := hconn.follows.of_elapse
    exact hg.put hinv hfollows (added_setEps p.begun _ s) rfl (hbound req env _ rfl hroom)
      hfollows.now fun _ t τ ht => absurd ht (by simp [newEp, idleEp])
  | @fresh req env type recv shut s hroom hsend =>
    have hfollows := (hsend.follows fun i τ hi => absurd hi (by simp)).of_elapse
    refine hg.put hinv hfollows (wrote_over (added_setEps p.begun _ _) recv shut s) rfl
      (hbound req env type rfl hroom) hfollows.now fun hu t τ ht hτ => ?_
    exact hsend.outlived (hbound req env type rfl hroom) (Nat.le_add_right _ _) (fun _ _ => rfl)
      hs.inv.timers.fresh hu ht hτ
  | @reuse req env type x e recv shut s hfinds hfree hnew hsend =>
    have hfollows := hsend.follows (hs.inv.shutdown_kind hfree.1)
    have hroom := hfinds.toRoom
    refine hg.put hinv hfollows (wrote_over rfl recv shut s) rfl (hbound req env type rfl hroom)
      hfollows.now fun hu t τ ht hτ => ?_
    refine hsend.outlived (hbound req env type rfl hroom) (Nat.le_refl _) (fun hzero hunpack => ?_)
      hs.inv.timers.fresh hu ht hτ
    -- a request without a limit leaves the timer as it is, so the step must be limited
    exact (hlimited type hroom.check hroom.room).2 hzero hunpack x
      (hs.inv.firstFree_of_find hfinds.find) e hfree.1
  | @reuseLost req env type x e _ hfree =>
    refine hg.clear (x := x) (o := none) ?_ (gone_eps p x e) (by simp)
    exact ((TimerSvc.Follows.refl p.tmsvc).cancelled e.connTimer).cancelled e.shutdownTimer
  | @close _ x e shut s _ hstack he hnil hfollows howned =>
    refine hg.clear (x := x) (o := none) ?_ (broken_over rfl { e with shutdownTimer := shut } 0 0)
      (by simp)
    exact ((hfollows.mono fun _ hτ => hτ.elim).cancelled e.connTimer).cancelled shut
  | @fail _ x e e₀ n s _ hstack hbreaks =>
    exact hg.clear (x := x) (hbreaks.follows.mono fun _ hτ => hτ.elim) (failed_over rfl e₀ n 1 0)
      (by simp)
  | @buffered x e bytes results hstack he _ =>
    exact hg.keep (.refl _) he rfl fun n hn => ⟨n, hn, rfl, rfl, rfl⟩
  | @answered x e n bytes results c hstack he hstatus hone _ _ =>
    -- the request stays until its callback returns, with the limit it had
    refine hg.keep (x := x) ((TimerSvc.Follows.refl _).cancelled n.recvTimer) he rfl fun m hm => ?_
    rw [List.mem_singleton.mp hm]
    exact ⟨n, by rw [hone]; exact .head _, rfl, rfl, rfl⟩
  | @timedOut t τ x e n hstack hτ hkind _ he hstatus hone hrecv =>
    refine hg.keep (x := x) ((TimerSvc.Follows.refl _).destroy t) he rfl fun m hm => ?_
    rw [List.mem_singleton.mp hm]
    exact ⟨n, by rw [hone]; exact .head _, rfl, rfl, rfl⟩
  | @connected x e n written recv shut s hstack he hstatus hshut hone hsend =>
    -- the limit of the request that waited runs from the time it was sent
    have hnode := hg.nodes x e he n (by rw [hone]; exact .head _)
    have hfollows := TimerSvc.Follows.trans
      ((TimerSvc.Follows.refl p.tmsvc).cancelled e.connTimer)
      (hsend.follows fun i τ hi => absurd hi (by simp))
    refine hg.put hinv hfollows (wrote_over rfl recv shut s) rfl hnode.bound
      (Nat.le_trans hnode.start hfollows.now) fun hu t τ ht hτ => ?_
    refine hsend.outlived hnode.bound hnode.start (fun _ _ => rfl) (fun i σ hσ => ?_) hu ht hτ
    rw [TimerSvc.cancelled_timers] at hσ
    split at hσ
    · obtain ⟨ρ, hρ, -⟩ := Option.map_eq_some_iff.mp hσ
      exact hs.inv.timers.fresh i ρ hρ
    · exact hs.inv.timers.fresh i σ hσ
  | @destroy xs s hstack _ _ hidle =>
    refine ⟨fun x e he => absurd he (by simp [swept]), fun t τ hτ hv => ?_⟩
    exact absurd hv (by simp [(hidle t τ hτ).2])
  | @returnOk x e n t s delay hstack he hone hshut =>
    exact hg.clear (x := x) (hshut.follows (hs.inv.shutdown_kind he)) rfl (by simp)
  | @returnTimeout x e n hstack he hone =>
    exact hg.clear (x := x) (.refl _) rfl (by simp)
  | @returnClose x e n before turns hstack he hnil =>
    refine hg.clear (x := x) (o := none) ?_ (broken_over rfl { e with ntxn := e.ntxn - 1 } before turns)
      (by simp)
    exact (((TimerSvc.Follows.refl p.tmsvc).cancelled n.recvTimer).cancelled e.connTimer).cancelled
      e.shutdownTimer
  | @returnFail x e n m before turns hstack he hone hm =>
    exact hg.clear (x := x) ((TimerSvc.Follows.refl p.tmsvc).cancelled n.recvTimer)
      (failed_over rfl { e with ntxn := e.ntxn - 1 } m before turns) (by simp)

/-! ### Runs -/

/-- A request that is guarded has no time left when a shutdown timer of its endpoint is handled. -/
theorem Guard.spares (h : p.Guard) {t : TimerId} {τ : Timer EpTimerKind} (henabled : p.enabled (.timer t))
    (hτ : p.tmsvc.timers t = some τ) (hv : τ.valid = true) (hk : τ.kind = .shutdown x)
    (he : p.eps x = some e) (hn : n ∈ e.txns) (hu : n.unpack = true) :
    ¬ n.WithinLimit p.tmsvc.now := by
  obtain ⟨-, -, -, hany⟩ := henabled
  obtain ⟨σ, hσ, hfire⟩ := (Option.any_eq_true ..).mp hany
  rw [Option.some.inj (hσ.symm.trans hτ)] at hfire
  have hdue := h.fired t τ hτ hv hfire
  obtain ⟨hlimit, hout⟩ := (h.nodes x e he n hn).outlived hu t τ hτ hv hk
  rintro (hzero | htime)
  · exact hlimit hzero
  · omega

/-- No assertion about the shutdown timer fails. -/
theorem Faulty.shutdown (hg : p.Guard) (hlimited : p.Limited a) {f : EpFault}
    (hfaulty : Faulty p a f) : f ≠ .shutdownTimer := by
  have hzero : ∀ t : UInt32, t.toNat < 2 ^ 31 → t ≠ 0 → (t * 2).toNat ≠ 0 := by
    intro t hbound hlimit hzero
    rw [toNat_double hbound] at hzero
    exact hlimit (UInt32.toNat_inj.mp (by rw [UInt32.toNat_zero]; omega))
  cases hfaulty with
  | ntxn _ _ _ => simp
  | @send req env type hroom hlimit hnothing =>
    exact absurd hnothing (hzero _ (hlimited type hroom.check hroom.room).1 hlimit)
  | @connect x e n connected written he hone hlimit hnothing =>
    exact absurd hnothing (hzero _ (hg.nodes x e he n (by rw [hone]; exact .head _)).bound hlimit)
  | freed _ _ => simp

/-- **A shutdown timer never ends a request that still has time**, and is always there, along every
    run whose requests are `Limited`. -/
theorem shutdownSafe_of_reach (h : machine.Reach Limited p) : p.ShutdownSafe := by
  have hinv := h.invariant (I := fun p => p.Sound ∧ p.Guard ∧ p.fault ≠ some .shutdownTimer) ?_ ?_
  · obtain ⟨-, hg, hfault⟩ := hinv
    exact ⟨fun t τ x hen hτ hv hk e he n hn hu => hg.spares hen hτ hv hk he hn hu, hfault⟩
  · rintro p ⟨maxFds, rfl⟩
    exact ⟨create_sound maxFds, ⟨by simp [create], by simp [create]⟩, by simp [create]⟩
  · rintro p a p' ⟨hs, hg, -⟩ henabled hlimited hx
    obtain rfl := Except.ok.inj hx
    refine ⟨hs.exec henabled, ?_⟩
    rcases exec_cases hs henabled with heffect | ⟨f, hcrash, hfaulty⟩
    · refine ⟨heffect.guard hs hg hlimited, ?_⟩
      rw [heffect.fault, henabled.1]
      simp
    · rw [hcrash]
      refine ⟨⟨hg.nodes, hg.fired⟩, fun heq => ?_⟩
      exact hfaulty.shutdown hg hlimited (Option.some.inj heq)

/-- A request with a limit of a second is answered, another one with two seconds follows, and the
    shutdown timer of the first one has been set again. -/
def secondRequest : EpPool :=
  machine.final (create 4) [.send (sampleRequest 1000) ⟨0, .now, true⟩, .read 0 (some [7]) [1],
    .return, .send (sampleRequest 2000) ⟨0, .now, true⟩, .tick 4000, .trigger 0]

/-- A second request with a limit resets the shutdown timer in time. -/
theorem secondRequest_safe : secondRequest.ShutdownSafe ∧ secondRequest.enabled (.timer 0) :=
  ⟨shutdownSafe_of_reach (Machine.final_reach (.init (create_init 4)) _ (by decide +kernel)),
    by decide +kernel⟩

/-- The same with no limit for the second request: the timer of the first one ends it. -/
def unlimitedRequest : EpPool :=
  machine.final (create 4) [.send (sampleRequest 1000) ⟨0, .now, true⟩, .read 0 (some [7]) [1],
    .return, .send (sampleRequest 0) ⟨0, .now, true⟩, .tick 1000, .trigger 0]

/-- A second request without one is ended by the timer of the first. -/
theorem unlimited_not_safe : ¬ ∀ p, machine.Reach Machine.anyStep p → p.ShutdownSafe := by
  intro hall
  have hreach : machine.Reach Machine.anyStep unlimitedRequest :=
    Machine.final_reach (.init (create_init 4)) _ (Machine.stepsMeet_any _ _)
  have hτ : unlimitedRequest.tmsvc.timers 0 =
      some { kind := .shutdown 0, valid := true, triggered := true, due := 1000 } := by decide +kernel
  obtain ⟨e, he, n, hn, hu, hzero⟩ : ∃ e ∈ unlimitedRequest.eps 0, ∃ n ∈ e.txns,
      n.unpack = true ∧ n.timeout = 0 := by decide +kernel
  exact (hall _ hreach).spares 0 _ 0 (by decide +kernel) hτ rfl rfl e he n hn hu (.inl hzero)

end EpPool

end Skull
