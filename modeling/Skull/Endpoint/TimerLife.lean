import Skull.Endpoint.Alive

namespace Skull

open Machines

/-!
# Pointers to timers

A timer lives from `sk_timersvc_timer_create` to `sk_timersvc_timer_destroy`, which comes after its
callback; `sk_timer_cancel` only makes it invalid.  `EpPool` frees a timer before its callback
runs.  Here it lives on until the callback has returned:

* `EpLoop` — a pool, with the timer whose event is handled; `EpLoop.tmsvc` is the timer service
  of the code;
* `EpLoop.HandledOk` — what holds of that timer while a callback of user code runs;
* `EpLoop.NeverDangling` — pointers lead to valid timers, valid timers to what is not freed, and
  `timer_alive` counts the timers;
* `EpLoop.neverDangling_of_reach` — this holds in every state of every run.
-/

/-- A pool, with the timer whose event is handled. -/
structure EpLoop where
  pool : EpPool
  handled : Option (TimerId × Timer EpTimerKind)

namespace EpLoop

variable {s : EpLoop} {t : TimerId} {τ : Timer EpTimerKind} {C : EpPool → EpAction → Prop}

/-- `sk_timersvc_t`, where the timer whose event is handled is not freed. -/
def tmsvc (s : EpLoop) : TimerSvc EpTimerKind :=
  match s.handled with
  | none => s.pool.tmsvc
  | some (t, τ) =>
    { s.pool.tmsvc.set t (some τ) with timerAlive := s.pool.tmsvc.timerAlive + 1 }

/-- What runs on an action.  The handler of `SK_PTO_TIMER_TRIGGERED` is over, and the timer freed,
    when no callback of user code runs. -/
def exec (s : EpLoop) (a : EpAction) : EpLoop :=
  let pool := s.pool.exec a
  { pool
    handled := if pool.stack = [] then none
      else match a with
        | .timer t => (s.pool.tmsvc.timers t).map fun τ => (t, τ)
        | _ => s.handled }

/-- The runs of a pool, with the timers as they are. -/
def machine : Machine EpLoop EpAction Empty where
  init s := (∃ maxFds, s.pool = .create maxFds) ∧ s.handled = none
  enabled s a := s.pool.enabled a
  exec s a := .ok (s.exec a)

instance (s : EpLoop) (a : EpAction) : Decidable (machine.enabled s a) :=
  inferInstanceAs (Decidable (s.pool.enabled a))

/-- No callback calls `sk_ep_send`. -/
def CallbacksQuiet (s : EpLoop) (a : EpAction) : Prop := s.pool.CallbacksQuiet a

instance (s : EpLoop) (a : EpAction) : Decidable (s.CallbacksQuiet a) :=
  inferInstanceAs (Decidable (s.pool.CallbacksQuiet a))

/-- They are runs of the pool. -/
theorem reach_pool (h : machine.Reach (fun s a => C s.pool a) s) :
    EpPool.machine.Reach C s.pool := by
  induction h with
  | init h => exact .init h.1
  | step _ henabled hc hx ih =>
    obtain rfl := Except.ok.inj hx
    exact .step ih henabled hc rfl

/-! ### The timer whose event is handled -/

/-- The callbacks of user code that run in the callback of a timer. -/
def Runs (kind : EpTimerKind) (stack : List EpFrame) : Prop :=
  match kind with
  | .conn x | .shutdown x => ∃ n before turns, stack = [.error x n before turns]
  | .recv x req => stack = [.timeout x req]

theorem Runs.ne_nil {kind : EpTimerKind} {stack : List EpFrame} (h : Runs kind stack) :
    stack ≠ [] := by
  rintro rfl
  cases kind with
  | conn x =>
    obtain ⟨n, before, turns, hstack⟩ := h
    exact absurd hstack (by simp)
  | shutdown x =>
    obtain ⟨n, before, turns, hstack⟩ := h
    exact absurd hstack (by simp)
  | recv x req => exact absurd (show [] = [EpFrame.timeout x req] from h) (by simp)

/-- **What holds of a timer** whose event is handled. -/
structure HandledOk (pool : EpPool) (t : TimerId) (τ : Timer EpTimerKind) : Prop where
  freed : pool.tmsvc.timers t = none ∧ t < pool.tmsvc.created
  runs : Runs τ.kind pool.stack

/-- A callback of a timer runs callbacks of its endpoint only, and creates no timer. -/
theorem timerCb_handled {pool : EpPool} {J : TimerSvc EpTimerKind → Prop}
    (hJ : TimerSvc.CancelKeeps J) (h : pool.Kept J []) (kind : EpTimerKind) :
    Ensures (pool.timerCb kind) fun q => J q.tmsvc ∧ (q.stack = [] ∨ Runs kind q.stack) := by
  cases kind with
  | conn x =>
    refine (EpPool.ep_kept h).bind fun e _ => ?_
    split
    · exact ensures_error
    · exact EpPool.handleError_handling hJ (p := pool.setEp x _) h
  | recv x req =>
    refine (EpPool.ep_kept h).bind fun e _ => ?_
    split
    · exact ensures_error
    · refine Ensures.bind (P := EpPool.Kept J []) ((EpPool.ep_kept h).map fun _ h => h) ?_
      intro q hq
      refine ensures_ok ⟨hq.1, .inr ?_⟩
      show EpFrame.timeout x req :: q.stack = [.timeout x req]
      rw [hq.2]
  | shutdown x =>
    refine (EpPool.ep_kept h).bind fun e _ => ?_
    exact EpPool.handleError_handling hJ (p := pool.setEp x _) h

/-- The event of a timer is handled. -/
theorem timerTriggered_handled {pool : EpPool} (hstack : pool.stack = [])
    (hfresh : ∀ t τ, pool.tmsvc.timers t = some τ → t < pool.tmsvc.created) (t : TimerId) :
    Ensures (pool.timerTriggered t) fun q => q.stack ≠ [] →
      ∃ τ, pool.tmsvc.timers t = some τ ∧ HandledOk q t τ := by
  rw [EpPool.timerTriggered]
  split
  · exact ensures_error
  · rename_i τ hτ
    have hkept : EpPool.Kept (fun s => s.timers t = none ∧ t < s.created) []
        { pool with tmsvc := pool.tmsvc.destroy t } :=
      ⟨⟨if_pos rfl, hfresh t τ hτ⟩, hstack⟩
    dsimp only
    split
    · refine (timerCb_handled (TimerSvc.freed_cancel t) hkept τ.kind).mono ?_
      rintro q ⟨hfreed, hnil | hruns⟩ hne
      · exact absurd hnil hne
      · exact ⟨τ, hτ, hfreed, hruns⟩
    · exact ensures_ok fun hne => absurd hstack hne

/-- The callback of user code returns. -/
theorem return_handled {pool : EpPool} (h : HandledOk pool t τ) :
    Ensures pool.return fun q => q.stack ≠ [] → HandledOk q t τ := by
  have hkept : EpPool.Kept (fun s => s.timers t = none ∧ t < s.created) []
      { pool with stack := [] } := ⟨h.freed, rfl⟩
  have hruns := h.runs
  -- the loop of `_handle_error` goes on
  have herror : ∀ x n before turns, pool.stack = [.error x n before turns] →
      (∀ stack, (∃ n before turns, stack = [EpFrame.error x n before turns]) → Runs τ.kind stack) →
      Ensures pool.return fun q => q.stack ≠ [] → HandledOk q t τ := by
    intro x n before turns hstack hkind
    rw [EpPool.return, hstack]
    have hend := EpPool.returnError_handling (TimerSvc.freed_cancel t) (x := x) hkept n before turns
    refine hend.mono ?_
    rintro q ⟨hfreed, hnil | hframe⟩ hne
    · exact absurd hnil hne
    · exact ⟨hfreed, hkind q.stack hframe⟩
  cases hk : τ.kind with
  | conn x =>
    rw [hk] at hruns
    obtain ⟨n, before, turns, hstack⟩ := hruns
    refine herror x n before turns hstack fun stack hframe => ?_
    rw [hk]
    exact hframe
  | shutdown x =>
    rw [hk] at hruns
    obtain ⟨n, before, turns, hstack⟩ := hruns
    refine herror x n before turns hstack fun stack hframe => ?_
    rw [hk]
    exact hframe
  | recv x req =>
    rw [hk] at hruns
    have hstack : pool.stack = [.timeout x req] := hruns
    rw [EpPool.return, hstack]
    refine (EpPool.returnTimeout_kept (TimerSvc.freed_cancel t) (x := x) hkept req).mono ?_
    intro q hq hne
    exact absurd hq.2 hne

/-- The timer whose event is handled, in every state where a callback runs. -/
def Handled (s : EpLoop) : Prop := ∀ t τ, s.handled = some (t, τ) → HandledOk s.pool t τ

/-- A step that is no crash. -/
theorem pool_exec_cases (pool : EpPool) (a : EpAction) :
    (∃ q, pool.step a = .ok q ∧ pool.exec a = q) ∨
      ∃ f, pool.exec a = { pool with fault := some f } := by
  rw [EpPool.exec]
  cases hstep : pool.step a with
  | ok q => exact .inl ⟨q, rfl, rfl⟩
  | error f => exact .inr ⟨f, rfl⟩

/-- **Every step** keeps what holds of the timer. -/
theorem Handled.exec (h : s.Handled) (hs : s.pool.Sound) {a : EpAction}
    (henabled : machine.enabled s a) (hquiet : s.CallbacksQuiet a) : (s.exec a).Handled := by
  intro t τ hhandled
  have hne : (s.pool.exec a).stack ≠ [] := by
    intro hnil
    simp only [EpLoop.exec, hnil, if_true, reduceCtorEq] at hhandled
  simp only [EpLoop.exec, if_neg hne] at hhandled
  by_cases htimer : ∃ u, a = .timer u
  · -- a timer goes off: no callback ran before
    obtain ⟨u, rfl⟩ := htimer
    obtain ⟨σ, hσ, heq⟩ := Option.map_eq_some_iff.mp hhandled
    obtain ⟨rfl, rfl⟩ := Prod.mk.inj heq
    have hstack : s.pool.stack = [] := henabled.2.2.1
    rcases pool_exec_cases s.pool (.timer u) with ⟨q, hstep, hq⟩ | ⟨f, hcrash⟩
    · obtain ⟨τ, hτ, hok⟩ :=
        timerTriggered_handled hstack hs.inv.timers.fresh u q hstep (hq ▸ hne)
      obtain rfl := Option.some.inj (hτ.symm.trans hσ)
      show HandledOk (s.pool.exec (.timer u)) u τ
      rw [hq]
      exact hok
    · rw [hcrash] at hne
      exact absurd hstack hne
  · -- a callback runs, which does not send
    have hold : s.handled = some (t, τ) := by
      cases a with
      | timer u => exact absurd ⟨u, rfl⟩ htimer
      | _ => exact hhandled
    have hok := h t τ hold
    have hrunning := hok.runs.ne_nil
    show HandledOk (s.pool.exec a) t τ
    rcases pool_exec_cases s.pool a with ⟨q, hstep, hq⟩ | ⟨f, hcrash⟩
    · rw [hq] at hne ⊢
      cases a with
      | «return» => exact return_handled hok q hstep hne
      | tick ms =>
        obtain rfl := Except.ok.inj hstep
        exact ⟨hok.freed, hok.runs⟩
      | send req env => exact absurd hquiet hrunning
      | timer u => exact absurd ⟨u, rfl⟩ htimer
      | read x arrived results => exact absurd henabled.2.2.1 hrunning
      | error x => exact absurd henabled.2.2.1 hrunning
      | connect x connected written => exact absurd henabled.2.2.1 hrunning
      | trigger u => exact absurd henabled.2.2.1 hrunning
      | destroy => exact absurd henabled.2.2 hrunning
    · rw [hcrash]
      exact ⟨hok.freed, hok.runs⟩

/-! ### Runs -/

/-- What a timer is about is not freed. -/
def Referent (pool : EpPool) : EpTimerKind → Prop
  | .conn x | .shutdown x => ∃ e, pool.eps x = some e
  | .recv x req => ∃ n, pool.Node x n ∧ n.id = req

/-- **No pointer dangles.** -/
structure NeverDangling (s : EpLoop) : Prop where
  /-- A pointer that is not `NULL` leads to a timer that was not destroyed, and is valid. -/
  pointers : ∀ k t, s.pool.Points k t → ∃ τ, s.tmsvc.timers t = some τ ∧ τ.kind = k ∧
    τ.valid = true
  /-- A valid timer is about an endpoint or a request that was not freed. -/
  referents : ∀ t τ, s.tmsvc.timers t = some τ → τ.valid = true → Referent s.pool τ.kind
  /-- `timer_alive` is the number of timers in the service. -/
  alive : s.tmsvc.Counted

/-- A timer that is pointed to is about something that is not freed. -/
theorem referent_of_points {pool : EpPool} {k : EpTimerKind} (h : pool.Points k t) :
    Referent pool k := by
  cases k with
  | conn x =>
    obtain ⟨e, he, -⟩ := h
    exact ⟨e, he⟩
  | shutdown x =>
    obtain ⟨e, he, -⟩ := h
    exact ⟨e, he⟩
  | recv x req =>
    obtain ⟨n, hn, hid, -⟩ := h
    exact ⟨n, hn, hid⟩

/-- So is the timer whose event is handled. -/
theorem HandledOk.referent {pool : EpPool} (h : HandledOk pool t τ) (hs : pool.Sound)
    (hu : pool.Undisturbed) : Referent pool τ.kind := by
  have hruns := h.runs
  have hbroken : ∀ x, (∃ n before turns, pool.stack = [.error x n before turns]) →
      ∃ e, pool.eps x = some e := by
    rintro x ⟨n, before, turns, hstack⟩
    obtain ⟨e, he, -⟩ := hu x n before turns (by rw [hstack]; exact List.mem_singleton_self _)
    exact ⟨e, he⟩
  cases hk : τ.kind with
  -- the timer of a connection breaks its endpoint
  | conn x =>
    rw [hk] at hruns
    exact hbroken x hruns
  | shutdown x =>
    rw [hk] at hruns
    exact hbroken x hruns
  -- the timer of an answer runs the callback of its request
  | recv x req =>
    rw [hk] at hruns
    have hstack : pool.stack = [.timeout x req] := hruns
    rcases hs.inv.stack with hnil | ⟨frame, hone, hok⟩
    · exact absurd (hnil.symm.trans hstack) (by simp)
    · obtain rfl : frame = .timeout x req := by
        rw [hone] at hstack
        exact List.head_eq_of_cons_eq hstack
      obtain ⟨e, n, he, htxns, hid, -⟩ := hok
      refine ⟨n, .inl ⟨e, he, ?_⟩, hid⟩
      rw [htxns]
      exact List.mem_singleton_self n

/-- Nothing dangles in a state where a callback of a timer may run. -/
theorem Handled.neverDangling (h : s.Handled) (hs : s.pool.Sound) (hcounted : s.pool.Counted)
    (hu : s.pool.Undisturbed) : s.NeverDangling := by
  have howned := hs.inv.timers
  cases hhandled : s.handled with
  | none =>
    -- no timer is handled, so the service has the timers of the pool
    have hsvc : s.tmsvc = s.pool.tmsvc := by rw [tmsvc, hhandled]
    refine ⟨?_, ?_, ?_⟩
    · rw [hsvc]
      exact howned.exist
    · rw [hsvc]
      exact fun t τ hτ hv => referent_of_points (howned.owned t τ hτ hv)
    · rw [hsvc]
      exact hcounted
  | some handled =>
    obtain ⟨u, σ⟩ := handled
    have hok := h u σ hhandled
    -- the timer that is handled is freed only after its callback
    have htimers : ∀ i, s.tmsvc.timers i = if i = u then some σ else s.pool.tmsvc.timers i := by
      intro i
      rw [tmsvc, hhandled]
      rfl
    refine ⟨fun k t ht => ?_, fun t τ hτ hv => ?_, ?_⟩
    · obtain ⟨τ, hτ, hkind, hv⟩ := howned.exist k t ht
      have hne : t ≠ u := by
        rintro rfl
        exact absurd (hok.freed.1.symm.trans hτ) (by simp)
      refine ⟨τ, ?_, hkind, hv⟩
      rw [htimers, if_neg hne]
      exact hτ
    · rw [htimers] at hτ
      split at hτ
      · obtain rfl := Option.some.inj hτ
        exact hok.referent hs hu
      · exact referent_of_points (howned.owned t τ hτ hv)
    · have hrestored := TimerSvc.Counted.restore (τ := σ) hcounted hok.freed.1 hok.freed.2
      rw [tmsvc, hhandled]
      exact hrestored

/-- A new pool has no timers. -/
theorem create_counted (maxFds : Int) : (EpPool.create maxFds).Counted :=
  ⟨fun t τ hτ => absurd hτ (by simp [EpPool.create]), rfl⟩

/-- **Timer pointers never dangle**: in every state of every run whose callbacks do not call
    `sk_ep_send`, every pointer leads to a valid timer, every valid timer is about something that
    is not freed, and `timer_alive` is the number of timers. -/
theorem neverDangling_of_reach (h : machine.Reach CallbacksQuiet s) : s.NeverDangling := by
  have hpool : EpPool.machine.Reach EpPool.CallbacksQuiet s.pool := reach_pool h
  have hinv : s.Handled ∧ s.pool.Counted ∧ s.pool.Sound := by
    refine h.invariant (I := fun s => s.Handled ∧ s.pool.Counted ∧ s.pool.Sound) ?_ ?_
    · rintro s ⟨⟨maxFds, hcreate⟩, hnone⟩
      rw [hcreate]
      refine ⟨fun t τ hhandled => ?_, create_counted maxFds, EpPool.create_sound maxFds⟩
      exact absurd (hnone.symm.trans hhandled) (by simp)
    · rintro s a s' ⟨hhandled, hcounted, hs⟩ henabled hquiet hx
      obtain rfl := Except.ok.inj hx
      exact ⟨hhandled.exec hs henabled hquiet, EpPool.exec_counted hcounted a, hs.exec henabled⟩
  exact hinv.1.neverDangling hinv.2.2 hinv.2.1 (EpPool.reach_undisturbed hpool).1

theorem create_init (maxFds : Int) : machine.init ⟨.create maxFds, none⟩ := ⟨⟨maxFds, rfl⟩, rfl⟩

/-- The time of a request is over, and its callback runs; the shutdown timer is there, and so is
    the timer whose event is handled. -/
def timingOut : EpLoop :=
  machine.final ⟨.create 4, none⟩ [.send (EpPool.sampleRequest 1000) ⟨0, .now, true⟩, .tick 1000,
    .trigger 1, .timer 1]

/-- A request times out while its callback sends another one. -/
theorem timingOut_neverDangling : timingOut.NeverDangling ∧ timingOut.pool.stack = [.timeout 0 0] ∧
    timingOut.tmsvc.timerAlive = 2 :=
  ⟨neverDangling_of_reach (Machine.final_reach (.init (create_init 4)) _ (by decide +kernel)),
    by decide +kernel, by decide +kernel⟩

end EpLoop

end Skull
