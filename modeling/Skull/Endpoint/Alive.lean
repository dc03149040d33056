import Skull.Endpoint.Runs
import Mathlib.Data.Finset.Card

namespace Skull

open Machines

/-!
# The timers that exist

* `TimerSvc.live`, `TimerSvc.Counted` — the timers in the service, and that `timer_alive` is their
  number;
* `EpPool.Kept`, `EpPool.Handling` — what parts of a handler leave that only cancel timers;
* `EpPool.step_counted` — every step of a pool keeps its timers counted.
-/

namespace TimerSvc

variable {κ : Type} {s : TimerSvc κ} {t : TimerId} {τ : Timer κ}

/-- The timers in the service. -/
def live (s : TimerSvc κ) : Finset TimerId :=
  (Finset.range s.created).filter fun t => (s.timers t).isSome

/-- **`timer_alive` is the number of timers**, as a `uint32_t`. -/
structure Counted (s : TimerSvc κ) : Prop where
  fresh : ∀ t τ, s.timers t = some τ → t < s.created
  alive : s.timerAlive = UInt32.ofNat s.live.card

/-- A timer is among those that count when it is there. -/
theorem Counted.mem_live (h : s.Counted) : t ∈ s.live ↔ (s.timers t).isSome := by
  rw [live, Finset.mem_filter, Finset.mem_range, and_iff_right_iff_imp]
  intro hsome
  obtain ⟨τ, hτ⟩ := Option.isSome_iff_exists.mp hsome
  exact h.fresh t τ hτ

/-- A timer that is there changes. -/
theorem Counted.set (h : s.Counted) (ht : (s.timers t).isSome) : (s.set t (some τ)).Counted := by
  obtain ⟨σ, hσ⟩ := Option.isSome_iff_exists.mp ht
  refine ⟨fun i ρ hρ => ?_, ?_⟩
  · rw [set_timers] at hρ
    split at hρ
    · rename_i hi
      exact hi ▸ h.fresh t σ hσ
    · exact h.fresh i ρ hρ
  · have hsame : (s.set t (some τ)).live = s.live := by
      apply Finset.filter_congr
      intro i _
      rw [set_timers]
      split
      · rename_i hi
        rw [hi, ht]
        rfl
      · rfl
    rw [hsame]
    exact h.alive

/-- So does one that is cancelled. -/
theorem Counted.cancel (h : s.Counted) {s' : TimerSvc κ} (hs : s.cancel t = some s') :
    s'.Counted := by
  obtain ⟨τ, hτ, rfl⟩ := Option.map_eq_some_iff.mp hs
  exact h.set (by rw [hτ]; rfl)

/-- Cancelling a timer keeps `J`. -/
def CancelKeeps (J : TimerSvc κ → Prop) : Prop :=
  ∀ s t s', J s → s.cancel t = some s' → J s'

/-- Cancelling keeps the count, as the loops below ask for. -/
theorem counted_cancel : CancelKeeps (Counted : TimerSvc κ → Prop) := fun _ _ _ h hs => h.cancel hs

/-- A timer that was freed is not there again. -/
theorem freed_cancel (t : TimerId) :
    CancelKeeps fun s : TimerSvc κ => s.timers t = none ∧ t < s.created := by
  rintro s i s' ⟨hnone, hlt⟩ hs
  obtain ⟨τ, hτ, rfl⟩ := Option.map_eq_some_iff.mp hs
  refine ⟨?_, hlt⟩
  rw [set_timers, if_neg]
  · exact hnone
  · rintro rfl
    exact absurd (hnone.symm.trans hτ) (by simp)

/-- A timer that is handled is gone. -/
theorem Counted.trigger (h : s.Counted) {s' : TimerSvc κ} (hs : s.trigger t = some s') :
    s'.Counted := by
  obtain ⟨τ, hτ, rfl⟩ := Option.map_eq_some_iff.mp hs
  exact h.set (by rw [hτ]; rfl)

/-- A reset timer is there still, or a new one is in its place. -/
theorem Counted.reset (h : s.Counted) {delay : Nat} {inTime : Bool} {s' : TimerSvc κ}
    (hs : s.reset t delay = some (inTime, s')) : s'.Counted := by
  obtain ⟨τ, hτ, heq⟩ := Option.map_eq_some_iff.mp hs
  split at heq
  · obtain ⟨-, rfl⟩ := Prod.mk.inj heq
    exact h
  · obtain ⟨-, rfl⟩ := Prod.mk.inj heq
    exact h.set (by rw [hτ]; rfl)

/-- A new timer. -/
theorem Counted.create (h : s.Counted) (kind : κ) (delay : Nat) :
    (s.create kind delay).Counted := by
  -- the number of the new timer was never used
  have hnot : s.created ∉ s.live := by
    rw [live, Finset.mem_filter, Finset.mem_range]
    exact fun hmem => Nat.lt_irrefl _ hmem.1
  -- so one more is alive
  have hlive : (s.create kind delay).live = insert s.created s.live := by
    ext i
    rw [live, Finset.mem_filter, Finset.mem_range, create_created, create_timers,
      Finset.mem_insert, live, Finset.mem_filter, Finset.mem_range]
    by_cases hi : i = s.created
    · simp [hi]
    · rw [if_neg hi]
      constructor
      · rintro ⟨hlt, hsome⟩
        exact .inr ⟨Nat.lt_of_le_of_ne (Nat.le_of_lt_succ hlt) hi, hsome⟩
      · rintro (heq | ⟨hlt, hsome⟩)
        · exact absurd heq hi
        · exact ⟨Nat.lt_succ_of_lt hlt, hsome⟩
  refine ⟨fun i ρ hρ => ?_, ?_⟩
  · rw [create_timers] at hρ
    rw [create_created]
    split at hρ
    · rename_i hi
      rw [hi]
      exact Nat.lt_succ_self _
    · exact Nat.lt_succ_of_lt (h.fresh i ρ hρ)
  · rw [hlive, Finset.card_insert_of_notMem hnot, UInt32.ofNat_add, ← h.alive]
    rfl

/-- A timer is freed. -/
theorem Counted.destroy (h : s.Counted) (ht : (s.timers t).isSome) : (s.destroy t).Counted := by
  have hmem : t ∈ s.live := h.mem_live.mpr ht
  have hlive : (s.destroy t).live = s.live.erase t := by
    ext i
    rw [live, Finset.mem_filter, destroy_created, destroy_timers, Finset.mem_erase, live,
      Finset.mem_filter]
    by_cases hi : i = t
    · simp [hi]
    · rw [if_neg hi]
      exact ⟨fun hold => ⟨hi, hold⟩, fun hold => hold.2⟩
  refine ⟨fun i ρ hρ => ?_, ?_⟩
  · rw [destroy_timers] at hρ
    split at hρ
    · exact absurd hρ (by simp)
    · exact h.fresh i ρ hρ
  · show s.timerAlive - 1 = _
    rw [hlive, h.alive, ← Finset.card_erase_add_one hmem, UInt32.ofNat_add]
    exact UInt32.add_sub_cancel _ _

/-- A timer that was freed is there still. -/
theorem Counted.restore (h : s.Counted) (ht : s.timers t = none) (hlt : t < s.created) :
    Counted { s.set t (some τ) with timerAlive := s.timerAlive + 1 } := by
  have hnot : t ∉ s.live := fun hmem => by
    rw [h.mem_live, ht] at hmem
    exact absurd hmem (by simp)
  have hlive : live { s.set t (some τ) with timerAlive := s.timerAlive + 1 } =
      insert t s.live := by
    ext i
    rw [live, Finset.mem_filter, set_created, set_timers, Finset.mem_insert, live,
      Finset.mem_filter]
    by_cases hi : i = t
    · simp [hi, hlt]
    · rw [if_neg hi, or_iff_right hi]
  refine ⟨fun i ρ hρ => ?_, ?_⟩
  · show i < s.created
    rw [set_timers] at hρ
    split at hρ
    · rename_i hi
      exact hi ▸ hlt
    · exact h.fresh i ρ hρ
  · show s.timerAlive + 1 = _
    rw [hlive, Finset.card_insert_of_notMem hnot, UInt32.ofNat_add, ← h.alive]
    rfl

/-- Time changes no timer. -/
theorem Counted.elapse (h : s.Counted) (ms : Nat) : (s.elapse ms).Counted := ⟨h.fresh, h.alive⟩

end TimerSvc

namespace EpPool

variable {p : EpPool} {x : EpId} {e : Ep} {n : EpNode}

/-- The timers of a pool are counted. -/
def Counted (p : EpPool) : Prop := p.tmsvc.Counted

/-- What is known of the timers, and the callbacks that run. -/
def Kept (J : TimerSvc EpTimerKind → Prop) (stack : List EpFrame) (p : EpPool) : Prop :=
  J p.tmsvc ∧ p.stack = stack

/-- After `_handle_error` on `x`: it has ended, or calls back a request of its endpoint. -/
def Handling (J : TimerSvc EpTimerKind → Prop) (stack : List EpFrame) (x : EpId) (p : EpPool) :
    Prop :=
  J p.tmsvc ∧ (p.stack = stack ∨ ∃ n before turns, p.stack = .error x n before turns :: stack)

/-! ### Handlers that only cancel timers -/

section Kept

variable {J : TimerSvc EpTimerKind → Prop} {stack : List EpFrame}
  (hJ : TimerSvc.CancelKeeps J)

/-- `ep` only looks. -/
theorem ep_kept (h : p.Kept J stack) : Ensures (p.ep x) fun _ => p.Kept J stack := fun _ _ => h

include hJ

/-- Cancelling a timer keeps all but the timer service. -/
theorem cancel_kept (h : p.Kept J stack) (t : Option TimerId) :
    Ensures (p.cancel t) (Kept J stack) := by
  cases t with
  | none => exact ensures_ok h
  | some t =>
    rw [cancel]
    split
    · exact ensures_error
    · rename_i s hs
      exact ensures_ok ⟨hJ _ _ _ h.1 hs, h.2⟩

/-- So does the destruction of a request. -/
theorem nodeDestroy_kept (h : p.Kept J stack) (n : EpNode) (release : Bool) :
    Ensures (p.nodeDestroy x n release) (Kept J stack) := by
  refine (cancel_kept hJ h _).bind fun q hq => ?_
  have hlog : Kept J stack
      (if release then { q with log := q.log ++ [.released n.id] } else q) := by
    split <;> exact hq
  exact (ep_kept hlog).bind fun e hlog => ensures_ok hlog

/-- So does the loop over the requests of an endpoint. -/
theorem destroyNodes_kept (ns : List EpNode) (h : p.Kept J stack) :
    Ensures (destroyNodes x ns p) (Kept J stack) := by
  induction ns generalizing p with
  | nil => exact ensures_ok h
  | cons n ns ih =>
    rw [destroyNodes]
    split
    · exact ensures_error
    · rename_i q hq
      exact ih (nodeDestroy_kept hJ h n true q hq)

/-- So does the destruction of an endpoint. -/
theorem epDestroy_kept (h : p.Kept J stack) : Ensures (p.epDestroy x) (Kept J stack) := by
  refine (ep_kept h).bind fun e _ => ?_
  refine (cancel_kept hJ h _).bind fun q hq => ?_
  refine (cancel_kept hJ hq _).bind fun r hr => ?_
  exact (destroyNodes_kept hJ e.txns hr).bind fun s hs => ensures_ok hs

/-- So does taking it out of its manager. -/
theorem mgrDel_kept (h : p.Kept J stack) : Ensures (p.mgrDel x) (Kept J stack) :=
  (ep_kept h).bind fun e _ => epDestroy_kept hJ (p := p.setMgr e.type _) h

/-- The loop of `_handle_error` keeps it, up to the callback that it stops at. -/
theorem drain_handling (ns : List EpNode) (before turns : Nat) (h : p.Kept J stack) :
    Ensures (drain x before turns ns p) (Handling J stack x) := by
  induction ns generalizing p turns with
  | nil =>
    have hdel := mgrDel_kept hJ (p := { p with drains := p.drains ++ [(before, turns)] }) (x := x) h
    exact hdel.mono fun q hq => ⟨hq.1, .inl hq.2⟩
  | cons n ns ih =>
    refine (ep_kept h).bind fun e _ => ?_
    split
    · refine ensures_ok ⟨h.1, .inr ⟨n, before, turns + 1, ?_⟩⟩
      rw [← h.2]
      rfl
    · dsimp only
      split
      · exact ensures_error
      · rename_i q hq
        exact ih (turns + 1) (nodeDestroy_kept hJ (p := p.setEp x _) h n false q hq)

/-- So does `_handle_error`. -/
theorem handleError_handling (h : p.Kept J stack) :
    Ensures (p.handleError x) (Handling J stack x) :=
  (ep_kept h).bind fun e _ =>
    drain_handling hJ (p := { p with errors := p.errors ++ [x] }) e.txns e.txns.length 0 h

/-- So does the loop when a callback returns. -/
theorem returnError_handling (h : p.Kept J stack) (n : EpNode) (before turns : Nat) :
    Ensures (p.returnError x n before turns) (Handling J stack x) := by
  refine (nodeDestroy_kept hJ h n true).bind fun q hq => ?_
  exact (ep_kept hq).bind fun e _ => drain_handling hJ e.txns before turns hq

/-- A callback of a timeout returns. -/
theorem returnTimeout_kept (h : p.Kept J stack) (req : ReqId) :
    Ensures (p.returnTimeout x req) (Kept J stack) := by
  refine (ep_kept h).bind fun e _ => ?_
  split
  · exact ensures_error
  · exact nodeDestroy_kept hJ h _ true

end Kept

/-! ### All handlers -/

section Counted

/-- `ep` only looks. -/
theorem ep_counted (h : p.Counted) : Ensures (p.ep x) fun _ => p.Counted := fun _ _ => h

/-- A cancelled timer counts. -/
theorem cancel_counted (h : p.Counted) (t : Option TimerId) : Ensures (p.cancel t) Counted :=
  (cancel_kept TimerSvc.counted_cancel ⟨h, rfl⟩ t).mono fun _ hq => hq.1

/-- The timer of a request that is destroyed is cancelled. -/
theorem nodeDestroy_counted (h : p.Counted) (n : EpNode) (release : Bool) :
    Ensures (p.nodeDestroy x n release) Counted :=
  (nodeDestroy_kept TimerSvc.counted_cancel ⟨h, rfl⟩ n release).mono fun _ hq => hq.1

/-- The timers of an endpoint that is destroyed are. -/
theorem epDestroy_counted (h : p.Counted) : Ensures (p.epDestroy x) Counted :=
  (epDestroy_kept TimerSvc.counted_cancel ⟨h, rfl⟩).mono fun _ hq => hq.1

/-- The manager has no timers. -/
theorem mgrDel_counted (h : p.Counted) : Ensures (p.mgrDel x) Counted :=
  (mgrDel_kept TimerSvc.counted_cancel ⟨h, rfl⟩).mono fun _ hq => hq.1

/-- `_handle_error` only cancels timers. -/
theorem handleError_counted (h : p.Counted) : Ensures (p.handleError x) Counted :=
  (handleError_handling TimerSvc.counted_cancel ⟨h, rfl⟩).mono fun _ hq => hq.1

/-- A new timer counts. -/
theorem createTimer_counted (h : p.Counted) (kind : EpTimerKind) (timeout : Nat) :
    (p.createTimer kind timeout).2.Counted := by
  rw [createTimer]
  split
  · exact h
  · exact TimerSvc.Counted.create h kind timeout

/-- A shutdown timer is made. -/
theorem newShutdownTimer_counted (h : p.Counted) (expiration : UInt32) :
    Ensures (p.newShutdownTimer x expiration) Counted := by
  have hcreate := createTimer_counted h (.shutdown x) expiration.toNat
  rw [newShutdownTimer]
  split
  · exact ensures_error
  · rename_i t q hq
    rw [hq] at hcreate
    exact (ep_counted hcreate).map fun e hq => hq

/-- A shutdown timer is made, or reset. -/
theorem createShutdownTimer_counted (h : p.Counted) (expiration : UInt32) :
    Ensures (p.createShutdownTimer x expiration) Counted := by
  refine (ep_counted h).bind fun e _ => ?_
  split
  · exact newShutdownTimer_counted h expiration
  · split
    · exact ensures_error
    · rename_i s hs
      exact ensures_ok (TimerSvc.Counted.reset h hs)
    · exact (cancel_counted h _).bind fun q hq => newShutdownTimer_counted hq expiration

/-- The managers have no timers. -/
theorem setMgr_counted (h : p.Counted) (type : EpType) (m : EpMgr) : (p.setMgr type m).Counted := h

/-- What is known of a request changes. -/
theorem setNode_counted (h : p.Counted) (n : EpNode) : Ensures (p.setNode x n) Counted :=
  (ep_counted h).map fun _ h => h

/-- A callback with an answer returns. -/
theorem returnOk_counted (h : p.Counted) (req : ReqId) : Ensures (p.returnOk x req) Counted := by
  refine (ep_counted h).bind fun e _ => ?_
  split
  · exact ensures_error
  · exact (createShutdownTimer_counted h _).bind fun q hq => nodeDestroy_counted hq _ true

/-- A callback of a timeout returns. -/
theorem returnTimeout_counted (h : p.Counted) (req : ReqId) :
    Ensures (p.returnTimeout x req) Counted :=
  (returnTimeout_kept TimerSvc.counted_cancel ⟨h, rfl⟩ req).mono fun _ hq => hq.1

/-- A callback with an error returns. -/
theorem returnError_counted (h : p.Counted) (n : EpNode) (before turns : Nat) :
    Ensures (p.returnError x n before turns) Counted :=
  (returnError_handling TimerSvc.counted_cancel ⟨h, rfl⟩ n before turns).mono fun _ hq => hq.1

/-- Whichever callback returns. -/
theorem return_counted (h : p.Counted) : Ensures p.return Counted := by
  rw [EpPool.return]
  split
  · exact ensures_ok h
  · rename_i frame stack _
    have hq : Counted { p with stack } := h
    cases frame with
    | ok x req => exact returnOk_counted hq req
    | timeout x req => exact returnTimeout_counted hq req
    | error x n before turns => exact returnError_counted hq n before turns

/-- The endpoint that was found, or a new one. -/
def pick (p : EpPool) (type : EpType) (req : EpRequest) :
    Option EpId → Except EpFault (EpId × EpPool)
  | some x => do
    let e ← p.ep x
    .ok (x, { p with reuses := p.reuses ++ [{ id := x, ep := e, dying := p.dying x }] })
  | none => .ok (p.nextEp, p.epCreate type req.key)

/-- A TCP connection begins, with a timer. -/
theorem createEntityTcp_counted (h : p.Counted) (n : EpNode) (connect : EpConnect) :
    Ensures (p.createEntityTcp x n connect) fun r => r.2.Counted := by
  rw [createEntityTcp]
  split
  · exact ensures_ok h
  · refine (ep_counted h).bind fun e _ => ?_
    split
    · exact (cancel_counted h _).bind fun q hq => ensures_ok hq
    · split
      · exact ensures_ok (createTimer_counted h _ _)
      · exact ensures_ok h
    · exact ensures_ok h

/-- A UDP endpoint needs none. -/
theorem createEntityUdp_counted (h : p.Counted) (connect : EpConnect) :
    Ensures (p.createEntityUdp x connect) fun r => r.2.Counted := by
  refine (ep_counted h).bind fun e _ => ?_
  split <;> exact ensures_ok h

/-- The endpoint for a request, from `_find_ep` on, as a sequence of parts. -/
theorem findOrCreate_eq (p : EpPool) (type : EpType) (req : EpRequest) (n : EpNode)
    (env : EpSendEnv) : p.findOrCreate type req n env =
      (p.find type req >>= fun found => p.pick type req found >>= fun r => r.2.ep r.1 >>= fun e =>
        if e.status = .init then
          ({ r.2.setEp r.1 (some { e with txns := e.txns ++ [n], ntxn := e.ntxn + 1 }) with
            tmsvc := r.2.tmsvc.elapse env.delay } : EpPool).createEntity type r.1 n env.connect >>=
              createEnd r.1 n
        else .ok (some r.1,
          r.2.setEp r.1 (some { e with txns := e.txns ++ [n], ntxn := e.ntxn + 1 }))) := by
  rw [findOrCreate]
  congr 1
  funext found
  cases found with
  | none => cases type <;> rfl
  | some x =>
    dsimp only [pick]
    cases p.ep x with
    | error f => rfl
    | ok e => cases type <;> rfl

/-- An endpoint is found, or made. -/
theorem findOrCreate_counted (h : p.Counted) (type : EpType) (req : EpRequest) (n : EpNode)
    (env : EpSendEnv) : Ensures (p.findOrCreate type req n env) fun r => r.2.Counted := by
  rw [findOrCreate_eq]
  refine Ensures.bind (P := fun _ => True) (fun _ _ => trivial) fun found _ => ?_
  refine Ensures.bind (P := fun r : EpId × EpPool => r.2.Counted) ?_ fun r hr => ?_
  · cases found with
    | none => exact ensures_ok h
    | some x => exact (ep_counted h).bind fun e _ => ensures_ok h
  refine (ep_counted hr).bind fun e _ => ?_
  split
  · have helapse : TimerSvc.Counted (r.2.tmsvc.elapse env.delay) :=
      TimerSvc.Counted.elapse hr env.delay
    refine Ensures.bind (P := fun r : Bool × EpPool => r.2.Counted) ?_ fun c hc => ?_
    · cases type with
      | tcp => exact createEntityTcp_counted (p := { r.2.setEp r.1 _ with
          tmsvc := r.2.tmsvc.elapse env.delay }) helapse n env.connect
      | udp => exact createEntityUdp_counted (p := { r.2.setEp r.1 _ with
          tmsvc := r.2.tmsvc.elapse env.delay }) helapse env.connect
    · rw [createEnd]
      split
      · exact ensures_ok hc
      · refine (nodeDestroy_counted hc n false).bind fun q hq => ?_
        exact (mgrDel_counted hq).bind fun s hs => ensures_ok hs
  · exact ensures_ok hr

/-- A request is sent, with the timers that it needs. -/
theorem epSend_counted (h : p.Counted) (n : EpNode) (written : Bool) :
    Ensures (p.epSend x n written) fun r => r.2.Counted := by
  refine (ep_counted h).bind fun e _ => ?_
  split
  · split
    · exact (setNode_counted h _).map fun q hq => hq
    · exact ensures_error
  · split
    · exact ensures_error
    · split
      · exact (handleError_counted h).map fun q hq => hq
      · have hwritten : Counted (p.setEp x (some { e with sent := e.sent + 1 })) := h
        dsimp only
        split
        · refine (createShutdownTimer_counted hwritten _).bind fun q hq => ?_
          split
          · exact (setNode_counted (createTimer_counted hq _ _) _).map fun r hr => hr
          · exact (setNode_counted hq _).map fun r hr => hr
        · split
          · refine (createShutdownTimer_counted hwritten _).bind fun q hq => ?_
            exact (setNode_counted hq _).map fun r hr => hr
          · exact (setNode_counted hwritten _).map fun r hr => hr

/-- The callback of a request that is refused is not run. -/
theorem returns_counted (h : p.Counted) (req : ReqId) (ok : Bool) : (p.returns req ok).Counted := by
  rw [returns]
  split <;> exact h

/-- `sk_ep_send`. -/
theorem send_counted (h : p.Counted) (req : EpRequest) (env : EpSendEnv) :
    Ensures (p.send req env) Counted := by
  have hbegun : Counted { p with calls := p.calls + 1 } := h
  rw [send]
  dsimp only
  split
  · exact ensures_ok (returns_counted hbegun _ _)
  · split
    · exact ensures_ok (returns_counted hbegun _ _)
    · refine (findOrCreate_counted (setMgr_counted hbegun _ _) _ req _ env).bind fun r hr => ?_
      split
      · exact ensures_ok (returns_counted hr _ _)
      · exact (epSend_counted hr _ _).bind fun s hs => ensures_ok (returns_counted hs _ _)

/-- Bytes come in. -/
theorem readCb_counted (h : p.Counted) (arrived : Option (List UInt8)) (results : List Int) :
    Ensures (p.readCb x arrived results) Counted := by
  refine (ep_counted h).bind fun e _ => ?_
  split
  · exact ensures_error
  · split
    · exact ensures_ok h
    · dsimp only
      split
      · exact ensures_ok h
      · split
        · exact ensures_ok h
        · split
          · exact handleError_counted (p := p.setEp x _) h
          · refine (cancel_counted (p := p.setEp x _) h _).bind fun q hq => ?_
            exact (setNode_counted (p := q.setEp x _) hq _).bind fun r hr => ensures_ok hr

/-- The requests that waited for the connection are sent. -/
theorem sendEach_counted (ns : List EpNode) (written : List Bool) (h : p.Counted) :
    Ensures (sendEach x ns written p) Counted := by
  induction ns generalizing p written with
  | nil => exact ensures_ok h
  | cons n ns ih =>
    rw [sendEach]
    split
    · exact ensures_error
    · split
      · exact ensures_error
      · rename_i q hq
        exact ensures_ok (epSend_counted h n _ _ hq)
      · rename_i q hq
        exact ih written.tail (epSend_counted h n _ _ hq)

/-- A connection is made, or fails. -/
theorem onConnect_counted (h : p.Counted) (connected : Bool) (written : List Bool) :
    Ensures (p.onConnect x connected written) Counted := by
  refine (ep_counted h).bind fun e _ => ?_
  split
  · exact handleError_counted h
  · split
    · exact ensures_error
    · exact (cancel_counted h _).bind fun q hq =>
        sendEach_counted (p := q.setEp x _) e.txns written hq

/-- A timer expires. -/
theorem timerCb_counted (h : p.Counted) (kind : EpTimerKind) :
    Ensures (p.timerCb kind) Counted := by
  cases kind with
  | conn x =>
    refine (ep_counted h).bind fun e _ => ?_
    split
    · exact ensures_error
    · exact handleError_counted (p := p.setEp x _) h
  | recv x req =>
    refine (ep_counted h).bind fun e _ => ?_
    split
    · exact ensures_error
    · exact (setNode_counted h _).bind fun q hq => ensures_ok hq
  | shutdown x =>
    exact (ep_counted h).bind fun e _ => handleError_counted (p := p.setEp x _) h

/-- A timer expires, and is destroyed. -/
theorem timerTriggered_counted (h : p.Counted) (t : TimerId) :
    Ensures (p.timerTriggered t) Counted := by
  rw [timerTriggered]
  split
  · exact ensures_error
  · rename_i τ hτ
    have hfreed : TimerSvc.Counted (p.tmsvc.destroy t) :=
      TimerSvc.Counted.destroy h (by rw [hτ]; rfl)
    dsimp only
    split
    · exact timerCb_counted (p := { p with tmsvc := p.tmsvc.destroy t }) hfreed τ.kind
    · exact ensures_ok hfreed

/-- All endpoints are destroyed. -/
theorem epDestroyAll_counted (xs : List EpId) (h : p.Counted) :
    Ensures (epDestroyAll xs p) Counted := by
  induction xs generalizing p with
  | nil => exact ensures_ok h
  | cons x xs ih =>
    rw [epDestroyAll]
    split
    · exact ensures_error
    · rename_i q hq
      exact ih (epDestroy_counted h q hq)

/-- The pool is destroyed. -/
theorem poolDestroy_counted (h : p.Counted) : Ensures p.poolDestroy Counted :=
  (epDestroyAll_counted _ h).map fun _ hq => hq

/-- **Every step** keeps the timers counted. -/
theorem step_counted (h : p.Counted) (a : EpAction) : Ensures (p.step a) Counted := by
  cases a with
  | send req env => exact send_counted h req env
  | «return» => exact return_counted h
  | read x arrived results => exact readCb_counted h arrived results
  | error x => exact handleError_counted h
  | connect x connected written => exact onConnect_counted h connected written
  | tick ms => exact ensures_ok (TimerSvc.Counted.elapse h ms)
  | trigger t =>
    rw [step]
    split
    · exact ensures_ok h
    · rename_i s hs
      exact ensures_ok (TimerSvc.Counted.trigger h hs)
  | timer t => exact timerTriggered_counted h t
  | destroy => exact poolDestroy_counted h

/-- **Every action keeps the count**. -/
theorem exec_counted (h : p.Counted) (a : EpAction) : (p.exec a).Counted := by
  rw [exec]
  split
  · exact h
  · rename_i q hq
    exact step_counted h a q hq

end Counted

end EpPool

end Skull
