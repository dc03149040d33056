import Skull.Txn.Services
import Skull.Service.Exclusion

namespace Skull

open Machines

/-!
# Service calls complete once

What the account of `Skull.Txn.Account` says of the service calls in every state that a run
reaches:

* `TxnSystem.CompletesOnce` — the end of a call is handled once, the master is told once if the
  call was scheduled, and its pending calls are counted;
* `TxnSystem.reach_callsOnce` — a call that has not ended is still in the system, and when nothing
  is in flight or pending every call has ended.

Whether the steps of a call come to their end is the subject of `Skull.Txn.Aborts`.
-/

/-- The stage is a pending call. -/
def Stage.isCall : Stage → Bool
  | .call _ => true
  | _ => false

namespace Progress

/-- The pending calls of a task are those the system shows. -/
theorem countP_isCall (home : Sched) (p : Progress) :
    (p.stages home).countP (·.isCall) = p.calls := by
  cases p
  case calling host n told =>
    have hcalls : (Multiset.replicate (n + 1) (Stage.call host)).countP (·.isCall) = n + 1 := by
      rw [Multiset.countP_eq_card.mpr fun a ha => Multiset.eq_of_mem_replicate ha ▸ rfl,
        Multiset.card_replicate]
    have huntold : (untold host home told).countP (·.isCall) = 0 := by cases told <;> rfl
    rw [stages, Multiset.countP_add, hcalls, huntold]
    rfl
  case ending host told => cases told <;> rfl
  all_goals rfl

variable (t : TaskRef) (p : Progress)

/-- A task is terminal once, when it is done. -/
theorem count_terminal : (p.marks t).count (.terminal t) = if p.isDone then 1 else 0 := by
  cases h₁ : p.isScheduled <;> cases h₂ : p.isReported <;> cases h₃ : p.isDone <;>
    simp [marks, h₁, h₂, h₃]

/-- It is completed once, when it is done. -/
theorem count_setcomplete : (p.marks t).count (.setcomplete t) = if p.isDone then 1 else 0 := by
  cases h₁ : p.isScheduled <;> cases h₂ : p.isReported <;> cases h₃ : p.isDone <;>
    simp [marks, h₁, h₂, h₃]

/-- It is scheduled once, when it is. -/
theorem count_scheduled : (p.marks t).count (.scheduled t) = if p.isScheduled then 1 else 0 := by
  cases h₁ : p.isScheduled <;> cases h₂ : p.isReported <;> cases h₃ : p.isDone <;>
    simp [marks, h₁, h₂, h₃]

/-- The service is told once, when it is. -/
theorem count_taskDone : (p.marks t).count (.taskDone t) = if p.isReported then 1 else 0 := by
  cases h₁ : p.isScheduled <;> cases h₂ : p.isReported <;> cases h₃ : p.isDone <;>
    simp [marks, h₁, h₂, h₃]

variable {p}

/-- Only a task that was scheduled is reported. -/
theorem scheduled_of_reported (h : p.isReported = true) : p.isScheduled = true := by
  cases p <;> simp_all [isReported, isScheduled]

/-- A task that ended was reported if it was scheduled. -/
theorem reported_of_done (h : p.isDone = true) : p.isReported = p.isScheduled := by
  cases p <;> simp_all [isReported, isScheduled, isDone]

/-- A task that has not ended is in the system. -/
theorem stages_ne_zero (home : Sched) (hp : p ≠ .absent) (h : p.isDone = false) :
    p.stages home ≠ 0 := by
  cases p <;> simp_all [stages, isDone, Multiset.replicate_succ]

end Progress

namespace TxnSystem

variable {s : TxnSystem} {bioCnt : Nat}

/-- The marks of a task in the log are those of its point. -/
theorem Accounts.count {t : TaskRef} {p : Progress} (h : s.Accounts t p) {m : Mark}
    (hm : m.task = some t) : s.log.count m = (p.marks t).count m := by
  rw [← h.marks, marksOf, Multiset.coe_count, List.count_filter (by simpa using hm)]

/-- The pending calls of `t` that were not called back. -/
def outstanding (s : TxnSystem) (t : TaskRef) : Nat := (s.stages t).countP (·.isCall)

/-- What holds of a service call: `k` is its entry in the task table. -/
structure CompletesOnce (s : TxnSystem) (t : TaskRef) (k : TxnTask) : Prop where
  /-- Its end is handled once. -/
  terminal : s.log.count (.terminal t) = if k.incomplete then 0 else 1
  setcomplete : s.log.count (.setcomplete t) = if k.incomplete then 0 else 1
  /-- The master is told that it is done once, and only if it was scheduled. -/
  scheduled : s.log.count (.scheduled t) ≤ 1
  taskDone : s.log.count (.taskDone t) ≤ s.log.count (.scheduled t)
  reported : k.incomplete = false → s.log.count (.taskDone t) = s.log.count (.scheduled t)
  /-- Its pending calls are counted. -/
  pendings : k.pendings = s.outstanding t
  /-- As long as it has not ended it is in the system, and its transaction is there. -/
  alive : k.incomplete = true →
    s.stages t ≠ 0 ∧ ∃ slot, s.txns[t.txn]? = some slot ∧ slot.released = false

/-- A task of a point. -/
theorem Inv.completesOnce (h : s.Inv) {t : TaskRef} {k : TxnTask} (hk : s.entry t = some k) :
    s.CompletesOnce t k := by
  obtain ⟨p, hp⟩ := h.accounts t
  have hinc := hp.entry.incomplete k hk
  have hpa : p ≠ .absent := fun ha => by
    rw [hp.entry.absent.mp ha] at hk
    exact absurd hk (by simp)
  refine ⟨?_, ?_, ?_, ?_, fun hdone => ?_, ?_, fun halive => ⟨?_, ?_⟩⟩
  · rw [hp.count rfl, p.count_terminal, hinc]
    cases p.isDone <;> rfl
  · rw [hp.count rfl, p.count_setcomplete, hinc]
    cases p.isDone <;> rfl
  · rw [hp.count rfl, p.count_scheduled]
    split <;> omega
  · rw [hp.count rfl, hp.count rfl, p.count_scheduled, p.count_taskDone]
    cases hr : p.isReported with
    | false => simp
    | true => simp [Progress.scheduled_of_reported hr]
  · have hd : p.isDone = true := by simpa [hinc] using hdone
    rw [hp.count rfl, hp.count rfl, p.count_scheduled, p.count_taskDone,
      Progress.reported_of_done hd]
  · rw [hp.entry.pendings k hk, outstanding, hp.stages, Progress.countP_isCall]
  · have hd : p.isDone = false := by simpa [hinc] using halive
    rw [hp.stages]
    exact Progress.stages_ne_zero _ hpa hd
  · -- a released transaction has no such task
    cases hslot : s.txns[t.txn]? with
    | none => simp [entry, hslot] at hk
    | some slot =>
      refine ⟨slot, rfl, ?_⟩
      by_contra hrel
      have hs := h.sound _ slot hslot
      have hall := hs.counts.alltaskComplete_iff.mp (hs.released (by simpa using hrel))
      rw [entry_eq hslot] at hk
      exact absurd ((hall k (List.mem_of_getElem? hk)).symm.trans halive) (by simp)

/-- What holds of all service calls. -/
structure CallsOnce (s : TxnSystem) : Prop where
  once : ∀ t k, s.entry t = some k → s.CompletesOnce t k
  /-- Nothing happened for a call that was not made. -/
  unmade : ∀ t, s.entry t = none → ∀ m ∈ s.log, m.task ≠ some t
  /-- The counters of every transaction are exact. -/
  counters : ∀ (x : TxnId) (slot : TxnSlot), s.txns[x]? = some slot →
    0 ≤ slot.txn.completeTasks ∧ slot.txn.completeTasks ≤ slot.txn.totalTasks ∧
      slot.txn.totalTasks = slot.txn.taskTbl.length ∧ slot.txn.pendingTasks = slot.txn.waiting
  /-- When nothing is in flight or pending, every call was completed. -/
  ended : s.net = [] → s.calls = [] → ∀ t k, s.entry t = some k →
    s.log.count (.terminal t) = 1 ∧ s.log.count (.setcomplete t) = 1 ∧ k.pendings = 0 ∧
      s.log.count (.taskDone t) = s.log.count (.scheduled t)

/-- In every state of every run, each service call has been completed as often as its entry says,
    which is at most once; the pending calls of every task and the counters of every transaction
    are exact.  A call that has not ended is still in the system, so when nothing is in flight or
    pending every call has been completed once. -/
theorem reach_callsOnce (h : (machine bioCnt).Reach Machine.anyStep s) : s.CallsOnce := by
  have hinv := reach_inv h
  refine ⟨fun t k hk => hinv.completesOnce hk, fun t ht m hm hmt => ?_, fun x slot hslot => ?_,
    fun hnet hcalls t k hk => ?_⟩
  · -- a task without an entry has left no mark
    obtain ⟨p, hp⟩ := hinv.accounts t
    obtain rfl := hp.entry.absent.mpr ht
    have hcount := hp.count hmt
    have hpos := List.count_pos_iff.mpr hm
    simp [hcount, Progress.marks, Progress.isScheduled, Progress.isReported, Progress.isDone]
      at hpos
  · have hc := (hinv.sound x slot hslot).counts
    have hle := slot.txn.finished_le
    refine ⟨?_, ?_, hc.total, hc.pending⟩
    · rw [hc.complete]
      omega
    · rw [hc.complete, hc.total]
      omega
  · -- nothing is in the system, so the call has ended
    have hstages : s.stages t = 0 := (reach_tends h).stages_nil hnet hcalls t
    have honce := hinv.completesOnce hk
    have hinc : k.incomplete = false := by
      by_contra hne
      exact (honce.alive (by simpa using hne)).1 hstages
    refine ⟨?_, ?_, ?_, honce.reported hinc⟩
    · simpa [hinc] using honce.terminal
    · simpa [hinc] using honce.setcomplete
    · rw [honce.pendings, outstanding, hstages]
      rfl

/-! A transaction of one module whose `run` makes one service call with a callback; the body makes
an endpoint call and a pending job, and the endpoint callback makes another endpoint call. -/

/-- One service with one read api, and nothing else. -/
def fresh : TxnSystem :=
  { services := [SrvSystem.fresh.svc], txns := [], net := [], calls := [], jobs := 0, log := [] }

theorem fresh_init : Init fresh := by
  refine ⟨fun k svc hk => ?_, rfl, rfl, rfl, rfl⟩
  cases k with
  | zero =>
    obtain rfl := Option.some.inj hk
    exact ⟨true, 0, [(0, .read), (1, .write)], by decide, rfl⟩
  | succ k => simp [fresh] at hk

/-- User code that does nothing. -/
def quiet : UserCode := ⟨⟨[], false⟩, ⟨[], false⟩, fun _ => 0, [], false⟩

/-- The whole way of the transaction. -/
def oneCall : List TxnAction :=
  [.create ⟨1, true, 0⟩ (.worker 0) 0 false, .deliver 0 (.worker 0),
    .handle 0 { quiet with run := ⟨[⟨0, 0, true, 0⟩], false⟩ }, .handle 0 quiet,
    .handle 0 { quiet with calls := [.ep, .job .read] }, .handle 0 quiet, .handle 0 quiet,
    .epCb 0 [.ep], .epCb 1 [], .jobTriggered 0, .handle 0 quiet, .handle 0 quiet, .handle 0 quiet,
    .handle 0 quiet, .handle 0 quiet, .handle 0 quiet]

/-- The system after it. -/
def completed : TxnSystem := ((machine 0).play fresh oneCall).getD fresh

theorem completed_reach : (machine 0).Reach Machine.anyStep completed := by
  have hplay : (machine 0).play fresh oneCall = some completed := by decide +kernel
  exact Machine.play_reach (.init fresh_init) hplay

end TxnSystem

end Skull
