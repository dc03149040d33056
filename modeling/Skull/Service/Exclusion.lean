import Skull.Service.Invariant

namespace Skull

open Machines

/-!
# What a service guarantees

The properties of a service in every state that a run reaches, for both queue modes and any
order of the messages:

* `SrvSystem.readers_writer_exclusion` — the outstanding tasks are reads, or one write, and the
  queue state and the running counter say which;
* `SrvSystem.no_lost_wakeup` — no queued task could be started;
* `SrvSystem.tasks_in_order` — every pushed task is scheduled once or still queued, in the
  order of the policy.
-/

namespace SrvSystem

variable {bioCnt : Nat}

/-- The outstanding tasks are reads or writes. -/
theorem History.outstanding_base {s : SrvSystem} (h : s.History) :
    ∀ t ∈ s.outstanding, t.base = .read ∨ t.base = .write := by
  intro t ht
  have hsched : t ∈ s.scheduled.map Scheduled.task :=
    h.reported.mem_iff.mpr (List.mem_append_right _ ht)
  obtain ⟨x, hx, rfl⟩ := List.mem_map.mp hsched
  refine h.base _ (h.ledger.perm.mem_iff.mpr (List.mem_append_left _ ?_))
  exact List.mem_map.mpr ⟨x.entry, List.mem_map_of_mem hx, rfl⟩

/-- A task is of the kind of its api. -/
theorem kind_eq_read {t : SrvTask} : t.kind = .read ↔ t.base = .read := by
  unfold SrvTask.kind
  split <;> simp_all

/-- Readers–writer exclusion, in terms of tasks. -/
theorem Held.exclusion {s : SrvSystem} {l : RWLock} (h : s.Held bioCnt l) :
    (∀ t ∈ s.outstanding, t.base = .read) ∨ ∃ t, s.outstanding = [t] ∧ t.base = .write := by
  rcases h.holds.exclusion with hreads | hwrite
  · exact .inl fun t ht => kind_eq_read.mp (hreads _ (List.mem_map_of_mem ht))
  · obtain ⟨t, hout, hkind⟩ := List.map_eq_singleton_iff.mp hwrite
    refine .inr ⟨t, hout, ?_⟩
    rcases h.history.outstanding_base t (by simp [hout]) with hr | hw
    · exact absurd (kind_eq_read.mpr hr) (by simp [hkind])
    · exact hw

/-- The queue state and the running counter say what is outstanding. -/
theorem Held.lock_state {s : SrvSystem} {l : RWLock} (h : s.Held bioCnt l) :
    (s.svc.pendingTasks.state = .idle ↔ s.outstanding = []) ∧
      (s.svc.pendingTasks.state = .read ↔
        s.outstanding ≠ [] ∧ ∀ t ∈ s.outstanding, t.base = .read) ∧
      (s.svc.pendingTasks.state = .write ↔ ∃ t, s.outstanding = [t] ∧ t.base = .write) ∧
      s.svc.runningTaskCnt = s.outstanding.length := by
  have hlen : s.outstanding.length = l.holders := by simpa using h.holds.length
  have hlock := h.svc.lock
  have hholds := h.holds
  -- the state is the lock, and the lock says how many hold it
  cases l with
  | free =>
    have hout : s.outstanding = [] := List.map_eq_nil_iff.mp hholds
    simp [hout, hlock.1, hlock.2]
  | shared n =>
    -- the count is that of the readers, of which there is one at least
    have hne : s.outstanding ≠ [] := by
      intro hnil
      simp [hnil, RWLock.holders] at hlen
    have hreads : ∀ t ∈ s.outstanding, t.base = .read := fun t ht =>
      kind_eq_read.mp (hholds.2 _ (List.mem_map_of_mem ht))
    refine ⟨by simp [hlock.1, hne], by simp [hlock.1, hne]; exact hreads, ?_, ?_⟩
    · simp only [hlock.1, reduceCtorEq, false_iff]
      rintro ⟨t, hout, hw⟩
      exact absurd ((hreads t (by simp [hout])).symm.trans hw) (by simp)
    · rw [hlock.2, hlen]
      simp [RWLock.holders]
  -- a lock that is held alone is held by one write
  | exclusive =>
    rcases h.exclusion with hreads | ⟨t, hout, hw⟩
    · exfalso
      obtain ⟨t, hout, hkind⟩ := List.map_eq_singleton_iff.mp hholds
      exact absurd (kind_eq_read.mpr (hreads t (by simp [hout]))) (by simp [hkind])
    · simp [hlock.1, hlock.2, hout, hw]

/-- **Exclusion.** The tasks scheduled and not yet reported done are all reads or exactly one
    write; the running counter is their number and the queue state their kind.  No handler
    aborts, and a write body may touch the service data. -/
theorem readers_writer_exclusion {s : SrvSystem} (h : (machine bioCnt).Reach Machine.anyStep s) :
    (s.scheduled.map Scheduled.task).Perm (s.reported ++ s.outstanding) ∧
      ((∀ t ∈ s.outstanding, t.base = .read) ∨ ∃ t, s.outstanding = [t] ∧ t.base = .write) ∧
      s.svc.runningTaskCnt = s.outstanding.length ∧
      (s.svc.pendingTasks.state = .idle ↔ s.outstanding = []) ∧
      (s.svc.pendingTasks.state = .read ↔
        s.outstanding ≠ [] ∧ ∀ t ∈ s.outstanding, t.base = .read) ∧
      (s.svc.pendingTasks.state = .write ↔ ∃ t, s.outstanding = [t] ∧ t.base = .write) ∧
      (∀ a f, s.enabled bioCnt a → s.exec bioCnt a = .error f → f = .taskFailed) ∧
      ∀ p ∈ s.running, p.isWriteBody s.svc = true →
        s.svc.getData = .ok s.svc.data ∧
          ∀ data, s.svc.setData data = .ok { s.svc with data } := by
  have hinv := reach_inv h
  obtain ⟨l, hheld⟩ := hinv.held
  obtain ⟨hfree, hshared, hexcl, hcnt⟩ := hheld.lock_state
  refine ⟨hheld.history.reported, hheld.exclusion, hcnt, hfree, hshared, hexcl, ?_, ?_⟩
  · intro a f he hx
    rcases exec_fine hinv he with hf | ⟨s', hok, -⟩
    · exact Except.error.inj (hx.symm.trans hf)
    · exact absurd (hx.symm.trans hok) (by simp)
  · intro p hp hw
    obtain ⟨j, hj, rfl⟩ := List.mem_iff_getElem.mp hp
    have hd := dataMutable_of_writeBody hinv (List.getElem?_eq_getElem hj) hw
    exact ⟨by simp [Service.getData, hd], fun data => by simp [Service.setData, hd]⟩

/-! A `rwPr` service with one read and one write api, to which a worker sends a write and
another worker a read: when the master has handled both, the write runs and the read waits. -/

/-- The service when it was just created. -/
def fresh : SrvSystem :=
  { svc :=
      { name := 0, runningTaskCnt := 0
        pendingTasks :=
          { state := .idle, elemSz := srvTaskSize, maxSlots := srvMaxTask
            data := .rwPr (Fmbuf.create 0) (Fmbuf.create srvTaskSize) }
        apis := [(0, .read), (1, .write)], data := 0 }
    net := [], running := [], pushed := [], scheduled := [], reported := [] }

/-- The two calls and their handling. -/
def twoCalls : List SrvAction :=
  [.iocall (.worker 0) 7 1 0 ⟨7, 0⟩, .iocall (.worker 1) 8 0 0 ⟨8, 0⟩,
    .deliver 0 false, .deliver 0 false]

/-- The service after the two calls. -/
def waiting : SrvSystem := ((machine 0).play fresh twoCalls).getD fresh

theorem waiting_reach : (machine 0).Reach Machine.anyStep waiting := by
  have hinit : Init fresh := ⟨0, true, 0, [(0, .read), (1, .write)], by decide, rfl, rfl, rfl, rfl,
    rfl, rfl⟩
  have hplay : (machine 0).play fresh twoCalls = some waiting := by decide +kernel
  exact Machine.play_reach (.init hinit) hplay

/-- The write has the service for itself. -/
theorem waiting_exclusion :
    (waiting.svc.pendingTasks.state = .write ↔
      ∃ t, waiting.outstanding = [t] ∧ t.base = .write) ∧
      waiting.svc.runningTaskCnt = waiting.outstanding.length := by
  obtain ⟨-, -, hcnt, -, -, hwrite, -⟩ := readers_writer_exclusion waiting_reach
  exact ⟨hwrite, hcnt⟩

/-- A task that is queued is held back by the policy. -/
theorem Inv.heldBack {s : SrvSystem} (h : s.Inv bioCnt) (hq : s.svc.queued ≠ []) :
    s.svc.pendingTasks.state = .write ∨
      s.svc.pendingTasks.state = .read ∧
        (s.svc.pendingTasks.mode = .rwPw ∧
            (∃ t, s.svc.queued.head? = some t ∧ t.base = .write) ∨
          s.svc.pendingTasks.mode = .rwPr ∧ ∀ t ∈ s.svc.queued, t.base = .write) := by
  obtain ⟨⟨l, hheld⟩, hb⟩ := h
  have hrw := hheld.svc.readWrite
  unfold Queue.Blocked at hb
  simp only [Service.queued] at hq ⊢
  rw [Queue.mode]
  split at hb <;> rename_i hdata <;> rw [hdata] at hq hrw ⊢
  · exact hb.elim
  · rcases hb with hnil | hw | ⟨hr, t, hhead, ht⟩
    · exact absurd hnil hq
    · exact .inl hw
    · exact .inr ⟨hr, .inl ⟨rfl, t, hhead, ht⟩⟩
  · rcases hb with hw | ⟨hnil, hnil' | hr⟩
    · exact .inl hw
    · exact absurd (by simp [QueueData.elems, hnil, hnil']) hq
    · refine .inr ⟨hr, .inr ⟨rfl, fun t ht => hrw.2 t ?_⟩⟩
      simpa [QueueData.elems, hnil] using ht

/-- So a task runs that holds it back. -/
theorem Inv.queued_outstanding {s : SrvSystem} (h : s.Inv bioCnt) (hq : s.svc.queued ≠ []) :
    s.outstanding ≠ [] := by
  intro hout
  obtain ⟨l, hheld⟩ := h.held
  have hholds := hheld.holds
  have hlock := hheld.svc.lock
  rw [hout, List.map_nil] at hholds
  cases l with
  | free => rcases h.heldBack hq with hw | ⟨hr, -⟩ <;> simp [hlock.1] at *
  | shared n => simp [RWLock.Holds] at hholds
  | exclusive => simp [RWLock.Holds] at hholds

/-- **No lost wake-up.** While a task is queued, a task runs and the policy holds the queued
    ones back: behind a write, or behind reads when the next in line is a write (`rwPw`) or
    only writes are queued (`rwPr`). -/
theorem no_lost_wakeup {s : SrvSystem} (h : (machine bioCnt).Reach Machine.anyStep s)
    (hq : s.svc.queued ≠ []) :
    0 < s.svc.runningTaskCnt ∧
      (s.svc.pendingTasks.state = .write ∨
        s.svc.pendingTasks.state = .read ∧
          (s.svc.pendingTasks.mode = .rwPw ∧
              (∃ t, s.svc.queued.head? = some t ∧ t.base = .write) ∨
            s.svc.pendingTasks.mode = .rwPr ∧ ∀ t ∈ s.svc.queued, t.base = .write)) := by
  have hinv := reach_inv h
  have hheldBack := hinv.heldBack hq
  obtain ⟨l, hheld⟩ := hinv.held
  refine ⟨?_, hheldBack⟩
  have hlock := hheld.svc.lock
  cases l with
  | free => rcases hheldBack with hw | ⟨hr, -⟩ <;> simp [hlock.1] at *
  | shared n => have := hlock.2; omega
  | exclusive => have := hlock.2; omega

/-- What waits will be scheduled by what runs. -/
theorem waiting_no_lost_wakeup : 0 < waiting.svc.runningTaskCnt :=
  (no_lost_wakeup waiting_reach (by decide +kernel)).1

/-- **Order.** The pushed tasks are those scheduled and those queued, each once.  In `rwPw`
    mode tasks are scheduled in the order they were pushed; in `rwPr` mode the reads and the
    writes are, each among themselves, and a write is scheduled only when no read is queued. -/
theorem tasks_in_order {s : SrvSystem} (h : (machine bioCnt).Reach Machine.anyStep s) :
    s.pushed.Perm (s.scheduled.map Scheduled.task ++ s.svc.queued) ∧
      (s.svc.pendingTasks.mode = .rwPw ∧ s.scheduled.map Scheduled.task <+: s.pushed ∨
        s.svc.pendingTasks.mode = .rwPr ∧
          (∀ k, (s.scheduled.map Scheduled.task).filter (·.base = k) <+:
            s.pushed.filter (·.base = k)) ∧
          ∀ x ∈ s.scheduled, x.task.base = .write → ∀ t ∈ x.rest.data.elems, t.base ≠ .read) := by
  obtain ⟨⟨l, hheld⟩, -⟩ := reach_inv h
  have hledger := hheld.history.ledger
  have htasks : (s.scheduled.map Scheduled.entry).map Prod.fst =
      s.scheduled.map Scheduled.task := by
    rw [List.map_map]
    rfl
  refine ⟨by rw [← htasks]; exact hledger.perm, ?_⟩
  -- the mode decides what the ledger says
  cases hmode : s.svc.pendingTasks.data.mode with
  | exclusive =>
    have hrw := hheld.svc.readWrite
    unfold QueueData.mode at hmode
    split at hmode <;> simp_all [QueueData.ReadWrite]
  | rwPw =>
    refine .inl ⟨hmode, ?_⟩
    rw [hledger.fifo hmode, htasks]
    exact List.prefix_append _ _
  | rwPr =>
    refine .inr ⟨hmode, fun k => ?_, fun x hx hw t ht => ?_⟩
    · have hlanes := hledger.lanes k
      rw [htasks] at hlanes
      exact ⟨_, hlanes.symm⟩
    · have hwrite := hledger.writes hmode x.entry (List.mem_map_of_mem hx) hw t ht
      simp only [elemType_srvTask] at hwrite
      simp [hwrite]

/-- Nothing was lost. -/
theorem waiting_in_order :
    waiting.pushed.Perm (waiting.scheduled.map Scheduled.task ++ waiting.svc.queued) :=
  (tasks_in_order waiting_reach).1

end SrvSystem

end Skull
