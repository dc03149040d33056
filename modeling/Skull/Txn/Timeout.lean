import Skull.Txn.Terminal

namespace Skull

open Machines

/-!
# A transaction that times out

`_run` looks at the state of its transaction before it checks the clock.  A transaction that is
late is put into the state `SK_TXN_TIMEOUT`, and then handled as if it were not, so its next
module is entered all the same:

* `TxnRun.workflowRun_exhausted` — what a late transaction does when no module is left;
* `TxnRun.workflowRun_entered` — and when one is;
* `TxnSystem.timeout_cancels` — a timeout keeps the modules of a transaction from being entered,
  and `pack` sees it, exactly when no module is left and the clock still says so then.
-/

namespace TxnRun

variable {v : TxnEnv} {r r' : TxnRun}

/-- The states that go on with the next module. -/
def Running (st : TxnState) : Prop :=
  st = .init ∨ st = .unpacked ∨ st = .running ∨ st = .pending

/-- Which reading of the clock a run takes at the call of `_run` after `_module_run`. -/
def lastReading (st : TxnState) : Nat := if st = .running then 2 else 1

/-- From `r` to `r'` the state was written, and the next module is due. -/
structure Begins (v : TxnEnv) (r r' : TxnRun) : Prop where
  counts : r.txn.Counts → r'.txn.Counts
  next : r'.txn.nextModule.1 = r.txn.nextModule.1
  sent : r'.sent = r.sent
  workflow : r'.txn.workflow = r.txn.workflow
  late : ∀ now, r'.txn.late now = r.txn.late now
  waiting : r'.txn.waiting = r.txn.waiting
  moduleComplete : r'.txn.moduleComplete = r.txn.moduleComplete
  state : r'.txn.state = .running ∨ r'.txn.state = .timeout
  marks : ∃ ms, r'.log = r.log ++ ms ∧
    ∀ m ∈ ms, m = .state v.id .running ∨ m = .state v.id .timeout

/-- The check of the clock is where a run begins. -/
theorem Begins.checked {r r' : TxnRun} (h : Begins v r r') (now : Int) :
    Begins v r (r'.checked v now) := by
  obtain ⟨ms, hlog, hms⟩ := h.marks
  refine ⟨fun hc => checked_counts (h.counts hc) _, (checked_nextModule _).trans h.next,
    (checked_sent _).trans h.sent, (checked_workflow _).trans h.workflow, fun now' => (checked_late _ _).trans (h.late now'),
    (checked_waiting _).trans h.waiting, (checked_moduleComplete _).trans h.moduleComplete, ?_,
    ms ++ r'.checkMarks v now, by rw [checked_log, hlog, List.append_assoc], fun m hm => ?_⟩
  · rw [checked_state]
    split
    · exact .inr rfl
    · exact h.state
  · rcases List.mem_append.mp hm with hm | hm
    · exact hms m hm
    · unfold checkMarks at hm
      split at hm
      · exact .inr (List.mem_singleton.mp hm)
      · simp at hm

/-- A run of a transaction that goes on, up to `_module_run`. -/
theorem workflowRun_begins (h : Running r.txn.state) (code : UserCode) :
    ∃ r₁ : TxnRun, Begins v r r₁ ∧ r.workflowRun v code =
      r₁.moduleRun v code.run (run v code (lastReading r.txn.state + 1)) := by
  have hrefl : r.txn.state = .running → Begins v r r := fun hst =>
    ⟨id, rfl, rfl, rfl, fun _ => rfl, rfl, rfl, .inl hst, [], by simp, by simp⟩
  by_cases hrun : r.txn.state = .running
  · refine ⟨_, (hrefl hrun).checked (code.clock 3), ?_⟩
    rw [lastReading, if_pos hrun]
    exact run_running hrun
  · have hstart : r.txn.state = .init ∨ r.txn.state = .unpacked ∨ r.txn.state = .pending := by
      rcases h with h | h | h | h
      · exact .inl h
      · exact .inr (.inl h)
      · exact absurd h hrun
      · exact .inr (.inr h)
    -- the state is written over what the check of the clock wrote
    have hgoto : Begins v r ((r.checked v (code.clock 3)).goto v .running) := by
      refine ⟨fun hc => goto_counts (checked_counts hc _), by simp, by simp, by simp, by simp,
        by simp, by simp, .inl rfl, r.checkMarks v (code.clock 3) ++ [.state v.id .running], by simp,
        fun m hm => ?_⟩
      rcases List.mem_append.mp hm with hm | hm
      · unfold checkMarks at hm
        split at hm
        · exact .inr (List.mem_singleton.mp hm)
        · simp at hm
      · exact .inl (List.mem_singleton.mp hm)
    refine ⟨_, hgoto.checked (code.clock 2), ?_⟩
    rw [lastReading, if_neg hrun, workflowRun, run_starting hstart]
    exact run_running rfl

/-- A run begins with a transaction that is alive. -/
theorem Begins.alive (h : Begins v r r') : r'.txn.state ≠ .destroyed ∧ r'.txn.state ≠ .init := by
  rcases h.state with h | h <;> simp [h]

/-- What is left when there is no module any more. -/
theorem exhausted_frame : (r.exhausted v).txn.workflow = r.txn.workflow ∧
    (∀ now, (r.exhausted v).txn.late now = r.txn.late now) ∧
    (r.exhausted v).txn.waiting = r.txn.waiting := by
  refine ⟨?_, fun now => ?_, ?_⟩
  · rw [exhausted, goto_workflow, nextModule_frame]
  · rw [exhausted, goto_late, nextModule_frame]
    rfl
  · rw [exhausted, goto_waiting, nextModule_frame]
    rfl

/-- **No module is left**: the transaction is packed in the state that the clock says. -/
theorem workflowRun_exhausted (h : Running r.txn.state) (hc : r.txn.Counts)
    (hnone : r.txn.nextModule.1.isNone = true) (code : UserCode) :
    if r.txn.workflow.modules = 0 then r.workflowRun v code = .error .noModule
    else ∃ r' ms, r.workflowRun v code = .ok r' ∧ r'.txn.state = .destroyed ∧
      r'.log = r.log ++ ms ∧ (∀ w, .entered v.id w ∉ ms) ∧ .state v.id .error ∉ ms ∧
      (∀ w st, .packed v.id w st ∈ ms ↔ r.txn.workflow.hasPack = true ∧ w = r.txn.waiting ∧ st =
        if r.txn.late (code.clock (lastReading r.txn.state)) then .timeout else .completed) := by
  -- from every such state `_run` comes to the module that is not there
  obtain ⟨r₁, hb, hrun⟩ := workflowRun_begins (v := v) h code
  obtain ⟨depth, hdepth⟩ : ∃ depth, lastReading r.txn.state = depth + 1 := by
    unfold lastReading
    split
    · exact ⟨1, rfl⟩
    · exact ⟨0, rfl⟩
  rw [hdepth] at hrun ⊢
  have hmod := moduleRun_eq (v := v) code.run (run v code (depth + 2)) (hb.counts hc) hb.alive
  rw [hb.next, if_pos hnone] at hmod
  obtain ⟨hworkflow, hlate, hwait⟩ := exhausted_frame (v := v) (r := r₁)
  have hfin := run_finishes (v := v) (r := r₁.exhausted v) code depth (.inl rfl)
    (goto_counts (nextModule_counts (hb.counts hc)))
  rw [hworkflow, hb.workflow] at hfin
  rw [hrun, hmod]
  -- without any module there is no last one to pack with
  split
  · rename_i hzero
    rwa [if_pos hzero] at hfin
  · rename_i hsome
    rw [if_neg hsome] at hfin
    obtain ⟨r', hr', hleaves⟩ := hfin
    obtain ⟨ms, hlog, hms⟩ := hb.marks
    -- the clock is read once more before it is packed
    have hst : ((r₁.exhausted v).checked v (code.clock (depth + 1))).txn.state =
        if r.txn.late (code.clock (depth + 1)) then .timeout else .completed := by
      rw [checked_state, Txn.timeout_eq, hlate, hb.late]
      simp [exhausted]
    -- the marks are those of the way to it, of the end and of the packing
    refine ⟨r', ms ++ .state v.id .completed :: (r₁.exhausted v).finishMarks code depth v, hr',
      hleaves.state, ?_, fun w => ?_, ?_, fun w st => ?_⟩
    · rw [hleaves.log, exhausted, goto_log]
      simp [hlog]
    · rw [List.mem_append, List.mem_cons, mem_finishMarks]
      rintro (hmem | hmem)
      · rcases hms _ hmem with h | h <;> exact absurd h (by simp)
      · simp at hmem
    · rw [List.mem_append, List.mem_cons, mem_finishMarks]
      rintro (hmem | hmem)
      · rcases hms _ hmem with h | h <;> exact absurd h (by simp)
      · simp at hmem
    · -- nothing was packed on the way
      have hnot : Mark.packed v.id w st ∉ ms := fun hmem => by
        rcases hms _ hmem with h | h <;> exact absurd h (by simp)
      rw [List.mem_append, List.mem_cons, mem_finishMarks, hst, hworkflow, hb.workflow, hwait,
        hb.waiting]
      simp [hnot]

/-- **A module is left**: it is entered, and what comes next depends on its calls. -/
theorem workflowRun_module (h : Running r.txn.state) (hc : r.txn.Counts)
    (hsome : r.txn.nextModule.1.isNone = false) (code : UserCode) :
    ∃ (r₁ r₂ : TxnRun) (es : List Event), Begins v r r₁ ∧ Enters v code.run r₁ r₂ es ∧
      r.workflowRun v code =
        if ¬ r₂.txn.moduleComplete then
          .ok (if code.run.failed then r₂.goto v .error else r₂.goto v .pending)
        else if code.run.failed then
          (r₂.goto v .error).run v code (lastReading r.txn.state + 1)
        else if ¬ r₂.txn.isLastModule then
          .ok { r₂ with sent := r₂.sent ++ [⟨v.sched, v.sched, .inl v.id, .workflowRun⟩] }
        else (r₂.goto v .completed).run v code (lastReading r.txn.state + 1) := by
  obtain ⟨r₁, hb, hrun⟩ := workflowRun_begins (v := v) h code
  have hmod := moduleRun_eq (v := v) code.run (run v code (lastReading r.txn.state + 1))
    (hb.counts hc) hb.alive
  rw [hb.next, if_neg (by simp [hsome])] at hmod
  obtain ⟨r₂, es, henter, heq⟩ := hmod
  exact ⟨r₁, r₂, es, hb, henter, hrun.trans heq⟩

/-- A run in time enters the module. -/
theorem workflowRun_entered (h : Running r.txn.state) (hc : r.txn.Counts)
    (hsome : r.txn.nextModule.1.isNone = false) {code : UserCode}
    (hr : r.workflowRun v code = .ok r') :
    ∃ ms, r'.log = r.log ++ ms ∧ .entered v.id r.txn.waiting ∈ ms := by
  obtain ⟨r₁, r₂, es, hb, henter, heq⟩ := workflowRun_module (v := v) h hc hsome code
  obtain ⟨ms, hlog, -⟩ := hb.marks
  -- whatever follows only adds marks
  have hgrew : ∃ ms', r'.log = r₂.log ++ ms' := by
    rw [heq] at hr
    split at hr
    · rw [← Except.ok.inj hr]
      split <;> exact ⟨_, rfl⟩
    · split at hr
      · obtain ⟨es', ms', -, hlog', -⟩ := run_grew _ hr
        exact ⟨_, by rw [hlog', goto_log, List.append_assoc]⟩
      · split at hr
        · exact ⟨[], by rw [← Except.ok.inj hr, List.append_nil]⟩
        · obtain ⟨es', ms', -, hlog', -⟩ := run_grew _ hr
          exact ⟨_, by rw [hlog', goto_log, List.append_assoc]⟩
  obtain ⟨ms', hlog'⟩ := hgrew
  refine ⟨ms ++ (.entered v.id r.txn.waiting :: ms'), ?_, by simp⟩
  rw [hlog', henter.log, hlog, hb.waiting]
  simp

end TxnRun

namespace TxnSystem

variable {s s' : TxnSystem} {bioCnt : Nat}

/-- From `s` to `s'` no module of the transaction `x` was entered. -/
def NotEntered (x : TxnId) (s s' : TxnSystem) : Prop :=
  ∃ ms, s'.log = s.log ++ ms ∧ ∀ w, .entered x w ∉ ms

/-- From `s` to `s'` the transaction `x` was packed in the state `st`. -/
def PackedIn (x : TxnId) (st : TxnState) (s s' : TxnSystem) : Prop :=
  ∃ ms w, s'.log = s.log ++ ms ∧ .packed x w st ∈ ms

/-- What handling a `SK_PTO_WORKFLOW_RUN` is to the system. -/
theorem exec_workflowRun {i : Nat} {e : Event} {code : UserCode} (hi : s.net[i]? = some e)
    (hpto : e.pto = .workflowRun) {x : TxnId} (howner : e.owner = .inl x) {slot : TxnSlot}
    (hslot : s.txns[x]? = some slot) (hrel : slot.released = false) :
    s.exec bioCnt (.handle i code) =
      (TxnRun.workflowRun ⟨bioCnt, s.services, e.dst, slot.home, x⟩ code
        ⟨slot.txn, [], [], false⟩).map
        (({ s with net := s.net.eraseIdx i } : TxnSystem).commit x) := by
  simp [exec, hi, handle, hpto, onTxn, howner, hslot, hrel]

/-- A transaction that is destroyed stays so, and does nothing more. -/
theorem destroyed_path {x : TxnId} {slot : TxnSlot} (hslot : s.txns[x]? = some slot)
    (hdes : slot.txn.state = .destroyed) {p : List (TxnAction × TxnSystem)}
    (hp : (machine bioCnt).Path s p) :
    ∀ q ∈ p, ∃ ms, q.2.log = s.log ++ ms ∧ ∀ m ∈ ms, m.txn ≠ some x := by
  induction p generalizing s slot with
  | nil => simp
  | cons b p ih =>
    obtain ⟨a, t⟩ := b
    obtain ⟨he, hx, hp⟩ := hp
    obtain ⟨slot', hslot', hdes', ms, hlog, hms⟩ := (exec_stepped he hx).destroyed hslot hdes
    intro q hq
    rcases List.mem_cons.mp hq with rfl | hq
    · exact ⟨ms, hlog, hms⟩
    · obtain ⟨ms', hlog', hms'⟩ := ih hslot' hdes' hp q hq
      refine ⟨ms ++ ms', by rw [hlog', hlog, List.append_assoc], fun m hm => ?_⟩
      exact (List.mem_append.mp hm).elim (hms m) (hms' m)

/-- **A timeout cancels the workflow** when no module is left. Let a `SK_PTO_WORKFLOW_RUN` be
    handled for a transaction that goes on with the next module, late or not. Then no further
    module of it is entered and `pack` finds it in the state `SK_TXN_TIMEOUT` exactly when all
    its modules were entered before and it is late when `_run` is called to pack it. -/
theorem timeout_cancels (h : (machine bioCnt).Reach Machine.anyStep s) (code : UserCode)
    {i : Nat} {e : Event} (hi : s.net[i]? = some e) (hpto : e.pto = .workflowRun) {x : TxnId}
    (howner : e.owner = .inl x) {slot : TxnSlot} (hslot : s.txns[x]? = some slot)
    (hrel : slot.released = false) (hrun : TxnRun.Running slot.txn.state) :
    (∃ s', s.exec bioCnt (.handle i code) = .ok s' ∧ NotEntered x s s' ∧
      (slot.txn.workflow.hasPack = true → PackedIn x .timeout s s') ∧
      ∀ p, (machine bioCnt).Path s' p → ∀ q ∈ p, NotEntered x s q.2) ↔
    0 < slot.txn.workflow.modules ∧ slot.txn.workflow.modules ≤ slot.txn.workflowIdx ∧
      (slot.txn.workflow.hasPack = true →
        slot.txn.late (code.clock (TxnRun.lastReading slot.txn.state)) = true) := by
  have hc : slot.txn.Counts := ((reach_inv h).sound x slot hslot).counts
  have hnext : slot.txn.nextModule.1.isNone = true ↔
      slot.txn.workflow.modules ≤ slot.txn.workflowIdx := by
    unfold Txn.nextModule
    split <;> simp <;> omega
  rw [exec_workflowRun hi hpto howner hslot hrel]
  set v : TxnEnv := ⟨bioCnt, s.services, e.dst, slot.home, x⟩
  set r : TxnRun := ⟨slot.txn, [], [], false⟩
  constructor
  · rintro ⟨s', hx, ⟨ms, hlog, hms⟩, hpack, -⟩
    obtain ⟨r', hr', rfl⟩ := except_map_ok.mp hx
    have hgrown : ∀ {ms' : List Mark}, s.log ++ r'.log = s.log ++ ms' → ms' = r'.log :=
      fun hl => (List.append_cancel_left hl).symm
    obtain rfl := hgrown hlog
    -- `_run` enters the next module when there is one
    by_cases hnone : slot.txn.nextModule.1.isNone = true
    · have hex := TxnRun.workflowRun_exhausted (v := v) (r := r) hrun hc hnone code
      split at hex
      · rw [hex] at hr'
        exact absurd hr' (by simp)
      · rename_i hpos
        obtain ⟨r₁, ms₁, hr₁, -, hlog₁, -, -, hpacked⟩ := hex
        obtain rfl : r₁ = r' := Except.ok.inj (hr₁.symm.trans hr')
        simp only [r, List.nil_append] at hlog₁
        refine ⟨Nat.pos_of_ne_zero hpos, hnext.mp hnone, fun hp => ?_⟩
        obtain ⟨ms₂, w, hlog₂, hmem⟩ := hpack hp
        rw [hgrown hlog₂, hlog₁, hpacked] at hmem
        by_contra hin
        rw [if_neg hin] at hmem
        exact absurd hmem.2.2 (by simp)
    · have hsome : slot.txn.nextModule.1.isNone = false := by
        simpa only [Bool.not_eq_true] using hnone
      obtain ⟨ms₁, hlog₁, hmem⟩ := TxnRun.workflowRun_entered hrun hc hsome hr'
      simp only [r, List.nil_append] at hlog₁
      exact absurd (hlog₁ ▸ hmem) (hms _)
  · rintro ⟨hpos, hle, hstill⟩
    -- no module is left: `_run` packs, and the transaction is destroyed
    have hex := TxnRun.workflowRun_exhausted (v := v) (r := r) hrun hc (hnext.mpr hle) code
    rw [if_neg (by simp only [r]; omega)] at hex
    obtain ⟨r', ms, hr', hdes, hlog, hent, -, hpacked⟩ := hex
    simp only [r, List.nil_append] at hlog
    set s' := ({ s with net := s.net.eraseIdx i } : TxnSystem).commit x r'
    have hlog' : s'.log = s.log ++ ms := by rw [← hlog]; rfl
    have hslot' : s'.txns[x]? = some { slot with txn := r'.txn, released := r'.released } := by
      have htxns := txns_commit (s := { s with net := s.net.eraseIdx i }) hslot r' x
      rwa [if_pos rfl] at htxns
    refine ⟨s', except_map_ok.mpr ⟨r', hr', rfl⟩, ⟨ms, hlog', hent⟩, fun hp => ?_,
      fun p hp q hq => ?_⟩
    · refine ⟨ms, slot.txn.waiting, hlog', (hpacked _ _).mpr ⟨hp, rfl, ?_⟩⟩
      exact (if_pos (hstill hp)).symm
    · -- and a destroyed transaction enters nothing in a later step
      obtain ⟨ms', hlog₁, hms'⟩ := destroyed_path hslot' hdes hp q hq
      refine ⟨ms ++ ms', by rw [hlog₁, hlog', List.append_assoc], fun w hmem => ?_⟩
      rcases List.mem_append.mp hmem with hmem | hmem
      · exact hent w hmem
      · exact hms' _ hmem rfl

/-! A workflow with a limit of one millisecond and one module. -/

/-- A transaction that was delivered. -/
def delivered : List TxnAction :=
  [.create ⟨1, true, 1⟩ (.worker 0) 0 false, .deliver 0 (.worker 0)]

/-- The clock says five milliseconds. -/
def tardy : UserCode := { quiet with clock := fun _ => 5000 }

/-- The system in which the transaction is about to run. -/
def dueToRun : TxnSystem := ((machine 0).play fresh delivered).getD fresh

/-- **A late transaction enters its module**, and `pack` finds it completed or timed out as the
    clock says then. -/
theorem late_entered :
    (machine 0).Reach Machine.anyStep dueToRun ∧
      dueToRun.net.map Event.pto = [.workflowRun] ∧
      dueToRun.txns.map (fun slot => (slot.txn.state, slot.txn.timeout 5000)) =
        [(.unpacked, true)] ∧
      ((dueToRun.exec 0 (.handle 0 tardy)).toOption.map fun s => s.log) =
        some [.state 0 .timeout, .state 0 .running, .state 0 .timeout, .entered 0 0,
          .state 0 .completed, .state 0 .timeout, .packed 0 0 .timeout, .state 0 .packed,
          .state 0 .timeout, .state 0 .destroyed] := by
  have hplay : (machine 0).play fresh delivered = some dueToRun := by decide +kernel
  exact ⟨Machine.play_reach (.init fresh_init) hplay, by decide +kernel, by decide +kernel,
    by decide +kernel⟩

/-- The module makes a service call, and the call completes. -/
def answered : List TxnAction :=
  delivered ++ .handle 0 { quiet with run := ⟨[⟨0, 0, true, 0⟩], false⟩ } ::
    List.replicate 4 (.handle 0 quiet)

/-- The system in which the transaction is about to be resumed. -/
def dueToResume : TxnSystem := ((machine 0).play fresh answered).getD fresh

/-- When the module was entered before, a timeout cancels the workflow. -/
theorem resume_cancelled :
    dueToResume.txns.map (fun slot => (slot.txn.state, slot.txn.timeout 5000)) =
        [(.pending, true)] ∧
      ∃ s', dueToResume.exec 0 (.handle 0 tardy) = .ok s' ∧ NotEntered 0 dueToResume s' ∧
        PackedIn 0 .timeout dueToResume s' := by
  have hplay : (machine 0).play fresh answered = some dueToResume := by decide +kernel
  have hslot : dueToResume.txns[0]? = some ⟨⟨⟨1, true, 1⟩, some 0, 1,
      [⟨0, true, some 0, 0, .done⟩], false, 1, 1, 0, .pending, 0⟩, .worker 0, true, false⟩ := by
    decide +kernel
  obtain ⟨s', hs', hent, hpack, -⟩ := (timeout_cancels
    (Machine.play_reach (.init fresh_init) hplay) tardy (i := 0)
    (e := ⟨.master, .worker 0, .inl 0, .workflowRun⟩) (by decide +kernel) rfl rfl hslot rfl
    (.inr (.inr (.inr rfl)))).mpr ⟨by decide, by decide, fun _ => by decide⟩
  exact ⟨by decide +kernel, s', hs', hent, hpack rfl⟩

end TxnSystem

end Skull
