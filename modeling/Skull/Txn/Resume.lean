import Skull.Txn.Outcome
import Skull.Txn.Step
import Skull.Txn.Completion

namespace Skull

open Machines

/-!
# A transaction is resumed once

A transaction is resumed by a `SK_PTO_WORKFLOW_RUN`, which it sends itself or the master sends
when a `SK_PTO_SVC_TASK_DONE` says so.  The tasks with a callback and those without one are
counted by different counters, and both may say so:

* `TxnSystem.Orderly` — every transaction has as many messages that resume it as are due;
* `TxnSystem.Careful` — the steps that keep that: no task without a callback is the last one to
  complete while its transaction is not destroyed;
* `TxnSystem.resumed_once` — what follows for runs of careful steps, and that there are two
  messages that resume a transaction after any other step.
-/

/-- How many messages that resume the transaction should be under way. -/
def TxnSlot.due (slot : TxnSlot) : Nat :=
  if slot.delivered && !slot.released then slot.txn.due else 0

/-- Service calls are made by `run` and by callbacks, not by `pack`. -/
def TxnAction.Packless : TxnAction → Prop
  | .handle _ code => code.pack.iocalls = []
  | _ => True

namespace TxnSystem

variable {s s' : TxnSystem} {bioCnt : Nat}

/-- How often `pack` was called for the transaction `x`. -/
def packs (s : TxnSystem) (x : TxnId) : Nat := s.log.countP (·.isPackOf x)

/-- What holds of a transaction that is resumed once. -/
structure InOrder (s : TxnSystem) (x : TxnId) (slot : TxnSlot) : Prop where
  resumes : s.resumes x = slot.due
  packs : s.packs x = slot.txn.packsDone
  unpacked : slot.txn.state ≠ .packed
  destroyed : slot.txn.state = .destroyed → slot.txn.moduleComplete = true
  released : slot.released = true → slot.txn.state = .destroyed
  undelivered : slot.delivered = false → slot.txn.totalTasks = 0 ∧ slot.txn.state ≠ .destroyed
  named : slot.txn.Named
  current : slot.txn.current = none → slot.txn.moduleComplete = true

/-- **Every transaction is resumed as often as is due**, and no module was entered and no `pack`
    called while a callback task was incomplete. -/
structure Orderly (s : TxnSystem) : Prop where
  slots : ∀ (x : TxnId) (slot : TxnSlot), s.txns[x]? = some slot → s.InOrder x slot
  marks : ∀ m ∈ s.log, ∀ x w, (m = .entered x w ∨ ∃ st, m = .packed x w st) → w = 0 ∧ x < s.txns.length

/-- The message does not complete the last incomplete task of a transaction that is not destroyed,
    or that task has a callback. -/
def CarefulCb (s : TxnSystem) (e : Event) : Prop :=
  match e.pto with
  | .svcTaskCb t _ _ status _ =>
    (status = .done ∨ status = .busy) → ∀ slot ∈ s.txns[t.txn]?,
      ∀ k ∈ slot.txn.taskTbl[t.taskId]?, k.cb = false →
        slot.txn.completeTasks + 1 = slot.txn.totalTasks → slot.txn.state = .destroyed
  | _ => True

/-- The step does not handle another message. -/
def Careful (s : TxnSystem) : TxnAction → Prop
  | .handle i _ => ∀ e ∈ s.net[i]?, s.CarefulCb e
  | _ => True

/-! ### Steps aside and handlers -/

/-- What `InOrder` reads of a transaction is not in its table. -/
theorem InOrder.congr {x : TxnId} {slot slot' : TxnSlot} (h : s.InOrder x slot)
    (hbare : bare slot' = bare slot) (hres : s'.resumes x = s.resumes x)
    (hpacks : s'.packs x = s.packs x) : s'.InOrder x slot' := by
  have htasks := fun k => task_of_bare hbare (k := k)
  obtain ⟨⟨workflow, current, idx, tbl, error, total, complete, start, state, pending⟩, home,
    delivered, released⟩ := slot
  obtain ⟨⟨workflow', current', idx', tbl', error', total', complete', start', state', pending'⟩,
    home', delivered', released'⟩ := slot'
  simp only [bare, TxnSlot.mk.injEq, Txn.mk.injEq] at hbare
  obtain ⟨⟨rfl, rfl, rfl, -, rfl, rfl, rfl, rfl, rfl, rfl⟩, rfl, rfl, rfl⟩ := hbare
  refine ⟨hres.trans h.resumes, hpacks.trans h.packs, h.unpacked, h.destroyed, h.released,
    h.undelivered, fun k hk => ?_, h.current⟩
  obtain ⟨k₀, hk₀, heq⟩ := htasks k hk
  rw [heq]
  exact h.named k₀ hk₀

/-- A step that no transaction sees. -/
theorem Orderly.aside (h : s.Orderly) (ha : Aside s s') : s'.Orderly := by
  obtain ⟨ms, hlog, hms⟩ := ha.marks
  refine ⟨fun x slot hslot => ?_, fun m hm x w hmark => ?_⟩
  · obtain ⟨slot₀, hslot₀, hb⟩ := ha.slot hslot
    refine (h.slots x slot₀ hslot₀).congr hb (ha.resumes x) ?_
    have hzero : ms.countP (·.isPackOf x) = 0 := List.countP_eq_zero.mpr fun m hm => by
      have hsome := hms m hm
      cases m <;> simp_all [Mark.isPackOf, Mark.task]
    rw [packs, hlog, List.countP_append, hzero, add_zero, packs]
  · have hlen : s'.txns.length = s.txns.length := by simpa using congrArg List.length ha.bare
    rw [hlog] at hm
    rw [hlen]
    rcases List.mem_append.mp hm with hm | hm
    · exact h.marks m hm x w hmark
    · have hsome := hms m hm
      rcases hmark with rfl | ⟨st, rfl⟩ <;> simp [Mark.task] at hsome

/-- A handler on the transaction `x`. -/
theorem Orderly.commit (h : s.Orderly) {i : Nat} {e : Event} (hi : s.net[i]? = some e)
    {x : TxnId} (howner : e.owner = .inl x) {slot : TxnSlot} (hslot : s.txns[x]? = some slot)
    {r : TxnRun} (hsent : ∀ b ∈ r.sent, b.owner = .inl x)
    (hlog : ∀ m ∈ r.log, m.Timely x ∨ m.task.isSome)
    (hnew : ∀ s₁ : TxnSystem,
      s₁.resumes x = s.resumes x - e.isResume.toNat + r.sent.countP (·.isResume) →
      s₁.packs x = s.packs x + r.log.countP (·.isPackOf x) →
      s₁.InOrder x { slot with txn := r.txn, released := r.released }) :
    (({ s with net := s.net.eraseIdx i } : TxnSystem).commit x r).Orderly := by
  set s₀ : TxnSystem := { s with net := s.net.eraseIdx i } with hs₀
  have hres : ∀ y, (s₀.commit x r).resumes y =
      if y = x then s.resumes x - e.isResume.toNat + r.sent.countP (·.isResume)
      else s.resumes y := resumes_commit hi howner hsent
  have hpacks : ∀ y, (s₀.commit x r).packs y = s.packs y + r.log.countP (·.isPackOf y) :=
    fun y => List.countP_append
  refine ⟨fun y slot' hslot' => ?_, fun m hm y w hmark => ?_⟩
  · rw [txns_commit (s := s₀) hslot] at hslot'
    by_cases hy : y = x
    · subst hy
      rw [if_pos rfl] at hslot'
      rw [← Option.some.inj hslot']
      exact hnew _ (by rw [hres, if_pos rfl]) (hpacks y)
    · -- nothing was about another transaction
      rw [if_neg hy] at hslot'
      have hyx : x ≠ y := fun he => hy he.symm
      refine (h.slots y slot' hslot').congr rfl ?_ ?_
      · rw [hres, if_neg hy]
      · have hzero : r.log.countP (·.isPackOf y) = 0 := by
          refine List.countP_eq_zero.mpr fun m hm => ?_
          rcases hlog m hm with htimely | hsome
          · cases m <;> simp_all [Mark.isPackOf, Mark.Timely]
          · cases m <;> simp_all [Mark.isPackOf, Mark.task]
        rw [hpacks, hzero, add_zero]
  · have hlen : (s₀.commit x r).txns.length = s.txns.length := by simp [TxnSystem.commit, hs₀]
    rw [hlen]
    rcases List.mem_append.mp hm with hm | hm
    · exact h.marks m hm y w hmark
    · have hx := (List.getElem?_eq_some_iff.mp hslot).1
      rcases hlog m hm with htimely | hsome
      · rcases hmark with rfl | ⟨st, rfl⟩ <;> obtain ⟨rfl, rfl⟩ := htimely <;> exact ⟨rfl, hx⟩
      · rcases hmark with rfl | ⟨st, rfl⟩ <;> simp [Mark.task] at hsome

/-! ### The handlers of a transaction -/

/-- One resume is due at most. -/
theorem due_le (slot : TxnSlot) : slot.due ≤ 1 := by
  unfold TxnSlot.due Txn.due
  split
  · split <;> exact Bool.toNat_le _
  · exact Nat.zero_le _

/-- **A `SK_PTO_WORKFLOW_RUN`** leaves its transaction in order. -/
theorem Orderly.workflowRun (hinv : s.Inv) (h : s.Orderly) {i : Nat} {e : Event}
    (hi : s.net[i]? = some e) (hpto : e.pto = .workflowRun) {code : UserCode}
    (hpack : code.pack.iocalls = []) {x : TxnId} (howner : e.owner = .inl x) {slot : TxnSlot}
    (hslot : s.txns[x]? = some slot) (hrel : slot.released = false) {r : TxnRun}
    (hr : TxnRun.workflowRun ⟨bioCnt, s.services, e.dst, slot.home, x⟩ code
      ⟨slot.txn, [], [], false⟩ = .ok r) :
    (({ s with net := s.net.eraseIdx i } : TxnSystem).commit x r).Orderly := by
  have hord := h.slots x slot hslot
  -- the message is the only one that is due, so no callback task is incomplete
  have hresume : e.isResume = true := by rw [Event.isResume, hpto]
  have hone : s.resumes x = 1 := by
    have hself : e.resumes x = true := by simp [Event.resumes, howner, hresume]
    have htake := resumes_take hi x
    have hle := due_le slot
    have hres := hord.resumes
    simp only [hself, Bool.toNat_true] at htake
    omega
  have hdue : slot.due = 1 := hord.resumes.symm.trans hone
  have hdel : slot.delivered = true := by
    by_contra hd
    simp [TxnSlot.due, hd] at hdue
  have hm : slot.txn.moduleComplete = true := by
    by_cases hdes : slot.txn.state = .destroyed
    · exact hord.destroyed hdes
    · simpa [TxnSlot.due, Txn.due, hdel, hrel, hdes] using hdue
  obtain ⟨⟨es, ms, hmoved, hes⟩, hunpacked, hdestroyed, hreleased, hcurrent⟩ :=
    TxnRun.run_outcome hpack 4 _ _ (hinv.sound x slot hslot).counts hm rfl hr
  obtain ⟨es', ms', hsent', -, hg⟩ := TxnRun.run_grew _ hr
  refine h.commit hi howner hslot ?_ ?_ fun s₁ hres₁ hpacks₁ => ?_
  · rw [hsent']
    exact fun b hb => (hg.sends b hb).owner
  · rw [hmoved.log]
    exact fun m hmem => .inl (hmoved.marks m hmem)
  · refine ⟨?_, ?_, hunpacked, hdestroyed, hreleased, fun hd =>
      absurd (hdel.symm.trans hd) (by simp), hmoved.callers hord.named, hcurrent⟩
    · have hsent : r.sent = es := hmoved.sent
      rw [hres₁, hone, hresume, hsent, hes]
      cases hrel' : r.released <;> simp [TxnSlot.due, hdel]
    · have hlog : r.log = ms := hmoved.log
      rw [hpacks₁, hord.packs, hlog, add_comm]
      exact hmoved.packs

/-- **A `SK_PTO_SVC_TASK_CB`** makes the master resume its transaction when the task was the last
    one.  Only a task without a callback is that while the transaction is due to be resumed. -/
theorem Orderly.callback (hinv : s.Inv) (h : s.Orderly) {i : Nat} {e : Event}
    (hi : s.net[i]? = some e) (hfirst : ∀ e' ∈ s.net.take i, e'.key ≠ e.key) {t : TaskRef}
    {service api : Nat} {status : TaskStatus} {done : Bool}
    (hpto : e.pto = .svcTaskCb t service api status done) {code : ModuleCode} {x : TxnId}
    (howner : e.owner = .inl x) {slot : TxnSlot} (hslot : s.txns[x]? = some slot)
    (hrel : slot.released = false) {r : TxnRun}
    (hr : TxnRun.svcTaskCb ⟨bioCnt, s.services, e.dst, slot.home, x⟩ code t service status done
      ⟨slot.txn, [], [], false⟩ = .ok r) :
    x = t.txn ∧ ∃ k, slot.txn.taskTbl[t.taskId]? = some k ∧
      ((status = .done ∨ status = .busy) ∧ k.cb = false ∧
            slot.txn.completeTasks + 1 = slot.txn.totalTasks ∧ slot.txn.state ≠ .destroyed ∧
          (({ s with net := s.net.eraseIdx i } : TxnSystem).commit x r).resumes x = 2 ∨
        ((status = .done ∨ status = .busy) → k.cb = false →
            slot.txn.completeTasks + 1 = slot.txn.totalTasks → slot.txn.state = .destroyed) ∧
          (({ s with net := s.net.eraseIdx i } : TxnSystem).commit x r).Orderly) := by
  obtain ⟨howner', k, hk, hinc⟩ := hinv.incomplete_of_callback hi hfirst hpto
  obtain rfl : x = t.txn := Sum.inl.inj (howner.symm.trans howner')
  obtain ⟨-, r₁, r₂, es, ms, k', hcomp, hset, hsame, hk', rfl⟩ := TxnRun.svcTaskCb_spec hr
  have hkt : slot.txn.taskTbl[t.taskId]? = some k := (entry_eq hslot).symm.trans hk
  have hc := (hinv.sound _ slot hslot).counts
  have hord := h.slots _ slot hslot
  -- the task is in the table, so the transaction was delivered and has an incomplete task
  have hdel : slot.delivered = true := by
    by_contra hd
    have hzero := (hord.undelivered (by simpa using hd)).1
    have hlt := (List.getElem?_eq_some_iff.mp hkt).1
    rw [hc.total] at hzero
    omega
  have hdue : s.resumes t.txn = slot.txn.due := by
    rw [hord.resumes, TxnSlot.due, hdel, hrel]
    rfl
  have hsome : slot.txn.alltaskComplete = false := by
    by_contra hall
    have hcomp' := hc.alltaskComplete_iff.mp (by simpa using hall) k (List.mem_of_getElem? hkt)
    exact absurd (hcomp'.symm.trans hinc) (by simp)
  have hcalm : e.isResume = false := by rw [Event.isResume, hpto]
  have hsent₁ : r₁.sent = [] := hcomp.sent
  have hlog₁ : r₁.log = [] ∨ r₁.log = [.terminal t, .setcomplete t] := by
    obtain ⟨ms₁, heq, hms₁⟩ := hcomp.log
    rwa [heq, List.nil_append]
  set flag : Bool := if k'.cb then r₂.txn.moduleComplete else r₂.txn.alltaskComplete with hflag
  set r' : TxnRun := { r₂ with
    sent := r₂.sent ++ [⟨e.dst, .master, .inl t.txn, .svcTaskDone service flag done⟩]
    log := r₂.log ++ if done then [.taskDone t] else [] } with hr'
  have hsent : r'.sent.countP (·.isResume) = flag.toNat := by
    have hquiet : es.countP (·.isResume) = 0 :=
      List.countP_eq_zero.mpr fun b hb => by simp [hset.quiet b hb]
    simp only [hr', hset.sent, hsent₁, List.nil_append, List.countP_append, hquiet]
    cases flag <;> simp [Event.isResume]
  have howners : ∀ b ∈ r'.sent, b.owner = .inl t.txn := by
    intro b hb
    simp only [hr', hset.sent, hsent₁, List.nil_append] at hb
    rcases List.mem_append.mp hb with hb | hb
    · exact (hset.grows.sends b hb).owner
    · rw [List.mem_singleton.mp hb]
  have hmarks : ∀ m ∈ r'.log, (m.Timely t.txn ∨ m.task.isSome) ∧ ∀ x, m.isPackOf x = false := by
    intro m hm
    simp only [hr', hset.log] at hm
    rcases List.mem_append.mp hm with hm | hm
    · rcases List.mem_append.mp hm with hm | hm
      · rcases hlog₁ with hl | hl <;>
          simp only [hl, List.not_mem_nil, List.mem_cons, or_false] at hm
        rcases hm with rfl | rfl <;> exact ⟨.inr rfl, fun _ => rfl⟩
      · rcases hset.state with ⟨rfl, -⟩ | ⟨rfl, -⟩
        · simp at hm
        · rw [List.mem_singleton.mp hm]
          exact ⟨.inl rfl, fun _ => rfl⟩
    · split at hm
      · rw [List.mem_singleton.mp hm]
        exact ⟨.inr rfl, fun _ => rfl⟩
      · simp at hm
  -- the transaction is in order when the flag makes up for what is due
  have hfinish : slot.txn.due + flag.toNat = r₂.txn.due → r₂.txn.state ≠ .packed →
      (r₂.txn.state = .destroyed → r₂.txn.moduleComplete = true) →
      slot.txn.packsDone = r₂.txn.packsDone → r₂.txn.Named →
      (r₂.txn.current = none → r₂.txn.moduleComplete = true) →
      (({ s with net := s.net.eraseIdx i } : TxnSystem).commit t.txn r').Orderly := by
    intro hdue' hunpacked hdestroyed hpacks hnamed hcurrent
    have hlive : r₂.released = false := hset.released.trans hcomp.released
    refine h.commit hi howner hslot howners (fun m hm => (hmarks m hm).1)
      fun s₁ hres₁ hpacks₁ => ?_
    refine ⟨?_, ?_, hunpacked, hdestroyed, fun hr => absurd (hlive.symm.trans hr) (by simp),
      fun hd => absurd (hdel.symm.trans hd) (by simp), hnamed, hcurrent⟩
    · rw [hres₁, hcalm, hsent, hdue]
      simpa [TxnSlot.due, hdel, hlive, hr'] using hdue'
    · have hzero : r'.log.countP (·.isPackOf t.txn) = 0 :=
        List.countP_eq_zero.mpr fun m hm => by simp [(hmarks m hm).2 t.txn]
      rw [hpacks₁, hord.packs, hzero]
      exact hpacks
  refine ⟨rfl, k, hkt, ?_⟩
  cases hcomp with
  | notice hs =>
    -- nothing is completed
    obtain rfl := hsame (.inr hs)
    obtain rfl : k' = k := Option.some.inj (hk'.symm.trans hkt)
    have hoff : flag = false := by
      rw [hflag]
      split
      · rename_i hcb
        have hpos := Txn.waiting_pos (List.mem_of_getElem? hkt) hcb hinc
        by_contra hm
        have hzero := hc.moduleComplete_iff.mp (by simpa using hm)
        omega
      · exact hsome
    exact .inr ⟨fun hs' => absurd hs' hs,
      hfinish (by rw [hoff]; rfl) hord.unpacked hord.destroyed rfl hord.named hord.current⟩
  | @terminal k₀ txn hs hk₀ htxn =>
    have hs' : status ≠ .running := by rcases hs with rfl | rfl <;> simp
    obtain ⟨txn', htxn', hc', hspec⟩ := hc.taskSetcomplete hkt hinc hs'
    obtain rfl : txn' = txn := Except.ok.inj (htxn'.symm.trans htxn)
    have hlt := (List.getElem?_eq_some_iff.mp hkt).1
    have hself : txn'.taskTbl[t.taskId]? = some { k with status } := by
      rw [hspec]
      exact List.getElem?_set_self hlt
    have hk'cb : k'.cb = k.cb := by
      rw [hset.grows.old _ (List.getElem?_eq_some_iff.mp hself).1, hself] at hk'
      rw [← Option.some.inj hk']
    have hstate : txn'.state = slot.txn.state ∧ txn'.workflow = slot.txn.workflow := by
      rw [hspec]
      exact ⟨rfl, rfl⟩
    have hcur' : txn'.current = slot.txn.current := by rw [hspec]
    have hnamed : txn'.Named := by
      intro k₁ hk₁
      rw [hspec] at hk₁
      rcases List.mem_or_eq_of_mem_set hk₁ with hk₁ | rfl
      · exact hord.named k₁ hk₁
      · exact hord.named k (List.mem_of_getElem? hkt)
    by_cases hcb : k.cb = true
    · -- the transaction was waiting for this task
      have hwait : slot.txn.moduleComplete = false := by
        have hpos := Txn.waiting_pos (List.mem_of_getElem? hkt) hcb hinc
        by_contra hm
        have hzero := hc.moduleComplete_iff.mp (by simpa using hm)
        omega
      have hdes : slot.txn.state ≠ .destroyed := fun hd =>
        absurd ((hord.destroyed hd).symm.trans hwait) (by simp)
      have hst₂ : r₂.txn.state ≠ .packed ∧ r₂.txn.state ≠ .destroyed := by
        rcases hset.state with ⟨-, hst⟩ | ⟨-, hst, -⟩
        · rw [hst, hstate.1]
          exact ⟨hord.unpacked, hdes⟩
        · rw [hst]
          simp
      -- so a module was running, and makes the calls of the callback
      have hcur : slot.txn.current ≠ none := fun hnone =>
        absurd ((hord.current hnone).symm.trans hwait) (by simp)
      have hcur₁ : txn'.currentModule ≠ none := by rwa [Txn.currentModule, hcur']
      have hcur₂ : r₂.txn.current ≠ none := by rwa [hset.current]
      have hnamed₂ : r₂.txn.Named := by
        intro k₁ hk₁
        rcases hset.callers k₁ hk₁ with hk₁ | hk₁
        · exact hnamed k₁ hk₁
        · rw [hk₁]
          exact Option.isSome_iff_ne_none.mpr hcur₁
      refine .inr ⟨fun _ hnocb => absurd (hcb.symm.trans hnocb) (by simp), hfinish ?_ hst₂.1
        (fun hd => absurd hd hst₂.2) ?_ hnamed₂ fun hnone => absurd hnone hcur₂⟩
      · simp [hflag, hk'cb, hcb, Txn.due, hdes, hst₂.2, hwait]
      · rw [TxnRun.packsDone_zero ⟨hord.unpacked, hdes⟩, TxnRun.packsDone_zero hst₂]
    · -- a task without a callback
      have hnocb : k.cb = false := by simpa using hcb
      obtain rfl := hsame (.inl (hk'cb.trans hnocb))
      have hpend : txn'.moduleComplete = slot.txn.moduleComplete := by
        rw [hspec]
        simp [Txn.moduleComplete, hnocb]
      have hall : flag = decide (slot.txn.completeTasks + 1 = slot.txn.totalTasks) := by
        rw [hflag, hk'cb, hnocb, hspec]
        rfl
      have hpacks : slot.txn.packsDone = txn'.packsDone := by
        simp only [Txn.packsDone, hstate.1, hstate.2]
      have hcurrent : txn'.current = none → txn'.moduleComplete = true := fun hnone =>
        hpend.trans (hord.current (hcur'.symm.trans hnone))
      by_cases hdes : slot.txn.state = .destroyed
      · refine .inr ⟨fun _ _ _ => hdes, hfinish ?_ ?_ (fun _ => ?_) hpacks hnamed hcurrent⟩
        · have hf : flag = txn'.alltaskComplete := by
            rw [hflag, hk'cb, hnocb]
            rfl
          simp [Txn.due, hdes, hstate.1, hsome, hf]
        · exact hstate.1 ▸ hord.unpacked
        · exact hpend.trans (hord.destroyed hdes)
      · by_cases hlast : slot.txn.completeTasks + 1 = slot.txn.totalTasks
        · -- the transaction was due to be resumed, and now it is once more
          refine .inl ⟨hs, hnocb, hlast, hdes, ?_⟩
          have hm : slot.txn.moduleComplete = true := by
            rw [← hpend]
            refine hc'.moduleComplete_of_all ?_
            rw [hspec]
            simp [Txn.alltaskComplete, hlast]
          have htake := resumes_take hi t.txn
          have hnot : e.resumes t.txn = false := by simp [Event.resumes, hcalm]
          rw [hnot, hdue] at htake
          refine (resumes_sent _ r'.sent t.txn).trans ?_
          rw [countP_resumes_owner howners, if_pos rfl, hsent, hall]
          simp only [Txn.due, hdes, if_false, hm, Bool.toNat_true, Bool.toNat_false,
            zero_add] at htake
          simp [← htake, hlast]
        · refine .inr ⟨fun _ _ hl => absurd hl hlast, hfinish ?_ ?_ (fun hd => ?_) hpacks hnamed
            hcurrent⟩
          · simp [Txn.due, hdes, hstate.1, hpend, hall, hlast]
          · exact hstate.1 ▸ hord.unpacked
          · exact absurd (hstate.1.symm.trans hd) hdes

/-! ### The other steps -/

/-- **A transaction is made.** -/
theorem Orderly.create (hinv : s.Inv) (h : s.Orderly) (workflow : Workflow) (home : Sched)
    (now : Int) (immediate : Bool) : Orderly { s with
      txns := s.txns ++ [⟨newTxn workflow now immediate, home, false, false⟩] } := by
  refine ⟨fun x slot hslot => ?_, fun m hm x w hmark => ?_⟩
  · -- the transactions that were there, and the new one
    by_cases hx : x < s.txns.length
    · rw [List.getElem?_append_left hx] at hslot
      exact (h.slots x slot hslot).congr rfl rfl rfl
    · rw [List.getElem?_append_right (Nat.not_lt.mp hx), List.getElem?_singleton] at hslot
      split at hslot
      · have hres := resumes_zero hinv (Nat.not_lt.mp hx)
        -- nothing was ever packed under its number
        have hpacks : s.packs x = 0 := by
          refine List.countP_eq_zero.mpr fun m hm hpack => ?_
          cases m with
          | packed y w st =>
            obtain rfl : y = x := by simpa [Mark.isPackOf] using hpack
            exact hx (h.marks _ hm y w (.inr ⟨st, rfl⟩)).2
          | _ => simp [Mark.isPackOf] at hpack
        rw [← Option.some.inj hslot]
        refine ⟨hres, ?_, ?_, fun _ => rfl, by simp, fun _ => ⟨rfl, ?_⟩,
          fun k hk => absurd hk List.not_mem_nil, fun _ => rfl⟩
        · refine hpacks.trans ?_
          cases immediate <;> simp [Txn.packsDone, newTxn]
        · cases immediate <;> simp [newTxn]
        · cases immediate <;> simp [newTxn]
      · exact absurd hslot (by simp)
  · obtain ⟨hw, hlt⟩ := h.marks m hm x w hmark
    exact ⟨hw, by simpa using Nat.lt_succ_of_lt hlt⟩

/-- **A transaction is delivered**: the first message that resumes it. -/
theorem Orderly.deliver (hinv : s.Inv) (h : s.Orderly) {x : TxnId} {slot : TxnSlot}
    (hslot : s.txns[x]? = some slot) (hdel : slot.delivered = false) (src : Sched) :
    (({ s with txns := s.txns.modify x fun slot => { slot with delivered := true } } :
      TxnSystem).send ⟨src, slot.home, .inl x, .workflowRun⟩).Orderly := by
  have hord := h.slots x slot hslot
  obtain ⟨htotal, hdes⟩ := hord.undelivered hdel
  have hc := (hinv.sound x slot hslot).counts
  have hrel : slot.released = false := by
    by_contra hr
    exact hdes (hord.released (by simpa using hr))
  -- there are no tasks, so the first module is due
  have hm : slot.txn.moduleComplete = true := hc.moduleComplete_of_none htotal
  refine ⟨fun y slot' hslot' => ?_, fun m hmem y w hmark => ?_⟩
  · have hres := resumes_deliver s x src slot.home y
    by_cases hy : y = x
    · subst hy
      simp only [TxnSystem.send, List.getElem?_modify_eq, hslot] at hslot'
      rw [← Option.some.inj hslot']
      refine ⟨?_, hord.packs, hord.unpacked, hord.destroyed, hord.released, by simp, hord.named,
        hord.current⟩
      rw [hres, hord.resumes]
      simp [TxnSlot.due, hdel, hrel, Txn.due, hdes, hm]
    · have hne : x ≠ y := fun he => hy he.symm
      simp only [TxnSystem.send, List.getElem?_modify_ne _ _ hne] at hslot'
      exact (h.slots y slot' hslot').congr rfl (by rw [hres, if_neg hy, add_zero]) rfl
  · obtain ⟨hw, hlt⟩ := h.marks m hmem y w hmark
    exact ⟨hw, by simpa [TxnSystem.send] using hlt⟩

/-! ### Every run -/

/-- The runs in which service calls are made by `run` and by callbacks. -/
def packless (bioCnt : Nat) : Machine TxnSystem TxnAction TxnFault :=
  { machine bioCnt with enabled := fun s a => s.enabled bioCnt a ∧ a.Packless }

instance (s : TxnSystem) (e : Event) : Decidable (s.CarefulCb e) := by
  unfold CarefulCb
  split <;> infer_instance

instance (s : TxnSystem) (a : TxnAction) : Decidable (s.Careful a) :=
  match a with
  | .handle .. => inferInstanceAs (Decidable (∀ e ∈ _, _))
  | .create .. | .deliver .. | .epCb .. | .jobTriggered _ | .npTriggered .. =>
    inferInstanceAs (Decidable True)

instance (a : TxnAction) : Decidable a.Packless :=
  match a with
  | .handle _ code => inferInstanceAs (Decidable (code.pack.iocalls = []))
  | .create .. | .deliver .. | .epCb .. | .jobTriggered _ | .npTriggered .. =>
    inferInstanceAs (Decidable True)

instance (s : TxnSystem) (a : TxnAction) : Decidable ((packless bioCnt).enabled s a) :=
  inferInstanceAs (Decidable (s.enabled bioCnt a ∧ a.Packless))

/-- **Every careful step** leaves every transaction in order. -/
theorem exec_orderly (hinv : s.Inv) (h : s.Orderly) {a : TxnAction}
    (he : (packless bioCnt).enabled s a) (hcare : s.Careful a)
    (hx : s.exec bioCnt a = .ok s') : s'.Orderly := by
  obtain ⟨he, hpack⟩ := he
  cases exec_stepped he hx with
  | create workflow home now immediate => exact h.create hinv workflow home now immediate
  | deliver hslot hdel => exact h.deliver hinv hslot hdel _
  | workflowRun hi hpto howner hslot hrel hr =>
    exact h.workflowRun hinv hi hpto hpack howner hslot hrel hr
  | taskCb hi hfirst hpto howner hslot hrel hr =>
    obtain ⟨rfl, k, hk, ⟨hs, hcb, hlast, hdes, -⟩ | ⟨-, hord⟩⟩ :=
      h.callback hinv hi hfirst hpto howner hslot hrel hr
    · have hcb' := hcare _ hi
      simp only [CarefulCb, hpto] at hcb'
      exact absurd (hcb' hs _ hslot k hk hcb hlast) hdes
    · exact hord
  | aside ha => exact h.aside ha

/-- Any other step leaves two messages that resume the same transaction. -/
theorem exec_careless (hinv : s.Inv) (h : s.Orderly) {a : TxnAction}
    (he : (packless bioCnt).enabled s a) (hcare : ¬ s.Careful a)
    (hx : s.exec bioCnt a = .ok s') : ∃ x, s'.resumes x = 2 := by
  obtain ⟨he, -⟩ := he
  cases a with
  | handle i code =>
    obtain ⟨e, hi, hfirst⟩ := he
    rw [Option.mem_def] at hi
    simp only [exec, hi] at hx
    -- only a callback can be careless
    cases hpto : e.pto with
    | svcTaskCb t service api status done =>
      simp only [TxnSystem.handle, hpto] at hx
      obtain ⟨x, slot, r, howner, hslot, hrel, hr, rfl⟩ := onTxn_ok hx
      -- it ends with two messages to resume, or was careful
      obtain ⟨rfl, k, hk, ⟨-, -, -, -, hres⟩ | ⟨hno, -⟩⟩ :=
        h.callback hinv hi hfirst hpto howner hslot hrel hr
      · exact ⟨t.txn, hres⟩
      · refine absurd (fun e' hi' => ?_) hcare
        obtain rfl : e' = e := Option.some.inj (hi'.symm.trans hi)
        simp only [CarefulCb, hpto]
        intro hs slot' hslot' k' hk' hcb hlast
        obtain rfl : slot' = slot := Option.some.inj (hslot'.symm.trans hslot)
        obtain rfl : k' = k := Option.some.inj (hk'.symm.trans hk)
        exact hno hs hcb hlast
    | _ =>
      refine absurd (fun e' hi' => ?_) hcare
      obtain rfl : e' = e := Option.some.inj (hi'.symm.trans hi)
      simp only [CarefulCb, hpto]
  | _ => exact absurd trivial hcare

theorem init_orderly (h : Init s) : s.Orderly := by
  obtain ⟨-, htxns, -, -, hlog⟩ := h
  exact ⟨by simp [htxns], by simp [hlog]⟩

/-- **A careful step** keeps the order. -/
theorem step_orderly {a : TxnAction} (h : s.Inv ∧ s.Orderly)
    (he : (packless bioCnt).enabled s a) (hcare : s.Careful a)
    (hx : (packless bioCnt).exec s a = .ok s') : s'.Inv ∧ s'.Orderly :=
  ⟨exec_inv h.1 he.1 hx, exec_orderly h.1 h.2 he hcare hx⟩

/-- In every state that careful steps reach, every transaction is in order. -/
theorem reach_orderly (h : (packless bioCnt).Reach Careful s) : s.Inv ∧ s.Orderly :=
  h.invariant (I := fun s => s.Inv ∧ s.Orderly) (fun _ hs => ⟨init_inv hs, init_orderly hs⟩)
    fun _ _ _ h he hc hx => step_orderly h he hc hx

/-- What is expected of the messages that resume transactions. -/
structure ResumedOnce (s : TxnSystem) : Prop where
  /-- At most one `SK_PTO_WORKFLOW_RUN` of a transaction is in flight. -/
  single : ∀ x, s.net.countP (fun e => e.pto = .workflowRun && e.owner = .inl x) ≤ 1
  /-- None is in flight for a released transaction. -/
  released : ∀ (x : TxnId) (slot : TxnSlot), s.txns[x]? = some slot → slot.released = true →
    ∀ e ∈ s.net, e.owner = .inl x → e.pto ≠ .workflowRun
  /-- `pack` is called at most once, and has been called when the transaction is released. -/
  packed : ∀ (x : TxnId) (slot : TxnSlot), s.txns[x]? = some slot → s.packs x ≤ 1 ∧
    (slot.released = true → s.packs x = if slot.txn.workflow.hasPack then 1 else 0)
  /-- Modules are entered and `pack` is called while no callback task is incomplete. -/
  modules : ∀ x w, .entered x w ∈ s.log ∨ (∃ st, .packed x w st ∈ s.log) → w = 0

/-- The messages that run a workflow are among those that resume it. -/
theorem countP_workflowRun_le (s : TxnSystem) (x : TxnId) :
    s.net.countP (fun e => e.pto = .workflowRun && e.owner = .inl x) ≤ s.resumes x := by
  refine List.countP_mono_left fun e _ he => ?_
  simp only [Bool.and_eq_true, decide_eq_true_eq] at he
  simp [Event.resumes, Event.isResume, he.1, he.2]

/-- A transaction is packed once at most. -/
theorem packsDone_le (t : Txn) : t.packsDone ≤ 1 := by
  unfold Txn.packsDone
  split
  · exact Bool.toNat_le _
  · exact Nat.zero_le _

/-- A transaction has at most one message that resumes it. -/
theorem Orderly.resumes_le (hinv : s.Inv) (h : s.Orderly) (x : TxnId) : s.resumes x ≤ 1 := by
  by_cases hx : x < s.txns.length
  · rw [(h.slots x _ (List.getElem?_eq_getElem hx)).resumes]
    exact due_le _
  · rw [resumes_zero hinv (Nat.not_lt.mp hx)]
    exact Nat.zero_le 1

/-- What is in order is resumed once. -/
theorem Orderly.resumedOnce (hinv : s.Inv) (h : s.Orderly) : s.ResumedOnce where
  single x := (countP_workflowRun_le s x).trans (h.resumes_le hinv x)
  released x slot hslot hrel e he howner hpto := by
    have hzero : s.resumes x = 0 := by
      rw [(h.slots x slot hslot).resumes]
      simp [TxnSlot.due, hrel]
    have hres := List.countP_eq_zero.mp hzero e he
    simp [Event.resumes, Event.isResume, hpto, howner] at hres
  packed x slot hslot := by
    have hord := h.slots x slot hslot
    refine ⟨hord.packs ▸ packsDone_le _, fun hrel => ?_⟩
    rw [hord.packs]
    cases hp : slot.txn.workflow.hasPack <;> simp [Txn.packsDone, hord.released hrel, hp]
  modules x w hm := by
    rcases hm with hm | ⟨st, hm⟩
    · exact (h.marks _ hm x w (.inl rfl)).1
    · exact (h.marks _ hm x w (.inr ⟨st, rfl⟩)).1

/-- **A transaction is resumed once.** A run whose steps are all careful has at most one
    `SK_PTO_WORKFLOW_RUN` of each transaction in flight and none for a released one, packs every
    transaction once, and enters no module while a callback task is incomplete.  The careful runs
    are those without two messages that resume the same transaction. -/
theorem resumed_once (hs : Init s) {p : List (TxnAction × TxnSystem)}
    (hp : (packless bioCnt).Path s p) :
    (Machine.StepsMeet Careful s p → ∀ q ∈ p, q.2.ResumedOnce) ∧
      ((∀ q ∈ p, ∀ x, q.2.resumes x ≤ 1) ↔ Machine.StepsMeet Careful s p) := by
  refine ⟨fun hmeet q hq => ?_, ?_⟩
  · obtain ⟨hinv, hord⟩ := reach_orderly (hp.reach (.init hs) hmeet q hq)
    exact hord.resumedOnce hinv
  · refine Machine.path_iff (I := fun s => s.Inv ∧ s.Orderly) (P := fun s => ∀ x, s.resumes x ≤ 1)
      (fun s h => h.2.resumes_le h.1) (fun s a t h he hc hx => step_orderly h he hc hx)
      (fun s a t h he hc hx hP => ?_) ⟨init_inv hs, init_orderly hs⟩ hp
    obtain ⟨x, hx⟩ := exec_careless h.1 h.2 he hc hx
    have hle := hP x
    omega

/-! One module whose `run` makes a service call with a callback and one without: the call with the
callback completes and makes the transaction due, then the other one is the last to complete. -/

/-- The calls of the module. -/
def twoCalls : UserCode := { quiet with run := ⟨[⟨0, 0, true, 0⟩, ⟨0, 0, false, 0⟩], false⟩ }

/-- Everything up to the two messages of the master that resume the transaction. -/
def bothComplete : List TxnAction :=
  [.create ⟨1, true, 0⟩ (.worker 0) 0 false, .deliver 0 (.worker 0), .handle 0 twoCalls] ++
    List.replicate 8 (.handle 0 quiet)

/-- The system with the two messages. -/
def twice : TxnSystem := ((packless 0).play fresh bothComplete).getD fresh

/-- The system when the first of them was handled. -/
def overdue : TxnSystem := ((packless 0).play fresh (bothComplete ++ [.handle 0 quiet])).getD fresh

/-- **A transaction is resumed twice**, and the second time it is freed. -/
theorem resumed_twice :
    (packless 0).Reach Machine.anyStep twice ∧
      twice.net.countP (fun e => e.pto = .workflowRun && e.owner = .inl 0) = 2 ∧
      (packless 0).Reach Machine.anyStep overdue ∧
      (overdue.txns.map TxnSlot.released = [true] ∧ (overdue.net.map Event.pto) = [.workflowRun]) ∧
      overdue.exec 0 (.handle 0 quiet) = .error .txnFreed := by
  have hplay : (packless 0).play fresh bothComplete = some twice := by decide +kernel
  have hplay' : (packless 0).play fresh (bothComplete ++ [.handle 0 quiet]) = some overdue := by
    decide +kernel
  refine ⟨Machine.play_reach (.init fresh_init) hplay, by decide +kernel,
    Machine.play_reach (.init fresh_init) hplay', by decide +kernel, by decide +kernel⟩

/-- The transaction of `oneCall` is resumed once. -/
theorem oneCall_resumed_once :
    Machine.StepsMeet Careful fresh ((packless 0).trace fresh oneCall) ∧
      ∀ q ∈ (packless 0).trace fresh oneCall, q.2.ResumedOnce := by
  have hmeet : Machine.StepsMeet Careful fresh ((packless 0).trace fresh oneCall) := by
    decide +kernel
  exact ⟨hmeet, (resumed_once fresh_init (Machine.trace_path oneCall fresh)).1 hmeet⟩

end TxnSystem

end Skull
