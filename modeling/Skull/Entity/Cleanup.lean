import Skull.Entity.Steps
import Skull.Lib.Machine

namespace Skull

open Machines

/-!
# What the manager cleans up

A dead entity waits in the list of its manager until it has no transactions.  Destroying it then
goes wrong when requests still wait in its queue, and when it is in the list twice: a `pack` that
fails marks an entity that was dead, which dies again.

* `Client.Filed`, `Client.Listed` — the place of an entity in its manager;
* `Client.exec_listed`, `Client.reach_listed` — every step keeps it;
* `Client.cleanDead_spec` — what `_cleanup_dead_entities` does then;
* `Client.cleanDead_error` — when it aborts.
-/

namespace Client

variable {c c' : Client} {e : Entity}

/-- The place of an entity in its manager. -/
structure Filed (c : Client) (e : Entity) : Prop where
  counted : e.Counted
  managed : c.managed = e.owned
  unowned : e.owned = false → e.status = .active
  active : e.status = .active → c.inactive = 0
  dead : e.status = .dead → 0 < c.inactive

/-- An entity is in its manager, and one that was only marked has transactions. -/
structure Listed (c : Client) : Prop where
  ent : ∀ e, c.ent = some e → c.Filed e ∧ (e.status = .inactive → e.txns ≠ [])
  gone : c.ent = none → c.inactive = 0

/-- To check a state with an entity, the entity is enough. -/
theorem listed_of_ent (hent : c.ent = some e) (hf : c.Filed e)
    (hmarked : e.status = .inactive → e.txns ≠ []) : c.Listed := by
  refine ⟨fun e' he' => ?_, fun hn => absurd (hent.symm.trans hn) (by simp)⟩
  obtain rfl := Option.some.inj (hent.symm.trans he')
  exact ⟨hf, hmarked⟩

/-- A dead entity has an owner. -/
theorem Filed.owned (h : c.Filed e) (hst : e.status ≠ .active) : e.owned = true := by
  cases ho : e.owned with
  | true => rfl
  | false => exact absurd (h.unowned ho) hst

/-! ### Destruction -/

/-- Removing an entity from its manager. -/
theorem mgrDel_filed (hent : c.ent = some e) (howned : e.owned = true) (hf : c.Filed e)
    (hx : c.mgrDel = .ok c') : ∃ e', c'.ent = some e' ∧ c'.Filed e' ∧ e'.status = .dead ∧
      e'.owned = true ∧ e'.txns = e.txns := by
  rw [mgrDel_eq hent] at hx
  by_cases hdead : e.status = .dead
  · rw [if_pos hdead] at hx
    exact Except.ok.inj hx ▸ ⟨e, hent, hf, hdead, howned, rfl⟩
  · rw [if_neg hdead] at hx
    rw [← Except.ok.inj hx]
    exact ⟨_, rfl, ⟨⟨hf.counted.taskCnt, hf.counted.single⟩, hf.managed,
      fun ho => absurd (howned.symm.trans ho) (by simp), fun hst => absurd hst (by simp),
      fun _ => Nat.succ_pos _⟩, rfl, howned, rfl⟩

/-- Giving up an entity.  One without an owner is freed at once. -/
theorem safeDestroy_listed (hent : c.ent = some e) (hf : c.Filed e) (hx : c.safeDestroy = .ok c') :
    c'.Listed := by
  cases howned : e.owned with
  | true =>
    rw [safeDestroy_owned hent howned] at hx
    obtain ⟨e', hent', hf', hdead, -⟩ := mgrDel_filed hent howned hf hx
    exact listed_of_ent hent' hf' fun hst => absurd (hdead.symm.trans hst) (by simp)
  | false =>
    set e' : Entity := { e with status := .dead, ud := false }
    have hc' : e'.Counted := ⟨hf.counted.taskCnt, hf.counted.single⟩
    have hfree : ({ c with ent := some e' } : Client).entityFree e' = .ok c' := by
      simpa [safeDestroy, hent, howned, mark, entityDestroy, e'] using hx
    by_cases hiq : e.iqueue = []
    · rw [entityFree_eq rfl hc' hiq] at hfree
      rw [← Except.ok.inj hfree]
      exact ⟨fun e he => absurd he (by simp), fun _ => hf.active (hf.unowned howned)⟩
    · rw [entityFree_stranded rfl hc' hiq] at hfree
      exact absurd hfree (by simp)

/-- An entity with running transactions waits, as often as it is in the list. -/
theorem cleanLoop_wait (turns : Nat) : ∀ {c : Client}, c.ent = some e → e.taskCnt ≠ 0 →
    cleanLoop false turns c = .ok { c with inactive := c.inactive + turns } := by
  induction turns with
  | zero =>
    intro c _ _
    rfl
  | succ turns ih =>
    intro c hent hcnt
    have hrest := ih (c := { c with inactive := c.inactive + 1 }) hent hcnt
    rw [cleanLoop]
    simp only [hent, hcnt, ne_eq, not_false_eq_true, Bool.false_eq_true, and_self, if_true]
    rw [← hent, hrest, Nat.add_assoc, Nat.add_comm 1 turns]

/-- What `_cleanup_dead_entities` makes of an entity that it frees. -/
def cleaned (c : Client) (e : Entity) : Except EntityFault Client :=
  if e.iqueue ≠ [] then .error .txnDel
  else if 1 < c.inactive then .error .entityFreed
  else .ok { c with
    ent := none, managed := false, inactive := 0, destroyed := c.destroyed ++ e.txns }

/-- **A dead entity** is freed when it has no transactions, or must go. -/
theorem cleanDead_dead {force : Bool} (hent : c.ent = some e) (hf : c.Filed e)
    (hdead : e.status = .dead) (hgo : force = true ∨ e.txns = []) :
    c.cleanDead force = c.cleaned e := by
  have hwait : ¬ (e.taskCnt ≠ 0 ∧ ¬ force = true) := by
    rintro ⟨hcnt, hforce⟩
    refine hcnt ?_
    rw [hf.counted.taskCnt, hgo.resolve_left hforce]
    rfl
  have hmanaged : c.managed = true :=
    hf.managed.trans (hf.owned (by simp [hdead]))
  obtain ⟨turns, hturns⟩ := Nat.exists_eq_succ_of_ne_zero (hf.dead hdead).ne'
  rw [cleanDead, hturns, cleanLoop]
  simp only [hent, hwait, if_false, hmanaged, not_true_eq_false]
  by_cases hiq : e.iqueue = []
  · have hfree := entityDestroy_dead (c := { c with managed := false, inactive := 0 }) hent
      hf.counted hdead hiq
    simp only [cleaned, hiq, ne_eq, not_true_eq_false, if_false]
    rw [← hent, hfree]
    -- the list holds a freed entity when there is another turn
    cases turns with
    | zero => simp [cleanLoop, hturns]
    | succ turns => simp [cleanLoop, hturns]
  · have hfree := entityFree_stranded (c := { c with managed := false, inactive := 0 }) hent
      hf.counted hiq
    simp only [cleaned, hiq, ne_eq, not_false_eq_true, if_true]
    simp [entityDestroy, hdead, hent ▸ hfree]

/-- **Cleaning up** frees a dead entity that has no transactions. -/
theorem cleanDead_spec (h : c.Listed) (hent : c.ent = some e) :
    c.cleanDead false = if e.status = .dead ∧ e.txns = [] then c.cleaned e else .ok c := by
  obtain ⟨hf, hmarked⟩ := h.ent e hent
  split
  · rename_i hfree
    exact cleanDead_dead hent hf hfree.1 (.inr hfree.2)
  · rename_i hfree
    by_cases hactive : e.status = .active
    · exact cleanDead_none (hf.active hactive)
    · have htxns : e.txns ≠ [] := by
        intro hnil
        cases hst : e.status with
        | active => exact hactive hst
        | inactive => exact hmarked hst hnil
        | dead => exact hfree ⟨hst, hnil⟩
      have hcnt : e.taskCnt ≠ 0 := by
        rw [hf.counted.taskCnt]
        exact fun hzero => htxns (List.length_eq_zero_iff.mp (by omega))
      rw [cleanDead, cleanLoop_wait (c := { c with inactive := 0 }) _ hent hcnt, Nat.zero_add]

/-- What is cleaned leaves the lists in order. -/
theorem cleaned_listed (hx : c.cleaned e = .ok c') : c'.Listed := by
  unfold cleaned at hx
  split at hx
  · exact absurd hx (by simp)
  · split at hx
    · exact absurd hx (by simp)
    · rw [← Except.ok.inj hx]
      exact ⟨fun e he => absurd he (by simp), fun _ => rfl⟩

/-- So does `sk_entity_mgr_clean_dead`. -/
theorem cleanDead_listed (h : c.Listed) (hx : c.cleanDead false = .ok c') : c'.Listed := by
  cases hent : c.ent with
  | none =>
    rw [cleanDead_none (h.gone hent)] at hx
    exact Except.ok.inj hx ▸ h
  | some e =>
    rw [cleanDead_spec h hent] at hx
    split at hx
    · exact cleaned_listed hx
    · exact Except.ok.inj hx ▸ h

/-- The events in flight do not matter, nor that the engine goes. -/
theorem Listed.aside (h : c.Listed) (runs : List TxnId) (down : Bool) :
    ({ c with runs, down } : Client).Listed :=
  ⟨fun e he => ⟨⟨(h.ent e he).1.counted, (h.ent e he).1.managed, (h.ent e he).1.unowned,
    (h.ent e he).1.active, (h.ent e he).1.dead⟩, (h.ent e he).2⟩, h.gone⟩

/-- The engine is destroyed. -/
theorem mgrDestroy_listed (h : c.Listed) (hx : c.mgrDestroy = .ok c') : c'.Listed := by
  have hdown : ({ c with down := true } : Client).Listed := h.aside c.runs true
  unfold mgrDestroy at hx
  simp only at hx
  -- without an entity there is nothing to delete
  cases hent : c.ent with
  | none =>
    have hzero : cleanDead true { c with down := true } = .ok { c with down := true } :=
      cleanDead_none (h.gone hent)
    split at hx
    · simp [mgrDel, hent] at hx
    · rw [hzero] at hx
      exact Except.ok.inj hx ▸ hdown
  -- it is deleted when the manager has it, and else left alone
  | some e =>
    have hf := (hdown.ent e hent).1
    split at hx
    · rename_i hmanaged
      have howned : e.owned = true := hf.managed.symm.trans hmanaged
      cases hdel : ({ c with down := true } : Client).mgrDel with
      | error f => simp [hdel] at hx
      | ok c₁ =>
        -- it is deleted, and dead before the cleaning
        obtain ⟨e₁, hent₁, hf₁, hdead, -⟩ := mgrDel_filed (c := { c with down := true }) hent howned
          hf hdel
        simp only [hdel] at hx
        rw [cleanDead_dead hent₁ hf₁ hdead (.inl rfl)] at hx
        exact cleaned_listed hx
    · rename_i hmanaged
      have howned : e.owned = false := hf.managed.symm.trans (by simpa using hmanaged)
      -- the manager does not know it
      rw [cleanDead_none (c := { c with down := true }) (hf.active (hf.unowned howned))] at hx
      exact Except.ok.inj hx ▸ hdown

/-! ### Reading -/

/-- Delivering changes no list. -/
theorem driverDeliver_listed {n : Nat} (h : c.Listed) (hent : c.ent = some e)
    (hx : c.driverDeliver 1 = .ok (n, c')) : c'.Listed := by
  obtain ⟨hf, -⟩ := h.ent e hent
  rcases driverDeliver_spec hent hf.counted with ⟨-, hdel⟩ | ⟨txn, iqueue, hidle, -, hdel⟩
  · obtain ⟨-, rfl⟩ := Prod.mk.inj (Except.ok.inj (hdel.symm.trans hx))
    exact h
  · obtain ⟨-, rfl⟩ := Prod.mk.inj (Except.ok.inj (hdel.symm.trans hx))
    exact listed_of_ent rfl ⟨counted_deliver hf.counted hidle txn iqueue, hf.managed, hf.unowned,
      hf.active, hf.dead⟩ (by simp)

/-- Reading. -/
theorem readCb_listed {arrived : Option (List UInt8)} {consumed : Int} (h : c.Listed)
    (hx : c.readCb arrived consumed = .ok c') : c'.Listed := by
  unfold readCb at hx
  cases hent : c.ent with
  | none => simp [hent] at hx
  | some e =>
    obtain ⟨hf, hmarked⟩ := h.ent e hent
    simp only [hent] at hx
    split at hx
    · -- the driver closed the connection, or there is nothing to read
      exact Except.ok.inj hx ▸ h
    · rcases driverUnpack_spec c e arrived consumed with hu | ⟨bytes, -, -, hu⟩
      · simp only [hu] at hx
        exact Except.ok.inj hx ▸ h
      · -- the bytes are put to the half transaction
        have hhalf : (c.withHalf e (e.rbuf ++ bytes)).Filed
            { e with halfTxn := some (c.getOrCreateTxn e).1, rbuf := e.rbuf ++ bytes } :=
          ⟨⟨hf.counted.taskCnt, hf.counted.single⟩, hf.managed, hf.unowned, hf.active, hf.dead⟩
        rcases hu with ⟨-, hu⟩ | ⟨-, hu⟩ | ⟨hpos, hu⟩
        · simp only [hu] at hx
          -- more bytes are needed
          exact Except.ok.inj hx ▸ listed_of_ent rfl hhalf hmarked
        · -- the unpack function fails, and the entity is destroyed
          cases hs : (c.withHalf e (e.rbuf ++ bytes)).safeDestroy with
          | error f => simp [hu, hs, Except.map] at hx
          | ok c₁ =>
            have hc₁ : c₁ = c' := by simpa [hu, hs, Except.map] using hx
            exact hc₁ ▸ safeDestroy_listed rfl hhalf hs
        · -- the request is complete and queued, and may be delivered
          have hqueued : (c.withQueued e (e.rbuf ++ bytes) consumed).Listed :=
            listed_of_ent rfl ⟨⟨hf.counted.taskCnt, hf.counted.single⟩, hf.managed, hf.unowned,
              hf.active, hf.dead⟩ hmarked
          cases hdel : (c.withQueued e (e.rbuf ++ bytes) consumed).driverDeliver 1 with
          | error f => simp [hu, hpos, hdel, Except.map] at hx
          | ok r =>
            have hr : r.2 = c' := by simpa [hu, hpos, hdel, Except.map] using hx
            exact hr ▸ driverDeliver_listed hqueued rfl hdel

/-! ### The workflow -/

/-- Packing marks the entity, or gives it up. -/
theorem modulePack_filed {failed writeError : Bool} (hent : c.ent = some e)
    (howned : e.owned = true) (hf : c.Filed e) (hx : c.modulePack failed writeError = .ok c') :
    ∃ e', c'.ent = some e' ∧ c'.Filed e' ∧ e'.owned = true ∧ e'.txns = e.txns := by
  obtain ⟨e₁, hent₁, hf₁, howned₁, htxns₁⟩ : ∃ e₁,
      (if failed then c.mark .inactive else c).ent = some e₁ ∧
        (if failed then c.mark .inactive else c).Filed e₁ ∧ e₁.owned = true ∧
          e₁.txns = e.txns := by
    cases failed with
    | false => exact ⟨e, hent, hf, howned, rfl⟩
    | true =>
      exact ⟨{ e with status := .inactive }, by simp [mark, hent],
        ⟨⟨hf.counted.taskCnt, hf.counted.single⟩, hf.managed,
          fun ho => absurd (howned.symm.trans ho) (by simp), fun hst => absurd hst (by simp),
          fun hst => absurd hst (by simp)⟩, howned, rfl⟩
  unfold modulePack at hx
  generalize (if failed then c.mark .inactive else c) = c₁ at hx hent₁ hf₁
  simp only at hx
  split at hx
  · rw [safeDestroy_owned hent₁ howned₁] at hx
    obtain ⟨e', hent', hf', -, howned', htxns'⟩ := mgrDel_filed hent₁ howned₁ hf₁ hx
    exact ⟨e', hent', hf', howned', htxns'.trans htxns₁⟩
  · exact Except.ok.inj hx ▸ ⟨e₁, hent₁, hf₁, howned₁, htxns₁⟩

/-- Finishing a transaction; an entity that was marked goes with its last one. -/
theorem txnLogAndDestroy_listed {txn : TxnId} {allComplete : Bool} (hent : c.ent = some e)
    (hf : c.Filed e) (hmem : txn ∈ e.txns) (hx : c.txnLogAndDestroy txn allComplete = .ok c') :
    c'.Listed := by
  -- a task is left, so the transaction stays in the entity
  cases allComplete with
  | false =>
    rw [← Except.ok.inj hx]
    exact listed_of_ent hent hf fun _ => List.ne_nil_of_mem hmem
  | true =>
    -- it is the last one, and leaves the entity
    obtain ⟨c₂, e₂, hfin, heq⟩ := txnLogAndDestroy_spec hent hf.counted hmem
    have howned : e₂.owned = e.owned := by rw [hfin.entity]
    have hstatus : e₂.status = e.status := by rw [hfin.entity]
    have hmanaged : c₂.managed = c.managed := by rw [hfin.client]
    have hinactive : c₂.inactive = c.inactive := by rw [hfin.client]
    have hf₂ : c₂.Filed e₂ := by
      refine ⟨hfin.counted, ?_, ?_, ?_, ?_⟩
      · rw [hmanaged, howned]
        exact hf.managed
      · rw [howned, hstatus]
        exact hf.unowned
      · rw [hstatus, hinactive]
        exact hf.active
      · rw [hstatus, hinactive]
        exact hf.dead
    rw [heq] at hx
    -- the entity may be destroyed with it
    split at hx
    · exact safeDestroy_listed hfin.ent hf₂ hx
    · rename_i hstays
      rw [← Except.ok.inj hx]
      refine listed_of_ent hfin.ent hf₂ fun hst htxns => hstays ⟨.inl (by simp [hst]), ?_⟩
      rw [hfin.counted.taskCnt, htxns]
      rfl

/-- Handling an event of a registered transaction. -/
theorem workflowRun_listed {txn : TxnId} {outcome : RunOutcome} (h : c.Listed)
    (hx : c.workflowRun txn outcome = .ok c') : c'.Listed := by
  unfold workflowRun at hx
  cases hent : c.ent with
  | none => simp [hent] at hx
  | some e =>
    simp only [hent] at hx
    split at hx
    · exact absurd hx (by simp)
    · rename_i hnot
      have hmem : txn ∈ e.txns := not_not.mp hnot
      obtain ⟨hf, -⟩ := h.ent e hent
      -- the handler takes the entity for its own
      have hadopt : (c.adopt e).Filed { e with owned := true } :=
        ⟨⟨hf.counted.taskCnt, hf.counted.single⟩, by simp [adopt, hf.managed],
          fun ho => absurd ho (by simp), hf.active, hf.dead⟩
      have hmarked : (c.adopt e).Listed :=
        listed_of_ent rfl hadopt fun _ => List.ne_nil_of_mem hmem
      cases outcome with
      | pending => exact Except.ok.inj hx ▸ hmarked
      | next =>
        rw [← Except.ok.inj hx]
        exact listed_of_ent rfl ⟨hadopt.counted, hadopt.managed, hadopt.unowned, hadopt.active,
          hadopt.dead⟩ fun _ => List.ne_nil_of_mem hmem
      -- it is packed, and may leave
      | packed failed writeError allComplete =>
        cases hp : (c.adopt e).modulePack failed writeError with
        | error f => simp [hp] at hx
        | ok c₁ =>
          simp only [hp] at hx
          obtain ⟨e₁, hent₁, hf₁, -, htxns₁⟩ := modulePack_filed rfl rfl hadopt hp
          exact txnLogAndDestroy_listed hent₁ hf₁ (htxns₁ ▸ hmem) hx
      | destroyed allComplete => exact txnLogAndDestroy_listed rfl hadopt hmem hx

/-! ### The runs -/

/-- **The step lemma.** -/
theorem exec_listed {a : ClientAction} (h : c.Listed) (hx : c.exec a = .ok c') : c'.Listed := by
  cases a with
  | read arrived consumed => exact readCb_listed h hx
  | error =>
    cases hent : c.ent with
    | none => simp [exec, safeDestroy, hent] at hx
    | some e => exact safeDestroy_listed hent (h.ent e hent).1 hx
  | resume txn => exact Except.ok.inj hx ▸ h.aside _ _
  | workflowRun i outcome =>
    simp only [exec] at hx
    split at hx
    · exact Except.ok.inj hx ▸ h
    · exact workflowRun_listed (h.aside _ _) hx
  | cleanDead => exact cleanDead_listed h hx
  | shutdown => exact mgrDestroy_listed h hx

/-- **The run lemma.** -/
theorem reach_listed (h : machine.Reach Machine.anyStep c) : c.Listed := by
  refine h.invariant (I := Listed) ?_ fun c a c' hc _ _ hx => exec_listed hc hx
  rintro c ⟨owned, concurrent, destroyNotxn, rfl⟩
  exact listed_of_ent rfl ⟨⟨rfl, fun _ => Nat.zero_le 1⟩, rfl, fun _ => rfl, fun _ => rfl,
    fun hst => absurd hst (by simp)⟩ fun hst => absurd hst (by simp)

/-- What makes the clean-up abort: it frees an entity whose requests wait, or frees it twice. -/
def CleanFaults (c : Client) (fault : EntityFault) : Prop :=
  ∃ e ∈ c.ent, e.status = .dead ∧ e.txns = [] ∧
    (e.iqueue ≠ [] ∧ fault = .txnDel ∨ e.iqueue = [] ∧ 1 < c.inactive ∧ fault = .entityFreed)

/-- **When the clean-up aborts.** -/
theorem cleanDead_error (h : c.Listed) (fault : EntityFault) :
    c.cleanDead false = .error fault ↔ c.CleanFaults fault := by
  cases hent : c.ent with
  | none => simp [cleanDead_none (h.gone hent), CleanFaults, hent]
  | some e =>
    rw [cleanDead_spec h hent]
    by_cases hfree : e.status = .dead ∧ e.txns = []
    · rw [if_pos hfree]
      by_cases hiq : e.iqueue = []
      · by_cases htwice : 1 < c.inactive
        · simp [cleaned, CleanFaults, hent, hfree, hiq, htwice, eq_comm]
        · simp [cleaned, CleanFaults, hent, hfree, hiq, htwice]
      · simp [cleaned, CleanFaults, hent, hfree, hiq, eq_comm]
    · rw [if_neg hfree]
      simp only [CleanFaults, hent, Option.mem_def, Option.some.injEq, exists_eq_left',
        reduceCtorEq, false_iff]
      exact fun hf => hfree ⟨hf.1, hf.2.1⟩

/-- The peer goes, and then `pack` fails: the entity is freed, and read again. -/
example : (machine.play (accepted true false false)
    [.read (some [1]) 1, .error, .workflowRun 0 (.packed true false true)]).map
      (·.exec .cleanDead) = some (.error .entityFreed) := by
  decide +kernel

end Client

end Skull
