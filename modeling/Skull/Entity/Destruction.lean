import Skull.Entity.Steps

namespace Skull

open Machines

/-!
# Destroying every transaction once

The ledger of a client: each transaction that was created is destroyed or still held by the
entity, and never both.

* `Client.Ledgered` — the ledger, and the task counter;
* `Client.Disposable` — the condition on a step: nothing is half read or queued when the
  entity is freed, packing does not fail on an entity that is already dead, and no event of a
  released transaction is handled;
* `Client.exec_kept` — such a step does not abort and keeps the ledger;
* `Client.destroys_once` — the same for every run;
* `Client.strandedTxn_aborts`, `Client.halfTxn_leaks` — where the code goes wrong otherwise.
-/

namespace Client

/-- The transactions that exist. -/
def live (c : Client) : List TxnId :=
  match c.ent with
  | none => []
  | some e => e.live

/-- The task counter counts the registered transactions, and every transaction created is
    destroyed or live, once. -/
structure Ledgered (c : Client) : Prop where
  taskCnt : ∀ e, c.ent = some e → e.taskCnt = e.txns.length
  once : (List.range c.created).Perm (c.destroyed ++ c.live)

/-- The step frees no entity that still has a half or a queued transaction, packs without
    failure once the entity is dead, and uses no released transaction. -/
def Disposable (c : Client) : ClientAction → Prop
  | .read arrived consumed => ∀ e bytes, c.ent = some e → e.owned = false →
      arrived = some bytes → e.rbuf ++ bytes ≠ [] → 0 ≤ consumed
  | .workflowRun i outcome => ∃ e txn, c.ent = some e ∧ c.runs[i]? = some txn ∧ txn ∈ e.txns ∧
      ∀ writeError allComplete, outcome = .packed true writeError allComplete → e.status ≠ .dead
  | .cleanDead => ∀ e, c.ent = some e → e.status = .dead → e.taskCnt = 0 →
      e.halfTxn = none ∧ e.iqueue = []
  | .shutdown => ∀ e, c.ent = some e → e.owned = true → e.halfTxn = none ∧ e.iqueue = []
  | .error | .resume _ => True

/-- What the steps keep of an entity: its counter, and its place in the manager. -/
structure KeptEntity (c : Client) (e : Entity) : Prop where
  counted : e.Counted
  managed : c.managed = e.owned
  inactive : c.inactive = if e.status = .dead then 1 else 0
  unowned : e.owned = false → e.status = .active

/-- What the steps keep. -/
structure Kept (c : Client) : Prop where
  once : (List.range c.created).Perm (c.destroyed ++ c.live)
  ent : ∀ e, c.ent = some e → c.KeptEntity e
  gone : c.ent = none → c.managed = false ∧ c.inactive = 0

/-- What the invariant knows settles the accounts. -/
theorem Kept.ledgered {c : Client} (h : c.Kept) : c.Ledgered :=
  ⟨fun e he => (h.ent e he).counted.taskCnt, h.once⟩

/-- To check a state with an entity, the entity is enough. -/
theorem kept_of_ent {c : Client} {e : Entity} (hent : c.ent = some e)
    (honce : (List.range c.created).Perm (c.destroyed ++ e.live)) (he : c.KeptEntity e) :
    c.Kept := by
  refine ⟨by simpa only [live, hent] using honce, fun e' he' => ?_, fun hnone => ?_⟩
  · rw [← Option.some.inj (hent.symm.trans he')]
    exact he
  · exact absurd (hent.symm.trans hnone) (by simp)

/-- Every transaction is destroyed, or alive in the entity. -/
theorem Kept.once_ent {c : Client} {e : Entity} (h : c.Kept) (hent : c.ent = some e) :
    (List.range c.created).Perm (c.destroyed ++ e.live) := by
  simpa only [live, hent] using h.once

/-! ### Destruction -/

/-- Removing the entity from its manager. -/
theorem mgrDel_kept {c : Client} {e : Entity} (h : c.Kept) (hent : c.ent = some e)
    (howned : e.owned = true) : ∃ c', c.mgrDel = .ok c' ∧ c'.Kept ∧
      c'.ent = some (if e.status = .dead then e else { e with status := .dead, ud := false }) := by
  have he := h.ent e hent
  refine ⟨_, mgrDel_eq hent, ?_⟩
  by_cases hdead : e.status = .dead
  · simp only [hdead, if_true]
    exact ⟨h, hent⟩
  · simp only [hdead, if_false]
    have honce := h.once_ent hent
    refine ⟨kept_of_ent rfl honce
      ⟨⟨he.counted.taskCnt, he.counted.single⟩, he.managed, ?_, fun hf => ?_⟩, trivial⟩
    · have hzero := he.inactive
      rw [if_neg hdead] at hzero
      simp [hzero]
    · exact absurd (howned.symm.trans hf) (by simp)

/-- A round of the manager over its dead entities. -/
theorem cleanDead_kept {c : Client} {force : Bool} (h : c.Kept)
    (hgo : ∀ e, c.ent = some e → e.status = .dead → force = true ∨ e.taskCnt = 0 →
      e.halfTxn = none ∧ e.iqueue = []) :
    ∃ c', c.cleanDead force = .ok c' ∧ c'.Kept := by
  cases hent : c.ent with
  | none => exact ⟨c, cleanDead_none (h.gone hent).2, h⟩
  | some e =>
    have he := h.ent e hent
    by_cases hdead : e.status = .dead
    · have hone : c.inactive = 1 := by rw [he.inactive, if_pos hdead]
      have howned : e.owned = true := by
        cases ho : e.owned with
        | true => rfl
        | false => exact absurd ((he.unowned ho).symm.trans hdead) (by simp)
      by_cases hfree : force = true ∨ e.taskCnt = 0
      · obtain ⟨hhalf, hiq⟩ := hgo e hent hdead hfree
        refine ⟨_, cleanDead_free hent he.counted hdead hiq hone (he.managed.trans howned) hfree,
          ?_, fun e' he' => absurd he' (by simp), fun _ => ⟨rfl, rfl⟩⟩
        simpa [live, Entity.live, hhalf, hiq] using h.once_ent hent
      · obtain ⟨hf, hcnt⟩ := not_or.mp hfree
        rw [Bool.not_eq_true] at hf
        exact ⟨c, by rw [hf]; exact cleanDead_wait hent hone hcnt, h⟩
    · exact ⟨c, cleanDead_none (by rw [he.inactive, if_neg hdead]), h⟩

/-- The connection breaks, or a handler gives the entity up. -/
theorem safeDestroy_kept {c : Client} {e : Entity} (h : c.Kept) (hent : c.ent = some e)
    (howned : e.owned = true) : ∃ c', c.safeDestroy = .ok c' ∧ c'.Kept ∧
      c'.ent = some (if e.status = .dead then e else { e with status := .dead, ud := false }) := by
  rw [safeDestroy_owned hent howned]
  exact mgrDel_kept h hent howned

/-- The engine is destroyed. -/
theorem mgrDestroy_kept {c : Client} (h : c.Kept)
    (hgo : ∀ e, c.ent = some e → e.owned = true → e.halfTxn = none ∧ e.iqueue = []) :
    ∃ c', c.mgrDestroy = .ok c' ∧ c'.Kept := by
  have hdown : ({ c with down := true } : Client).Kept :=
    ⟨h.once, fun e he => ⟨(h.ent e he).counted, (h.ent e he).managed, (h.ent e he).inactive,
      (h.ent e he).unowned⟩, h.gone⟩
  unfold mgrDestroy
  simp only
  split
  · rename_i hmanaged
    obtain ⟨e, hent⟩ : ∃ e, c.ent = some e := by
      cases hent : c.ent with
      | none => exact absurd ((h.gone hent).1.symm.trans hmanaged) (by simp)
      | some e => exact ⟨e, rfl⟩
    have howned : e.owned = true := (h.ent e hent).managed.symm.trans hmanaged
    obtain ⟨c₁, hdel, hkept, hent₁⟩ := mgrDel_kept hdown hent howned
    obtain ⟨hhalf, hiq⟩ := hgo e hent howned
    rw [hdel]
    refine cleanDead_kept hkept fun e' he' _ _ => ?_
    rw [← Option.some.inj (hent₁.symm.trans he')]
    split <;> exact ⟨hhalf, hiq⟩
  · rename_i hmanaged
    refine cleanDead_kept hdown fun e he hdead _ => ?_
    -- an entity without an owner is not dead
    have howned : e.owned = false := by
      rw [← (h.ent e he).managed]
      simpa using hmanaged
    exact absurd (((h.ent e he).unowned howned).symm.trans hdead) (by simp)

/-! ### Reading -/

/-- A transaction that is created is live. -/
theorem getOrCreateTxn_once {c : Client} {e : Entity} (h : c.Kept) (hent : c.ent = some e) :
    (List.range (c.getOrCreateTxn e).2).Perm
      (c.destroyed ++ ((c.getOrCreateTxn e).1 :: (e.txns ++ e.iqueue))) := by
  have honce := h.once_ent hent
  unfold getOrCreateTxn
  cases hhalf : e.halfTxn with
  | some txn => simpa [Entity.live, hhalf] using honce
  | none =>
    simp only [List.range_succ]
    refine (honce.append_right _).trans ?_
    simp only [Entity.live, hhalf, Option.toList_none, List.nil_append, List.append_assoc]
    refine List.Perm.append_left _ ?_
    rw [← List.append_assoc]
    exact List.perm_append_singleton _ _

/-- A transaction that is half read is alive. -/
theorem withHalf_kept {c : Client} {e : Entity} (h : c.Kept) (hent : c.ent = some e)
    (data : List UInt8) : (c.withHalf e data).Kept := by
  have he := h.ent e hent
  refine kept_of_ent rfl ?_
    ⟨⟨he.counted.taskCnt, he.counted.single⟩, he.managed, he.inactive, he.unowned⟩
  simpa [withHalf, Entity.live] using getOrCreateTxn_once h hent

/-- So is one that was queued. -/
theorem withQueued_kept {c : Client} {e : Entity} (h : c.Kept) (hent : c.ent = some e)
    (data : List UInt8) (consumed : Int) : (c.withQueued e data consumed).Kept := by
  have he := h.ent e hent
  refine kept_of_ent rfl ?_
    ⟨⟨he.counted.taskCnt, he.counted.single⟩, he.managed, he.inactive, he.unowned⟩
  refine (getOrCreateTxn_once h hent).trans (List.Perm.append_left _ ?_)
  simp only [Entity.live, Option.toList_none, List.nil_append, ← List.append_assoc]
  exact (List.perm_append_singleton _ _).symm

/-- Delivering moves transactions, and aborts nowhere. -/
theorem driverDeliver_kept {c : Client} {e : Entity} (h : c.Kept) (hent : c.ent = some e) :
    ∃ n c', c.driverDeliver 1 = .ok (n, c') ∧ c'.Kept := by
  have he := h.ent e hent
  rcases driverDeliver_spec hent he.counted with ⟨-, hdel⟩ | ⟨txn, iqueue, hidle, hiq, hdel⟩
  · exact ⟨0, c, hdel, h⟩
  · refine ⟨1, _, hdel, kept_of_ent rfl ?_ ⟨counted_deliver he.counted hidle txn iqueue,
      he.managed, he.inactive, he.unowned⟩⟩
    simpa [Entity.live, hiq] using h.once_ent hent

/-- Reading. -/
theorem readCb_kept {c : Client} {e : Entity} (h : c.Kept) (hent : c.ent = some e)
    {arrived : Option (List UInt8)} {consumed : Int}
    (hread : e.owned = false → ∀ bytes, arrived = some bytes → e.rbuf ++ bytes ≠ [] →
      0 ≤ consumed) :
    ∃ c', c.readCb arrived consumed = .ok c' ∧ c'.Kept := by
  unfold readCb
  simp only [hent]
  split
  · exact ⟨c, rfl, h⟩
  · rcases driverUnpack_spec c e arrived consumed with hu | ⟨bytes, harr, hdata, hu⟩
    · exact ⟨c, by simp [hu], h⟩
    · rcases hu with ⟨-, hu⟩ | ⟨hneg, hu⟩ | ⟨hpos, hu⟩
      · exact ⟨_, by simp [hu], withHalf_kept h hent (e.rbuf ++ bytes)⟩
      · have howned : e.owned = true := by
          cases ho : e.owned with
          | true => rfl
          | false => exact absurd (hread ho bytes harr hdata) (by omega)
        obtain ⟨c₁, hs, hkept, -⟩ :=
          safeDestroy_kept (withHalf_kept h hent (e.rbuf ++ bytes)) rfl howned
        exact ⟨c₁, by simp [hu, hs, Except.map], hkept⟩
      · obtain ⟨n, c₁, hdel, hkept⟩ :=
          driverDeliver_kept (withQueued_kept h hent (e.rbuf ++ bytes) consumed) rfl
        exact ⟨c₁, by simp [hu, hpos, hdel, Except.map], hkept⟩

/-! ### The workflow -/

/-- The manager takes the entity. -/
theorem adopt_kept {c : Client} {e : Entity} (h : c.Kept) (hent : c.ent = some e) :
    (c.adopt e).Kept := by
  have he := h.ent e hent
  have honce := h.once_ent hent
  refine kept_of_ent rfl honce ⟨⟨he.counted.taskCnt, he.counted.single⟩, ?_, he.inactive,
    fun hf => absurd hf (by simp)⟩
  simp [adopt, he.managed]

/-- Marking an owned entity that is not dead. -/
theorem mark_kept {c : Client} {e : Entity} (h : c.Kept) (hent : c.ent = some e)
    (howned : e.owned = true) (hdead : e.status ≠ .dead) : (c.mark .inactive).Kept := by
  have he := h.ent e hent
  have honce := h.once_ent hent
  have hent' : (c.mark .inactive).ent = some { e with status := .inactive } := by
    simp [mark, hent]
  refine kept_of_ent hent' honce ⟨⟨he.counted.taskCnt, he.counted.single⟩, he.managed, ?_,
    fun hf => absurd (howned.symm.trans hf) (by simp)⟩
  have hzero := he.inactive
  rw [if_neg hdead] at hzero
  simp [mark, hzero]

/-- Packing, which does not fail on a dead entity. -/
theorem modulePack_kept {c : Client} {e : Entity} {failed : Bool} (writeError : Bool) (h : c.Kept)
    (hent : c.ent = some e) (howned : e.owned = true)
    (hdead : failed = true → e.status ≠ .dead) :
    ∃ c' e', c.modulePack failed writeError = .ok c' ∧ c'.Kept ∧ c'.ent = some e' ∧
      e'.owned = true ∧ e'.txns = e.txns := by
  obtain ⟨c₁, e₁, hc₁, hkept, hent₁, howned₁, htxns⟩ : ∃ c₁ e₁,
      (if failed then c.mark .inactive else c) = c₁ ∧ c₁.Kept ∧ c₁.ent = some e₁ ∧
        e₁.owned = true ∧ e₁.txns = e.txns := by
    cases failed with
    | true =>
      exact ⟨_, { e with status := .inactive }, rfl, mark_kept h hent howned (hdead rfl),
        by simp [mark, hent], howned, rfl⟩
    | false => exact ⟨c, e, rfl, h, hent, howned, rfl⟩
  simp only [modulePack, hc₁]
  split
  · obtain ⟨c', hs, hkept', hent'⟩ := safeDestroy_kept hkept hent₁ howned₁
    refine ⟨c', _, hs, hkept', hent', ?_, ?_⟩ <;> split
    · exact howned₁
    · exact howned₁
    · exact htxns
    · exact htxns
  · exact ⟨c₁, e₁, rfl, hkept, hent₁, howned₁, htxns⟩

/-- Finishing a transaction of an owned entity. -/
theorem txnLogAndDestroy_kept {c : Client} {e : Entity} {txn : TxnId} (h : c.Kept)
    (hent : c.ent = some e) (howned : e.owned = true) (hmem : txn ∈ e.txns)
    (allComplete : Bool) : ∃ c', c.txnLogAndDestroy txn allComplete = .ok c' ∧ c'.Kept := by
  cases allComplete with
  | false => exact ⟨c, rfl, h⟩
  | true =>
    have he := h.ent e hent
    obtain ⟨c₂, e₂, hfin, heq⟩ := txnLogAndDestroy_spec hent he.counted hmem
    have hstatus : e₂.status = e.status := by rw [hfin.entity]
    have howned₂ : e₂.owned = e.owned := by rw [hfin.entity]
    have hkept : c₂.Kept := by
      refine kept_of_ent hfin.ent ?_ ⟨hfin.counted, ?_, ?_, ?_⟩
      · rw [hfin.client]
        exact (h.once_ent hent).trans hfin.live
      · rw [hfin.client, howned₂]
        exact he.managed
      · rw [hfin.client, hstatus]
        exact he.inactive
      · rw [howned₂, hstatus]
        exact he.unowned
    rw [heq]
    split
    · obtain ⟨c', hs, hkept', -⟩ := safeDestroy_kept hkept hfin.ent (howned₂.trans howned)
      exact ⟨c', hs, hkept'⟩
    · exact ⟨c₂, rfl, hkept⟩

/-- Handling an event of a registered transaction. -/
theorem workflowRun_kept {c : Client} {e : Entity} {txn : TxnId} {outcome : RunOutcome}
    (h : c.Kept) (hent : c.ent = some e) (hmem : txn ∈ e.txns)
    (hpack : ∀ writeError allComplete, outcome = .packed true writeError allComplete →
      e.status ≠ .dead) :
    ∃ c', c.workflowRun txn outcome = .ok c' ∧ c'.Kept := by
  have hadopt := adopt_kept h hent
  simp only [workflowRun, hent, hmem, not_true_eq_false, if_false]
  cases outcome with
  | pending => exact ⟨_, rfl, hadopt⟩
  | next =>
    exact ⟨_, rfl, hadopt.once, fun e he => ⟨(hadopt.ent e he).counted, (hadopt.ent e he).managed,
      (hadopt.ent e he).inactive, (hadopt.ent e he).unowned⟩, hadopt.gone⟩
  | packed failed writeError allComplete =>
    have hdead : failed = true → e.status ≠ .dead := by
      rintro rfl
      exact hpack writeError allComplete rfl
    obtain ⟨c₁, e₁, hp, hkept, hent₁, howned, htxns⟩ :=
      modulePack_kept writeError hadopt rfl rfl hdead
    have hmem₁ : txn ∈ e₁.txns := by rw [htxns]; exact hmem
    simp only [hp]
    exact txnLogAndDestroy_kept hkept hent₁ howned hmem₁ allComplete
  | destroyed allComplete => exact txnLogAndDestroy_kept hadopt rfl rfl hmem allComplete

/-! ### The runs -/

/-- **The step lemma.** A disposable step does not abort and keeps the ledger. -/
theorem exec_kept {c : Client} {a : ClientAction} (h : c.Kept) (he : c.enabled a)
    (hd : c.Disposable a) : ∃ c', c.exec a = .ok c' ∧ c'.Kept := by
  cases a with
  | read arrived consumed =>
    obtain ⟨-, hud, -⟩ := he
    cases hent : c.ent with
    | none => exact absurd hud (by simp [hent])
    | some e => exact readCb_kept h hent fun ho bytes => hd e bytes hent ho
  | error =>
    -- the error of the connection ends an entity that is owned
    obtain ⟨-, -, ho⟩ := he
    cases hent : c.ent with
    | none => exact absurd ho (by simp [hent])
    | some e =>
      have howned : e.owned = true := by simpa [hent] using ho
      obtain ⟨c', hs, hkept, -⟩ := safeDestroy_kept h hent howned
      exact ⟨c', hs, hkept⟩
  | resume txn =>
    exact ⟨_, rfl, h.once, fun e he => ⟨(h.ent e he).counted, (h.ent e he).managed,
      (h.ent e he).inactive, (h.ent e he).unowned⟩, h.gone⟩
  -- the transaction is in the entity, as the condition says
  | workflowRun i outcome =>
    obtain ⟨e, txn, hent, hi, hmem, hpack⟩ := hd
    have hrest : ({ c with runs := c.runs.eraseIdx i } : Client).Kept :=
      ⟨h.once, fun e he => ⟨(h.ent e he).counted, (h.ent e he).managed, (h.ent e he).inactive,
        (h.ent e he).unowned⟩, h.gone⟩
    simp only [exec, hi]
    exact workflowRun_kept hrest hent hmem hpack
  -- what is cleaned is dead and has no transaction
  | cleanDead =>
    refine cleanDead_kept h fun e hent hdead hfree => hd e hent hdead ?_
    simpa using hfree
  | shutdown => exact mgrDestroy_kept h hd

/-- An accepted client. -/
theorem init_kept {c : Client} (h : machine.init c) : c.Kept := by
  obtain ⟨owned, concurrent, destroyNotxn, rfl⟩ := h
  refine kept_of_ent rfl (.refl _) ⟨⟨rfl, fun _ => Nat.zero_le 1⟩, rfl, rfl, fun _ => rfl⟩

/-- **Once.** In a run whose steps are all disposable, every state has the ledger, and no
    disposable step from it aborts. -/
theorem destroys_once {c : Client} (h : machine.Reach Disposable c) :
    c.Ledgered ∧ ∀ a, c.enabled a → c.Disposable a → ∃ c', c.exec a = .ok c' := by
  have hkept : c.Kept := by
    refine h.invariant (I := Kept) (fun _ hc => init_kept hc) fun c a c' hc he hd hx => ?_
    obtain ⟨c₁, hok, hkept⟩ := exec_kept hc he hd
    exact Except.ok.inj (hok.symm.trans hx) ▸ hkept
  refine ⟨hkept.ledgered, fun a he hd => ?_⟩
  obtain ⟨c', hok, -⟩ := exec_kept hkept he hd
  exact ⟨c', hok⟩

/-- The connection after a list of actions. -/
def after (as : List ClientAction) : Client :=
  (machine.play (accepted true false false) as).getD (accepted true false false)

/-- A connection with one request, of which the transaction still runs when the peer goes. -/
theorem closedRunning_once : (after [.read (some [1]) 1, .error]).Ledgered := by
  have hinit : machine.Reach Disposable (accepted true false false) :=
    .init ⟨true, false, false, rfl⟩
  have hread : machine.Reach Disposable (after [.read (some [1]) 1]) := by
    refine .step hinit (a := .read (some [1]) 1) (by decide) (fun e bytes hent ho => ?_)
      (by decide +kernel)
    rw [← Option.some.inj hent] at ho
    exact absurd ho (by decide)
  have herror : machine.Reach Disposable (after [.read (some [1]) 1, .error]) :=
    .step hread (a := .error) (by decide +kernel) trivial (by decide +kernel)
  exact (destroys_once herror).1

/-! A connection that is closed while its second request waits, and one that is closed in the
middle of a request. -/

/-- The second request waits, the peer disconnects, and the first transaction finishes. -/
def closedWaiting : List ClientAction :=
  [.read (some [1]) 1, .read (some [2]) 1, .error, .workflowRun 0 (.packed false false true)]

/-- The peer disconnects in the middle of a request, and the entity is freed. -/
def closedHalf : List ClientAction := [.read (some [1]) 0, .error, .cleanDead]

theorem after_reach {as : List ClientAction}
    (h : (machine.play (accepted true false false) as).isSome = true) :
    machine.Reach Machine.anyStep (after as) := by
  obtain ⟨c, hc⟩ := Option.isSome_iff_exists.mp h
  have hafter : after as = c := by rw [after, hc, Option.getD_some]
  rw [hafter]
  exact Machine.play_reach (.init ⟨true, false, false, rfl⟩) hc

/-- The waiting transaction is destroyed without being registered: the code aborts.  The half
    transaction is never destroyed. -/
theorem closed_not_once :
    (machine.Reach Machine.anyStep (after closedWaiting) ∧
      (after closedWaiting).enabled .cleanDead ∧
      (after closedWaiting).exec .cleanDead = .error .txnDel) ∧
    machine.Reach Machine.anyStep (after closedHalf) ∧ ¬ (after closedHalf).Ledgered := by
  refine ⟨⟨after_reach (by decide +kernel), by decide +kernel, by decide +kernel⟩,
    after_reach (by decide +kernel), fun h => ?_⟩
  have hlen := h.once.length_eq
  exact absurd hlen (by decide +kernel)

end Client

end Skull
