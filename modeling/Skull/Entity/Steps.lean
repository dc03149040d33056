import Skull.Entity.Client

namespace Skull

open Machines

/-!
# What the entity operations do

Each operation of `Client` said once, for an entity whose task counter counts its registered
transactions:

* `Client.mgrDel_eq`, `Client.entityFree_eq`, `Client.entityFree_stranded` — destruction, and
  where it aborts;
* `Client.driverDeliver_spec` — a delivery of one transaction;
* `Client.Fades` — what every way to destruction leaves of an entity.
-/

/-- The task counter counts the registered transactions, of which an entity without
    concurrency has at most one. -/
structure Entity.Counted (e : Entity) : Prop where
  taskCnt : e.taskCnt = e.txns.length
  single : e.concurrent = false → e.txns.length ≤ 1

/-- A counted entity without concurrency is idle when it has no registered transaction. -/
theorem Entity.Counted.idle_iff {e : Entity} (h : e.Counted) :
    e.idle = true ↔ e.concurrent = true ∨ e.txns = [] := by
  unfold Entity.idle
  rw [h.taskCnt]
  cases e.concurrent <;> simp

namespace Client

variable {c c' : Client} {e : Entity}

/-! ### Destruction -/

/-- Destroying a registered transaction removes it from the table. -/
theorem txnDestroy_eq (hent : c.ent = some e) (he : e.Counted) {txn : TxnId}
    (htxn : txn ∈ e.txns) :
    c.txnDestroy txn = .ok { c with
      ent := some { e with txns := e.txns.erase txn, taskCnt := e.taskCnt - 1 }
      destroyed := c.destroyed ++ [txn] } := by
  have hpos : 0 < e.txns.length := List.length_pos_of_mem htxn
  have hcnt : 1 ≤ e.taskCnt := by
    rw [he.taskCnt]
    omega
  simp [txnDestroy, hent, Entity.txndel, htxn, hcnt, Except.map]

/-- A transaction that leaves is not counted any more. -/
theorem counted_erase (he : e.Counted) {txn : TxnId} (htxn : txn ∈ e.txns) :
    Entity.Counted { e with txns := e.txns.erase txn, taskCnt := e.taskCnt - 1 } := by
  have hlen : (e.txns.erase txn).length = e.txns.length - 1 := List.length_erase_of_mem htxn
  have hpos : 0 < e.txns.length := List.length_pos_of_mem htxn
  refine ⟨?_, fun hconc => ?_⟩
  · simp only [hlen, he.taskCnt]
    omega
  · have := he.single hconc
    simp only [hlen]
    omega

/-- Destroying all registered transactions empties the table. -/
theorem txnDestroyAll_txns (txns : List TxnId) : ∀ {c : Client} {e : Entity},
    c.ent = some e → e.Counted → e.txns = txns →
    txnDestroyAll txns c = .ok { c with
      ent := some { e with txns := [], taskCnt := 0 }
      destroyed := c.destroyed ++ txns } := by
  induction txns with
  | nil =>
    intro c e hent he htxns
    have hcnt : e.taskCnt = 0 := by rw [he.taskCnt, htxns]; rfl
    have heq : ({ e with txns := [], taskCnt := 0 } : Entity) = e := by rw [← htxns, ← hcnt]
    rw [heq, ← hent, List.append_nil]
    rfl
  | cons txn txns ih =>
    intro c e hent he htxns
    have hmem : txn ∈ e.txns := by simp [htxns]
    rw [txnDestroyAll, txnDestroy_eq hent he hmem]
    simp only
    rw [ih rfl (counted_erase he hmem) (by simp [htxns])]
    simp

/-- Freeing an entity with an empty input queue destroys its registered transactions. -/
theorem entityFree_eq (hent : c.ent = some e) (he : e.Counted) (hiq : e.iqueue = []) :
    c.entityFree e = .ok { c with ent := none, destroyed := c.destroyed ++ e.txns } := by
  simp [entityFree, txnDestroyAll_txns e.txns hent he rfl, hiq, txnDestroyAll, Except.map]

/-- A queued transaction is not in the table when `sk_entity_destroy` comes to it. -/
theorem entityFree_stranded (hent : c.ent = some e) (he : e.Counted) (hiq : e.iqueue ≠ []) :
    c.entityFree e = .error .txnDel := by
  cases hq : e.iqueue with
  | nil => exact absurd hq hiq
  | cons txn txns =>
    simp [entityFree, txnDestroyAll_txns e.txns hent he rfl, hq, txnDestroyAll, txnDestroy,
      Entity.txndel, Except.map]

/-- Removing an entity from its manager runs the first phase, unless it ran before. -/
theorem mgrDel_eq (hent : c.ent = some e) :
    c.mgrDel = .ok (if e.status = .dead then c else
      { c with ent := some { e with status := .dead, ud := false }, inactive := c.inactive + 1 }) := by
  by_cases hdead : e.status = .dead
  · simp [mgrDel, hent, hdead]
  · simp [mgrDel, hent, hdead, mark, entityDestroy, Except.map]

/-- A dead entity without a half and a queued transaction is freed. -/
theorem entityDestroy_dead (hent : c.ent = some e) (he : e.Counted) (hdead : e.status = .dead)
    (hiq : e.iqueue = []) :
    c.entityDestroy = .ok { c with ent := none, destroyed := c.destroyed ++ e.txns } := by
  rw [← entityFree_eq hent he hiq]
  simp [entityDestroy, hent, hdead]

/-- Nothing to clean. -/
theorem cleanDead_none {force : Bool} (hzero : c.inactive = 0) : c.cleanDead force = .ok c := by
  have hsame : ({ c with inactive := 0 } : Client) = c := by rw [← hzero]
  rw [cleanDead, hzero, cleanLoop, hsame]

/-- A dead entity with a running transaction waits for the next round. -/
theorem cleanDead_wait (hent : c.ent = some e) (hone : c.inactive = 1) (hcnt : e.taskCnt ≠ 0) :
    c.cleanDead false = .ok c := by
  have hsame : ({ c with inactive := 0 + 1 } : Client) = c := by rw [Nat.zero_add, ← hone]
  rw [cleanDead, hone, cleanLoop]
  simp only [hent, hcnt, ne_eq, not_false_eq_true, Bool.false_eq_true, and_self, if_true,
    cleanLoop]
  rw [← hent, hsame]

/-- A dead entity without a running transaction, or any at a shutdown, is freed. -/
theorem cleanDead_free {force : Bool} (hent : c.ent = some e) (he : e.Counted)
    (hdead : e.status = .dead) (hiq : e.iqueue = []) (hone : c.inactive = 1)
    (hmanaged : c.managed = true) (hgo : force = true ∨ e.taskCnt = 0) :
    c.cleanDead force = .ok { c with
      ent := none, managed := false, inactive := 0, destroyed := c.destroyed ++ e.txns } := by
  have hnot : ¬ (e.taskCnt ≠ 0 ∧ ¬ force = true) := by
    rcases hgo with hf | hcnt
    · simp [hf]
    · simp [hcnt]
  have hdestroy := entityDestroy_dead (c := { c with managed := false, inactive := 0 }) hent he
    hdead hiq
  rw [cleanDead, hone, cleanLoop]
  simp only [hent, hnot, if_false, hmanaged, not_true_eq_false]
  rw [← hent, hdestroy]
  rfl

/-- An owned entity is removed from its manager. -/
theorem safeDestroy_owned (hent : c.ent = some e) (howned : e.owned = true) :
    c.safeDestroy = c.mgrDel := by
  simp [safeDestroy, hent, howned]

/-! ### Reading -/

/-- The client whose half transaction has read `data`. -/
def withHalf (c : Client) (e : Entity) (data : List UInt8) : Client :=
  { c with
    created := (c.getOrCreateTxn e).2
    ent := some { e with halfTxn := some (c.getOrCreateTxn e).1, rbuf := data } }

/-- The client whose half transaction was completed by `data`, of which `consumed` bytes are
    taken from the buffer. -/
def withQueued (c : Client) (e : Entity) (data : List UInt8) (consumed : Int) : Client :=
  { c with
    created := (c.getOrCreateTxn e).2
    ent := some { e with
      halfTxn := none, iqueue := e.iqueue ++ [(c.getOrCreateTxn e).1]
      rbuf := data.drop consumed.toNat }
    inputs := c.inputs ++ [((c.getOrCreateTxn e).1, data)] }

/-- Unpacking data. -/
theorem driverUnpack_data (c : Client) {e : Entity} {bytes : List UInt8} (consumed : Int)
    (hdata : e.rbuf ++ bytes ≠ []) :
    consumed = 0 ∧
        c.driverUnpack e (some bytes) consumed = .ok (0, c.withHalf e (e.rbuf ++ bytes)) ∨
      consumed < 0 ∧ c.driverUnpack e (some bytes) consumed =
        (c.withHalf e (e.rbuf ++ bytes)).safeDestroy.map (Prod.mk (-1)) ∨
      0 < consumed ∧ c.driverUnpack e (some bytes) consumed =
        .ok (consumed, c.withQueued e (e.rbuf ++ bytes) consumed) := by
  have hlen : (e.rbuf ++ bytes).length ≠ 0 := fun h => hdata (List.length_eq_zero_iff.mp h)
  simp only [driverUnpack, hlen, if_false]
  rcases Int.lt_trichotomy consumed 0 with hneg | hzero | hpos
  · have hne : consumed ≠ 0 := by omega
    refine .inr (.inl ⟨hneg, ?_⟩)
    simp only [hne, hneg, if_true, if_false]
    rfl
  · exact .inl ⟨hzero, by simp only [hzero, if_true]; rfl⟩
  · have hne : consumed ≠ 0 := by omega
    have hnlt : ¬ consumed < 0 := by omega
    refine .inr (.inr ⟨hpos, ?_⟩)
    simp only [hne, hnlt, if_false]
    rfl

/-- **Unpacking.** Without data nothing happens.  With data there is a half transaction, which
    waits for more, is left to the entity that is destroyed, or is complete and queued. -/
theorem driverUnpack_spec (c : Client) (e : Entity) (arrived : Option (List UInt8))
    (consumed : Int) :
    c.driverUnpack e arrived consumed = .ok (0, c) ∨
      ∃ bytes, arrived = some bytes ∧ (e.rbuf ++ bytes) ≠ [] ∧
        (consumed = 0 ∧
            c.driverUnpack e arrived consumed = .ok (0, c.withHalf e (e.rbuf ++ bytes)) ∨
          consumed < 0 ∧ c.driverUnpack e arrived consumed =
            (c.withHalf e (e.rbuf ++ bytes)).safeDestroy.map (Prod.mk (-1)) ∨
          0 < consumed ∧ c.driverUnpack e arrived consumed =
            .ok (consumed, c.withQueued e (e.rbuf ++ bytes) consumed)) := by
  cases arrived with
  | none => exact .inl rfl
  | some bytes =>
    by_cases hlen : (e.rbuf ++ bytes).length = 0
    · exact .inl (by simp only [driverUnpack, hlen, if_true])
    · have hdata : e.rbuf ++ bytes ≠ [] := fun h => hlen (List.length_eq_zero_iff.mpr h)
      exact .inr ⟨bytes, rfl, hdata, driverUnpack_data c consumed hdata⟩

/-! ### Delivery -/

/-- **Delivery.** A delivery of one transaction takes the oldest queued one when the entity is
    idle, and does nothing otherwise. -/
theorem driverDeliver_spec (hent : c.ent = some e) (he : e.Counted) :
    (e.idle = false ∨ e.iqueue = []) ∧ c.driverDeliver 1 = .ok (0, c) ∨
      ∃ txn iqueue, e.idle = true ∧ e.iqueue = txn :: iqueue ∧
        c.driverDeliver 1 = .ok (1, { c with
          ent := some { e with
            iqueue, txns := e.txns ++ [txn], taskCnt := e.taskCnt + 1 }
          runs := c.runs ++ [txn]
          delivered := c.delivered ++ [txn] }) := by
  have hcnt : (if e.concurrent = true then (1 : Int).toNat else 1) = 1 := by split <;> rfl
  cases hidle : e.idle with
  | false => exact .inl ⟨.inl rfl, by simp [driverDeliver, hent, deliverLoop, hidle]⟩
  | true =>
    cases hiq : e.iqueue with
    | nil => exact .inl ⟨.inr rfl, by simp [driverDeliver, hent, deliverLoop, hidle, hiq]⟩
    | cons txn iqueue =>
      have hpos : e.taskCnt + 1 > 0 := by rw [he.taskCnt]; omega
      refine .inr ⟨txn, iqueue, rfl, rfl, ?_⟩
      simp [driverDeliver, hent, deliverLoop, hidle, hiq, Entity.txnadd, hpos, Except.map]

/-- One that is delivered is. -/
theorem counted_deliver (he : e.Counted) (hidle : e.idle = true) (txn : TxnId)
    (iqueue : List TxnId) :
    Entity.Counted { e with iqueue, txns := e.txns ++ [txn], taskCnt := e.taskCnt + 1 } := by
  refine ⟨by simp [he.taskCnt], fun hconc => ?_⟩
  rcases he.idle_iff.mp hidle with htrue | hnil
  · exact absurd (hconc.symm.trans htrue) (by simp)
  · simp [hnil]

/-! ### What destruction leaves -/

/-- `c'` is what destruction leaves of `c`: the events in flight and what was stored, and nothing
    of the entity or an entity with the same transactions and the same bytes. -/
structure Fades (c c' : Client) : Prop where
  runs : c'.runs = c.runs
  inputs : c'.inputs = c.inputs
  ent : ∀ e', c'.ent = some e' → ∃ e, c.ent = some e ∧ e'.txns = e.txns ∧
    e'.iqueue = e.iqueue ∧ e'.taskCnt = e.taskCnt ∧ e'.concurrent = e.concurrent ∧
    e'.owned = e.owned ∧ e'.rbuf = e.rbuf ∧ (e'.status = .active → e.status = .active)

theorem Fades.refl (c : Client) : c.Fades c :=
  ⟨rfl, rfl, fun e he => ⟨e, he, rfl, rfl, rfl, rfl, rfl, rfl, id⟩⟩

theorem Fades.trans {c₁ c₂ c₃ : Client} (h : c₁.Fades c₂) (h' : c₂.Fades c₃) : c₁.Fades c₃ := by
  refine ⟨h'.runs.trans h.runs, h'.inputs.trans h.inputs, fun e₃ he₃ => ?_⟩
  obtain ⟨e₂, he₂, ht, hq, hn, hc, ho, hb, hs⟩ := h'.ent e₃ he₃
  obtain ⟨e₁, he₁, ht', hq', hn', hc', ho', hb', hs'⟩ := h.ent e₂ he₂
  exact ⟨e₁, he₁, ht.trans ht', hq.trans hq', hn.trans hn', hc.trans hc', ho.trans ho',
    hb.trans hb', fun h => hs' (hs h)⟩

/-- Leaving the active status is fading. -/
theorem mark_fades (c : Client) {status : EntityStatus} (hs : status ≠ .active) :
    c.Fades (c.mark status) := by
  refine ⟨rfl, rfl, fun e' he' => ?_⟩
  obtain ⟨e, he, rfl⟩ := Option.map_eq_some_iff.mp he'
  exact ⟨e, he, rfl, rfl, rfl, rfl, rfl, rfl, fun h => absurd h hs⟩

/-- Destroying transactions sends nothing and stores nothing. -/
theorem txnDestroyAll_frame (txns : List TxnId) : ∀ {c c' : Client},
    txnDestroyAll txns c = .ok c' → c'.runs = c.runs ∧ c'.inputs = c.inputs := by
  induction txns with
  | nil => intro c c' h; rw [Except.ok.inj h]; exact ⟨rfl, rfl⟩
  | cons txn txns ih =>
    intro c c' h
    rw [txnDestroyAll] at h
    split at h
    · exact absurd h (by simp)
    · rename_i c₁ hdestroy
      have hframe : c₁.runs = c.runs ∧ c₁.inputs = c.inputs := by
        unfold txnDestroy at hdestroy
        split at hdestroy
        · exact absurd hdestroy (by simp)
        · obtain ⟨e, -, rfl⟩ := except_map_ok.mp hdestroy
          exact ⟨rfl, rfl⟩
      exact ⟨(ih h).1.trans hframe.1, (ih h).2.trans hframe.2⟩

/-- So is the destruction of the entity. -/
theorem entityDestroy_fades (h : c.entityDestroy = .ok c') : c.Fades c' := by
  unfold entityDestroy at h
  split at h
  · exact absurd h (by simp)
  · rename_i e hent
    split at h
    · exact absurd h (by simp)
    · rw [Except.ok.injEq] at h
      subst h
      exact ⟨rfl, rfl, fun e' he' => ⟨e, hent, by
        rw [← Option.some.inj he']; exact ⟨rfl, rfl, rfl, rfl, rfl, rfl, id⟩⟩⟩
    · -- the entity is freed
      unfold entityFree at h
      split at h
      · exact absurd h (by simp)
      · rename_i c₁ h₁
        obtain ⟨c₂, h₂, rfl⟩ := except_map_ok.mp h
        obtain ⟨hruns₁, hinputs₁⟩ := txnDestroyAll_frame _ h₁
        obtain ⟨hruns₂, hinputs₂⟩ := txnDestroyAll_frame _ h₂
        refine ⟨hruns₂.trans hruns₁, hinputs₂.trans hinputs₁, fun e' he' => ?_⟩
        exact absurd he' (by simp)

theorem mgrDel_fades (h : c.mgrDel = .ok c') : c.Fades c' := by
  unfold mgrDel at h
  split at h
  · exact absurd h (by simp)
  · split at h
    · rw [← Except.ok.inj h]
      exact Fades.refl c
    · obtain ⟨c₁, h₁, rfl⟩ := except_map_ok.mp h
      refine ((mark_fades c (by simp)).trans (entityDestroy_fades h₁)).trans ?_
      exact ⟨rfl, rfl, (mark_fades c₁ (by simp)).ent⟩

/-- So is `sk_entity_safe_destroy`. -/
theorem safeDestroy_fades (h : c.safeDestroy = .ok c') : c.Fades c' := by
  unfold safeDestroy at h
  split at h
  · exact absurd h (by simp)
  · split at h
    · exact mgrDel_fades h
    · split at h
      · exact absurd h (by simp)
      · rename_i c₁ h₁
        exact ((mark_fades c (by simp)).trans (entityDestroy_fades h₁)).trans
          ((mark_fades c₁ (by simp)).trans (entityDestroy_fades h))

/-- So is the loop over the dead ones. -/
theorem cleanLoop_fades {force : Bool} (turns : Nat) : ∀ {c c' : Client},
    cleanLoop force turns c = .ok c' → c.Fades c' := by
  induction turns with
  | zero => intro c c' h; rw [Except.ok.inj h]; exact Fades.refl _
  | succ turns ih =>
    intro c c' h
    rw [cleanLoop] at h
    split at h
    · exact absurd h (by simp)
    · split at h
      · exact ⟨(ih h).runs, (ih h).inputs, (ih h).ent⟩
      · split at h
        · exact absurd h (by simp)
        · split at h
          · exact absurd h (by simp)
          · rename_i c₁ h₁
            have hfree := entityDestroy_fades h₁
            exact Fades.trans ⟨hfree.runs, hfree.inputs, hfree.ent⟩ (ih h)

/-- So is `sk_entity_mgr_clean_dead`. -/
theorem cleanDead_fades {force : Bool} (h : c.cleanDead force = .ok c') : c.Fades c' := by
  have hloop := cleanLoop_fades _ h
  exact ⟨hloop.runs, hloop.inputs, hloop.ent⟩

/-- So is the end of the manager. -/
theorem mgrDestroy_fades (h : c.mgrDestroy = .ok c') : c.Fades c' := by
  unfold mgrDestroy at h
  simp only at h
  split at h
  · split at h
    · exact absurd h (by simp)
    · rename_i c₁ h₁
      have hdel := mgrDel_fades h₁
      exact Fades.trans ⟨hdel.runs, hdel.inputs, hdel.ent⟩ (cleanDead_fades h)
  · have hclean := cleanDead_fades h
    exact ⟨hclean.runs, hclean.inputs, hclean.ent⟩

/-- What fades is counted as before. -/
theorem Fades.counted (h : c.Fades c') (hc : ∀ e, c.ent = some e → e.Counted) :
    ∀ e, c'.ent = some e → e.Counted := by
  intro e' he'
  obtain ⟨e, he, ht, -, hn, hconc, -⟩ := h.ent e' he'
  exact ⟨by rw [hn, ht]; exact (hc e he).taskCnt,
    fun hf => by rw [ht]; exact (hc e he).single (hconc ▸ hf)⟩

/-- An owned entity outlives its removal from the manager. -/
theorem safeDestroy_alive (hent : c.ent = some e) (howned : e.owned = true)
    (h : c.safeDestroy = .ok c') : c'.ent.isSome = true := by
  rw [safeDestroy_owned hent howned, mgrDel_eq hent, Except.ok.injEq] at h
  subst h
  split
  · simp [hent]
  · rfl

/-! ### Packing and finishing -/

/-- Packing may destroy the entity, which then fades; an owned one stays. -/
theorem modulePack_fades {failed writeError : Bool} (hent : c.ent = some e)
    (howned : e.owned = true) (h : c.modulePack failed writeError = .ok c') :
    c.Fades c' ∧ c'.ent.isSome = true := by
  unfold modulePack at h
  set c₁ := if failed then c.mark .inactive else c with hc₁
  have hfade : c.Fades c₁ := by
    rw [hc₁]
    split
    · exact mark_fades c (by simp)
    · exact Fades.refl c
  have hsome : c₁.ent.isSome = true := by
    rw [hc₁]
    split <;> simp [mark, hent]
  simp only at h
  split at h
  · obtain ⟨e₁, he₁⟩ := Option.isSome_iff_exists.mp hsome
    obtain ⟨e₀, he₀, -, -, -, -, ho, -⟩ := hfade.ent e₁ he₁
    have howned₁ : e₁.owned = true := by
      rw [ho, ← Option.some.inj (hent.symm.trans he₀)]
      exact howned
    exact ⟨hfade.trans (safeDestroy_fades h), safeDestroy_alive he₁ howned₁ h⟩
  · rw [← Except.ok.inj h]
    exact ⟨hfade, hsome⟩

/-- `c₂` with its entity `e₂` is `c` with `e` after a transaction of it was destroyed, and
    possibly the next one delivered. -/
structure Finish (c : Client) (e : Entity) (c₂ : Client) (e₂ : Entity) : Prop where
  ent : c₂.ent = some e₂
  counted : e₂.Counted
  entity : e₂ = { e with txns := e₂.txns, taskCnt := e₂.taskCnt, iqueue := e₂.iqueue }
  client : c₂ = { c with
    ent := some e₂, runs := c₂.runs, delivered := c₂.delivered, destroyed := c₂.destroyed }
  live : (c.destroyed ++ e.live).Perm (c₂.destroyed ++ e₂.live)
  /-- Without concurrency nothing is delivered: the transaction is still registered when the
      delivery is tried. -/
  single : e.concurrent = false → c₂.runs = c.runs ∧ e₂.iqueue = e.iqueue ∧ e₂.taskCnt = 0

/-- Erasing a registered transaction moves it to the destroyed ones. -/
theorem live_erase {destroyed : List TxnId} {txn : TxnId} (htxn : txn ∈ e.txns) :
    (destroyed ++ e.live).Perm (destroyed ++ [txn] ++
      Entity.live { e with txns := e.txns.erase txn, taskCnt := e.taskCnt - 1 }) := by
  rw [List.append_assoc]
  refine List.Perm.append_left _ ?_
  have hperm := (List.perm_cons_erase htxn).append_right e.iqueue
  simp only [Entity.live, List.singleton_append, List.append_assoc]
  exact (hperm.append_left _).trans List.perm_middle

/-- Finishing a transaction, after the delivery. -/
theorem txnLogAndDestroy_eq {n : Nat} {c₁ : Client} {e₁ : Entity} {txn : TxnId}
    (hdel : c.driverDeliver 1 = .ok (n, c₁)) (hent : c₁.ent = some e₁) (he : e₁.Counted)
    (htxn : txn ∈ e₁.txns) :
    c.txnLogAndDestroy txn true =
      if (e₁.status ≠ .active ∨ e₁.destroyNotxn) ∧ e₁.taskCnt - 1 = 0 then
        safeDestroy { c₁ with
          ent := some { e₁ with txns := e₁.txns.erase txn, taskCnt := e₁.taskCnt - 1 }
          destroyed := c₁.destroyed ++ [txn] }
      else .ok { c₁ with
        ent := some { e₁ with txns := e₁.txns.erase txn, taskCnt := e₁.taskCnt - 1 }
        destroyed := c₁.destroyed ++ [txn] } := by
  simp [txnLogAndDestroy, hdel, txnDestroy_eq hent he htxn]

/-- **Finishing a transaction.** The next one is delivered if the entity is idle, the
    transaction is destroyed, and the entity with it when it has no other and shall go. -/
theorem txnLogAndDestroy_spec {txn : TxnId} (hent : c.ent = some e) (he : e.Counted)
    (htxn : txn ∈ e.txns) :
    ∃ c₂ e₂, Finish c e c₂ e₂ ∧ c.txnLogAndDestroy txn true =
      if (e₂.status ≠ .active ∨ e₂.destroyNotxn) ∧ e₂.taskCnt = 0 then c₂.safeDestroy
      else .ok c₂ := by
  -- no transaction waits, or the entity is not idle
  rcases driverDeliver_spec hent he with ⟨hnot, hdel⟩ | ⟨y, iqueue, hidle, hiq, hdel⟩
  · set e₂ : Entity := { e with txns := e.txns.erase txn, taskCnt := e.taskCnt - 1 }
    refine ⟨{ c with ent := some e₂, destroyed := c.destroyed ++ [txn] }, e₂,
      ⟨rfl, counted_erase he htxn, rfl, rfl, live_erase htxn, fun hconc => ?_⟩, ?_⟩
    · -- one transaction at a time: it was the last
      have hone := he.single hconc
      have hpos : 0 < e.txns.length := List.length_pos_of_mem htxn
      refine ⟨rfl, rfl, ?_⟩
      change e.taskCnt - 1 = 0
      rw [he.taskCnt]
      omega
    · exact txnLogAndDestroy_eq hdel hent he htxn
  · -- the one that waits is delivered before the old one leaves
    have he₁ := counted_deliver he hidle y iqueue
    have hmem : txn ∈ e.txns ++ [y] := List.mem_append_left _ htxn
    set e₁ : Entity := { e with iqueue, txns := e.txns ++ [y], taskCnt := e.taskCnt + 1 }
    set e₂ : Entity := { e₁ with txns := e₁.txns.erase txn, taskCnt := e₁.taskCnt - 1 }
    refine ⟨{ c with
        ent := some e₂, runs := c.runs ++ [y], delivered := c.delivered ++ [y]
        destroyed := c.destroyed ++ [txn] }, e₂,
      ⟨rfl, counted_erase he₁ hmem, rfl, rfl, ?_, fun hconc => ?_⟩, ?_⟩
    · have hlive : e.live = e₁.live := by simp [Entity.live, hiq, e₁]
      rw [hlive]
      exact live_erase hmem
    · -- that is a concurrent entity: the other kind is not idle as long as the old one is there
      rcases he.idle_iff.mp hidle with htrue | hnil
      · exact absurd (hconc.symm.trans htrue) (by simp)
      · rw [hnil] at htxn
        exact absurd htxn (by simp)
    · exact txnLogAndDestroy_eq hdel rfl he₁ hmem

end Client

end Skull
