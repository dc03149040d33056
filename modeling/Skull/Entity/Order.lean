import Skull.Entity.Pipelining
import Mathlib.Data.List.Sort

namespace Skull

open Machines

/-!
# The requests of a client in order

Requests are numbered, wait in line, and are delivered in that order.  Without concurrency the
next one is delivered when the transaction of the last one was destroyed.

* `Client.requests` — the requests that are complete;
* `Client.Advances` — what a step of a client adds to its lists;
* `Client.Ordered` — what holds of these lists;
* `Client.Prompt`, `Client.exec_prompt` — with concurrency no request waits;
* `Client.exec_read`, `Client.exec_run`, `Client.exec_resume`, `Client.exec_quits` — each step keeps
  it, and what it adds.
-/

namespace Client

variable {c c' c'' : Client} {e : Entity}

/-- The requests that are complete. -/
def requests (c : Client) : List TxnId := c.inputs.map Prod.fst

/-- `c'` comes after `c`: the requests of `inputs` are complete, those of `taken` were delivered,
    and the transactions of `gone` destroyed; without the deliveries the events were `runs`. -/
structure Advances (c c' : Client) (inputs : List (TxnId × List UInt8))
    (taken gone runs : List TxnId) : Prop where
  inputs : c'.inputs = c.inputs ++ inputs
  delivered : c'.delivered = c.delivered ++ taken
  destroyed : c'.destroyed = c.destroyed ++ gone
  runs : c'.runs = runs ++ taken
  down : c'.down = c.down

theorem Advances.trans {inputs inputs' : List (TxnId × List UInt8)}
    {taken taken' gone gone' runs : List TxnId} (h : c.Advances c' inputs taken gone runs)
    (h' : c'.Advances c'' inputs' taken' gone' c'.runs) :
    c.Advances c'' (inputs ++ inputs') (taken ++ taken') (gone ++ gone') runs := by
  constructor
  · rw [h'.inputs, h.inputs, List.append_assoc]
  · rw [h'.delivered, h.delivered, List.append_assoc]
  · rw [h'.destroyed, h.destroyed, List.append_assoc]
  · rw [h'.runs, h.runs, List.append_assoc]
  · rw [h'.down, h.down]

/-- What is known of the requests of an entity. -/
structure Lined (c : Client) (e : Entity) : Prop where
  counted : e.Counted
  queued : c.requests = c.delivered ++ e.iqueue
  held : c.delivered.Perm (c.destroyed ++ e.txns)
  serial : e.concurrent = false → c.delivered = c.destroyed ++ e.txns
  half : ∀ t, e.halfTxn = some t → t < c.created ∧ ∀ r ∈ c.requests, r < t

/-- The requests are in line: the delivered ones first, then those that wait.  A delivered one is
    destroyed or held by the entity. -/
structure Ordered (concurrent : Bool) (c : Client) : Prop where
  rising : c.requests.Pairwise (· < ·)
  below : ∀ t ∈ c.requests, t < c.created
  ent : ∀ e, c.ent = some e → c.Lined e ∧ e.concurrent = concurrent
  gone : c.ent = none → c.requests = c.delivered ∧ c.delivered.Perm c.destroyed ∧
    (concurrent = false → c.delivered = c.destroyed)

variable {concurrent : Bool}

/-- What was delivered is the first of what was read. -/
theorem Ordered.delivered_requests (h : c.Ordered concurrent) : c.delivered <+: c.requests := by
  cases hent : c.ent with
  | none => exact (h.gone hent).1 ▸ List.prefix_refl _
  | some e => exact ⟨e.iqueue, ((h.ent e hent).1.queued).symm⟩

/-- No request is delivered twice. -/
theorem Ordered.nodup (h : c.Ordered concurrent) : c.delivered.Nodup :=
  ((h.rising.imp fun h => Nat.ne_of_lt h).sublist h.delivered_requests.sublist)

/-- A request that the entity holds was delivered, and not destroyed. -/
theorem Ordered.mem_txns (h : c.Ordered concurrent) (hent : c.ent = some e) {t : TxnId} :
    t ∈ e.txns ↔ t ∈ c.delivered ∧ t ∉ c.destroyed := by
  have hperm := (h.ent e hent).1.held
  have hnodup := (hperm.nodup_iff.mp h.nodup)
  rw [hperm.mem_iff, List.mem_append]
  constructor
  · intro ht
    exact ⟨.inr ht, fun hd => (List.nodup_append.mp hnodup).2.2 t hd t ht rfl⟩
  · rintro ⟨hd | ht, hnot⟩
    · exact absurd hd hnot
    · exact ht

/-- A delivered request whose transaction was not destroyed has its entity, which holds it. -/
theorem Ordered.held (h : c.Ordered concurrent) {t : TxnId} (hd : t ∈ c.delivered)
    (hnot : t ∉ c.destroyed) : ∃ e, c.ent = some e ∧ t ∈ e.txns := by
  cases hent : c.ent with
  | none => exact absurd ((h.gone hent).2.1.mem_iff.mp hd) hnot
  | some e => exact ⟨e, rfl, (h.mem_txns hent).mpr ⟨hd, hnot⟩⟩

/-- An accepted client has no requests. -/
theorem accepted_ordered (owned concurrent destroyNotxn : Bool) :
    (accepted owned concurrent destroyNotxn).Ordered concurrent := by
  refine ⟨.nil, fun t ht => absurd ht (by simp [requests, accepted]), fun e he => ?_, fun hn => ?_⟩
  · rw [← Option.some.inj he]
    exact ⟨⟨⟨rfl, fun _ => Nat.zero_le 1⟩, rfl, .refl _, fun _ => rfl, by simp⟩, rfl⟩
  · exact absurd hn (by simp [accepted])

/-- To check a state with an entity, the entity is enough. -/
theorem ordered_of_ent (hent : c.ent = some e) (hrising : c.requests.Pairwise (· < ·))
    (hbelow : ∀ t ∈ c.requests, t < c.created) (hl : c.Lined e)
    (hconc : e.concurrent = concurrent) : c.Ordered concurrent := by
  refine ⟨hrising, hbelow, fun e' he' => ?_, fun hnone => ?_⟩
  · rw [← Option.some.inj (hent.symm.trans he')]
    exact ⟨hl, hconc⟩
  · exact absurd (hent.symm.trans hnone) (by simp)

/-- The events in flight do not matter. -/
theorem Ordered.withRuns (h : c.Ordered concurrent) (runs : List TxnId) :
    Ordered concurrent { c with runs } := by
  refine ⟨h.rising, h.below, fun e he => ?_, h.gone⟩
  obtain ⟨hl, hconc⟩ := h.ent e he
  exact ⟨⟨hl.counted, hl.queued, hl.held, hl.serial, hl.half⟩, hconc⟩

/-! ### Destruction -/

/-- `c'` is `c` after a part of its destruction: what is left of the entity has the same
    transactions, and when nothing is left it had none. -/
structure Quits (c c' : Client) : Prop where
  same : c' = { c with ent := c'.ent, managed := c'.managed, inactive := c'.inactive }
  ent : ∀ e', c'.ent = some e' → ∃ e, c.ent = some e ∧
    e' = { e with owned := e'.owned, status := e'.status, ud := e'.ud }
  gone : c'.ent = none → ∀ e, c.ent = some e → e.txns = [] ∧ e.iqueue = []

theorem Quits.refl (c : Client) : c.Quits c :=
  ⟨rfl, fun e he => ⟨e, he, rfl⟩, fun hn e he => absurd (hn.symm.trans he) (by simp)⟩

theorem Quits.trans (h : c.Quits c') (h' : c'.Quits c'') : c.Quits c'' := by
  refine ⟨?_, fun e'' he'' => ?_, fun hn e he => ?_⟩
  · rw [h'.same, h.same]
  · obtain ⟨e', he', heq'⟩ := h'.ent e'' he''
    obtain ⟨e, he, heq⟩ := h.ent e' he'
    exact ⟨e, he, by rw [heq', heq]⟩
  · cases hent : c'.ent with
    | none => exact h.gone hent e he
    | some e' =>
      obtain ⟨e₀, he₀, heq⟩ := h.ent e' hent
      obtain rfl := Option.some.inj (he.symm.trans he₀)
      have hlast := h'.gone hn e' hent
      rw [heq] at hlast
      exact hlast

/-- A step that quits reads and delivers nothing. -/
theorem Quits.advances (h : c.Quits c') : c.Advances c' [] [] [] c.runs := by
  constructor <;> rw [h.same] <;> simp

/-- Destruction keeps the order. -/
theorem Quits.ordered (h : c.Quits c') (hc : c.Ordered concurrent) : c'.Ordered concurrent := by
  -- only the entity itself changes
  have hreq : c'.requests = c.requests := by rw [h.same]; rfl
  have hdel : c'.delivered = c.delivered := by rw [h.same]
  have hdes : c'.destroyed = c.destroyed := by rw [h.same]
  have hcre : c'.created = c.created := by rw [h.same]
  -- the numbers of the requests rise as before
  refine ⟨hreq ▸ hc.rising, fun t ht => ?_, fun e' he' => ?_, fun hn => ?_⟩
  · rw [hcre]
    exact hc.below t (hreq ▸ ht)
  · obtain ⟨e, he, heq⟩ := h.ent e' he'
    obtain ⟨hl, hconc⟩ := hc.ent e he
    rw [heq]
    refine ⟨⟨⟨hl.counted.taskCnt, hl.counted.single⟩, ?_, ?_, fun hf => ?_, fun t ht => ?_⟩, hconc⟩
    · rw [hreq, hdel]
      exact hl.queued
    · rw [hdel, hdes]
      exact hl.held
    · rw [hdel, hdes]
      exact hl.serial hf
    · rw [hcre, hreq]
      exact hl.half t ht
  · rw [hreq, hdel, hdes]
    -- the entity is gone: what it had is gone with it
    cases hent : c.ent with
    | none => exact hc.gone hent
    | some e =>
      obtain ⟨htxns, hiq⟩ := h.gone hn e hent
      obtain ⟨hl, hconc⟩ := hc.ent e hent
      refine ⟨by simpa [hiq] using hl.queued, by simpa [htxns] using hl.held, fun hf => ?_⟩
      simpa [htxns] using hl.serial (hconc.trans hf)

/-- An entity without transactions is freed, when none waits. -/
theorem entityFree_quits (hent : c.ent = some e) (htxns : e.txns = [])
    (h : c.entityFree e = .ok c') : c.Quits c' := by
  cases hiq : e.iqueue with
  | nil =>
    simp only [entityFree, htxns, hiq, txnDestroyAll, Except.map, Except.ok.injEq] at h
    subst h
    refine ⟨rfl, fun e' he' => absurd he' (by simp), fun _ e' he' => ?_⟩
    rw [← Option.some.inj (hent.symm.trans he')]
    exact ⟨htxns, hiq⟩
  | cons t ts =>
    simp [entityFree, htxns, hiq, txnDestroyAll, txnDestroy, hent, Entity.txndel, Except.map] at h

/-- The destruction of an entity. -/
theorem entityDestroy_quits (hc : ∀ e, c.ent = some e → e.txns = [] ∨ e.status ≠ .dead)
    (h : c.entityDestroy = .ok c') : c.Quits c' := by
  unfold entityDestroy at h
  cases hent : c.ent with
  | none => simp [hent] at h
  | some e =>
    simp only [hent] at h
    cases hst : e.status with
    | active => simp [hst] at h
    | inactive =>
      simp only [hst, Except.ok.injEq] at h
      subst h
      refine ⟨rfl, fun e' he' => ⟨e, hent, ?_⟩, fun hn => absurd hn (by simp)⟩
      rw [← Option.some.inj he']
    | dead =>
      simp only [hst] at h
      rcases hc e hent with htxns | hne
      · exact entityFree_quits hent htxns h
      · exact absurd hst hne

/-- A change of status. -/
theorem mark_quits (c : Client) (status : EntityStatus) : c.Quits (c.mark status) := by
  refine ⟨rfl, fun e' he' => ?_, fun hn e he => ?_⟩
  · obtain ⟨e, he, rfl⟩ := Option.map_eq_some_iff.mp he'
    exact ⟨e, he, rfl⟩
  · exact absurd hn (by simp [mark, he])

/-- The manager takes the entity. -/
theorem adopt_quits (hent : c.ent = some e) : c.Quits (c.adopt e) := by
  refine ⟨rfl, fun e' he' => ⟨e, hent, ?_⟩, fun hn => absurd hn (by simp [adopt])⟩
  rw [← Option.some.inj he']

/-- The manager lets it go. -/
theorem mgrDel_quits (h : c.mgrDel = .ok c') : c.Quits c' := by
  cases hent : c.ent with
  | none => simp [mgrDel, hent] at h
  | some e =>
    rw [mgrDel_eq hent, Except.ok.injEq] at h
    subst h
    split
    · exact .refl c
    · refine ⟨rfl, fun e' he' => ⟨e, hent, ?_⟩, fun hn => absurd hn (by simp)⟩
      rw [← Option.some.inj he']

/-- An entity that has no owner goes at once; it has no transactions then. -/
theorem safeDestroy_quits (hc : ∀ e, c.ent = some e → e.owned = true ∨ e.txns = [])
    (h : c.safeDestroy = .ok c') : c.Quits c' := by
  unfold safeDestroy at h
  cases hent : c.ent with
  | none => simp [hent] at h
  | some e =>
    simp only [hent] at h
    split at h
    · exact mgrDel_quits h
    · rename_i howned
      have htxns : e.txns = [] := (hc e hent).resolve_left howned
      have hmark : ∀ {c₁ : Client}, c.Quits c₁ → ∀ e₁, c₁.ent = some e₁ → e₁.txns = [] := by
        intro c₁ hq e₁ he₁
        obtain ⟨e₀, he₀, heq⟩ := hq.ent e₁ he₁
        rw [← Option.some.inj (hent.symm.trans he₀)] at heq
        rw [heq]
        exact htxns
      cases h₁ : (c.mark .inactive).entityDestroy with
      | error f => simp [h₁] at h
      | ok c₁ =>
        simp only [h₁] at h
        have hq := mark_quits c .inactive
        have hq₁ := hq.trans (entityDestroy_quits (fun e₁ he₁ => .inl (hmark hq e₁ he₁)) h₁)
        have hq₂ := hq₁.trans (mark_quits c₁ .dead)
        exact hq₂.trans (entityDestroy_quits (fun e₂ he₂ => .inl (hmark hq₂ e₂ he₂)) h)

/-- The manager frees an entity that has no transactions. -/
theorem cleanLoop_quits (turns : Nat) : ∀ {c c' : Client},
    (∀ e, c.ent = some e → e.Counted) → cleanLoop false turns c = .ok c' → c.Quits c' := by
  induction turns with
  | zero =>
    intro c c' _ h
    rw [← Except.ok.inj h]
    exact .refl c
  | succ turns ih =>
    intro c c' hc h
    rw [cleanLoop] at h
    split at h
    · exact absurd h (by simp)
    · rename_i e hent
      split at h
      · -- the entity has tasks, and waits in the queue of the inactive ones
        have hwait : c.Quits { c with inactive := c.inactive + 1 } :=
          ⟨rfl, fun e he => ⟨e, he, rfl⟩, fun hn e he => absurd (hn.symm.trans he) (by simp)⟩
        exact hwait.trans (ih hc h)
      · rename_i hgo
        split at h
        · exact absurd h (by simp)
        · split at h
          · exact absurd h (by simp)
          · rename_i c₁ h₁
            -- it has no tasks, so no transaction is quit
            have htxns : e.txns = [] := by
              have hcnt : e.taskCnt = 0 := by simpa using hgo
              rw [(hc e hent).taskCnt] at hcnt
              exact List.length_eq_zero_iff.mp (by omega)
            have hleft : c.Quits { c with managed := false } :=
              -- it leaves the manager, and is destroyed
              ⟨rfl, fun e he => ⟨e, he, rfl⟩, fun hn e he => absurd (hn.symm.trans he) (by simp)⟩
            have hq : c.Quits c₁ := hleft.trans (entityDestroy_quits (fun e' he' => .inl (by
              rw [← Option.some.inj (hent.symm.trans he')]; exact htxns)) h₁)
            refine hq.trans (ih (fun e₁ he₁ => ?_) h)
            obtain ⟨e₀, he₀, heq⟩ := hq.ent e₁ he₁
            rw [heq]
            exact ⟨(hc e₀ he₀).taskCnt, (hc e₀ he₀).single⟩

/-- `sk_entity_mgr_clean_dead`. -/
theorem cleanDead_quits (hc : ∀ e, c.ent = some e → e.Counted) (h : c.cleanDead false = .ok c') :
    c.Quits c' := by
  have hzero : c.Quits { c with inactive := 0 } :=
    ⟨rfl, fun e he => ⟨e, he, rfl⟩, fun hn e he => absurd (hn.symm.trans he) (by simp)⟩
  exact hzero.trans (cleanLoop_quits _ hc h)

/-! ### Reading -/

/-- The half transaction has the highest number. -/
theorem Ordered.half (h : c.Ordered concurrent) (hent : c.ent = some e) :
    c.created ≤ (c.getOrCreateTxn e).2 ∧ (c.getOrCreateTxn e).1 < (c.getOrCreateTxn e).2 ∧
      ∀ r ∈ c.requests, r < (c.getOrCreateTxn e).1 := by
  unfold getOrCreateTxn
  cases hhalf : e.halfTxn with
  | some t =>
    obtain ⟨hlt, hall⟩ := (h.ent e hent).1.half t hhalf
    exact ⟨le_refl _, hlt, hall⟩
  | none => exact ⟨Nat.le_succ _, Nat.lt_succ_self _, h.below⟩

/-- A request that is half read is the last one. -/
theorem withHalf_ordered (h : c.Ordered concurrent) (hent : c.ent = some e) (data : List UInt8) :
    (c.withHalf e data).Ordered concurrent := by
  obtain ⟨hle, hlt, hall⟩ := h.half hent
  obtain ⟨hl, hconc⟩ := h.ent e hent
  refine ordered_of_ent rfl h.rising (fun t ht => lt_of_lt_of_le (h.below t ht) hle)
    ⟨⟨hl.counted.taskCnt, hl.counted.single⟩, hl.queued, hl.held, hl.serial, fun t ht => ?_⟩ hconc
  obtain rfl := Option.some.inj ht
  exact ⟨hlt, hall⟩

/-- A request that was read is the last one in the queue. -/
theorem withQueued_ordered (h : c.Ordered concurrent) (hent : c.ent = some e)
    (data : List UInt8) (consumed : Int) : (c.withQueued e data consumed).Ordered concurrent := by
  obtain ⟨hle, hlt, hall⟩ := h.half hent
  obtain ⟨hl, hconc⟩ := h.ent e hent
  have hreq : (c.withQueued e data consumed).requests =
      c.requests ++ [(c.getOrCreateTxn e).1] := by simp [requests, withQueued]
  refine ordered_of_ent rfl ?_ (fun t ht => ?_) ⟨⟨hl.counted.taskCnt, hl.counted.single⟩, ?_,
    hl.held, hl.serial, fun t ht => absurd ht (by simp)⟩ hconc
  · rw [hreq, List.pairwise_append]
    refine ⟨h.rising, List.pairwise_singleton _ _, fun r hr t ht => ?_⟩
    rw [List.mem_singleton.mp ht]
    exact hall r hr
  · rw [hreq, List.mem_append, List.mem_singleton] at ht
    rcases ht with ht | rfl
    · exact lt_of_lt_of_le (h.below t ht) hle
    · exact hlt
  · rw [hreq, hl.queued, List.append_assoc]
    rfl

/-! ### Delivery -/

/-- **Delivery** takes the first request that waits. -/
theorem driverDeliver_ordered (h : c.Ordered concurrent) (hent : c.ent = some e) {n : Nat}
    (hx : c.driverDeliver 1 = .ok (n, c')) : c'.Ordered concurrent ∧
      ∃ taken e', c.Advances c' [] taken [] c.runs ∧ c'.ent = some e' ∧
        e' = { e with iqueue := e'.iqueue, txns := e.txns ++ taken, taskCnt := e'.taskCnt } := by
  obtain ⟨hl, hconc⟩ := h.ent e hent
  rcases driverDeliver_spec hent hl.counted with ⟨-, hdel⟩ | ⟨txn, iqueue, hidle, hiq, hdel⟩ <;>
    obtain ⟨rfl, rfl⟩ := Prod.mk.inj (Except.ok.inj (hx.symm.trans hdel))
  · exact ⟨h, [], e, (Quits.refl _).advances, hent, by rw [List.append_nil]⟩
  · refine ⟨ordered_of_ent rfl h.rising h.below ⟨counted_deliver hl.counted hidle txn iqueue, ?_,
      ?_, fun hf => ?_, hl.half⟩ hconc, [txn], _, ⟨by simp, rfl, by simp, rfl, rfl⟩, rfl, rfl⟩
    · show c.requests = (c.delivered ++ [txn]) ++ iqueue
      rw [hl.queued, hiq, List.append_assoc]
      rfl
    · show (c.delivered ++ [txn]).Perm (c.destroyed ++ (e.txns ++ [txn]))
      rw [← List.append_assoc]
      exact hl.held.append_right _
    · show c.delivered ++ [txn] = c.destroyed ++ (e.txns ++ [txn])
      rw [← List.append_assoc, ← hl.serial hf]

/-- An entity that was not read before has no transactions. -/
theorem Ordered.untouched (h : c.Ordered concurrent) (hent : c.ent = some e)
    (hzero : c.created = 0) : e.txns = [] := by
  have hreq : c.requests = [] := List.eq_nil_iff_forall_not_mem.mpr fun t ht =>
    Nat.not_lt_zero t (hzero ▸ h.below t ht)
  have hdel : c.delivered = [] := List.prefix_nil.mp (hreq ▸ h.delivered_requests)
  have hnil := (hdel ▸ (h.ent e hent).1.held).nil_eq
  exact (List.append_eq_nil_iff.mp hnil.symm).2

/-- **Reading.** -/
theorem exec_read (h : c.Ordered concurrent) {arrived : Option (List UInt8)} {consumed : Int}
    (he : c.enabled (.read arrived consumed)) (hx : c.exec (.read arrived consumed) = .ok c') :
    c'.Ordered concurrent ∧ ∃ inputs taken, c.Advances c' inputs taken [] c.runs := by
  have hstay : c.Advances c [] [] [] c.runs := (Quits.refl c).advances
  cases hent : c.ent with
  | none => exact absurd he.2.1 (by simp [hent])
  | some e =>
    simp only [exec, readCb, hent] at hx
    split at hx
    · rw [← Except.ok.inj hx]
      exact ⟨h, [], [], hstay⟩
    · rcases driverUnpack_spec c e arrived consumed with hu | ⟨bytes, -, -, hu⟩
      · simp only [hu, gt_iff_lt, Int.lt_irrefl, if_false] at hx
        rw [← Except.ok.inj hx]
        exact ⟨h, [], [], hstay⟩
      · -- the bytes are put to the half transaction
        have hhalf := withHalf_ordered h hent (e.rbuf ++ bytes)
        have hadv : c.Advances (c.withHalf e (e.rbuf ++ bytes)) [] [] [] c.runs :=
          ⟨by simp [withHalf], by simp [withHalf], by simp [withHalf], by simp [withHalf], rfl⟩
        rcases hu with ⟨-, hu⟩ | ⟨-, hu⟩ | ⟨hpos, hu⟩
        · simp only [hu, gt_iff_lt, Int.lt_irrefl, if_false] at hx
          rw [← Except.ok.inj hx]
          exact ⟨hhalf, [], [], hadv⟩
        · -- the unpack function rejects the data, and the entity goes
          cases hs : (c.withHalf e (e.rbuf ++ bytes)).safeDestroy with
          | error f => simp [hu, hs, Except.map] at hx
          | ok c₁ =>
            simp only [hu, hs, Except.map, gt_iff_lt] at hx
            rw [if_neg (by omega), Except.ok.injEq] at hx
            subst hx
            have hquits := safeDestroy_quits (fun e₁ he₁ => by
              rw [← Option.some.inj he₁]
              refine he.2.2.imp (fun ho => ?_) (fun hzero => ?_)
              · simpa [hent] using ho
              · have hnil := h.untouched hent hzero
                exact hnil) hs
            exact ⟨hquits.ordered hhalf, [], [], hadv.trans hquits.advances⟩
        · -- a request is complete, and the first one in line may be delivered
          simp only [hu, gt_iff_lt, hpos, if_true] at hx
          obtain ⟨⟨n, c₁⟩, hdel, rfl⟩ := except_map_ok.mp hx
          have hqueued := withQueued_ordered h hent (e.rbuf ++ bytes) consumed
          obtain ⟨hord, taken, -, htaken, -⟩ := driverDeliver_ordered hqueued rfl hdel
          refine ⟨hord, [((c.getOrCreateTxn e).1, e.rbuf ++ bytes)], taken, ?_⟩
          exact ⟨by rw [htaken.inputs]; simp [withQueued],
            by rw [htaken.delivered]; simp [withQueued],
            by rw [htaken.destroyed]; simp [withQueued], by rw [htaken.runs]; simp [withQueued],
            by rw [htaken.down]; rfl⟩

/-! ### The workflow -/

/-- A transaction of the entity is destroyed. -/
theorem destroy_ordered (h : c.Ordered concurrent) (hent : c.ent = some e) {txn : TxnId}
    (htxn : txn ∈ e.txns) : Ordered concurrent { c with
      ent := some { e with txns := e.txns.erase txn, taskCnt := e.taskCnt - 1 }
      destroyed := c.destroyed ++ [txn] } := by
  obtain ⟨hl, hconc⟩ := h.ent e hent
  refine ordered_of_ent rfl h.rising h.below ⟨counted_erase hl.counted htxn, hl.queued, ?_,
    fun hf => ?_, hl.half⟩ hconc
  · show c.delivered.Perm (c.destroyed ++ [txn] ++ e.txns.erase txn)
    rw [List.append_assoc]
    exact hl.held.trans ((List.perm_cons_erase htxn).append_left _)
  · show c.delivered = c.destroyed ++ [txn] ++ e.txns.erase txn
    have hone : e.txns = [txn] := by
      have hlen := hl.counted.single hf
      cases htxns : e.txns with
      | nil => exact absurd htxn (by simp [htxns])
      | cons t ts =>
        rw [htxns] at hlen htxn
        obtain rfl : ts = [] := List.length_eq_zero_iff.mp (by simpa using hlen)
        rw [List.mem_singleton.mp htxn]
    rw [hl.serial hf, hone]
    simp

/-- **Finishing a transaction.** -/
theorem txnLogAndDestroy_ordered (h : c.Ordered concurrent) (hent : c.ent = some e)
    (howned : e.owned = true) {txn : TxnId} (htxn : txn ∈ e.txns) {allComplete : Bool}
    (hx : c.txnLogAndDestroy txn allComplete = .ok c') : c'.Ordered concurrent ∧
      ∃ taken, c.Advances c' [] taken (if allComplete then [txn] else []) c.runs := by
  cases allComplete with
  -- a task is left, and nothing happens
  | false =>
    simp only [txnLogAndDestroy, Bool.false_eq_true, not_false_eq_true, if_true,
      Except.ok.injEq] at hx
    subst hx
    exact ⟨h, [], (Quits.refl c).advances⟩
  | true =>
    -- the next transaction is delivered before this one leaves
    cases hdel : c.driverDeliver 1 with
    | error f => simp [txnLogAndDestroy, hdel] at hx
    | ok r =>
      obtain ⟨n, c₁⟩ := r
      obtain ⟨h₁, taken, e₁, hadv, hent₁, heq₁⟩ := driverDeliver_ordered h hent hdel
      have htxn₁ : txn ∈ e₁.txns := by rw [heq₁]; exact List.mem_append_left _ htxn
      have howned₁ : e₁.owned = true := by rw [heq₁]; exact howned
      rw [txnLogAndDestroy_eq hdel hent₁ (h₁.ent e₁ hent₁).1.counted htxn₁] at hx
      have h₂ := destroy_ordered h₁ hent₁ htxn₁
      have hadv₂ : c.Advances { c₁ with
          ent := some { e₁ with txns := e₁.txns.erase txn, taskCnt := e₁.taskCnt - 1 }
          destroyed := c₁.destroyed ++ [txn] } [] taken [txn] c.runs :=
        ⟨hadv.inputs, hadv.delivered, by simp [hadv.destroyed], hadv.runs, hadv.down⟩
      -- the entity is destroyed or stays
      split at hx
      · have hquits := safeDestroy_quits (fun e₂ he₂ => .inl (by
          rw [← Option.some.inj he₂]; exact howned₁)) hx
        refine ⟨hquits.ordered h₂, taken, ?_⟩
        simpa using hadv₂.trans hquits.advances
      · rw [← Except.ok.inj hx]
        exact ⟨h₂, taken, hadv₂⟩

/-- Packing leaves the transactions alone. -/
theorem modulePack_quits (hent : c.ent = some e) (howned : e.owned = true)
    {failed writeError : Bool} (hx : c.modulePack failed writeError = .ok c') :
    c.Quits c' ∧ ∃ e', c'.ent = some e' ∧ e'.owned = true ∧ e'.txns = e.txns := by
  obtain ⟨hfade, hsome⟩ := modulePack_fades hent howned hx
  obtain ⟨e', hent'⟩ := Option.isSome_iff_exists.mp hsome
  obtain ⟨e₀, he₀, htxns, -, -, -, ho, -⟩ := hfade.ent e' hent'
  obtain rfl := Option.some.inj (hent.symm.trans he₀)
  refine ⟨?_, e', hent', ho.trans howned, htxns⟩
  -- a failed packing marks it inactive
  have hmark : c.Quits (if failed then c.mark .inactive else c) := by
    split
    · exact mark_quits c _
    · exact .refl c
  have howned₁ : ∀ e₁, (if failed then c.mark .inactive else c).ent = some e₁ →
      e₁.owned = true := by
    intro e₁ he₁
    split at he₁
    · obtain ⟨e₂, he₂, rfl⟩ := Option.map_eq_some_iff.mp he₁
      rw [← Option.some.inj (hent.symm.trans he₂)]
      exact howned
    · rw [← Option.some.inj (hent.symm.trans he₁)]
      exact howned
  unfold modulePack at hx
  generalize (if failed then c.mark .inactive else c) = c₁ at hx hmark howned₁
  simp only at hx
  split at hx
  · -- an error of the write destroys it
    exact hmark.trans (safeDestroy_quits (fun e₁ he₁ => .inl (howned₁ e₁ he₁)) hx)
  · rw [← Except.ok.inj hx]
    exact hmark

/-- **Running a transaction** that the entity holds. -/
theorem exec_run (h : c.Ordered concurrent) {i : Nat} {outcome : RunOutcome}
    (he : c.enabled (.workflowRun i outcome)) (hx : c.exec (.workflowRun i outcome) = .ok c') :
    ∃ txn taken, c.runs[i]? = some txn ∧ txn ∈ c.delivered ∧ txn ∉ c.destroyed ∧
      c'.Ordered concurrent ∧ c.Advances c' [] taken (if outcome.finishes then [txn] else [])
        (c.runs.eraseIdx i ++ if outcome = .next then [txn] else []) := by
  obtain ⟨txn, hi⟩ : ∃ txn, c.runs[i]? = some txn := ⟨_, List.getElem?_eq_getElem he.2⟩
  simp only [exec, hi] at hx
  obtain ⟨e, hent, hmem⟩ := workflowRun_ent hx
  replace hent : c.ent = some e := hent
  obtain ⟨hdel, hnot⟩ := (h.mem_txns hent).mp hmem
  set c₀ : Client := { c with runs := c.runs.eraseIdx i } with hc₀
  have hent₀ : c₀.ent = some e := hent
  have h₀ : c₀.Ordered concurrent := h.withRuns _
  have hadopt : c₀.Quits (c₀.adopt e) := adopt_quits hent₀
  have h₁ := hadopt.ordered h₀
  -- what follows the start of the handler, for the events without this one
  suffices hrest : c'.Ordered concurrent ∧ ∃ taken, c₀.Advances c' [] taken
      (if outcome.finishes then [txn] else [])
      (c.runs.eraseIdx i ++ if outcome = .next then [txn] else []) by
    obtain ⟨hord, taken, hadv⟩ := hrest
    exact ⟨txn, taken, hi, hdel, hnot, hord, hadv.inputs, hadv.delivered, hadv.destroyed, hadv.runs,
      hadv.down⟩
  simp only [workflowRun, hent₀, hmem, not_true_eq_false, if_false] at hx
  cases outcome with
  | pending =>
    rw [← Except.ok.inj hx]
    refine ⟨h₁, [], ?_⟩
    simpa [RunOutcome.finishes, c₀] using hadopt.advances
  | next =>
    rw [← Except.ok.inj hx]
    exact ⟨h₁.withRuns _, [], by simp [adopt, c₀], by simp [adopt, c₀],
      by simp [RunOutcome.finishes, adopt, c₀], by simp [adopt, c₀], rfl⟩
  | packed failed writeError allComplete =>
    cases hp : (c₀.adopt e).modulePack failed writeError with
    | error f => simp [hp] at hx
    | ok c₂ =>
      simp only [hp] at hx
      obtain ⟨hquits, e₂, hent₂, howned₂, htxns₂⟩ := modulePack_quits rfl rfl hp
      obtain ⟨hord, taken, hadv⟩ := txnLogAndDestroy_ordered (hquits.ordered h₁) hent₂ howned₂
        (by rw [htxns₂]; exact hmem) hx
      refine ⟨hord, taken, ?_⟩
      show c₀.Advances c' [] taken (if allComplete then [txn] else []) _
      simpa [c₀] using (hadopt.trans hquits).advances.trans hadv
  | destroyed allComplete =>
    obtain ⟨hord, taken, hadv⟩ := txnLogAndDestroy_ordered h₁ rfl rfl hmem hx
    refine ⟨hord, taken, ?_⟩
    show c₀.Advances c' [] taken (if allComplete then [txn] else []) _
    simpa [c₀] using hadopt.advances.trans hadv

/-- **The master resumes a transaction.** -/
theorem exec_resume (h : c.Ordered concurrent) {txn : TxnId} (hx : c.exec (.resume txn) = .ok c') :
    c'.Ordered concurrent ∧ c.Advances c' [] [] [] (c.runs ++ [txn]) := by
  rw [← Except.ok.inj hx]
  exact ⟨h.withRuns _, by simp, by simp, by simp, by simp, rfl⟩

/-- **The connection breaks, or the manager cleans up.** -/
theorem exec_quits (h : c.Ordered concurrent) {a : ClientAction} (ha : a = .error ∨ a = .cleanDead)
    (he : c.enabled a) (hx : c.exec a = .ok c') : c'.Ordered concurrent ∧
      c.Advances c' [] [] [] c.runs := by
  have hquits : c.Quits c' := by
    rcases ha with rfl | rfl
    · refine safeDestroy_quits (fun e hent => .inl ?_) hx
      simpa [hent] using he.2.2
    · exact cleanDead_quits (fun e hent => (h.ent e hent).1.counted) hx
  exact ⟨hquits.ordered h, hquits.advances⟩

/-! ### Concurrency -/

/-- With concurrency no request waits. -/
def Prompt (c : Client) : Prop :=
  ∀ e, c.ent = some e → e.concurrent = true → e.iqueue = []

/-- What quits leaves nothing waiting. -/
theorem Quits.prompt (h : c.Quits c') (hc : c.Prompt) : c'.Prompt := by
  intro e' he' hconc
  obtain ⟨e, he, heq⟩ := h.ent e' he'
  rw [heq] at hconc ⊢
  exact hc e he hconc

/-- The request that waits is delivered. -/
theorem driverDeliver_prompt (hent : c.ent = some e) (he : e.Counted)
    (hone : e.concurrent = true → e.iqueue.length ≤ 1) {n : Nat}
    (hx : c.driverDeliver 1 = .ok (n, c')) : c'.Prompt := by
  rcases driverDeliver_spec hent he with ⟨hnot, hdel⟩ | ⟨txn, iqueue, hidle, hiq, hdel⟩ <;>
    obtain ⟨rfl, rfl⟩ := Prod.mk.inj (Except.ok.inj (hx.symm.trans hdel))
  · intro e' he' hconc
    obtain rfl := Option.some.inj (hent.symm.trans he')
    refine hnot.resolve_left fun hidle => ?_
    exact absurd hidle (by simp [Entity.idle, hconc])
  · intro e' he' hconc
    obtain rfl := Option.some.inj he'
    have hlen : iqueue.length + 1 ≤ 1 := by
      rw [← List.length_cons (a := txn), ← hiq]
      exact hone hconc
    exact List.length_eq_zero_iff.mp (Nat.le_zero.mp (Nat.le_of_succ_le_succ hlen))

/-- The end of a transaction makes room for the next one. -/
theorem txnLogAndDestroy_prompt (h : c.Ordered concurrent) (hp : c.Prompt) (hent : c.ent = some e)
    (howned : e.owned = true) {txn : TxnId} (htxn : txn ∈ e.txns) {allComplete : Bool}
    (hx : c.txnLogAndDestroy txn allComplete = .ok c') : c'.Prompt := by
  cases allComplete with
  -- a task is left, and nothing happens
  | false =>
    simp only [txnLogAndDestroy, Bool.false_eq_true, not_false_eq_true, if_true,
      Except.ok.injEq] at hx
    exact hx ▸ hp
  | true =>
    cases hdel : c.driverDeliver 1 with
    | error f => simp [txnLogAndDestroy, hdel] at hx
    | ok r =>
      -- a concurrent entity delivers at once, so nothing waits in it
      obtain ⟨n, c₁⟩ := r
      have hp₁ := driverDeliver_prompt hent (h.ent e hent).1.counted
        (fun hconc => by simp [hp e hent hconc]) hdel
      obtain ⟨h₁, taken, e₁, -, hent₁, heq₁⟩ := driverDeliver_ordered h hent hdel
      have htxn₁ : txn ∈ e₁.txns := by
        rw [heq₁]
        exact List.mem_append_left _ htxn
      rw [txnLogAndDestroy_eq hdel hent₁ (h₁.ent e₁ hent₁).1.counted htxn₁] at hx
      have hp₂ : Prompt { c₁ with
          ent := some { e₁ with txns := e₁.txns.erase txn, taskCnt := e₁.taskCnt - 1 }
          destroyed := c₁.destroyed ++ [txn] } := fun e₂ he₂ hconc => by
        rw [← Option.some.inj he₂] at hconc ⊢
        exact hp₁ e₁ hent₁ hconc
      -- the entity is destroyed or stays
      split at hx
      · refine (safeDestroy_quits (fun e₂ he₂ => .inl ?_) hx).prompt hp₂
        rw [← Option.some.inj he₂, heq₁]
        exact howned
      · exact Except.ok.inj hx ▸ hp₂

/-- **No request waits** on an entity with concurrency, whatever happens. -/
theorem exec_prompt (h : c.Ordered concurrent) (hp : c.Prompt) {a : ClientAction}
    (ha : a ≠ .shutdown) (he : c.enabled a) (hx : c.exec a = .ok c') : c'.Prompt := by
  cases a with
  | shutdown => exact absurd rfl ha
  | resume txn => exact Except.ok.inj hx ▸ hp
  | error =>
    exact (safeDestroy_quits (fun e hent => .inl (by simpa [hent] using he.2.2)) hx).prompt hp
  | cleanDead => exact (cleanDead_quits (fun e hent => (h.ent e hent).1.counted) hx).prompt hp
  | read arrived consumed =>
    cases hent : c.ent with
    | none => exact absurd he.2.1 (by simp [hent])
    | some e =>
      have hhalf : ∀ data, (c.withHalf e data).Prompt := fun data e₁ he₁ hconc => by
        rw [← Option.some.inj he₁] at hconc ⊢
        exact hp e hent hconc
      simp only [exec, readCb, hent] at hx
      split at hx
      · exact Except.ok.inj hx ▸ hp
      · rcases driverUnpack_spec c e arrived consumed with hu | ⟨bytes, -, -, hu | hu | hu⟩
        · -- no bytes came
          simp only [hu, gt_iff_lt, Int.lt_irrefl, if_false] at hx
          exact Except.ok.inj hx ▸ hp
        · -- more bytes are needed
          simp only [hu.2, gt_iff_lt, Int.lt_irrefl, if_false] at hx
          exact Except.ok.inj hx ▸ hhalf _
        · cases hs : (c.withHalf e (e.rbuf ++ bytes)).safeDestroy with
          | error f => simp [hu.2, hs, Except.map] at hx
          | ok c₁ =>
            simp only [hu.2, hs, Except.map, gt_iff_lt] at hx
            rw [if_neg (by omega), Except.ok.injEq] at hx
            subst hx
            -- an entity that is not active has nothing left to deliver
            refine (safeDestroy_quits (fun e₁ he₁ => ?_) hs).prompt (hhalf _)
            rw [← Option.some.inj he₁]
            have huntouched := h.untouched hent
            exact he.2.2.imp (fun ho => by simpa [hent] using ho) huntouched
        · -- the new request is the only one that waits
          obtain ⟨hpos, hu⟩ := hu
          simp only [hu, gt_iff_lt, hpos, if_true] at hx
          obtain ⟨⟨n, c₁⟩, hdel, rfl⟩ := except_map_ok.mp hx
          have hqueued := withQueued_ordered h hent (e.rbuf ++ bytes) consumed
          refine driverDeliver_prompt rfl (hqueued.ent _ rfl).1.counted (fun hconc => ?_) hdel
          simp [hp e hent hconc]
  -- the message is taken, and the manager has the entity
  | workflowRun i outcome =>
    obtain ⟨txn, hi⟩ : ∃ txn, c.runs[i]? = some txn := ⟨_, List.getElem?_eq_getElem he.2⟩
    simp only [exec, hi] at hx
    obtain ⟨e, hent, hmem⟩ := workflowRun_ent hx
    replace hent : c.ent = some e := hent
    set c₀ : Client := { c with runs := c.runs.eraseIdx i } with hc₀
    have hent₀ : c₀.ent = some e := hent
    have hadopt : c₀.Quits (c₀.adopt e) := adopt_quits hent₀
    have h₁ := hadopt.ordered (h.withRuns (c.runs.eraseIdx i))
    have hp₁ : (c₀.adopt e).Prompt := hadopt.prompt hp
    simp only [workflowRun, hent₀, hmem, not_true_eq_false, if_false] at hx
    cases outcome with
    | pending => exact Except.ok.inj hx ▸ hp₁
    | next => exact Except.ok.inj hx ▸ hp₁
    -- the transaction ends, and the next one in line is delivered
    | destroyed allComplete => exact txnLogAndDestroy_prompt h₁ hp₁ rfl rfl hmem hx
    | packed failed writeError allComplete =>
      cases hpack : (c₀.adopt e).modulePack failed writeError with
      | error f => simp [hpack] at hx
      | ok c₂ =>
        simp only [hpack] at hx
        -- packing sends the response first
        obtain ⟨hquits, e₂, hent₂, howned₂, htxns₂⟩ := modulePack_quits rfl rfl hpack
        exact txnLogAndDestroy_prompt (hquits.ordered h₁) (hquits.prompt hp₁) hent₂ howned₂
          (by rw [htxns₂]; exact hmem) hx

end Client

end Skull
