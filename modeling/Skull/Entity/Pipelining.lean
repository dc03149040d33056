import Skull.Entity.Steps

namespace Skull

open Machines

/-!
# Requests that wait for the one before them

An entity whose workflow is not concurrent runs one transaction at a time; the others wait in
its input queue:

* `Client.Served` — nothing waits when nothing runs;
* `Client.Drained` — the condition on a step that keeps it so: the transaction that is finished
  leaves an empty queue behind;
* `Client.served_iff` — a run keeps `Served` in all its states exactly when all its steps are
  drained;
* `Client.pipelined_stranded` — a client that sends its second request early is not served.
-/

/-- The handler finishes the transaction. -/
def RunOutcome.finishes : RunOutcome → Bool
  | .packed _ _ allComplete => allComplete
  | .destroyed allComplete => allComplete
  | .pending | .next => false

namespace Client

/-- When no transaction of an entity without concurrency runs, none waits. -/
def Served (c : Client) : Prop :=
  ∀ e, c.ent = some e → e.concurrent = false → e.taskCnt = 0 → c.runs = [] → e.iqueue = []

/-- The step does not finish the last running transaction of an entity without concurrency
    while another one waits. -/
def Drained (c : Client) : ClientAction → Prop
  | .workflowRun i outcome => outcome.finishes = true → ∀ e, c.ent = some e →
      e.concurrent = false → c.runs.eraseIdx i = [] → e.iqueue = []
  | _ => True

/-- The property of the runs, with the counter it needs. -/
structure Sound (c : Client) : Prop where
  counted : ∀ e, c.ent = some e → e.Counted
  served : c.Served

/-- What fades stays sound. -/
theorem Fades.sound {c c' : Client} (h : c.Fades c') (hc : c.Sound) : c'.Sound := by
  refine ⟨h.counted hc.counted, fun e' he' hconc hcnt hruns => ?_⟩
  obtain ⟨e, he, -, hq, hn, hconc', -⟩ := h.ent e' he'
  rw [hq]
  exact hc.served e he (hconc' ▸ hconc) (hn ▸ hcnt) (h.runs ▸ hruns)

/-- While a transaction is registered the entity is served. -/
theorem sound_of_registered {c : Client} {e : Entity} (hent : c.ent = some e) (he : e.Counted)
    (hne : e.txns ≠ []) : c.Sound := by
  refine ⟨fun e' he' => ?_, fun e' he' _ hcnt _ => ?_⟩
  · rw [← Option.some.inj (hent.symm.trans he')]
    exact he
  · rw [← Option.some.inj (hent.symm.trans he'), he.taskCnt] at hcnt
    have hpos : 0 < e.txns.length := List.length_pos_iff.mpr hne
    omega

/-- After a delivery something runs or nothing waits. -/
theorem driverDeliver_sound {c c' : Client} {e : Entity} {n : Nat} (hent : c.ent = some e)
    (he : e.Counted) (h : c.driverDeliver 1 = .ok (n, c')) : c'.Sound := by
  rcases driverDeliver_spec hent he with ⟨hnot, hdel⟩ | ⟨txn, iqueue, hidle, -, hdel⟩ <;>
    obtain ⟨rfl, rfl⟩ := Prod.mk.inj (Except.ok.inj (h.symm.trans hdel))
  · rcases hnot with hbusy | hnil
    · refine sound_of_registered hent he fun htxns => ?_
      have hidle := he.idle_iff.mpr (.inr htxns)
      exact absurd (hbusy.symm.trans hidle) (by simp)
    · refine ⟨fun e' he' => ?_, fun e' he' _ _ _ => ?_⟩ <;>
        rw [← Option.some.inj (hent.symm.trans he')]
      · exact he
      · exact hnil
  · exact sound_of_registered rfl (counted_deliver he hidle txn iqueue) (by simp)

/-- Reading keeps the client served: a request is delivered at once when nothing runs. -/
theorem readCb_sound {c c' : Client} (hc : c.Sound) {arrived : Option (List UInt8)}
    {consumed : Int} (h : c.readCb arrived consumed = .ok c') : c'.Sound := by
  unfold readCb at h
  split at h
  · exact absurd h (by simp)
  · rename_i e hent
    have he := hc.counted e hent
    split at h
    · rw [← Except.ok.inj h]; exact hc
    · -- a half transaction changes neither the counter nor the queue
      have hhalf : ∀ data, (c.withHalf e data).Sound := by
        intro data
        refine ⟨fun e' he' => ?_, fun e' he' hconc hcnt hruns => ?_⟩ <;>
          rw [← Option.some.inj he'] at *
        · exact ⟨he.taskCnt, he.single⟩
        · exact hc.served e hent hconc hcnt hruns
      rcases driverUnpack_spec c e arrived consumed with hu | ⟨bytes, -, -, hu⟩
      · simp only [hu, Int.lt_irrefl, if_false, gt_iff_lt] at h
        rw [← Except.ok.inj h]; exact hc
      · rcases hu with ⟨-, hu⟩ | ⟨-, hu⟩ | ⟨hpos, hu⟩
        · simp only [hu, Int.lt_irrefl, if_false, gt_iff_lt] at h
          rw [← Except.ok.inj h]; exact hhalf _
        · cases hs : (c.withHalf e (e.rbuf ++ bytes)).safeDestroy with
          | error f => simp [hu, hs, Except.map] at h
          | ok c₁ =>
            simp only [hu, hs, Except.map, gt_iff_lt] at h
            rw [if_neg (by omega), Except.ok.injEq] at h
            exact h ▸ (safeDestroy_fades hs).sound (hhalf _)
        · simp only [hu, gt_iff_lt, hpos, if_true] at h
          -- a request is complete, and the loop delivers what it may
          obtain ⟨⟨n, c₁⟩, hdel, rfl⟩ := except_map_ok.mp h
          have hent₁ : (c.withQueued e (e.rbuf ++ bytes) consumed).ent = some { e with
              halfTxn := none, iqueue := e.iqueue ++ [(c.getOrCreateTxn e).1]
              rbuf := (e.rbuf ++ bytes).drop consumed.toNat } := rfl
          exact driverDeliver_sound hent₁ ⟨he.taskCnt, he.single⟩ hdel

/-- A handled event is about a registered transaction. -/
theorem workflowRun_ent {c c' : Client} {txn : TxnId} {outcome : RunOutcome}
    (h : c.workflowRun txn outcome = .ok c') : ∃ e, c.ent = some e ∧ txn ∈ e.txns := by
  unfold workflowRun at h
  split at h
  · exact absurd h (by simp)
  · rename_i e hent
    split at h
    · exact absurd h (by simp)
    · rename_i hmem
      exact ⟨e, hent, by simpa using hmem⟩

/-- A handler that does not finish its transaction leaves it registered. -/
theorem workflowRun_unfinished {c c' : Client} {txn : TxnId} {outcome : RunOutcome}
    (hc : ∀ e, c.ent = some e → e.Counted) (hfin : outcome.finishes = false)
    (h : c.workflowRun txn outcome = .ok c') : c'.Sound := by
  obtain ⟨e, hent, hmem⟩ := workflowRun_ent h
  have he := hc e hent
  have hne : e.txns ≠ [] := List.ne_nil_of_mem hmem
  have hadopt : (c.adopt e).Sound := sound_of_registered rfl ⟨he.taskCnt, he.single⟩ hne
  simp only [workflowRun, hent, hmem, not_true_eq_false, if_false] at h
  cases outcome with
  | pending => exact Except.ok.inj h ▸ hadopt
  | next =>
    rw [← Except.ok.inj h]
    exact sound_of_registered rfl ⟨he.taskCnt, he.single⟩ hne
  | packed failed writeError allComplete =>
    simp only [RunOutcome.finishes] at hfin
    subst hfin
    cases hp : (c.adopt e).modulePack failed writeError with
    | error f => simp [hp] at h
    | ok c₁ =>
      simp only [hp, txnLogAndDestroy, Bool.false_eq_true, not_false_eq_true, if_true,
        Except.ok.injEq] at h
      exact h ▸ (modulePack_fades rfl rfl hp).1.sound hadopt
  | destroyed allComplete =>
    simp only [RunOutcome.finishes] at hfin
    subst hfin
    exact Except.ok.inj h ▸ hadopt

/-- After a transaction is finished its entity may fade; an owned one stays. -/
theorem txnLogAndDestroy_fades {c c' : Client} {e : Entity} {txn : TxnId}
    (hent : c.ent = some e) (he : e.Counted) (howned : e.owned = true) (hmem : txn ∈ e.txns)
    (h : c.txnLogAndDestroy txn true = .ok c') :
    ∃ c₂ e₂, Finish c e c₂ e₂ ∧ c₂.Fades c' ∧ c'.ent.isSome = true := by
  obtain ⟨c₂, e₂, hfin, heq⟩ := txnLogAndDestroy_spec hent he hmem
  rw [heq] at h
  have howned₂ : e₂.owned = true := by rw [hfin.entity]; exact howned
  refine ⟨c₂, e₂, hfin, ?_⟩
  split at h
  · exact ⟨safeDestroy_fades h, safeDestroy_alive hfin.ent howned₂ h⟩
  · rw [← Except.ok.inj h]
    exact ⟨Fades.refl c₂, by rw [hfin.ent]; rfl⟩

/-- A handler that finishes its transaction: the entity and the events it leaves. -/
theorem workflowRun_finished {c c' : Client} {txn : TxnId} {outcome : RunOutcome}
    (hc : ∀ e, c.ent = some e → e.Counted) (hfin : outcome.finishes = true)
    (h : c.workflowRun txn outcome = .ok c') :
    (∀ e', c'.ent = some e' → e'.Counted) ∧
      ∃ e e', c.ent = some e ∧ c'.ent = some e' ∧ e'.concurrent = e.concurrent ∧
        (e.concurrent = false → c'.runs = c.runs ∧ e'.iqueue = e.iqueue ∧ e'.taskCnt = 0) := by
  obtain ⟨e, hent, hmem⟩ := workflowRun_ent h
  have he := hc e hent
  -- the entity that `_txn_log_and_destroy` sees is `e` up to its status
  obtain ⟨c₁, e₁, hent₁, hfade, howned, hlog⟩ : ∃ (c₁ : Client) (e₁ : Entity),
      c₁.ent = some e₁ ∧ (c.adopt e).Fades c₁ ∧ e₁.owned = true ∧
        c₁.txnLogAndDestroy txn true = .ok c' := by
    simp only [workflowRun, hent, hmem, not_true_eq_false, if_false] at h
    cases outcome with
    | pending => exact absurd hfin (by simp [RunOutcome.finishes])
    | next => exact absurd hfin (by simp [RunOutcome.finishes])
    | packed failed writeError allComplete =>
      simp only [RunOutcome.finishes] at hfin
      subst hfin
      cases hp : (c.adopt e).modulePack failed writeError with
      | error f => simp [hp] at h
      | ok c₁ =>
        simp only [hp] at h
        obtain ⟨hfade, hsome⟩ := modulePack_fades rfl rfl hp
        obtain ⟨e₁, hent₁⟩ := Option.isSome_iff_exists.mp hsome
        obtain ⟨e₀, he₀, -, -, -, -, ho, -⟩ := hfade.ent e₁ hent₁
        exact ⟨c₁, e₁, hent₁, hfade, by rw [ho, ← Option.some.inj he₀], h⟩
    | destroyed allComplete =>
      simp only [RunOutcome.finishes] at hfin
      subst hfin
      exact ⟨c.adopt e, _, rfl, Fades.refl _, rfl, h⟩
  obtain ⟨e₀, he₀, ht, hq, hn, hconc, -⟩ := hfade.ent e₁ hent₁
  rw [← Option.some.inj he₀] at ht hq hn hconc
  have he₁ : e₁.Counted := ⟨by rw [hn, ht]; exact he.taskCnt,
    fun hf => by rw [ht]; exact he.single (hconc ▸ hf)⟩
  have hmem₁ : txn ∈ e₁.txns := by rw [ht]; exact hmem
  obtain ⟨c₂, e₂, hfin₂, hfade₂, hsome⟩ := txnLogAndDestroy_fades hent₁ he₁ howned hmem₁ hlog
  have hcounted₂ : ∀ e', c₂.ent = some e' → e'.Counted := fun e' he' => by
    rw [← Option.some.inj (hfin₂.ent.symm.trans he')]
    exact hfin₂.counted
  obtain ⟨e', hent'⟩ := Option.isSome_iff_exists.mp hsome
  obtain ⟨e₃, he₃, -, hq', hn', hconc', -⟩ := hfade₂.ent e' hent'
  rw [← Option.some.inj (hfin₂.ent.symm.trans he₃)] at hq' hn' hconc'
  have hconc₂ : e₂.concurrent = e₁.concurrent := by rw [hfin₂.entity]
  refine ⟨hfade₂.counted hcounted₂, e, e', hent, hent', ?_, fun hf => ?_⟩
  · exact (hconc'.trans hconc₂).trans hconc
  · obtain ⟨hruns, hq₂, hn₂⟩ := hfin₂.single (hconc.trans hf)
    exact ⟨(hfade₂.runs.trans hruns).trans hfade.runs, (hq'.trans hq₂).trans hq, hn'.trans hn₂⟩

/-! ### The runs -/

/-- The handler of the event at `i`. -/
theorem exec_workflowRun {c c' : Client} {i : Nat} {outcome : RunOutcome}
    (he : c.enabled (.workflowRun i outcome)) (h : c.exec (.workflowRun i outcome) = .ok c') :
    ∃ txn, { c with runs := c.runs.eraseIdx i }.workflowRun txn outcome = .ok c' := by
  obtain ⟨txn, hi⟩ : ∃ txn, c.runs[i]? = some txn := ⟨_, List.getElem?_eq_getElem he.2⟩
  exact ⟨txn, by simpa only [exec, hi] using h⟩

/-- **Kept.** A drained step keeps the client served. -/
theorem exec_sound {c c' : Client} {a : ClientAction} (hc : c.Sound) (he : c.enabled a)
    (hd : c.Drained a) (h : c.exec a = .ok c') : c'.Sound := by
  cases a with
  | read arrived consumed => exact readCb_sound hc h
  | error => exact (safeDestroy_fades h).sound hc
  | resume txn =>
    rw [← Except.ok.inj h]
    exact ⟨hc.counted, fun e _ _ _ hruns => absurd hruns (by simp)⟩
  | workflowRun i outcome =>
    obtain ⟨txn, hrun⟩ := exec_workflowRun he h
    have hcnt : ∀ e, ({ c with runs := c.runs.eraseIdx i } : Client).ent = some e → e.Counted :=
      hc.counted
    cases hfin : outcome.finishes with
    | false => exact workflowRun_unfinished hcnt hfin hrun
    | true =>
      obtain ⟨hcounted, e, e', hent, hent', hconc, hsingle⟩ :=
        workflowRun_finished hcnt hfin hrun
      refine ⟨hcounted, fun e'' he'' hconc' _ hruns' => ?_⟩
      rw [← Option.some.inj (hent'.symm.trans he'')] at hconc' ⊢
      have hf : e.concurrent = false := hconc.symm.trans hconc'
      obtain ⟨hruns, hq, -⟩ := hsingle hf
      rw [hq]
      exact hd hfin e hent hf (hruns.symm.trans hruns')
  | cleanDead => exact (cleanDead_fades h).sound hc
  | shutdown => exact (mgrDestroy_fades h).sound hc

/-- **Lost.** A step that is not drained leaves a transaction waiting with nothing running. -/
theorem exec_stranded {c c' : Client} {a : ClientAction} (hc : c.Sound) (he : c.enabled a)
    (hd : ¬ c.Drained a) (h : c.exec a = .ok c') : ¬ c'.Served := by
  cases a with
  | read arrived consumed => exact absurd trivial hd
  | error => exact absurd trivial hd
  | resume txn => exact absurd trivial hd
  | workflowRun i outcome =>
    obtain ⟨txn, hrun⟩ := exec_workflowRun he h
    have hcnt : ∀ e, ({ c with runs := c.runs.eraseIdx i } : Client).ent = some e → e.Counted :=
      hc.counted
    simp only [Drained, Classical.not_imp, not_forall] at hd
    obtain ⟨hfin, e₀, hent₀, hf, hruns₀, hq₀⟩ := hd
    obtain ⟨-, e, e', hent, hent', hconc, hsingle⟩ := workflowRun_finished hcnt hfin hrun
    rw [← Option.some.inj (hent.symm.trans hent₀)] at hf hq₀
    obtain ⟨hruns, hq, hzero⟩ := hsingle hf
    intro hserved
    exact hq₀ (hq.symm.trans
      (hserved e' hent' (hconc.trans hf) hzero (hruns.trans hruns₀)))
  | cleanDead => exact absurd trivial hd
  | shutdown => exact absurd trivial hd

/-- An accepted client is served. -/
theorem init_sound {c : Client} (h : machine.init c) : c.Sound := by
  obtain ⟨owned, concurrent, destroyNotxn, rfl⟩ := h
  refine ⟨fun e he => ?_, fun e he _ _ _ => ?_⟩ <;> rw [← Option.some.inj he]
  exact ⟨rfl, fun _ => Nat.zero_le 1⟩

/-- **When the queue is served.** In a run of a client, nothing ever waits while nothing runs
    if and only if every transaction that finishes last leaves an empty queue behind. -/
theorem served_iff {c : Client} {p : List (ClientAction × Client)} (hc : machine.init c)
    (hp : machine.Path c p) :
    (∀ q ∈ p, q.2.Served) ↔ Machine.StepsMeet Drained c p :=
  Machine.path_iff (I := Sound) (P := Served) (C := Drained) (fun _ h => h.served)
    (fun _ _ _ hs he hd hx => exec_sound hs he hd hx)
    (fun _ _ _ hs he hd hx => exec_stranded hs he hd hx) (init_sound hc) hp

/-! A connection that sends two requests at once: the second one is read while the first one
runs, and waits for ever when that is finished. -/

theorem accepted_init : machine.init (accepted true false false) := ⟨true, false, false, rfl⟩

/-- The first request is read and delivered, the second one is read, the first one finishes. -/
def pipeline : List ClientAction :=
  [.read (some [1]) 1, .read (some [2]) 1, .workflowRun 0 (.packed false false true)]

/-- The connection after the two requests. -/
def pipelined : Client := (machine.play (accepted true false false) pipeline).getD (accepted true false false)

/-- Its entity: idle, with the second request in its queue. -/
def strandedEntity : Entity :=
  { owned := true, concurrent := false, halfTxn := none, txns := [], status := .active
    destroyNotxn := false, taskCnt := 0, iqueue := [1], ud := true, rbuf := [] }

/-- The second of two pipelined requests is never served. -/
theorem pipelined_stranded : ¬ ∀ c, machine.Reach Machine.anyStep c → c.Served := by
  intro hserved
  have hplay : machine.play (accepted true false false) pipeline = some pipelined := by
    decide +kernel
  have hreach := Machine.play_reach (.init accepted_init) hplay
  have hent : pipelined.ent = some strandedEntity := by decide +kernel
  have hruns : pipelined.runs = [] := by decide +kernel
  exact absurd (hserved pipelined hreach strandedEntity hent rfl rfl hruns) (by decide)

/-- The pipelined run against its condition. -/
theorem pipeline_served_iff :
    (∀ q ∈ machine.trace (accepted true false false) pipeline, q.2.Served) ↔
      Machine.StepsMeet Drained (accepted true false false)
        (machine.trace (accepted true false false) pipeline) :=
  served_iff accepted_init (Machine.trace_path pipeline _)

end Client

end Skull
