import Skull.Entity.Destruction

namespace Skull

open Machines

/-!
# Datagrams

The entity that the UDP driver creates for each datagram:

* `udpReadcb` — `_readcb` of the UDP driver, with its assertion;
* `Client.datagramMachine` — what may happen to the entity afterwards, and
  `Client.HandlesLive`, that the event handled is of a transaction that is not released;
* `Client.Accounted` — the transaction holds the entity, or the entity is freed, or waits in its
  manager to be freed;
* `noLeak_iff` — no datagram is leaked exactly when the unpack function takes something.
-/

/-- What goes wrong with a datagram. -/
inductive DatagramFault
  | entity (f : EntityFault)
  /-- `cnt == 1` in `_readcb`. -/
  | delivery
  deriving DecidableEq, Repr

/-- `_readcb` of the UDP driver, when `recvfrom` gets `bytes` and the unpack function returns
    `consumed`; without bytes no entity is created. -/
def udpReadcb (concurrent : Bool) (bytes : List UInt8) (consumed : Int) :
    Except DatagramFault (Option Client) :=
  if bytes = [] then .ok none
  else
    let c := Client.accepted false concurrent true
    match c.ent with
    | none => .error (.entity .entityFreed)
    | some e =>
      match c.driverUnpack e (some bytes) consumed with
      | .error f => .error (.entity f)
      | .ok (consumed, c) =>
        if consumed > 0 then
          match c.driverDeliver 1 with
          | .error f => .error (.entity f)
          | .ok (cnt, c) => if cnt = 1 then .ok (some c) else .error .delivery
        else .ok (some c)

namespace Client

/-- What may happen to the entity of a datagram.  It has no connection that calls back, neither
    when data arrive nor when `sendto` fails. -/
def datagramEnabled (c : Client) (a : ClientAction) : Prop :=
  c.enabled a ∧
    match a with
    | .read _ _ | .error | .workflowRun _ (.packed _ true _) => False
    | _ => True

/-- The runs from a state. -/
def datagramMachine (c₀ : Client) : Machine Client ClientAction EntityFault where
  init c := c = c₀
  enabled := datagramEnabled
  exec := exec

/-- The event that is handled is of a transaction that was not released. -/
def HandlesLive (c : Client) : ClientAction → Prop
  | .workflowRun i _ => ∃ e txn, c.ent = some e ∧ c.runs[i]? = some txn ∧ txn ∈ e.txns
  | _ => True

/-- Exactly one transaction was delivered.  Until it is destroyed the entity is there for it;
    afterwards the entity is freed, or waits in its manager and the next round frees it. -/
structure Accounted (c : Client) : Prop where
  delivered : c.delivered = [0]
  once : c.destroyed = [] ∨ c.destroyed = [0]
  held : c.destroyed = [] → ∃ e, c.ent = some e ∧ e.live = [0] ∧ e.status ≠ .dead
  released : c.destroyed = [0] → c.ent = none ∨
    ∃ e, c.ent = some e ∧ e.status = .dead ∧ e.live = [] ∧ c.inactive = 1 ∧
      ∃ c', c.exec .cleanDead = .ok c' ∧ c'.ent = none ∧ c'.inactive = 0

/-- What the steps keep once the transaction was delivered. -/
structure Carries (c : Client) : Prop where
  kept : c.Kept
  created : c.created = 1
  delivered : c.delivered = [0]
  ent : ∀ e, c.ent = some e → e.halfTxn = none ∧ e.iqueue = [] ∧ e.destroyNotxn = true ∧
    (e.status = .dead ↔ e.txns = [])

variable {c c' : Client} {e : Entity} {txn : TxnId}

/-! ### The transaction and its entity -/

/-- The transaction of a datagram is in the entity, or destroyed. -/
theorem Carries.once (h : c.Carries) (hent : c.ent = some e) : [0] = c.destroyed ++ e.txns := by
  obtain ⟨hhalf, hiq, -⟩ := h.ent e hent
  have honce := h.kept.once_ent hent
  rw [h.created] at honce
  have hlive : e.live = e.txns := by simp [Entity.live, hhalf, hiq]
  rw [hlive] at honce
  exact List.singleton_perm.mp honce

/-- A registered transaction is the one of the datagram. -/
theorem Carries.registered (h : c.Carries) (hent : c.ent = some e) (hmem : txn ∈ e.txns) :
    c.destroyed = [] ∧ e.txns = [0] ∧ txn = 0 := by
  have honce := h.once hent
  cases hdestroyed : c.destroyed with
  | nil =>
    have htxns : e.txns = [0] := by simpa [hdestroyed] using honce.symm
    refine ⟨rfl, htxns, ?_⟩
    simpa [htxns] using hmem
  | cons x xs =>
    rw [hdestroyed, List.cons_append, List.cons.injEq] at honce
    have hnil : xs ++ e.txns = [] := honce.2.symm
    simp [(List.append_eq_nil_iff.mp hnil).2] at hmem

/-- A dead entity is in the hands of its manager. -/
theorem Carries.cleaned (h : c.Carries) (hent : c.ent = some e) (hdead : e.status = .dead)
    (force : Bool) : c.cleanDead force =
      .ok { c with ent := none, managed := false, inactive := 0
                   destroyed := c.destroyed ++ e.txns } := by
  have he := h.kept.ent e hent
  obtain ⟨-, hiq, -, hiff⟩ := h.ent e hent
  have htxns : e.txns = [] := hiff.mp hdead
  have howned : e.owned = true := by
    cases ho : e.owned with
    | true => rfl
    | false => exact absurd ((he.unowned ho).symm.trans hdead) (by simp)
  refine cleanDead_free hent he.counted hdead hiq ?_ (he.managed.trans howned) (.inr ?_)
  · rw [he.inactive, if_pos hdead]
  · rw [he.counted.taskCnt, htxns]
    rfl

/-- What the invariant knows is what the driver promises. -/
theorem Carries.accounted (h : c.Carries) : c.Accounted := by
  refine ⟨h.delivered, ?_, fun hnil => ?_, fun hone => ?_⟩
  · cases hent : c.ent with
    | none =>
      -- the entity is gone, and its transaction with it
      have honce := h.kept.once
      rw [h.created, live, hent, List.append_nil] at honce
      exact .inr (List.singleton_perm.mp honce).symm
    | some e =>
      by_cases htxns : e.txns = []
      · have honce := h.once hent
        rw [htxns, List.append_nil] at honce
        exact .inr honce.symm
      · -- a transaction is registered, and it is the first one
        obtain ⟨x, hx⟩ := List.exists_mem_of_ne_nil _ htxns
        exact .inl (h.registered hent hx).1
  · cases hent : c.ent with
    | none =>
      -- nothing was destroyed, so there is an entity still
      have honce := h.kept.once
      rw [h.created, live, hent, hnil] at honce
      exact absurd honce.length_eq (by simp)
    | some e =>
      obtain ⟨hhalf, hiq, -, hiff⟩ := h.ent e hent
      have htxns : e.txns = [0] := by simpa [hnil] using (h.once hent).symm
      refine ⟨e, rfl, by simp [Entity.live, hhalf, hiq, htxns], fun hdead => ?_⟩
      exact absurd (hiff.mp hdead) (by simp [htxns])
  · cases hent : c.ent with
    | none => exact .inl rfl
    -- the transaction was destroyed, so the entity is dead and can be cleaned
    | some e =>
      obtain ⟨hhalf, hiq, -, hiff⟩ := h.ent e hent
      have htxns : e.txns = [] := by simpa [hone] using (h.once hent).symm
      have hdead : e.status = .dead := hiff.mpr htxns
      refine .inr ⟨e, rfl, hdead, by simp [Entity.live, hhalf, hiq, htxns], ?_, ?_⟩
      · rw [(h.kept.ent e hent).inactive, if_pos hdead]
      · exact ⟨_, h.cleaned hent hdead false, rfl, rfl⟩

/-! ### The steps -/

/-- A shutdown frees an entity that has a manager. -/
theorem Carries.shut (h : c.Carries) (hent : c.ent = some e) (howned : e.owned = true) :
    ∃ c', c.mgrDestroy = .ok c' ∧ c'.ent = none ∧ c'.created = c.created ∧
      c'.delivered = c.delivered := by
  have he := h.kept.ent e hent
  obtain ⟨-, hiq, -⟩ := h.ent e hent
  have hmanaged : c.managed = true := he.managed.trans howned
  have hdel := mgrDel_eq (c := { c with down := true }) hent
  unfold mgrDestroy
  simp only
  rw [if_pos hmanaged, hdel]
  by_cases hdead : e.status = .dead
  · have hone : c.inactive = 1 := by rw [he.inactive, if_pos hdead]
    simp only [if_pos hdead]
    rw [cleanDead_free (c := { c with down := true }) hent he.counted hdead hiq hone hmanaged
      (.inl rfl)]
    exact ⟨_, rfl, rfl, rfl, rfl⟩
  · have hone : c.inactive + 1 = 1 := by rw [he.inactive, if_neg hdead]
    simp only [if_neg hdead]
    rw [cleanDead_free (c := { c with
        down := true, ent := some { e with status := .dead, ud := false }
        inactive := c.inactive + 1 })
      rfl ⟨he.counted.taskCnt, he.counted.single⟩ rfl hiq hone hmanaged (.inl rfl)]
    exact ⟨_, rfl, rfl, rfl, rfl⟩

/-- Finishing the transaction gives the entity to its manager. -/
theorem Carries.finished (h : c.Carries) (hent : c.ent = some e) (howned : e.owned = true)
    (hmem : txn ∈ e.txns) {allComplete : Bool}
    (hx : c.txnLogAndDestroy txn allComplete = .ok c') : c'.Carries := by
  obtain ⟨c₁, hok, hkept⟩ := txnLogAndDestroy_kept h.kept hent howned hmem allComplete
  obtain rfl : c₁ = c' := Except.ok.inj (hok.symm.trans hx)
  cases allComplete with
  | false =>
    obtain rfl : c = c₁ := Except.ok.inj hx
    exact h
  | true =>
    have he := (h.kept.ent e hent).counted
    obtain ⟨hhalf, hiq, hnotxn, hiff⟩ := h.ent e hent
    obtain ⟨-, htxns, rfl⟩ := h.registered hent hmem
    have hcnt : e.taskCnt - 1 = 0 := by
      rw [he.taskCnt, htxns]
      rfl
    have halive : e.status ≠ .dead := fun hdead => by simp [hiff.mp hdead] at hmem
    -- nothing else is queued, so nothing is delivered
    have hdel : c.driverDeliver 1 = .ok (0, c) := by
      rcases driverDeliver_spec hent he with ⟨-, hdel⟩ | ⟨y, iqueue, -, hq, -⟩
      · exact hdel
      · rw [hiq] at hq
        exact absurd hq (by simp)
    rw [txnLogAndDestroy_eq hdel hent he hmem, if_pos ⟨.inr hnotxn, hcnt⟩,
      safeDestroy_owned (e := { e with txns := e.txns.erase 0, taskCnt := e.taskCnt - 1 }) rfl howned,
      mgrDel_eq rfl, if_neg halive] at hx
    obtain rfl := Except.ok.inj hx
    refine ⟨hkept, h.created, h.delivered, fun e' he' => ?_⟩
    rw [← Option.some.inj he']
    exact ⟨hhalf, hiq, hnotxn, by simp [htxns]⟩

/-- Handling the event of the transaction. -/
theorem Carries.ran (h : c.Carries) (hent : c.ent = some e) (hmem : txn ∈ e.txns)
    {outcome : RunOutcome}
    (hwrite : ∀ failed allComplete, outcome ≠ .packed failed true allComplete)
    (hkept : c'.Kept) (hx : c.workflowRun txn outcome = .ok c') : c'.Carries := by
  obtain ⟨hhalf, hiq, hnotxn, hiff⟩ := h.ent e hent
  have hadopt : (c.adopt e).Carries := by
    refine ⟨adopt_kept h.kept hent, h.created, h.delivered, fun e' he' => ?_⟩
    rw [← Option.some.inj he']
    exact ⟨hhalf, hiq, hnotxn, hiff⟩
  simp only [workflowRun, hent, hmem, not_true_eq_false, if_false] at hx
  cases outcome with
  | pending =>
    obtain rfl := Except.ok.inj hx
    exact hadopt
  | next =>
    obtain rfl := Except.ok.inj hx
    exact ⟨hkept, hadopt.created, hadopt.delivered, hadopt.ent⟩
  | destroyed allComplete => exact hadopt.finished rfl rfl hmem hx
  | packed failed writeError allComplete =>
    obtain rfl : writeError = false := by
      cases writeError with
      | false => rfl
      | true => exact absurd rfl (hwrite failed allComplete)
    simp only [modulePack, Bool.false_eq_true, false_and, if_false] at hx
    cases failed with
    | false => exact hadopt.finished rfl rfl hmem hx
    | true =>
      -- `pack` failed: the entity is marked, and then the transaction ends as before
      have halive : e.status ≠ .dead := fun hdead => by simp [hiff.mp hdead] at hmem
      have hmark : ((c.adopt e).mark .inactive).Carries := by
        refine ⟨mark_kept hadopt.kept rfl rfl halive, h.created, h.delivered, fun e' he' => ?_⟩
        rw [← Option.some.inj he']
        refine ⟨hhalf, hiq, hnotxn, ?_⟩
        exact ⟨fun hdead => absurd hdead (by simp), fun hnil => absurd (hiff.mpr hnil) halive⟩
      exact hmark.finished rfl rfl hmem hx

/-- **Step lemma.**  A step that handles no event of a released transaction does not abort, and
    the entity stays accounted for. -/
theorem Carries.step {a : ClientAction} (h : c.Carries) (he : c.datagramEnabled a)
    (hlive : c.HandlesLive a) : ∃ c', c.exec a = .ok c' ∧ c'.Carries := by
  have hdisposable : c.Disposable a := by
    cases a with
    | read arrived consumed => exact absurd he.2 (by simp)
    | error | resume => trivial
    | workflowRun i outcome =>
      obtain ⟨e, txn, hent, hi, hmem⟩ := hlive
      refine ⟨e, txn, hent, hi, hmem, fun _ _ _ hdead => ?_⟩
      simp [(h.ent e hent).2.2.2.mp hdead] at hmem
    | cleanDead => exact fun e hent _ _ => ⟨(h.ent e hent).1, (h.ent e hent).2.1⟩
    | shutdown => exact fun e hent _ => ⟨(h.ent e hent).1, (h.ent e hent).2.1⟩
  obtain ⟨c', hx, hkept⟩ := exec_kept h.kept he.1 hdisposable
  refine ⟨c', hx, ?_⟩
  cases a with
  | read | error => exact absurd he.2 (by simp)
  | resume txn =>
    obtain rfl := Except.ok.inj hx
    exact ⟨hkept, h.created, h.delivered, h.ent⟩
  | workflowRun i outcome =>
    obtain ⟨e, txn, hent, hi, hmem⟩ := hlive
    have hrest : ({ c with runs := c.runs.eraseIdx i } : Client).Carries :=
      ⟨⟨h.kept.once, fun e he => ⟨(h.kept.ent e he).counted, (h.kept.ent e he).managed,
        (h.kept.ent e he).inactive, (h.kept.ent e he).unowned⟩, h.kept.gone⟩, h.created,
        h.delivered, h.ent⟩
    simp only [exec, hi] at hx
    refine hrest.ran hent hmem (fun failed allComplete hc => ?_) hkept hx
    rw [hc] at he
    exact he.2
  | cleanDead =>
    cases hent : c.ent with
    | none =>
      obtain rfl : c = c' := Except.ok.inj ((cleanDead_none (h.kept.gone hent).2).symm.trans hx)
      exact h
    | some e =>
      by_cases hdead : e.status = .dead
      · obtain rfl := Except.ok.inj ((h.cleaned hent hdead false).symm.trans hx)
        exact ⟨hkept, h.created, h.delivered, fun e he => absurd he (by simp)⟩
      · have hzero : c.inactive = 0 := by
          rw [(h.kept.ent e hent).inactive, if_neg hdead]
        obtain rfl : c = c' := Except.ok.inj ((cleanDead_none hzero).symm.trans hx)
        exact h
  | shutdown =>
    cases hent : c.ent with
    | none =>
      have hmanaged : c.managed = false := (h.kept.gone hent).1
      have hsame : c.mgrDestroy = .ok { c with down := true } := by
        simp only [mgrDestroy, hmanaged, Bool.false_eq_true, if_false]
        exact cleanDead_none (h.kept.gone hent).2
      obtain rfl := Except.ok.inj (hsame.symm.trans hx)
      exact ⟨hkept, h.created, h.delivered, h.ent⟩
    | some e =>
      cases howned : e.owned with
      | true =>
        obtain ⟨c₁, hshut, hnone, hcreated, hdelivered⟩ := h.shut hent howned
        obtain rfl := Except.ok.inj (hshut.symm.trans hx)
        exact ⟨hkept, hcreated.trans h.created, hdelivered.trans h.delivered,
          fun e he => by simp [hnone] at he⟩
      | false =>
        -- the event that would give it to a manager is still on its way
        have hk := h.kept.ent e hent
        have hmanaged : c.managed = false := hk.managed.trans howned
        have hzero : c.inactive = 0 := by
          rw [hk.inactive, hk.unowned howned]
          rfl
        have hsame : c.mgrDestroy = .ok { c with down := true } := by
          simp only [mgrDestroy, hmanaged, Bool.false_eq_true, if_false]
          exact cleanDead_none hzero
        obtain rfl := Except.ok.inj (hsame.symm.trans hx)
        exact ⟨hkept, h.created, h.delivered, h.ent⟩

/-- An event of a released transaction aborts. -/
theorem handlesLive_of_ok {a : ClientAction} (he : c.datagramEnabled a)
    (hx : c.exec a = .ok c') : c.HandlesLive a := by
  cases a with
  | workflowRun i outcome =>
    obtain ⟨⟨-, hi⟩, -⟩ := he
    obtain ⟨txn, htxn⟩ : ∃ txn, c.runs[i]? = some txn := ⟨_, List.getElem?_eq_getElem hi⟩
    simp only [exec, htxn, workflowRun] at hx
    split at hx
    · exact absurd hx (by simp)
    · rename_i e hent
      split at hx
      · exact absurd hx (by simp)
      · rename_i hmem
        exact ⟨e, txn, hent, htxn, not_not.mp hmem⟩
  | read | error | resume | cleanDead | shutdown => trivial

/-- **Run lemma.**  In a run that handles no event of a released transaction the entity is
    accounted for, and what handles such an event is all that aborts. -/
theorem Carries.run {c₀ : Client} (h : c₀.Carries) (hr : (datagramMachine c₀).Reach HandlesLive c) :
    c.Accounted ∧ ∀ a, c.datagramEnabled a → ((∃ c', c.exec a = .ok c') ↔ c.HandlesLive a) := by
  have hc : c.Carries := by
    refine hr.invariant (I := Carries) (fun c hc => ?_) fun c a c' hc he hlive hx => ?_
    · obtain rfl : c = c₀ := hc
      exact h
    · obtain ⟨c₁, hok, hc₁⟩ := hc.step he hlive
      obtain rfl := Except.ok.inj (hok.symm.trans hx)
      exact hc₁
  refine ⟨hc.accounted, fun a he => ⟨fun ⟨c', hx⟩ => handlesLive_of_ok he hx, fun hlive => ?_⟩⟩
  obtain ⟨c', hok, -⟩ := hc.step he hlive
  exact ⟨c', hok⟩

/-- The entity of a datagram when its transaction was delivered. -/
def sent (concurrent : Bool) (bytes : List UInt8) (consumed : Int) : Client :=
  { accepted false concurrent true with
    ent := some
      { owned := false, concurrent, halfTxn := none, txns := [0], status := .active
        destroyNotxn := true, taskCnt := 1, iqueue := [], ud := true
        rbuf := bytes.drop consumed.toNat }
    created := 1, runs := [0], delivered := [0], inputs := [(0, bytes)] }

/-- A datagram comes in with its entity. -/
theorem sent_carries (concurrent : Bool) (bytes : List UInt8) (consumed : Int) :
    (sent concurrent bytes consumed).Carries := by
  refine ⟨kept_of_ent rfl (.refl _) ⟨⟨rfl, fun _ => Nat.le_refl 1⟩, rfl, rfl, fun _ => rfl⟩,
    rfl, rfl, fun e he => ?_⟩
  rw [← Option.some.inj he]
  exact ⟨rfl, rfl, rfl, by simp⟩

end Client

/-! ### `_readcb` -/

/-- The entity of a datagram does not leak: `_readcb` goes through, and the entity, if there is
    one, is freed with its transaction before, or exactly one transaction is delivered and the
    entity is accounted for in every run. -/
def NoLeak (concurrent : Bool) (bytes : List UInt8) (consumed : Int) : Prop :=
  ∃ r, udpReadcb concurrent bytes consumed = .ok r ∧ ∀ c, r = some c →
    (c.ent = none ∧ c.destroyed = List.range c.created) ∨
      (c.delivered = [0] ∧ c.runs = [0] ∧
        ∀ c', (Client.datagramMachine c).Reach Client.HandlesLive c' → c'.Accounted ∧
          ∀ a, c'.datagramEnabled a → ((∃ c'', c'.exec a = .ok c'') ↔ c'.HandlesLive a))

variable {concurrent : Bool} {bytes : List UInt8} {consumed : Int}

/-- A request was taken. -/
theorem udpReadcb_pos (hbytes : bytes ≠ []) (hpos : 0 < consumed) :
    udpReadcb concurrent bytes consumed = .ok (some (.sent concurrent bytes consumed)) := by
  have hnot : ¬ consumed < 0 := by omega
  have hne : consumed ≠ 0 := by omega
  cases concurrent <;>
    simp [udpReadcb, hbytes, Client.accepted, Client.driverUnpack, Client.getOrCreateTxn, hne, hnot,
      hpos, Client.driverDeliver, Client.deliverLoop, Entity.idle, Entity.txnadd, Except.map,
      Client.sent]

/-- Nothing was taken: the entity is there, or is freed without its transaction. -/
theorem udpReadcb_nonpos (concurrent : Bool) (hbytes : bytes ≠ []) (hnonpos : consumed ≤ 0) :
    ∃ c, udpReadcb concurrent bytes consumed = .ok (some c) ∧ c.delivered = [] ∧
      c.destroyed = [] ∧ c.created = 1 := by
  rcases Int.lt_or_eq_of_le hnonpos with hneg | rfl
  · have hne : consumed ≠ 0 := by omega
    simp [udpReadcb, hbytes, Client.accepted, Client.driverUnpack, Client.getOrCreateTxn, hne, hneg,
      Client.safeDestroy, Client.mark, Client.entityDestroy, Client.entityFree,
      Client.txnDestroyAll, Except.map]
  · simp [udpReadcb, hbytes, Client.accepted, Client.driverUnpack, Client.getOrCreateTxn]

/-- A datagram of which nothing is consumed leaves its transaction behind. -/
theorem not_noLeak (hbytes : bytes ≠ []) (hnonpos : consumed ≤ 0) :
    ¬ NoLeak concurrent bytes consumed := by
  rintro ⟨r, hr, hleak⟩
  obtain ⟨c, hc, hdelivered, hdestroyed, hcreated⟩ :=
    udpReadcb_nonpos concurrent hbytes hnonpos
  obtain rfl := Except.ok.inj (hc.symm.trans hr)
  rcases hleak c rfl with ⟨-, honce⟩ | ⟨hone, -⟩
  · rw [hdestroyed, hcreated] at honce
    exact absurd honce (by decide)
  · rw [hdelivered] at hone
    exact absurd hone (by decide)

/-- **No datagram leaks** exactly when, for a datagram that is not empty, the unpack function takes
    something. -/
theorem noLeak_iff (concurrent : Bool) (bytes : List UInt8) (consumed : Int) :
    NoLeak concurrent bytes consumed ↔ (bytes ≠ [] → 0 < consumed) := by
  constructor
  · intro hleak hbytes
    by_contra hpos
    exact not_noLeak hbytes (Int.not_lt.mp hpos) hleak
  · intro hpos
    by_cases hbytes : bytes = []
    · exact ⟨none, by rw [udpReadcb, if_pos hbytes], fun c hc => absurd hc (by simp)⟩
    · refine ⟨_, udpReadcb_pos hbytes (hpos hbytes), fun c hc => ?_⟩
      obtain rfl := Option.some.inj hc
      exact .inr ⟨rfl, rfl, fun c' hr => (Client.sent_carries ..).run hr⟩

/-- A datagram of one byte of which the unpack function needs more. -/
theorem partial_leaks : ¬ ∀ (concurrent : Bool) (bytes : List UInt8) (consumed : Int),
    NoLeak concurrent bytes consumed :=
  fun hall => not_noLeak (by decide) (Int.le_refl 0) (hall true [1] 0)

end Skull
