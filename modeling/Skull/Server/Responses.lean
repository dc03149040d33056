import Skull.Server.Handlers
import Skull.Txn.Contain

namespace Skull

open Machines

/-!
# The responses of a connection

What a connection sends is written when the transaction of a request is packed.

* `Conn.Answered` — what holds of the calls of `_module_pack` for a connection;
* `Conn.Answered.step` — a step of the connection keeps it, and `Server.reach_answered` every run;
* `Server.responses_in_order` — a request has one response at most, made of the output of its own
  transaction, and without concurrency the responses come in the order of the requests;
* `Server.all_answered` — when nothing is in flight every delivered request was packed.
-/

/-- The calls of `_module_pack` for the connection `k`, while the requests are `requests`. -/
structure Conn.Answered (conn : Conn) (k : Nat) (requests : List Request) : Prop where
  nodup : (conn.packings.map (·.txn)).Nodup
  delivered : ∀ p ∈ conn.packings, p.txn ∈ conn.client.delivered
  destroyed : ∀ l ∈ conn.client.destroyed, l ∈ conn.packings.map (·.txn)
  serial : conn.concurrent = false → conn.packings.map (·.txn) <+: conn.client.delivered
  responses : ∀ p ∈ conn.packings, ∀ data, p.response = some data →
    conn.workflow.hasPack = true ∧ data ≠ [] ∧
      ∃ q ∈ requests, q.place = (k, p.txn) ∧ data <+: q.output
  prompt : conn.client.Prompt

namespace Server

variable {s s' : Server} {bioCnt : Nat} {C : TxnSystem → TxnAction → Prop} {k : Nat} {conn : Conn}

/-- Outputs that grow keep the responses. -/
theorem Grows.answered (h : Grows s s') (hc : conn.Answered k s.requests) :
    conn.Answered k s'.requests where
  nodup := hc.nodup
  delivered := hc.delivered
  destroyed := hc.destroyed
  serial := hc.serial
  prompt := hc.prompt
  responses p hp data hdata := by
    obtain ⟨hpack, hne, q, hq, hplace, hout⟩ := hc.responses p hp data hdata
    obtain ⟨x, hx⟩ := List.getElem?_of_mem hq
    obtain ⟨q', hx', hplace', hout'⟩ := h x q hx
    exact ⟨hpack, hne, q', List.mem_of_getElem? hx', hplace'.trans hplace, hout.trans hout'⟩

/-- Without concurrency the transaction that runs is the only one that was not destroyed. -/
theorem alone {c : Client} (h : c.Ordered false) {l : TxnId} (hdel : l ∈ c.delivered)
    (hnot : l ∉ c.destroyed) : c.delivered = c.destroyed ++ [l] := by
  obtain ⟨e, hent, hmem⟩ := h.held hdel hnot
  obtain ⟨hl, hconc⟩ := h.ent e hent
  have hlen := hl.counted.single hconc
  have hone : e.txns = [l] := by
    cases htxns : e.txns with
    | nil => exact absurd hmem (by simp [htxns])
    | cons t ts =>
      rw [htxns] at hlen hmem
      obtain rfl : ts = [] := List.length_eq_zero_iff.mp (by simpa using hlen)
      rw [List.mem_singleton.mp hmem]
  rw [hl.serial hconc, hone]

/-- **The next response** is that of the transaction that runs. -/
theorem serial_next {packed destroyed delivered : List TxnId} {l : TxnId}
    (hpre : packed <+: delivered) (hall : ∀ l' ∈ destroyed, l' ∈ packed)
    (hdel : delivered = destroyed ++ [l]) (hnodup : delivered.Nodup) (hnew : l ∉ packed) :
    packed ++ [l] <+: delivered := by
  have hnodup' : destroyed.Nodup := (List.nodup_append.mp (hdel ▸ hnodup)).1
  have hle : destroyed.length ≤ packed.length := (hnodup'.subperm hall).length_le
  have hpre' : packed <+: destroyed := by
    rw [hdel] at hpre
    rcases List.prefix_concat_iff.mp hpre with heq | hpre'
    · exact absurd (heq ▸ List.mem_append_right _ (List.mem_singleton_self l)) hnew
    · exact hpre'
  have hnext : packed ++ [l] = delivered := by
    rw [hpre'.eq_of_length (Nat.le_antisymm hpre'.length_le hle), hdel]
  exact hnext ▸ List.prefix_refl _

/-- **A step of the connection** keeps what is known of its responses. -/
theorem ConnStep.answered {conn' : Conn} {requests : List Request}
    (h : ConnStep k requests conn conn') (hc : conn.Answered k requests)
    (hord : conn.client.Ordered conn.concurrent) : conn'.Answered k requests := by
  cases h with
  | @calm a c inputs taken runs ha he hx hadv =>
    refine ⟨hc.nodup, fun p hp => ?_, fun l hl => ?_, fun hf => ?_, hc.responses,
      Client.exec_prompt hord hc.prompt ha he hx⟩
    · -- what is delivered only grows
      show p.txn ∈ c.delivered
      rw [hadv.delivered]
      exact List.mem_append_left _ (hc.delivered p hp)
    · refine hc.destroyed l ?_
      have hl' : l ∈ c.destroyed := hl
      rwa [hadv.destroyed, List.append_nil] at hl'
    · show _ <+: c.delivered
      rw [hadv.delivered]
      exact (hc.serial hf).trans (List.prefix_append _ _)
  | @ran l how c taken runs packed response he hx hadv hl hpacked hfin hresponse =>
    have hprompt := Client.exec_prompt hord hc.prompt (by simp) he hx
    have hdel : ∀ t ∈ conn.client.delivered, t ∈ c.delivered := fun t ht => by
      rw [hadv.delivered]
      exact List.mem_append_left _ ht
    -- one transaction at most is destroyed
    have hdes : ∀ t ∈ c.destroyed, t ∈ conn.client.destroyed ∨ how.finishes = true ∧ t = l := by
      intro t ht
      rw [hadv.destroyed, List.mem_append] at ht
      refine ht.imp_right fun ht => ?_
      cases hf : how.finishes <;> simp [hf] at ht ⊢
      exact ht
    cases packed with
    -- nothing is packed: only one that was packed before is destroyed
    | false =>
      simp only [Bool.false_eq_true, if_false, List.append_nil]
      refine ⟨hc.nodup, fun p hp => hdel _ (hc.delivered p hp), fun t ht => ?_, fun hf => ?_,
        hc.responses, hprompt⟩
      · rcases hdes t ht with ht | ⟨hf, rfl⟩
        · exact hc.destroyed t ht
        · exact (hfin hf).resolve_left (by simp)
      · show _ <+: c.delivered
        rw [hadv.delivered]
        exact (hc.serial hf).trans (List.prefix_append _ _)
    | true =>
      -- a packing of its own, and the transaction may be destroyed with it
      have hnew := hpacked rfl
      simp only [if_true]
      refine ⟨?_, fun p hp => ?_, fun t ht => ?_, fun hf => ?_, fun p hp data hdata => ?_, hprompt⟩
      · simp only [List.map_append, List.map_cons, List.map_nil]
        exact List.concat_eq_append ▸ hc.nodup.concat hnew
      · rcases List.mem_append.mp hp with hp | hp
        · exact hdel _ (hc.delivered p hp)
        · rw [List.mem_singleton.mp hp]
          exact hdel _ hl.1
      · simp only [List.map_append, List.map_cons, List.map_nil, List.mem_append,
          List.mem_singleton]
        rcases hdes t ht with ht | ⟨-, rfl⟩
        · exact .inl (hc.destroyed t ht)
        · exact .inr rfl
      · -- with one transaction at a time it is the next one that was delivered
        simp only [List.map_append, List.map_cons, List.map_nil]
        show _ <+: c.delivered
        have hord' : conn.client.Ordered false := by
          have hconc : conn.concurrent = false := hf
          rwa [hconc] at hord
        rw [hadv.delivered]
        exact (serial_next (hc.serial hf) hc.destroyed (alone hord' hl.1 hl.2) hord.nodup
          hnew).trans (List.prefix_append _ _)
      · -- the response holds the output of its request
        rcases List.mem_append.mp hp with hp | hp
        · exact hc.responses p hp data hdata
        · rw [List.mem_singleton.mp hp] at hdata ⊢
          obtain ⟨hpack, hne, q, hq, hplace, hout⟩ := hresponse data hdata
          exact ⟨hpack, hne, q, hq, hplace, hout ▸ List.prefix_refl _⟩

/-- The connections, each with its number. -/
def AllAnswered (s : Server) : Prop :=
  ∀ (k : Nat) conn, s.conns[k]? = some conn → conn.Answered k s.requests

/-- **Every step** keeps the responses. -/
theorem Kept.answered (h : Kept bioCnt C s s') (hinv : s.Inv bioCnt C) (hs : s.AllAnswered) :
    s'.AllAnswered := by
  intro k conn hconn
  cases h.stepped with
  -- the requests of a connection only grow
  | aside hconns => exact h.grows.answered (hs k conn (hconns ▸ hconn))
  | @accept owned concurrent destroyNotxn workflow home hconns =>
    rw [hconns] at hconn
    -- a connection that was there, or the new one, which has no request
    by_cases hk : k < s.conns.length
    · exact h.grows.answered (hs k conn ((List.getElem?_append_left hk).symm.trans hconn))
    · rw [List.getElem?_append_right (Nat.not_lt.mp hk), List.getElem?_singleton] at hconn
      split at hconn
      · obtain rfl := Option.some.inj hconn
        refine ⟨by simp, by simp, by simp [Client.accepted], fun _ => by simp, by simp, ?_⟩
        intro e he _
        rw [← Option.some.inj he]
      · exact absurd hconn (by simp)
  | @conn j conn₀ conn' hconn₀ hstep hconns =>
    rw [hconns] at hconn
    -- the connection of the step, or another one
    by_cases hk : k = j
    · subst hk
      rw [List.getElem?_set_self (List.getElem?_eq_some_iff.mp hconn₀).1] at hconn
      obtain rfl := Option.some.inj hconn
      exact hstep.answered (h.grows.answered (hs k conn₀ hconn₀))
        (hinv.conns conn₀ (List.mem_of_getElem? hconn₀)).ordered
    · rw [List.getElem?_set_ne fun he => hk he.symm] at hconn
      exact h.grows.answered (hs k conn hconn)

/-- In every state of every run. -/
theorem reach_answered (h : (machine bioCnt).Reach (Obeys C) s) :
    s.Inv bioCnt C ∧ s.AllAnswered := by
  refine h.invariant (I := fun s => s.Inv bioCnt C ∧ s.AllAnswered)
    (fun s hs => ⟨init_inv hs, fun k conn hconn => ?_⟩) fun _ _ _ hs he hC hx => ?_
  · exact absurd hconn (by simp [hs.2.1])
  · have hkept := hs.1.step he hC hx
    exact ⟨hkept.inv, hkept.answered hs.1 hs.2⟩

/-- **Responses come in order.**  In every state of every run a request was packed once at most, and
    before its transaction was destroyed; a response is what the modules of its own transaction
    appended; and without concurrency the requests were packed in the order in which they came. -/
theorem responses_in_order (h : (machine bioCnt).Reach (Obeys C) s)
    (hconn : s.conns[k]? = some conn) :
    (conn.packings.map (·.txn)).Nodup ∧ (∀ p ∈ conn.packings, p.txn ∈ conn.client.delivered) ∧
      (∀ l ∈ conn.client.destroyed, l ∈ conn.packings.map (·.txn)) ∧
      (∀ p ∈ conn.packings, ∀ data, p.response = some data →
        conn.workflow.hasPack = true ∧ data ≠ [] ∧
          ∃ q ∈ s.requests, q.place = (k, p.txn) ∧ data <+: q.output) ∧
      (conn.concurrent = false → conn.packings.map (·.txn) <+: conn.client.requests) := by
  obtain ⟨hinv, hall⟩ := reach_answered h
  have hc := hall k conn hconn
  have hord := (hinv.conns conn (List.mem_of_getElem? hconn)).ordered
  exact ⟨hc.nodup, hc.delivered, hc.destroyed, hc.responses,
    fun hf => (hc.serial hf).trans hord.delivered_requests⟩

/-- Where nothing is in flight, a delivered request was destroyed. -/
theorem Inv.settled (h : s.Inv bioCnt C) (hnet : s.sys.net = []) (hcalls : s.sys.calls = [])
    (hconn : s.conns[k]? = some conn) {l : TxnId} (hl : l ∈ conn.client.delivered) :
    l ∈ conn.client.destroyed := by
  have hord := (h.conns conn (List.mem_of_getElem? hconn)).ordered
  have hbook : s.books[k]? = some conn.book := books_get hconn
  obtain ⟨x, hx⟩ := List.getElem?_of_mem
    (h.booked.known k conn.book hbook l (hord.delivered_requests.subset hl))
  obtain ⟨b, slot, hb, hslot, hholds⟩ := h.booked.holds x k l hx
  obtain rfl := Option.some.inj (hbook.symm.trans hb)
  exact hholds.released.mp ((TxnSystem.reach_lively h.reach).released
    (TxnSystem.reach_inv h.reach) (TxnSystem.reach_tends h.reach) hnet hcalls hslot
    (hholds.delivered.mpr hl))

/-- **Every request is answered.**  When no message and no call is in flight, the requests that were
    delivered are those that were packed, and those whose transactions were destroyed; without
    concurrency they were packed in the order of delivery.  With concurrency these are all
    requests. -/
theorem all_answered (h : (machine bioCnt).Reach (Obeys C) s) (hnet : s.sys.net = [])
    (hcalls : s.sys.calls = []) (hconn : s.conns[k]? = some conn) :
    (conn.packings.map (·.txn)).Perm conn.client.delivered ∧
      conn.client.destroyed.Perm conn.client.delivered ∧
      (conn.concurrent = false → conn.packings.map (·.txn) = conn.client.delivered) ∧
      (conn.concurrent = true → conn.client.delivered = conn.client.requests) := by
  obtain ⟨hinv, hall⟩ := reach_answered h
  have hc := hall k conn hconn
  have hord := (hinv.conns conn (List.mem_of_getElem? hconn)).ordered
  have hpacked : ∀ l, l ∈ conn.packings.map (·.txn) ↔ l ∈ conn.client.delivered := by
    intro l
    constructor
    · intro hl
      obtain ⟨p, hp, rfl⟩ := List.mem_map.mp hl
      exact hc.delivered p hp
    · exact fun hl => hc.destroyed l (hinv.settled hnet hcalls hconn hl)
  have hperm := (List.perm_ext_iff_of_nodup hc.nodup hord.nodup).mpr hpacked
  refine ⟨hperm, ?_, fun hf => (hc.serial hf).eq_of_length hperm.length_eq, fun hconc => ?_⟩
  · cases hent : conn.client.ent with
    | none => exact (hord.gone hent).2.1.symm
    | some e =>
      have hnil : e.txns = [] := List.eq_nil_iff_forall_not_mem.mpr fun t ht =>
        ((hord.mem_txns hent).mp ht).2
          (hinv.settled hnet hcalls hconn ((hord.mem_txns hent).mp ht).1)
      have hheld := (hord.ent e hent).1.held
      rw [hnil, List.append_nil] at hheld
      exact hheld.symm
  · cases hent : conn.client.ent with
    | none => exact (hord.gone hent).1.symm
    | some e =>
      obtain ⟨hl, hconc'⟩ := hord.ent e hent
      have hqueued := hl.queued
      rw [hc.prompt e hent (hconc'.trans hconc), List.append_nil] at hqueued
      exact hqueued.symm

/-- The first of the two requests has its response. -/
theorem talking_answered : ∃ conn, talking.conns[0]? = some conn ∧
    conn.packings.map (·.txn) <+: conn.client.requests ∧
      conn.packings = [⟨0, some [1, 2]⟩] := by
  obtain ⟨conn, hconn⟩ := Option.isSome_iff_exists.mp
    (show (talking.conns[0]?).isSome = true by decide +kernel)
  have hpack : (talking.conns[0]?).map (·.packings) = some [⟨0, some [1, 2]⟩] := by decide +kernel
  have hconc : (talking.conns[0]?).map (·.concurrent) = some false := by decide +kernel
  obtain ⟨-, -, -, -, hserial⟩ := responses_in_order talking_reach hconn
  exact ⟨conn, hconn, hserial (by simpa [hconn] using hconc), by simpa [hconn] using hpack⟩

/-- Nothing is in flight then, and the second one was not delivered. -/
theorem talking_settled : ∃ conn, talking.conns[0]? = some conn ∧
    conn.packings.map (·.txn) = conn.client.delivered ∧ conn.client.delivered = [0] := by
  obtain ⟨conn, hconn⟩ := Option.isSome_iff_exists.mp
    (show (talking.conns[0]?).isSome = true by decide +kernel)
  have hdel : (talking.conns[0]?).map (·.client.delivered) = some [0] := by decide +kernel
  have hconc : (talking.conns[0]?).map (·.concurrent) = some false := by decide +kernel
  obtain ⟨-, -, hserial, -⟩ :=
    all_answered talking_reach (by decide +kernel) (by decide +kernel) hconn
  exact ⟨conn, hconn, hserial (by simpa [hconn] using hconc), by simpa [hconn] using hdel⟩

end Server

end Skull
