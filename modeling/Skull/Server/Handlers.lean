import Skull.Server.Steps
import Skull.Txn.Completion

namespace Skull

open Machines

/-!
# The handlers of the server

A `SK_PTO_WORKFLOW_RUN` is a step of the transactions and one of a connection, and so is a
`SK_PTO_SVC_TASK_DONE` that resumes a transaction.

* `Server.Inv.ran`, `Server.Inv.resumed` — these two;
* `Server.Inv.step` — every step keeps the books;
* `Server.parts_agree` — so in every run the parts go their ways and agree.
-/

namespace Server

variable {s s' : Server} {bioCnt : Nat} {C : TxnSystem → TxnAction → Prop}

/-- The request of a transaction, its connection and its transaction. -/
theorem Inv.request (h : s.Inv bioCnt C) {x : TxnId} {slot : TxnSlot}
    (hslot : s.sys.txns[x]? = some slot) : ∃ q conn, s.requests[x]? = some q ∧
      s.conns[q.conn]? = some conn ∧ conn.book.Holds q.txn slot (s.sys.runs x) := by
  obtain ⟨k, l, hplace⟩ := h.booked.place hslot
  have hmap : (s.requests[x]?).map Request.place = some (k, l) := by
    rw [← List.getElem?_map]
    exact hplace
  obtain ⟨q, hq, hkl⟩ := Option.map_eq_some_iff.mp hmap
  obtain ⟨rfl, rfl⟩ := Prod.mk.inj hkl
  obtain ⟨b, slot₀, hb, hslot₀, hholds⟩ := h.booked.holds x _ _ hplace
  obtain rfl := Option.some.inj (hslot.symm.trans hslot₀)
  rw [books, List.getElem?_map] at hb
  obtain ⟨conn, hconn, rfl⟩ := Option.map_eq_some_iff.mp hb
  exact ⟨q, conn, hq, hconn, hholds⟩

/-- A message that resumes a transaction finds it delivered. -/
theorem Inv.resumes (h : s.Inv bioCnt C) {e : Event} (he : e ∈ s.sys.net) {x : TxnId}
    (hres : e.resumes x = true) : ∃ slot, s.sys.txns[x]? = some slot ∧ slot.delivered = true := by
  have hpos : 0 < s.sys.resumes x := List.countP_pos_iff.mpr ⟨e, he, hres⟩
  cases hslot : s.sys.txns[x]? with
  | none =>
    have hzero := TxnSystem.resumes_zero (TxnSystem.reach_inv h.reach)
      (List.getElem?_eq_none_iff.mp hslot)
    omega
  | some slot =>
    refine ⟨slot, rfl, ?_⟩
    cases hdel : slot.delivered with
    | true => rfl
    | false =>
      have hzero := (TxnSystem.reach_unheard h.reach x slot hslot hdel).2.2
      omega

/-- A message that runs a transaction finds its connection, which delivered the request and did not
    destroy it. -/
theorem Inv.held (h : s.Inv bioCnt C) {e : Event} (he : e ∈ s.sys.net) (hpto : e.pto = .workflowRun)
    {x : TxnId} (howner : e.owner = .inl x) {slot : TxnSlot} (hslot : s.sys.txns[x]? = some slot)
    (hrel : slot.released = false) : ∃ q conn, s.requests[x]? = some q ∧
      s.conns[q.conn]? = some conn ∧ conn.book.Holds q.txn slot (s.sys.runs x) ∧
      q.txn ∈ conn.client.runs ∧ q.txn ∈ conn.client.delivered ∧ q.txn ∉ conn.client.destroyed := by
  obtain ⟨q, conn, hq, hconn, hholds⟩ := h.request hslot
  have hpos : 0 < s.sys.runs x :=
    List.countP_pos_iff.mpr ⟨e, he, by simp [Event.runs, Event.isRun, hpto, howner]⟩
  obtain ⟨slot₀, hslot₀, hdel⟩ := h.resumes he (x := x) (by
    simp [Event.resumes, Event.isResume, hpto, howner])
  obtain rfl := Option.some.inj (hslot.symm.trans hslot₀)
  refine ⟨q, conn, hq, hconn, hholds, List.count_pos_iff.mp (hholds.runs ▸ hpos),
    hholds.delivered.mp hdel, fun hdes => ?_⟩
  exact absurd (hrel.symm.trans (hholds.released.mpr hdes)) (by simp)

/-- What a handler on a transaction sent. -/
theorem drop_sent {net sent : List Event} {i : Nat} {e : Event} (hi : net[i]? = some e) :
    (net.eraseIdx i ++ sent).drop (net.length - 1) = sent := by
  have hlen : (net.eraseIdx i).length = net.length - 1 :=
    List.length_eraseIdx_of_lt (List.getElem?_eq_some_iff.mp hi).1
  rw [← hlen, List.drop_left]

/-- How the handler of a `SK_PTO_WORKFLOW_RUN` goes on with the connection: the output of the
    request grows, and when the transaction was packed now there may be a response. -/
theorem ran_goesOn (bioCnt : Nat) {old : TxnSystem} {x : TxnId} {q : Request} {conn : Conn}
    {before after : TxnSlot} (hq : s.requests[x]? = some q) (hconn : s.conns[q.conn]? = some conn)
    (hbefore : old.txns[x]? = some before) (hafter : s.sys.txns[x]? = some after) (src : Sched)
    (code : ServerCode) : ∃ output response failed writeError,
      q.output <+: output ∧
      (∀ data, response = some data → conn.workflow.hasPack = true ∧ data ≠ [] ∧ output = data) ∧
      s.ran bioCnt old x src code = connRun bioCnt q.conn
        (.workflowRun (conn.client.runs.idxOf q.txn)
          (outcome before after (s.sys.net.drop (old.net.length - 1)) failed writeError)) 0 src
        { s with
          requests := s.requests.set x { q with output }
          conns := s.conns.set q.conn { conn with
            packings := conn.packings ++
              if decide (before.txn.state ≠ .destroyed ∧ after.txn.state = .destroyed)
              then [⟨q.txn, response⟩] else [] } } := by
  simp only [ran, hq, hconn, hbefore, hafter, decide_eq_true_eq]
  refine ⟨_, _, _, _, ?_, fun data hdata => ?_, rfl⟩
  · rw [List.append_assoc]
    exact List.prefix_append _ _
  · obtain ⟨hall, hdata⟩ := Option.ite_none_right_eq_some.mp hdata
    obtain rfl := Option.some.inj hdata
    exact ⟨hall.1, hall.2.1, rfl⟩

/-- Only a transaction that is destroyed, or was, is finished. -/
theorem outcome_finishes {before after : TxnSlot} {sent : List Event} {failed writeError : Bool}
    (h : (outcome before after sent failed writeError).finishes = true) :
    before.txn.state = .destroyed ∨ after.txn.state = .destroyed := by
  by_contra hnot
  obtain ⟨hst, hst'⟩ := not_or.mp hnot
  simp only [outcome, hst, hst', if_false] at h
  split at h <;> exact absurd h (by simp [RunOutcome.finishes])

/-- What the handler of a `SK_PTO_WORKFLOW_RUN` made of the transaction. -/
theorem handled_run {old sys : TxnSystem} {i : Nat} {e : Event} (hi : old.net[i]? = some e)
    {code : UserCode} {x : TxnId} (hpto : e.pto = .workflowRun) (howner : e.owner = .inl x)
    (hsys : old.exec bioCnt (.handle i code) = .ok sys) : ∃ slot r, old.txns[x]? = some slot ∧
      slot.released = false ∧ TxnRun.workflowRun ⟨bioCnt, old.services, e.dst, slot.home, x⟩ code
        ⟨slot.txn, [], [], false⟩ = .ok r ∧
      sys.txns[x]? = some { slot with txn := r.txn, released := r.released } ∧
      sys = ({ old with net := old.net.eraseIdx i } : TxnSystem).commit x r := by
  simp only [TxnSystem.exec, hi, TxnSystem.handle, hpto] at hsys
  obtain ⟨y, slot, r, hown, hslot, hrel, hr, hcommit⟩ := TxnSystem.onTxn_ok hsys
  obtain rfl := Sum.inl.inj (howner.symm.trans hown)
  refine ⟨slot, r, hslot, hrel, hr, ?_, hcommit⟩
  rw [hcommit, TxnSystem.txns_commit hslot, if_pos rfl]

/-- **A `SK_PTO_WORKFLOW_RUN`.** -/
theorem Inv.ran (h : s.Inv bioCnt C) {i : Nat} {e : Event} (hi : s.sys.net[i]? = some e)
    (hfirst : ∀ e' ∈ s.sys.net.take i, e'.key ≠ e.key) {code : ServerCode}
    (hC : C s.sys (.handle i code.user)) {x : TxnId} (hpto : e.pto = .workflowRun)
    (howner : e.owner = .inl x) {sys : TxnSystem}
    (hsys : s.sys.exec bioCnt (.handle i code.user) = .ok sys)
    (hx : ({ s with sys } : Server).ran bioCnt s.sys x e.dst code = .ok s') :
    Kept bioCnt C s s' := by
  have hreach : (TxnSystem.machine bioCnt).Reach C sys :=
    .step (a := .handle i code.user) h.reach ⟨e, hi, hfirst⟩ hC hsys
  -- the handler of the transaction
  obtain ⟨slot, r, hslot, hrel, hr, hslot', rfl⟩ := handled_run hi hpto howner hsys
  obtain ⟨q, conn, hq, hconn, hholds, hruns, -, -⟩ :=
    h.held (List.mem_of_getElem? hi) hpto howner hslot hrel
  have htend := h.conns conn (List.mem_of_getElem? hconn)
  have hk : q.conn < s.conns.length := (List.getElem?_eq_some_iff.mp hconn).1
  set sys := ({ s.sys with net := s.sys.net.eraseIdx i } : TxnSystem).commit x r with hcommit
  have hsent : sys.net.drop (s.sys.net.length - 1) = r.sent := drop_sent hi
  obtain ⟨output, response, failed, writeError, hout, hresponse, hran⟩ :=
    ran_goesOn (s := { s with sys }) bioCnt hq hconn hslot hslot' e.dst code
  rw [hran, hsent] at hx
  have hbooked := h.booked.ran hi hpto howner hslot hrel hr (places_get hq)
    (b := conn.book) (books_get hconn) failed writeError
  set how :=
    outcome slot { slot with txn := r.txn, released := r.released } r.sent failed writeError
  set packed : Bool := decide (slot.txn.state ≠ .destroyed ∧ r.txn.state = .destroyed) with hpk
  set conn₁ : Conn := { conn with
    packings := conn.packings ++ if packed then [⟨q.txn, response⟩] else [] } with hconn₁
  set s₁ : Server := { s with
    sys
    requests := s.requests.set x { q with output }
    conns := s.conns.set q.conn conn₁ } with hs₁
  -- the connection runs a transaction that it knows
  have hget : s₁.conns[q.conn]? = some conn₁ := List.getElem?_set_self hk
  have he : conn.client.enabled (.workflowRun (conn.client.runs.idxOf q.txn) how) :=
    ⟨by simp [htend.up], List.idxOf_lt_length_of_mem hruns⟩
  obtain ⟨c, hc⟩ := connRun_ok hget hx
  obtain ⟨l, taken, hl, hdel, hnot, hord, hadv⟩ := Client.exec_run htend.ordered he hc
  obtain rfl : q.txn = l := Option.some.inj ((List.getElem?_idxOf hruns).symm.trans hl)
  rw [List.eraseIdx_idxOf_eq_erase] at hadv
  have hplace : Request.place { q with output } = q.place := rfl
  have hplaces : s₁.places = s.places := places_set hq hplace
  have hbooks : s₁.books.set q.conn { conn₁.book with
      destroyed := conn.client.destroyed ++ if how.finishes then [q.txn] else []
      runs := conn.client.runs.erase q.txn ++ if how = .next then [q.txn] else [] } =
      s.books.set q.conn (conn.book.ran q.txn how packed) := by
    rw [hs₁, books, List.map_set, List.set_set]
    refine congrArg _ ?_
    cases hp : packed <;> simp [Book.ran, Conn.book, hconn₁, hp]
  obtain ⟨hreach', hbooked', hconns, hreq⟩ := connRun_spec hget hc hord hadv htend.allows hreach
    (by rw [hplaces, hbooks]; exact hbooked) hx
  have hconns' : s'.conns = s.conns.set q.conn { conn with
      client := c, packings := conn.packings ++ if packed then [⟨q.txn, response⟩] else [] } := by
    rw [hconns, hs₁, List.set_set]
  have hgrows₁ : Grows s s₁ := grows_set hq hplace hout rfl
  have hgrows₂ : Grows s₁ s' := grows_append hreq
  refine ⟨⟨hreach', hbooked', hconns' ▸ tended_set h.conns ?_⟩, ?_, hgrows₁.trans hgrows₂⟩
  · exact htend.step he hc hord hadv.down _
  · refine .conn hconn (.ran he hc hadv ⟨hdel, hnot⟩ (fun hp hmem => ?_) (fun hfin => ?_)
      fun data hdata => ?_) hconns'
    · exact (of_decide_eq_true (hpk ▸ hp)).1 (hholds.packed.mpr hmem)
    · by_cases hst : slot.txn.state = .destroyed
      · exact .inr (hholds.packed.mp hst)
      · have hst' : r.txn.state = .destroyed := (outcome_finishes hfin).resolve_left hst
        exact .inl (hpk.trans (decide_eq_true ⟨hst, hst'⟩))
    · obtain ⟨hpack, hne, hout'⟩ := hresponse data hdata
      have hx₁ : s₁.requests[x]? = some { q with output } :=
        List.getElem?_set_self (List.getElem?_eq_some_iff.mp hq).1
      refine ⟨hpack, hne, { q with output }, ?_, rfl, hout'⟩
      rw [hreq]
      exact List.mem_append_left _ (List.mem_of_getElem? hx₁)

/-- **A `SK_PTO_SVC_TASK_DONE`** that resumes a transaction. -/
theorem Inv.resumed (h : s.Inv bioCnt C) {e : Event} (hmem : e ∈ s.sys.net) {x : TxnId}
    (hres : e.resumes x = true) {sys : TxnSystem}
    (hreach : (TxnSystem.machine bioCnt).Reach C sys) (ha : TxnSystem.AlikeAll s.sys sys)
    (hruns : ∀ y, sys.runs y = s.sys.runs y + if y = x then 1 else 0)
    (hx : ({ s with sys } : Server).resumed bioCnt x e.dst = .ok s') : Kept bioCnt C s s' := by
  obtain ⟨slot, hslot, hdel⟩ := h.resumes hmem hres
  obtain ⟨q, conn, hq, hconn, hholds⟩ := h.request hslot
  have htend := h.conns conn (List.mem_of_getElem? hconn)
  have hbooked := h.booked.resumed (places_get hq) (b := conn.book) (books_get hconn) ha hruns
  simp only [Server.resumed, hq] at hx
  have he : conn.client.enabled (.resume q.txn) := ⟨by simp [htend.up], hholds.delivered.mp hdel⟩
  obtain ⟨c, hc⟩ := connRun_ok (s := { s with sys }) hconn hx
  obtain ⟨hord, hadv⟩ := Client.exec_resume htend.ordered hc
  have hbook : { conn.book with
      destroyed := conn.client.destroyed ++ [], runs := conn.client.runs ++ [q.txn] } =
      conn.book.resume q.txn := by
    rw [List.append_nil]
    rfl
  obtain ⟨hreach', hbooked', hconns, hreq⟩ := connRun_spec (s := { s with sys }) hconn hc hord hadv
    htend.allows hreach (hbook ▸ hbooked) hx
  refine ⟨⟨hreach', hbooked', hconns ▸ tended_set h.conns ?_⟩, ?_, grows_append hreq⟩
  · exact htend.step he hc hord hadv.down conn.packings
  · exact .conn hconn (.calm (by simp) he hc hadv) hconns

/-- **The transactions go on** without the connections. -/
theorem Inv.aside (h : s.Inv bioCnt C) {sys : TxnSystem}
    (hreach : (TxnSystem.machine bioCnt).Reach C sys) (ha : TxnSystem.AlikeAll s.sys sys)
    (hruns : ∀ y, sys.runs y = s.sys.runs y) : Kept bioCnt C s { s with sys } :=
  ⟨⟨hreach, h.booked.alike ha hruns, h.conns⟩, .aside rfl, .refl s⟩

/-- The callback of a task only writes to the output. -/
theorem Kept.calledBack (h : Kept bioCnt C s s') (old : TxnSystem) (t : TaskRef)
    (status : TaskStatus) (code : ServerCode) (hconns : s'.conns = s.conns) :
    Kept bioCnt C s (s'.calledBack old t status code) := by
  unfold Server.calledBack
  split
  · -- a callback appends to the output of the request of its task, and to no other
    have hget : ∀ (x : TxnId) q, s'.requests[x]? = some q →
        ∃ q', (s'.requests.modify t.txn fun q => { q with output := q.output ++ code.run })[x]? =
          some q' ∧ q'.place = q.place ∧ q.output <+: q'.output := by
      intro x q hq
      by_cases hx : x = t.txn
      · subst hx
        exact ⟨{ q with output := q.output ++ code.run },
          by rw [List.getElem?_modify_eq, hq]; rfl, rfl, List.prefix_append _ _⟩
      · refine ⟨q, ?_, rfl, List.prefix_refl _⟩
        rw [List.getElem?_modify_ne _ _ fun he => hx he.symm, hq]
    -- the places of the requests stay
    have hplaces : (s'.requests.modify t.txn fun q => { q with output := q.output ++ code.run }).map
        Request.place = s'.places := by
      refine List.ext_getElem? fun x => ?_
      rw [places, List.getElem?_map, List.getElem?_map]
      cases hq : s'.requests[x]? with
      | none =>
        rw [List.getElem?_eq_none_iff.mpr (by simpa using List.getElem?_eq_none_iff.mp hq)]
      | some q =>
        obtain ⟨q', hq', hplace, -⟩ := hget x q hq
        rw [hq', Option.map_some, Option.map_some, hplace]
    refine ⟨⟨h.inv.reach, ?_, h.inv.conns⟩, .aside hconns, h.grows.trans hget⟩
    show s'.sys.Booked (List.map _ _) s'.books
    rw [hplaces]
    exact h.inv.booked
  · exact h

/-- **A message is handled.** -/
theorem Inv.handle (h : s.Inv bioCnt C) {i : Nat} {code : ServerCode}
    (he : s.sys.enabled bioCnt (.handle i code.user)) (hC : C s.sys (.handle i code.user))
    (hx : s.handle bioCnt i code = .ok s') : Kept bioCnt C s s' := by
  obtain ⟨e, hi, hfirst⟩ := he
  rw [Option.mem_def] at hi
  have hmem := List.mem_of_getElem? hi
  simp only [Server.handle, hi] at hx
  obtain ⟨sys, h1, hx⟩ := except_bind_ok.mp hx
  have hsys := mapError_ok.mp h1
  have hreach : (TxnSystem.machine bioCnt).Reach C sys :=
    .step (a := .handle i code.user) h.reach ⟨e, hi, hfirst⟩ hC hsys
  by_cases hrun : e.isRun = true
  · -- the workflow runs
    have hpto : e.pto = .workflowRun := by simpa [Event.isRun] using hrun
    cases howner : e.owner with
    | inr entity =>
      simp [TxnSystem.exec, hi, TxnSystem.handle, hpto, TxnSystem.onTxn, howner] at hsys
    | inl x =>
      simp only [follow, howner, hpto] at hx
      exact h.ran hi hfirst hC hpto howner hsys hx
  · have hrun' : e.isRun = false := by simpa using hrun
    have hhandle : ({ s.sys with net := s.sys.net.eraseIdx i } : TxnSystem).handle bioCnt e
        code.user = .ok sys := by
      simpa only [TxnSystem.exec, hi] using hsys
    have ha := TxnSystem.handle_alike (TxnSystem.reach_inv h.reach) hi hfirst hrun' hhandle
    have hruns := TxnSystem.handle_runs hi hrun' hhandle
    by_cases hres : ∃ x, e.resumes x = true
    · -- the master resumes a transaction
      obtain ⟨x, hres⟩ := hres
      obtain ⟨hresume, howner⟩ : e.isResume = true ∧ e.owner = .inl x := by
        simpa [Event.resumes] using hres
      have hone : ∀ y, sys.runs y = s.sys.runs y + if y = x then 1 else 0 := by
        intro y
        rw [hruns]
        by_cases hy : y = x
        · simp [hy, hres]
        · have hxy : x ≠ y := fun he => hy he.symm
          simp [Event.resumes, howner, hy, hxy]
      cases hpto : e.pto with
      | svcTaskDone service resumeWf done =>
        obtain rfl : resumeWf = true := by simpa [Event.isResume, hpto] using hresume
        simp only [follow, howner, hpto] at hx
        exact h.resumed hmem hres hreach ha hone hx
      | workflowRun => exact absurd hrun' (by simp [Event.isRun, hpto])
      | _ => exact absurd hresume (by simp [Event.isResume, hpto])
    · -- no transaction is resumed
      have hnone : ∀ y, sys.runs y = s.sys.runs y := by
        intro y
        have hy : e.resumes y = false := by simpa using fun hy => hres ⟨y, hy⟩
        rw [hruns, hy, Bool.toNat_false, add_zero]
      have haside := h.aside hreach ha hnone
      unfold follow at hx
      split at hx
      · rename_i hpto
        exact absurd hrun' (by simp [Event.isRun, hpto])
      · rename_i x service done howner hpto
        exact absurd ⟨x, by simp [Event.resumes, Event.isResume, howner, hpto]⟩ hres
      · rw [← Except.ok.inj hx]
        exact haside.calledBack _ _ _ _ rfl
      · rw [← Except.ok.inj hx]
        exact haside

/-! ### Every step -/

/-- The condition `C` on the steps of the transactions, as one on the steps of the server. -/
def Obeys (C : TxnSystem → TxnAction → Prop) (s : Server) : ServerAction → Prop
  | .accept _ _ _ workflow home => Allows C workflow home
  | .handle i code => C s.sys (.handle i code.user)
  | .service a => C s.sys a
  | .read .. | .error _ | .cleanDead _ => True

/-- **Every step** keeps the books. -/
theorem Inv.step (h : s.Inv bioCnt C) {a : ServerAction} (he : s.enabled bioCnt a)
    (hC : Obeys C s a) (hx : s.exec bioCnt a = .ok s') : Kept bioCnt C s s' := by
  cases a with
  | accept owned concurrent destroyNotxn workflow home =>
    obtain rfl := Except.ok.inj hx
    refine ⟨⟨h.reach, ?_, fun conn hconn => ?_⟩, .accept rfl, .refl s⟩
    · -- the new connection has an empty book
      have hbooked := h.booked.accepted (b := Conn.book
        ⟨.accepted owned concurrent destroyNotxn, workflow, concurrent, home, []⟩) rfl
        ⟨by simp [Conn.book, Client.accepted], by simp [Conn.book, Client.accepted],
          by simp [Conn.book, Client.accepted], by simp [Conn.book]⟩
      show s.sys.Booked s.places (List.map Conn.book (s.conns ++ _))
      rw [List.map_append]
      exact hbooked
    · rcases List.mem_append.mp hconn with hconn | hconn
      · exact h.conns conn hconn
      · rw [List.mem_singleton.mp hconn]
        exact ⟨.init ⟨owned, concurrent, destroyNotxn, rfl⟩, Client.accepted_ordered _ _ _, rfl, hC⟩
  -- the bytes that arrive make requests, and some of them start
  | read k arrived consumed start src =>
    obtain ⟨conn, hconn, he⟩ := he
    rw [Option.mem_def] at hconn
    have htend := h.conns conn (List.mem_of_getElem? hconn)
    obtain ⟨c, hc⟩ := connRun_ok hconn hx
    obtain ⟨hord, inputs, taken, hadv⟩ := Client.exec_read htend.ordered he hc
    exact h.connRun hconn (by simp) he hc hord hadv hx
  -- an error destroys the connection or leaves it to its last transaction
  | error k =>
    obtain ⟨conn, hconn, he⟩ := he
    rw [Option.mem_def] at hconn
    have htend := h.conns conn (List.mem_of_getElem? hconn)
    obtain ⟨c, hc⟩ := connRun_ok hconn hx
    obtain ⟨hord, hadv⟩ := Client.exec_quits htend.ordered (.inl rfl) he hc
    exact h.connRun hconn (by simp) he hc hord hadv hx
  | cleanDead k =>
    obtain ⟨conn, hconn, he⟩ := he
    rw [Option.mem_def] at hconn
    have htend := h.conns conn (List.mem_of_getElem? hconn)
    obtain ⟨c, hc⟩ := connRun_ok hconn hx
    obtain ⟨hord, hadv⟩ := Client.exec_quits htend.ordered (.inr rfl) he hc
    exact h.connRun hconn (by simp) he hc hord hadv hx
  -- the two sides meet in the messages, which have a lemma of their own
  | handle i code => exact h.handle he hC hx
  -- what comes from outside touches no connection
  | service a =>
    obtain ⟨sys, h1, rfl⟩ := except_map_ok.mp hx
    have hsys := mapError_ok.mp h1
    obtain ⟨ha, hruns⟩ := TxnSystem.exec_external he.1 he.2 hsys
    exact h.aside (.step h.reach he.2 hC hsys) ha hruns

theorem init_inv (h : (machine bioCnt).init s) : s.Inv bioCnt C := by
  obtain ⟨hsys, hconns, hreq⟩ := h
  refine ⟨.init hsys, ⟨?_, ?_, fun x k l hx => ?_, fun k b hb => ?_, ?_⟩, ?_⟩
  · rw [places, hreq, hsys.2.1]
    rfl
  · simp [places, hreq]
  · exact absurd hx (by simp [places, hreq])
  · exact absurd hb (by simp [books, hconns])
  · simp [books, hconns]
  · simp [hconns]

/-- In every state of every run. -/
theorem reach_inv (h : (machine bioCnt).Reach (Obeys C) s) : s.Inv bioCnt C :=
  h.invariant (I := Inv bioCnt C) (fun _ hs => init_inv hs) fun _ _ _ hs he hC hx =>
    (hs.step he hC hx).inv

/-- **The parts agree.**  In every state of every run the transactions and each connection have gone
    their own ways, and each transaction is that of one request: the connection knows whether it was
    delivered, packed and destroyed, and which messages run it.  A transaction that was delivered
    and not released has its entity, which holds it. -/
theorem parts_agree (h : (machine bioCnt).Reach (Obeys C) s) :
    (TxnSystem.machine bioCnt).Reach C s.sys ∧
      (∀ conn ∈ s.conns, Client.machine.Reach Machine.anyStep conn.client) ∧
      (∀ (x : TxnId) slot, s.sys.txns[x]? = some slot → ∃ q conn, s.requests[x]? = some q ∧
        s.conns[q.conn]? = some conn ∧ conn.book.Holds q.txn slot (s.sys.runs x) ∧
        (slot.delivered = true → slot.released = false →
          ∃ e, conn.client.ent = some e ∧ q.txn ∈ e.txns)) ∧
      s.places.Nodup ∧
      ∀ k conn, s.conns[k]? = some conn → ∀ l ∈ conn.client.requests, (k, l) ∈ s.places := by
  have hinv := reach_inv h
  refine ⟨hinv.reach, fun conn hconn => (hinv.conns conn hconn).reach, fun x slot hslot => ?_,
    hinv.booked.nodup, fun k conn hconn => ?_⟩
  · obtain ⟨q, conn, hq, hconn, hholds⟩ := hinv.request hslot
    refine ⟨q, conn, hq, hconn, hholds, fun hdel hrel => ?_⟩
    refine (hinv.conns conn (List.mem_of_getElem? hconn)).ordered.held (hholds.delivered.mp hdel)
      fun hdes => ?_
    exact absurd (hrel.symm.trans (hholds.released.mpr hdes)) (by simp)
  · exact hinv.booked.known k conn.book (books_get hconn)

/-! A connection without concurrency sends two requests; the first one is answered. -/

/-- User code that only writes. -/
def answering : ServerCode := ⟨TxnSystem.quiet, [1], [2], false⟩

/-- The connection is accepted, sends two requests, and the message for the first one is handled. -/
def conversation : List ServerAction :=
  [.accept true false false ⟨1, true, 0⟩ (.worker 0), .read 0 (some [1]) 1 0 (.worker 0),
    .read 0 (some [2]) 1 0 (.worker 0), .handle 0 answering]

/-- A server without connections. -/
def idle : Server := ⟨TxnSystem.fresh, [], []⟩

/-- The server after the conversation. -/
def talking : Server := (machine 0).final idle conversation

theorem talking_reach : (machine 0).Reach (Obeys Machine.anyStep) talking := by
  have hobeys : ∀ a ∈ conversation, ∀ s, Obeys Machine.anyStep s a := by
    intro a _ s
    cases a with
    | accept => exact ⟨fun _ _ => trivial, fun _ _ _ => trivial⟩
    | read | error | cleanDead | handle | service => trivial
  have hidle : (machine 0).init idle := ⟨TxnSystem.fresh_init, rfl, rfl⟩
  exact Machine.final_reach (.init hidle) conversation (Machine.trace_meets hobeys idle)

/-- Both requests have their transactions. -/
theorem talking_agrees :
    talking.places.Nodup ∧ (0, 0) ∈ talking.places ∧ (0, 1) ∈ talking.places := by
  obtain ⟨-, -, -, hnodup, hknown⟩ := parts_agree talking_reach
  obtain ⟨conn, hconn⟩ := Option.isSome_iff_exists.mp
    (show (talking.conns[0]?).isSome = true by decide +kernel)
  have hreq : (talking.conns[0]?).map (·.client.requests) = some [0, 1] := by decide +kernel
  have hreq' : conn.client.requests = [0, 1] := by simpa [hconn] using hreq
  exact ⟨hnodup, hknown 0 conn hconn 0 (by simp [hreq']), hknown 0 conn hconn 1 (by simp [hreq'])⟩

end Server

end Skull
