import Skull.Server.Server

namespace Skull

open Machines

/-!
# The books of the connections

A connection and the transactions remember the same things in their own ways: the connection by
lists of the numbers of its requests, a transaction by flags and the messages in flight.  Each step
changes both.

* `Book`, `Conn.book` — the lists of a connection;
* `Book.Holds` — what the list say of a request is so of its transaction;
* `TxnSystem.Booked` — all transactions, each with the connection of its request;
* `Booked.change` — a step that one request sees, with `Booked.alike`, `Booked.resumed`,
  `Booked.ran` and `Booked.delivered` for such steps;
* `Booked.accepted`, `Booked.unpacked` — a new connection, and a new request.
-/

/-- The lists of a connection, and where its transactions run. -/
structure Book where
  workflow : Workflow
  home : Sched
  requests : List TxnId
  delivered : List TxnId
  destroyed : List TxnId
  runs : List TxnId
  packed : List TxnId

/-- The lists of `conn`. -/
def Conn.book (conn : Conn) : Book where
  workflow := conn.workflow
  home := conn.home
  requests := conn.client.requests
  delivered := conn.client.delivered
  destroyed := conn.client.destroyed
  runs := conn.client.runs
  packed := conn.packings.map (·.txn)

namespace Book

variable {b b' : Book} {l : TxnId} {slot slot' : TxnSlot} {n : Nat}

/-- What the book says of the request `l` is so of its transaction, which `n` messages run. -/
structure Holds (b : Book) (l : TxnId) (slot : TxnSlot) (n : Nat) : Prop where
  home : slot.home = b.home
  workflow : slot.txn.workflow = b.workflow
  request : l ∈ b.requests
  delivered : slot.delivered = true ↔ l ∈ b.delivered
  released : slot.released = true ↔ l ∈ b.destroyed
  packed : slot.txn.state = .destroyed ↔ l ∈ b.packed
  runs : b.runs.count l = n

/-- Both say the same of the request `l`. -/
structure Same (b b' : Book) (l : TxnId) : Prop where
  home : b'.home = b.home
  workflow : b'.workflow = b.workflow
  requests : l ∈ b.requests → l ∈ b'.requests
  delivered : l ∈ b'.delivered ↔ l ∈ b.delivered
  destroyed : l ∈ b'.destroyed ↔ l ∈ b.destroyed
  packed : l ∈ b'.packed ↔ l ∈ b.packed
  runs : b'.runs.count l = b.runs.count l

theorem Same.refl (b : Book) (l : TxnId) : b.Same b l :=
  ⟨rfl, rfl, id, Iff.rfl, Iff.rfl, Iff.rfl, rfl⟩

/-- A book that says the same holds for the transaction still. -/
theorem Holds.same (h : b.Holds l slot n) (hb : b.Same b' l) (hs : TxnSystem.Alike slot slot') :
    b'.Holds l slot' n where
  home := by rw [hs.home, h.home, hb.home]
  workflow := by rw [hs.workflow, h.workflow, hb.workflow]
  request := hb.requests h.request
  delivered := by rw [hs.delivered, h.delivered, hb.delivered]
  released := by rw [hs.released, h.released, hb.destroyed]
  packed := by rw [hs.destroyed, h.packed, hb.packed]
  runs := by rw [hb.runs, h.runs]

/-- The other lists have requests only. -/
structure Within (b : Book) : Prop where
  delivered : ∀ l ∈ b.delivered, l ∈ b.requests
  destroyed : ∀ l ∈ b.destroyed, l ∈ b.requests
  runs : ∀ l ∈ b.runs, l ∈ b.requests
  packed : ∀ l ∈ b.packed, l ∈ b.requests

/-- The book after another message that runs `l` was sent. -/
def resume (b : Book) (l : TxnId) : Book := { b with runs := b.runs ++ [l] }

/-- The book after the request `l` was completed. -/
def complete (b : Book) (l : TxnId) : Book := { b with requests := b.requests ++ [l] }

/-- The book after the request `l` was delivered. -/
def deliver (b : Book) (l : TxnId) : Book :=
  { b with delivered := b.delivered ++ [l], runs := b.runs ++ [l] }

/-- The book after a message that runs `l` was handled; `packed` says whether it packed it. -/
def ran (b : Book) (l : TxnId) (how : RunOutcome) (packed : Bool) : Book :=
  { b with
    destroyed := b.destroyed ++ if how.finishes then [l] else []
    runs := b.runs.erase l ++ if how = .next then [l] else []
    packed := b.packed ++ if packed then [l] else [] }

/-- Others do not see this. -/
theorem resume_same {l' : TxnId} (hl : l' ≠ l) : b.Same (b.resume l) l' :=
  ⟨rfl, rfl, id, Iff.rfl, Iff.rfl, Iff.rfl, by simp [resume, hl.symm]⟩

/-- The end of a task is in no other line of the book. -/
theorem complete_same (l' : TxnId) : b.Same (b.complete l) l' :=
  ⟨rfl, rfl, List.mem_append_left _, Iff.rfl, Iff.rfl, Iff.rfl, rfl⟩

/-- A delivery is in its own line. -/
theorem deliver_same {l' : TxnId} (hl : l' ≠ l) : b.Same (b.deliver l) l' :=
  ⟨rfl, rfl, id, by simp [deliver, hl], Iff.rfl, Iff.rfl,
    by simp [deliver, hl.symm]⟩

theorem ran_same {l' : TxnId} (hl : l' ≠ l) (how : RunOutcome) (packed : Bool) :
    b.Same (b.ran l how packed) l' := by
  refine ⟨rfl, rfl, id, Iff.rfl, ?_, ?_, ?_⟩
  · cases hf : how.finishes <;> simp [ran, hf, hl]
  · cases packed <;> simp [ran, hl]
  · have hother : (if how = .next then [l] else []).count l' = 0 := by
      split <;> simp [hl.symm]
    show (b.runs.erase l ++ _).count l' = _
    rw [List.count_append, hother, List.count_erase_of_ne hl, add_zero]

/-- A list of requests, and perhaps one more. -/
theorem mem_append_ite {reqs ls : List TxnId} (h : ∀ l ∈ ls, l ∈ reqs) {l : TxnId} (hl : l ∈ reqs)
    (p : Prop) [Decidable p] : ∀ l' ∈ ls ++ (if p then [l] else []), l' ∈ reqs := by
  intro l' hl'
  rcases List.mem_append.mp hl' with hl' | hl'
  · exact h l' hl'
  · split at hl'
    · exact List.mem_singleton.mp hl' ▸ hl
    · exact absurd hl' (by simp)

/-- What is resumed was requested. -/
theorem Within.resume (h : b.Within) (hl : l ∈ b.requests) : (b.resume l).Within :=
  ⟨h.delivered, h.destroyed, mem_append_ite h.runs hl True, h.packed⟩

/-- What is delivered was requested. -/
theorem Within.deliver (h : b.Within) (hl : l ∈ b.requests) : (b.deliver l).Within :=
  ⟨mem_append_ite h.delivered hl True, h.destroyed, mem_append_ite h.runs hl True, h.packed⟩

/-- What has run was requested. -/
theorem Within.ran (h : b.Within) (hl : l ∈ b.requests) (how : RunOutcome) (packed : Bool) :
    (b.ran l how packed).Within :=
  ⟨h.delivered, mem_append_ite h.destroyed hl _,
    mem_append_ite (fun l' hl' => h.runs l' (List.mem_of_mem_erase hl')) hl _,
    mem_append_ite h.packed hl _⟩

/-- The end of a task adds no line. -/
theorem Within.complete (h : b.Within) (l : TxnId) : (b.complete l).Within :=
  ⟨fun l' hl' => List.mem_append_left _ (h.delivered l' hl'),
    fun l' hl' => List.mem_append_left _ (h.destroyed l' hl'),
    fun l' hl' => List.mem_append_left _ (h.runs l' hl'),
    fun l' hl' => List.mem_append_left _ (h.packed l' hl')⟩

/-- What a handler leaves of the request `l`. -/
theorem Holds.ran {b : Book} {l : TxnId} {slot : TxnSlot} {n : Nat} (h : b.Holds l slot n)
    (hn : 0 < n) {v : TxnEnv} {code : UserCode} {r : TxnRun} (hrel : slot.released = false)
    (hr : TxnRun.workflowRun v code ⟨slot.txn, [], [], false⟩ = .ok r) (failed writeError : Bool) :
    (b.ran l (Server.outcome slot { slot with txn := r.txn, released := r.released } r.sent failed
      writeError) (decide (slot.txn.state ≠ .destroyed ∧ r.txn.state = .destroyed))).Holds l
      { slot with txn := r.txn, released := r.released } (n - 1 + r.turns) := by
  have hworkflow : r.txn.workflow = slot.txn.workflow := (TxnRun.run_did 4 hr).workflow
  have hturned : TxnRun.Turned ⟨slot.txn, [], [], false⟩ r := TxnRun.run_turned 4 hr
  have hmem : l ∈ b.runs := List.count_pos_iff.mp (h.runs ▸ hn)
  have hdes : l ∉ b.destroyed := fun hd => by
    have htrue := h.released.mpr hd
    exact absurd (hrel.symm.trans htrue) (by simp)
  have herase : (b.runs.erase l).count l = n - 1 := by rw [List.count_erase_self, h.runs]
  -- what the handler did, and what the outcome says of it
  obtain ⟨hfin, hnext⟩ : ((Server.outcome slot { slot with txn := r.txn, released := r.released }
        r.sent failed writeError).finishes = r.released) ∧
      (if Server.outcome slot { slot with txn := r.txn, released := r.released } r.sent failed
        writeError = .next then 1 else 0) = r.turns := by
    unfold Server.outcome
    split
    · rename_i hst
      have hst' : r.txn.state = .destroyed := TxnRun.workflowRun_destroyed hst hr
      cases hturned with
      | ended _ turns => exact ⟨rfl, (if_neg (by simp)).trans turns.symm⟩
      | goesOn state => exact absurd hst' state
    · split
      · rename_i hst'
        cases hturned with
        | ended _ turns => exact ⟨rfl, (if_neg (by simp)).trans turns.symm⟩
        | goesOn state => exact absurd hst' state
      · rename_i hst'
        cases hturned with
        | ended state _ => exact absurd state hst'
        | goesOn _ released turns =>
          have hrel' : r.released = false := released
          have hone : r.turns ≤ 1 := turns
          split
          · rename_i hany
            have hpos : 0 < r.turns := List.countP_pos_iff.mpr (List.any_eq_true.mp hany)
            refine ⟨hrel'.symm, ?_⟩
            rw [if_pos rfl]
            omega
          · rename_i hany
            refine ⟨hrel'.symm, ?_⟩
            have hzero : r.turns = 0 := List.countP_eq_zero.mpr fun e he hrun =>
              hany (List.any_eq_true.mpr ⟨e, he, hrun⟩)
            simp [hzero]
  refine ⟨h.home, hworkflow.trans h.workflow, h.request, h.delivered, ?_, ?_, ?_⟩
  · show r.released = true ↔ l ∈ b.destroyed ++ _
    rw [hfin]
    cases hrel' : r.released <;> simp [hdes]
  · show r.txn.state = .destroyed ↔ l ∈ b.packed ++ _
    rw [List.mem_append, ← h.packed]
    by_cases hst : slot.txn.state = .destroyed
    · simp [hst, TxnRun.workflowRun_destroyed hst hr]
    · by_cases hst' : r.txn.state = .destroyed <;> simp [hst, hst']
  · show (b.runs.erase l ++ _).count l = _
    rw [List.count_append, herase, ← hnext]
    split <;> simp

end Book

namespace TxnSystem

variable {s s' : TxnSystem} {bioCnt : Nat} {places : List (Nat × TxnId)} {books : List Book}

/-- The transaction at `x` is that of the request of `places` at `x`, and each connection knows
    what is so of its requests. -/
structure Booked (s : TxnSystem) (places : List (Nat × TxnId)) (books : List Book) : Prop where
  length : places.length = s.txns.length
  nodup : places.Nodup
  holds : ∀ (x : TxnId) k l, places[x]? = some (k, l) →
    ∃ b slot, books[k]? = some b ∧ s.txns[x]? = some slot ∧ b.Holds l slot (s.runs x)
  known : ∀ k b, books[k]? = some b → ∀ l ∈ b.requests, (k, l) ∈ places
  within : ∀ b ∈ books, b.Within

/-- A book is replaced. -/
theorem within_set (h : ∀ b ∈ books, b.Within) {k : Nat} {b : Book} (hb : b.Within) :
    ∀ b' ∈ books.set k b, b'.Within := by
  intro b' hb'
  rcases List.mem_or_eq_of_mem_set hb' with hb' | rfl
  · exact h b' hb'
  · exact hb

/-- Every transaction has its place. -/
theorem Booked.place (h : s.Booked places books) {x : TxnId} {slot : TxnSlot}
    (hslot : s.txns[x]? = some slot) : ∃ k l, places[x]? = some (k, l) := by
  have hlt := (List.getElem?_eq_some_iff.mp hslot).1
  rw [← h.length] at hlt
  exact ⟨_, _, List.getElem?_eq_getElem hlt⟩

/-- **A step that one request sees.** -/
theorem Booked.change (h : s.Booked places books) {x : TxnId} {k : Nat} {l : TxnId} {b b' : Book}
    (hx : places[x]? = some (k, l)) (hb : books[k]? = some b)
    (hlen : s'.txns.length = s.txns.length) (hreq : b'.requests = b.requests) (hin : b'.Within)
    (hself : ∀ slot', s'.txns[x]? = some slot' → b'.Holds l slot' (s'.runs x))
    (hsame : ∀ l', l' ≠ l → b.Same b' l')
    (hother : ∀ y, y ≠ x → s'.runs y = s.runs y ∧ ∀ slot', s'.txns[y]? = some slot' →
      ∃ slot, s.txns[y]? = some slot ∧ Alike slot slot') :
    s'.Booked places (books.set k b') := by
  have hk : k < books.length := (List.getElem?_eq_some_iff.mp hb).1
  refine ⟨h.length.trans hlen.symm, h.nodup, fun y k' l' hy => ?_, fun k' b₀ hb₀ l' hl' => ?_,
    within_set h.within hin⟩
  · obtain ⟨slot', hslot'⟩ : ∃ slot', s'.txns[y]? = some slot' := by
      have hlt := (List.getElem?_eq_some_iff.mp hy).1
      rw [h.length, ← hlen] at hlt
      exact ⟨_, List.getElem?_eq_getElem hlt⟩
    by_cases hyx : y = x
    · subst hyx
      obtain ⟨rfl, rfl⟩ := Prod.mk.inj (Option.some.inj (hx.symm.trans hy))
      exact ⟨b', slot', List.getElem?_set_self hk, hslot', hself slot' hslot'⟩
    · obtain ⟨hruns, hslots⟩ := hother y hyx
      obtain ⟨slot, hslot, halike⟩ := hslots slot' hslot'
      obtain ⟨b₁, slot₁, hb₁, hslot₁, hholds⟩ := h.holds y k' l' hy
      obtain rfl := Option.some.inj (hslot.symm.trans hslot₁)
      rw [hruns]
      by_cases hkk : k' = k
      · subst hkk
        obtain rfl := Option.some.inj (hb.symm.trans hb₁)
        -- another request of the same connection
        have hne : l' ≠ l := by
          rintro rfl
          exact hyx ((List.getElem?_inj (List.getElem?_eq_some_iff.mp hy).1 h.nodup).mp
            (hy.trans hx.symm))
        exact ⟨b', slot', List.getElem?_set_self hk, hslot', hholds.same (hsame l' hne) halike⟩
      · refine ⟨b₁, slot', ?_, hslot', hholds.same (.refl _ _) halike⟩
        rw [List.getElem?_set_ne fun he => hkk he.symm]
        exact hb₁
  · by_cases hkk : k' = k
    · subst hkk
      rw [List.getElem?_set_self hk] at hb₀
      obtain rfl := Option.some.inj hb₀
      exact h.known k' b hb l' (hreq ▸ hl')
    · rw [List.getElem?_set_ne fun he => hkk he.symm] at hb₀
      exact h.known k' b₀ hb₀ l' hl'

/-- **A step that no request sees.** -/
theorem Booked.alike (h : s.Booked places books) (ha : AlikeAll s s')
    (hruns : ∀ x, s'.runs x = s.runs x) : s'.Booked places books := by
  refine ⟨h.length.trans ha.length.symm, h.nodup, fun x k l hx => ?_, h.known, h.within⟩
  obtain ⟨b, slot, hb, hslot, hholds⟩ := h.holds x k l hx
  obtain ⟨slot', hslot'⟩ : ∃ slot', s'.txns[x]? = some slot' := by
    have hlt := (List.getElem?_eq_some_iff.mp hx).1
    rw [h.length, ← ha.length] at hlt
    exact ⟨_, List.getElem?_eq_getElem hlt⟩
  obtain ⟨slot₀, hslot₀, halike⟩ := ha.slot x slot' hslot'
  obtain rfl := Option.some.inj (hslot.symm.trans hslot₀)
  exact ⟨b, slot', hb, hslot', hruns x ▸ hholds.same (.refl _ _) halike⟩

/-- **The master resumes a transaction.** -/
theorem Booked.resumed (h : s.Booked places books) {x : TxnId} {k : Nat} {l : TxnId} {b : Book}
    (hx : places[x]? = some (k, l)) (hb : books[k]? = some b) (ha : AlikeAll s s')
    (hruns : ∀ y, s'.runs y = s.runs y + if y = x then 1 else 0) :
    s'.Booked places (books.set k (b.resume l)) := by
  obtain ⟨b₀, slot, hb₀, hslot, hholds⟩ := h.holds x k l hx
  obtain rfl := Option.some.inj (hb.symm.trans hb₀)
  refine h.change hx hb ha.length rfl ((h.within b (List.mem_of_getElem? hb)).resume hholds.request)
    (fun slot' hslot' => ?_) (fun _ hl => Book.resume_same hl)
    fun y hy => ⟨?_, fun slot' => ha.slot y slot'⟩
  · obtain ⟨slot₀, hslot₀, halike⟩ := ha.slot x slot' hslot'
    obtain rfl := Option.some.inj (hslot.symm.trans hslot₀)
    have hsame := hholds.same (.refl _ _) halike
    exact ⟨hsame.home, hsame.workflow, hsame.request, hsame.delivered, hsame.released, hsame.packed,
      by rw [hruns, if_pos rfl, ← hholds.runs]; simp [Book.resume]⟩
  · rw [hruns, if_neg hy, add_zero]

/-- **A request is delivered.** -/
theorem Booked.delivered (h : s.Booked places books) {x : TxnId} {k : Nat} {l : TxnId} {b : Book}
    (hx : places[x]? = some (k, l)) (hb : books[k]? = some b) {slot : TxnSlot}
    (hslot : s.txns[x]? = some slot) (src : Sched) :
    (({ s with txns := s.txns.modify x fun slot => { slot with delivered := true } } :
      TxnSystem).send ⟨src, slot.home, .inl x, .workflowRun⟩).Booked places
        (books.set k (b.deliver l)) := by
  -- the transaction has its place in one book
  obtain ⟨b₀, slot₀, hb₀, hslot₀, hholds⟩ := h.holds x k l hx
  obtain rfl := Option.some.inj (hb.symm.trans hb₀)
  obtain rfl := Option.some.inj (hslot.symm.trans hslot₀)
  -- one message to run more is in flight for it
  have hruns : ∀ y, ({ s with
      txns := s.txns.modify x fun slot => { slot with delivered := true }
      net := s.net ++ [⟨src, slot.home, .inl x, .workflowRun⟩] } : TxnSystem).runs y =
      s.runs y + if y = x then 1 else 0 := by
    intro y
    refine (runs_sent { s with txns := _ } _ y).trans (congrArg _ ?_)
    by_cases hy : y = x
    · simp [Event.runs, Event.isRun, hy]
    · have hxy : x ≠ y := fun he => hy he.symm
      simp [Event.runs, Event.isRun, hy, hxy]
  refine h.change hx hb (by simp [TxnSystem.send]) rfl
    ((h.within b (List.mem_of_getElem? hb)).deliver hholds.request) (fun slot' hslot' => ?_)
    (fun _ hl => Book.deliver_same hl) fun y hy => ⟨?_, fun slot' hslot' => ?_⟩
  · -- its book says so, too
    simp only [TxnSystem.send, List.getElem?_modify_eq, hslot] at hslot'
    obtain rfl := Option.some.inj hslot'
    refine ⟨hholds.home, hholds.workflow, hholds.request, ?_, hholds.released, hholds.packed, ?_⟩
    · simp [Book.deliver]
    · rw [TxnSystem.send, hruns, if_pos rfl, ← hholds.runs]
      simp [Book.deliver]
  · -- nothing of the others changes
    rw [TxnSystem.send, hruns, if_neg hy, add_zero]
  · simp only [TxnSystem.send, List.getElem?_modify_ne _ _ fun he : x = y => hy he.symm] at hslot'
    exact ⟨slot', hslot', ⟨rfl, rfl, rfl, rfl, Iff.rfl⟩⟩

/-- **A message that runs a workflow is handled.** -/
theorem Booked.ran (h : s.Booked places books) {i : Nat} {e : Event} (hi : s.net[i]? = some e)
    {x : TxnId} (hpto : e.pto = .workflowRun) (howner : e.owner = .inl x) {slot : TxnSlot}
    (hslot : s.txns[x]? = some slot) (hrel : slot.released = false) {code : UserCode} {r : TxnRun}
    (hr : TxnRun.workflowRun ⟨bioCnt, s.services, e.dst, slot.home, x⟩ code
      ⟨slot.txn, [], [], false⟩ = .ok r) {k : Nat} {l : TxnId} (hx : places[x]? = some (k, l))
    {b : Book} (hb : books[k]? = some b) (failed writeError : Bool) :
    (({ s with net := s.net.eraseIdx i } : TxnSystem).commit x r).Booked places
      (books.set k (b.ran l (Server.outcome slot { slot with txn := r.txn, released := r.released }
        r.sent failed writeError)
        (decide (slot.txn.state ≠ .destroyed ∧ r.txn.state = .destroyed)))) := by
  obtain ⟨b₀, slot₀, hb₀, hslot₀, hholds⟩ := h.holds x k l hx
  obtain rfl := Option.some.inj (hb.symm.trans hb₀)
  obtain rfl := Option.some.inj (hslot.symm.trans hslot₀)
  have hruns : e.runs x = true := by simp [Event.runs, Event.isRun, hpto, howner]
  have hpos : 0 < s.runs x := List.countP_pos_iff.mpr ⟨e, List.mem_of_getElem? hi, hruns⟩
  obtain ⟨es, ms, hsent, -, hg⟩ := TxnRun.run_grew _ hr
  simp only [List.nil_append] at hsent
  have howners : ∀ b ∈ r.sent, b.owner = .inl x := fun b hb => (hg.sends b (hsent ▸ hb)).owner
  have htxns := txns_commit (s := { s with net := s.net.eraseIdx i }) hslot r
  refine h.change hx hb (by simp [commit]) rfl
    ((h.within b (List.mem_of_getElem? hb)).ran hholds.request _ _) (fun slot' hslot' => ?_)
    (fun _ hl => Book.ran_same hl _ _) fun y hy => ⟨?_, fun slot' hslot' => ?_⟩
  · rw [htxns, if_pos rfl] at hslot'
    obtain rfl := Option.some.inj hslot'
    rw [runs_commit hi hruns howners, if_pos rfl]
    exact hholds.ran hpos hrel hr failed writeError
  · rw [runs_commit hi hruns howners, if_neg hy]
  · rw [htxns, if_neg hy] at hslot'
    exact ⟨slot', hslot', ⟨rfl, rfl, rfl, rfl, Iff.rfl⟩⟩

/-- **A connection is accepted.** -/
theorem Booked.accepted (h : s.Booked places books) {b : Book} (hb : b.requests = [])
    (hin : b.Within) : s.Booked places (books ++ [b]) := by
  refine ⟨h.length, h.nodup, fun x k l hx => ?_, fun k b₀ hb₀ l hl => ?_, fun b' hb' => ?_⟩
  · obtain ⟨b₁, slot, hb₁, hslot, hholds⟩ := h.holds x k l hx
    have hk : k < books.length := (List.getElem?_eq_some_iff.mp hb₁).1
    exact ⟨b₁, slot, (List.getElem?_append_left hk).trans hb₁, hslot, hholds⟩
  · by_cases hk : k < books.length
    · exact h.known k b₀ ((List.getElem?_append_left hk).symm.trans hb₀) l hl
    · rw [List.getElem?_append_right (Nat.not_lt.mp hk), List.getElem?_singleton] at hb₀
      split at hb₀
      · obtain rfl := Option.some.inj hb₀
        exact absurd hl (by simp [hb])
      · exact absurd hb₀ (by simp)
  · rcases List.mem_append.mp hb' with hb' | hb'
    · exact h.within b' hb'
    · exact List.mem_singleton.mp hb' ▸ hin

/-- **A request is completed**, which makes a transaction. -/
theorem Booked.unpacked (h : s.Booked places books) {k : Nat} {l : TxnId} {b : Book}
    (hb : books[k]? = some b) (hnew : l ∉ b.requests) (hzero : s.runs s.txns.length = 0)
    (start : Int) :
    Booked { s with txns := s.txns ++ [⟨newTxn b.workflow start false, b.home, false, false⟩] }
      (places ++ [(k, l)]) (books.set k (b.complete l)) := by
  have hk : k < books.length := (List.getElem?_eq_some_iff.mp hb).1
  have hin := h.within b (List.mem_of_getElem? hb)
  have hfresh : (k, l) ∉ places := fun hmem => by
    obtain ⟨x, hx⟩ := List.getElem?_of_mem hmem
    obtain ⟨b₀, slot, hb₀, -, hholds⟩ := h.holds x k l hx
    obtain rfl := Option.some.inj (hb.symm.trans hb₀)
    exact hnew hholds.request
  refine ⟨by simp [h.length], ?_, fun x k' l' hx => ?_, fun k' b₀ hb₀ l' hl' => ?_,
    within_set h.within (hin.complete l)⟩
  · exact List.concat_eq_append ▸ h.nodup.concat hfresh
  · have hruns : TxnSystem.runs { s with
        txns := s.txns ++ [⟨newTxn b.workflow start false, b.home, false, false⟩] } x =
        s.runs x := rfl
    rw [hruns]
    by_cases hlt : x < places.length
    · rw [List.getElem?_append_left hlt] at hx
      obtain ⟨b₁, slot, hb₁, hslot, hholds⟩ := h.holds x k' l' hx
      have hlt' : x < s.txns.length := h.length ▸ hlt
      by_cases hkk : k' = k
      · subst hkk
        obtain rfl := Option.some.inj (hb.symm.trans hb₁)
        exact ⟨_, slot, List.getElem?_set_self hk, (List.getElem?_append_left hlt').trans hslot,
          hholds.same (Book.complete_same l') ⟨rfl, rfl, rfl, rfl, Iff.rfl⟩⟩
      · refine ⟨b₁, slot, ?_, (List.getElem?_append_left hlt').trans hslot, hholds⟩
        rw [List.getElem?_set_ne fun he => hkk he.symm]
        exact hb₁
    · -- the new one
      rw [List.getElem?_append_right (Nat.not_lt.mp hlt), List.getElem?_singleton] at hx
      split at hx
      · rename_i hzero'
        obtain ⟨rfl, rfl⟩ := Prod.mk.inj (Option.some.inj hx)
        have hx' : x = places.length :=
          Nat.le_antisymm (Nat.le_of_sub_eq_zero hzero') (Nat.not_lt.mp hlt)
        obtain rfl : x = s.txns.length := hx'.trans h.length
        refine ⟨_, _, List.getElem?_set_self hk, List.getElem?_concat_length, rfl, rfl,
          ?_, ?_, ?_, ?_, ?_⟩
        · exact List.mem_append_right _ (List.mem_singleton_self l)
        · simpa [Book.complete] using fun hl => hnew (hin.delivered l hl)
        · simpa [Book.complete] using fun hl => hnew (hin.destroyed l hl)
        · simpa [Book.complete, newTxn] using fun hl => hnew (hin.packed l hl)
        · exact (List.count_eq_zero.mpr fun hl => hnew (hin.runs l hl)).trans hzero.symm
      · exact absurd hx (by simp)
  · by_cases hkk : k' = k
    · subst hkk
      rw [List.getElem?_set_self hk] at hb₀
      obtain rfl := Option.some.inj hb₀
      rcases List.mem_append.mp hl' with hl' | hl'
      · exact List.mem_append_left _ (h.known k' b hb l' hl')
      · rw [List.mem_singleton.mp hl']
        exact List.mem_append_right _ (List.mem_singleton_self _)
    · rw [List.getElem?_set_ne fun he => hkk he.symm] at hb₀
      exact List.mem_append_left _ (h.known k' b₀ hb₀ l' hl')

end TxnSystem

end Skull
