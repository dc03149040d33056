import Skull.Server.Books

namespace Skull

open Machines

/-!
# The steps of the server

A step of the server is one of the transactions, one of a connection, or one of each; what the
connection completes and delivers are more steps of the transactions.  So the transactions of a
server go their way as `TxnSystem.machine` says, and its connections as `Client.machine` says.

* `Server.unpackedAll`, `Server.deliverAll`, `Server.connRun_spec` — a handler on a connection;
* `Server.ConnStep` — what a step is to a connection;
* `Server.Inv`, `Server.exec_inv` — the parts go their ways and the books agree, which every step
  keeps.
-/

/-- A fault of a part is one of the whole. -/
theorem mapError_ok {ε ε' α : Type} {x : Except ε α} {f : ε → ε'} {a : α} :
    x.mapError f = .ok a ↔ x = .ok a := by
  cases x <;> simp [Except.mapError]

/-- A fault comes from one of the part. -/
theorem mapError_error {ε ε' α : Type} {x : Except ε α} {f : ε → ε'} {fault : ε'} :
    x.mapError f = .error fault ↔ ∃ fault', x = .error fault' ∧ f fault' = fault := by
  cases x <;> simp [Except.mapError]

/-- The connection of a request, and its number there. -/
def Request.place (q : Request) : Nat × TxnId := (q.conn, q.txn)

namespace Server

variable {s s' : Server} {bioCnt : Nat} {C : TxnSystem → TxnAction → Prop}

/-- The requests of the transactions. -/
def places (s : Server) : List (Nat × TxnId) := s.requests.map Request.place

/-- The books of the connections. -/
def books (s : Server) : List Book := s.conns.map Conn.book

/-- The book of a connection. -/
theorem books_get {k : Nat} {conn : Conn} (h : s.conns[k]? = some conn) :
    s.books[k]? = some conn.book := by
  rw [books, List.getElem?_map, h]
  rfl

/-- The place of a request. -/
theorem places_get {x : TxnId} {q : Request} (h : s.requests[x]? = some q) :
    s.places[x]? = some (q.conn, q.txn) := by
  rw [places, List.getElem?_map, h]
  rfl

/-- The transaction of a request has its number. -/
theorem number_get {k : Nat} {l : TxnId} (h : (k, l) ∈ s.places) :
    s.places[s.number k l]? = some (k, l) := by
  obtain ⟨q, hq, hplace⟩ := List.mem_map.mp h
  obtain ⟨hk, hl⟩ := Prod.mk.inj hplace
  have hlt : s.number k l < s.requests.length :=
    List.findIdx_lt_length_of_exists ⟨q, hq, by simp [hk, hl]⟩
  have hself := List.findIdx_getElem (p := fun q : Request => q.conn = k && q.txn = l) (w := hlt)
  simp only [Bool.and_eq_true, decide_eq_true_eq] at hself
  rw [places_get (List.getElem?_eq_getElem hlt)]
  exact congrArg some (Prod.ext hself.1 hself.2)

/-! ### A handler on a connection -/

/-- The transactions go on to `s'` while the connections wait; `C` says of their steps what may
    happen. -/
structure Goes (bioCnt : Nat) (C : TxnSystem → TxnAction → Prop) (s s' : Server) : Prop where
  reach : (TxnSystem.machine bioCnt).Reach C s.sys → (TxnSystem.machine bioCnt).Reach C s'.sys
  conns : s'.conns = s.conns

theorem Goes.refl (s : Server) : Goes bioCnt C s s := ⟨id, rfl⟩

/-- **Requests are completed.** -/
theorem unpackedAll {k : Nat} {conn : Conn} {start : Int}
    (hC : ∀ sys, C sys (.create conn.workflow conn.home start false)) (ls : List TxnId) :
    ∀ {s s' : Server} {books : List Book} {b : Book},
      (TxnSystem.machine bioCnt).Reach C s.sys → s.sys.Booked s.places books →
      books[k]? = some b → b.workflow = conn.workflow → b.home = conn.home →
      (b.requests ++ ls).Nodup → ls.foldlM (unpacked bioCnt k conn start) s = .ok s' →
      s'.sys.Booked s'.places (books.set k { b with requests := b.requests ++ ls }) ∧
        Goes bioCnt C s s' ∧ s'.requests = s.requests ++ ls.map fun l => ⟨k, l, []⟩ := by
  induction ls with
  | nil =>
    intro s s' books b _ hbooked hb _ _ _ hx
    obtain rfl := Except.ok.inj hx
    obtain ⟨hk, rfl⟩ := List.getElem?_eq_some_iff.mp hb
    simp only [List.append_nil, List.map_nil]
    exact ⟨(List.set_getElem_self hk).symm ▸ hbooked, .refl s, trivial⟩
  | cons l ls ih =>
    intro s s' books b hreach hbooked hb hw hhome hnodup hx
    obtain ⟨s₁, h1, h2⟩ := except_bind_ok.mp hx
    obtain rfl := Except.ok.inj h1
    have hk : k < books.length := (List.getElem?_eq_some_iff.mp hb).1
    -- the request is a new one, so its transaction is, too
    have hnew : l ∉ b.requests := fun hl =>
      (List.nodup_append.mp hnodup).2.2 l hl l List.mem_cons_self rfl
    have hzero : s.sys.runs s.sys.txns.length = 0 :=
      TxnSystem.runs_zero (TxnSystem.reach_inv hreach) (le_refl _)
    have hbooked₁ := hbooked.unpacked hb hnew hzero start
    rw [hw, hhome] at hbooked₁
    -- the system makes it, and the condition allows that
    have hreach₁ : (TxnSystem.machine bioCnt).Reach C { s.sys with
        txns := s.sys.txns ++ [⟨TxnSystem.newTxn conn.workflow start false, conn.home, false,
          false⟩] } :=
      .step (a := .create conn.workflow conn.home start false) hreach trivial (hC s.sys) rfl
    have hplaces : places { s with
        sys := { s.sys with
          txns := s.sys.txns ++ [⟨TxnSystem.newTxn conn.workflow start false, conn.home, false,
            false⟩] }
        requests := s.requests ++ [⟨k, l, []⟩] } = s.places ++ [(k, l)] := by
      simp [places, Request.place]
    -- the rest starts with the request in the book
    obtain ⟨hbooked', hgoes, hreq⟩ := ih (b := b.complete l) hreach₁ (hplaces ▸ hbooked₁)
      (List.getElem?_set_self hk) hw hhome (by simpa [Book.complete] using hnodup) h2
    refine ⟨?_, ⟨fun _ => hgoes.reach hreach₁, hgoes.conns⟩, ?_⟩
    · simpa [Book.complete, List.set_set] using hbooked'
    · rw [hreq]
      simp

/-- **Requests are delivered.** -/
theorem deliverAll {k : Nat} {src : Sched} (hC : ∀ sys x, C sys (.deliver x src))
    (ls : List TxnId) :
    ∀ {s s' : Server} {books : List Book} {b : Book},
      (TxnSystem.machine bioCnt).Reach C s.sys → s.sys.Booked s.places books →
      books[k]? = some b → (∀ l ∈ ls, l ∈ b.requests) → (b.delivered ++ ls).Nodup →
      ls.foldlM (deliver bioCnt k src) s = .ok s' →
      s'.sys.Booked s'.places
          (books.set k { b with delivered := b.delivered ++ ls, runs := b.runs ++ ls }) ∧
        Goes bioCnt C s s' ∧ s'.requests = s.requests := by
  induction ls with
  | nil =>
    intro s s' books b _ hbooked hb _ _ hx
    obtain rfl := Except.ok.inj hx
    obtain ⟨hk, rfl⟩ := List.getElem?_eq_some_iff.mp hb
    simp only [List.append_nil]
    exact ⟨(List.set_getElem_self hk).symm ▸ hbooked, .refl s, trivial⟩
  | cons l ls ih =>
    intro s s' books b hreach hbooked hb hmem hnodup hx
    obtain ⟨s₁, h1, h2⟩ := except_bind_ok.mp hx
    have hk : k < books.length := (List.getElem?_eq_some_iff.mp hb).1
    -- the request was not delivered before
    have hnew : l ∉ b.delivered := fun hl =>
      (List.nodup_append.mp hnodup).2.2 l hl l List.mem_cons_self rfl
    have hplace := number_get (hbooked.known k b hb l (hmem l List.mem_cons_self))
    obtain ⟨b₀, slot, hb₀, hslot, hholds⟩ := hbooked.holds _ k l hplace
    obtain rfl := Option.some.inj (hb.symm.trans hb₀)
    have hdel : slot.delivered = false := by
      cases hd : slot.delivered with
      | false => rfl
      | true => exact absurd (hholds.delivered.mp hd) hnew
    have hexec : s.sys.exec bioCnt (.deliver (s.number k l) src) = .ok (({ s.sys with
        txns := s.sys.txns.modify (s.number k l) fun slot => { slot with delivered := true } } :
        TxnSystem).send ⟨src, slot.home, .inl (s.number k l), .workflowRun⟩) := by
      simp only [TxnSystem.exec, hslot]
    rw [deliver, hexec] at h1
    obtain rfl := Except.ok.inj h1
    -- the system delivers it, and the condition allows that
    have hreach₁ := Machine.Reach.step (M := TxnSystem.machine bioCnt)
      (a := .deliver (s.number k l) src) hreach ⟨slot, hslot, hdel⟩ (hC s.sys _) hexec
    obtain ⟨hbooked', hgoes, hreq⟩ := ih (b := b.deliver l) hreach₁
      (hbooked.delivered hplace hb hslot src) (List.getElem?_set_self hk)
      (fun l' hl' => hmem l' (List.mem_cons_of_mem l hl')) (by simpa [Book.deliver] using hnodup) h2
    refine ⟨?_, ⟨fun _ => hgoes.reach hreach₁, hgoes.conns⟩, hreq⟩
    simpa [Book.deliver, List.set_set] using hbooked'

/-- What `C` allows: the transactions of the requests for `workflow`, and deliveries. -/
structure Allows (C : TxnSystem → TxnAction → Prop) (workflow : Workflow) (home : Sched) :
    Prop where
  create : ∀ sys start, C sys (.create workflow home start false)
  deliver : ∀ sys x src, C sys (.deliver x src)

/-- **A handler works on a connection.**  Where the connection ran and destroyed transactions the
    books know it before; they learn what it completed and delivered. -/
theorem connRun_spec {k : Nat} {conn : Conn} {a : ClientAction} {start : Int} {src : Sched}
    {c : Client} (hconn : s.conns[k]? = some conn) (hc : conn.client.exec a = .ok c)
    (hord : c.Ordered conn.concurrent) {inputs : List (TxnId × List UInt8)}
    {taken gone runs : List TxnId} (hadv : conn.client.Advances c inputs taken gone runs)
    (hC : Allows C conn.workflow conn.home) (hreach : (TxnSystem.machine bioCnt).Reach C s.sys)
    (hbooked : s.sys.Booked s.places
      (s.books.set k { conn.book with destroyed := conn.client.destroyed ++ gone, runs }))
    (hx : s.connRun bioCnt k a start src = .ok s') :
    (TxnSystem.machine bioCnt).Reach C s'.sys ∧ s'.sys.Booked s'.places s'.books ∧
      s'.conns = s.conns.set k { conn with client := c } ∧
      s'.requests = s.requests ++ inputs.map fun p => ⟨k, p.1, []⟩ := by
  -- the requests that are new are unpacked first, and then some are delivered
  have hk : k < s.conns.length := (List.getElem?_eq_some_iff.mp hconn).1
  have hreq : c.requests = conn.client.requests ++ inputs.map Prod.fst := by
    simp [Client.requests, hadv.inputs]
  simp only [connRun, hconn, hc, Except.mapError] at hx
  obtain ⟨client, h0, hx⟩ := except_bind_ok.mp hx
  obtain rfl := Except.ok.inj h0
  obtain ⟨s₁, h1, h2⟩ := except_bind_ok.mp hx
  rw [hreq, List.drop_left] at h1
  rw [hadv.delivered, List.drop_left] at h2
  have hnodup : (conn.client.requests ++ inputs.map Prod.fst).Nodup :=
    hreq ▸ hord.rising.imp fun h => Nat.ne_of_lt h
  -- each new request makes a transaction
  obtain ⟨hbooked₁, hgoes₁, hreq₁⟩ := unpackedAll
    (s := { s with conns := s.conns.set k { conn with client := c } }) (hC.create · start) _ hreach
    hbooked (List.getElem?_set_self (by simpa [books] using hk)) rfl rfl hnodup h1
  -- each transaction that starts is delivered
  obtain ⟨hbooked₂, hgoes₂, hreq₂⟩ := deliverAll (hC.deliver · · src) _ (hgoes₁.reach hreach)
    hbooked₁ (List.getElem?_set_self (by simpa [books] using hk)) (fun l hl => by
      rw [Conn.book, ← hreq]
      exact hord.delivered_requests.subset (hadv.delivered ▸ List.mem_append_right _ hl))
    (by simpa only [Conn.book, ← hadv.delivered] using hord.nodup) h2
  have hconns : s'.conns = s.conns.set k { conn with client := c } :=
    hgoes₂.conns.trans hgoes₁.conns
  refine ⟨hgoes₂.reach (hgoes₁.reach hreach), ?_, hconns, ?_⟩
  · -- the book of the connection says the same
    have hbook : Conn.book { conn with client := c } =
        { conn.book with
          requests := conn.client.requests ++ inputs.map Prod.fst
          delivered := conn.client.delivered ++ taken
          destroyed := conn.client.destroyed ++ gone
          runs := runs ++ taken } := by
      simp only [Conn.book, hreq, hadv.delivered, hadv.destroyed, hadv.runs]
    rw [books, hconns, List.map_set, hbook]
    simpa only [List.set_set, books, Conn.book] using hbooked₂
  · rw [hreq₂, hreq₁, List.map_map]
    rfl

/-! ### What a step is to a connection -/

/-- What is known of a connection. -/
structure Tended (C : TxnSystem → TxnAction → Prop) (conn : Conn) : Prop where
  reach : Client.machine.Reach Machine.anyStep conn.client
  ordered : conn.client.Ordered conn.concurrent
  up : conn.client.down = false
  allows : Allows C conn.workflow conn.home

/-- What a step leaves of the connection `k`; the requests are `requests` then. -/
inductive ConnStep (k : Nat) (requests : List Request) (conn : Conn) : Conn → Prop
  /-- No transaction ran. -/
  | calm {a : ClientAction} {c : Client} {inputs : List (TxnId × List UInt8)}
    {taken runs : List TxnId} (ha : a ≠ .shutdown) (he : conn.client.enabled a)
    (hx : conn.client.exec a = .ok c) (hadv : conn.client.Advances c inputs taken [] runs) :
    ConnStep k requests conn { conn with client := c }
  /-- The transaction of the request `l` ran; it may have been packed. -/
  | ran {l : TxnId} {how : RunOutcome} {c : Client} {taken runs : List TxnId} {packed : Bool}
    {response : Option (List UInt8)}
    (he : conn.client.enabled (.workflowRun (conn.client.runs.idxOf l) how))
    (hx : conn.client.exec (.workflowRun (conn.client.runs.idxOf l) how) = .ok c)
    (hadv : conn.client.Advances c [] taken (if how.finishes then [l] else []) runs)
    (hl : l ∈ conn.client.delivered ∧ l ∉ conn.client.destroyed)
    (hpacked : packed = true → l ∉ conn.packings.map (·.txn))
    (hfin : how.finishes = true → packed = true ∨ l ∈ conn.packings.map (·.txn))
    (hresponse : ∀ data, response = some data → conn.workflow.hasPack = true ∧ data ≠ [] ∧
      ∃ q ∈ requests, q.place = (k, l) ∧ q.output = data) :
    ConnStep k requests conn { conn with
      client := c, packings := conn.packings ++ if packed then [⟨l, response⟩] else [] }

/-- No request is lost, and outputs grow. -/
def Grows (s s' : Server) : Prop :=
  ∀ (x : TxnId) q, s.requests[x]? = some q →
    ∃ q', s'.requests[x]? = some q' ∧ q'.place = q.place ∧ q.output <+: q'.output

/-- What a step leaves of the connections. -/
inductive Stepped (s : Server) (s' : Server) : Prop
  | aside (hconns : s'.conns = s.conns)
  | accept {owned concurrent destroyNotxn : Bool} {workflow : Workflow} {home : Sched}
    (hconns : s'.conns = s.conns ++
      [⟨.accepted owned concurrent destroyNotxn, workflow, concurrent, home, []⟩])
  | conn {k : Nat} {conn conn' : Conn} (hconn : s.conns[k]? = some conn)
    (hstep : ConnStep k s'.requests conn conn') (hconns : s'.conns = s.conns.set k conn')

/-- **What every step keeps**: the transactions and the connections go their ways, and the books
    agree. -/
structure Inv (bioCnt : Nat) (C : TxnSystem → TxnAction → Prop) (s : Server) : Prop where
  reach : (TxnSystem.machine bioCnt).Reach C s.sys
  booked : s.sys.Booked s.places s.books
  conns : ∀ conn ∈ s.conns, Tended C conn

/-- What a step does. -/
structure Kept (bioCnt : Nat) (C : TxnSystem → TxnAction → Prop) (s s' : Server) : Prop where
  inv : s'.Inv bioCnt C
  stepped : Stepped s s'
  grows : Grows s s'

theorem Grows.refl (s : Server) : Grows s s := fun _ q hq => ⟨q, hq, rfl, List.prefix_refl _⟩

theorem grows_append {more : List Request} (h : s'.requests = s.requests ++ more) : Grows s s' := by
  intro x q hq
  have hlt : x < s.requests.length := (List.getElem?_eq_some_iff.mp hq).1
  exact ⟨q, by rw [h, List.getElem?_append_left hlt, hq], rfl, List.prefix_refl _⟩

theorem Grows.trans {s'' : Server} (h : Grows s s') (h' : Grows s' s'') : Grows s s'' := by
  intro x q hq
  obtain ⟨q', hq', hplace, hout⟩ := h x q hq
  obtain ⟨q'', hq'', hplace', hout'⟩ := h' x q' hq'
  exact ⟨q'', hq'', hplace'.trans hplace, hout.trans hout'⟩

/-- The output of one request grows. -/
theorem grows_set {x : TxnId} {q q' : Request} (hq : s.requests[x]? = some q)
    (hplace : q'.place = q.place) (hout : q.output <+: q'.output)
    (h : s'.requests = s.requests.set x q') : Grows s s' := by
  intro y p hp
  by_cases hy : y = x
  · subst hy
    obtain rfl := Option.some.inj (hq.symm.trans hp)
    exact ⟨q', by rw [h, List.getElem?_set_self (List.getElem?_eq_some_iff.mp hq).1], hplace, hout⟩
  · exact ⟨p, by rw [h, List.getElem?_set_ne fun he => hy he.symm, hp], rfl, List.prefix_refl _⟩

/-- It stays where it was. -/
theorem places_set {x : TxnId} {q q' : Request} (hq : s.requests[x]? = some q)
    (hplace : q'.place = q.place) : (s.requests.set x q').map Request.place = s.places := by
  rw [List.map_set, hplace]
  have hx : x < (s.requests.map Request.place).length := by
    simpa using (List.getElem?_eq_some_iff.mp hq).1
  refine (congrArg _ ?_).trans (List.set_getElem_self hx)
  simp [(List.getElem?_eq_some_iff.mp hq).2]

/-- A connection is as `C` allows, and the others stay. -/
theorem tended_set (h : ∀ conn ∈ s.conns, Tended C conn) {k : Nat} {conn : Conn}
    (hconn : Tended C conn) : ∀ conn' ∈ s.conns.set k conn, Tended C conn' := by
  intro conn' hconn'
  rcases List.mem_or_eq_of_mem_set hconn' with hconn' | rfl
  · exact h conn' hconn'
  · exact hconn

/-- An action that the connection runs. -/
theorem Tended.step {conn : Conn} (h : Tended C conn) {a : ClientAction} {c : Client}
    (he : conn.client.enabled a) (hx : conn.client.exec a = .ok c)
    (hord : c.Ordered conn.concurrent) (hdown : c.down = conn.client.down)
    (packings : List Packing) : Tended C { conn with client := c, packings } :=
  ⟨.step h.reach he trivial hx, hord, hdown.trans h.up, h.allows⟩

/-! ### Reading, errors and cleaning -/

/-- The connection after an action has the place that it had. -/
theorem connRun_ok {k : Nat} {conn : Conn} {a : ClientAction} {start : Int} {src : Sched}
    (hconn : s.conns[k]? = some conn) (hx : s.connRun bioCnt k a start src = .ok s') :
    ∃ c, conn.client.exec a = .ok c := by
  simp only [connRun, hconn] at hx
  obtain ⟨c, hc, -⟩ := except_bind_ok.mp hx
  exact ⟨c, mapError_ok.mp hc⟩

/-- **Something happens on a connection** while its transactions wait. -/
theorem Inv.connRun (h : s.Inv bioCnt C) {k : Nat} {a : ClientAction} {start : Int} {src : Sched}
    {conn : Conn} (hconn : s.conns[k]? = some conn) (ha : a ≠ .shutdown)
    (he : conn.client.enabled a) {c : Client} (hc : conn.client.exec a = .ok c)
    (hord : c.Ordered conn.concurrent) {inputs : List (TxnId × List UInt8)} {taken : List TxnId}
    (hadv : conn.client.Advances c inputs taken [] conn.client.runs)
    (hx : s.connRun bioCnt k a start src = .ok s') : Kept bioCnt C s s' := by
  have hmem : conn ∈ s.conns := List.mem_of_getElem? hconn
  have hbooks : s.books.set k { conn.book with
      destroyed := conn.client.destroyed ++ [], runs := conn.client.runs } = s.books := by
    have hk : k < s.books.length := by simpa [books] using (List.getElem?_eq_some_iff.mp hconn).1
    rw [List.append_nil]
    refine (congrArg _ ?_).trans (List.set_getElem_self hk)
    simp only [books, List.getElem_map, (List.getElem?_eq_some_iff.mp hconn).2]
    rfl
  obtain ⟨hreach, hbooked, hconns, hreq⟩ := connRun_spec hconn hc hord hadv
    (h.conns conn hmem).allows h.reach (hbooks.symm ▸ h.booked) hx
  refine ⟨⟨hreach, hbooked, hconns ▸ tended_set h.conns ?_⟩, ?_, grows_append hreq⟩
  · exact (h.conns conn hmem).step he hc hord hadv.down conn.packings
  · exact .conn hconn (.calm ha he hc hadv) hconns

end Server

end Skull
