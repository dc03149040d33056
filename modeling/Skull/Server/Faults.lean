import Skull.Server.Handlers
import Skull.Entity.Cleanup
import Skull.Txn.Aborts

namespace Skull

open Machines

/-!
# What makes the server abort

Connections break while their transactions run, and entities go when they have none.  A message
about a transaction finds its entity all the same:

* `Client.exec_read_total`, `Client.exec_error_total`, `Client.exec_run_total` — what never aborts
  on a connection;
* `Server.Faults` — what aborts: a handler of a transaction, or the manager that cleans up;
* `Server.faults_iff` — a step aborts exactly then.
-/

namespace Client

variable {c : Client} {e : Entity} {concurrent : Bool}

/-- An owned entity goes to its manager. -/
theorem safeDestroy_total (hent : c.ent = some e) (howned : e.owned = true) :
    ∃ c', c.safeDestroy = .ok c' := ⟨_, by rw [safeDestroy_owned hent howned, mgrDel_eq hent]⟩

/-- One that was not read before goes at once. -/
theorem safeDestroy_fresh (hent : c.ent = some e) (howned : e.owned = false) (htxns : e.txns = [])
    (hiq : e.iqueue = []) : ∃ c', c.safeDestroy = .ok c' := by
  simp [safeDestroy, hent, howned, mark, entityDestroy, entityFree, htxns, hiq, txnDestroyAll,
    Except.map]

/-- Delivering aborts nowhere. -/
theorem driverDeliver_total (hent : c.ent = some e) (he : e.Counted) :
    ∃ r, c.driverDeliver 1 = .ok r := by
  rcases driverDeliver_spec hent he with ⟨-, hdel⟩ | ⟨txn, iqueue, -, -, hdel⟩
  · exact ⟨_, hdel⟩
  · exact ⟨_, hdel⟩

/-- **Reading** never aborts. -/
theorem exec_read_total (h : c.Ordered concurrent) {arrived : Option (List UInt8)} {consumed : Int}
    (he : c.enabled (.read arrived consumed)) : ∃ c', c.exec (.read arrived consumed) = .ok c' := by
  cases hent : c.ent with
  | none => exact absurd he.2.1 (by simp [hent])
  | some e =>
    obtain ⟨hl, -⟩ := h.ent e hent
    simp only [exec, readCb, hent]
    split
    · exact ⟨_, rfl⟩
    · rcases driverUnpack_spec c e arrived consumed with hu | ⟨bytes, -, -, hu | hu | hu⟩
      · exact ⟨c, by simp [hu]⟩
      · exact ⟨_, by simp only [hu.2]; rfl⟩
      · -- the data are rejected
        obtain ⟨hneg, hu⟩ := hu
        have hgone : ∃ c', (c.withHalf e (e.rbuf ++ bytes)).safeDestroy = .ok c' := by
          cases howned : e.owned with
          | true => exact safeDestroy_total rfl howned
          | false =>
            have hzero : c.created = 0 := by simpa [hent, howned] using he.2.2
            have hreq : c.requests = [] := List.eq_nil_iff_forall_not_mem.mpr fun t ht =>
              Nat.not_lt_zero t (hzero ▸ h.below t ht)
            have hiq : e.iqueue = [] := (List.append_eq_nil_iff.mp (hl.queued.symm.trans hreq)).2
            have htxns := h.untouched hent hzero
            exact safeDestroy_fresh rfl howned htxns hiq
        obtain ⟨c', hc'⟩ := hgone
        exact ⟨c', by simp [hu, hc', Except.map]⟩
      · obtain ⟨hpos, hu⟩ := hu
        have hqueued := withQueued_ordered h hent (e.rbuf ++ bytes) consumed
        obtain ⟨r, hr⟩ := driverDeliver_total (c := c.withQueued e (e.rbuf ++ bytes) consumed) rfl
          (hqueued.ent _ rfl).1.counted
        exact ⟨r.2, by simp [hu, hpos, hr, Except.map]⟩

/-- **An error** of the connection never aborts. -/
theorem exec_error_total (he : c.enabled .error) : ∃ c', c.exec .error = .ok c' := by
  cases hent : c.ent with
  | none => exact absurd he.2.1 (by simp [hent])
  | some e => exact safeDestroy_total hent (by simpa [hent] using he.2.2)

/-- Packing an owned entity. -/
theorem modulePack_total (hent : c.ent = some e) (howned : e.owned = true)
    (failed writeError : Bool) : ∃ c', c.modulePack failed writeError = .ok c' := by
  obtain ⟨e₁, hent₁, howned₁⟩ :
      ∃ e₁, (if failed then c.mark .inactive else c).ent = some e₁ ∧ e₁.owned = true := by
    cases failed with
    | true => exact ⟨{ e with status := .inactive }, by simp [mark, hent], howned⟩
    | false => exact ⟨e, hent, howned⟩
  unfold modulePack
  generalize (if failed then c.mark .inactive else c) = c₁ at hent₁ ⊢
  simp only
  split
  · exact safeDestroy_total hent₁ howned₁
  · exact ⟨_, rfl⟩

theorem txnLogAndDestroy_total (h : c.Ordered concurrent) (hent : c.ent = some e)
    (howned : e.owned = true) {txn : TxnId} (htxn : txn ∈ e.txns) (allComplete : Bool) :
    ∃ c', c.txnLogAndDestroy txn allComplete = .ok c' := by
  cases allComplete with
  | false => exact ⟨c, by simp [txnLogAndDestroy]⟩
  | true =>
    obtain ⟨⟨n, c₁⟩, hdel⟩ := driverDeliver_total hent (h.ent e hent).1.counted
    obtain ⟨h₁, taken, e₁, -, hent₁, heq₁⟩ := driverDeliver_ordered h hent hdel
    have htxn₁ : txn ∈ e₁.txns := by
      rw [heq₁]
      exact List.mem_append_left _ htxn
    have howned₁ : e₁.owned = true := by
      rw [heq₁]
      exact howned
    rw [txnLogAndDestroy_eq hdel hent₁ (h₁.ent e₁ hent₁).1.counted htxn₁]
    split
    · exact safeDestroy_total rfl howned₁
    · exact ⟨_, rfl⟩

/-- **Running a transaction** that the entity holds never aborts. -/
theorem exec_run_total (h : c.Ordered concurrent) {i : Nat} {txn : TxnId}
    (hi : c.runs[i]? = some txn) (hdel : txn ∈ c.delivered) (hnot : txn ∉ c.destroyed) (outcome : RunOutcome) :
    ∃ c', c.exec (.workflowRun i outcome) = .ok c' := by
  obtain ⟨e, hent, hmem⟩ := h.held hdel hnot
  simp only [exec, hi]
  set c₀ : Client := { c with runs := c.runs.eraseIdx i } with hc₀
  have hent₀ : c₀.ent = some e := hent
  have h₁ := (adopt_quits hent₀).ordered (h.withRuns (c.runs.eraseIdx i))
  simp only [workflowRun, hent₀, hmem, not_true_eq_false, if_false]
  cases outcome with
  | pending => exact ⟨_, rfl⟩
  | next => exact ⟨_, rfl⟩
  | destroyed allComplete => exact txnLogAndDestroy_total h₁ rfl rfl hmem allComplete
  | packed failed writeError allComplete =>
    obtain ⟨c₂, hp⟩ := modulePack_total (c := c₀.adopt e) rfl rfl failed writeError
    obtain ⟨hquits, e₂, hent₂, howned₂, htxns₂⟩ := modulePack_quits rfl rfl hp
    simp only [hp]
    exact txnLogAndDestroy_total (hquits.ordered h₁) hent₂ howned₂ (by rw [htxns₂]; exact hmem)
      allComplete

end Client

namespace Server

variable {s : Server} {bioCnt : Nat} {C : TxnSystem → TxnAction → Prop}

/-- **A handler on a connection** aborts when the connection does. -/
theorem connRun_error {k : Nat} {a : ClientAction} {start : Int} {src : Sched}
    {fault : ServerFault} : s.connRun bioCnt k a start src = .error fault ↔
      ∃ conn f, s.conns[k]? = some conn ∧ conn.client.exec a = .error f ∧ fault = .entity f := by
  cases hconn : s.conns[k]? with
  | none => simp [connRun, hconn]
  | some conn =>
    cases hc : conn.client.exec a with
    | error f => simp [connRun, hconn, hc, Except.mapError, bind, Except.bind, eq_comm]
    | ok c =>
      -- what follows only makes and delivers transactions
      have hunpacked : ∀ s : Server, ∀ l ∈ c.requests.drop conn.client.requests.length,
          ∃ t, unpacked bioCnt k conn start s l = .ok t := fun _ _ _ => ⟨_, rfl⟩
      have hdeliver : ∀ s : Server, ∀ l ∈ c.delivered.drop conn.client.delivered.length,
          ∃ t, deliver bioCnt k src s l = .ok t := by
        intro s l _
        cases hslot : s.sys.txns[s.number k l]? <;>
          simp [deliver, TxnSystem.exec, hslot, Except.mapError, Except.map]
      obtain ⟨s₁, h1⟩ := foldlM_total hunpacked
        { s with conns := s.conns.set k { conn with client := c } }
      obtain ⟨s₂, h2⟩ := foldlM_total hdeliver s₁
      have hok : s.connRun bioCnt k a start src = .ok s₂ := by
        simp only [connRun, hconn]
        exact except_bind_ok.mpr ⟨c, mapError_ok.mpr hc, except_bind_ok.mpr ⟨s₁, h1, h2⟩⟩
      simp [hok, hc]

/-- A handler on a connection goes on when the connection does. -/
theorem connRun_total {k : Nat} {a : ClientAction} {start : Int} {src : Sched}
    (h : ∀ conn, s.conns[k]? = some conn → ∃ c, conn.client.exec a = .ok c) :
    ∃ s', s.connRun bioCnt k a start src = .ok s' := by
  cases hx : s.connRun bioCnt k a start src with
  | ok s' => exact ⟨s', rfl⟩
  | error fault =>
    obtain ⟨conn, f, hconn, hf, -⟩ := connRun_error.mp hx
    obtain ⟨c, hc⟩ := h conn hconn
    exact absurd (hf.symm.trans hc) (by simp)

/-- **What follows a message** never aborts. -/
theorem Inv.follow_total (h : s.Inv bioCnt C) {i : Nat} {e : Event} (hi : s.sys.net[i]? = some e)
    {code : ServerCode} {sys : TxnSystem}
    (hsys : s.sys.exec bioCnt (.handle i code.user) = .ok sys) :
    ∃ s', ({ s with sys } : Server).follow bioCnt s.sys e code = .ok s' := by
  unfold follow
  split
  · -- the workflow ran, with the entity of its request
    rename_i x howner hpto
    obtain ⟨slot, r, hslot, hrel, -, hslot', rfl⟩ := handled_run hi hpto howner hsys
    obtain ⟨q, conn, hq, hconn, -, hruns, hdel, hnot⟩ :=
      h.held (List.mem_of_getElem? hi) hpto howner hslot hrel
    obtain ⟨output, response, failed, writeError, -, -, hran⟩ :=
      ran_goesOn (s := { s with
        sys := ({ s.sys with net := s.sys.net.eraseIdx i } : TxnSystem).commit x r }) bioCnt hq
        hconn hslot hslot' e.dst code
    rw [hran]
    refine connRun_total fun conn' hconn' => ?_
    rw [List.getElem?_set_self (List.getElem?_eq_some_iff.mp hconn).1] at hconn'
    obtain rfl := Option.some.inj hconn'
    exact Client.exec_run_total (h.conns conn (List.mem_of_getElem? hconn)).ordered
      (List.getElem?_idxOf hruns) hdel hnot _
  · rename_i x service done howner hpto
    unfold Server.resumed
    split
    · exact ⟨_, rfl⟩
    · exact connRun_total fun conn _ => ⟨_, rfl⟩
  · exact ⟨_, rfl⟩
  · exact ⟨_, rfl⟩

/-- What makes a step abort: the handler of a message, as in the system of the transactions, or the
    manager that frees an entity whose requests wait, or one that it freed. -/
def Faults (s : Server) : ServerAction → ServerFault → Prop
  | .handle i code, .txn fault => s.sys.Faults (.handle i code.user) fault
  | .cleanDead k, .entity fault => ∃ conn ∈ s.conns[k]?, conn.client.CleanFaults fault
  | _, _ => False

/-- **The manager cleans up.** -/
theorem cleanDead_faults (h : s.Inv bioCnt C) {k : Nat} {fault : ServerFault} :
    s.connRun bioCnt k .cleanDead 0 .master = .error fault ↔ s.Faults (.cleanDead k) fault := by
  have herror : ∀ {conn : Conn} {f : EntityFault}, s.conns[k]? = some conn →
      (conn.client.exec .cleanDead = .error f ↔ conn.client.CleanFaults f) := fun hconn =>
    Client.cleanDead_error (Client.reach_listed (h.conns _ (List.mem_of_getElem? hconn)).reach) _
  rw [connRun_error]
  constructor
  · rintro ⟨conn, f, hconn, hf, rfl⟩
    exact ⟨conn, hconn, (herror hconn).mp hf⟩
  · intro hf
    cases fault with
    | txn f => exact hf.elim
    | entity f =>
      obtain ⟨conn, hconn, hf⟩ := hf
      exact ⟨conn, f, hconn, (herror hconn).mpr hf, rfl⟩

/-- **A message is handled.**  Only the transaction itself aborts. -/
theorem handle_faults (h : s.Inv bioCnt C) {i : Nat} {code : ServerCode}
    (he : s.sys.enabled bioCnt (.handle i code.user)) {fault : ServerFault} :
    s.handle bioCnt i code = .error fault ↔ s.Faults (.handle i code) fault := by
  have hsysfaults : ∀ f, s.sys.exec bioCnt (.handle i code.user) = .error f ↔
      s.sys.Faults (.handle i code.user) f := fun f =>
    (TxnSystem.reach_guarded h.reach).exec_faults (a := .handle i code.user) he f
  obtain ⟨e, hi, -⟩ := he
  rw [Option.mem_def] at hi
  cases hsys : s.sys.exec bioCnt (.handle i code.user) with
  -- the transactions abort, and the server with them
  | error f =>
    have hhandle : s.handle bioCnt i code = .error (.txn f) := by
      simp only [Server.handle, hi, hsys]
      rfl
    rw [hhandle]
    cases fault with
    | entity f' => simp [Faults]
    | txn f' =>
      have hfaults := hsysfaults f'
      rw [hsys] at hfaults
      simpa [Faults] using hfaults
  -- when they do not, the connection does not either
  | ok sys =>
    have hhandle : s.handle bioCnt i code = follow bioCnt s.sys e code { s with sys } := by
      simp only [Server.handle, hi, hsys]
      rfl
    obtain ⟨s', hs'⟩ := h.follow_total hi hsys
    rw [hhandle, hs']
    refine iff_of_false (by simp) fun hf => ?_
    cases fault with
    | entity f' => exact hf
    | txn f' => exact absurd (hsys.symm.trans ((hsysfaults f').mpr hf)) (by simp)

/-- The peer disconnects while the message for its request is in flight. -/
def hungUp : List ServerAction :=
  [.accept true false false ⟨1, true, 0⟩ (.worker 0), .read 0 (some [1]) 1 0 (.worker 0), .error 0]

/-- The server then. -/
def leaving : Server := (machine 0).final idle hungUp

theorem leaving_reach : (machine 0).Reach (Obeys Machine.anyStep) leaving := by
  have hidle : (machine 0).init idle := ⟨TxnSystem.fresh_init, rfl, rfl⟩
  have hobeys : ∀ a ∈ hungUp, ∀ s, Obeys Machine.anyStep s a := by
    intro a ha s
    simp only [hungUp, List.mem_cons, List.not_mem_nil, or_false] at ha
    rcases ha with rfl | rfl | rfl
    · exact ⟨fun _ _ => trivial, fun _ _ _ => trivial⟩
    · trivial
    · trivial
  exact Machine.final_reach (.init hidle) hungUp (Machine.trace_meets hobeys idle)

end Server

end Skull
