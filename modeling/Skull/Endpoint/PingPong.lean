import Skull.Endpoint.Errors

namespace Skull

open Machines

/-!
# One request at a time on a connection

A response is matched to the request that is in flight when it arrives, so a connection can be
used again only when nothing of an earlier request is left on it.  `_find_ep` looks at the list of
requests alone.

* `EpPool.PingPong` — what is promised: a connection that is used again has nothing left;
* `EpPool.spoils` — the connection on which a step leaves something: a request whose time is over
  or that breaks before its response, or bytes that nobody took;
* `EpPool.CleanRun` — a run that puts no request on such a connection;
* `EpPool.Paced` — the invariant: the requests and the responses of every other connection;
* `EpPool.pingPong_of_cleanRun` — the promise, along all these runs;
* `EpPool.late_not_pingPong` — a request whose time is over, and another one after it.
-/

namespace Ep

variable {e : Ep} {n : EpNode}

/-- Every request written was answered, and no bytes are left. -/
def Clear (e : Ep) : Prop := e.sent = e.consumed ∧ e.rbuf = []

/-- When bytes arrive, some are left that are no part of a response to come. -/
def leaves (e : Ep) (bytes : List UInt8) (results : List Int) : Bool :=
  let data := e.rbuf ++ bytes
  if data = [] then false
  else
    match EpPool.tryUnpack e.txns results with
    | none => e.txns = []
    | some (_, consumed) => consumed < data.length

/-- A request is in flight. -/
def inFlight (e : Ep) : Bool := e.txns.any fun n => n.status = .sent

/-- What the requests of a connection say about it; `answering` says that the callback of an
    answered one is running. -/
inductive Pace (answering : Bool) (e : Ep) : Prop
  /-- Nothing is in flight. -/
  | clear (hclear : e.Clear) (hrest : answering = true ∨ ∀ n ∈ e.txns, n.status = .pending)
  /-- One request waits for its response. -/
  | flies {n : EpNode} (hone : e.txns = [n]) (hn : n.status = .sent)
      (hsent : e.sent = e.consumed + 1) (hrest : answering = false)

/-- What is in flight on a connection at whose pace it is known. -/
theorem Pace.sent {answering : Bool} (h : e.Pace answering) (hone : e.txns = [n])
    (hn : n.status = .sent) (hrest : answering = false) : e.sent = e.consumed + 1 := by
  cases h with
  | clear _ hor =>
    rcases hor with hyes | hall
    · exact absurd (hrest.symm.trans hyes) (by simp)
    · exact absurd (hn.symm.trans (hall n (by rw [hone]; exact .head _))) (by simp)
  | flies _ _ hsent _ => exact hsent

/-- A connection on which nothing is in flight is clear. -/
theorem Pace.clear_of {answering : Bool} (h : e.Pace answering)
    (hall : ∀ n ∈ e.txns, n.status = .pending) : e.Clear := by
  cases h with
  | clear hclear _ => exact hclear
  | flies hone hn _ _ =>
    exact absurd (hn.symm.trans (hall _ (by rw [hone]; exact .head _))) (by simp)

/-- So is one whose request is answered. -/
theorem Pace.clear_of_answering (h : e.Pace true) : e.Clear := by
  cases h with
  | clear hclear _ => exact hclear
  | flies _ _ _ hrest => exact absurd hrest (by simp)

end Ep

namespace EpPool

variable {p p' : EpPool} {x : EpId} {e e' : Ep} {n : EpNode} {a : EpAction}
  {spoiled spoiled' : List EpId}

/-- **What is promised of a connection that is used again.** -/
def PingPong (p : EpPool) : Prop := ∀ r ∈ p.reuses, r.ep.Clear

/-- The endpoint `x`, if it has a request in flight. -/
def abandons (p : EpPool) (x : EpId) : Option EpId :=
  if (p.eps x).any Ep.inFlight then some x else none

/-- The connection on which a step leaves something. -/
def spoils (p : EpPool) (a : EpAction) : Option EpId :=
  match a with
  | .read x (some bytes) results =>
    if (p.eps x).any fun e => e.leaves bytes results then some x else none
  | .error x => p.abandons x
  | .timer t =>
    match p.tmsvc.timers t with
    | none => none
    | some τ =>
      if τ.valid then
        match τ.kind with
        | .conn _ => none
        | .recv x _ => some x
        | .shutdown x => p.abandons x
      else none
  | .return =>
    match p.stack with
    | .error x _ _ _ :: _ => p.abandons x
    | _ => none
  | _ => none

/-- No request would be put on one of the endpoints `spoiled`. -/
def Clean (spoiled : List EpId) (p : EpPool) (a : EpAction) : Prop :=
  match a with
  | .send req _ => ∀ type ∈ req.check, (p.mgr type).nep ≠ (p.mgr type).max →
      ∀ x ∈ p.firstFree type req, x ∉ spoiled
  | _ => True

instance (spoiled : List EpId) (p : EpPool) (a : EpAction) : Decidable (Clean spoiled p a) :=
  match a with
  | .send req _ => inferInstanceAs (Decidable (∀ type ∈ req.check, _ ≠ _ →
      ∀ x ∈ p.firstFree type req, x ∉ spoiled))
  | .return | .read .. | .error _ | .connect .. | .tick _ | .trigger _ | .timer _ | .destroy =>
    inferInstanceAs (Decidable True)

/-- Along a run, no request would be put on a connection on which an earlier step left something. -/
def CleanRun (spoiled : List EpId) (p : EpPool) : List (EpAction × EpPool) → Prop
  | [] => True
  | (a, p') :: run => Clean spoiled p a ∧ CleanRun (spoiled ++ (p.spoils a).toList) p' run

instance decidableCleanRun (spoiled : List EpId) (p : EpPool) :
    (run : List (EpAction × EpPool)) → Decidable (CleanRun spoiled p run)
  | [] => inferInstanceAs (Decidable True)
  | (a, p') :: run =>
    have := decidableCleanRun (spoiled ++ (p.spoils a).toList) p' run
    inferInstanceAs (Decidable (_ ∧ _))

/-! ### The invariant -/

/-- The callback of an answered request of `x` is running. -/
def answering (p : EpPool) (x : EpId) : Bool :=
  p.stack.any fun
    | .ok y _ => x = y
    | _ => false

/-- **The invariant**: the pace of every connection on which nothing was left. -/
structure Paced (spoiled : List EpId) (p : EpPool) : Prop where
  pace : ∀ x e, p.eps x = some e → x ∉ spoiled → e.Pace (p.answering x)
  /-- Something is left where a request has no time left. -/
  timeouts : ∀ x req, .timeout x req ∈ p.stack → x ∈ spoiled
  reuses : p.PingPong

/-- An endpoint is answering while such a callback runs. -/
theorem answering_iff : p.answering x = true ↔ ∃ req, .ok x req ∈ p.stack := by
  rw [answering, List.any_eq_true]
  constructor
  · rintro ⟨frame, hframe, hx⟩
    cases frame with
    | ok y req =>
      obtain rfl : x = y := of_decide_eq_true hx
      exact ⟨req, hframe⟩
    | timeout y req => simp at hx
    | error y n before turns => simp at hx
  · rintro ⟨req, hframe⟩
    exact ⟨_, hframe, decide_eq_true rfl⟩

theorem answering_nil (hstack : p.stack = []) (x : EpId) : p.answering x = false := by
  rw [answering, hstack]
  rfl

/-- A connection whose request was answered has one. -/
theorem Inv.not_answering (h : p.Inv) (hbusy : ∀ e, p.eps x = some e → e.txns = []) :
    p.answering x = false := by
  rw [← Bool.not_eq_true, answering_iff]
  rintro ⟨req, hframe⟩
  rcases h.stack with hnil | ⟨frame, hone, hok⟩
  · exact absurd (hnil ▸ hframe) List.not_mem_nil
  · rw [hone, List.mem_singleton] at hframe
    subst hframe
    obtain ⟨e, n, he, htxns, -⟩ := hok
    rw [hbusy e he] at htxns
    exact absurd htxns (by simp)

namespace Paced

/-- **One endpoint changes**, and the callbacks of the others run on. -/
theorem step (h : Paced spoiled p) (hsub : ∀ y ∈ spoiled, y ∈ spoiled')
    (heps : ∀ y, y ≠ x → p'.eps y = p.eps y)
    (hothers : ∀ y, y ≠ x → p'.answering y = p.answering y)
    (hx : ∀ e, p'.eps x = some e → x ∉ spoiled' → e.Pace (p'.answering x))
    (htimeouts : ∀ y req, .timeout y req ∈ p'.stack → .timeout y req ∈ p.stack ∨ y ∈ spoiled')
    (hreuses : p'.PingPong) : Paced spoiled' p' := by
  refine ⟨fun y e he hy => ?_, fun y req hframe => ?_, hreuses⟩
  · by_cases hyx : y = x
    · subst hyx
      exact hx e he hy
    · rw [hothers y hyx]
      exact h.pace y e (by rw [← heps y hyx, he]) fun hin => hy (hsub y hin)
  · rcases htimeouts y req hframe with hold | hnew
    · exact hsub y (h.timeouts y req hold)
    · exact hnew

/-- No endpoint changes. -/
theorem still (h : Paced spoiled p) (hsub : ∀ y ∈ spoiled, y ∈ spoiled') (heps : p'.eps = p.eps)
    (hstack : p'.stack = p.stack) (hreuses : p'.reuses = p.reuses) : Paced spoiled' p' := by
  refine ⟨fun y e he hy => ?_, fun y req hframe => ?_, ?_⟩
  · rw [answering, hstack]
    rw [heps] at he
    exact h.pace y e he fun hin => hy (hsub y hin)
  · rw [hstack] at hframe
    exact hsub y (h.timeouts y req hframe)
  · rw [PingPong, hreuses]
    exact h.reuses

/-- One endpoint changes, and all callbacks run on. -/
theorem put (h : Paced spoiled p) (hsub : ∀ y ∈ spoiled, y ∈ spoiled') {o : Option Ep}
    (heps : p'.eps = (p.setEp x o).eps) (hstack : p'.stack = p.stack)
    (hx : ∀ e ∈ o, x ∉ spoiled' → e.Pace (p.answering x)) (hreuses : p'.PingPong) :
    Paced spoiled' p' := by
  have hsame : ∀ y, p'.answering y = p.answering y := fun y => by rw [answering, hstack, answering]
  refine h.step hsub (fun y hy => by rw [heps, setEp_eps, if_neg hy]) (fun y _ => hsame y)
    (fun e he hnot => ?_) (fun y req hframe => .inl (hstack ▸ hframe)) hreuses
  rw [heps, setEp_eps, if_pos rfl] at he
  rw [hsame]
  exact hx e he hnot

/-- A callback begins or ends on one endpoint. -/
theorem turn (h : Paced spoiled p) (hsub : ∀ y ∈ spoiled, y ∈ spoiled') {o : Option Ep}
    (heps : p'.eps = (p.setEp x o).eps) (hold : ∀ y, y ≠ x → p.answering y = false)
    (hnew : ∀ y, y ≠ x → p'.answering y = false)
    (hx : ∀ e ∈ o, x ∉ spoiled' → e.Pace (p'.answering x))
    (htimeouts : ∀ y req, .timeout y req ∈ p'.stack → y ∈ spoiled')
    (hreuses : p'.reuses = p.reuses) : Paced spoiled' p' := by
  refine h.step hsub (fun y hy => by rw [heps, setEp_eps, if_neg hy])
    (fun y hy => (hnew y hy).trans (hold y hy).symm) (fun e he hnot => ?_)
    (fun y req hframe => .inr (htimeouts y req hframe)) ?_
  · rw [heps, setEp_eps, if_pos rfl] at he
    exact hx e he hnot
  · rw [PingPong, hreuses]
    exact h.reuses

end Paced

/-! ### What a step leaves -/

/-- A timeout abandons a request that was sent. -/
theorem abandons_of_sent (he : p.eps x = some e) (hn : n ∈ e.txns) (hsent : n.status = .sent) :
    p.abandons x = some x := by
  rw [abandons, he, Option.any_some, if_pos]
  exact List.any_eq_true.mpr ⟨n, hn, decide_eq_true hsent⟩

/-- A request that is in flight is left behind when it is called back with an error. -/
theorem Cause.spoils (hcause : p.Cause x e n a) (he : p.eps x = some e) (hn : n ∈ e.txns)
    (hsent : n.status = .sent) : p.spoils a = some x := by
  cases hcause with
  | error => exact abandons_of_sent he hn hsent
  | @unpack bytes results c hdata hunpack hneg =>
    have hleaves : e.leaves bytes results = true := by
      simp only [Ep.leaves, if_neg hdata, hunpack, decide_eq_true_eq]
      omega
    simp only [EpPool.spoils, he, Option.any_some, hleaves, if_true]
  | shutdown hτ hkind hvalid =>
    simp only [EpPool.spoils, hτ, hvalid, if_true, hkind]
    exact abandons_of_sent he hn hsent
  | pending hn' => exact absurd (hsent.symm.trans hn') (by simp)

/-- Where nothing is left of the bytes, they answer what is in flight. -/
theorem read_spoils {bytes : List UInt8} {results : List Int} (he : p.eps x = some e)
    (hnot : x ∉ spoiled ++ (p.spoils (.read x (some bytes) results)).toList) :
    e.leaves bytes results = false := by
  rw [← Bool.not_eq_true]
  intro hleaves
  refine hnot (List.mem_append_right _ ?_)
  simp only [spoils, he, Option.any_some, hleaves, if_true, Option.toList_some, List.mem_singleton]

/-- The stack has one frame, which is no answer. -/
theorem answering_other {f : EpFrame} (hstack : p.stack = [f])
    (hframe : ∀ req, f ≠ .ok x req) : p.answering x = false := by
  rw [← Bool.not_eq_true, answering_iff]
  rintro ⟨req, hin⟩
  rw [hstack, List.mem_singleton] at hin
  exact hframe req hin.symm

/-! ### Steps -/

/-- **Every effect keeps it** of a step that is `Clean`. -/
theorem Effect.paced (hs : p.Sound) (h : Paced spoiled p) (hclean : Clean spoiled p a)
    (heffect : Effect p a p') : Paced (spoiled ++ (p.spoils a).toList) p' := by
  have hsub : ∀ y ∈ spoiled, y ∈ spoiled ++ (p.spoils a).toList :=
    fun y hy => List.mem_append_left _ hy
  -- what `Clean` says about an endpoint that is found
  have hfound : ∀ req env type x e, a = .send req env → p.Finds req type x →
      p.Free req.flags x e → e.Clear := by
    rintro req env type x e rfl hfinds ⟨he, -, -, hnil⟩
    have hnot := hclean type hfinds.check hfinds.room x (hs.inv.firstFree_of_find hfinds.find)
    exact (h.pace x e he hnot).clear_of (by simp [hnil])
  cases heffect with
  -- nothing is said of an endpoint by these
  | quiet _ _ _ => exact h.still hsub rfl rfl rfl
  | refuse => exact h.still hsub rfl rfl rfl
  | @lost req _ type _ _ _ _ _ => exact h.still hsub (opened_eps _ type req.key) rfl rfl
  | @pending req env c s _ hconn =>
    refine h.put hsub (added_setEps p.begun _ s) rfl (fun e he _ => ?_) h.reuses
    obtain rfl := Option.some.inj he
    -- the request waits for the connection, so nothing is in flight
    exact .clear ⟨rfl, rfl⟩ (.inr (by simp [newEp]))
  | @fresh req env type recv shut s _ hsend =>
    refine h.put hsub (wrote_over (added_setEps p.begun _ _) recv shut s) rfl (fun e he _ => ?_)
      h.reuses
    obtain rfl := Option.some.inj he
    -- it is sent on a new endpoint, for which no callback runs
    refine .flies rfl rfl rfl (hs.inv.not_answering fun e he => ?_)
    exact absurd (hs.inv.next_none.symm.trans he) (by simp)
  | @reuse req env type x e recv shut s hfinds hfree hnew hsend =>
    have hclear := hfound req env type x e rfl hfinds hfree
    refine h.put hsub (wrote_over rfl recv shut s) rfl (fun e' he' _ => ?_) fun r hr => ?_
    · obtain rfl := Option.some.inj he'
      refine .flies rfl rfl (congrArg (· + 1) hclear.1) (hs.inv.not_answering fun e' he' => ?_)
      rw [← Option.some.inj (hfree.1.symm.trans he')]
      -- what is free answers nothing
      exact hfree.2.2.2
    · -- a reuse is one of those before, or this one
      rcases List.mem_append.mp hr with hr | hr
      · exact h.reuses r hr
      · rw [List.mem_singleton.mp hr]
        exact hclear
  | @reuseLost req env type x e hfinds hfree =>
    refine h.put hsub (gone_eps p x e) rfl (by simp) fun r hr => ?_
    rcases List.mem_append.mp hr with hr | hr
    · exact h.reuses r hr
    · rw [List.mem_singleton.mp hr]
      exact hfound req env type x e rfl hfinds hfree
  | @close _ x e shut s _ hstack he hnil hfollows howned =>
    exact h.put hsub (broken_over rfl { e with shutdownTimer := shut } 0 0) rfl (by simp) h.reuses
  | @fail _ x e e₀ n s _ hstack hbreaks hcause =>
    refine h.turn hsub (failed_over rfl e₀ n 1 0) (fun y _ => answering_nil hstack y) (fun y _ => ?_)
      (fun e' he' hnot => ?_) (fun y req hframe => ?_) rfl
    · exact answering_other (f := .error x n 1 1) (by simp [failed, call, hstack]) (by simp)
    · obtain rfl := Option.some.inj he'
      rw [List.mem_append, not_or] at hnot
      have hmem : n ∈ e.txns := by rw [hbreaks.one]; exact .head _
      -- a request that was sent would have spoiled the endpoint
      have hpending : n.status = .pending := by
        cases hn : n.status with
        | pending => rfl
        | init => exact absurd hn hbreaks.node
        | sent => exact absurd (by rw [hcause.spoils hbreaks.ent hmem hn]; simp) hnot.2
      have hclear := (h.pace x e hbreaks.ent hnot.1).clear_of (by simp [hbreaks.one, hpending])
      obtain ⟨hsent, hconsumed, hrbuf⟩ := hbreaks.counts
      -- it was pending, so nothing of it is in flight
      refine .clear ⟨?_, ?_⟩ (.inr (by simp))
      · show e₀.sent = e₀.consumed
        rw [hsent, hconsumed, hclear.1]
      · exact (hrbuf hpending).trans hclear.2
    · simp [failed, call, hstack] at hframe
  | @buffered x e bytes results hstack he hstatus =>
    refine h.put hsub rfl rfl (fun e' he' hnot => ?_) h.reuses
    obtain rfl := Option.some.inj he'
    have hleaves := read_spoils he hnot
    rw [List.mem_append, not_or] at hnot
    cases h.pace x e he hnot.1 with
    -- nothing was in flight, so nothing may be left of what came
    | clear hclear hrest =>
      refine .clear ⟨hclear.1, ?_⟩ hrest
      -- no request is in flight, so nothing may arrive
      obtain ⟨-, hnil | ⟨n, hone, hn, -⟩⟩ := hs.inv.connected_cases hstack he hstatus
      · by_contra hdata
        simp [Ep.leaves, hdata, hnil, tryUnpack] at hleaves
      · have hpending := (hrest.resolve_left (by simp [answering_nil hstack])) n (by simp [hone])
        exact absurd (hn.symm.trans hpending) (by simp)
    | flies hone hn hsent hrest => exact .flies hone hn hsent hrest
  | @answered x e n bytes results c hstack he hstatus hone hunpack hpos =>
    refine h.turn hsub rfl (fun y _ => answering_nil hstack y) (fun y hy => ?_)
      (fun e' he' hnot => ?_) (fun y req hframe => ?_) rfl
    · refine answering_other (f := .ok x n.id) (by simp [call, hstack]) fun req heq => ?_
      exact hy (EpFrame.ok.inj heq).1.symm
    · obtain rfl := Option.some.inj he'
      have hleaves := read_spoils he hnot
      rw [List.mem_append, not_or] at hnot
      obtain ⟨-, hnil | ⟨m, hone', hm, -⟩⟩ := hs.inv.connected_cases hstack he hstatus
      · exact absurd (hone.symm.trans hnil) (by simp)
      · -- the one request is answered, and its bytes are all that came
        have hsent := (h.pace x e he hnot.1).sent hone' hm (answering_nil hstack x)
        refine .clear ⟨hsent, ?_⟩ (.inl (answering_iff.mpr ⟨n.id, .head _⟩))
        refine List.drop_eq_nil_of_le ?_
        by_cases hdata : e.rbuf ++ bytes = []
        · rw [hdata]
          exact Nat.zero_le _
        · simp only [Ep.leaves, if_neg hdata, hunpack, decide_eq_false_iff_not] at hleaves
          omega
    · simp [call, hstack] at hframe
  | @timedOut t τ x e n hstack hτ hkind hvalid he hstatus hone hrecv =>
    have hspoils : p.spoils (.timer t) = some x := by
      simp only [spoils, hτ, hvalid, if_true, hkind]
    -- a timeout spoils the endpoint
    have hin : x ∈ spoiled ++ (p.spoils (.timer t)).toList := by simp [hspoils]
    refine h.turn hsub rfl (fun y _ => answering_nil hstack y) (fun y _ => ?_)
      (fun e' _ hnot => absurd hin hnot) (fun y req hframe => ?_) rfl
    · exact answering_other (f := .timeout x n.id) (by simp [call, hstack]) (by simp)
    · simp only [call, hstack, setEp_stack, List.mem_singleton] at hframe
      rw [(EpFrame.timeout.inj hframe).1]
      exact hin
  | @connected x e n written recv shut s hstack he hstatus hshut hone hsend =>
    refine h.put hsub (wrote_over rfl recv shut s) rfl (fun e' he' hnot => ?_) h.reuses
    obtain rfl := Option.some.inj he'
    rw [List.mem_append, not_or] at hnot
    obtain ⟨-, m, hone', hm, -⟩ := hs.inv.connecting_cases hstack he hstatus
    have hclear := (h.pace x e he hnot.1).clear_of (by simp [hone', hm])
    -- the request waited for the connection, and is the first that is sent
    exact .flies rfl rfl (congrArg (· + 1) hclear.1) (answering_nil hstack x)
  | @destroy xs s hstack _ _ hidle =>
    -- no endpoint is left
    refine ⟨fun x e he => absurd he (by simp [swept]), fun x req hframe => ?_, h.reuses⟩
    exact absurd (hstack ▸ hframe) List.not_mem_nil
  | @returnOk x e n t s delay hstack he hone hshut =>
    have hold : ∀ y, y ≠ x → p.answering y = false := fun y hy =>
      answering_other hstack fun req heq => hy (EpFrame.ok.inj heq).1.symm
    refine h.turn hsub rfl hold (fun y _ => rfl) (fun e' he' hnot => ?_)
      (fun y req hframe => absurd hframe List.not_mem_nil) rfl
    obtain rfl := Option.some.inj he'
    rw [List.mem_append, not_or] at hnot
    have hpace := h.pace x e he hnot.1
    rw [answering_iff.mpr ⟨n.id, by simp [hstack]⟩] at hpace
    exact .clear hpace.clear_of_answering (.inr (by simp))
  | @returnTimeout x e n hstack he hone =>
    refine h.turn hsub rfl (fun y _ => answering_other hstack (by simp)) (fun y _ => rfl)
      (fun e' _ hnot => ?_) (fun y req hframe => absurd hframe List.not_mem_nil) rfl
    exact absurd (hsub x (h.timeouts x n.id (by simp [hstack]))) hnot
  | @returnClose x e n before turns hstack he hnil =>
    exact h.turn hsub (broken_over rfl { e with ntxn := e.ntxn - 1 } before turns)
      (fun y _ => answering_other hstack (by simp)) (fun y _ => rfl) (by simp)
      (fun y req hframe => absurd hframe List.not_mem_nil) rfl
  | @returnFail x e n m before turns hstack he hone hm =>
    refine h.turn hsub (failed_over rfl { e with ntxn := e.ntxn - 1 } m before turns)
      (fun y _ => answering_other hstack (by simp)) (fun y _ => ?_) (fun e' _ hnot => ?_)
      (fun y req hframe => ?_) rfl
    · exact answering_other (f := .error x m before (turns + 1)) rfl (by simp)
    · -- the next request was put on an endpoint that breaks, and is in flight
      have hsent : m.status = .sent := by
        have hdying : p.dying x = true := by rw [Inv.dying_error hstack, decide_eq_true rfl]
        rcases (hs.inv.shape x e he).one hone with ⟨-, hnot, -⟩ | ⟨-, -, hn, -⟩
        · exact absurd (hdying.symm.trans hnot) (by simp)
        · exact hn
      have hspoils : p.spoils .return = some x := by
        simp only [spoils, hstack]
        exact abandons_of_sent he (by rw [hone]; exact .head _) hsent
      exact absurd (by simp [hspoils]) hnot
    · simp [failed, call] at hframe

/-! ### Runs -/

/-- **No connection is used again with something left on it**, along every run that puts no
    request on one where an earlier step left something. -/
theorem pingPong_of_cleanRun {maxFds : Int} {run : List (EpAction × EpPool)}
    (hrun : machine.Path (create maxFds) run) (hclean : CleanRun [] (create maxFds) run) :
    ∀ q ∈ run, q.2.PingPong := by
  -- along the run the spoiled endpoints grow
  suffices hall : ∀ run spoiled p, p.Sound → Paced spoiled p → machine.Path p run →
      CleanRun spoiled p run → ∀ q ∈ run, q.2.PingPong by
    refine hall run [] _ (create_sound maxFds) ⟨?_, ?_, ?_⟩ hrun hclean
    · simp [create]
    · simp [create]
    · simp [PingPong, create]
  intro run
  induction run with
  | nil => intro spoiled p _ _ _ _ q hq; exact absurd hq List.not_mem_nil
  | cons step run ih =>
    obtain ⟨a, p'⟩ := step
    rintro spoiled p hs h ⟨henabled, hx, hpath⟩ ⟨hclean, hrest⟩ q hq
    obtain rfl := Except.ok.inj hx
    have h' : Paced (spoiled ++ (p.spoils a).toList) (p.exec a) := by
      rcases exec_cases hs henabled with heffect | ⟨f, hcrash, -⟩
      · exact heffect.paced hs h hclean
      · rw [hcrash]
        exact h.still (fun y hy => List.mem_append_left _ hy) rfl rfl rfl
    rcases List.mem_cons.mp hq with rfl | hq
    · exact h'.reuses
    · exact ih _ _ (hs.exec henabled) h' hpath hrest q hq

/-- Two requests on one connection, the second one when the first one was answered; the time of
    the second one is over, and a third one gets another connection. -/
def answeredTwice : List EpAction :=
  [.send (sampleRequest 1000) ⟨0, .now, true⟩, .read 0 (some [7]) [1], .return,
    .send (sampleRequest 1000) ⟨0, .now, true⟩, .tick 1000, .trigger 2, .timer 2, .return, .tick 1000,
    .trigger 0, .timer 0, .send (sampleRequest 1000) ⟨0, .now, true⟩]

/-- Two requests that are answered one after the other go over one connection. -/
theorem answeredTwice_pingPong :
    (∀ q ∈ machine.trace (create 4) answeredTwice, q.2.PingPong) ∧
      (machine.final (create 4) answeredTwice).reuses.length = 1 :=
  ⟨pingPong_of_cleanRun (machine.trace_path answeredTwice _) (by decide +kernel), by decide +kernel⟩

/-- A request whose time is over, and another one that is put on its connection: the response to
    the first one may still come. -/
theorem late_not_pingPong : ¬ ∀ p, machine.Reach Machine.anyStep p → p.PingPong := by
  intro hall
  have hreach := Machine.final_reach (.init (create_init 4)) [.send (sampleRequest 1000) ⟨0, .now, true⟩,
    .tick 1000, .trigger 1, .timer 1, .return, .send (sampleRequest 1000) ⟨0, .now, true⟩]
    (Machine.stepsMeet_any _ _)
  have hcounts : ∃ r ∈ (machine.final (create 4) [.send (sampleRequest 1000) ⟨0, .now, true⟩,
      .tick 1000, .trigger 1, .timer 1, .return,
      .send (sampleRequest 1000) ⟨0, .now, true⟩]).reuses, r.ep.sent ≠ r.ep.consumed := by
    decide +kernel
  obtain ⟨r, hr, hne⟩ := hcounts
  exact hne (hall _ hreach r hr).1

end EpPool

end Skull
