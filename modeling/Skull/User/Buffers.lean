import Skull.User.Iocall

namespace Skull

open Machines Heaps

/-!
# Who owns the buffers of a service call

* `UserIocall.Holding` — what careful accesses keep: the request and the response represent their
  messages, and each pointer owns its block;
* `UserIocall.Holding.update`, `UserIocall.Holding.careless` — an access with and without care, and
  `UserIocall.Holding.updates`, a run of them;
* `UserIocall.Holding.completes_iff`, `UserIocall.rejected_iff` — what becomes of the request;
* `UserIocall.oneOwner_iff` — when every buffer has one owner.
-/

namespace UserIocall

variable {Q R : Type} {pq : Protobuf Q} {pr : Protobuf R} {q : Q} {r msg : R} {s t : CallBuffers}

/-! ### The buffers of the messages -/

/-- A pointer and a size represent a message. -/
inductive Points {M : Type} (pb : Protobuf M) (blocks : Blocks (List UInt8)) (m : M)
    (p : Option Nat) (sz : Nat) : Prop
  | null (hp : p = none) (hsz : sz = 0) (hm : m = pb.newMsg)
  | block (i : Nat) (hp : p = some i) (hsz : sz = (pb.serialize m).length)
      (hget : blocks.contents[i]? = some (pb.serialize m))

/-- The state of a call whose request is `q` and whose response is `r`: each pointer owns its
    block, and only a response that is not empty has one. -/
structure Holding (pq : Protobuf Q) (pr : Protobuf R) (q : Q) (r : R) (s : CallBuffers) : Prop where
  owned : s.blocks.Owned (s.response.toList ++ s.request.toList)
  request : Points pq s.blocks q s.request s.request_sz
  response : Points pr s.blocks r s.response s.response_sz
  small : r = pr.newMsg → s.response = none

section Points

variable {M : Type} {pb : Protobuf M} {blocks : Blocks (List UInt8)} {m : M} {p : Option Nat}
  {sz : Nat}

/-- The bytes that a pointer shows are the message. -/
theorem Points.read (h : Points pb blocks m p sz)
    (hget : ∀ i, p = some i → blocks.get? i = blocks.contents[i]?) :
    readBlock blocks p sz = .ok (pb.serialize m) := by
  unfold readBlock
  cases h with
  | null _ hsz hm => rw [if_pos hsz, hm, pb.serialize_newMsg]
  | block i hp hsz hi =>
    by_cases hlen : sz = 0
    · rw [if_pos hlen, List.eq_nil_of_length_eq_zero (hsz.symm.trans hlen)]
    · rw [if_neg hlen]
      simp [hp, hget i hp, hi, hsz]

/-- They are parsed to the message. -/
theorem Points.parse (h : Points pb blocks m p sz)
    (hget : ∀ i, p = some i → blocks.get? i = blocks.contents[i]?) :
    deserializeMsg pb blocks p sz = .ok m := by
  have hread := h.read hget
  unfold deserializeMsg
  split
  · rw [hread]
    simp [pb.parse_serialize]
  · rename_i hno
    cases h with
    | null _ _ hm => rw [hm]
    | block i hp hsz hi =>
      have hlen : (pb.serialize m).length = 0 := by simpa [hp, hsz] using hno
      rw [pb.serialize_eq_nil.mp (List.eq_nil_of_length_eq_zero hlen)]

/-- Blocks that are allocated later make no difference. -/
theorem Points.append (h : Points pb blocks m p sz) {blocks' : Blocks (List UInt8)}
    (bytes : List (List UInt8)) (happ : blocks'.contents = blocks.contents ++ bytes) :
    Points pb blocks' m p sz := by
  cases h with
  | null hp hsz hm => exact .null hp hsz hm
  | block i hp hsz hi =>
    have hlt : i < blocks.contents.length := (List.getElem?_eq_some_iff.mp hi).1
    exact .block i hp hsz (by rw [happ, List.getElem?_append_left hlt, hi])

end Points

/-- The response is there as it was written. -/
theorem Holding.get_response (h : Holding pq pr q r s) (i : Nat) (hi : s.response = some i) :
    s.blocks.get? i = s.blocks.contents[i]? := by
  have howned := h.owned
  rw [hi] at howned
  exact howned.get?.1

theorem Holding.get_request (h : Holding pq pr q r s) (i : Nat) (hi : s.request = some i) :
    s.blocks.get? i = s.blocks.contents[i]? := by
  have howned := h.owned.perm List.perm_append_comm
  rw [hi] at howned
  exact howned.get?.1

/-- So the response is live. -/
theorem Holding.respLive (h : Holding pq pr q r s) : RespLive s := by
  intro i hi
  rw [h.get_response i hi]
  cases h.response with
  | null hp => exact absurd (hp.symm.trans hi) (by simp)
  | block j hp _ hget =>
    obtain rfl := Option.some.inj (hp.symm.trans hi)
    simp [hget]

/-! ### The accesses -/

/-- The old buffer of the response is freed. -/
theorem Holding.freed (h : Holding pq pr q r s) : ∃ blocks,
    (if s.response_sz ≠ 0 then freeBlock s.blocks s.response else .ok s.blocks) = .ok blocks ∧
      blocks.Owned s.request.toList ∧ blocks.contents = s.blocks.contents ∧
      ∀ i, s.response = some i → blocks.get? i = none := by
  have howned := h.owned
  cases h.response with
  | null hp =>
    rw [hp] at howned
    refine ⟨s.blocks, ?_, howned, rfl, fun i hi => absurd (hp.symm.trans hi) (by simp)⟩
    rw [hp]
    split <;> rfl
  | block i hp hsz hget =>
    rw [hp] at howned
    have hne : s.response_sz ≠ 0 := by
      intro hz
      have hnil := pr.serialize_eq_nil.mp (List.eq_nil_of_length_eq_zero (hsz.symm.trans hz))
      exact absurd (hp.symm.trans (h.small hnil)) (by simp)
    obtain ⟨hfree, hrest⟩ := Blocks.Owned.free howned
    refine ⟨{ s.blocks with freed := s.blocks.freed ++ [i] }, ?_, hrest, rfl, fun j hj => ?_⟩
    · rw [if_pos hne, hp]
      simp only [freeBlock, hfree]
    · obtain rfl := Option.some.inj (hp.symm.trans hj)
      simp [Blocks.get?]

/-- Storing a response that is not empty, or was empty before. -/
theorem Holding.storeResp (h : Holding pq pr q r s) (msg : R) (hmsg : msg = pr.newMsg → r = pr.newMsg) :
    ∃ t, storeResp pr msg s = .ok t ∧ Holding pq pr q msg t := by
  obtain ⟨blocks, hfree, howned, hcontents, -⟩ := h.freed
  have hreq := h.request.append [] (show blocks.contents = _ by simp [hcontents])
  unfold Skull.storeResp
  simp only [hfree]
  by_cases hlen : (pr.serialize msg).length = 0
  · have hnew : msg = pr.newMsg :=
      pr.serialize_eq_nil.mp (List.eq_nil_of_length_eq_zero hlen)
    have hnone : s.response = none := h.small (hmsg hnew)
    have hsz : s.response_sz = 0 := by
      cases h.response with
      | null _ hsz => exact hsz
      | block i hp => exact absurd (hnone.symm.trans hp) (by simp)
    refine ⟨{ s with blocks }, by simp [hlen], ?_, hreq, .null hnone hsz hnew, fun _ => hnone⟩
    simpa [hnone] using howned
  · refine ⟨{ s with
        response := some (blocks.alloc (pr.serialize msg)).1
        response_sz := (pr.serialize msg).length
        blocks := (blocks.alloc (pr.serialize msg)).2 }, by simp [hlen], ?_, hreq.append _ rfl,
      .block _ rfl rfl ?_, fun hnew => ?_⟩
    · exact howned.alloc (pr.serialize msg)
    · simp [Blocks.alloc]
    · rw [hnew, pr.serialize_newMsg] at hlen
      exact absurd rfl hlen

/-- An empty response is stored over one that was not: the task points to a freed buffer. -/
theorem Holding.clears (h : Holding pq pr q r s) (hr : r ≠ pr.newMsg) :
    ∃ t, Skull.storeResp pr pr.newMsg s = .ok t ∧ ¬ RespLive t := by
  obtain ⟨blocks, hfree, -, -, hnone⟩ := h.freed
  unfold Skull.storeResp
  simp only [hfree, pr.serialize_newMsg]
  refine ⟨{ s with blocks }, by simp, fun hlive => ?_⟩
  cases h.response with
  | null _ _ hm => exact hr hm
  | block i hp =>
    have hget : blocks.get? i = none := hnone i hp
    have hsome : (blocks.get? i).isSome := hlive i hp
    simp [hget] at hsome

/-- A careful access. -/
theorem Holding.update {u : RespUpdate R} (h : Holding pq pr q r s)
    (haccess : u.access ≠ .jobCallback true) (hleft : left u r = pr.newMsg → r = pr.newMsg) :
    ∃ t, u.run pr s = .ok t ∧ Holding pq pr q (left u r) t := by
  unfold RespUpdate.run
  rw [h.response.parse h.get_response]
  unfold left at hleft ⊢
  cases hu : u.access with
  | body | epCallback =>
    rw [hu] at hleft
    exact h.storeResp _ hleft
  | jobCallback touches =>
    obtain rfl : touches = false := by
      cases touches with
      | false => rfl
      | true => exact absurd hu haccess
    obtain ⟨t, ht, hholds⟩ := h.storeResp r id
    exact ⟨t, by simp [ht], hholds⟩

/-- An access that is not careful aborts, or leaves a pointer to a freed buffer. -/
theorem Holding.careless {u : RespUpdate R} (h : Holding pq pr q r s)
    (hu : ¬ (u.access ≠ .jobCallback true ∧ (left u r = pr.newMsg → r = pr.newMsg))) :
    (∃ f, u.run pr s = .error f) ∨ ∃ t, u.run pr s = .ok t ∧ ¬ RespLive t := by
  unfold RespUpdate.run
  rw [h.response.parse h.get_response]
  by_cases haccess : u.access = .jobCallback true
  · obtain ⟨t, ht, -⟩ := h.storeResp r id
    exact .inl ⟨.assertFailed, by simp [haccess, ht]⟩
  · have hleft : left u r = pr.newMsg ∧ r ≠ pr.newMsg := by
      simpa [haccess] using hu
    unfold left at hleft
    cases hacc : u.access with
    | body | epCallback =>
      rw [hacc] at hleft
      obtain ⟨t, ht, hlive⟩ := h.clears hleft.2
      refine .inr ⟨t, ?_, hlive⟩
      simp only [hleft.1]
      exact ht
    | jobCallback touches =>
      rw [hacc] at hleft
      exact absurd hleft.1 hleft.2

/-- **Run lemma.**  Careful accesses. -/
theorem Holding.updates (us : List (RespUpdate R)) : ∀ {r : R} {s : CallBuffers},
    Holding pq pr q r s → Careful pr r us →
    ∃ t r', UserIocall.updates pr us s = .ok t ∧ Holding pq pr q r' t := by
  induction us with
  | nil => exact fun h _ => ⟨_, _, rfl, h⟩
  | cons u us ih =>
    intro r s h hc
    obtain ⟨haccess, hleft, hrest⟩ := hc
    obtain ⟨s', hs', h'⟩ := h.update haccess hleft
    obtain ⟨t, r', ht, hholds⟩ := ih h' hrest
    exact ⟨t, r', except_bind_ok.mpr ⟨s', hs', ht⟩, hholds⟩

/-- Accesses that are not careful. -/
theorem Holding.updates_careless (us : List (RespUpdate R)) : ∀ {r : R} {s : CallBuffers},
    Holding pq pr q r s → ¬ Careful pr r us →
    (∃ f, UserIocall.updates pr us s = .error f) ∨
      ∃ n t, UserIocall.updates pr (us.take n) s = .ok t ∧ ¬ RespLive t := by
  induction us with
  | nil => exact fun _ hc => absurd trivial hc
  | cons u us ih =>
    intro r s h hc
    by_cases hu : u.access ≠ .jobCallback true ∧ (left u r = pr.newMsg → r = pr.newMsg)
    · obtain ⟨s', hs', h'⟩ := h.update hu.1 hu.2
      have hrest : ¬ Careful pr (left u r) us := fun hrest => hc ⟨hu.1, hu.2, hrest⟩
      rcases ih h' hrest with ⟨f, hf⟩ | ⟨n, t, ht, hlive⟩
      · exact .inl ⟨f, except_bind_error.mpr (.inr ⟨s', hs', hf⟩)⟩
      · exact .inr ⟨n + 1, t, except_bind_ok.mpr ⟨s', hs', ht⟩, hlive⟩
    · rcases h.careless hu with ⟨f, hf⟩ | ⟨t, ht, hlive⟩
      · exact .inl ⟨f, except_bind_error.mpr (.inl hf)⟩
      · exact .inr ⟨1, t, except_bind_ok.mpr ⟨t, ht, rfl⟩, hlive⟩

/-- Careful updates were careful on the way. -/
theorem Careful.take {us : List (RespUpdate R)} : ∀ {r : R}, Careful pr r us → ∀ n,
    Careful pr r (us.take n) := by
  induction us with
  | nil => intro r h n; simpa using h
  | cons u us ih =>
    intro r h n
    cases n with
    | zero => trivial
    | succ n => exact ⟨h.1, h.2.1, ih h.2.2 n⟩

/-! ### The whole call -/

/-- The request before the call. -/
theorem request_holding (c : UserIocall Q R) : Holding pq pr c.msg pr.newMsg (c.request pq) := by
  unfold request
  simp only
  split
  · rename_i hnull
    have hm := pq.serialize_eq_nil.mp (List.eq_nil_of_length_eq_zero hnull.2)
    exact ⟨Blocks.owned_empty, .null rfl rfl hm, .null rfl rfl rfl, fun _ => rfl⟩
  · exact ⟨Blocks.owned_empty.alloc _, .block _ rfl rfl rfl, .null rfl rfl rfl, fun _ => rfl⟩

/-- C++ allocates nothing for an empty request. -/
theorem request_null (c : UserIocall Q R) :
    (c.request pq).request = none ↔ c.lang = .cpp ∧ c.msg = pq.newMsg := by
  have hnil : (pq.serialize c.msg).length = 0 ↔ c.msg = pq.newMsg := by
    rw [List.length_eq_zero_iff, pq.serialize_eq_nil]
  unfold request
  simp only
  split
  · rename_i hnull
    rw [hnil] at hnull
    simp [hnull]
  · rename_i hno
    rw [hnil] at hno
    simpa using hno

/-- Storing a response leaves the request. -/
theorem storeResp_request (h : storeResp pr msg s = .ok t) : t.request = s.request := by
  unfold storeResp at h
  simp only at h
  split at h
  · exact absurd h (by simp)
  · split at h <;> (obtain rfl := Except.ok.inj h; rfl)

/-- An access to the response leaves the request alone. -/
theorem run_request {u : RespUpdate R} (h : u.run pr s = .ok t) : t.request = s.request := by
  unfold RespUpdate.run at h
  split at h
  · exact absurd h (by simp)
  · split at h
    · exact storeResp_request h
    · exact storeResp_request h
    · split at h
      · exact absurd h (by simp)
      · rename_i s₁ hstore
        split at h
        · exact absurd h (by simp)
        · obtain rfl := Except.ok.inj h
          exact storeResp_request hstore

theorem updates_request (us : List (RespUpdate R)) : ∀ {s : CallBuffers},
    UserIocall.updates pr us s = .ok t → t.request = s.request := by
  induction us with
  | nil =>
    intro s h
    obtain rfl := Except.ok.inj h
    rfl
  | cons u us ih =>
    intro s h
    obtain ⟨s₁, hs₁, hrest⟩ := except_bind_ok.mp h
    exact (ih hrest).trans (run_request hs₁)

/-- The owner of a pointer frees its block. -/
theorem freeBlock_owned {blocks : Blocks (List UInt8)} {p : Option Nat} {owned : List Nat}
    (h : blocks.Owned (p.toList ++ owned)) :
    ∃ blocks', freeBlock blocks p = .ok blocks' ∧ blocks'.Owned owned := by
  cases p with
  | none => exact ⟨blocks, rfl, h⟩
  | some i =>
    obtain ⟨hfree, hrest⟩ := Blocks.Owned.free h
    exact ⟨_, by simp only [freeBlock, hfree], hrest⟩

/-- A callback that does not throw in C++ frees the request. -/
theorem Holding.callback {c : UserIocall Q R} {raised : Bool} (h : Holding pq pr q r s)
    (hthrow : ¬ (c.lang = .cpp ∧ raised = true)) : ∃ blocks,
      c.callback pq pr raised s = .ok { s with blocks } ∧ blocks.Owned s.response.toList := by
  obtain ⟨blocks, hfree, howned⟩ := freeBlock_owned (h.owned.perm List.perm_append_comm)
  refine ⟨blocks, ?_, howned⟩
  unfold UserIocall.callback
  cases hlang : c.lang with
  | cpp =>
    have hraised : raised = false := by simpa [hlang] using hthrow
    simp only [h.request.parse h.get_request, h.response.parse h.get_response, hraised, hfree]
    rfl
  | python =>
    simp only [h.request.read h.get_request, h.response.read h.get_response, hfree]
    rfl

/-- **Completion.**  All buffers are freed exactly once when there is a callback, which does not
    throw in C++, or no request. -/
theorem Holding.completes_iff {c : UserIocall Q R} {cb : Option Bool} (h : Holding pq pr q r s) :
    (∃ t, c.completes pq pr cb s = .ok t ∧ t.blocks.Settled) ↔
      (cb = none ∧ s.request = none) ∨ ∃ raised, cb = some raised ∧
        ¬ (c.lang = .cpp ∧ raised = true) := by
  cases cb with
  | none =>
    -- without a callback only the response is freed
    obtain ⟨blocks, hfree, howned⟩ := freeBlock_owned h.owned
    have hdone : c.completes pq pr none s = .ok
        { request := none, request_sz := 0, response := none, response_sz := 0, blocks } := by
      simp [UserIocall.completes, iocomplete, hfree, Except.map]
    rw [hdone]
    cases hreq : s.request with
    | none =>
      rw [hreq] at howned
      exact ⟨fun _ => .inl ⟨rfl, rfl⟩, fun _ => ⟨_, rfl, howned.settled⟩⟩
    | some i =>
      rw [hreq] at howned
      constructor
      · rintro ⟨t, ht, hsettled⟩
        obtain rfl := Except.ok.inj ht
        exact absurd hsettled (Blocks.Owned.not_settled howned)
      · rintro (⟨-, hnone⟩ | ⟨raised, hsome, -⟩)
        · exact absurd hnone (by simp)
        · exact absurd hsome (by simp)
  | some raised =>
    by_cases hthrow : c.lang = .cpp ∧ raised = true
    · -- an exception leaves the callback of a C++ module
      have herr : c.completes pq pr (some raised) s = .error .terminate := by
        simp [UserIocall.completes, UserIocall.callback, hthrow, h.request.parse h.get_request,
          h.response.parse h.get_response]
      rw [herr]
      constructor
      · rintro ⟨t, ht, -⟩
        exact absurd ht (by simp)
      · rintro (⟨hnone, -⟩ | ⟨raised', hsome, hno⟩)
        · exact absurd hnone (by simp)
        · obtain rfl := Option.some.inj hsome
          exact absurd hthrow hno
    · obtain ⟨blocks, hcb, howned⟩ := h.callback hthrow
      have howned' : blocks.Owned (s.response.toList ++ []) := by rwa [List.append_nil]
      obtain ⟨blocks', hfree, hnone⟩ := freeBlock_owned howned'
      have hdone : c.completes pq pr (some raised) s = .ok
          { request := none, request_sz := 0, response := none, response_sz := 0
            blocks := blocks' } := by
        simp [UserIocall.completes, hcb, iocomplete, hfree, Except.map]
      rw [hdone]
      exact ⟨fun _ => .inr ⟨raised, rfl, hthrow⟩, fun _ => ⟨_, rfl, hnone.settled⟩⟩

/-- A call that is rejected. -/
theorem rejected_iff {c : UserIocall Q R} (hreply : c.reply = .rejected) :
    (∃ t, c.run pq pr = .ok t ∧ t.blocks.Settled) ↔ c.lang = .cpp := by
  have h : Holding pq pr c.msg pr.newMsg (c.request pq) := c.request_holding
  have hresp : (c.request pq).response = none := h.small rfl
  have howned := h.owned
  rw [hresp, Option.toList_none, List.nil_append] at howned
  unfold run
  simp only [hreply]
  cases hlang : c.lang with
  | cpp =>
    rw [← List.append_nil (c.request pq).request.toList] at howned
    obtain ⟨blocks, hfree, hnone⟩ := freeBlock_owned howned
    simp only [hfree]
    exact ⟨fun _ => trivial, fun _ => ⟨_, rfl, hnone.settled⟩⟩
  | python =>
    constructor
    · rintro ⟨t, ht, hsettled⟩
      obtain rfl := Except.ok.inj ht
      cases hreq : (c.request pq).request with
      | none => exact absurd (hlang.symm.trans (c.request_null.mp hreq).1) (by simp)
      | some i =>
        rw [hreq] at howned
        exact absurd hsettled (Blocks.Owned.not_settled howned)
    · exact fun hc => absurd hc (by simp)

/-- The owner of the request of a call that is accepted. -/
theorem requestOwned_accepted {c : UserIocall Q R} {cb : Option Bool} {busy : Bool}
    {us : List (RespUpdate R)} (hreply : c.reply = .accepted cb busy us) :
    c.RequestOwned pq ↔ (cb = none ∧ c.lang = .cpp ∧ c.msg = pq.newMsg) ∨
      ∃ raised, cb = some raised ∧ ¬ (c.lang = .cpp ∧ raised = true) := by
  unfold RequestOwned
  rw [hreply]
  cases c.lang <;> cases cb <;> simp

/-- **One owner.**  In a service call each buffer is freed exactly once, and the response is at all
    times `NULL` or allocated, exactly when the request and the response have their owners. -/
theorem oneOwner_iff (pq : Protobuf Q) (pr : Protobuf R) (c : UserIocall Q R) :
    c.OneOwner pq pr ↔ c.RequestOwned pq ∧ c.ResponseOwned pr := by
  have h : Holding pq pr c.msg pr.newMsg (c.request pq) := c.request_holding
  unfold OneOwner ResponseOwned
  cases hreply : c.reply with
  | rejected =>
    rw [rejected_iff hreply]
    unfold RequestOwned
    rw [hreply]
    cases c.lang <;> simp
  | accepted cb busy us =>
    by_cases hcareful : Careful pr pr.newMsg (if busy then [] else us)
    · obtain ⟨s, r, hs, hholds⟩ := h.updates _ hcareful
      have hrun : c.run pq pr = c.completes pq pr cb s := by
        unfold run
        simp only [hreply, hs]
      have hreq : s.request = none ↔ c.lang = .cpp ∧ c.msg = pq.newMsg := by
        rw [updates_request _ hs, c.request_null]
      -- the updates of a careful body leave the response live after each of them
      have hlive : ∀ cb' us', CallReply.accepted cb busy us = .accepted cb' false us' →
          Careful pr pr.newMsg us' ∧ ∀ n s, UserIocall.updates pr (us'.take n) (c.request pq) = .ok s →
            RespLive s := by
        intro cb' us' heq
        obtain ⟨-, rfl, rfl⟩ := (CallReply.accepted.injEq ..).mp heq
        refine ⟨hcareful, fun n t ht => ?_⟩
        obtain ⟨t', r', ht', hholds'⟩ := h.updates _ (Careful.take hcareful n)
        obtain rfl := Except.ok.inj (ht'.symm.trans ht)
        exact hholds'.respLive
      rw [hrun, hholds.completes_iff, hreq, requestOwned_accepted hreply]
      exact ⟨fun hall => ⟨hall.1, fun cb' us' heq => (hlive cb' us' heq).1⟩,
        fun hall => ⟨hall.1, fun cb' us' heq => (hlive cb' us' heq).2⟩⟩
    · have hbusy : busy = false := by
        cases busy with
        | false => rfl
        | true => exact absurd trivial hcareful
      subst hbusy
      constructor
      · rintro ⟨⟨t, ht, -⟩, hlive⟩
        -- a careless body fails, or leaves a dead response after some update
        rcases h.updates_careless us hcareful with ⟨f, hf⟩ | ⟨n, s, hs, hdead⟩
        · unfold run at ht
          simp [hreply, hf] at ht
        · exact absurd (hlive cb us rfl n s hs) hdead
      · rintro ⟨-, hresp⟩
        exact absurd (hresp cb us rfl) hcareful

/-- A call of which the body sets the response and the callback of an endpoint call clears it. -/
def clearedCall : UserIocall Bool Bool :=
  { lang := .cpp, msg := true
    reply := .accepted (some false) false
      [⟨.body, fun _ => true⟩, ⟨.epCallback, fun _ => false⟩] }

/-- The response that was cleared is read by the callback of the call after it was freed. -/
theorem cleared_read_freed : ¬ ∀ c : UserIocall Bool Bool, c.OneOwner flagMsg flagMsg := by
  intro hall
  obtain ⟨⟨t, ht, -⟩, -⟩ := hall clearedCall
  have herr : clearedCall.run flagMsg flagMsg = .error .badRead := by decide +kernel
  exact absurd (herr.symm.trans ht) (by simp)

end UserIocall

end Skull
