import Skull.Sched.Sched
import Skull.Lib.Ring

namespace Skull

open Machines

/-!
# Messages without a destination

A scheduler gives the messages without a destination to its bridges in turn, and leaves out those
that lead to a scheduler which does not take such messages:

* `RoundrobinEnds` — how the loop of `_find_bridge_roundrobin` ends, with no bound on its turns;
* `SchedNet.candidates` — the bridges that may be taken, in the order in which they come;
* `SchedNet.findBridgeRoundrobin_next`, `SchedNet.findBridgeRoundrobin_none` — one call;
* `SchedNet.roundrobinCalls_take` — calls one after the other take one candidate each;
* `SchedNet.servesInTurn_iff` — the scheduler does what is promised when there is a candidate;
* `SchedNet.noCandidate_null` — without one it uses `NULL` as a bridge.
-/

/-- The loop of `_find_bridge_roundrobin` with the cursor at `idx` ends with a result. -/
inductive RoundrobinEnds (routable : Nat → Bool) (size last : Nat) : Nat → Option Nat → Prop
  | found {idx : Nat} (h : routable idx = true) : RoundrobinEnds routable size last idx (some idx)
  | circle {idx : Nat} (h : routable idx = false) (hlast : (idx + 1) % size = last) :
    RoundrobinEnds routable size last idx none
  | next {idx : Nat} {r : Option Nat} (h : routable idx = false) (hlast : (idx + 1) % size ≠ last)
      (hrest : RoundrobinEnds routable size last ((idx + 1) % size) r) :
    RoundrobinEnds routable size last idx r

/-- **The loop** looks at the bridges from `last` on, and ends. -/
theorem roundrobinLoop_ends (routable : Nat → Bool) {size last : Nat} (hlast : last < size)
    (turns n : Nat) (hn : n + (turns + 1) = size) :
    SkSched.roundrobinLoop routable size last (turns + 1) ((last + n) % size) =
        ((circle size last).drop n).find? routable ∧
      RoundrobinEnds routable size last ((last + n) % size)
        (((circle size last).drop n).find? routable) := by
  induction turns generalizing n with
  | zero =>
    have hdrop : (circle size last).drop n = [(last + n) % size] := by
      rw [List.drop_eq_getElem?_toList_append, getElem_circle _ (by omega),
        List.drop_of_length_le (by rw [length_circle]; omega)]
      rfl
    -- the last bridge of the circle: the next one is where the loop began
    have hback : ((last + n) % size + 1) % size = last := by
      rw [Nat.mod_add_mod, Nat.add_assoc, hn, Nat.add_mod_right, Nat.mod_eq_of_lt hlast]
    rw [hdrop, SkSched.roundrobinLoop, if_pos hback]
    cases hr : routable ((last + n) % size) with
    | true => exact ⟨by simp [hr], by simpa [hr] using .found hr⟩
    | false => exact ⟨by simp [hr], by simpa [hr] using .circle hr hback⟩
  | succ turns ih =>
    have hdrop : (circle size last).drop n =
        (last + n) % size :: (circle size last).drop (n + 1) := by
      rw [List.drop_eq_getElem?_toList_append, getElem_circle _ (by omega)]
      rfl
    have hnext : ((last + n) % size + 1) % size = (last + (n + 1)) % size := by
      rw [Nat.mod_add_mod, Nat.add_assoc]
    -- the circle is not closed yet
    have hne : (last + (n + 1)) % size ≠ last := by
      by_cases hwrap : last + (n + 1) < size
      · rw [Nat.mod_eq_of_lt hwrap]
        omega
      · rw [Nat.mod_eq_sub_mod (by omega), Nat.mod_eq_of_lt (by omega)]
        omega
    obtain ⟨hloop, hends⟩ := ih (n + 1) (by omega)
    rw [hdrop, SkSched.roundrobinLoop, hnext, if_neg hne]
    cases hr : routable ((last + n) % size) with
    | true => exact ⟨by simp [hr], by simpa [hr] using .found hr⟩
    | false =>
      rw [List.find?_cons_of_neg (by simp [hr])]
      refine ⟨by simpa using hloop, .next hr (hnext ▸ hne) ?_⟩
      rwa [hnext]

namespace SchedNet

variable {s : SchedNet} {k : SkSched} {idx : Nat} {idxs : List Nat}

/-- The bridges that may be taken, from the cursor on. -/
def candidates (s : SchedNet) (k : SkSched) : List Nat :=
  (circle k.bridgeTbl.length k.lastDeliveryIdx).filter (s.routable k)

/-- How many there are. -/
def routableCount (s : SchedNet) (k : SkSched) : Nat :=
  (List.range k.bridgeTbl.length).countP (s.routable k)

/-- A routable bridge is one of the table. -/
theorem routable_lt (h : s.routable k idx = true) : idx < k.bridgeTbl.length := by
  by_contra hge
  rw [routable, List.getElem?_eq_none (by omega)] at h
  exact absurd h (by simp)

theorem routable_congr {k' : SkSched} (h : k'.bridgeTbl = k.bridgeTbl) :
    s.routable k' = s.routable k := by
  funext idx
  rw [routable, routable, h]

/-- The queues of a scheduler do not matter. -/
theorem routable_setSched {x : Sched} {k' : SkSched} (hx : s.scheds x = some k)
    (h : k'.flags = k.flags) : (s.setSched x k').routable k = s.routable k := by
  funext idx
  have hflags : ∀ b : IoBridge, ((s.setSched x k').scheds b.dst).any SkSched.rrRoutable =
      (s.scheds b.dst).any SkSched.rrRoutable := fun b => by
    by_cases hb : b.dst = x
    · have hself : (s.setSched x k').scheds b.dst = some k' := if_pos hb
      rw [hself, hb, hx, Option.any_some, Option.any_some, SkSched.rrRoutable, SkSched.rrRoutable, h]
    · have hother : (s.setSched x k').scheds b.dst = s.scheds b.dst := if_neg hb
      rw [hother]
  simp only [routable, hflags]

/-- The candidates are the routable bridges. -/
theorem mem_candidates : idx ∈ s.candidates k ↔ s.routable k idx = true := by
  rw [candidates, List.mem_filter, mem_circle]
  exact ⟨And.right, fun h => ⟨routable_lt h, h⟩⟩

theorem nodup_candidates : (s.candidates k).Nodup := nodup_circle.filter _

theorem length_candidates : (s.candidates k).length = s.routableCount k := by
  rw [candidates, routableCount, ← List.countP_eq_length_filter, circle]
  exact (List.rotate_perm _ _).countP_eq _

/-! ### One call -/

/-- **The loop takes the first candidate**, and goes on behind it the next time. -/
theorem findBridgeRoundrobin_eq (hidx : k.lastDeliveryIdx < k.bridgeTbl.length) :
    s.findBridgeRoundrobin k = .ok ((s.candidates k).head?,
      (s.candidates k).head?.elim k fun idx =>
        { k with lastDeliveryIdx := (idx + 1) % k.bridgeTbl.length }) := by
  have hloop := (roundrobinLoop_ends (s.routable k) hidx (k.bridgeTbl.length - 1) 0
    (by omega)).1
  have hzero : (k.lastDeliveryIdx + 0) % k.bridgeTbl.length = k.lastDeliveryIdx :=
    Nat.mod_eq_of_lt hidx
  rw [hzero, List.drop_zero, Nat.sub_add_cancel (by omega)] at hloop
  rw [findBridgeRoundrobin, if_neg (by omega), hloop, candidates, List.head?_filter]
  cases (circle k.bridgeTbl.length k.lastDeliveryIdx).find? (s.routable k) <;> rfl

/-- **One call** takes the next candidate, which is then the last one. -/
theorem findBridgeRoundrobin_next (hidx : k.lastDeliveryIdx < k.bridgeTbl.length)
    (h : s.candidates k = idx :: idxs) :
    ∃ k', s.findBridgeRoundrobin k = .ok (some idx, k') ∧ k'.bridgeTbl = k.bridgeTbl ∧
      k'.lastDeliveryIdx < k'.bridgeTbl.length ∧ s.candidates k' = idxs ++ [idx] := by
  refine ⟨{ k with lastDeliveryIdx := (idx + 1) % k.bridgeTbl.length }, ?_, rfl,
    Nat.mod_lt _ (by omega), filter_circle_next h⟩
  rw [findBridgeRoundrobin_eq hidx, h]
  rfl

theorem findBridgeRoundrobin_none (hidx : k.lastDeliveryIdx < k.bridgeTbl.length)
    (h : s.candidates k = []) : s.findBridgeRoundrobin k = .ok (none, k) := by
  rw [findBridgeRoundrobin_eq hidx, h]
  rfl

/-! ### Calls one after the other -/

/-- The results of `n` calls, and the scheduler after them. -/
def roundrobinCalls (s : SchedNet) : Nat → SkSched → Except SchedFault (List (Option Nat) × SkSched)
  | 0, k => .ok ([], k)
  | n + 1, k => do
    let (idx, k) ← s.findBridgeRoundrobin k
    let (idxs, k) ← s.roundrobinCalls n k
    .ok (idx :: idxs, k)

/-- What calls leave. -/
structure Called (s : SchedNet) (k : SkSched) (n : Nat) (idxs : List Nat) (k' : SkSched) :
    Prop where
  calls : s.roundrobinCalls n k = .ok (idxs.map some, k')
  length : idxs.length = n
  routable : ∀ idx ∈ idxs, s.routable k idx = true
  bridges : k'.bridgeTbl = k.bridgeTbl
  cursor : k'.lastDeliveryIdx < k'.bridgeTbl.length

/-- One call more, before the others. -/
theorem Called.cons {k₁ k₂ : SkSched} {n : Nat}
    (hfind : s.findBridgeRoundrobin k = .ok (some idx, k₁))
    (hidx : s.routable k idx = true) (hbridges : k₁.bridgeTbl = k.bridgeTbl)
    (h : s.Called k₁ n idxs k₂) : s.Called k (n + 1) (idx :: idxs) k₂ where
  calls := by
    rw [roundrobinCalls, hfind]
    show s.roundrobinCalls n k₁ >>= _ = _
    rw [h.calls]
    rfl
  length := by rw [List.length_cons, h.length]
  routable i hi := by
    rcases List.mem_cons.mp hi with rfl | hi
    · exact hidx
    · rw [← routable_congr hbridges]
      exact h.routable i hi
  bridges := h.bridges.trans hbridges
  cursor := h.cursor

/-- No more calls than there are candidates take one each. -/
theorem roundrobinCalls_take (n : Nat) (hidx : k.lastDeliveryIdx < k.bridgeTbl.length)
    (hn : n ≤ (s.candidates k).length) : ∃ k', s.Called k n ((s.candidates k).take n) k' := by
  induction n generalizing k with
  | zero => exact ⟨k, rfl, rfl, by simp, rfl, hidx⟩
  | succ n ih =>
    cases hc : s.candidates k with
    | nil =>
      rw [hc] at hn
      exact absurd hn (by simp)
    | cons idx idxs =>
      obtain ⟨k₁, hfind, hbridges, hcursor, hnext⟩ := findBridgeRoundrobin_next hidx hc
      rw [hc, List.length_cons] at hn
      obtain ⟨k₂, hcalled⟩ := ih hcursor (by rw [hnext, List.length_append]; omega)
      rw [hnext, List.take_append_of_le_length (by omega)] at hcalled
      have hroutable : s.routable k idx = true := mem_candidates.mp (hc ▸ .head _)
      exact ⟨k₂, hcalled.cons hfind hroutable hbridges⟩

/-- **All calls succeed** when there is a candidate. -/
theorem roundrobinCalls_total (n : Nat) (hidx : k.lastDeliveryIdx < k.bridgeTbl.length)
    (h : s.candidates k ≠ []) : ∃ idxs k', s.Called k n idxs k' := by
  induction n generalizing k with
  | zero => exact ⟨[], k, rfl, rfl, by simp, rfl, hidx⟩
  | succ n ih =>
    obtain ⟨idx, idxs, hc⟩ := List.exists_cons_of_ne_nil h
    obtain ⟨k₁, hfind, hbridges, hcursor, hnext⟩ := findBridgeRoundrobin_next hidx hc
    obtain ⟨idxs', k₂, hcalled⟩ := ih hcursor (by rw [hnext]; simp)
    have hroutable : s.routable k idx = true := mem_candidates.mp (hc ▸ .head _)
    exact ⟨idx :: idxs', k₂, hcalled.cons hfind hroutable hbridges⟩

/-- Calls after calls. -/
theorem roundrobinCalls_add (m n : Nat) {k₁ k₂ : SkSched} {as bs : List (Option Nat)}
    (hm : s.roundrobinCalls m k = .ok (as, k₁)) (hn : s.roundrobinCalls n k₁ = .ok (bs, k₂)) :
    s.roundrobinCalls (m + n) k = .ok (as ++ bs, k₂) := by
  induction m generalizing k as with
  | zero =>
    obtain ⟨rfl, rfl⟩ := Prod.mk.inj (Except.ok.inj hm)
    rwa [Nat.zero_add]
  | succ m ih =>
    obtain ⟨⟨a, k'⟩, hfind, hrest⟩ := except_bind_ok.mp hm
    obtain ⟨⟨as', k''⟩, hcalls, hend⟩ := except_bind_ok.mp hrest
    obtain ⟨rfl, rfl⟩ := Prod.mk.inj (Except.ok.inj hend)
    rw [Nat.add_right_comm, roundrobinCalls, hfind]
    show s.roundrobinCalls (m + n) k' >>= _ = _
    rw [ih hcalls]
    rfl

/-- **Any calls in a row**, not more than there are candidates, take different bridges. -/
theorem roundrobinCalls_window {n m j : Nat} {k' : SkSched}
    (hidx : k.lastDeliveryIdx < k.bridgeTbl.length) (hcalled : s.Called k n idxs k')
    (hm : m ≤ s.routableCount k) (hc : s.candidates k ≠ []) (hj : j + m ≤ n) :
    ((idxs.drop j).take m).Nodup := by
  -- the calls before, those calls, and the calls after
  obtain ⟨as, k₁, has⟩ := roundrobinCalls_total j hidx hc
  have hcount : (s.candidates k₁).length = s.routableCount k := by
    rw [length_candidates, routableCount, routableCount, has.bridges, routable_congr has.bridges]
  obtain ⟨k₂, hbs⟩ := roundrobinCalls_take m has.cursor (by rw [hcount]; exact hm)
  have hc₂ : s.candidates k₂ ≠ [] := by
    obtain ⟨i, is, hi⟩ := List.exists_cons_of_ne_nil hc
    have hroutable : s.routable k i = true := mem_candidates.mp (hi ▸ .head _)
    rw [← routable_congr has.bridges, ← routable_congr hbs.bridges] at hroutable
    exact List.ne_nil_of_mem (mem_candidates.mpr hroutable)
  obtain ⟨cs, k₃, hcs⟩ := roundrobinCalls_total (n - (j + m)) hbs.cursor hc₂
  have hall := roundrobinCalls_add _ _ (roundrobinCalls_add _ _ has.calls hbs.calls) hcs.calls
  rw [Nat.add_sub_cancel' hj, hcalled.calls, ← List.map_append, ← List.map_append] at hall
  have hidxs : idxs = as ++ (s.candidates k₁).take m ++ cs :=
    List.map_injective_iff.mpr (Option.some_injective _) (Prod.mk.inj (Except.ok.inj hall)).1
  have hlen : ((s.candidates k₁).take m).length = m := hbs.length
  have hdrop : idxs.drop j = (s.candidates k₁).take m ++ cs := by
    rw [hidxs, List.append_assoc]
    exact List.drop_left' has.length
  rw [hdrop, List.take_left' hlen]
  exact nodup_candidates.take

/-! ### What is promised -/

/-- **What is promised** of the messages without a destination that are in the scheduler `x`. -/
structure ServesInTurn (s : SchedNet) (x : Sched) (k : SkSched) : Prop where
  /-- With a bridge that may be taken, each call ends with one, and calls in a row take different
      ones, as long as there are more. -/
  fair : s.routableCount k ≠ 0 → ∀ n, ∃ idxs k', s.Called k n idxs k' ∧
    ∀ j, j + s.routableCount k ≤ n → ((idxs.drop j).take (s.routableCount k)).Nodup
  /-- The loop ends with the result of the call. -/
  ends : ∃ r k', s.findBridgeRoundrobin k = .ok (r, k') ∧
    RoundrobinEnds (s.routable k) k.bridgeTbl.length k.lastDeliveryIdx k.lastDeliveryIdx r
  /-- Without one a message is dropped. -/
  drops : s.routableCount k = 0 → ∀ ioTbl pri e rest, ioTbl pri .output = e :: rest →
    e.dst = none → e.hop ≠ schedMaxRoutingHop →
      (s.setSched x { k with ioTbl }).deliverTurn x pri =
        .ok (s.setSched x ({ k with ioTbl }.ioPull pri .output))

/-- There is a routable bridge when there is a candidate. -/
theorem routableCount_ne_zero : s.routableCount k ≠ 0 ↔ s.candidates k ≠ [] := by
  rw [← length_candidates]
  exact (List.length_eq_zero_iff).not

/-- **A message without a destination** is not dropped when there is no bridge for it. -/
theorem noCandidate_null {x : Sched} {pri : Nat} {e : SkEvent} {rest : List SkEvent}
    (hx : s.scheds x = some k) (hcount : s.routableCount k = 0)
    (hidx : k.bridgeTbl ≠ [] → k.lastDeliveryIdx < k.bridgeTbl.length)
    (he : k.ioTbl pri .output = e :: rest) (hdst : e.dst = none)
    (hhop : e.hop ≠ schedMaxRoutingHop) : s.deliverTurn x pri = .error .null := by
  have hsched : s.sched x = .ok k := by rw [sched, hx]
  have hfind : s.findBridge (k.ioPull pri .output) e.dst = .error .null ∨
      s.findBridge (k.ioPull pri .output) e.dst = .ok (none, k.ioPull pri .output) := by
    rw [hdst]
    show s.findBridgeRoundrobin _ = _ ∨ s.findBridgeRoundrobin _ = _
    by_cases hsize : k.bridgeTbl = []
    · left
      have hzero : (k.ioPull pri .output).bridgeTbl.length = 0 := by
        show k.bridgeTbl.length = 0
        rw [hsize]
        rfl
      rw [findBridgeRoundrobin, if_pos hzero]
    · right
      have hc : s.candidates k = [] := by
        by_contra hne
        exact routableCount_ne_zero.mpr hne hcount
      exact findBridgeRoundrobin_none (hidx hsize) hc
  simp only [deliverTurn, hsched, bind, Except.bind, he, if_neg hhop]
  rcases hfind with hfind | hfind
  · rw [hfind]
  · rw [hfind]
    show Except.error (if e.dst = none then SchedFault.null else .noBridge) = _
    rw [if_pos hdst]

/-- Without a bridge that may be taken the promise is not kept. -/
theorem ServesInTurn.exists_routable {x : Sched} (h : s.ServesInTurn x k)
    (hx : s.scheds x = some k)
    (hidx : k.bridgeTbl ≠ [] → k.lastDeliveryIdx < k.bridgeTbl.length) :
    ∃ idx, s.routable k idx = true := by
  by_contra hnone
  have hcount : s.routableCount k = 0 := by
    rw [routableCount, List.countP_eq_zero]
    exact fun idx _ hr => hnone ⟨idx, hr⟩
  -- one message, in all queues
  let e : SkEvent := { src := x, dst := none, ptoId := .workflowRun, hop := 0, data := 0 }
  let k' : SkSched := { k with ioTbl := fun _ _ => [e] }
  have hhop : e.hop ≠ schedMaxRoutingHop := (by decide : 0 ≠ schedMaxRoutingHop)
  have hrun := h.drops hcount k'.ioTbl 0 e [] rfl rfl hhop
  have hx' : (s.setSched x k').scheds x = some k' := if_pos rfl
  have hcount' : (s.setSched x k').routableCount k' = 0 := by
    have hbridges : k'.bridgeTbl = k.bridgeTbl := rfl
    have hflags : k'.flags = k.flags := rfl
    rw [routableCount, routable_congr hbridges, routable_setSched hx hflags]
    exact hcount
  have hqueue : k'.ioTbl 0 .output = [e] := rfl
  have hfail := noCandidate_null hx' hcount' hidx hqueue rfl hhop
  rw [hrun] at hfail
  exact absurd hfail (by simp)

/-- With one it is. -/
theorem servesInTurn_of_routable (x : Sched) (hroutable : s.routable k idx = true)
    (hidx : k.bridgeTbl ≠ [] → k.lastDeliveryIdx < k.bridgeTbl.length) : s.ServesInTurn x k := by
  have hc : s.candidates k ≠ [] := List.ne_nil_of_mem (mem_candidates.mpr hroutable)
  have hlast := hidx fun hnil => by
    have hlt := routable_lt hroutable
    rw [hnil] at hlt
    exact absurd hlt (by simp)
  refine ⟨fun _ n => ?_, ?_, fun hzero => absurd hzero (routableCount_ne_zero.mpr hc)⟩
  · obtain ⟨idxs, k', hcalled⟩ := roundrobinCalls_total n hlast hc
    exact ⟨idxs, k', hcalled, fun j hj => roundrobinCalls_window hlast hcalled (le_refl _) hc hj⟩
  · have hends := (roundrobinLoop_ends (s.routable k) hlast (k.bridgeTbl.length - 1) 0
      (by omega)).2
    have hzero : (k.lastDeliveryIdx + 0) % k.bridgeTbl.length = k.lastDeliveryIdx :=
      Nat.mod_eq_of_lt hlast
    rw [hzero, List.drop_zero, ← List.head?_filter] at hends
    exact ⟨_, _, findBridgeRoundrobin_eq hlast, hends⟩

/-- **When the promise is kept**: exactly when the scheduler has a bridge that may be taken. -/
theorem servesInTurn_iff (s : SchedNet) (x : Sched) (k : SkSched) (hx : s.scheds x = some k)
    (hidx : k.bridgeTbl ≠ [] → k.lastDeliveryIdx < k.bridgeTbl.length) :
    s.ServesInTurn x k ↔ ∃ idx, s.routable k idx = true :=
  ⟨fun h => h.exists_routable hx hidx, fun ⟨_, h⟩ => servesInTurn_of_routable x h hidx⟩

/-- The master of a core with one worker and one bio. -/
theorem oneWorker_servesInTurn : ∃ s k, setupEngines 1 1 = .ok s ∧ s.scheds .master = some k ∧
    (s.ServesInTurn .master k ↔ ∃ idx, s.routable k idx = true) :=
  ⟨_, _, rfl, rfl, servesInTurn_iff _ .master _ rfl (by decide)⟩

/-- The master of a core with one bio and no worker: `_deliver_one_io` uses `NULL` as a bridge. -/
theorem noWorker_null : ∃ s k, setupEngines 0 1 = .ok s ∧ s.scheds .master = some k ∧
    ¬s.ServesInTurn .master k := by
  refine ⟨_, _, rfl, rfl, fun h => ?_⟩
  obtain ⟨idx, hroutable⟩ := h.exists_routable rfl (by decide)
  have hzero : idx = 0 := by
    have hlt := routable_lt hroutable
    exact Nat.lt_one_iff.mp hlt
  subst hzero
  exact absurd hroutable (by decide)

end SchedNet

end Skull
