import Skull.Sched.Roundrobin
import Skull.Lib.Queues
import Mathlib.Data.List.Nodup

namespace Skull

open Machines

/-!
# What a step of the schedulers does

* `Place`, `SchedNet.queue` — all queues of a core, and the list of what was handled as one more;
* `SchedNet.links`, `SchedNet.Star` — which bridges there are, in every state;
* `SchedNet.setupEngines_star` — so the engines are set up;
* `SchedNet.findBridge_spec` — the bridge that is found;
* `SchedNet.Effect` — what a step can do: it pushes a message to one queue, or moves one from the
  head of a queue to another one;
* `SchedNet.exec_effect` — every step does, when no bridge is full and no event is at the hop limit.
-/

/-- Where a message can be. -/
inductive Place
  | handled
  | io (x : Sched) (pri : Nat) (type : IoType)
  | bridge (x : Sched) (idx : Nat)
  deriving DecidableEq, Repr

namespace SchedNet

variable {s s' : SchedNet} {x y : Sched} {k : SkSched} {pri idx : Nat} {type : IoType}
  {e e' : SkEvent} {b b' : IoBridge}

/-- The queues of a core. -/
def queue (s : SchedNet) : Queues Place SkEvent
  | .handled => s.handled.map Prod.snd
  | .io x pri type => (s.scheds x).elim [] fun k => k.ioTbl pri type
  | .bridge x idx => (s.scheds x).elim [] fun k => k.bridgeTbl[idx]?.elim [] IoBridge.mq

/-! ### One scheduler changes -/

/-- One scheduler is set. -/
@[simp] theorem setSched_scheds (s : SchedNet) (x : Sched) (k : SkSched) (y : Sched) :
    (s.setSched x k).scheds y = if y = x then some k else s.scheds y := rfl

/-- The scheduler that was set last stays. -/
theorem setSched_setSched (s : SchedNet) (x : Sched) (k k' : SkSched) :
    (s.setSched x k).setSched x k' = s.setSched x k' := by
  rw [setSched, setSched, setSched]
  congr 1
  funext y
  by_cases hy : y = x
  · rw [if_pos hy, if_pos hy]
  · rw [if_neg hy, if_neg hy]
    exact if_neg hy

/-- A scheduler that is there is found. -/
theorem sched_eq (h : s.scheds x = some k) : s.sched x = .ok k := by rw [sched, h]

/-- The queues of a scheduler. -/
theorem queue_io (h : s.scheds x = some k) (pri : Nat) (type : IoType) :
    s.queue (.io x pri type) = k.ioTbl pri type := by rw [queue, h, Option.elim_some]

/-- The queue of a bridge. -/
theorem queue_bridge (h : s.scheds x = some k) (hb : k.bridgeTbl[idx]? = some b) :
    s.queue (.bridge x idx) = b.mq := by
  rw [queue, h, Option.elim_some, hb, Option.elim_some]

/-- What a push adds to the queues. -/
theorem ioPush_ioTbl (k : SkSched) (p : Nat) (t : IoType) : (k.ioPush pri type e).ioTbl p t =
    if p = pri ∧ t = type then k.ioTbl p t ++ [e] else k.ioTbl p t := rfl

/-- What a pull leaves in the queues. -/
theorem ioPull_ioTbl (k : SkSched) (p : Nat) (t : IoType) : (k.ioPull pri type).ioTbl p t =
    if p = pri ∧ t = type then (k.ioTbl p t).tail else k.ioTbl p t := rfl

/-- The queues of another scheduler stay. -/
theorem queue_setSched {Q : Queues Place SkEvent}
    (hhandled : Q .handled = s.queue .handled)
    (hio : ∀ y pri type, Q (.io y pri type) =
      if y = x then k.ioTbl pri type else s.queue (.io y pri type))
    (hbridge : ∀ y idx, Q (.bridge y idx) =
      if y = x then k.bridgeTbl[idx]?.elim [] IoBridge.mq else s.queue (.bridge y idx)) :
    (s.setSched x k).queue = Q := by
  funext p
  cases p with
  | handled => exact hhandled.symm
  | io y pri type =>
    rw [hio, queue, setSched_scheds]
    split <;> rfl
  | bridge y idx =>
    rw [hbridge, queue, setSched_scheds]
    split <;> rfl

/-- An event is pushed to an io. -/
theorem queue_ioPush (h : s.scheds x = some k) :
    (s.setSched x (k.ioPush pri type e)).queue = s.queue.push (.io x pri type) e := by
  refine queue_setSched (Queues.push_of_ne (by simp)) (fun y p t => ?_) fun y i => ?_
  · by_cases hy : y = x
    · subst hy
      rw [if_pos rfl, ioPush_ioTbl, Queues.push, queue_io h]
      simp
    · rw [if_neg hy, Queues.push_of_ne (by simp [hy])]
  · rw [Queues.push_of_ne (by simp)]
    by_cases hy : y = x
    · rw [if_pos hy, hy, queue, h]
      rfl
    · rw [if_neg hy]

/-- An event is pulled from an io, by a scheduler that differs in nothing else that is queued. -/
theorem queue_ioPull (h : s.scheds x = some k) {k' : SkSched}
    (hio : k'.ioTbl = (k.ioPull pri type).ioTbl) (hbridge : k'.bridgeTbl = k.bridgeTbl) :
    (s.setSched x k').queue =
      fun p => if p = .io x pri type then (s.queue p).tail else s.queue p := by
  refine queue_setSched (if_neg (by simp)) (fun y p t => ?_) fun y i => ?_
  · by_cases hy : y = x
    · subst hy
      rw [if_pos rfl, hio, ioPull_ioTbl, queue_io h]
      simp
    · rw [if_neg hy, if_neg (by simp [hy])]
  · rw [if_neg (by simp)]
    by_cases hy : y = x
    · rw [if_pos hy, hy, queue, h, hbridge]
      rfl
    · rw [if_neg hy]

/-- A bridge has another queue. -/
theorem queue_setBridge (h : s.scheds x = some k) (hb : k.bridgeTbl[idx]? = some b) :
    (s.setSched x (k.setBridge idx b')).queue =
      fun p => if p = .bridge x idx then b'.mq else s.queue p := by
  refine queue_setSched (if_neg (by simp)) (fun y p t => ?_) fun y i => ?_
  · rw [if_neg (by simp)]
    by_cases hy : y = x
    · rw [if_pos hy, hy, queue_io h]
      rfl
    · rw [if_neg hy]
  · by_cases hy : y = x
    · subst hy
      rw [if_pos rfl, SkSched.setBridge, List.getElem?_set]
      by_cases hi : i = idx
      · subst hi
        have hlt : i < k.bridgeTbl.length := (List.getElem?_eq_some_iff.mp hb).1
        simp [hlt]
      · rw [if_neg (by simp [hi]), if_neg (Ne.symm hi), queue, h]
        rfl
    · rw [if_neg hy, if_neg (by simp [hy])]

/-! ### The star -/

/-- The schedulers that the bridges of a scheduler lead to, in their order. -/
def links (s : SchedNet) : Sched → List Sched
  | .master => (List.range s.threads).map .worker ++ (List.range s.bioCnt).map fun i => .bio (i + 1)
  | .worker _ | .bio _ => [.master]

/-- The flags of a scheduler. -/
def flagsOf : Sched → Nat
  | .master | .worker _ => 0
  | .bio _ => 1

/-- **The topology**: the master is linked both ways with every worker and bio. -/
structure Star (s : SchedNet) : Prop where
  threads : 0 < s.threads
  engine : ∀ x, (s.scheds x).isSome ↔ x ∈ s.engines
  links : ∀ x k, s.scheds x = some k → k.bridgeTbl.map IoBridge.dst = s.links x
  flags : ∀ x k, s.scheds x = some k → k.flags = flagsOf x
  last : ∀ x k, s.scheds x = some k → k.lastDeliveryIdx < k.bridgeTbl.length

/-- A scheduler is the master, or one that the master has a bridge to. -/
theorem mem_engines : x ∈ s.engines ↔ x = .master ∨ x ∈ s.links .master := by
  simp [engines, links]

/-- What is linked to a scheduler exists. -/
theorem mem_engines_of_mem_links (hx : x ∈ s.engines) (hy : y ∈ s.links x) : y ∈ s.engines := by
  cases x with
  | master => exact mem_engines.mpr (.inr hy)
  | worker i => exact mem_engines.mpr (.inl (List.mem_singleton.mp hy))
  | bio i => exact mem_engines.mpr (.inl (List.mem_singleton.mp hy))

/-- No two bridges lead to the same scheduler. -/
theorem links_nodup (s : SchedNet) (x : Sched) : (s.links x).Nodup := by
  cases x with
  | master =>
    refine List.nodup_append.mpr ⟨?_, ?_, ?_⟩
    · exact List.Nodup.map (fun _ _ heq => Sched.worker.inj heq) List.nodup_range
    · exact List.Nodup.map (fun _ _ heq => Nat.succ.inj (Sched.bio.inj heq)) List.nodup_range
    · intro y hy z hz
      obtain ⟨i, -, rfl⟩ := List.mem_map.mp hy
      obtain ⟨j, -, rfl⟩ := List.mem_map.mp hz
      simp
  | worker i => exact List.nodup_singleton _
  | bio i => exact List.nodup_singleton _

/-- No bridge leads back. -/
theorem not_mem_links (s : SchedNet) (x : Sched) : x ∉ s.links x := by
  cases x <;> simp [links]

/-- A scheduler changes that keeps its bridges. -/
theorem Star.setSched (h : s.Star) (hk : s.scheds x = some k) (k' : SkSched)
    (hlinks : k'.bridgeTbl.map IoBridge.dst = k.bridgeTbl.map IoBridge.dst)
    (hflags : k'.flags = k.flags) (hlast : k'.lastDeliveryIdx < k'.bridgeTbl.length) :
    (s.setSched x k').Star := by
  -- the scheduler that is set, and the others
  refine ⟨h.threads, fun y => ?_, fun y l hl => ?_, fun y l hl => ?_, fun y l hl => ?_⟩
  · rw [setSched_scheds]
    by_cases hy : y = x
    · subst hy
      rw [if_pos rfl]
      exact (by rw [hk]; rfl : (some k').isSome ↔ (s.scheds y).isSome).trans (h.engine y)
    · rw [if_neg hy]
      exact h.engine y
  · rw [setSched_scheds] at hl
    split at hl
    · rename_i hy
      obtain rfl := Option.some.inj hl
      rw [hy, hlinks]
      exact h.links x k hk
    · exact h.links y l hl
  · rw [setSched_scheds] at hl
    split at hl
    · rename_i hy
      obtain rfl := Option.some.inj hl
      rw [hy, hflags]
      exact h.flags x k hk
    · exact h.flags y l hl
  · rw [setSched_scheds] at hl
    split at hl
    · obtain rfl := Option.some.inj hl
      exact hlast
    · exact h.last y l hl

/-! ### Setting it up -/

/-- A bridge is added. -/
theorem engineLink_ok {src dst : Sched} (hk : s.scheds src = some k)
    (h : s.engineLink src dst = .ok s') :
    s' = s.setSched src { k with bridgeTbl := k.bridgeTbl ++ [⟨dst, []⟩] } := by
  simp only [engineLink, sched_eq hk, bind, Except.bind] at h
  split at h
  · exact absurd h (by simp)
  · exact (Except.ok.inj h).symm

/-- A scheduler without messages that has bridges to `dsts`. -/
def linked (flags : Nat) (dsts : List Sched) : SkSched :=
  { schedCreate flags with bridgeTbl := dsts.map fun d => ⟨d, []⟩ }

/-- So far `n` workers and `m` bios are set up. -/
structure Built (s : SchedNet) (n m : Nat) : Prop where
  master : s.scheds .master = some (linked 0
    ((List.range n).map .worker ++ (List.range m).map fun i => .bio (i + 1)))
  worker : ∀ i, s.scheds (.worker i) = if i < n then some (linked 0 [.master]) else none
  bio : ∀ i, s.scheds (.bio i) = if 0 < i ∧ i ≤ m then some (linked 1 [.master]) else none
  sent : s.sent = []
  handled : s.handled = []

/-- One worker more is set up. -/
theorem setupWorker_built {n : Nat} (h : s.Built n 0) (hok : s.setupWorker n = .ok s') :
    s'.Built (n + 1) 0 ∧ s'.threads = s.threads ∧ s'.bioCnt = s.bioCnt := by
  obtain ⟨s₁, h₁, h₂⟩ := except_bind_ok.mp hok
  have hmaster : (s.setSched (.worker n) (schedCreate 0)).scheds .master = s.scheds .master := by
    rw [setSched_scheds, if_neg (by simp)]
  obtain rfl := engineLink_ok (hmaster.trans h.master) h₁
  obtain rfl := engineLink_ok (k := schedCreate 0) (by simp) h₂
  refine ⟨⟨?_, fun i => ?_, fun i => ?_, h.sent, h.handled⟩, rfl, rfl⟩
  · simp [linked, List.range_succ]
  · rcases Nat.lt_trichotomy i n with hlt | rfl | hgt
    · simp [h.worker, hlt.ne, hlt, Nat.lt_succ_of_lt hlt]
    · simp [linked, schedCreate]
    · simp [h.worker, hgt.ne', Nat.not_lt_of_gt hgt, show ¬ i < n + 1 by omega]
  · simp [h.bio]

/-- One bio more is set up. -/
theorem setupBio_built {n m : Nat} (h : s.Built n m) (hok : s.setupBio m = .ok s') :
    s'.Built n (m + 1) ∧ s'.threads = s.threads ∧ s'.bioCnt = s.bioCnt := by
  obtain ⟨s₁, h₁, h₂⟩ := except_bind_ok.mp hok
  obtain rfl := engineLink_ok (k := schedCreate 1) (by simp) h₁
  have hmaster : ((s.setSched (.bio (m + 1)) (schedCreate 1)).setSched (.bio (m + 1))
      { schedCreate 1 with bridgeTbl := (schedCreate 1).bridgeTbl ++ [⟨.master, []⟩] }).scheds
        .master = s.scheds .master := by
    rw [setSched_scheds, if_neg (by simp), setSched_scheds, if_neg (by simp)]
  obtain rfl := engineLink_ok (hmaster.trans h.master) h₂
  refine ⟨⟨?_, fun i => ?_, fun i => ?_, h.sent, h.handled⟩, rfl, rfl⟩
  · simp [linked, List.range_succ]
  · simp [h.worker]
  · rcases Nat.lt_trichotomy i (m + 1) with hlt | rfl | hgt
    · simp [h.bio, hlt.ne, Nat.lt_succ_iff.mp hlt, hlt.le]
    · simp [linked, schedCreate]
    · simp [h.bio, hgt.ne', show ¬ i ≤ m by omega, show ¬ i ≤ m + 1 by omega]

namespace Built

/-- The schedulers that are set up are the engines, each with its bridges. -/
theorem sched (h : s.Built s.threads s.bioCnt) {x : Sched} {k : SkSched}
    (hk : s.scheds x = some k) : x ∈ s.engines ∧ k = linked (flagsOf x) (s.links x) := by
  cases x with
  | master =>
    rw [h.master] at hk
    exact ⟨.head _, (Option.some.inj hk).symm⟩
  | worker i =>
    rw [h.worker] at hk
    split at hk
    · exact ⟨by simpa [engines], (Option.some.inj hk).symm⟩
    · exact absurd hk (by simp)
  | bio i =>
    rw [h.bio] at hk
    split at hk
    · -- the bios are numbered from one
      refine ⟨?_, (Option.some.inj hk).symm⟩
      simp only [engines]
      simp
      exact ⟨i - 1, by omega, by omega⟩
    · exact absurd hk (by simp)

/-- What is built is there. -/
theorem engine (h : s.Built s.threads s.bioCnt) {x : Sched} (hx : x ∈ s.engines) :
    (s.scheds x).isSome := by
  rcases mem_engines.mp hx with rfl | hmem
  · rw [h.master]
    rfl
  · rw [links, List.mem_append] at hmem
    rcases hmem with hmem | hmem
    · obtain ⟨i, hi, rfl⟩ := List.mem_map.mp hmem
      rw [h.worker, if_pos (List.mem_range.mp hi)]
      rfl
    · obtain ⟨i, hi, rfl⟩ := List.mem_map.mp hmem
      rw [h.bio, if_pos ⟨Nat.succ_pos i, List.mem_range.mp hi⟩]
      rfl

/-- What is set up is a star. -/
theorem star (h : s.Built s.threads s.bioCnt) (hthreads : 0 < s.threads) : s.Star := by
  refine ⟨hthreads, fun x => ⟨fun hx => ?_, h.engine⟩, fun x k hk => ?_, fun x k hk => ?_,
    fun x k hk => ?_⟩
  · obtain ⟨k, hk⟩ := Option.isSome_iff_exists.mp hx
    exact (h.sched hk).1
  · rw [(h.sched hk).2, linked, List.map_map]
    exact List.map_id _
  · rw [(h.sched hk).2]
    rfl
  · -- the master has a worker, and all others have the master
    have hne : s.links x ≠ [] := by
      cases x with
      | master =>
        rw [links]
        simp
        omega
      | worker i => exact List.cons_ne_nil _ _
      | bio i => exact List.cons_ne_nil _ _
    rw [(h.sched hk).2]
    simpa [linked, schedCreate, List.length_pos_iff] using hne

/-- What is set up has no message. -/
theorem queue_nil (h : s.Built s.threads s.bioCnt) (p : Place) : s.queue p = [] := by
  cases p with
  | handled => rw [queue, h.handled, List.map_nil]
  | io x pri type =>
    cases hk : s.scheds x with
    | none => rw [queue, hk, Option.elim_none]
    | some k =>
      rw [queue_io hk, (h.sched hk).2]
      rfl
  | bridge x idx =>
    cases hk : s.scheds x with
    | none => rw [queue, hk, Option.elim_none]
    | some k =>
      rw [queue, hk, Option.elim_some, (h.sched hk).2, linked, List.getElem?_map]
      cases (s.links x)[idx]? <;> rfl

end Built

/-- The two loops of the setup, with what each turn builds. -/
theorem setupEngines_built {threads bioCnt : Nat} (hok : setupEngines threads bioCnt = .ok s) :
    s.Built threads bioCnt ∧ s.threads = threads ∧ s.bioCnt = bioCnt := by
  let s₀ : SchedNet := { threads, bioCnt, scheds := fun _ => none, sent := [], handled := [] }
  have hstart : (s₀.setSched .master (schedCreate 0)).Built 0 0 :=
    ⟨rfl, fun i => rfl, fun i => (if_neg (by omega)).symm, rfl, rfl⟩
  obtain ⟨s₁, hworkers, hbios⟩ := except_bind_ok.mp hok
  obtain ⟨hbuilt₁, hthreads₁, hbioCnt₁⟩ := foldlM_range_ok
    (I := fun n s => s.Built n 0 ∧ s.threads = threads ∧ s.bioCnt = bioCnt)
    (fun n s t h hok => by
      obtain ⟨hbuilt, hthreads, hbioCnt⟩ := setupWorker_built h.1 hok
      exact ⟨hbuilt, hthreads.trans h.2.1, hbioCnt.trans h.2.2⟩)
    ⟨hstart, rfl, rfl⟩ hworkers
  exact foldlM_range_ok
    (I := fun m s => s.Built threads m ∧ s.threads = threads ∧ s.bioCnt = bioCnt)
    (fun m s t h hok => by
      obtain ⟨hbuilt, hthreads, hbioCnt⟩ := setupBio_built h.1 hok
      exact ⟨hbuilt, hthreads.trans h.2.1, hbioCnt.trans h.2.2⟩)
    ⟨hbuilt₁, hthreads₁, hbioCnt₁⟩ hbios

/-- **The engines are set up** as a star, and no message is anywhere. -/
theorem setupEngines_star {threads bioCnt : Nat} (hthreads : 0 < threads)
    (hok : setupEngines threads bioCnt = .ok s) :
    s.Star ∧ s.threads = threads ∧ s.bioCnt = bioCnt ∧ s.sent = [] ∧ s.handled = [] ∧
      ∀ p, s.queue p = [] := by
  obtain ⟨hbuilt, rfl, rfl⟩ := setupEngines_built hok
  exact ⟨hbuilt.star hthreads, rfl, rfl, hbuilt.sent, hbuilt.handled, hbuilt.queue_nil⟩

/-! ### Finding a bridge -/

/-- A worker is at the other end of the first bridge of the master, and the master of all others:
    the first bridge leads to a scheduler that takes messages without a destination. -/
theorem Star.routable_zero (h : s.Star) (hk : s.scheds x = some k) (hx : x ∈ s.engines) :
    s.routable k 0 = true := by
  have hlinks := h.links x k hk
  obtain ⟨y, hy, hflags⟩ : ∃ y, (s.links x)[0]? = some y ∧ flagsOf y = 0 := by
    cases x with
    | master =>
      refine ⟨.worker 0, ?_, rfl⟩
      have hthreads := h.threads
      rw [SchedNet.links, List.getElem?_append_left (by simpa using hthreads)]
      simp [hthreads]
    | worker i => exact ⟨.master, rfl, rfl⟩
    | bio i => exact ⟨.master, rfl, rfl⟩
  have hmem : y ∈ s.links x := List.mem_of_getElem? hy
  obtain ⟨l, hl⟩ := Option.isSome_iff_exists.mp
    ((h.engine y).mpr (mem_engines_of_mem_links hx hmem))
  rw [← hlinks, List.getElem?_map, Option.map_eq_some_iff] at hy
  obtain ⟨b, hb, rfl⟩ := hy
  have hflag := h.flags _ l hl
  rw [hflags] at hflag
  simp [routable, hb, hl, SkSched.rrRoutable, hflag]

/-- **Finding a bridge.** One that leads to the destination is taken, if there is one; nothing
    else of the scheduler changes but the place where the next search begins. -/
theorem Star.findBridge_spec (h : s.Star) (hk : s.scheds x = some k) (k₁ : SkSched)
    (hbridge : k₁.bridgeTbl = k.bridgeTbl) (hlast : k₁.lastDeliveryIdx = k.lastDeliveryIdx)
    (dst : Option Sched) :
    ∃ idx k', s.findBridge k₁ dst = .ok (some idx, k') ∧ idx < k.bridgeTbl.length ∧
      k'.ioTbl = k₁.ioTbl ∧ k'.bridgeTbl = k.bridgeTbl ∧ k'.flags = k₁.flags ∧
      k'.lastDeliveryIdx < k.bridgeTbl.length ∧
      ∀ d ∈ dst, d ∈ s.links x → (s.links x)[idx]? = some d := by
  have hx : x ∈ s.engines := (h.engine x).mp (by rw [hk]; rfl)
  have hlt := h.last x k hk
  have hlinks := h.links x k hk
  -- the search for any bridge
  have hroundrobin : ∃ idx k', s.findBridgeRoundrobin k₁ = .ok (some idx, k') ∧
      idx < k.bridgeTbl.length ∧ k'.ioTbl = k₁.ioTbl ∧ k'.bridgeTbl = k.bridgeTbl ∧
      k'.flags = k₁.flags ∧ k'.lastDeliveryIdx < k.bridgeTbl.length := by
    have hroutable : s.routable k₁ 0 = true := by
      rw [routable, hbridge]
      exact h.routable_zero hk hx
    have hmem : 0 ∈ s.candidates k₁ := mem_candidates.mpr hroutable
    obtain ⟨idx, idxs, hcand⟩ := List.exists_cons_of_ne_nil (List.ne_nil_of_mem hmem)
    have hidx : s.routable k₁ idx = true := mem_candidates.mp (hcand ▸ List.mem_cons_self)
    have hidx_lt : idx < k.bridgeTbl.length := hbridge ▸ routable_lt hidx
    refine ⟨idx, { k₁ with lastDeliveryIdx := (idx + 1) % k.bridgeTbl.length }, ?_, hidx_lt, rfl,
      hbridge, rfl, Nat.mod_lt _ (Nat.zero_lt_of_lt hidx_lt)⟩
    rw [findBridgeRoundrobin_eq (by rw [hlast, hbridge]; exact hlt), hcand, hbridge]
    rfl
  cases dst with
  | none =>
    obtain ⟨idx, k', hfind, hrest⟩ := hroundrobin
    exact ⟨idx, k', hfind, hrest.1, hrest.2.1, hrest.2.2.1, hrest.2.2.2.1, hrest.2.2.2.2, by simp⟩
  | some d =>
    cases hfind : k₁.findAffinityBridge d with
    | none =>
      obtain ⟨idx, k', hfind', hrest⟩ := hroundrobin
      refine ⟨idx, k', ?_, hrest.1, hrest.2.1, hrest.2.2.1, hrest.2.2.2.1, hrest.2.2.2.2, ?_⟩
      · rw [findBridge, Option.bind_some, hfind]
        exact hfind'
      · intro d' hd' hmem
        obtain rfl := Option.mem_some_iff.mp hd'
        rw [← hlinks] at hmem
        obtain ⟨b, hb, rfl⟩ := List.mem_map.mp hmem
        rw [SkSched.findAffinityBridge, hbridge, List.findIdx?_eq_none_iff] at hfind
        exact absurd (hfind b hb) (by simp)
    | some idx =>
      have hat := hfind
      rw [SkSched.findAffinityBridge, hbridge, List.findIdx?_eq_some_iff_getElem] at hat
      obtain ⟨hidx, hd, -⟩ := hat
      refine ⟨idx, k₁, ?_, hidx, rfl, hbridge, rfl, by omega, ?_⟩
      · rw [findBridge, Option.bind_some, hfind]
      · intro d' hd' _
        obtain rfl := Option.mem_some_iff.mp hd'
        rw [← hlinks, List.getElem?_map, List.getElem?_eq_getElem hidx, Option.map_some]
        exact congrArg some (of_decide_eq_true hd)

/-! ### Steps -/

/-- What is known of a message that is in a place. -/
def Fits (s : SchedNet) : Place → SkEvent → Prop
  | .handled, e => e.hop ≤ 2
  | .io x pri .input, e => e.ptoId.pri = pri ∧ e.dst = some x ∧ e.hop ≤ 2
  | .io x pri .output, e => e.ptoId.pri = pri ∧ e.dst ≠ some e.src ∧ (∀ d ∈ e.dst, d ∈ s.engines) ∧
      (x = e.src ∧ e.hop = 0 ∨
        x = .master ∧ e.src ≠ .master ∧ e.hop = 1 ∧ ∃ d ∈ s.links .master, e.dst = some d)
  | .bridge x idx, e => e.dst ≠ some e.src ∧
      (x = e.src ∧ e.hop = 1 ∨ x = .master ∧ e.src ≠ .master ∧ e.hop = 2) ∧
      ∃ d ∈ s.engines, e.dst = some d ∧ (x = .master → (s.links x)[idx]? = some d)

/-- A message moves from the head of one queue to another one. -/
structure Hop (s : SchedNet) (p p' : Place) (e e' : SkEvent) (s' : SchedNet) : Prop where
  head : ∃ rest, s.queue p = e :: rest
  queue : s'.queue = s.queue.move p p' e'
  sent : s'.sent = s.sent

/-- **What a step can do.** -/
inductive Effect (s : SchedNet) : SchedAction → SchedNet → Prop
  /-- A message is sent. -/
  | send {src : Sched} {dst : Option Sched} {ptoId : PtoId} {s' : SchedNet}
      (hsrc : src ∈ s.engines) (hdst : ∀ d ∈ dst, d ∈ s.engines)
      (hqueue : s'.queue = s.queue.push
        (.io src ptoId.pri (if dst = some src then .input else .output))
        { src, dst, ptoId, hop := 0, data := s.sent.length })
      (hsent : s'.sent = s.sent ++ [{ src, dst, ptoId, hop := 0, data := s.sent.length }])
      (hhandled : s'.handled = s.handled) : Effect s (.send src dst ptoId) s'
  /-- A message is delivered to a bridge that leads to `t`. -/
  | deliver {x t : Sched} {pri idx : Nat} {e : SkEvent} {s' : SchedNet} (hx : x ∈ s.engines)
      (hlink : (s.links x)[idx]? = some t) (hdst : ∀ d ∈ e.dst, d ∈ s.links x → t = d)
      (hop : s.Hop (.io x pri .output) (.bridge x idx) e
        { e with dst := some (e.dst.getD t), hop := (e.hop + 1) % 256 } s')
      (hhandled : s'.handled = s.handled) : Effect s (.deliver x pri) s'
  /-- A message is copied from a bridge that leads to `t`. -/
  | copy {x t : Sched} {idx : Nat} {e : SkEvent} {s' : SchedNet} (hx : x ∈ s.engines)
      (hlink : (s.links x)[idx]? = some t)
      (hop : s.Hop (.bridge x idx)
        (.io t e.ptoId.pri (if e.dst = some t then .input else .output)) e e s')
      (hhandled : s'.handled = s.handled) : Effect s (.copy x idx) s'
  /-- A message is handled. -/
  | run {x : Sched} {pri : Nat} {e : SkEvent} {s' : SchedNet} (hx : x ∈ s.engines)
      (hop : s.Hop (.io x pri .input) .handled e e s')
      (hhandled : s'.handled = s.handled ++ [(x, e)]) : Effect s (.run x pri) s'

/-- No bridge is full. -/
def Roomy (s : SchedNet) (_ : SchedAction) : Prop :=
  ∀ x ∈ s.engines, ∀ k ∈ s.scheds x, ∀ b ∈ k.bridgeTbl, b.mq.length < schedIoBridgeSz

instance (s : SchedNet) (a : SchedAction) : Decidable (s.Roomy a) :=
  inferInstanceAs (Decidable (∀ x ∈ s.engines, ∀ k ∈ s.scheds x, ∀ b ∈ k.bridgeTbl, _ < _))

/-- The end of a step: the topology is as before. -/
structure Same (s s' : SchedNet) : Prop where
  star : s'.Star
  threads : s'.threads = s.threads
  bioCnt : s'.bioCnt = s.bioCnt

/-- **A message is sent.** -/
theorem send_effect (h : s.Star) {src : Sched} {dst : Option Sched} {ptoId : PtoId}
    (henabled : s.enabled (.send src dst ptoId)) :
    ∃ s', s.exec (.send src dst ptoId) = .ok s' ∧ s.Same s' ∧ Effect s (.send src dst ptoId) s' := by
  obtain ⟨hsrc, hdst⟩ := henabled
  obtain ⟨k, hk⟩ := Option.isSome_iff_exists.mp ((h.engine src).mpr hsrc)
  have hstar : (s.setSched src (k.ioPush ptoId.pri (if dst = some src then .input else .output)
      { src, dst, ptoId, hop := 0, data := s.sent.length })).Star :=
    h.setSched hk _ rfl rfl (h.last src k hk)
  refine ⟨{ s.setSched src (k.ioPush ptoId.pri (if dst = some src then .input else .output)
      { src, dst, ptoId, hop := 0, data := s.sent.length }) with
        sent := s.sent ++ [{ src, dst, ptoId, hop := 0, data := s.sent.length }] }, ?_,
    ⟨⟨hstar.threads, hstar.engine, hstar.links, hstar.flags, hstar.last⟩, rfl, rfl⟩,
    .send hsrc hdst ?_ rfl rfl⟩
  · simp only [exec, schedSend, emitEvent, sched_eq hk, bind, Except.bind]
  · exact queue_ioPush hk

/-- A bridge has another queue, and leads to where it did. -/
theorem setBridge_links (hb : k.bridgeTbl[idx]? = some b) (hdst : b'.dst = b.dst) :
    (k.setBridge idx b').bridgeTbl.map IoBridge.dst = k.bridgeTbl.map IoBridge.dst := by
  rw [SkSched.setBridge, List.map_set]
  refine List.ext_getElem? fun i => ?_
  by_cases hi : idx = i
  · subst hi
    have hlt : idx < k.bridgeTbl.length := (List.getElem?_eq_some_iff.mp hb).1
    rw [List.getElem?_set_self (by rwa [List.length_map]), List.getElem?_map, hb, Option.map_some,
      hdst]
  · rw [List.getElem?_set_ne hi]

/-- **A message is delivered** where the bridge that is found has room. -/
theorem deliver_effect_of_room (h : s.Star) (hfits : ∀ p, ∀ e ∈ s.queue p, s.Fits p e)
    (hroom : ∀ k, s.scheds x = some k → ∀ e rest idx k' b, k.ioTbl pri .output = e :: rest →
      s.findBridge (k.ioPull pri .output) e.dst = .ok (some idx, k') →
        k.bridgeTbl[idx]? = some b → b.mq.length < schedIoBridgeSz)
    (henabled : s.enabled (.deliver x pri)) :
    ∃ s', s.exec (.deliver x pri) = .ok s' ∧ s.Same s' ∧ Effect s (.deliver x pri) s' := by
  obtain ⟨k, hk, hne⟩ := (Option.any_eq_true ..).mp henabled
  have hx : x ∈ s.engines := (h.engine x).mp (by rw [hk]; rfl)
  obtain ⟨e, rest, hqueue⟩ := List.exists_cons_of_ne_nil (of_decide_eq_true hne)
  have hfit := hfits (.io x pri .output) e (by rw [queue_io hk, hqueue]; exact .head _)
  have hhop : e.hop ≠ schedMaxRoutingHop := by
    obtain ⟨-, -, -, ⟨-, hhop⟩ | ⟨-, -, hhop, -⟩⟩ := hfit
    · rw [hhop]; decide
    · rw [hhop]; decide
  obtain ⟨idx, k', hfind, hidx, hio, hbridge, hflags, hlast, hdst⟩ :=
    h.findBridge_spec hk (k.ioPull pri .output) rfl rfl e.dst
  have hb : k.bridgeTbl[idx]? = some k.bridgeTbl[idx] := List.getElem?_eq_getElem hidx
  have hroom := hroom k hk e rest idx k' _ hqueue hfind hb
  have hlink : (s.links x)[idx]? = some k.bridgeTbl[idx].dst := by
    rw [← h.links x k hk, List.getElem?_map, hb, Option.map_some]
  set b := k.bridgeTbl[idx] with hbdef
  set e' : SkEvent := { e with dst := some (e.dst.getD b.dst), hop := (e.hop + 1) % 256 } with he'
  refine ⟨s.setSched x (k'.setBridge idx { b with mq := b.mq ++ [e'] }), ?_, ⟨?_, rfl, rfl⟩,
    .deliver hx hlink (fun d hd hmem => ?_) ⟨⟨rest, (queue_io hk _ _).trans hqueue⟩, ?_, rfl⟩ rfl⟩
  · simp only [exec, deliverTurn, sched_eq hk, bind, Except.bind, hqueue]
    rw [if_neg hhop, hfind]
    simp only [Option.bind_some, hbridge, hb, Option.map_some]
    rw [if_neg (Nat.not_le.mpr hroom)]
  · refine h.setSched hk _ ?_ hflags ?_
    · have hb' : k'.bridgeTbl[idx]? = some b := by rw [hbridge]; exact hb
      rw [← hbridge]
      exact setBridge_links hb' rfl
    · rw [SkSched.setBridge, List.length_set, hbridge]
      exact hlast
  · exact Option.some.inj (hlink.symm.trans (hdst d hd hmem))
  · -- the event is pulled first, and then the bridge gets it
    have hpull := queue_ioPull hk hio hbridge
    have hself : (s.setSched x k').scheds x = some k' := by rw [setSched_scheds, if_pos rfl]
    rw [← setSched_setSched s x k', queue_setBridge hself (by rw [hbridge]; exact hb), hpull]
    funext p
    by_cases hp : p = .bridge x idx
    · subst hp
      rw [if_pos rfl, Queues.move_to (by simp), queue_bridge hk hb]
    · rw [if_neg hp, Queues.move, Queues.push_of_ne hp]

/-- **A message is delivered.** -/
theorem deliver_effect (h : s.Star) (hfits : ∀ p, ∀ e ∈ s.queue p, s.Fits p e)
    (hroomy : s.Roomy (.deliver x pri)) (henabled : s.enabled (.deliver x pri)) :
    ∃ s', s.exec (.deliver x pri) = .ok s' ∧ s.Same s' ∧ Effect s (.deliver x pri) s' := by
  refine deliver_effect_of_room h hfits (fun k hk e rest idx k' b _ _ hb => ?_) henabled
  exact hroomy x ((h.engine x).mp (by rw [hk]; rfl)) k hk b (List.mem_of_getElem? hb)

/-- **A message is copied.** -/
theorem copy_effect (h : s.Star) (henabled : s.enabled (.copy x idx)) :
    ∃ s', s.exec (.copy x idx) = .ok s' ∧ s.Same s' ∧ Effect s (.copy x idx) s' := by
  obtain ⟨k, hk, hany⟩ := (Option.any_eq_true ..).mp henabled
  obtain ⟨b, hb, hne⟩ := (Option.any_eq_true ..).mp hany
  obtain ⟨e, rest, hmq⟩ := List.exists_cons_of_ne_nil (of_decide_eq_true hne)
  have hx : x ∈ s.engines := (h.engine x).mp (by rw [hk]; rfl)
  have hlt : idx < k.bridgeTbl.length := (List.getElem?_eq_some_iff.mp hb).1
  have hlink : (s.links x)[idx]? = some b.dst := by
    rw [← h.links x k hk, List.getElem?_map, hb, Option.map_some]
  have hmem : b.dst ∈ s.links x := List.mem_of_getElem? hlink
  have hne : b.dst ≠ x := fun heq => not_mem_links s x (heq ▸ hmem)
  obtain ⟨d, hd⟩ := Option.isSome_iff_exists.mp
    ((h.engine b.dst).mpr (mem_engines_of_mem_links hx hmem))
  -- the event is popped first, and then the other scheduler gets it
  have hpop : (s.setSched x (k.setBridge idx { b with mq := rest })).Star := by
    refine h.setSched hk _ (setBridge_links hb rfl) rfl ?_
    rw [SkSched.setBridge, List.length_set]
    exact h.last x k hk
  have hd' : (s.setSched x (k.setBridge idx { b with mq := rest })).scheds b.dst = some d := by
    rw [setSched_scheds, if_neg hne, hd]
  have hpush := hpop.setSched hd'
    (d.ioPush e.ptoId.pri (if e.dst = some b.dst then .input else .output) e) rfl rfl
    (hpop.last _ d hd')
  refine ⟨_, ?_, ⟨hpush, rfl, rfl⟩, .copy hx hlink ⟨⟨rest, (queue_bridge hk hb).trans hmq⟩, ?_, rfl⟩
    rfl⟩
  · simp only [exec, copyTurn, sched_eq hk, bind, Except.bind, hb, hmq, sched_eq hd']
  · rw [queue_ioPush hd', queue_setBridge hk hb, Queues.move]
    congr 1
    funext p
    by_cases hp : p = .bridge x idx
    · rw [if_pos hp, if_pos hp, hp, queue_bridge hk hb, hmq, List.tail_cons]
    · rw [if_neg hp, if_neg hp]

/-- **A message is handled.** -/
theorem run_effect (h : s.Star) (hfits : ∀ p, ∀ e ∈ s.queue p, s.Fits p e)
    (henabled : s.enabled (.run x pri)) :
    ∃ s', s.exec (.run x pri) = .ok s' ∧ s.Same s' ∧ Effect s (.run x pri) s' := by
  obtain ⟨k, hk, hne⟩ := (Option.any_eq_true ..).mp henabled
  have hx : x ∈ s.engines := (h.engine x).mp (by rw [hk]; rfl)
  obtain ⟨e, rest, hqueue⟩ := List.exists_cons_of_ne_nil (of_decide_eq_true hne)
  have hfit := hfits (.io x pri .input) e (by rw [queue_io hk, hqueue]; exact .head _)
  have hstar := h.setSched hk (k.ioPull pri .input) rfl rfl (h.last x k hk)
  refine ⟨{ s.setSched x (k.ioPull pri .input) with handled := s.handled ++ [(x, e)] }, ?_,
    ⟨⟨hstar.threads, hstar.engine, hstar.links, hstar.flags, hstar.last⟩, rfl, rfl⟩,
    .run hx ⟨⟨rest, (queue_io hk _ _).trans hqueue⟩, ?_, rfl⟩ rfl⟩
  · simp only [exec, runTurn, sched_eq hk, bind, Except.bind, hqueue]
    rw [if_neg (not_not_intro hfit.2.1)]
  · have hpull : (s.setSched x (k.ioPull pri .input)).queue =
        fun p => if p = .io x pri .input then (s.queue p).tail else s.queue p :=
      queue_ioPull hk rfl rfl
    funext p
    cases p with
    | handled =>
      rw [Queues.move_to (by simp), queue, queue]
      simp
    | io y p t =>
      rw [Queues.move, Queues.push_of_ne (by simp)]
      exact congrFun hpull (.io y p t)
    | bridge y i =>
      rw [Queues.move, Queues.push_of_ne (by simp)]
      exact congrFun hpull (.bridge y i)

/-- **Every step** runs without a fault, and does what it can do. -/
theorem exec_effect (h : s.Star) (hfits : ∀ p, ∀ e ∈ s.queue p, s.Fits p e) {a : SchedAction}
    (hroomy : s.Roomy a) (henabled : s.enabled a) :
    ∃ s', s.exec a = .ok s' ∧ s.Same s' ∧ Effect s a s' := by
  cases a with
  | send src dst ptoId => exact send_effect h henabled
  | deliver x pri => exact deliver_effect h hfits hroomy henabled
  | copy x idx => exact copy_effect h henabled
  | run x pri => exact run_effect h hfits henabled

end SchedNet

end Skull
