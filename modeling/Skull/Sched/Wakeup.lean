import Skull.Sched.Loops

namespace Skull

open Machines

/-!
# No wake-up is lost

A thread sleeps in its event loop for up to a second, so a message that is put where a sleeping
thread does not look would be late.  Messages come to other threads through the bridges, whose
eventfds are written after the messages, and read before they are taken:

* `SchedNet.Own` — what a thread does to the queues: it leaves those of the other threads alone;
* `SchedPc.Drained` — what a thread has found empty when it is at a place of its loops;
* `SchedPc.Notifying` — the thread has yet to notify a bridge;
* `SchedThreads.Awake` — **a bridge that holds messages** has a counter that is not zero, a sender
  that has yet to notify it, or a receiver that is taking messages from it;
* `SchedThreads.wakeup_run` — a thread that sleeps has nothing to do, and when all of them sleep
  every message that was sent has been handled.
-/

namespace SchedNet

variable {s s' t : SchedNet} {x y z : Sched} {k k' : SkSched} {pri idx : Nat}

/-! ### What a thread does to the queues -/

/-- The queues of other schedulers stay, and so does what the bridges lead to. -/
structure Own (x : Sched) (s s' : SchedNet) : Prop where
  io : ∀ y, y ≠ x → ∀ p type, s'.queue (.io y p type) = s.queue (.io y p type)
  leads : ∀ y idx z, s'.leads y idx z = s.leads y idx z
  engines : s'.engines = s.engines

theorem Own.refl : Own x s s := ⟨fun _ _ _ _ => rfl, fun _ _ _ => rfl, rfl⟩

theorem Own.trans (h : Own x s t) (h' : Own x t s') : Own x s s' where
  io y hy p type := (h'.io y hy p type).trans (h.io y hy p type)
  leads y idx z := (h'.leads y idx z).trans (h.leads y idx z)
  engines := h'.engines.trans h.engines

theorem length_engines (s : SchedNet) : s.engines.length = s.threads + s.bioCnt + 1 := by
  rw [engines, List.length_append, List.length_cons, List.length_map, List.length_map,
    List.length_range, List.length_range]
  omega

/-- A scheduler has no more bridges than there are schedulers. -/
theorem Star.bridges_le (h : s.Star) (hk : s.scheds x = some k) :
    k.bridgeTbl.length ≤ s.engines.length := by
  rw [length_engines, ← List.length_map (f := IoBridge.dst), h.links x k hk]
  cases x with
  | master =>
    rw [SchedNet.links, List.length_append, List.length_map, List.length_map, List.length_range,
      List.length_range]
    omega
  | worker i => exact Nat.succ_le_succ (Nat.zero_le _)
  | bio i => exact Nat.succ_le_succ (Nat.zero_le _)

/-- A bridge leads to one scheduler. -/
theorem leads_unique (h : s.leads x idx y) (h' : s.leads x idx z) : y = z := by
  obtain ⟨k, hk, hany⟩ := (Option.any_eq_true ..).mp h
  obtain ⟨b, hb, hdst⟩ := (Option.any_eq_true ..).mp hany
  rw [leads, hk, Option.any_some, hb, Option.any_some] at h'
  exact (of_decide_eq_true hdst).symm.trans (of_decide_eq_true h')

/-- A change that keeps the bridges keeps where they lead. -/
theorem leads_setSched (hk : s.scheds x = some k)
    (hlinks : k'.bridgeTbl.map IoBridge.dst = k.bridgeTbl.map IoBridge.dst) (y : Sched) (idx : Nat)
    (z : Sched) : (s.setSched x k').leads y idx z = s.leads y idx z := by
  rw [leads, leads, setSched_scheds]
  by_cases hy : y = x
  · have hany : ∀ l : SkSched, l.bridgeTbl[idx]?.any (fun b => b.dst = z) =
        (l.bridgeTbl.map IoBridge.dst)[idx]?.any fun d => d = z := by
      intro l
      rw [List.getElem?_map]
      cases l.bridgeTbl[idx]? <;> rfl
    rw [if_pos hy, hy, hk, Option.any_some, Option.any_some, hany, hany, hlinks]
  · rw [if_neg hy]

/-- A scheduler changes that keeps where its bridges lead. -/
theorem own_setSched (hk : s.scheds x = some k)
    (hlinks : k'.bridgeTbl.map IoBridge.dst = k.bridgeTbl.map IoBridge.dst) :
    Own x s (s.setSched x k') where
  io y hy p type := by
    show ((s.setSched x k').scheds y).elim _ _ = _
    rw [setSched_scheds, if_neg hy]
    rfl
  leads := leads_setSched hk hlinks
  engines := rfl

/-- A change that keeps the bridges keeps what they hold. -/
theorem bridgeMq_setSched (hk : s.scheds x = some k) (hbridge : k'.bridgeTbl = k.bridgeTbl)
    (y : Sched) (idx : Nat) : (s.setSched x k').bridgeMq y idx = s.bridgeMq y idx := by
  rw [bridgeMq, bridgeMq, setSched_scheds]
  by_cases hy : y = x
  · rw [if_pos hy, hy, hk, Option.elim_some, Option.elim_some, hbridge]
  · rw [if_neg hy]

/-- One bridge is set. -/
theorem bridgeMq_setBridge {b b' : IoBridge} (hk : s.scheds x = some k)
    (hb : k.bridgeTbl[idx]? = some b) (y : Sched) (i : Nat) :
    (s.setSched x (k.setBridge idx b')).bridgeMq y i =
      if y = x ∧ i = idx then b'.mq else s.bridgeMq y i := by
  show (s.setSched x (k.setBridge idx b')).queue (.bridge y i) = _
  rw [queue_setBridge hk hb]
  by_cases hy : y = x ∧ i = idx
  · obtain ⟨rfl, rfl⟩ := hy
    rw [if_pos ⟨rfl, rfl⟩]
    exact if_pos rfl
  · rw [if_neg hy]
    exact if_neg fun heq => hy (by simpa using heq)

/-- A scheduler that is found is there. -/
theorem scheds_of_sched (h : s.sched x = .ok k) : s.scheds x = some k := by
  rw [sched] at h
  split at h
  · exact absurd h (by simp)
  · rename_i l hl
    rw [hl, Except.ok.inj h]

/-- **Sending.** -/
theorem schedSend_own {dst : Option Sched} {ptoId : PtoId} (h : s.schedSend x dst ptoId = .ok s') :
    Own x s s' ∧ ∀ y idx, s'.bridgeMq y idx = s.bridgeMq y idx := by
  obtain ⟨k, hk, hsend⟩ := except_bind_ok.mp h
  have hk := scheds_of_sched hk
  obtain rfl := Except.ok.inj hsend
  have hown : Own x s (s.setSched x (k.ioPush ptoId.pri
      (if dst = some x then .input else .output)
      { src := x, dst, ptoId, hop := 0, data := s.sent.length })) := own_setSched hk rfl
  exact ⟨⟨hown.io, hown.leads, hown.engines⟩, bridgeMq_setSched hk rfl⟩

/-- Finding a bridge changes no queue. -/
theorem findBridge_same {dst : Option Sched} {i : Option Nat} (h : s.findBridge k dst = .ok (i, k')) :
    k'.bridgeTbl = k.bridgeTbl ∧ k'.ioTbl = k.ioTbl := by
  rw [findBridge] at h
  split at h
  · obtain ⟨-, rfl⟩ := Prod.mk.inj (Except.ok.inj h)
    exact ⟨rfl, rfl⟩
  · simp only [findBridgeRoundrobin] at h
    split at h
    · exact absurd h (by simp)
    · split at h
      · obtain ⟨-, rfl⟩ := Prod.mk.inj (Except.ok.inj h)
        exact ⟨rfl, rfl⟩
      · obtain ⟨-, rfl⟩ := Prod.mk.inj (Except.ok.inj h)
        exact ⟨rfl, rfl⟩

/-- There is something to deliver. -/
theorem enabled_deliver : s.enabled (.deliver x pri) ↔ s.queue (.io x pri .output) ≠ [] := by
  show ((s.scheds x).any fun k => k.ioTbl pri .output ≠ []) ↔ _
  rw [queue]
  cases s.scheds x with
  | none => simp
  | some k => simp

/-- **Delivering.** One bridge gets an event, and one output queue loses it. -/
theorem deliverOneIo_own {q : Option Nat × SchedNet} (h : s.deliverOneIo x pri = .ok q) :
    (q = (none, s) ∧ s.queue (.io x pri .output) = []) ∨
      s.queue (.io x pri .output) ≠ [] ∧
        ∃ idx y s', q = (some idx, s') ∧ s.leads x idx y ∧ Own x s s' ∧
          (∀ z i, ¬ (z = x ∧ i = idx) → s'.bridgeMq z i = s.bridgeMq z i) ∧
          ∀ p type, ¬ (p = pri ∧ type = .output) →
            s'.queue (.io x p type) = s.queue (.io x p type) := by
  obtain ⟨k, hsched, -⟩ := except_bind_ok.mp h
  have hk := scheds_of_sched hsched
  -- nothing is to be sent, or the first event goes into a bridge
  rcases deliverOneIo_ok hk h with ⟨hnone, rfl⟩ | ⟨e, rest, idx, k', b, hqueue, hfind, hb, -, rfl⟩
  · exact .inl ⟨rfl, (queue_io hk _ _).trans hnone⟩
  · obtain ⟨hbridge, hio⟩ := findBridge_same hfind
    have hb' : k.bridgeTbl[idx]? = some b := by
      rw [← hb, hbridge]
      rfl
    set b' : IoBridge := { b with mq := b.mq ++
      [{ e with dst := some (e.dst.getD b.dst), hop := (e.hop + 1) % 256 }] } with hbdef
    have hself : (s.setSched x k').scheds x = some k' := by rw [setSched_scheds, if_pos rfl]
    refine .inr ⟨?_, idx, b.dst, _, rfl, ?_, ?_, fun z i hne => ?_, fun p type hp => ?_⟩
    · rw [queue_io hk, hqueue]
      exact List.cons_ne_nil _ _
    · -- the bridge that was found leads to the scheduler it was found for
      rw [leads, hk, Option.any_some, hb', Option.any_some]
      exact decide_eq_true rfl
    · apply own_setSched hk
      have hlinks : (k'.setBridge idx b').bridgeTbl.map IoBridge.dst =
        k'.bridgeTbl.map IoBridge.dst := setBridge_links hb rfl
      rw [hlinks, hbridge]
      rfl
    · -- the other bridges are as they were
      rw [← setSched_setSched s x k', bridgeMq_setBridge hself hb, if_neg hne]
      exact bridgeMq_setSched hk hbridge z i
    · rw [queue_io (k := k'.setBridge idx b') (by rw [setSched_scheds, if_pos rfl]), queue_io hk]
      show k'.ioTbl p type = _
      rw [hio, ioPull_ioTbl, if_neg hp]

/-- **Pulling.** -/
theorem pullEvents_own {events : List SkEvent} (h : s.pullEvents x pri = .ok (events, s')) :
    Own x s s' ∧ (∀ y idx, s'.bridgeMq y idx = s.bridgeMq y idx) ∧
      (∀ p type, ¬ (p = pri ∧ type = .input) →
        s'.queue (.io x p type) = s.queue (.io x p type)) ∧
      s.queue (.io x pri .input) = events ++ s'.queue (.io x pri .input) ∧
      (events = [] → s'.queue (.io x pri .input) = []) := by
  obtain ⟨k, hsched, hpull⟩ := except_bind_ok.mp h
  have hk := scheds_of_sched hsched
  obtain ⟨rfl, rfl⟩ := Prod.mk.inj (Except.ok.inj hpull)
  have hself : (s.setSched x (k.ioPullN pri .input schedPullNum)).scheds x =
      some (k.ioPullN pri .input schedPullNum) := by rw [setSched_scheds, if_pos rfl]
  refine ⟨own_setSched hk rfl, bridgeMq_setSched hk rfl, fun p type hne => ?_, ?_, fun hnone => ?_⟩
  · rw [queue_io hself, queue_io hk, SkSched.ioPullN_ioTbl, if_neg hne]
  · rw [queue_io hself, queue_io hk, SkSched.ioPullN_ioTbl, if_pos ⟨rfl, rfl⟩, List.take_append_drop]
  · rw [queue_io hself, SkSched.ioPullN_ioTbl, if_pos ⟨rfl, rfl⟩]
    -- a queue of which nothing was taken is empty
    have hempty : k.ioTbl pri .input = [] := by
      rcases List.take_eq_nil_iff.mp hnone with hzero | hempty
      · exact absurd hzero (by decide)
      · exact hempty
    rw [hempty, List.drop_nil]

/-- **Copying.** -/
theorem copyTurn_own (hleads : s.leads y idx x) (h : s.copyTurn y idx = .ok s') :
    Own x s s' ∧ (∀ z i, s'.bridgeMq z i ≠ [] → s.bridgeMq z i ≠ []) ∧
      ∃ pri, ∀ p, (s'.queue (.io x p .input)).length ≤
        (s.queue (.io x p .input)).length + if p = pri then 1 else 0 := by
  obtain ⟨k, hsched, hturn⟩ := except_bind_ok.mp h
  have hk := scheds_of_sched hsched
  -- the bridge is there and holds something, or nothing happens
  cases hb : k.bridgeTbl[idx]? with
  | none =>
    rw [hb] at hturn
    obtain rfl := Except.ok.inj hturn
    exact ⟨.refl, fun _ _ => id, 0, fun _ => Nat.le_add_right _ _⟩
  | some b =>
    rw [leads, hk, Option.any_some, hb, Option.any_some] at hleads
    obtain rfl : b.dst = x := of_decide_eq_true hleads
    rw [hb] at hturn
    dsimp only at hturn
    cases hmq : b.mq with
    | nil =>
      rw [hmq] at hturn
      obtain rfl := Except.ok.inj hturn
      exact ⟨.refl, fun _ _ => id, 0, fun _ => Nat.le_add_right _ _⟩
    | cons e mq =>
      rw [hmq] at hturn
      obtain ⟨d, hd, hpush⟩ := except_bind_ok.mp hturn
      have hd := scheds_of_sched hd
      obtain rfl := Except.ok.inj hpush
      -- taking the event out of the bridge changes nothing of its own
      have hpopped : Own b.dst s (s.setSched y (k.setBridge idx { b with mq })) := by
        refine ⟨fun z _ p type => ?_, leads_setSched hk (setBridge_links hb rfl), rfl⟩
        rw [congrFun (queue_setBridge hk hb) (.io z p type)]
        exact if_neg (by simp)
      refine ⟨hpopped.trans (own_setSched hd rfl), fun z i hne => ?_, e.ptoId.pri, fun p => ?_⟩
      · -- a bridge that holds something did before
        have hbridges : (d.ioPush e.ptoId.pri (if e.dst = some b.dst then .input else .output)
          e).bridgeTbl = d.bridgeTbl := rfl
        rw [bridgeMq_setSched hd hbridges, bridgeMq_setBridge hk hb] at hne
        by_cases hz : z = y ∧ i = idx
        · rw [hz.1, hz.2, bridgeMq, hk, Option.elim_some, hb, Option.elim_some, hmq]
          exact List.cons_ne_nil _ _
        · rwa [if_neg hz] at hne
      · -- the event comes into one of the queues, of its own priority
        have hsame : s.queue (.io b.dst p .input) = d.ioTbl p .input := by
          rw [← queue_io hd, queue_setBridge hk hb]
          exact (if_neg (by simp)).symm
        rw [hsame, queue_io (by rw [setSched_scheds, if_pos rfl]), ioPush_ioTbl]
        by_cases hp : p = e.ptoId.pri
        · generalize (if e.dst = some b.dst then IoType.input else .output) = type
          rw [if_pos hp]
          split
          · rw [List.length_append, List.length_singleton]
          · exact Nat.le_add_right _ _
        · rw [if_neg fun heq => hp heq.1]
          exact Nat.le_add_right _ _

end SchedNet

/-! ### What a thread knows -/

/-- The queues of the priorities from `n` on are empty. -/
def SchedNet.EmptyFrom (s : SchedNet) (x : Sched) (type : IoType) (n : Nat) : Prop :=
  ∀ p, n ≤ p → p ≤ ptoPriMax → s.queue (.io x p type) = []

namespace SchedPc

/-- What a thread has found empty since nothing was run, and what it works on. -/
def Drained (s : SchedNet) (x : Sched) : SchedPc → Prop
  | .deliver pri delivery =>
    s.EmptyFrom x .output (pri + 1) ∧ ∀ idx y, s.leads x idx y → idx < delivery.length
  | .notify _ delivery =>
    s.EmptyFrom x .output 0 ∧ ∀ idx y, s.leads x idx y → idx < delivery.length
  | .pull pri nprocessed =>
    nprocessed = 0 → s.EmptyFrom x .output 0 ∧ s.EmptyFrom x .input (pri + 1)
  | .buffer pri nprocessed events =>
    nprocessed = 0 → events = [] ∧ s.EmptyFrom x .output 0 ∧ s.EmptyFrom x .input pri
  | .handler _ nprocessed _ _ => nprocessed ≠ 0
  | .clean nprocessed => nprocessed = 0 → s.EmptyFrom x .output 0 ∧ s.EmptyFrom x .input 0
  | .poll => s.EmptyFrom x .output 0 ∧ s.EmptyFrom x .input 0
  | .copy y idx => s.leads y idx x
  | .created | .timers | .dispatch | .stopped => True

/-- The thread has delivered to the bridge, and has yet to notify it. -/
def Notifying (idx : Nat) : SchedPc → Prop
  | .deliver _ delivery => delivery[idx]?.getD 0 ≠ 0
  | .notify i delivery => i ≤ idx ∧ delivery[idx]?.getD 0 ≠ 0
  | .created | .timers | .pull .. | .buffer .. | .handler .. | .clean _ | .poll | .dispatch
  | .copy .. | .stopped => False

/-- What a thread knows, other threads leave alone. -/
theorem Drained.own {s s' : SchedNet} {x y : Sched} {pc : SchedPc} (h : pc.Drained s y)
    (hown : s.Own x s') (hy : y ≠ x) : pc.Drained s' y := by
  have hempty : ∀ {type n}, s.EmptyFrom y type n → s'.EmptyFrom y type n := by
    intro type n hempty p hn hp
    rw [hown.io y hy]
    exact hempty p hn hp
  have hlength : ∀ {l : List Nat}, (∀ idx z, s.leads y idx z → idx < l.length) →
      ∀ idx z, s'.leads y idx z → idx < l.length := by
    intro l hlength idx z hleads
    exact hlength idx z (by rwa [← hown.leads])
  cases pc with
  | created | timers | dispatch | stopped => trivial
  | deliver pri delivery => exact ⟨hempty h.1, hlength h.2⟩
  | notify idx delivery => exact ⟨hempty h.1, hlength h.2⟩
  | pull pri nprocessed => exact fun hzero => ⟨hempty (h hzero).1, hempty (h hzero).2⟩
  | buffer pri nprocessed events =>
    exact fun hzero => ⟨(h hzero).1, hempty (h hzero).2.1, hempty (h hzero).2.2⟩
  | handler pri nprocessed e events => exact h
  | clean nprocessed => exact fun hzero => ⟨hempty (h hzero).1, hempty (h hzero).2⟩
  | poll => exact ⟨hempty h.1, hempty h.2⟩
  | copy z idx =>
    show s'.leads z idx y
    rw [hown.leads]
    exact h

end SchedPc

namespace SchedThreads

variable {s s' : SchedThreads} {x y : Sched} {pc : SchedPc} {net : SchedNet} {pri idx : Nat}

/-- **What holds of all threads.** -/
structure Awake (s : SchedThreads) : Prop where
  drained : ∀ x, (s.pc x).Drained s.net x
  notified : ∀ x idx y, s.net.leads x idx y → s.net.bridgeMq x idx ≠ [] →
    s.evfd x idx ≠ 0 ∨ (s.pc x).Notifying idx ∨ s.pc y = .copy x idx

/-- A thread does something that no other one has to know of. -/
theorem Awake.alone (h : s.Awake) (hown : s.net.Own x s'.net) (hpc : ∀ y, y ≠ x → s'.pc y = s.pc y)
    (hself : (s'.pc x).Drained s'.net x) (hevfd : s'.evfd = s.evfd)
    (hmq : ∀ y i, s'.net.bridgeMq y i ≠ [] → s.net.bridgeMq y i ≠ [])
    (hnotify : ∀ i, (s.pc x).Notifying i → (s'.pc x).Notifying i)
    (hcopy : ∀ y i, s.pc x = .copy y i → s'.net.bridgeMq y i ≠ [] → s'.pc x = .copy y i) :
    s'.Awake where
  drained y := by
    by_cases hy : y = x
    · rw [hy]
      exact hself
    · rw [hpc y hy]
      exact (h.drained y).own hown hy
  notified y idx z hleads hne := by
    rw [hown.leads] at hleads
    rw [hevfd]
    rcases h.notified y idx z hleads (hmq y idx hne) with hcounter | hsender | hreceiver
    · exact .inl hcounter
    · refine .inr (.inl ?_)
      by_cases hy : y = x
      · rw [hy] at hsender ⊢
        exact hnotify idx hsender
      · rwa [hpc y hy]
    · refine .inr (.inr ?_)
      by_cases hz : z = x
      · rw [hz] at hreceiver ⊢
        exact hcopy y idx hreceiver hne
      · rwa [hpc z hz]

/-- A thread goes on that neither notifies nor copies. -/
theorem Awake.goto (h : s.Awake) (hself : pc.Drained s.net x)
    (hnotify : ∀ i, ¬ (s.pc x).Notifying i) (hcopy : ∀ y i, s.pc x ≠ .copy y i) :
    (s.goto x pc).Awake :=
  h.alone .refl (fun _ hy => goto_of_ne hy) (by rwa [goto_self]) rfl (fun _ _ => id)
    (fun i hi => absurd hi (hnotify i)) fun y i hc => absurd hc (hcopy y i)

/-- `_deliver_msg` begins: nothing is delivered yet. -/
theorem Awake.deliverMsg (h : s.Awake) (hnotify : ∀ i, ¬ (s.pc x).Notifying i)
    (hcopy : ∀ y i, s.pc x ≠ .copy y i) (hexec : s.deliverMsg x = .ok s') : s'.Awake := by
  obtain ⟨k, hsched, hgoto⟩ := except_bind_ok.mp hexec
  have hk := SchedNet.scheds_of_sched hsched
  obtain rfl := Except.ok.inj hgoto
  refine h.goto ⟨fun p hn hp => ?_, fun idx y hleads => ?_⟩ hnotify hcopy
  · exact absurd hp (Nat.not_le.mpr hn)
  · -- there is an entry for each bridge
    rw [SchedNet.leads, hk, Option.any_some] at hleads
    obtain ⟨b, hb, -⟩ := (Option.any_eq_true ..).mp hleads
    rw [List.length_replicate]
    exact (List.getElem?_eq_some_iff.mp hb).1

/-- **A message is delivered**: the bridge that gets it is counted. -/
theorem Awake.delivered {delivery : List Nat} (h : s.Awake) (hpc : s.pc x = .deliver pri delivery)
    (hleads : s.net.leads x idx y) (hown : s.net.Own x net)
    (hmq : ∀ z i, ¬ (z = x ∧ i = idx) → net.bridgeMq z i = s.net.bridgeMq z i)
    (hio : ∀ p, p ≠ pri → net.queue (.io x p .output) = s.net.queue (.io x p .output)) :
    ((s.goto x (.deliver pri (delivery.modify idx (· + 1)))).setNet net).Awake := by
  have hdrained := h.drained x
  rw [hpc] at hdrained
  obtain ⟨hempty, hlength⟩ := hdrained
  -- an entry of the array never gets smaller
  have hcount : ∀ i : Nat, delivery[i]?.getD 0 ≠ 0 →
      (delivery.modify idx (· + 1))[i]?.getD 0 ≠ 0 := by
    intro i hi
    rw [List.getElem?_modify]
    cases hd : delivery[i]? with
    | none =>
      rw [hd] at hi
      exact absurd rfl hi
    | some n =>
      rw [hd, Option.getD_some] at hi
      show (if idx = i then n + 1 else n) ≠ 0
      split <;> omega
  refine ⟨fun z => ?_, fun z i w hleads' hne => ?_⟩
  · show ((s.goto x _).pc z).Drained net z
    by_cases hz : z = x
    · rw [hz, goto_self]
      refine ⟨fun p hn hp => ?_, fun i w hw => ?_⟩
      · rw [hio p (by omega)]
        exact hempty p hn hp
      · rw [List.length_modify]
        exact hlength i w (by rwa [← hown.leads])
    · rw [goto_of_ne hz]
      exact (h.drained z).own hown hz
  · rw [setNet_net] at hleads' hne
    rw [setNet_evfd, setNet_pc, goto_evfd]
    rw [hown.leads] at hleads'
    by_cases hself : z = x ∧ i = idx
    · -- the bridge that got the event
      obtain ⟨rfl, rfl⟩ := hself
      refine .inr (.inl ?_)
      have hlt : i < delivery.length := hlength i w hleads'
      rw [goto_self]
      show (delivery.modify i (· + 1))[i]?.getD 0 ≠ 0
      rw [List.getElem?_modify, List.getElem?_eq_getElem hlt]
      show (if i = i then delivery[i] + 1 else delivery[i]) ≠ 0
      rw [if_pos rfl]
      exact Nat.succ_ne_zero _
    · rw [hmq z i hself] at hne
      rcases h.notified z i w hleads' hne with hcounter | hsender | hreceiver
      · exact .inl hcounter
      · refine .inr (.inl ?_)
        by_cases hz : z = x
        · rw [hz, hpc] at hsender
          rw [hz, goto_self]
          exact hcount i hsender
        · rwa [goto_of_ne hz]
      · refine .inr (.inr ?_)
        by_cases hw : w = x
        · rw [hw, hpc] at hreceiver
          exact absurd hreceiver (by simp)
        · rwa [goto_of_ne hw]

/-- One eventfd is written. -/
theorem setEvfd_evfd (n : Nat) (y : Sched) (i : Nat) :
    (s.setEvfd x idx n).evfd y i = if y = x ∧ i = idx then n else s.evfd y i := by
  show Function.update s.evfd x (Function.update (s.evfd x) idx n) y i = _
  by_cases hy : y = x
  · subst hy
    rw [Function.update_self]
    by_cases hi : i = idx
    · rw [hi, Function.update_self, if_pos ⟨rfl, rfl⟩]
    · rw [Function.update_of_ne hi, if_neg fun h => hi h.2]
  · rw [Function.update_of_ne hy, if_neg fun h => hy h.1]

/-- `_io_bridget_notify` adds to one counter. -/
theorem ioBridgetNotify_evfd (n : Nat) (y : Sched) (i : Nat) :
    (s.ioBridgetNotify x idx n).evfd y i =
      s.evfd y i + if y = x ∧ i = idx then n else 0 := by
  rw [ioBridgetNotify]
  split
  · rename_i hzero
    rw [hzero, ite_self, Nat.add_zero]
  · rw [setEvfd_evfd]
    split
    · rename_i hself
      rw [hself.1, hself.2]
    · rw [Nat.add_zero]

/-- **A bridge is notified.** -/
theorem Awake.notify {delivery : List Nat} {cnt : Nat} (h : s.Awake)
    (hpc : s.pc x = .notify idx delivery) (hcnt : delivery[idx]? = some cnt) :
    ((s.ioBridgetNotify x idx cnt).goto x (.notify (idx + 1) delivery)).Awake := by
  have hdrained := h.drained x
  rw [hpc] at hdrained
  refine ⟨fun z => ?_, fun z i w hleads hne => ?_⟩
  · rw [goto_net, ioBridgetNotify_net]
    by_cases hz : z = x
    · rw [hz, goto_self]
      exact hdrained
    · rw [goto_of_ne hz, ioBridgetNotify_pc]
      exact h.drained z
  · rw [goto_net, ioBridgetNotify_net] at hleads hne
    rw [goto_evfd, ioBridgetNotify_evfd]
    rcases h.notified z i w hleads hne with hcounter | hsender | hreceiver
    · left
      omega
    · by_cases hz : z = x
      · rw [hz, hpc] at hsender
        obtain ⟨hle, hcount⟩ := hsender
        by_cases hi : i = idx
        · -- it is notified now
          rw [hi, hcnt, Option.getD_some] at hcount
          rw [if_pos ⟨hz, hi⟩]
          left
          omega
        · refine .inr (.inl ?_)
          rw [hz, goto_self]
          exact ⟨by omega, hcount⟩
      · refine .inr (.inl ?_)
        rwa [goto_of_ne hz, ioBridgetNotify_pc]
    · refine .inr (.inr ?_)
      by_cases hw : w = x
      · rw [hw, hpc] at hreceiver
        exact absurd hreceiver (by simp)
      · rwa [goto_of_ne hw, ioBridgetNotify_pc]

/-- **An eventfd is read**: the bridge is looked at afterwards. -/
theorem Awake.copyEvent (h : s.Awake) (hpc : s.pc x = .dispatch) (hleads : s.net.leads y idx x) :
    (s.copyEvent x y idx).Awake := by
  rw [SchedThreads.copyEvent]
  split
  · exact h
  · -- the thread goes to copy, and the counter is 0
    refine ⟨fun z => ?_, fun z i w hleads' hne => ?_⟩
    · rw [goto_net, setEvfd_net]
      by_cases hz : z = x
      · rw [hz, goto_self]
        exact hleads
      · rw [goto_of_ne hz, setEvfd_pc]
        exact h.drained z
    · rw [goto_net, setEvfd_net] at hleads' hne
      rw [goto_evfd, setEvfd_evfd]
      -- the bridge that is copied: its receiver is awake
      by_cases hself : z = y ∧ i = idx
      · obtain ⟨rfl, rfl⟩ := hself
        obtain rfl := SchedNet.leads_unique hleads hleads'
        exact .inr (.inr goto_self)
      · -- the others keep their reason
        rw [if_neg hself]
        rcases h.notified z i w hleads' hne with hcounter | hsender | hreceiver
        · exact .inl hcounter
        · refine .inr (.inl ?_)
          by_cases hz : z = x
          · rw [hz, hpc] at hsender
            exact absurd hsender id
          · rwa [goto_of_ne hz, setEvfd_pc]
        · refine .inr (.inr ?_)
          by_cases hw : w = x
          · rw [hw, hpc] at hreceiver
            exact absurd hreceiver (by simp)
          · rwa [goto_of_ne hw, setEvfd_pc]

/-- The first loop of `_deliver_msg`. -/
theorem Awake.deliver {delivery : List Nat} (h : s.Awake) (hpc : s.pc x = .deliver pri delivery)
    (hexec : s.step x = .ok s') : s'.Awake := by
  have hdrained := h.drained x
  simp only [SchedThreads.step, hpc] at hexec
  rw [hpc] at hdrained
  cases hone : s.net.deliverOneIo x pri with
  | error fault =>
    rw [hone] at hexec
    exact absurd hexec (by simp)
  | ok q =>
    rw [hone] at hexec
    rcases SchedNet.deliverOneIo_own hone with
      ⟨rfl, hnone⟩ | ⟨-, idx, y, net, rfl, hleads, hown, hmq, hio⟩
    · obtain rfl := Except.ok.inj hexec
      -- the queue of this priority is empty, too
      have hempty : s.net.EmptyFrom x .output pri := by
        intro p hn hp
        rcases Nat.eq_or_lt_of_le hn with rfl | hlt
        · exact hnone
        · exact hdrained.1 p hlt hp
      refine h.alone .refl (fun _ hy => goto_of_ne hy) ?_ rfl (fun _ _ => id) (fun i hi => ?_)
        fun y i hc => absurd (hpc.symm.trans hc) (by simp)
      · rw [goto_self]
        split
        · rename_i hzero
          exact ⟨hzero ▸ hempty, hdrained.2⟩
        · rename_i hpos
          refine ⟨?_, hdrained.2⟩
          rw [Nat.sub_add_cancel (Nat.pos_of_ne_zero hpos)]
          exact hempty
      · rw [hpc] at hi
        rw [goto_self]
        split
        · exact ⟨Nat.zero_le i, hi⟩
        · exact hi
    · obtain rfl := Except.ok.inj hexec
      exact h.delivered hpc hleads hown hmq fun p hp => hio p .output fun heq => hp heq.1

/-- Its second loop. -/
theorem Awake.notifyLoop {delivery : List Nat} (h : s.Awake) (hpc : s.pc x = .notify idx delivery)
    (hexec : s.step x = .ok s') : s'.Awake := by
  have hdrained := h.drained x
  simp only [SchedThreads.step, hpc] at hexec
  rw [hpc] at hdrained
  cases hcnt : delivery[idx]? with
  | none =>
    rw [hcnt] at hexec
    obtain rfl := Except.ok.inj hexec
    refine h.goto (fun _ => ⟨hdrained.1, fun p hn hp => absurd hp (Nat.not_le.mpr hn)⟩) ?_
      (by simp [hpc])
    -- all bridges that got something are notified
    intro i hi
    rw [hpc] at hi
    have hlength : delivery.length ≤ i :=
      (List.getElem?_eq_none_iff.mp hcnt).trans hi.1
    exact hi.2 (by rw [List.getElem?_eq_none hlength, Option.getD_none])
  | some cnt =>
    rw [hcnt] at hexec
    obtain rfl := Except.ok.inj hexec
    exact h.notify hpc hcnt

/-- `_pull_and_run` begins. -/
theorem Awake.pull {nprocessed : Nat} (h : s.Awake) (hpc : s.pc x = .pull pri nprocessed)
    (hexec : s.step x = .ok s') : s'.Awake := by
  have hdrained := h.drained x
  simp only [SchedThreads.step, hpc] at hexec
  rw [hpc] at hdrained
  cases hpull : s.net.pullEvents x pri with
  | error fault =>
    rw [hpull] at hexec
    exact absurd hexec (by simp)
  -- the thread is awake with what it pulled
  | ok q =>
    obtain ⟨events, net⟩ := q
    rw [hpull] at hexec
    obtain rfl := Except.ok.inj hexec
    obtain ⟨hown, hmq, hio, -, hinput⟩ := SchedNet.pullEvents_own hpull
    refine h.alone hown (fun _ hy => goto_of_ne hy) ?_ rfl (fun y i => by rw [setNet_net, hmq]; exact id)
      (by simp [hpc, SchedPc.Notifying]) (by simp [hpc])
    rw [setNet_pc, goto_self, setNet_net]
    intro hzero
    -- when nothing was pulled up to here, the queues are empty up to this priority
    obtain ⟨hnone, hlength⟩ : nprocessed = 0 ∧ events.length = 0 := by omega
    obtain rfl := List.length_eq_zero_iff.mp hlength
    obtain ⟨houtput, habove⟩ := hdrained hnone
    refine ⟨rfl, fun p hn hp => ?_, fun p hn hp => ?_⟩
    · rw [hio p _ (by simp)]
      exact houtput p hn hp
    · rcases Nat.eq_or_lt_of_le hn with rfl | hlt
      · exact hinput rfl
      · rw [hio p _ (by omega)]
        exact habove p hlt hp

/-- The loop of `_pull_and_run`. -/
theorem Awake.buffer {nprocessed : Nat} {events : List SkEvent} (h : s.Awake)
    (hpc : s.pc x = .buffer pri nprocessed events)
    (hexec : s.step x = .ok s') : s'.Awake := by
  have hdrained := h.drained x
  rw [hpc] at hdrained
  -- at the end of the buffer the next priority is pulled, or none is left
  cases events with
  | nil =>
    simp only [SchedThreads.step, hpc] at hexec
    obtain rfl := Except.ok.inj hexec
    refine h.goto ?_ (by simp [hpc, SchedPc.Notifying]) (by simp [hpc])
    split
    · rename_i hzero
      intro hnone
      exact ⟨(hdrained hnone).2.1, hzero ▸ (hdrained hnone).2.2⟩
    · rename_i hpos
      intro hnone
      refine ⟨(hdrained hnone).2.1, ?_⟩
      rw [Nat.sub_add_cancel (Nat.pos_of_ne_zero hpos)]
      exact (hdrained hnone).2.2
  -- an event of the buffer is one that was pulled
  | cons e events =>
    simp only [SchedThreads.step, hpc] at hexec
    split at hexec
    · exact absurd hexec (by simp)
    · obtain rfl := Except.ok.inj hexec
      refine h.alone ⟨fun _ _ _ _ => rfl, fun _ _ _ => rfl, rfl⟩ (fun _ hy => goto_of_ne hy) ?_ rfl
        (fun _ _ => id) (by simp [hpc, SchedPc.Notifying]) (by simp [hpc])
      rw [setNet_pc, goto_self]
      intro hnone
      exact absurd (hdrained hnone).1 (List.cons_ne_nil _ _)

/-- The loop of `_copy_event`. -/
theorem Awake.copy (h : s.Awake) (hpc : s.pc x = .copy y idx)
    (hexec : s.step x = .ok s') : s'.Awake := by
  have hdrained := h.drained x
  simp only [SchedThreads.step, hpc] at hexec
  rw [hpc] at hdrained
  split at hexec
  · rename_i hempty
    obtain rfl := Except.ok.inj hexec
    refine h.alone .refl (fun _ hy => goto_of_ne hy) (by rw [goto_self]; trivial) rfl
      (fun _ _ => id) (by simp [hpc, SchedPc.Notifying]) fun z i hc hne => ?_
    -- the bridge is left when it is empty
    obtain ⟨rfl, rfl⟩ := SchedPc.copy.inj (hpc.symm.trans hc)
    exact absurd hempty hne
  · cases hcopy : s.net.copyTurn y idx with
    | error fault =>
      rw [hcopy] at hexec
      exact absurd hexec (by simp)
    | ok net =>
      rw [hcopy] at hexec
      obtain rfl := Except.ok.inj hexec
      obtain ⟨hown, hmq, -⟩ := SchedNet.copyTurn_own hdrained hcopy
      refine h.alone hown (fun _ _ => rfl) ?_ rfl hmq (fun _ => id) fun _ _ hc _ => hc
      rw [setNet_pc, hpc]
      show net.leads y idx x
      rw [hown.leads]
      exact hdrained

/-- **A step of a thread.** -/
theorem Awake.step (h : s.Awake) (hexec : s.step x = .ok s') : s'.Awake := by
  have hdrained := h.drained x
  cases hpc : s.pc x with
  -- in these states a step does nothing
  | created | poll | stopped =>
    simp only [SchedThreads.step, hpc] at hexec
    exact Except.ok.inj hexec ▸ h
  | timers =>
    simp only [SchedThreads.step, hpc] at hexec
    exact h.deliverMsg (by simp [hpc, SchedPc.Notifying]) (by simp [hpc]) hexec
  | deliver pri delivery => exact h.deliver hpc hexec
  | notify idx delivery => exact h.notifyLoop hpc hexec
  | pull pri nprocessed => exact h.pull hpc hexec
  | buffer pri nprocessed events => exact h.buffer hpc hexec
  -- an event was pulled, so the thread does not sleep yet
  | handler pri nprocessed e events =>
    simp only [SchedThreads.step, hpc] at hexec
    rw [hpc] at hdrained
    obtain rfl := Except.ok.inj hexec
    refine h.alone .refl (fun _ hy => goto_of_ne hy) ?_ rfl (fun _ _ => id)
      (by simp [hpc, SchedPc.Notifying]) (by simp [hpc])
    rw [goto_self]
    exact fun hnone => absurd hnone hdrained
  | clean nprocessed =>
    simp only [SchedThreads.step, hpc] at hexec
    rw [hpc] at hdrained
    -- something was processed: the thread delivers once more
    split at hexec
    · exact h.deliverMsg (by simp [hpc, SchedPc.Notifying]) (by simp [hpc]) hexec
    · rename_i hzero
      obtain rfl := Except.ok.inj hexec
      exact h.goto (hdrained (Nat.eq_zero_of_not_pos hzero)) (by simp [hpc, SchedPc.Notifying])
        (by simp [hpc])
  | dispatch =>
    simp only [SchedThreads.step, hpc] at hexec
    obtain rfl := Except.ok.inj hexec
    refine h.goto ?_ (by simp [hpc, SchedPc.Notifying]) (by simp [hpc])
    split <;> trivial
  | copy y idx => exact h.copy hpc hexec

/-- **Every action.** -/
theorem Awake.exec (h : s.Awake) {a : ThreadAction} (henabled : s.enabled a)
    (hexec : s.exec a = .ok s') : s'.Awake := by
  cases a with
  | send src dst ptoId =>
    simp only [SchedThreads.exec] at hexec
    cases hsend : s.net.schedSend src dst ptoId with
    | error fault =>
      rw [hsend] at hexec
      exact absurd hexec (by simp)
    | ok net =>
      rw [hsend] at hexec
      obtain rfl := Except.ok.inj hexec
      obtain ⟨hown, hmq⟩ := SchedNet.schedSend_own hsend
      refine h.alone hown (fun _ _ => rfl) ?_ rfl (fun y i => by rw [setNet_net, hmq]; exact id)
        (fun _ => id) fun _ _ hc _ => hc
      -- no message is sent where a thread counts on its queues being empty
      have hsends := henabled.2
      rw [setNet_pc]
      have hdrained := h.drained src
      cases hpc : s.pc src with
      | created | timers | dispatch => trivial
      | handler pri nprocessed e events =>
        rw [hpc] at hdrained
        exact hdrained
      | deliver | notify | pull | buffer | clean | poll | copy | stopped =>
        rw [hpc] at hsends
        exact absurd hsends (by simp [SchedPc.sends])
  | start x =>
    obtain rfl := Except.ok.inj hexec
    obtain ⟨-, hpc⟩ := henabled
    refine h.alone .refl (fun _ hy => goto_of_ne hy) (by rw [goto_self]; trivial) rfl (fun _ _ => id)
      (by simp [hpc, SchedPc.Notifying]) (by simp [hpc])
  | step x => exact h.step hexec
  | wake x =>
    obtain rfl := Except.ok.inj hexec
    obtain ⟨-, hpc⟩ := henabled
    exact h.goto trivial (by simp [hpc, SchedPc.Notifying]) (by simp [hpc])
  | callback x y idx =>
    obtain rfl := Except.ok.inj hexec
    exact h.copyEvent henabled.2.1 henabled.2.2
  | stop x =>
    obtain rfl := Except.ok.inj hexec
    exact ⟨h.drained, h.notified⟩

/-! ### Every run -/

/-- The thread sleeps in its event loop, and no eventfd will wake it up. -/
def Asleep (s : SchedThreads) (x : Sched) : Prop :=
  s.pc x = .poll ∧ ∀ y idx, s.net.leads y idx x → s.evfd y idx = 0

/-- **What the loops promise.** -/
structure Lively (s : SchedThreads) : Prop where
  /-- The turns of the loops route the messages. -/
  routed : s.view.Routed
  /-- A thread that sleeps has no messages, but for those of which it has yet to be notified. -/
  asleep : ∀ x ∈ s.net.engines, s.Asleep x → (∀ p type, s.net.queue (.io x p type) = []) ∧
    ∀ y idx, s.net.leads y idx x → s.net.bridgeMq y idx ≠ [] → (s.pc y).Notifying idx
  /-- When all sleep, all messages were handled. -/
  idle : (∀ x ∈ s.net.engines, s.Asleep x) →
    s.net.handledIds.Perm (List.range s.net.sent.length)

/-- **One turn or none**: what a step does to the queues is what the turn that it is seen as does,
    and nothing when it is seen as none. -/
def TakesTurn (s : SchedThreads) (a : ThreadAction) : Prop :=
  ∀ s', s.exec a = .ok s' →
    match s.turn a with
    | none => s'.view = s.view
    | some b => s.view.enabled b ∧ s.view.exec b = .ok s'.view

/-- **In every state reached** no wake-up is lost. -/
theorem Reach.awake (h : machine.Reach Machine.anyStep s) : s.Awake := by
  refine h.invariant (fun s hinit => ?_) fun s a s' hs henabled _ hexec => hs.exec henabled hexec
  obtain ⟨net, hnet, rfl⟩ := hinit
  refine ⟨fun x => trivial, fun x idx y _ hne => ?_⟩
  -- there are no messages in the beginning
  obtain ⟨threads, bioCnt, hthreads, hok⟩ := hnet
  obtain ⟨-, -, -, -, -, hempty⟩ := SchedNet.setupEngines_star hthreads hok
  exact absurd (hempty (.bridge x idx)) hne

/-- What is in a queue is seen there. -/
theorem mem_view {e : SkEvent} {type : IoType} (h : e ∈ s.net.queue (.io x pri type)) :
    e ∈ s.view.queue (.io x pri type) := by
  cases hk : s.net.scheds x with
  | none =>
    rw [SchedNet.queue, hk] at h
    exact absurd h List.not_mem_nil
  | some k =>
    have hview : s.view.scheds x = some (k.withBuffer (s.buffers x)) := by
      rw [view, SchedNet.withBuffers_scheds, hk, Option.map_some]
    rw [SchedNet.queue_io hk] at h
    rw [SchedNet.queue_io hview]
    cases type with
    | input => exact List.mem_append_right _ h
    | output => exact h

/-- **A thread that sleeps** has nothing to do. -/
theorem Awake.asleep (h : s.Awake) (hknown : s.view.Known) (hx : s.Asleep x) :
    (∀ p type, s.net.queue (.io x p type) = []) ∧
      ∀ y idx, s.net.leads y idx x → s.net.bridgeMq y idx ≠ [] → (s.pc y).Notifying idx := by
  obtain ⟨hpc, hevfd⟩ := hx
  have hdrained := h.drained x
  rw [hpc] at hdrained
  refine ⟨fun p type => ?_, fun y idx hleads hne => ?_⟩
  · -- there are messages of ten priorities only
    by_cases hp : p ≤ ptoPriMax
    · cases type with
      | input => exact hdrained.2 p (Nat.zero_le p) hp
      | output => exact hdrained.1 p (Nat.zero_le p) hp
    · refine List.eq_nil_iff_forall_not_mem.mpr fun e he => hp ?_
      have hfits := hknown.fits _ e (mem_view he)
      have hpri : e.ptoId.pri = p := by
        cases type with
        | input => exact hfits.1
        | output => exact hfits.1
      exact hpri ▸ Nat.le_of_lt_succ (SchedNet.pri_lt e.ptoId)
  · rcases h.notified y idx x hleads hne with hcounter | hsender | hreceiver
    · exact absurd (hevfd y idx hleads) hcounter
    · exact hsender
    · exact absurd (hpc.symm.trans hreceiver) (by simp)

/-- **When all sleep**, no scheduler has a turn. -/
theorem Awake.idle (h : s.Awake) (hknown : s.view.Known) (hall : ∀ x ∈ s.net.engines, s.Asleep x) :
    ∀ a : SchedAction, a.isTurn → ¬ s.view.enabled a := by
  have hengine : ∀ {x k}, s.view.scheds x = some k → x ∈ s.net.engines := fun hk =>
    (hknown.star.engine _).mp (by rw [hk]; rfl)
  intro a hturn henabled
  cases a with
  | send src dst ptoId => exact absurd hturn (by simp [SchedAction.isTurn])
  | deliver x pri =>
    obtain ⟨k, hk, hne⟩ := (Option.any_eq_true ..).mp henabled
    obtain ⟨l, hl, rfl⟩ := Option.map_eq_some_iff.mp hk
    have hempty := (h.asleep hknown (hall x (hengine hk))).1 pri .output
    rw [SchedNet.queue_io hl] at hempty
    exact of_decide_eq_true hne hempty
  | run x pri =>
    obtain ⟨k, hk, hne⟩ := (Option.any_eq_true ..).mp henabled
    obtain ⟨l, hl, rfl⟩ := Option.map_eq_some_iff.mp hk
    have hempty := (h.asleep hknown (hall x (hengine hk))).1 pri .input
    rw [SchedNet.queue_io hl] at hempty
    refine of_decide_eq_true hne ?_
    rw [SkSched.withBuffer_input, hempty, List.append_nil, buffers, (hall x (hengine hk)).1]
    rfl
  | copy y idx =>
    obtain ⟨k, hk, hany⟩ := (Option.any_eq_true ..).mp henabled
    obtain ⟨l, hl, rfl⟩ := Option.map_eq_some_iff.mp hk
    obtain ⟨b, hb, hne⟩ := (Option.any_eq_true ..).mp hany
    rw [SkSched.withBuffer_bridgeTbl] at hb
    have hleads : s.net.leads y idx b.dst := by
      rw [SchedNet.leads, hl, Option.any_some, hb, Option.any_some]
      exact decide_eq_true rfl
    have hmem : b.dst ∈ s.view.links y := by
      rw [← hknown.star.links y _ hk]
      exact List.mem_map.mpr ⟨b, List.mem_of_getElem? hb, rfl⟩
    have hdst : b.dst ∈ s.net.engines := SchedNet.mem_engines_of_mem_links (hengine hk) hmem
    have hmq : s.net.bridgeMq y idx ≠ [] := by
      rw [SchedNet.bridgeMq, hl, Option.elim_some, hb, Option.elim_some]
      exact of_decide_eq_true hne
    -- its sender would have to be awake
    have hnotify := (h.asleep hknown (hall b.dst hdst)).2 y idx hleads hmq
    rw [(hall y (hengine hk)).1] at hnotify
    exact hnotify

/-- **No wake-up is lost.** Whatever the order in which the threads of the schedulers run, their
    loops do nothing but take turns, one a step or none; a thread that sleeps, with no eventfd to wake it up, has no
    message to run, to deliver or to take from a bridge that it has been notified of; and when all of
    them sleep, every message that was sent has been handled once. -/
theorem wakeup_run {run : List (ThreadAction × SchedThreads)} (hinit : machine.init s)
    (hrun : machine.Path s run) :
    (∀ q ∈ run, q.2.Lively) ∧ Machine.StepsMeet TakesTurn s run := by
  refine ⟨fun q hq => ?_, ?_⟩
  · have hreach := hrun.reach (.init hinit) (Machine.stepsMeet_any run s) q hq
    have hawake := Reach.awake hreach
    have hknown := Reach.known hreach
    exact ⟨hknown.routed, fun x _ hx => hawake.asleep hknown hx,
      fun hall => hknown.routed.quiet (hawake.idle hknown hall)⟩
  · refine (hrun.stepsMeet_iff (C := Machine.anyStep) (I := machine.Reach Machine.anyStep)
      (fun s a t hs he hc hx => .step hs he hc hx) (fun s a hs he => ?_) (.init hinit)).mpr
      (Machine.stepsMeet_any run s)
    exact iff_of_true (fun s' hexec => view_exec (Reach.known hs).star he hexec) trivial

/-! ### A small run -/

/-- A round of the loops of `x` that finds nothing. -/
def idleRound (x : Sched) (bridges : Nat) : List ThreadAction :=
  List.replicate (bridges + 33) (.step x)

/-- The threads of a master and a worker start, and sleep; the master accepts a connection, which
    the worker handles, and both sleep again. -/
def oneAccept : List ThreadAction :=
  [.start .master, .start (.worker 0)] ++ idleRound .master 1 ++ idleRound (.worker 0) 1 ++
    [.wake .master, .send .master none .tcpAccept, .step .master] ++ idleRound .master 1 ++
    [.step .master] ++
    [.wake (.worker 0), .callback (.worker 0) .master 0] ++ List.replicate 4 (.step (.worker 0)) ++
    idleRound (.worker 0) 1 ++ idleRound (.worker 0) 1

/-- One connection is accepted, and handled by the worker. -/
theorem oneAccept_lively :
    (∀ q ∈ machine.trace (setup (SchedNet.core 1 0)) oneAccept, q.2.Lively) ∧
      (machine.final (setup (SchedNet.core 1 0)) oneAccept).net.handled =
        [(.worker 0, ⟨.master, some (.worker 0), .tcpAccept, 1, 0⟩)] ∧
      (machine.final (setup (SchedNet.core 1 0)) oneAccept).pc (.worker 0) = .poll :=
  ⟨(wakeup_run ⟨_, SchedNet.core_init (by decide) (by decide +kernel), rfl⟩
    (machine.trace_path oneAccept _)).1, by decide +kernel, by decide +kernel⟩

end SchedThreads

end Skull
