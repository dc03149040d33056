import Skull.Sched.Invariant

namespace Skull

open Machines

/-!
# Routing

What the schedulers of a core do with the messages that are sent, in any order of their turns in
which no bridge is full:

* `SchedNet.Routed` — no message is lost or handled twice, each is handled where it was sent to,
  after two hops at most and without a fault, and in order;
* `SchedNet.Known.routed` — what is known of every state says so;
* `SchedNet.routed_run` — every state of every run is `Routed`, and a run takes no more than 5 turns
  for each message, so that all are handled in the end;
* `SchedNet.overtaken_unordered` — messages without a destination go to the workers in turn, where
  one may be handled before another one that was sent first.
-/

namespace SchedNet

variable {s s' : SchedNet} {x y : Sched} {pri idx : Nat} {e e' : SkEvent} {p p' : Place}

/-- The numbers of the messages that were handled, in that order. -/
def handledIds (s : SchedNet) : List Nat := s.handled.map fun q => q.2.data

/-- The numbers of the messages in all queues. -/
def waitingIds (s : SchedNet) : List Nat := Queues.line number s.queue s.places.tail

/-- `x` handled the message with that number. -/
def HandledOn (s : SchedNet) (i : Nat) (x : Sched) : Prop := ∃ e, (x, e) ∈ s.handled ∧ e.data = i

/-- **What routing promises.** -/
structure Routed (s : SchedNet) : Prop where
  /-- Each message that was sent was handled once, or waits in one queue. -/
  once : (s.handledIds ++ s.waitingIds).Perm (List.range s.sent.length)
  /-- It is handled where it was sent to. -/
  place : ∀ x e, (x, e) ∈ s.handled → ∃ m, s.sent[e.data]? = some m ∧ m.src = e.src ∧
    m.ptoId = e.ptoId ∧ ∀ d ∈ m.dst, x = d
  /-- Two hops are enough. -/
  hops : ∀ p, ∀ e ∈ s.queue p, e.hop ≤ 2
  /-- A message is handled after those of the same source and priority that were sent before, and
      that were sent to, or handled by, the same scheduler. -/
  order : ∀ x i j m n, i < j → s.sent[i]? = some m → s.sent[j]? = some n → m.src = n.src →
    m.ptoId.pri = n.ptoId.pri → s.HandledOn j x → (m.dst = some x ∨ s.HandledOn i x) →
      [i, j].Sublist s.handledIds
  /-- There is no fault. -/
  runs : ∀ a, s.enabled a → s.Roomy a → ∃ s', s.exec a = .ok s'
  /-- When no scheduler has a turn, all messages were handled. -/
  quiet : (∀ a, a.isTurn → ¬ s.enabled a) → s.handledIds.Perm (List.range s.sent.length)

/-! ### Where messages are -/

/-- What was sent is handled, or waits. -/
theorem line_places (s : SchedNet) :
    Queues.line number s.queue s.places = s.handledIds ++ s.waitingIds := by
  have hhandled : (s.queue .handled).filterMap (number .handled) = s.handledIds := by
    rw [queue, List.filterMap_map, handledIds, ← List.filterMap_eq_map]
    rfl
  rw [← hhandled]
  rfl

/-- What was handled is in that place. -/
theorem mem_queue_handled (h : (x, e) ∈ s.handled) : e ∈ s.queue .handled :=
  List.mem_map.mpr ⟨(x, e), h, rfl⟩

/-- A message in a bridge is in one that exists. -/
theorem Star.link_of_mem (h : s.Star) (he : e ∈ s.queue (.bridge x idx)) :
    ∃ y, (s.links x)[idx]? = some y := by
  cases hk : s.scheds x with
  | none =>
    rw [queue, hk] at he
    exact absurd he List.not_mem_nil
  | some k =>
    cases hb : k.bridgeTbl[idx]? with
    | none =>
      rw [queue, hk, Option.elim_some, hb] at he
      exact absurd he List.not_mem_nil
    | some b => exact ⟨b.dst, by rw [← h.links x k hk, List.getElem?_map, hb, Option.map_some]⟩

/-- **A message with a destination** is in the row that leads there. -/
theorem Known.mem_row (h : s.Known) {d : Sched} (he : e ∈ s.queue p) (hdst : e.dst = some d) :
    p ∈ s.row e.src d e.ptoId.pri := by
  have hfit := h.fits p e he
  cases p with
  | handled => exact .head _
  | io y pri type =>
    cases type with
    | input =>
      obtain ⟨rfl, hy, -⟩ := hfit
      obtain rfl : y = d := Option.some.inj (hy.symm.trans hdst)
      exact .tail _ (.head _)
    | output =>
      obtain ⟨rfl, hne, -, hwhere⟩ := hfit
      have hnesrc : e.src ≠ d := fun heq => hne (by rw [hdst, heq])
      rcases hwhere with ⟨rfl, -⟩ | ⟨rfl, hsrc, -, d', hmem, hd'⟩
      · -- at its source: the row starts there, with one bridge or with two
        by_cases hnear : e.src = .master ∨ d = .master
        · rw [row_near hnesrc hnear]
          simp
        · obtain ⟨hsrc, hd⟩ := not_or.mp hnear
          rw [row_far hnesrc hsrc hd]
          simp
      · -- at the master, between the two bridges
        obtain rfl : d' = d := Option.some.inj (hd'.symm.trans hdst)
        rw [row_far hnesrc hsrc fun heq => not_mem_links s .master (heq ▸ hmem)]
        simp
  | bridge y idx =>
    obtain ⟨t, hlink⟩ := h.star.link_of_mem he
    obtain ⟨hne, hwhere, d', -, hd', hmaster⟩ := hfit
    obtain rfl : d' = d := Option.some.inj (hd'.symm.trans hdst)
    have hnesrc : e.src ≠ d' := fun heq => hne (by rw [hdst, heq])
    rcases hwhere with ⟨rfl, -⟩ | ⟨rfl, hsrc, -⟩
    · by_cases hsrc : e.src = .master
      · rw [row_near hnesrc (.inl hsrc), idxOf_link (hmaster hsrc)]
        simp
      · obtain ⟨rfl, rfl⟩ := link_of_ne hsrc hlink
        by_cases hd : d' = .master
        · rw [row_near hnesrc (.inr hd), idxOf_link (hlink.trans (by rw [hd]))]
          simp
        · rw [row_far hnesrc hsrc hd]
          simp
    · have hd : d' ≠ .master := by
        rintro rfl
        exact not_mem_links s .master (List.mem_of_getElem? (hmaster rfl))
      rw [row_far hnesrc hsrc hd, idxOf_link (hmaster rfl)]
      simp

/-- A message that was sent is somewhere. -/
theorem Known.somewhere (h : s.Known) {i : Nat} {m : SkEvent} (hm : s.sent[i]? = some m) :
    ∃ p, ∃ e ∈ s.queue p, e.data = i := by
  have hi : i ∈ List.range s.sent.length :=
    List.mem_range.mpr (List.getElem?_eq_some_iff.mp hm).1
  obtain ⟨p, -, e, he, hdata⟩ := Queues.mem_line.mp (h.once.mem_iff.mpr hi)
  exact ⟨p, e, he, Option.some.inj hdata⟩

/-! ### Order -/

/-- Of two elements of an increasing list the smaller one comes first. -/
theorem pair_sublist {l : List Nat} (h : l.Pairwise (· < ·)) {i j : Nat} (hi : i ∈ l) (hj : j ∈ l)
    (hlt : i < j) : [i, j].Sublist l := by
  obtain ⟨as, bs, rfl⟩ := List.append_of_mem hi
  have hafter : j ∈ bs := by
    rcases List.mem_append.mp hj with hj | hj
    · have := (List.pairwise_append.mp h).2.2 j hj i (.head _)
      omega
    · exact (List.mem_cons.mp hj).resolve_left (by omega)
  exact ((List.singleton_sublist.mpr hafter).cons_cons i).trans (List.sublist_append_right _ _)

/-- Some elements of a list, in its order. -/
theorem filterMap_sublist_map {α β : Type} {f : α → Option β} {g : α → β}
    (h : ∀ a b, f a = some b → g a = b) (l : List α) : (l.filterMap f).Sublist (l.map g) := by
  induction l with
  | nil => exact .slnil
  | cons a l ih =>
    rw [List.map_cons]
    cases ha : f a with
    | none =>
      rw [List.filterMap_cons_none ha]
      exact ih.cons _
    | some b =>
      rw [List.filterMap_cons_some ha, h a b ha]
      exact ih.cons_cons b

/-- **Messages are handled in order.** -/
theorem Known.order (h : s.Known) {i j : Nat} {m n : SkEvent} (hlt : i < j)
    (hi : s.sent[i]? = some m) (hj : s.sent[j]? = some n) (hsrc : m.src = n.src)
    (hpri : m.ptoId.pri = n.ptoId.pri) (hhandled : s.HandledOn j x)
    (hdst : m.dst = some x ∨ s.HandledOn i x) : [i, j].Sublist s.handledIds := by
  -- a message that was handled on `x` is seen in the first place of the row
  have hon : ∀ {l : Nat} {q : SkEvent}, s.sent[l]? = some q → s.HandledOn l x →
      l ∈ (s.queue .handled).filterMap (seen q.src x q.ptoId.pri .handled) := by
    rintro l q hq ⟨e, he, rfl⟩
    have hmem := mem_queue_handled he
    obtain ⟨q', hq', hsrc', hptoId', -⟩ := h.origin .handled e hmem
    obtain rfl : q = q' := Option.some.inj (hq.symm.trans hq')
    exact List.mem_filterMap.mpr ⟨e, hmem,
      seen_eq hsrc'.symm (by rw [hptoId']) (.inl (h.settled (x, e) he))⟩
  have hline := h.inOrder m.src x m.ptoId.pri
  have hfirst : i ∈ Queues.line (seen m.src x m.ptoId.pri) s.queue
      (s.row m.src x m.ptoId.pri) := by
    rcases hdst with hdst | hdone
    · obtain ⟨p, e, he, rfl⟩ := h.somewhere hi
      obtain ⟨m', hm', hsrc', hptoId', hdst'⟩ := h.origin p e he
      obtain rfl : m = m' := Option.some.inj (hi.symm.trans hm')
      have hdst'' : e.dst = some x := by
        rcases hdst' with heq | hnone
        · exact heq.symm.trans hdst
        · exact absurd (hnone.symm.trans hdst) (by simp)
      refine Queues.mem_line.mpr ⟨p, ?_, e, he, seen_eq hsrc'.symm (by rw [hptoId']) (.inl hdst'')⟩
      rw [hsrc', hptoId']
      exact h.mem_row he hdst''
    · exact List.mem_append_left _ (hon hi hdone)
  have hsecond := hon hj hhandled
  rw [← hsrc, ← hpri] at hsecond
  -- what is handled is the first part of the line
  obtain ⟨rest, hrow⟩ : ∃ rest, s.row m.src x m.ptoId.pri = .handled :: rest := ⟨_, rfl⟩
  rw [hrow, Queues.line_cons] at hline hfirst
  obtain ⟨hsorted, -, hbefore⟩ := List.pairwise_append.mp hline
  have hfirst : i ∈ (s.queue .handled).filterMap (seen m.src x m.ptoId.pri .handled) := by
    rcases List.mem_append.mp hfirst with hmem | hmem
    · exact hmem
    · have := hbefore j hsecond i hmem
      omega
  refine (pair_sublist hsorted hfirst hsecond hlt).trans ?_
  rw [queue, List.filterMap_map, handledIds]
  exact filterMap_sublist_map (fun q i hq => (of_seen hq).2.2.2) s.handled

/-! ### Every run -/

/-- When no scheduler has a turn, no message waits. -/
theorem waitingIds_of_quiet (hquiet : ∀ a : SchedAction, a.isTurn → ¬ s.enabled a) :
    s.waitingIds = [] := by
  have hempty : ∀ p ∈ s.places.tail, s.queue p = [] := by
    intro p hp
    have hne : p ≠ .handled := by
      rintro rfl
      exact (List.nodup_cons.mp (places_nodup s)).1 hp
    cases p with
    | handled => exact absurd rfl hne
    | io y pri type =>
      by_contra hqueue
      -- a message in a queue gives its scheduler a turn
      have hany : (s.scheds y).any fun k => k.ioTbl pri type ≠ [] := by
        cases hk : s.scheds y with
        | none => exact absurd (by rw [queue, hk]; rfl) hqueue
        | some k =>
          rw [queue_io hk] at hqueue
          simpa using hqueue
      cases type with
      | input => exact hquiet (.run y pri) rfl hany
      | output => exact hquiet (.deliver y pri) rfl hany
    | bridge y idx =>
      by_contra hqueue
      refine hquiet (.copy y idx) rfl ?_
      show (s.scheds y).any fun k => k.bridgeTbl[idx]?.any fun b => b.mq ≠ []
      cases hk : s.scheds y with
      | none => exact absurd (by rw [queue, hk]; rfl) hqueue
      | some k =>
        cases hb : k.bridgeTbl[idx]? with
        | none => exact absurd (by rw [queue, hk, Option.elim_some, hb]; rfl) hqueue
        | some b =>
          rw [queue_bridge hk hb] at hqueue
          simpa [hb] using hqueue
  rw [waitingIds, Queues.line, List.flatMap_eq_nil_iff]
  intro p hp
  rw [hempty p hp, List.filterMap_nil]

/-- **What is known of a state** is what routing promises. -/
theorem Known.routed (h : s.Known) : s.Routed := by
  have honce : (s.handledIds ++ s.waitingIds).Perm (List.range s.sent.length) :=
    line_places s ▸ h.once
  refine ⟨honce, fun x e he => ?_, fun p e he => ?_, fun x i j m n => h.order,
    fun a henabled hroomy => ?_, fun hquiet => ?_⟩
  · -- where an event is handled: its destination, when it has one
    obtain ⟨m, hm, hsrc, hptoId, hdst⟩ := h.origin .handled e (mem_queue_handled he)
    refine ⟨m, hm, hsrc, hptoId, fun d hd => ?_⟩
    rcases hdst with heq | hnone
    · exact Option.some.inj ((h.settled (x, e) he).symm.trans (heq.symm.trans hd))
    · exact absurd (hnone.symm.trans hd) (by simp)
  · -- in each other queue its hops are bounded, too
    have hfit := h.fits p e he
    cases p with
    | handled => exact hfit
    | io y pri type =>
      cases type with
      | input => exact hfit.2.2
      | output =>
        obtain ⟨-, -, -, ⟨-, hhop⟩ | ⟨-, -, hhop, -⟩⟩ := hfit
        · omega
        · omega
    | bridge y idx =>
      obtain ⟨-, ⟨-, hhop⟩ | ⟨-, -, hhop⟩, -⟩ := hfit
      · omega
      · omega
  · obtain ⟨s', hexec, -⟩ := h.step hroomy henabled
    exact ⟨s', hexec⟩
  · rwa [waitingIds_of_quiet hquiet, List.append_nil] at honce

/-- **Routing.** In every run in which no bridge is full, every state is `Routed`, and there are no
    more than 5 turns for each message. -/
theorem routed_run {run : List (SchedAction × SchedNet)} (hinit : machine.init s)
    (hrun : machine.Path s run) (hroomy : Machine.StepsMeet Roomy s run) :
    (∀ q ∈ run, q.2.Routed) ∧
      (run.filter fun q => q.1.isTurn).length ≤ 5 * (run.filter fun q => !q.1.isTurn).length := by
  refine ⟨fun q hq => (Reach.known (hrun.reach (.init hinit) hroomy q hq)).routed, ?_⟩
  have hturns := turns_le (known_init hinit) hrun hroomy
  rwa [pending_init hinit, Nat.zero_add] at hturns

/-! ### Runs of small cores -/

/-- A core with so many workers and bios. -/
def core (threads bioCnt : Nat) : SchedNet :=
  (setupEngines threads bioCnt).toOption.getD
    { threads, bioCnt, scheds := fun _ => none, sent := [], handled := [] }

theorem core_init {threads bioCnt : Nat} (hthreads : 0 < threads)
    (hok : (setupEngines threads bioCnt).isOk) : machine.init (core threads bioCnt) := by
  refine ⟨threads, bioCnt, hthreads, ?_⟩
  cases h : setupEngines threads bioCnt with
  | error fault => exact absurd hok (by rw [h]; simp [Except.isOk, Except.toBool])
  | ok s => rw [core, h]; rfl

/-- A worker sends a message to the other one, to a bio and to any scheduler, and itself; all of
    them are handled. -/
def sentByWorker : List SchedAction :=
  [.send (.worker 0) (some (.worker 1)) .svcTaskRun, .send (.worker 0) none .svcTaskRun,
    .send (.worker 0) (some (.bio 1)) .svcTaskRun, .send (.worker 0) (some (.worker 0)) .stdStart,
    .deliver (.worker 0) 4, .deliver (.worker 0) 4, .copy (.worker 0) 0, .deliver .master 4,
    .copy (.worker 0) 0, .run .master 4, .deliver (.worker 0) 4, .run (.worker 0) 7,
    .copy .master 1, .run (.worker 1) 4, .copy (.worker 0) 0, .deliver .master 4, .copy .master 2,
    .run (.bio 1) 4]

/-- A worker sends to all sides. -/
theorem sentByWorker_routed :
    (∀ q ∈ machine.trace (core 2 1) sentByWorker, q.2.Routed) ∧
      (machine.final (core 2 1) sentByWorker).handledIds = [1, 3, 0, 2] :=
  ⟨(routed_run (core_init (by decide) (by decide +kernel)) (machine.trace_path sentByWorker _)
    (by decide +kernel)).1, by decide +kernel⟩

/-- The master accepts two connections; they go to the two workers, and the second one is handled
    first. -/
def overtaken : List SchedAction :=
  [.send .master none .tcpAccept, .send .master none .tcpAccept, .deliver .master 7,
    .deliver .master 7, .copy .master 1, .run (.worker 1) 7, .copy .master 0, .run (.worker 0) 7]

/-- A message without a destination overtakes another one. -/
theorem overtaken_unordered : ¬ ∀ s run, machine.init s → machine.Path s run →
    Machine.StepsMeet Roomy s run → ∀ q ∈ run, ∀ i j m n, i < j → q.2.sent[i]? = some m →
      q.2.sent[j]? = some n → m.src = n.src → m.dst = n.dst → m.ptoId.pri = n.ptoId.pri →
        i ∈ q.2.handledIds → j ∈ q.2.handledIds → [i, j].Sublist q.2.handledIds := by
  intro hall
  have hpath := Machine.trace_path (M := machine) overtaken (core 2 0)
  have hlast : (machine.trace (core 2 0) overtaken).getLast?.isSome = true := by decide +kernel
  obtain ⟨q, hq⟩ := Option.isSome_iff_exists.mp hlast
  have hsent : (machine.final (core 2 0) overtaken).sent =
      [⟨.master, none, .tcpAccept, 0, 0⟩, ⟨.master, none, .tcpAccept, 0, 1⟩] := by
    decide +kernel
  have hhandled : (machine.final (core 2 0) overtaken).handledIds = [1, 0] := by decide +kernel
  rw [Machine.final, hq, Option.elim_some] at hsent hhandled
  have horder := hall _ _ (core_init (by decide) (by decide +kernel)) hpath (by decide +kernel) q
    (List.mem_of_getLast? hq) 0 1 ⟨.master, none, .tcpAccept, 0, 0⟩ ⟨.master, none, .tcpAccept, 0, 1⟩
    Nat.zero_lt_one (by rw [hsent]; rfl) (by rw [hsent]; rfl) rfl rfl rfl (by rw [hhandled]; decide)
    (by rw [hhandled]; decide)
  rw [hhandled] at horder
  exact absurd horder (by decide)

end SchedNet

end Skull
