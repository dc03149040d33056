import Skull.Sched.Routing
import Skull.Lib.Simulation

namespace Skull

open Machines

/-!
# The threads of the schedulers (`sk_sched_start`)

Each scheduler has a thread, which goes through its loops: all outputs are delivered, the bridges
that got something are notified, what has come in is pulled into a buffer and run, and when a round
finds nothing to run the thread sleeps in the event loop until an eventfd of a bridge wakes it up.
The turns of `SchedNet` are what such a thread does between two looks at shared data.

* `SchedPc` — where a thread is; `SchedThreads` — the schedulers, their threads, and the eventfds of
  the bridges;
* `SchedThreads.step` — the next step of a thread;
* `SchedThreads.machine` — the threads of all schedulers in any order, with messages sent wherever
  code of a user, a protocol or a driver runs, and `sk_sched_stop` at any time;
* `SchedNet.withBuffers` — the events in the buffers, put back into the queues;
* `SchedThreads.simulates` — **the loops are turns**: seen so, every step of a thread is one turn of
  `SchedNet.machine` or none.

The event loop is that of flibs, which is not part of the repository: it sleeps until an fd is
readable or the time is up, and then runs callbacks.  A counter of an eventfd has 64 bits, and does
not get that far.
-/

/-! ### Where a thread is -/

/-- Where the thread of a scheduler is. -/
inductive SchedPc
  /-- Before `sk_sched_start`; the drivers of the master run then. -/
  | created
  /-- In `sk_timersvc_process`. -/
  | timers
  /-- In `_deliver_one_io` for the io of a priority, with the array of `_deliver_msg`. -/
  | deliver (pri : Nat) (delivery : List Nat)
  /-- In the second loop of `_deliver_msg`, before a bridge. -/
  | notify (idx : Nat) (delivery : List Nat)
  /-- In `_process_events_once`, before `_pull_and_run` for the io of a priority. -/
  | pull (pri nprocessed : Nat)
  /-- In the loop of `_pull_and_run`, with the events of `events_buffer` that are left. -/
  | buffer (pri nprocessed : Nat) (events : List SkEvent)
  /-- In `_run_event`: the protocol runs. -/
  | handler (pri nprocessed : Nat) (event : SkEvent) (events : List SkEvent)
  /-- In `sk_entity_mgr_clean_dead`. -/
  | clean (nprocessed : Nat)
  /-- In `sk_eventloop_dispatch`, where it sleeps. -/
  | poll
  /-- In `sk_eventloop_dispatch`, where it runs callbacks. -/
  | dispatch
  /-- In the loop of `_copy_event`, on a bridge of another scheduler. -/
  | copy (src : Sched) (idx : Nat)
  /-- After `sk_sched_start`. -/
  | stopped
  deriving DecidableEq, Repr

/-- Code that may send messages runs on the scheduler. -/
def SchedPc.sends : SchedPc → Bool
  | .created | .timers | .handler .. | .dispatch => true
  | .deliver .. | .notify .. | .pull .. | .buffer .. | .clean _ | .poll | .copy .. | .stopped =>
    false

/-- The thread has a next step of its own. -/
def SchedPc.steps : SchedPc → Bool
  | .created | .poll | .stopped => false
  | .timers | .deliver .. | .notify .. | .pull .. | .buffer .. | .handler .. | .clean _ | .dispatch
  | .copy .. => true

/-- The events that are in the buffer, by their priority. -/
def SchedPc.buffered : SchedPc → Nat → List SkEvent
  | .buffer pri _ events, p | .handler pri _ _ events, p => if p = pri then events else []
  | .created, _ | .timers, _ | .deliver .., _ | .notify .., _ | .pull .., _ | .clean _, _
  | .poll, _ | .dispatch, _ | .copy .., _ | .stopped, _ => []

/-- `SK_PTO_PRI_MAX`. -/
def ptoPriMax : Nat := 9

/-- `SK_SCHED_PULL_NUM`. -/
def schedPullNum : Nat := 65535

/-- The schedulers of a core, and their threads. -/
structure SchedThreads where
  net : SchedNet
  pc : Sched → SchedPc
  /-- The counter of the eventfd of a bridge. -/
  evfd : Sched → Nat → Nat
  running : Sched → Bool
  /-- The messages whose data `_event_destroy` has freed. -/
  freed : List Nat

/-- `sk_io_pull` of so many events. -/
def SkSched.ioPullN (k : SkSched) (pri : Nat) (type : IoType) (nevents : Nat) : SkSched :=
  { k with
    ioTbl := fun p t => if p = pri ∧ t = type then (k.ioTbl p t).drop nevents else k.ioTbl p t }

namespace SchedNet

/-- A turn of the loop of `_deliver_one_io`, and the bridge that got an event, if there was one. -/
def deliverOneIo (s : SchedNet) (x : Sched) (pri : Nat) :
    Except SchedFault (Option Nat × SchedNet) := do
  let k ← s.sched x
  match k.ioTbl pri .output with
  | [] => .ok (none, s)
  | e :: _ =>
    if e.hop = schedMaxRoutingHop then .error .hop
    else
      let (idx, k) ← s.findBridge (k.ioPull pri .output) e.dst
      match idx.bind fun idx => k.bridgeTbl[idx]?.map (idx, ·) with
      | none => .error (if e.dst = none then .null else .noBridge)
      | some (idx, b) =>
        if schedIoBridgeSz ≤ b.mq.length then .error .full
        else
          let e := { e with dst := some (e.dst.getD b.dst), hop := (e.hop + 1) % 256 }
          .ok (some idx, s.setSched x (k.setBridge idx { b with mq := b.mq ++ [e] }))

/-- `sk_io_pull` of the events that the buffer takes. -/
def pullEvents (s : SchedNet) (x : Sched) (pri : Nat) :
    Except SchedFault (List SkEvent × SchedNet) := do
  let k ← s.sched x
  .ok ((k.ioTbl pri .input).take schedPullNum, s.setSched x (k.ioPullN pri .input schedPullNum))

/-- The bridge of `x` with that index leads to `y`. -/
def leads (s : SchedNet) (x : Sched) (idx : Nat) (y : Sched) : Bool :=
  (s.scheds x).any fun k => k.bridgeTbl[idx]?.any fun b => b.dst = y

/-- What a bridge holds. -/
def bridgeMq (s : SchedNet) (x : Sched) (idx : Nat) : List SkEvent :=
  (s.scheds x).elim [] fun k => k.bridgeTbl[idx]?.elim [] IoBridge.mq

end SchedNet

namespace SchedThreads

/-- A thread goes on elsewhere. -/
def goto (s : SchedThreads) (x : Sched) (pc : SchedPc) : SchedThreads :=
  { s with pc := Function.update s.pc x pc }

/-- The queues are others. -/
def setNet (s : SchedThreads) (net : SchedNet) : SchedThreads := { s with net }

/-- The eventfd of the bridge `idx` of `x` counts otherwise. -/
def setEvfd (s : SchedThreads) (x : Sched) (idx cnt : Nat) : SchedThreads :=
  { s with evfd := Function.update s.evfd x (Function.update (s.evfd x) idx cnt) }

/-- `_event_destroy`. -/
def eventDestroy (s : SchedThreads) (e : SkEvent) : SchedThreads :=
  { s with freed := s.freed ++ [e.data] }

/-- `running` changes. -/
def setRunning (s : SchedThreads) (x : Sched) (running : Bool) : SchedThreads :=
  { s with running := Function.update s.running x running }

/-- `_io_bridget_notify`. -/
def ioBridgetNotify (s : SchedThreads) (x : Sched) (idx cnt : Nat) : SchedThreads :=
  if cnt = 0 then s
  else s.setEvfd x idx (s.evfd x idx + cnt)

/-- `_deliver_msg` begins. -/
def deliverMsg (s : SchedThreads) (x : Sched) : Except SchedFault SchedThreads := do
  let k ← s.net.sched x
  .ok (s.goto x (.deliver ptoPriMax (List.replicate k.bridgeTbl.length 0)))

/-- The next step of the thread of `x`. -/
def step (s : SchedThreads) (x : Sched) : Except SchedFault SchedThreads :=
  match s.pc x with
  | .created | .poll | .stopped => .ok s
  | .timers => s.deliverMsg x
  | .deliver pri delivery =>
    match s.net.deliverOneIo x pri with
    | .error fault => .error fault
    | .ok (none, _) =>
      .ok (s.goto x (if pri = 0 then .notify 0 delivery else .deliver (pri - 1) delivery))
    | .ok (some idx, net) =>
      .ok ((s.goto x (.deliver pri (delivery.modify idx (· + 1)))).setNet net)
  | .notify idx delivery =>
    match delivery[idx]? with
    | none => .ok (s.goto x (.pull ptoPriMax 0))
    | some cnt => .ok ((s.ioBridgetNotify x idx cnt).goto x (.notify (idx + 1) delivery))
  | .pull pri nprocessed =>
    match s.net.pullEvents x pri with
    | .error fault => .error fault
    | .ok (events, net) =>
      .ok ((s.goto x (.buffer pri (nprocessed + events.length) events)).setNet net)
  | .buffer pri nprocessed [] =>
    .ok (s.goto x (if pri = 0 then .clean nprocessed else .pull (pri - 1) nprocessed))
  | .buffer pri nprocessed (e :: events) =>
    if e.dst ≠ some x then .error .dst
    else
      .ok ((s.goto x (.handler pri nprocessed e events)).setNet
        { s.net with handled := s.net.handled ++ [(x, e)] })
  | .handler pri nprocessed e events =>
    .ok ((s.eventDestroy e).goto x (.buffer pri nprocessed events))
  -- `_process_events` goes on until a round finds nothing to run
  | .clean nprocessed => if 0 < nprocessed then s.deliverMsg x else .ok (s.goto x .poll)
  | .dispatch => .ok (s.goto x (if s.running x then .timers else .stopped))
  | .copy y idx =>
    if s.net.bridgeMq y idx = [] then .ok (s.goto x .dispatch)
    else
      match s.net.copyTurn y idx with
      | .error fault => .error fault
      | .ok net => .ok (s.setNet net)

/-- `_copy_event` begins, on the bridge `idx` of `y`: `eventfd_read` fails when the counter is
    zero. -/
def copyEvent (s : SchedThreads) (x y : Sched) (idx : Nat) : SchedThreads :=
  if s.evfd y idx = 0 then s
  else
    (s.setEvfd y idx 0).goto x (.copy y idx)

end SchedThreads

/-! ### The machine -/

/-- What may happen next. -/
inductive ThreadAction
  /-- Code that runs on `src` sends a message. -/
  | send (src : Sched) (dst : Option Sched) (ptoId : PtoId)
  /-- The thread of `x` begins. -/
  | start (x : Sched)
  /-- It goes on. -/
  | step (x : Sched)
  /-- The event loop of `x` wakes up. -/
  | wake (x : Sched)
  /-- It runs the callback of the bridge `idx` of `y`. -/
  | callback (x y : Sched) (idx : Nat)
  /-- `sk_sched_stop`. -/
  | stop (x : Sched)
  deriving DecidableEq, Repr

namespace SchedThreads

/-- What runs on an action. -/
def exec (s : SchedThreads) : ThreadAction → Except SchedFault SchedThreads
  | .send src dst ptoId =>
    match s.net.schedSend src dst ptoId with
    | .error fault => .error fault
    | .ok net => .ok (s.setNet net)
  | .start x => .ok ((s.setRunning x true).goto x .timers)
  | .step x => s.step x
  | .wake x => .ok (s.goto x .dispatch)
  | .callback x y idx => .ok (s.copyEvent x y idx)
  | .stop x => .ok (s.setRunning x false)

/-- When an action may happen. -/
def enabled (s : SchedThreads) : ThreadAction → Prop
  | .send src dst ptoId => s.net.enabled (.send src dst ptoId) ∧ (s.pc src).sends
  | .start x => x ∈ s.net.engines ∧ s.pc x = .created
  | .step x => x ∈ s.net.engines ∧ (s.pc x).steps
  | .wake x => x ∈ s.net.engines ∧ s.pc x = .poll
  | .callback x y idx => x ∈ s.net.engines ∧ s.pc x = .dispatch ∧ s.net.leads y idx x
  | .stop x => x ∈ s.net.engines

instance (s : SchedThreads) (a : ThreadAction) : Decidable (s.enabled a) :=
  match a with
  | .send .. | .start _ | .step _ | .wake _ => inferInstanceAs (Decidable (_ ∧ _))
  | .callback .. => inferInstanceAs (Decidable (_ ∧ _ ∧ _))
  | .stop _ => inferInstanceAs (Decidable (_ ∈ _))

/-- The threads before they begin. -/
def setup (net : SchedNet) : SchedThreads where
  net
  pc _ := .created
  evfd _ _ := 0
  running _ := false
  freed := []

/-- The runs of a core with at least one worker. -/
def machine : Machine SchedThreads ThreadAction SchedFault where
  init s := ∃ net, SchedNet.machine.init net ∧ s = setup net
  enabled := enabled
  exec := exec

instance (s : SchedThreads) (a : ThreadAction) : Decidable (machine.enabled s a) :=
  inferInstanceAs (Decidable (s.enabled a))

end SchedThreads

/-! ### The buffers -/

/-- The events of a buffer, put back before those of the queue they were pulled from. -/
def SkSched.withBuffer (buf : Nat → List SkEvent) (k : SkSched) : SkSched :=
  { k with ioTbl := fun p t => if t = .input then buf p ++ k.ioTbl p t else k.ioTbl p t }

namespace SkSched

variable {buf : Nat → List SkEvent} {k : SkSched} {pri idx : Nat} {e : SkEvent} {b : IoBridge}

@[simp] theorem withBuffer_bridgeTbl : (k.withBuffer buf).bridgeTbl = k.bridgeTbl := rfl

@[simp] theorem withBuffer_lastDeliveryIdx :
    (k.withBuffer buf).lastDeliveryIdx = k.lastDeliveryIdx := rfl

/-- The outputs are in no buffer. -/
@[simp] theorem withBuffer_output : (k.withBuffer buf).ioTbl pri .output = k.ioTbl pri .output := rfl

/-- The inputs are those of the buffer and those of the queue. -/
@[simp] theorem withBuffer_input :
    (k.withBuffer buf).ioTbl pri .input = buf pri ++ k.ioTbl pri .input := rfl

/-- Two schedulers that differ in no queue. -/
theorem ext_ioTbl {k k' : SkSched} (hio : ∀ p t, k.ioTbl p t = k'.ioTbl p t)
    (hbridge : k.bridgeTbl = k'.bridgeTbl) (hlast : k.lastDeliveryIdx = k'.lastDeliveryIdx)
    (hflags : k.flags = k'.flags) : k = k' := by
  obtain ⟨io, bridges, last, flags⟩ := k
  obtain ⟨io', bridges', last', flags'⟩ := k'
  obtain rfl : io = io' := funext fun p => funext (hio p)
  rw [SkSched.mk.injEq]
  exact ⟨rfl, hbridge, hlast, hflags⟩

/-- A push comes after what is in the buffer. -/
theorem withBuffer_ioPush (type : IoType) :
    (k.withBuffer buf).ioPush pri type e = (k.ioPush pri type e).withBuffer buf := by
  refine ext_ioTbl (fun p t => ?_) rfl rfl rfl
  show (if p = pri ∧ t = type then (k.withBuffer buf).ioTbl p t ++ [e]
    else (k.withBuffer buf).ioTbl p t) = _
  cases t with
  | input =>
    rw [withBuffer_input, withBuffer_input, SchedNet.ioPush_ioTbl]
    split
    · rw [List.append_assoc]
    · rfl
  | output => rfl

/-- An output is pulled. -/
theorem withBuffer_ioPull_output :
    (k.withBuffer buf).ioPull pri .output = (k.ioPull pri .output).withBuffer buf := by
  refine ext_ioTbl (fun p t => ?_) rfl rfl rfl
  cases t with
  | input =>
    rw [SchedNet.ioPull_ioTbl, if_neg (by simp), withBuffer_input, withBuffer_input,
      SchedNet.ioPull_ioTbl, if_neg (by simp)]
  | output => rfl

/-- What a pull leaves in the queues. -/
theorem ioPullN_ioTbl (k : SkSched) (pri n p : Nat) (type t : IoType) :
    (k.ioPullN pri type n).ioTbl p t =
      if p = pri ∧ t = type then (k.ioTbl p t).drop n else k.ioTbl p t := rfl

/-- The bridges have no buffer. -/
theorem withBuffer_setBridge :
    (k.withBuffer buf).setBridge idx b = (k.setBridge idx b).withBuffer buf := rfl

end SkSched

namespace SchedNet

/-- The events of all buffers, put back into the queues. -/
def withBuffers (buf : Sched → Nat → List SkEvent) (s : SchedNet) : SchedNet :=
  { s with scheds := fun x => (s.scheds x).map (SkSched.withBuffer (buf x)) }

variable {buf : Sched → Nat → List SkEvent} {s : SchedNet} {k : SkSched} {x : Sched}

/-- A scheduler as it is seen. -/
@[simp] theorem withBuffers_scheds :
    (s.withBuffers buf).scheds x = (s.scheds x).map (SkSched.withBuffer (buf x)) := rfl

/-- It is found, or not, as it is. -/
theorem withBuffers_sched (x : Sched) :
    (s.withBuffers buf).sched x = (s.sched x).map (SkSched.withBuffer (buf x)) := by
  cases h : s.scheds x with
  | none =>
    have hview : (s.withBuffers buf).scheds x = none := by
      rw [withBuffers_scheds, h, Option.map_none]
    rw [sched, sched, h, hview]
    rfl
  | some k =>
    have hview : (s.withBuffers buf).scheds x = some (k.withBuffer (buf x)) := by
      rw [withBuffers_scheds, h, Option.map_some]
    rw [sched_eq h, sched_eq hview]
    rfl

/-- A scheduler is set. -/
theorem withBuffers_setSched :
    (s.withBuffers buf).setSched x (k.withBuffer (buf x)) = (s.setSched x k).withBuffers buf := by
  rw [setSched, setSched, withBuffers, withBuffers]
  congr 1
  funext y
  show (if y = x then _ else (s.scheds y).map _) = (if y = x then some k else s.scheds y).map _
  by_cases hy : y = x
  · rw [if_pos hy, if_pos hy, hy, Option.map_some]
  · rw [if_neg hy, if_neg hy]

/-- Empty buffers. -/
theorem withBuffers_nil (h : ∀ x p, buf x p = []) : s.withBuffers buf = s := by
  obtain ⟨threads, bioCnt, scheds, sent, handled⟩ := s
  rw [withBuffers, SchedNet.mk.injEq]
  refine ⟨rfl, rfl, funext fun x => ?_, rfl, rfl⟩
  cases hk : scheds x with
  | none => exact congrArg (Option.map _) hk
  | some k =>
    show (scheds x).map _ = _
    rw [hk, Option.map_some]
    refine congrArg some (SkSched.ext_ioTbl (fun p t => ?_) rfl rfl rfl)
    cases t with
    | input => rw [SkSched.withBuffer_input, h, List.nil_append]
    | output => rfl

/-- Where the round-robin search may stop does not depend on the buffers. -/
theorem withBuffers_routable (b : Nat → List SkEvent) :
    (s.withBuffers buf).routable (k.withBuffer b) = s.routable k := by
  funext idx
  rw [routable, routable, SkSched.withBuffer_bridgeTbl]
  congr 1
  funext bridge
  show ((s.scheds bridge.dst).map _).any _ = _
  cases s.scheds bridge.dst <;> rfl

/-- Finding a bridge does not look at the buffers. -/
theorem withBuffers_findBridge (b : Nat → List SkEvent) (dst : Option Sched) :
    (s.withBuffers buf).findBridge (k.withBuffer b) dst =
      (s.findBridge k dst).map fun q => (q.1, q.2.withBuffer b) := by
  rw [findBridge, findBridge]
  have haffinity : (k.withBuffer b).findAffinityBridge = k.findAffinityBridge := rfl
  rw [haffinity]
  cases dst.bind k.findAffinityBridge with
  | some idx => rfl
  | none =>
    show (s.withBuffers buf).findBridgeRoundrobin (k.withBuffer b) = _
    simp only [findBridgeRoundrobin, withBuffers_routable, SkSched.withBuffer_bridgeTbl,
      SkSched.withBuffer_lastDeliveryIdx]
    split
    · rfl
    · split <;> rfl

/-- **Sending** goes behind the buffers. -/
theorem withBuffers_schedSend (src : Sched) (dst : Option Sched) (ptoId : PtoId) :
    (s.withBuffers buf).schedSend src dst ptoId =
      (s.schedSend src dst ptoId).map (withBuffers buf) := by
  simp only [schedSend, emitEvent, withBuffers_sched, bind, Except.bind]
  cases s.sched src with
  | error fault => rfl
  | ok k =>
    simp only [Except.map]
    rw [SkSched.withBuffer_ioPush, withBuffers_setSched]
    rfl

/-- **Delivering** does not look at the buffers. -/
theorem withBuffers_deliverOneIo (pri : Nat) :
    (s.withBuffers buf).deliverOneIo x pri =
      (s.deliverOneIo x pri).map fun q => (q.1, q.2.withBuffers buf) := by
  simp only [deliverOneIo, withBuffers_sched, bind, Except.bind]
  -- both fail, or both go on with the same scheduler
  cases s.sched x with
  | error fault => rfl
  | ok k =>
    simp only [Except.map, SkSched.withBuffer_output]
    cases k.ioTbl pri .output with
    | nil => rfl
    | cons e rest =>
      simp only
      split
      · rfl
      · -- the bridge is looked for in the same table
        rw [SkSched.withBuffer_ioPull_output, withBuffers_findBridge]
        cases s.findBridge (k.ioPull pri .output) e.dst with
        | error fault => rfl
        | ok q =>
          obtain ⟨idx, k'⟩ := q
          simp only [Except.map, SkSched.withBuffer_bridgeTbl]
          -- and so is its room
          cases idx.bind fun idx => k'.bridgeTbl[idx]?.map (idx, ·) with
          | none => rfl
          | some r =>
            simp only
            split
            · rfl
            · rw [SkSched.withBuffer_setBridge, withBuffers_setSched]

/-- So does the turn of `SchedNet`. -/
theorem deliverTurn_eq (s : SchedNet) (x : Sched) (pri : Nat) :
    s.deliverTurn x pri = (s.deliverOneIo x pri).map Prod.snd := by
  simp only [deliverTurn, deliverOneIo, bind, Except.bind]
  cases s.sched x with
  | error fault => rfl
  | ok k =>
    dsimp only
    cases k.ioTbl pri .output with
    | nil => rfl
    | cons e rest =>
      dsimp only
      split
      · rfl
      · cases s.findBridge (k.ioPull pri .output) e.dst with
        | error fault => rfl
        | ok q =>
          dsimp only
          cases q.1.bind fun idx => q.2.bridgeTbl[idx]?.map (idx, ·) with
          | none => rfl
          | some r =>
            dsimp only
            split <;> rfl

/-- **Copying** puts an event behind the buffers. -/
theorem withBuffers_copyTurn (idx : Nat) :
    (s.withBuffers buf).copyTurn x idx = (s.copyTurn x idx).map (withBuffers buf) := by
  simp only [copyTurn, withBuffers_sched, bind, Except.bind]
  cases s.sched x with
  | error fault => rfl
  | ok k =>
    simp only [Except.map, SkSched.withBuffer_bridgeTbl]
    cases k.bridgeTbl[idx]? with
    | none => rfl
    | some b =>
      simp only
      cases b.mq with
      | nil => rfl
      | cons e mq =>
        simp only [SkSched.withBuffer_setBridge, withBuffers_setSched, withBuffers_sched]
        cases (s.setSched x (k.setBridge idx { b with mq })).sched b.dst with
        | error fault => rfl
        | ok d =>
          simp only [Except.map, SkSched.withBuffer_ioPush, withBuffers_setSched]

end SchedNet

/-! ### Steps without a fault -/

namespace SchedNet

variable {s s' : SchedNet} {x : Sched} {k : SkSched} {pri : Nat}

/-- **What a delivery did**, if it did not abort. -/
theorem deliverOneIo_ok (hk : s.scheds x = some k) {q : Option Nat × SchedNet}
    (h : s.deliverOneIo x pri = .ok q) :
    (k.ioTbl pri .output = [] ∧ q = (none, s)) ∨
      ∃ e rest idx k' b, k.ioTbl pri .output = e :: rest ∧
        s.findBridge (k.ioPull pri .output) e.dst = .ok (some idx, k') ∧
        k'.bridgeTbl[idx]? = some b ∧ b.mq.length < schedIoBridgeSz ∧
        q = (some idx, s.setSched x (k'.setBridge idx { b with mq := b.mq ++
          [{ e with dst := some (e.dst.getD b.dst), hop := (e.hop + 1) % 256 }] })) := by
  simp only [deliverOneIo, sched_eq hk, bind, Except.bind] at h
  cases hqueue : k.ioTbl pri .output with
  -- nothing is to be delivered
  | nil =>
    rw [hqueue] at h
    exact .inl ⟨rfl, (Except.ok.inj h).symm⟩
  | cons e rest =>
    rw [hqueue] at h
    dsimp only at h
    -- an event whose hops are used up aborts
    split at h
    · exact absurd h (by simp)
    · cases hfind : s.findBridge (k.ioPull pri .output) e.dst with
      | error fault =>
        rw [hfind] at h
        exact absurd h (by simp)
      | ok r =>
        obtain ⟨idx, k'⟩ := r
        rw [hfind] at h
        dsimp only at h
        -- without a bridge it aborts
        cases hb : idx.bind fun idx => k'.bridgeTbl[idx]?.map (idx, ·) with
        | none =>
          rw [hb] at h
          exact absurd h (by simp)
        | some r =>
          obtain ⟨i, hi, hr⟩ := Option.bind_eq_some_iff.mp hb
          obtain ⟨b, hbi, rfl⟩ := Option.map_eq_some_iff.mp hr
          rw [hb] at h
          dsimp only at h
          -- so it does when the bridge is full
          split at h
          · exact absurd h (by simp)
          · rename_i hroom
            exact .inr ⟨e, rest, i, k', b, rfl, by rw [hfind, hi], hbi, Nat.not_le.mp hroom,
              (Except.ok.inj h).symm⟩

/-- **A step that does not abort** does what it can do. -/
theorem Known.step_ok (h : s.Known) {a : SchedAction} (henabled : s.enabled a)
    (hexec : s.exec a = .ok s') : s'.Known ∧ s.Same s' ∧ Effect s a s' := by
  have hdone : (∃ t, s.exec a = .ok t ∧ s.Same t ∧ Effect s a t) := by
    cases a with
    | send src dst ptoId => exact send_effect h.star henabled
    | copy x idx => exact copy_effect h.star henabled
    | run x pri => exact run_effect h.star h.fits henabled
    | deliver x pri =>
      refine deliver_effect_of_room h.star h.fits (fun k hk e rest idx k' b hqueue hfind hb => ?_)
        henabled
      -- it would have aborted if there were no room
      have hturn : s.deliverTurn x pri = .ok s' := hexec
      rw [deliverTurn_eq] at hturn
      obtain ⟨q, hq, -⟩ := except_map_ok.mp hturn
      rcases deliverOneIo_ok hk hq with
        ⟨hnone, -⟩ | ⟨e', rest', idx', l, b', he, hfind', hb', hlt, -⟩
      · exact absurd (hqueue.symm.trans hnone) (by simp)
      · obtain ⟨rfl, -⟩ := List.cons.inj (hqueue.symm.trans he)
        obtain ⟨hidx, rfl⟩ := Prod.mk.inj (Except.ok.inj (hfind.symm.trans hfind'))
        obtain ⟨idx'', l', hfind'', -, -, hbridge, -⟩ :=
          h.star.findBridge_spec hk (k.ioPull pri .output) rfl rfl e.dst
        obtain ⟨-, rfl⟩ := Prod.mk.inj (Except.ok.inj (hfind.symm.trans hfind''))
        rw [hbridge, ← Option.some.inj hidx, hb] at hb'
        rwa [Option.some.inj hb']
  obtain ⟨t, ht, hsame, heffect⟩ := hdone
  obtain rfl : t = s' := Except.ok.inj (ht.symm.trans hexec)
  exact ⟨h.effect hsame heffect, hsame, heffect⟩

end SchedNet

/-! ### The simulation -/

namespace SchedThreads

variable {s s' : SchedThreads} {x y : Sched} {pc : SchedPc} {net : SchedNet} {pri idx : Nat}

@[simp] theorem goto_net : (s.goto x pc).net = s.net := rfl

@[simp] theorem goto_evfd : (s.goto x pc).evfd = s.evfd := rfl

@[simp] theorem goto_self : (s.goto x pc).pc x = pc := Function.update_self ..

theorem goto_of_ne (h : y ≠ x) : (s.goto x pc).pc y = s.pc y := Function.update_of_ne h ..

@[simp] theorem setNet_net : (s.setNet net).net = net := rfl

@[simp] theorem setNet_pc : (s.setNet net).pc = s.pc := rfl

@[simp] theorem setNet_evfd : (s.setNet net).evfd = s.evfd := rfl

@[simp] theorem eventDestroy_net (e : SkEvent) : (s.eventDestroy e).net = s.net := rfl

@[simp] theorem eventDestroy_pc (e : SkEvent) : (s.eventDestroy e).pc = s.pc := rfl

@[simp] theorem eventDestroy_evfd (e : SkEvent) : (s.eventDestroy e).evfd = s.evfd := rfl

@[simp] theorem setRunning_net (r : Bool) : (s.setRunning x r).net = s.net := rfl

@[simp] theorem setRunning_pc (r : Bool) : (s.setRunning x r).pc = s.pc := rfl

@[simp] theorem setRunning_evfd (r : Bool) : (s.setRunning x r).evfd = s.evfd := rfl

@[simp] theorem setEvfd_net (n : Nat) : (s.setEvfd x idx n).net = s.net := rfl

@[simp] theorem setEvfd_pc (n : Nat) : (s.setEvfd x idx n).pc = s.pc := rfl

@[simp] theorem ioBridgetNotify_net (n : Nat) : (s.ioBridgetNotify x idx n).net = s.net := by
  rw [ioBridgetNotify]
  split <;> rfl

@[simp] theorem ioBridgetNotify_pc (n : Nat) : (s.ioBridgetNotify x idx n).pc = s.pc := by
  rw [ioBridgetNotify]
  split <;> rfl

/-- The events in the buffers of all threads. -/
def buffers (s : SchedThreads) (x : Sched) : Nat → List SkEvent := (s.pc x).buffered

/-- The schedulers, with the events of the buffers in the queues. -/
def view (s : SchedThreads) : SchedNet := s.net.withBuffers s.buffers

/-- The turn that an action is. -/
def turn (s : SchedThreads) : ThreadAction → Option SchedAction
  | .send src dst ptoId => some (.send src dst ptoId)
  | .step x =>
    match s.pc x with
    | .deliver pri _ => if s.net.enabled (.deliver x pri) then some (.deliver x pri) else none
    | .buffer pri _ (_ :: _) => some (.run x pri)
    | .copy y idx => if s.net.bridgeMq y idx = [] then none else some (.copy y idx)
    | .created | .timers | .notify .. | .pull .. | .buffer _ _ [] | .handler .. | .clean _ | .poll
    | .dispatch | .stopped => none
  | .start _ | .wake _ | .callback .. | .stop _ => none

/-- A thread goes on where it has the same buffer. -/
theorem buffers_goto (h : pc.buffered = (s.pc x).buffered) : (s.goto x pc).buffers = s.buffers := by
  funext y
  by_cases hy : y = x
  · rw [buffers, buffers, hy, goto_self, h]
  · rw [buffers, buffers, goto_of_ne hy]

/-- Going on with the same buffer is not seen. -/
theorem view_goto (h : pc.buffered = (s.pc x).buffered) : (s.goto x pc).view = s.view := by
  rw [view, view, buffers_goto h, goto_net]

/-- It does so with other queues. -/
theorem view_setNet (h : pc.buffered = (s.pc x).buffered) :
    ((s.goto x pc).setNet net).view = net.withBuffers s.buffers := by
  show net.withBuffers (s.goto x pc).buffers = _
  rw [buffers_goto h]

theorem deliverMsg_view (hbuf : ∀ p, (s.pc x).buffered p = []) (h : s.deliverMsg x = .ok s') :
    s'.view = s.view := by
  simp only [deliverMsg, bind, Except.bind] at h
  split at h
  · exact absurd h (by simp)
  · obtain rfl := Except.ok.inj h
    exact view_goto (funext fun p => (hbuf p).symm)

/-- **Events that are pulled** stay where they were seen. -/
theorem view_pull {nprocessed : Nat} (hpc : s.pc x = .pull pri nprocessed)
    (h : s.step x = .ok s') : s'.view = s.view := by
  simp only [step, hpc, SchedNet.pullEvents, bind, Except.bind] at h
  cases hk : s.net.scheds x with
  | none =>
    rw [SchedNet.sched, hk] at h
    exact absurd h (by simp)
  | some k =>
    rw [SchedNet.sched_eq hk] at h
    obtain rfl := Except.ok.inj h
    rw [view, view]
    simp only [setNet_net, SchedNet.withBuffers, SchedNet.setSched]
    congr 1
    funext y
    by_cases hy : y = x
    · -- what was in the queue is in the buffer now
      subst hy
      rw [if_pos rfl, hk, Option.map_some, Option.map_some]
      refine congrArg some (SkSched.ext_ioTbl (fun p t => ?_) rfl rfl rfl)
      cases t with
      | output =>
        rw [SkSched.withBuffer_output, SkSched.withBuffer_output, SkSched.ioPullN_ioTbl,
          if_neg (by simp)]
      | input =>
        rw [SkSched.withBuffer_input, SkSched.withBuffer_input, SkSched.ioPullN_ioTbl]
        by_cases hp : p = pri
        · rw [if_pos ⟨hp, rfl⟩]
          simp only [buffers, setNet_pc, goto_self, hpc, SchedPc.buffered, List.nil_append]
          rw [if_pos hp, hp, List.take_append_drop]
        · rw [if_neg (fun h => hp h.1)]
          simp only [buffers, setNet_pc, goto_self, hpc, SchedPc.buffered, if_neg hp]
    · -- the other schedulers are seen as before
      rw [if_neg hy]
      simp only [buffers, setNet_pc, goto_of_ne hy]

/-- **An event that is run** is the first one of its queue. -/
theorem view_run {nprocessed : Nat} {e : SkEvent} {events : List SkEvent}
    (hpc : s.pc x = .buffer pri nprocessed (e :: events)) (hx : x ∈ s.net.engines)
    (hstar : s.view.Star) (h : s.step x = .ok s') :
    s.view.enabled (.run x pri) ∧ s.view.exec (.run x pri) = .ok s'.view := by
  obtain ⟨k, hk⟩ := Option.isSome_iff_exists.mp ((hstar.engine x).mpr hx)
  obtain ⟨l, hl, rfl⟩ := Option.map_eq_some_iff.mp hk
  -- the event is the first one of the input as it is seen
  have hbuf : s.buffers x pri = e :: events := by
    rw [buffers, hpc]
    exact if_pos rfl
  have hqueue : (l.withBuffer (s.buffers x)).ioTbl pri .input =
      e :: (events ++ l.ioTbl pri .input) := by
    rw [SkSched.withBuffer_input, hbuf, List.cons_append]
  simp only [step, hpc] at h
  split at h
  · exact absurd h (by simp)
  · rename_i hdst
    obtain rfl := Except.ok.inj h
    constructor
    · -- the turn is possible
      show (s.view.scheds x).any fun k => k.ioTbl pri .input ≠ []
      rw [hk, Option.any_some, hqueue]
      rfl
    · -- and takes the event from the queue
      simp only [SchedNet.exec, SchedNet.runTurn, SchedNet.sched_eq hk, bind, Except.bind, hqueue]
      rw [if_neg hdst]
      refine congrArg Except.ok ?_
      rw [view, view]
      simp only [setNet_net, SchedNet.withBuffers, SchedNet.setSched]
      congr 1
      funext y
      by_cases hy : y = x
      · subst hy
        rw [if_pos rfl, hl, Option.map_some]
        refine congrArg some (SkSched.ext_ioTbl (fun p t => ?_) rfl rfl rfl)
        rw [SchedNet.ioPull_ioTbl]
        cases t with
        | output => rw [if_neg (by simp), SkSched.withBuffer_output, SkSched.withBuffer_output]
        | input =>
          by_cases hp : p = pri
          · -- what is left in the buffer is the rest of the queue
            subst hp
            rw [if_pos ⟨rfl, rfl⟩, hqueue, List.tail_cons, SkSched.withBuffer_input]
            simp only [buffers, setNet_pc, goto_self, SchedPc.buffered, if_pos]
          · rw [if_neg (fun h => hp h.1), SkSched.withBuffer_input, SkSched.withBuffer_input]
            simp only [buffers, setNet_pc, goto_self, hpc, SchedPc.buffered, if_neg hp]
      · -- the other schedulers are seen as before
        rw [if_neg hy]
        simp only [buffers, setNet_pc, goto_of_ne hy]

/-- A delivery from an output queue. -/
theorem view_deliver {delivery : List Nat} (hpc : s.pc x = .deliver pri delivery)
    (hx : x ∈ s.net.engines) (hstar : s.view.Star) (h : s.step x = .ok s') :
    if s.net.enabled (.deliver x pri) then
      s.view.enabled (.deliver x pri) ∧ s.view.exec (.deliver x pri) = .ok s'.view
    else s'.view = s.view := by
  obtain ⟨k, hk⟩ := Option.isSome_iff_exists.mp ((hstar.engine x).mpr hx)
  obtain ⟨l, hl, rfl⟩ := Option.map_eq_some_iff.mp hk
  -- the buffers have nothing to deliver
  have hon : s.net.enabled (.deliver x pri) ↔ l.ioTbl pri .output ≠ [] := by
    show ((s.net.scheds x).any fun k => k.ioTbl pri .output ≠ []) ↔ _
    rw [hl, Option.any_some, decide_eq_true_eq]
  -- a turn delivers as the loop does
  have hturn : s.view.exec (.deliver x pri) =
      (s.net.deliverOneIo x pri).map fun q => q.2.withBuffers s.buffers := by
    show s.view.deliverTurn x pri = _
    rw [SchedNet.deliverTurn_eq, view, SchedNet.withBuffers_deliverOneIo]
    cases s.net.deliverOneIo x pri <;> rfl
  simp only [step, hpc] at h
  cases hone : s.net.deliverOneIo x pri with
  | error fault =>
    rw [hone] at h
    exact absurd h (by simp)
  | ok q =>
    rw [hone] at h hturn
    rcases SchedNet.deliverOneIo_ok hl hone with
      ⟨hnone, rfl⟩ | ⟨e, rest, idx, k', b, hqueue, -, -, -, rfl⟩
    · -- the queue is empty, and the loop goes on
      rw [if_neg fun hin => hon.mp hin hnone]
      obtain rfl := Except.ok.inj h
      apply view_goto
      rw [hpc]
      split <;> rfl
    · -- an event is delivered, which is the turn
      have hne : l.ioTbl pri .output ≠ [] := by
        rw [hqueue]
        exact List.cons_ne_nil _ _
      rw [if_pos (hon.mpr hne)]
      obtain rfl := Except.ok.inj h
      constructor
      · show (s.view.scheds x).any fun k => k.ioTbl pri .output ≠ []
        rw [hk, Option.any_some, SkSched.withBuffer_output]
        exact decide_eq_true hne
      · rw [hturn, view_setNet (by rw [hpc]; rfl)]
        rfl

/-- A bridge that holds a message gives its reader a turn. -/
theorem view_enabled_copy (h : s.net.bridgeMq y idx ≠ []) : s.view.enabled (.copy y idx) := by
  show (s.view.scheds y).any fun k => k.bridgeTbl[idx]?.any fun b => b.mq ≠ []
  rw [SchedNet.bridgeMq] at h
  cases hk : s.net.scheds y with
  | none => exact absurd (by rw [hk]; rfl) h
  | some k =>
    cases hb : k.bridgeTbl[idx]? with
    | none => exact absurd (by rw [hk, Option.elim_some, hb]; rfl) h
    | some b =>
      rw [hk, Option.elim_some, hb, Option.elim_some] at h
      rw [view, SchedNet.withBuffers_scheds, hk, Option.map_some, Option.any_some,
        SkSched.withBuffer_bridgeTbl, hb, Option.any_some]
      exact decide_eq_true h

/-- A copy from a bridge. -/
theorem view_copy (hpc : s.pc x = .copy y idx) (h : s.step x = .ok s') :
    if s.net.bridgeMq y idx = [] then s'.view = s.view
    else s.view.enabled (.copy y idx) ∧ s.view.exec (.copy y idx) = .ok s'.view := by
  simp only [step, hpc] at h
  split
  · rename_i hempty
    rw [if_pos hempty] at h
    obtain rfl := Except.ok.inj h
    exact view_goto (by rw [hpc]; rfl)
  · rename_i hne
    rw [if_neg hne] at h
    cases hcopy : s.net.copyTurn y idx with
    | error fault =>
      rw [hcopy] at h
      exact absurd h (by simp)
    | ok net =>
      rw [hcopy] at h
      obtain rfl := Except.ok.inj h
      refine ⟨view_enabled_copy hne, ?_⟩
      show s.view.copyTurn y idx = _
      rw [view, SchedNet.withBuffers_copyTurn, hcopy]
      rfl

/-- **A step of a thread** is the turn that it is seen as. -/
theorem view_step (hx : x ∈ s.net.engines) (hstar : s.view.Star) (h : s.step x = .ok s') :
    match s.turn (.step x) with
    | none => s'.view = s.view
    | some a => s.view.enabled a ∧ s.view.exec a = .ok s'.view := by
  cases hpc : s.pc x with
  | created | poll | stopped =>
    -- these do not step
    simp only [step, hpc] at h
    simp only [turn, hpc]
    rw [← Except.ok.inj h]
  | timers =>
    simp only [step, hpc] at h
    simp only [turn, hpc]
    -- nothing was delivered yet
    exact deliverMsg_view (fun p => by rw [hpc]; rfl) h
  | deliver pri delivery =>
    have hview := view_deliver hpc hx hstar h
    simp only [turn, hpc]
    split at hview
    · rename_i hon
      rw [if_pos hon]
      exact hview
    · rename_i hoff
      rw [if_neg hoff]
      exact hview
  | notify idx delivery =>
    simp only [step, hpc] at h
    -- the turn of the loop, if there was something to deliver
    simp only [turn, hpc]
    split at h
    · rw [← Except.ok.inj h]
      exact view_goto (by rw [hpc]; rfl)
    · -- an eventfd is not seen
      rw [← Except.ok.inj h, view_goto (by rw [ioBridgetNotify_pc, hpc]; rfl), view, view,
        ioBridgetNotify_net]
      congr 1
      funext y
      rw [buffers, buffers, ioBridgetNotify_pc]
  | pull pri nprocessed =>
    simp only [turn, hpc]
    exact view_pull hpc h
  | buffer pri nprocessed events =>
    cases events with
    | nil =>
      simp only [step, hpc] at h
      simp only [turn, hpc]
      rw [← Except.ok.inj h]
      apply view_goto
      rw [hpc]
      funext p
      have hnone : (SchedPc.buffer pri nprocessed []).buffered p = [] := ite_self _
      rw [hnone]
      -- the buffer is empty, wherever the loop goes on
      split <;> rfl
    | cons e events =>
      simp only [turn, hpc]
      -- an event is run
      exact view_run hpc hx hstar h
  | handler pri nprocessed e events =>
    simp only [step, hpc] at h
    simp only [turn, hpc]
    -- freeing a message is not seen
    rw [← Except.ok.inj h, view_goto (by rw [eventDestroy_pc, hpc]; rfl)]
    rfl
  | clean nprocessed =>
    simp only [step, hpc] at h
    simp only [turn, hpc]
    split at h
    · exact deliverMsg_view (fun p => by rw [hpc]; rfl) h
    · rw [← Except.ok.inj h]
      exact view_goto (by rw [hpc]; rfl)
  | dispatch =>
    simp only [step, hpc] at h
    simp only [turn, hpc]
    rw [← Except.ok.inj h]
    apply view_goto
    rw [hpc]
    split <;> rfl
  | copy y idx =>
    have hview := view_copy hpc h
    simp only [turn, hpc]
    split at hview
    · -- the bridge is empty, and the loop ends
      rename_i hempty
      rw [if_pos hempty]
      exact hview
    · rename_i hne
      rw [if_neg hne]
      exact hview

/-- **Every action** is the turn that it is seen as, or changes nothing that is seen. -/
theorem view_exec {a : ThreadAction} (hstar : s.view.Star) (henabled : s.enabled a)
    (h : s.exec a = .ok s') :
    match s.turn a with
    | none => s'.view = s.view
    | some b => s.view.enabled b ∧ s.view.exec b = .ok s'.view := by
  cases a with
  | send src dst ptoId =>
    refine ⟨henabled.1, ?_⟩
    -- sending puts the message to the same queue in both
    simp only [exec] at h
    show s.view.schedSend src dst ptoId = _
    rw [view, SchedNet.withBuffers_schedSend]
    cases hsend : s.net.schedSend src dst ptoId with
    | error fault =>
      rw [hsend] at h
      exact absurd h (by simp)
    | ok net =>
      rw [hsend] at h
      rw [← Except.ok.inj h]
      rfl
  | start x =>
    show s'.view = s.view
    rw [← Except.ok.inj h, view_goto (by rw [setRunning_pc, henabled.2]; rfl)]
    rfl
  | step x => exact view_step henabled.1 hstar h
  | wake x =>
    -- waking up is not seen
    show s'.view = s.view
    rw [← Except.ok.inj h]
    exact view_goto (by rw [henabled.2]; rfl)
  | callback x y idx =>
    show s'.view = s.view
    -- neither is an eventfd that is read
    rw [← Except.ok.inj h, copyEvent]
    split
    · rfl
    · rw [view_goto (by rw [setEvfd_pc, henabled.2.1]; rfl)]
      rfl
  | stop x =>
    -- nor the flag of the thread
    show s'.view = s.view
    rw [← Except.ok.inj h]
    rfl

/-- The schedulers as they are seen, with what is known of them. -/
def Sees (s : SchedThreads) (t : SchedNet) : Prop := t = s.view ∧ t.Known

/-- **The loops are turns**: every action is one turn of the schedulers as they are seen, or
    none. -/
theorem simulates : Machine.Simulation machine Machine.anyStep SchedNet.machine Machine.anyStep
    turn Sees where
  init s := by
    rintro ⟨net, hnet, rfl⟩
    refine ⟨net, hnet, (SchedNet.withBuffers_nil fun _ _ => rfl).symm, SchedNet.known_init hnet⟩
  stutter s a s' t hsees henabled _ hexec hturn := by
    obtain ⟨rfl, hknown⟩ := hsees
    have hview := view_exec hknown.star henabled hexec
    rw [hturn] at hview
    exact ⟨hview.symm, hknown⟩
  step s a s' t b hsees henabled _ hexec hturn := by
    obtain ⟨rfl, hknown⟩ := hsees
    have hview := view_exec hknown.star henabled hexec
    rw [hturn] at hview
    exact ⟨s'.view, hview.1, trivial, hview.2, rfl, (hknown.step_ok hview.1 hview.2).1⟩

/-- **What is known of the turns** is known of the loops. -/
theorem Reach.known (h : machine.Reach Machine.anyStep s) : s.view.Known := by
  obtain ⟨t, -, rfl, hknown⟩ := simulates.reach h
  exact hknown

end SchedThreads

end Skull
