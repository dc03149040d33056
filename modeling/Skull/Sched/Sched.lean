import Skull.Service.Event
import Skull.Lib.Machine

namespace Skull

open Machines

/-!
# Schedulers and the bridges between them (`sk_sched`)

Each engine has one scheduler.  A scheduler keeps an input and an output queue for each priority,
and a bridge, which is one more queue, to each scheduler that it is linked to:

* `SkEvent`, `SkSched`, `SchedNet` — a message, a scheduler, and all of them with their history;
* `SchedNet.setupEngines` — the star of `_sk_setup_engines`, with the master in the middle;
* `SchedNet.schedSend` — `sk_sched_send`;
* `SchedNet.deliverTurn`, `SchedNet.copyTurn`, `SchedNet.runTurn` — one turn of the loop of
  `_deliver_one_io`, of `_copy_event` and of `_pull_and_run`;
* `SchedNet.machine` — the machine of all runs.

A scheduler and those it is linked to run in different threads, and share nothing but the bridges.
A loop of a scheduler is a sequence of its turns; the machine has the turns of all schedulers in
any order, with messages sent in between.  The queues of an io grow when they are full, a bridge
does not.
-/

/-! ### The data -/

/-- The protocols of `sk_pto_tbl`. -/
inductive PtoId
  | tcpAccept | workflowRun | entityDestroy | svcIocall | svcTaskRun | svcTaskDone
  | timerTriggered | timerEmit | stdStart | svcTimerRun | svcTimerDone | svcTaskCb
  deriving DecidableEq, Repr

/-- Their priorities. -/
def PtoId.pri : PtoId → Nat
  | .tcpAccept => 7
  | .workflowRun => 5
  | .entityDestroy => 9
  | .svcIocall => 6
  | .svcTaskRun => 4
  | .svcTaskDone => 6
  | .timerTriggered => 8
  | .timerEmit => 8
  | .stdStart => 7
  | .svcTimerRun => 8
  | .svcTimerDone => 8
  | .svcTaskCb => 6

/-- `sk_event_t`; `data` points to the arguments, which are those of the message with that number. -/
structure SkEvent where
  src : Sched
  dst : Option Sched
  ptoId : PtoId
  hop : Nat
  data : Nat
  deriving DecidableEq, Repr

/-- `sk_io_type_t`. -/
inductive IoType
  | input | output
  deriving DecidableEq, Repr

/-- `sk_io_bridge_t`. -/
structure IoBridge where
  dst : Sched
  mq : List SkEvent
  deriving DecidableEq, Repr

/-- `sk_sched_t`. -/
structure SkSched where
  /-- The queues of the io of a priority. -/
  ioTbl : Nat → IoType → List SkEvent
  bridgeTbl : List IoBridge
  lastDeliveryIdx : Nat
  flags : Nat

/-- The assertions. -/
inductive SchedFault
  /-- `!ret` in `sk_engine_link`: all bridges are in use. -/
  | link
  /-- The hop limit in `_deliver_one_io`. -/
  | hop
  /-- `_deliver_one_io` finds no bridge. -/
  | noBridge
  /-- The bridge is full. -/
  | full
  /-- `sched == event->dst` in `_run_event`. -/
  | dst
  /-- A scheduler is used that does not exist. -/
  | noSched
  /-- `NULL` is used as a bridge. -/
  | null
  deriving DecidableEq, Repr

/-- The schedulers of a core, with what was sent and handled. -/
structure SchedNet where
  threads : Nat
  bioCnt : Nat
  scheds : Sched → Option SkSched
  /-- The messages that were sent, as they were: the first one is number 0. -/
  sent : List SkEvent
  /-- The messages that were handled, with the scheduler that did. -/
  handled : List (Sched × SkEvent)

/-- `SK_SCHED_MAX_IO_BRIDGE`. -/
def schedMaxIoBridge : Nat := 48

/-- `SK_SCHED_MAX_ROUTING_HOP`. -/
def schedMaxRoutingHop : Nat := 255

/-- `SK_SCHED_IO_BRIDGE_SZ`, the events that a bridge takes. -/
def schedIoBridgeSz : Nat := 65535

/-- `SK_SCHED_NON_RR_ROUTABLE` is bit 0 of the flags. -/
def SkSched.rrRoutable (k : SkSched) : Bool := ¬ k.flags.testBit 0

namespace SkSched

/-- `sk_io_push`. -/
def ioPush (k : SkSched) (pri : Nat) (type : IoType) (e : SkEvent) : SkSched :=
  { k with ioTbl := fun p t => if p = pri ∧ t = type then k.ioTbl p t ++ [e] else k.ioTbl p t }

/-- `sk_io_pull` of one event. -/
def ioPull (k : SkSched) (pri : Nat) (type : IoType) : SkSched :=
  { k with ioTbl := fun p t => if p = pri ∧ t = type then (k.ioTbl p t).tail else k.ioTbl p t }

/-- A bridge has another queue. -/
def setBridge (k : SkSched) (idx : Nat) (b : IoBridge) : SkSched :=
  { k with bridgeTbl := k.bridgeTbl.set idx b }

/-- `_find_affinity_bridge`. -/
def findAffinityBridge (k : SkSched) (target : Sched) : Option Nat :=
  k.bridgeTbl.findIdx? fun b => b.dst = target

/-- The loop of `_find_bridge_roundrobin`, which ends when it is back at `last`; as many turns as
    there are bridges are enough for that. -/
def roundrobinLoop (routable : Nat → Bool) (size last : Nat) : (turns idx : Nat) → Option Nat
  | 0, _ => none
  | turns + 1, idx =>
    if routable idx then some idx
    else if (idx + 1) % size = last then none
    else roundrobinLoop routable size last turns ((idx + 1) % size)

end SkSched

namespace SchedNet

/-! ### The star -/

/-- The scheduler `x`. -/
def sched (s : SchedNet) (x : Sched) : Except SchedFault SkSched :=
  match s.scheds x with
  | none => .error .noSched
  | some k => .ok k

/-- `x` is `k`. -/
def setSched (s : SchedNet) (x : Sched) (k : SkSched) : SchedNet :=
  { s with scheds := fun y => if y = x then some k else s.scheds y }

/-- `sk_sched_create`. -/
def schedCreate (flags : Nat) : SkSched where
  ioTbl := fun _ _ => []
  bridgeTbl := []
  lastDeliveryIdx := 0
  flags := flags

/-- `sk_engine_link`, with `sk_sched_setup_bridge`. -/
def engineLink (src dst : Sched) (s : SchedNet) : Except SchedFault SchedNet := do
  let k ← s.sched src
  if k.bridgeTbl.length = schedMaxIoBridge then .error .link
  else .ok (s.setSched src { k with bridgeTbl := k.bridgeTbl ++ [⟨dst, []⟩] })

/-- The loop of `_sk_setup_engines` over the workers. -/
def setupWorker (s : SchedNet) (i : Nat) : Except SchedFault SchedNet := do
  let s := s.setSched (.worker i) (schedCreate 0)
  let s ← s.engineLink .master (.worker i)
  s.engineLink (.worker i) .master

/-- The loop of `_sk_setup_engines` over the bios. -/
def setupBio (s : SchedNet) (i : Nat) : Except SchedFault SchedNet := do
  -- No event that any worker may handle is routed to a bio.
  let s := s.setSched (.bio (i + 1)) (schedCreate 1)
  let s ← s.engineLink (.bio (i + 1)) .master
  s.engineLink .master (.bio (i + 1))

/-- `_sk_setup_engines`. -/
def setupEngines (threads bioCnt : Nat) : Except SchedFault SchedNet := do
  let s : SchedNet := { threads, bioCnt, scheds := fun _ => none, sent := [], handled := [] }
  let s ← (List.range threads).foldlM setupWorker (s.setSched .master (schedCreate 0))
  (List.range bioCnt).foldlM setupBio s

/-- The schedulers that exist. -/
def engines (s : SchedNet) : List Sched :=
  .master :: (List.range s.threads).map .worker ++ (List.range s.bioCnt).map fun i => .bio (i + 1)

/-! ### Sending -/

/-- `_emit_event`. -/
def emitEvent (s : SchedNet) (src : Sched) (dst : Option Sched) (type : IoType) (ptoId : PtoId) :
    Except SchedFault SchedNet := do
  let k ← s.sched src
  let e : SkEvent := { src, dst, ptoId, hop := 0, data := s.sent.length }
  .ok { s.setSched src (k.ioPush ptoId.pri type e) with sent := s.sent ++ [e] }

/-- `sk_sched_send`. -/
def schedSend (s : SchedNet) (src : Sched) (dst : Option Sched) (ptoId : PtoId) :
    Except SchedFault SchedNet :=
  s.emitEvent src dst (if dst = some src then .input else .output) ptoId

/-! ### Routing -/

/-- The bridge leads to a scheduler that takes messages without a destination. -/
def routable (s : SchedNet) (k : SkSched) (idx : Nat) : Bool :=
  k.bridgeTbl[idx]?.any fun b => (s.scheds b.dst).any SkSched.rrRoutable

/-- `_find_bridge_roundrobin`. -/
def findBridgeRoundrobin (s : SchedNet) (k : SkSched) : Except SchedFault (Option Nat × SkSched) :=
  let size := k.bridgeTbl.length
  if size = 0 then .error .null
  else
    match SkSched.roundrobinLoop (s.routable k) size k.lastDeliveryIdx size k.lastDeliveryIdx with
    | none => .ok (none, k)
    | some idx => .ok (some idx, { k with lastDeliveryIdx := (idx + 1) % size })

/-- The bridge for an event in `_deliver_one_io`. -/
def findBridge (s : SchedNet) (k : SkSched) (dst : Option Sched) :
    Except SchedFault (Option Nat × SkSched) :=
  match dst.bind k.findAffinityBridge with
  | some idx => .ok (some idx, k)
  | none => s.findBridgeRoundrobin k

/-- One turn of the loop of `_deliver_one_io`, with `sk_io_bridge_deliver`; `hop` has 8 bits. -/
def deliverTurn (s : SchedNet) (x : Sched) (pri : Nat) : Except SchedFault SchedNet := do
  let k ← s.sched x
  match k.ioTbl pri .output with
  | [] => .ok s
  | e :: _ =>
    if e.hop = schedMaxRoutingHop then .error .hop
    else
      let (idx, k) ← s.findBridge (k.ioPull pri .output) e.dst
      match idx.bind fun idx => k.bridgeTbl[idx]?.map (idx, ·) with
      -- `event.dst = io_bridge->dst` comes before `!io_bridge` is looked at
      | none => .error (if e.dst = none then .null else .noBridge)
      | some (idx, b) =>
        if schedIoBridgeSz ≤ b.mq.length then .error .full
        else
          let e := { e with dst := some (e.dst.getD b.dst), hop := (e.hop + 1) % 256 }
          .ok (s.setSched x (k.setBridge idx { b with mq := b.mq ++ [e] }))

/-- One turn of the loop of `_copy_event`, in the thread of the scheduler that the bridge `idx` of
    `x` leads to. -/
def copyTurn (s : SchedNet) (x : Sched) (idx : Nat) : Except SchedFault SchedNet := do
  let k ← s.sched x
  match k.bridgeTbl[idx]? with
  | none => .ok s
  | some b =>
    match b.mq with
    | [] => .ok s
    | e :: mq =>
      let s := s.setSched x (k.setBridge idx { b with mq })
      let d ← s.sched b.dst
      let type := if e.dst = some b.dst then IoType.input else .output
      .ok (s.setSched b.dst (d.ioPush e.ptoId.pri type e))

/-- One turn of the loop of `_pull_and_run`, with `_run_event`. -/
def runTurn (s : SchedNet) (x : Sched) (pri : Nat) : Except SchedFault SchedNet := do
  let k ← s.sched x
  match k.ioTbl pri .input with
  | [] => .ok s
  | e :: _ =>
    if e.dst ≠ some x then .error .dst
    else .ok { s.setSched x (k.ioPull pri .input) with handled := s.handled ++ [(x, e)] }

end SchedNet

/-! ### The machine -/

/-- What may happen next. -/
inductive SchedAction
  /-- Code that runs on `src` sends a message. -/
  | send (src : Sched) (dst : Option Sched) (ptoId : PtoId)
  /-- `x` delivers an event of a priority. -/
  | deliver (x : Sched) (pri : Nat)
  /-- An event is taken from a bridge of `x`. -/
  | copy (x : Sched) (idx : Nat)
  /-- `x` handles an event of a priority. -/
  | run (x : Sched) (pri : Nat)
  deriving DecidableEq, Repr

/-- It is a turn of a loop of a scheduler. -/
def SchedAction.isTurn : SchedAction → Bool
  | .send .. => false
  | .deliver .. | .copy .. | .run .. => true

namespace SchedNet

/-- What runs on an action. -/
def exec (s : SchedNet) : SchedAction → Except SchedFault SchedNet
  | .send src dst ptoId => s.schedSend src dst ptoId
  | .deliver x pri => s.deliverTurn x pri
  | .copy x idx => s.copyTurn x idx
  | .run x pri => s.runTurn x pri

/-- When an action may happen: messages go to schedulers that exist, and a loop that has nothing
    to do has ended. -/
def enabled (s : SchedNet) : SchedAction → Prop
  | .send src dst _ => src ∈ s.engines ∧ ∀ d ∈ dst, d ∈ s.engines
  | .deliver x pri => (s.scheds x).any fun k => k.ioTbl pri .output ≠ []
  | .copy x idx => (s.scheds x).any fun k => k.bridgeTbl[idx]?.any fun b => b.mq ≠ []
  | .run x pri => (s.scheds x).any fun k => k.ioTbl pri .input ≠ []

instance (s : SchedNet) (a : SchedAction) : Decidable (s.enabled a) :=
  match a with
  | .send .. => inferInstanceAs (Decidable (_ ∧ ∀ d ∈ _, d ∈ _))
  | .deliver .. | .copy .. | .run .. => inferInstanceAs (Decidable (_ = true))

/-- The runs of a core with at least one worker. -/
def machine : Machine SchedNet SchedAction SchedFault where
  init s := ∃ threads bioCnt, 0 < threads ∧ setupEngines threads bioCnt = .ok s
  enabled := enabled
  exec := exec

instance (s : SchedNet) (a : SchedAction) : Decidable (machine.enabled s a) :=
  inferInstanceAs (Decidable (s.enabled a))

end SchedNet

end Skull
