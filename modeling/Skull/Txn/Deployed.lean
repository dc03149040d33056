import Skull.Txn.Placed
import Skull.Txn.Completion
import Skull.Sched.Routing
import Skull.Lib.Simulation

namespace Skull

open Machines

/-!
# Transactions on the schedulers of a core

`TxnSystem` hands its messages to a queue from which they are taken in the order of their keys.  In
a core they are sent with `sk_sched_send` and pass the queues and bridges of the schedulers:

* `Pto.id` — the protocol a message is sent with;
* `TxnCore` — the transactions and services, the schedulers, and the arguments of the messages;
* `TxnCore.machine` — the machine of all runs;
* `TxnCore.view`, `TxnCore.abs` — a turn that delivers or copies changes nothing, one that handles a
  message is the step of `TxnSystem` that does, on the messages that were sent and not handled.
-/

/-- The protocol that a message is sent with. -/
def Pto.id : Pto → PtoId
  | .workflowRun => .workflowRun
  | .svcIocall .. => .svcIocall
  | .svcTaskRun .. => .svcTaskRun
  | .svcTaskCb .. => .svcTaskCb
  | .svcTaskDone .. => .svcTaskDone
  | .timerEmit .. => .timerEmit
  | .svcTimerRun .. => .svcTimerRun
  | .svcTimerDone .. => .svcTimerDone

/-- A message has the priority of its number. -/
@[simp] theorem Pto.id_pri (p : Pto) : p.id.pri = p.pri := by
  cases p <;> rfl

/-- What an assertion of a core is about. -/
inductive TxnCoreFault
  | sched (fault : SchedFault)
  | txn (fault : TxnFault)
  deriving DecidableEq, Repr

/-- A core: the messages that `app` sends go to `net`, their arguments to `mail`. -/
structure TxnCore where
  app : TxnSystem
  net : SchedNet
  /-- The arguments of the messages that were sent, by their numbers. -/
  mail : List Event

/-- What may happen next. -/
inductive CoreAction
  /-- A driver, an endpoint, a timer or a new request acts. -/
  | outside (a : TxnAction)
  /-- `x` delivers an event of a priority. -/
  | deliver (x : Sched) (pri : Nat)
  /-- An event is taken from a bridge of `x`. -/
  | copy (x : Sched) (idx : Nat)
  /-- `x` handles an event of a priority. -/
  | run (x : Sched) (pri : Nat) (code : UserCode)

/-- The message is handled by its scheduler, not from outside. -/
def TxnAction.isHandle : TxnAction → Bool
  | .handle .. => true
  | .create .. | .deliver .. | .epCb .. | .jobTriggered .. | .npTriggered .. => false

namespace TxnCore

/-- `sk_sched_send` of messages, in order. -/
def post (c : TxnCore) : List Event → Except TxnCoreFault TxnCore
  | [] => .ok c
  | e :: es =>
    match c.net.schedSend e.src (some e.dst) e.pto.id with
    | .error fault => .error (.sched fault)
    | .ok net => post { c with net, mail := c.mail ++ [e] } es

/-- Code has run: the messages it sent go out. -/
def flush (c : TxnCore) (r : Except TxnFault TxnSystem) : Except TxnCoreFault TxnCore :=
  match r with
  | .error fault => .error (.txn fault)
  | .ok app => { c with app := { app with net := [] } }.post app.net

/-- A scheduler has had a turn. -/
def turned (c : TxnCore) (r : Except SchedFault SchedNet) : Except TxnCoreFault TxnCore :=
  match r with
  | .error fault => .error (.sched fault)
  | .ok net => .ok { c with net }

/-- The message that `x` handles next of a priority. -/
def next (c : TxnCore) (x : Sched) (pri : Nat) : Option SkEvent :=
  (c.net.scheds x).bind fun k => (k.ioTbl pri .input).head?

variable (bioCnt : Nat)

/-- What runs on an action. -/
def exec (c : TxnCore) : CoreAction → Except TxnCoreFault TxnCore
  | .outside a => c.flush (c.app.exec bioCnt a)
  | .deliver x pri => c.turned (c.net.deliverTurn x pri)
  | .copy x idx => c.turned (c.net.copyTurn x idx)
  | .run x pri code =>
    match c.turned (c.net.runTurn x pri) with
    | .error fault => .error fault
    | .ok c' =>
      match (c.next x pri).bind fun e => c.mail[e.data]? with
      | none => .ok c'
      | some e => c'.flush (c.app.handle bioCnt e code)

/-- When an action may happen. -/
def enabled (c : TxnCore) : CoreAction → Prop
  | .outside a => a.isHandle = false ∧ c.app.enabled bioCnt a ∧
      TxnSystem.Within (· ∈ c.net.engines) c.app a
  | .deliver x pri => c.net.enabled (.deliver x pri)
  | .copy x idx => c.net.enabled (.copy x idx)
  | .run x pri _ => c.net.enabled (.run x pri)

instance (c : TxnCore) (a : TxnAction) :
    Decidable (TxnSystem.Within (· ∈ c.net.engines) c.app a) :=
  match a with
  | .create _ home _ _ => inferInstanceAs (Decidable (home ∈ c.net.engines))
  | .deliver _ src => inferInstanceAs (Decidable (src ∈ c.net.engines))
  | .npTriggered src .. => inferInstanceAs (Decidable (src ∈ c.net.engines))
  | .handle .. | .epCb .. | .jobTriggered _ => inferInstanceAs (Decidable True)

instance (c : TxnCore) (a : CoreAction) : Decidable (c.enabled bioCnt a) :=
  match a with
  | .outside _ => inferInstanceAs (Decidable (_ ∧ _ ∧ _))
  | .deliver x pri => inferInstanceAs (Decidable (c.net.enabled (.deliver x pri)))
  | .copy x idx => inferInstanceAs (Decidable (c.net.enabled (.copy x idx)))
  | .run x pri _ => inferInstanceAs (Decidable (c.net.enabled (.run x pri)))

/-- The runs of a core with `bioCnt` bios and at least one worker. -/
def machine : Machine TxnCore CoreAction TxnCoreFault where
  init c := TxnSystem.Init c.app ∧
    (∃ threads, 0 < threads ∧ SchedNet.setupEngines threads bioCnt = .ok c.net) ∧ c.mail = []
  enabled := enabled bioCnt
  exec := exec bioCnt

instance (c : TxnCore) (a : CoreAction) : Decidable ((machine bioCnt).enabled c a) :=
  inferInstanceAs (Decidable (c.enabled bioCnt a))

/-- No bridge is full. -/
def Roomy (c : TxnCore) (_ : CoreAction) : Prop :=
  ∀ x ∈ c.net.engines, ∀ k ∈ c.net.scheds x, ∀ b ∈ k.bridgeTbl, b.mq.length < schedIoBridgeSz

instance (c : TxnCore) (a : CoreAction) : Decidable (c.Roomy a) :=
  inferInstanceAs (Decidable (∀ x ∈ c.net.engines, ∀ k ∈ c.net.scheds x, ∀ b ∈ k.bridgeTbl, _ < _))

/-! ### The system behind it -/

/-- The messages that were sent and not handled, oldest first. -/
def inFlight (c : TxnCore) : List Event := unread c.net.handledIds c.mail

/-- The transactions and services, with the messages in flight. -/
def abs (c : TxnCore) : TxnSystem := { c.app with net := c.inFlight }

/-- The step of the system that an action is. -/
def view (c : TxnCore) : CoreAction → Option TxnAction
  | .outside a => some a
  | .deliver .. => none
  | .copy .. => none
  | .run x pri code => (c.next x pri).map fun e =>
    .handle (unreadBefore c.net.handledIds c.mail e.data) code

end TxnCore

/-! ### Messages that are in flight already -/

namespace TxnSystem

variable {s s' : TxnSystem} {bioCnt : Nat}

/-- The messages `es` were sent before. -/
def since (es : List Event) (s : TxnSystem) : TxnSystem := { s with net := es ++ s.net }

/-- What is sent while messages are in flight. -/
theorem send_since (es : List Event) (s : TxnSystem) (e : Event) :
    (s.since es).send e = (s.send e).since es := by
  simp [send, since]

/-- A pending call, while messages are in flight. -/
theorem pendingCall_since (es : List Event) (s : TxnSystem) (sched : Sched) (service : Nat)
    (t : TaskRef) (kind : PendingKind) : (s.since es).pendingCall sched service t kind =
      (s.pendingCall sched service t kind).map (since es) := by
  show ((s.task t).map _ : Except _ _) = ((s.task t).map _).map _
  cases s.task t with
  | error fault => rfl
  | ok k => cases kind <;> rfl

/-- Two maps commute with a computation between them. -/
theorem map_bind_map {ε α β : Type} {f : α → α} {g : β → β} {h : α → Except ε β}
    (hh : ∀ a, h (f a) = (h a).map g) (x : Except ε α) : x.map f >>= h = (x >>= h).map g := by
  cases x with
  | error fault => rfl
  | ok a => exact hh a

/-- Pending calls, while messages are in flight. -/
theorem pendingCalls_since (es : List Event) (s : TxnSystem) (sched : Sched) (service : Nat)
    (t : TaskRef) (kinds : List PendingKind) :
    (s.since es).pendingCalls sched service t kinds =
      (s.pendingCalls sched service t kinds).map (since es) := by
  induction kinds generalizing s with
  | nil => rfl
  | cons kind kinds ih =>
    rw [pendingCalls, pendingCalls, pendingCall_since]
    exact map_bind_map (fun s => ih s) _

/-- An api that completes. -/
theorem apiComplete_since (es : List Event) (s : TxnSystem) (sched : Sched) (service : Nat)
    (t : TaskRef) : (s.since es).apiComplete sched service t =
      (s.apiComplete sched service t).map (since es) := by
  unfold apiComplete
  cases hslot : s.txns[t.txn]? with
  | none => simp [since, hslot, Except.map]
  | some slot =>
    have htask : (s.since es).task t = s.task t := rfl
    have hslot' : (s.since es).txns[t.txn]? = some slot := hslot
    simp only [hslot', htask]
    cases s.task t with
    | error fault => rfl
    | ok k =>
      simp only [Except.map]
      split
      · rfl
      · rw [send_since]

/-- The callbacks of an answer. -/
theorem pendingCb_since (es : List Event) (s : TxnSystem) (sched : Sched) (service : Nat)
    (t : TaskRef) (calls : List PendingKind) : (s.since es).pendingCb sched service t calls =
      (s.pendingCb sched service t calls).map (since es) := by
  rw [pendingCb, pendingCb, pendingCalls_since]
  refine map_bind_map (fun s => ?_) _
  have htask : (s.since es).task t = s.task t := rfl
  rw [htask]
  cases s.task t with
  | error fault => rfl
  | ok k =>
    exact apiComplete_since es (s.setTask t { k with pendings := k.pendings - 1 }) sched service t

/-- The body of an api. -/
theorem svcTaskRun_since (es : List Event) (s : TxnSystem) (e : Event) (service api : Nat)
    (caller : Sched) (t : TaskRef) (code : UserCode) :
    (s.since es).svcTaskRun e service api caller t code =
      (s.svcTaskRun e service api caller t code).map (since es) := by
  unfold svcTaskRun
  cases hsvc : s.services[service]? with
  | none => simp [since, hsvc, Except.map]
  | some svc =>
    have hsvc' : (s.since es).services[service]? = some svc := hsvc
    simp only [hsvc']
    split
    · rfl
    · rw [pendingCalls_since]
      refine map_bind_map (fun s => ?_) _
      have htask : (s.since es).task t = s.task t := rfl
      rw [htask]
      cases s.task t with
      | error fault => rfl
      | ok k => simp [send_since, bind, Except.bind, Except.map]

/-- The body of a job. -/
theorem svcTimerRun_since (es : List Event) (s : TxnSystem) (e : Event) (service : Nat)
    (ud : JobData) (valid : Bool) (status : JobRet) (interval : Nat) (code : UserCode) :
    (s.since es).svcTimerRun e service ud valid status interval code =
      (s.svcTimerRun e service ud valid status interval code).map (since es) := by
  unfold svcTimerRun
  split
  · rfl
  · cases ud.task with
    | none => simp [send_since, bind, Except.bind, Except.map]
    | some t =>
      simp only [pendingCb_since]
      refine map_bind_map (fun s => ?_) _
      simp [send_since, Except.map]

/-- A handler for a transaction. -/
theorem onTxn_since (es : List Event) (s : TxnSystem) (e : Event)
    (f : TxnEnv → TxnRun → Except TxnFault TxnRun) :
    (s.since es).onTxn bioCnt e f = (s.onTxn bioCnt e f).map (since es) := by
  unfold onTxn
  cases e.owner with
  | inr entity => rfl
  | inl x =>
    cases hslot : s.txns[x]? with
    | none => simp [since, hslot, Except.map]
    | some slot =>
      have hslot' : (s.since es).txns[x]? = some slot := hslot
      simp only [hslot, hslot']
      split
      · rfl
      · have hservices : (s.since es).services = s.services := rfl
        rw [hservices]
        cases f ⟨bioCnt, s.services, e.dst, slot.home, x⟩ ⟨slot.txn, [], [], false⟩ with
        | error fault => rfl
        | ok r => simp [Except.map, commit, since]

/-- A handler for a service. -/
theorem onService_since {β : Type} (es : List Event) (s : TxnSystem) (k : Nat)
    (f : Service → Except SrvFault β) {after : TxnSystem → β → TxnSystem}
    (hafter : ∀ s r, after (s.since es) r = (after s r).since es) :
    (s.since es).onService k f after = (s.onService k f after).map (since es) := by
  unfold onService
  cases hsvc : s.services[k]? with
  | none => simp [since, hsvc, Except.map]
  | some svc =>
    have hsvc' : (s.since es).services[k]? = some svc := hsvc
    simp only [hsvc']
    cases f svc with
    | error fault => rfl
    | ok r => simp [Except.map, hafter]

/-- What a service schedules. -/
theorem afterRound_since (es : List Event) (k : Nat) (s : TxnSystem)
    (r : List Scheduled × Service) : afterRound k (s.since es) r = (afterRound k s r).since es := by
  simp [afterRound, since]

/-- What it does with an offer. -/
theorem afterOffer_since (es : List Event) (k : Nat) (s : TxnSystem)
    (r : (SrvTask × (Event ⊕ List Scheduled)) × Service) :
    afterOffer k (s.since es) r = (afterOffer k s r).since es := by
  obtain ⟨⟨q, busy | xs⟩, svc⟩ := r
  · exact send_since es { s with services := s.services.set k svc } busy
  · exact afterRound_since es k s (xs, svc)

/-- **A handler** does not look at the messages in flight. -/
theorem handle_since (es : List Event) (s : TxnSystem) (e : Event) (code : UserCode) :
    (s.since es).handle bioCnt e code = (s.handle bioCnt e code).map (since es) := by
  unfold TxnSystem.handle
  cases e.pto with
  | workflowRun => exact onTxn_since es s e _
  | svcTaskCb t service api status done => exact onTxn_since es s e _
  | svcTaskRun service api io caller t => exact svcTaskRun_since es s e service api caller t code
  | svcTimerRun service ud valid status interval =>
    exact svcTimerRun_since es s e service ud valid status interval code
  | svcIocall service api bidx t =>
    cases e.owner with
    | inr entity => rfl
    | inl x => exact onService_since es s service _ (afterOffer_since es service)
  | timerEmit service ud valid bidx type interval =>
    cases e.owner with
    | inl x => rfl
    | inr entity => exact onService_since es s service _ (afterOffer_since es service)
  | svcTaskDone service resumeWf done =>
    simp only
    split
    · rw [send_since]
      exact onService_since es _ service _ (afterRound_since es service)
    · exact onService_since es s service _ (afterRound_since es service)
  | svcTimerDone service status interval =>
    exact onService_since es s service _ (afterRound_since es service)

/-- Nor does what comes from outside. -/
theorem exec_since (es : List Event) (s : TxnSystem) {a : TxnAction} (ha : a.isHandle = false) :
    (s.since es).exec bioCnt a = (s.exec bioCnt a).map (since es) := by
  cases a with
  | create workflow home now immediate => rfl
  -- only the transaction of the message is looked at
  | deliver x src =>
    unfold exec
    cases hslot : s.txns[x]? with
    | none => simp [since, hslot, Except.map]
    | some slot => simp [since, hslot, Except.map, send]
  | handle i code => exact absurd ha (by simp [TxnAction.isHandle])
  -- and only the call that comes back
  | epCb i calls =>
    unfold exec
    cases hc : s.calls[i]? with
    | none => simp [since, hc, Except.map]
    | some c =>
      have hc' : (s.since es).calls[i]? = some c := hc
      simp only [hc, hc']
      exact pendingCb_since es { s with calls := s.calls.eraseIdx i } c.sched c.service c.task calls
  | jobTriggered i =>
    unfold exec
    cases hc : s.calls[i]? with
    | none => simp [since, hc, Except.map]
    | some c =>
      have hc' : (s.since es).calls[i]? = some c := hc
      simp only [hc, hc']
      cases c.job with
      | none => rfl
      | some ud => simp [since, Except.map, send]
  | npTriggered src service entity id rw bidx interval => simp [exec, send_since, Except.map]

end TxnSystem

namespace TxnCore

variable {c c' : TxnCore} {s : TxnSystem} {bioCnt : Nat}

/-! ### The schedulers of a core -/

/-- The message number `i`, as it is sent. -/
def stamp (i : Nat) (e : Event) : SkEvent :=
  { src := e.src, dst := some e.dst, ptoId := e.pto.id, hop := 0, data := i }

/-- The schedulers are known, and the mail has the arguments of the messages that were sent. -/
structure Posted (bioCnt : Nat) (c : TxnCore) : Prop where
  known : c.net.Known
  bios : c.net.bioCnt = bioCnt
  sent : c.net.sent = c.mail.mapIdx stamp

/-- Every message that was sent was written down. -/
theorem Posted.length (h : c.Posted bioCnt) : c.net.sent.length = c.mail.length := by
  rw [h.sent, List.length_mapIdx]

/-- The master and the bios are engines. -/
theorem Posted.central (h : c.Posted bioCnt) :
    TxnSystem.Central bioCnt (· ∈ c.net.engines) where
  master := .head _
  bio i hpos hle := by
    refine .tail _ (List.mem_append_right _ (List.mem_map.mpr ⟨i - 1, ?_, ?_⟩))
    · rw [h.bios, List.mem_range]
      omega
    · rw [Nat.sub_add_cancel hpos]

/-- What is handled was sent. -/
theorem Posted.handled_lt (h : c.Posted bioCnt) : ∀ i ∈ c.net.handledIds, i < c.mail.length := by
  intro i hi
  have honce := SchedNet.line_places c.net ▸ h.known.once
  rw [← h.length]
  exact List.mem_range.mp (honce.mem_iff.mp (List.mem_append_left _ hi))

/-- **Messages are posted.** -/
theorem Posted.post (h : c.Posted bioCnt) {es : List Event}
    (hes : ∀ e ∈ es, e.src ∈ c.net.engines ∧ e.dst ∈ c.net.engines) :
    ∃ c', c.post es = .ok c' ∧ c'.Posted bioCnt ∧ c'.app = c.app ∧ c'.mail = c.mail ++ es ∧
      c'.net.handled = c.net.handled ∧ c'.net.engines = c.net.engines := by
  induction es generalizing c with
  | nil => exact ⟨c, rfl, h, rfl, (List.append_nil _).symm, rfl, rfl⟩
  | cons e es ih =>
    -- the schedulers of the message are engines, so it can be sent
    obtain ⟨hsrc, hdst⟩ := hes e (.head _)
    have hsendable : c.net.enabled (.send e.src (some e.dst) e.pto.id) :=
      ⟨hsrc, fun d hd => Option.some.inj hd ▸ hdst⟩
    obtain ⟨net, hsend, hsame, heffect⟩ := SchedNet.send_effect h.known.star hsendable
    cases heffect with
    | send _ hdst' hqueue hsent hhandled =>
      have hposted : ({ c with net, mail := c.mail ++ [e] } : TxnCore).Posted bioCnt := by
        refine ⟨SchedNet.known_sent h.known hsame hsrc hdst' hqueue hsent hhandled,
          hsame.bioCnt.trans h.bios, ?_⟩
        -- its number is that of its place in the list of messages
        rw [hsent, h.sent, List.mapIdx_concat, List.length_mapIdx]
        rfl
      have hengines : net.engines = c.net.engines := hsame.engines
      -- the rest is sent after it
      obtain ⟨c', hpost, hc', happ, hmail, hhandled', hengines'⟩ := ih hposted fun b hb => by
        rw [hengines]
        exact hes b (.tail _ hb)
      refine ⟨c', ?_, hc', happ, ?_, hhandled'.trans hhandled, hengines'.trans hengines⟩
      · have hsend' : c.net.schedSend e.src (some e.dst) e.pto.id = .ok net := hsend
        rw [TxnCore.post, hsend']
        exact hpost
      · rw [hmail, List.append_assoc]
        rfl

/-! ### The simulation -/

/-- `s` is the system behind the core. -/
structure Behind (bioCnt : Nat) (c : TxnCore) (s : TxnSystem) : Prop where
  posted : c.Posted bioCnt
  outbox : c.app.net = []
  system : s = c.abs
  placed : s.Placed (· ∈ c.net.engines)

/-- The system behind is the one in the core, with what is in flight. -/
theorem Behind.since (h : c.Behind bioCnt s) : s = c.app.since c.inFlight := by
  rw [h.system, abs, TxnSystem.since, h.outbox, List.append_nil]

/-- **Code has run**: what it sent is in flight. -/
theorem Posted.flush (h : c.Posted bioCnt) {app : TxnSystem}
    (hplaced : (app.since c.inFlight).Placed (· ∈ c.net.engines)) :
    ∃ c', c.flush (.ok app) = .ok c' ∧ c'.Behind bioCnt (app.since c.inFlight) := by
  have hposted : ({ c with app := { app with net := [] } } : TxnCore).Posted bioCnt :=
    ⟨h.known, h.bios, h.sent⟩
  have hengine : ∀ e ∈ app.net, e.src ∈ c.net.engines ∧ e.dst ∈ c.net.engines := by
    intro e he
    obtain ⟨hsrc, hdst, -⟩ := hplaced.net e (List.mem_append_right _ he)
    exact ⟨hsrc, hdst⟩
  obtain ⟨c', hpost, hc', happ, hmail, hhandled, hengines⟩ := hposted.post hengine
  have hids : c'.net.handledIds = c.net.handledIds := by
    rw [SchedNet.handledIds, hhandled, SchedNet.handledIds]
  have hflight : c'.inFlight = c.inFlight ++ app.net := by
    rw [inFlight, hids, hmail, unread_append h.handled_lt, inFlight]
  refine ⟨c', hpost, hc', by rw [happ], ?_, by rwa [hengines]⟩
  rw [abs, hflight, happ, TxnSystem.since]

/-- A turn that delivers or copies does not change the system. -/
theorem Behind.turn (h : c.Behind bioCnt s) {t : SchedAction} (henabled : c.net.enabled t)
    (hroomy : c.net.Roomy t) (hturn : t.isTurn) (hrun : ∀ x pri, t ≠ .run x pri) :
    ∃ net, c.net.exec t = .ok net ∧ Behind bioCnt { c with net } s := by
  obtain ⟨net, hexec, hsame, heffect⟩ := SchedNet.exec_effect h.posted.known.star
    h.posted.known.fits hroomy henabled
  obtain ⟨net', hexec', hknown, -⟩ := h.posted.known.step hroomy henabled
  obtain rfl : net = net' := Except.ok.inj (hexec.symm.trans hexec')
  have hkept : net.handled = c.net.handled ∧ net.sent = c.net.sent := by
    cases heffect with
    | send => exact absurd hturn (by simp [SchedAction.isTurn])
    | deliver _ _ _ hop hhandled => exact ⟨hhandled, hop.sent⟩
    | copy _ _ hop hhandled => exact ⟨hhandled, hop.sent⟩
    | run => exact absurd rfl (hrun _ _)
  refine ⟨net, hexec, ⟨hknown, hsame.bioCnt.trans h.posted.bios, hkept.2.trans h.posted.sent⟩,
    h.outbox, ?_, ?_⟩
  · rw [h.system, abs, abs, inFlight, inFlight, SchedNet.handledIds, SchedNet.handledIds, hkept.1]
  · show s.Placed (· ∈ net.engines)
    rw [hsame.engines]
    exact h.placed

/-- **A message that is handled** is the first one in flight with its key. -/
theorem Behind.run (h : c.Behind bioCnt s) {x : Sched} {pri : Nat}
    (henabled : c.net.enabled (.run x pri)) (hroomy : c.net.Roomy (.run x pri)) :
    ∃ net e m, c.net.runTurn x pri = .ok net ∧ c.next x pri = some e ∧
      c.mail[e.data]? = some m ∧ e.data ∉ c.net.handledIds ∧
      net.handledIds = c.net.handledIds ++ [e.data] ∧ net.engines = c.net.engines ∧
      Posted bioCnt { c with net } ∧
      ∀ j < e.data, j ∉ c.net.handledIds → ∀ b, c.mail[j]? = some b → b.key ≠ m.key := by
  obtain ⟨net, hexec, hsame, heffect⟩ := SchedNet.exec_effect h.posted.known.star
    h.posted.known.fits hroomy henabled
  obtain ⟨net', hexec', hknown, -⟩ := h.posted.known.step hroomy henabled
  obtain rfl : net = net' := Except.ok.inj (hexec.symm.trans hexec')
  cases heffect with
  | @run _ _ e _ hx hop hhandled =>
    obtain ⟨rest, hhead⟩ := hop.head
    have hmem : e ∈ c.net.queue (.io x pri .input) := by
      rw [hhead]
      exact .head _
    obtain ⟨-, hdst, -⟩ := h.posted.known.fits _ e hmem
    -- what was sent under its number
    obtain ⟨m', hm', hsrc, hptoId, hdst'⟩ := h.posted.known.origin _ e hmem
    rw [h.posted.sent, List.getElem?_mapIdx] at hm'
    obtain ⟨m, hm, rfl⟩ := Option.map_eq_some_iff.mp hm'
    have hdst'' : m.dst = x := by
      rcases hdst' with heq | hnone
      · exact Option.some.inj (heq.trans hdst)
      · exact absurd hnone (by simp [stamp])
    have hids : net.handledIds = c.net.handledIds ++ [e.data] := by
      rw [SchedNet.handledIds, hhandled, List.map_append, SchedNet.handledIds]
      rfl
    have hnodup : (c.net.handledIds ++ [e.data]).Nodup := by
      have honce := SchedNet.line_places net ▸ hknown.once
      rw [← hids]
      exact (honce.nodup_iff.mpr List.nodup_range).sublist (List.sublist_append_left _ _)
    have hnot : e.data ∉ c.net.handledIds := fun hin =>
      (List.nodup_append.mp hnodup).2.2 _ hin _ (.head _) rfl
    have hsent : net.sent = c.mail.mapIdx stamp := hop.sent.trans h.posted.sent
    refine ⟨net, e, m, hexec, ?_, hm, hnot, hids, hsame.engines,
      ⟨hknown, hsame.bioCnt.trans h.posted.bios, hsent⟩, fun j hlt hj b hb hkey => hj ?_⟩
    · unfold SchedNet.queue at hhead
      unfold next
      cases hk : c.net.scheds x with
      | none => simp [hk] at hhead
      | some k => simpa [hk] using congrArg List.head? hhead
    · -- an earlier message with the key was handled before
      simp only [Event.key, Prod.mk.injEq] at hkey
      have hon : net.HandledOn e.data x := ⟨e, by rw [hhandled]; simp, rfl⟩
      have horder := hknown.order hlt (m := stamp j b) (n := stamp e.data m)
        (by rw [hsent, List.getElem?_mapIdx, hb]; rfl)
        (by rw [hsent, List.getElem?_mapIdx, hm]; rfl) hkey.1 (by simp [stamp, hkey.2.2]) hon
        (.inl (by rw [stamp, hkey.2.1, hdst'']))
      have hin : j ∈ net.handledIds := horder.subset (.head _)
      rw [hids] at hin
      rcases List.mem_append.mp hin with hin | hin
      · exact hin
      · exact absurd (List.mem_singleton.mp hin) (Nat.ne_of_lt hlt)

/-- An action from outside is possible behind the core. -/
theorem enabled_since {a : TxnAction} (ha : a.isHandle = false) (es : List Event)
    (s : TxnSystem) : (s.since es).enabled bioCnt a ↔ s.enabled bioCnt a := by
  cases a with
  | handle i code => exact absurd ha (by simp [TxnAction.isHandle])
  | create | deliver | epCb | jobTriggered | npTriggered => rfl

/-- What code from outside or in a handler does, in the core and in the system behind it. -/
theorem Posted.ran (h : c.Posted bioCnt) {r : Except TxnFault TxnSystem}
    (hplaced : ∀ app, r = .ok app → (app.since c.inFlight).Placed (· ∈ c.net.engines)) :
    (∃ fault, c.flush r = .error (.txn fault) ∧
        r.map (TxnSystem.since c.inFlight) = .error fault) ∨
      ∃ c' s', c.flush r = .ok c' ∧ r.map (TxnSystem.since c.inFlight) = .ok s' ∧
        c'.Behind bioCnt s' := by
  cases r with
  | error fault => exact .inl ⟨fault, rfl, rfl⟩
  | ok app =>
    obtain ⟨c', hflush, hbehind⟩ := h.flush (hplaced app rfl)
    exact .inr ⟨c', _, hflush, rfl, hbehind⟩

/-- **Every step** of a core is the step of the system that `view` names, with the same fault if
    there is one, or changes nothing of it. -/
theorem Behind.step (h : c.Behind bioCnt s) {a : CoreAction} (henabled : c.enabled bioCnt a)
    (hroomy : c.Roomy a) :
    (view c a = none ∧ ∃ c', c.exec bioCnt a = .ok c' ∧ c'.Behind bioCnt s) ∨
      ∃ b, view c a = some b ∧ s.enabled bioCnt b ∧
        ((∃ fault, c.exec bioCnt a = .error (.txn fault) ∧ s.exec bioCnt b = .error fault) ∨
          ∃ c' s', c.exec bioCnt a = .ok c' ∧ s.exec bioCnt b = .ok s' ∧ c'.Behind bioCnt s') := by
  have hE := h.posted.central
  cases a with
  -- a turn of the queues alone is no step of the system
  | deliver x pri =>
    obtain ⟨net, hexec, hbehind⟩ := h.turn (t := .deliver x pri) henabled hroomy rfl (by simp)
    have hturn : c.net.deliverTurn x pri = .ok net := hexec
    exact .inl ⟨rfl, _, by simp only [exec, turned, hturn], hbehind⟩
  | copy x idx =>
    obtain ⟨net, hexec, hbehind⟩ := h.turn (t := .copy x idx) henabled hroomy rfl (by simp)
    have hturn : c.net.copyTurn x idx = .ok net := hexec
    exact .inl ⟨rfl, _, by simp only [exec, turned, hturn], hbehind⟩
  -- what comes from outside does not look at the messages in flight
  | outside a =>
    obtain ⟨ha, hen, hwithin⟩ := henabled
    have hs := h.since
    have hexec : s.exec bioCnt a = (c.app.exec bioCnt a).map (TxnSystem.since c.inFlight) := by
      rw [hs, TxnSystem.exec_since c.inFlight c.app ha]
    have hen' : s.enabled bioCnt a := by
      rw [hs]
      exact (enabled_since ha _ _).mpr hen
    have hwithin' : TxnSystem.Within (· ∈ c.net.engines) s a := by
      cases a <;> exact hwithin
    refine .inr ⟨a, rfl, hen', ?_⟩
    rw [hexec]
    refine h.posted.ran fun app happ => ?_
    exact TxnSystem.exec_placed hE h.placed hen' hwithin' (by rw [hexec, happ]; rfl)
  -- the turn takes a message from its queue, and the system handles the same one
  | run x pri code =>
    obtain ⟨net, e, m, hturn, hnext, hm, hnot, hids, hengines, hposted, hfirst⟩ :=
      Behind.run h henabled hroomy
    obtain ⟨hi, herase, hbefore⟩ := unread_read hm hnot
    set i := unreadBefore c.net.handledIds c.mail e.data with hidef
    have hnet : s.net = unread c.net.handledIds c.mail := by rw [h.system]; rfl
    have hflight : inFlight { c with net } = (unread c.net.handledIds c.mail).eraseIdx i := by
      rw [inFlight, hids, herase]
    -- without it both have the same messages in flight
    have hs : ({ s with net := s.net.eraseIdx i } : TxnSystem) =
        c.app.since (inFlight { c with net }) := by
      rw [hflight, hnet, h.system, TxnSystem.since, h.outbox, List.append_nil]
      rfl
    have hget : s.net[i]? = some m := hnet ▸ hi
    have hexec : s.exec bioCnt (.handle i code) =
        (c.app.handle bioCnt m code).map (TxnSystem.since (inFlight { c with net })) := by
      simp only [TxnSystem.exec, hget]
      rw [hs, TxnSystem.handle_since]
    have hcore : c.exec bioCnt (.run x pri code) =
        flush { c with net } (c.app.handle bioCnt m code) := by
      simp only [exec, turned, hturn, hnext, Option.bind_some, hm]
    -- it is the first of its pair of schedulers in the system as well
    refine .inr ⟨.handle i code, by simp [view, hnext, hidef], ⟨m, hget, fun b hb => ?_⟩, ?_⟩
    · obtain ⟨j, hlt, hj, hb⟩ := hbefore b (hnet ▸ hb)
      exact hfirst j hlt hj b hb
    · -- its handler does the same to both
      rw [hexec, hcore]
      refine hposted.ran fun app happ => ?_
      have hhandle : ({ s with net := s.net.eraseIdx i } : TxnSystem).handle bioCnt m code =
          .ok (app.since (inFlight { c with net })) := by
        rw [hs, TxnSystem.handle_since, happ]
        rfl
      show TxnSystem.Placed (· ∈ net.engines) _
      rw [hengines]
      exact h.placed.handle hE hget hhandle

/-- **A core simulates** transactions and services with a queue between them. -/
theorem simulation : Machine.Simulation (machine bioCnt) Roomy (TxnSystem.machine bioCnt)
    Machine.anyStep view (Behind bioCnt) where
  init c hinit := by
    obtain ⟨happ, ⟨threads, hthreads, hnet⟩, hmail⟩ := hinit
    obtain ⟨-, -, hbios, hsent, hhandled, -⟩ := SchedNet.setupEngines_star hthreads hnet
    -- nothing is in flight at the start
    have habs : c.abs = c.app := by
      have hflight : c.inFlight = c.app.net := by
        rw [inFlight, hmail, happ.2.2.1]
        rfl
      rw [abs, hflight]
    refine ⟨c.abs, habs ▸ happ, ⟨SchedNet.known_init ⟨threads, bioCnt, hthreads, hnet⟩, hbios,
      by rw [hsent, hmail]; rfl⟩, happ.2.2.1, rfl, ?_⟩
    rw [habs]
    exact TxnSystem.init_placed happ
  stutter c a c' s h henabled hroomy hexec hview := by
    -- a turn of the queues alone leaves the system as it is
    rcases h.step henabled hroomy with ⟨-, c'', hexec', hbehind⟩ | ⟨b, hview', -⟩
    · obtain rfl : c' = c'' := Except.ok.inj (hexec.symm.trans hexec')
      exact hbehind
    · exact absurd (hview.symm.trans hview') (by simp)
  step c a c' s b h henabled hroomy hexec hview := by
    -- every other turn is a step of the system
    rcases h.step henabled hroomy with ⟨hview', -⟩ | ⟨b', hview', hen, hrun⟩
    · exact absurd (hview.symm.trans hview') (by simp)
    · obtain rfl : b = b' := Option.some.inj (hview.symm.trans hview')
      rcases hrun with ⟨fault, hfault, -⟩ | ⟨c'', s', hexec', hsexec, hbehind⟩
      · exact absurd (hexec.symm.trans hfault) (by simp)
      · obtain rfl : c' = c'' := Except.ok.inj (hexec.symm.trans hexec')
        exact ⟨s', hen, trivial, hsexec, hbehind⟩

/-- **Deployment.** Every run of a core in which no bridge is full is a run of the transactions and
    services with a queue between them: the actions from outside and the messages that are handled,
    in that order, each the first one in flight of its source, destination and priority.  So every
    state is one that the system behind it reaches.  A further step faults only where the code of
    the system does. -/
theorem deployed_run {run : List (CoreAction × TxnCore)} (hinit : (machine bioCnt).init c)
    (hrun : (machine bioCnt).Path c run) (hroomy : Machine.StepsMeet Roomy c run) :
    (∃ q, (TxnSystem.machine bioCnt).Path c.abs q ∧
        q.map Prod.fst = Machine.views view c run ∧
        Machine.last c.abs q = (Machine.last c run).abs) ∧
      (∀ p ∈ run, (TxnSystem.machine bioCnt).Reach Machine.anyStep p.2.abs) ∧
      ∀ a fault, (machine bioCnt).enabled (Machine.last c run) a → (Machine.last c run).Roomy a →
        (machine bioCnt).exec (Machine.last c run) a = .error fault →
          ∃ b f, view (Machine.last c run) a = some b ∧ fault = .txn f ∧
            (TxnSystem.machine bioCnt).enabled (Machine.last c run).abs b ∧
            (TxnSystem.machine bioCnt).exec (Machine.last c run).abs b = .error f := by
  have hreach := hrun.reach (.init hinit) hroomy
  obtain ⟨s, -, hs⟩ := simulation.init c hinit
  obtain rfl := hs.system
  refine ⟨?_, fun p hp => ?_, fun a fault henabled hroom hexec => ?_⟩
  · obtain ⟨q, hq, -, hviews, hlast⟩ := simulation.path hs hrun hroomy
    exact ⟨q, hq, hviews, hlast.system⟩
  · obtain ⟨s, hs, hbehind⟩ := simulation.reach (hreach p hp)
    exact hbehind.system ▸ hs
  · obtain ⟨s, -, hbehind⟩ := simulation.reach (hrun.last_reach (.init hinit) hroomy)
    obtain rfl := hbehind.system
    rcases hbehind.step henabled hroom with ⟨-, c', hexec', -⟩ | ⟨b, hview, hen, hstep⟩
    · exact absurd (hexec.symm.trans hexec') (by simp)
    · rcases hstep with ⟨f, hfault, hsfault⟩ | ⟨c', -, hexec', -⟩
      · exact ⟨b, f, hview, Except.error.inj (hexec.symm.trans hfault), hen, hsfault⟩
      · exact absurd (hexec.symm.trans hexec') (by simp)

/-! A core with one worker and one service: the module of a transaction makes a service call, which
goes to the master and comes back to the worker. -/

/-- The core, and what happens in it. -/
def fresh : TxnCore := { app := TxnSystem.fresh, net := SchedNet.core 1 0, mail := [] }

def oneCall : List CoreAction :=
  [.outside (.create ⟨1, true, 0⟩ (.worker 0) 0 false), .outside (.deliver 0 (.worker 0)),
    .run (.worker 0) 5 { TxnSystem.quiet with run := ⟨[⟨0, 0, true, 0⟩], false⟩ },
    .deliver (.worker 0) 6, .copy (.worker 0) 0, .run .master 6 TxnSystem.quiet,
    .deliver .master 4, .copy .master 0, .run (.worker 0) 4 TxnSystem.quiet,
    .run (.worker 0) 6 TxnSystem.quiet, .deliver (.worker 0) 6, .copy (.worker 0) 0,
    .run .master 6 TxnSystem.quiet, .deliver .master 5, .copy .master 0,
    .run (.worker 0) 5 TxnSystem.quiet]

theorem fresh_init : (machine 0).init fresh := by
  obtain ⟨threads, bioCnt, hthreads, hnet⟩ : SchedNet.machine.init (SchedNet.core 1 0) :=
    SchedNet.core_init (by decide) (by decide +kernel)
  have hstar := SchedNet.setupEngines_star hthreads hnet
  refine ⟨TxnSystem.fresh_init, ⟨threads, hthreads, ?_⟩, rfl⟩
  have hbios : (SchedNet.core 1 0).bioCnt = 0 := by decide +kernel
  obtain rfl : bioCnt = 0 := hstar.2.2.1.symm.trans hbios
  exact hnet

/-- One call goes through the schedulers. -/
theorem oneCall_deployed : ∃ q, (TxnSystem.machine 0).Path fresh.abs q ∧
    q.map Prod.fst = Machine.views view fresh ((machine 0).trace fresh oneCall) ∧
    Machine.last fresh.abs q = (Machine.last fresh ((machine 0).trace fresh oneCall)).abs :=
  (deployed_run fresh_init (Machine.trace_path oneCall _) (by decide +kernel)).1

end TxnCore

end Skull
