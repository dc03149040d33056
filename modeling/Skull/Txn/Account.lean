import Skull.Txn.Progress
import Skull.Service.Conserve

namespace Skull

open Machines

/-!
# The account of every service call

What holds between the task tables, the messages and the pending calls of the system, in every
state that a run reaches:

* `TxnSystem.Accounts` — a task is at one point of its way, and the system shows just that;
* `TxnSystem.Inv` — every task is accounted for, every transaction is sound, and no notice is
  behind the answer it announces.
-/

/-- The task whose notice the message is. -/
def Event.noticeOf (e : Event) : Option TaskRef :=
  match e.pto with
  | .svcTaskCb t _ _ .pending _ => some t
  | _ => none

/-- The task whose answer the message is. -/
def Event.answerOf (e : Event) : Option TaskRef :=
  match e.pto with
  | .svcTaskCb t _ _ .done _ => some t
  | _ => none

/-- The scheduler of the transaction that the message resumes, or may make the master resume. -/
def Event.side (e : Event) : Option Sched :=
  match e.pto with
  | .workflowRun => some e.dst
  | .svcTaskDone .. => some e.src
  | _ => none

/-- `a` may be in flight before `b`: it is not the answer that `b` gives notice of. -/
def Event.Before (a b : Event) : Prop := ∀ t, a.answerOf = some t → b.noticeOf ≠ some t

/-- The service that is busy as long as the message is not handled. -/
def Event.occupies (e : Event) : Option Nat :=
  match e.pto with
  | .svcTaskRun service .. => some service
  | .svcTaskCb _ service _ _ true => some service
  | .svcTaskDone service _ true => some service
  | .svcTimerRun service _ _ .ok _ => some service
  | .svcTimerDone service .ok _ => some service
  | _ => none

/-- The service that a message is about, and the api it calls. -/
def Event.names (e : Event) : Option (Nat × Option Nat) :=
  match e.pto with
  | .svcIocall service api _ _ => some (service, some api)
  | .svcTaskRun service api _ _ _ => some (service, some api)
  | .svcTaskCb _ service _ _ _ => some (service, none)
  | .svcTaskDone service _ _ => some (service, none)
  | .timerEmit service .. => some (service, none)
  | .svcTimerRun service .. => some (service, none)
  | .svcTimerDone service .. => some (service, none)
  | .workflowRun => none

/-- There are such a service and such an api. -/
def Knows (services : List Service) (n : Nat × Option Nat) : Prop :=
  ∃ svc, services[n.1]? = some svc ∧ ∀ api ∈ n.2, (svc.api api).isSome

/-- A message names an api that the service knows. -/
theorem Event.knows {services : List Service} {e : Event} {n : Nat × Option Nat}
    (hnames : e.names = some n) (hn : Knows services n) : ∀ n' ∈ e.names, Knows services n' := by
  intro n' hn'
  rw [Option.mem_def, hnames] at hn'
  exact Option.some.inj hn' ▸ hn

/-- A message that asks for a task names a bio that exists, and one that runs it comes from the
    master. -/
def Event.Valid (bioCnt : Nat) (e : Event) : Prop :=
  match e.pto with
  | .svcTaskRun .. => e.src = .master
  | .svcIocall _ _ bidx _ => Service.validateBidx bioCnt bidx = true
  | .timerEmit _ _ _ bidx _ _ => Service.validateBidx bioCnt bidx = true
  | _ => True

/-- A message that is no notice comes before any. -/
theorem Event.before_of_notice {b : Event} (h : b.noticeOf = none) (a : Event) : a.Before b := by
  intro t _
  rw [h]
  simp

/-- The counters of a transaction agree with its table, and when it is released all its tasks
    are complete. -/
structure TxnSlot.Sound (slot : TxnSlot) : Prop where
  counts : slot.txn.Counts
  released : slot.released = true → slot.txn.alltaskComplete = true

namespace TxnSystem

/-! ### What the system shows -/

/-- The tokens of the queued tasks of a service. -/
def queueTokens (svc : Service) : List (TaskRef × Stage) := svc.queued.filterMap SrvTask.token

/-- Everything in the system that is about a task. -/
def tokens (s : TxnSystem) : List (TaskRef × Stage) :=
  s.net.filterMap Event.token ++ (s.calls.map PendingCall.token ++ s.services.flatMap queueTokens)

/-- The stages the system shows of the task `t`. -/
def stages (s : TxnSystem) (t : TaskRef) : Multiset Stage := stagesOf t s.tokens

/-- The entry of a task in its table. -/
def entry (s : TxnSystem) (t : TaskRef) : Option TxnTask :=
  s.txns[t.txn]?.bind fun (slot : TxnSlot) => slot.txn.taskTbl[t.taskId]?

/-- The scheduler of the entity of a transaction. -/
def home (s : TxnSystem) (x : TxnId) : Sched := (s.txns[x]?.map TxnSlot.home).getD .master

/-- The task `t` is at the point `p` of its way. -/
structure Accounts (s : TxnSystem) (t : TaskRef) (p : Progress) : Prop where
  stages : s.stages t = p.stages (s.home t.txn)
  marks : marksOf t s.log = p.marks t
  entry : p.Matches (s.entry t)

/-- A message about resuming a transaction goes to its scheduler, or comes from there. -/
def Addressed (s : TxnSystem) (e : Event) : Prop :=
  ∀ c, e.side = some c → ∃ x, e.owner = .inl x ∧ x < s.txns.length ∧ c = s.home x

/-- **The invariant.** -/
structure Inv (s : TxnSystem) : Prop where
  accounts : ∀ t, ∃ p, s.Accounts t p
  sound : ∀ (x : TxnId) (slot : TxnSlot), s.txns[x]? = some slot → slot.Sound
  order : s.net.Pairwise Event.Before
  addressed : ∀ e ∈ s.net, s.Addressed e

/-- The system shows the same of `t`. -/
structure Same (t : TaskRef) (s s' : TxnSystem) : Prop where
  stages : s'.stages t = s.stages t
  marks : marksOf t s'.log = marksOf t s.log
  entry : s'.entry t = s.entry t
  home : s'.home t.txn = s.home t.txn

/-- Where nothing changes the accounts are the same. -/
theorem Accounts.same {s s' : TxnSystem} {t : TaskRef} {p : Progress} (h : s.Accounts t p)
    (hs : Same t s s') : s'.Accounts t p :=
  ⟨by rw [hs.stages, hs.home, h.stages], by rw [hs.marks, h.marks], by rw [hs.entry]; exact h.entry⟩

/-! ### Messages, queues and pending calls in the tokens -/

/-- The stages a message shows of `t`. -/
def shows (e : Event) (t : TaskRef) : Multiset Stage := stagesOf t e.token.toList

theorem shows_none {e : Event} (h : e.token = none) (t : TaskRef) : shows e t = 0 := by
  simp [shows, h]

/-- A message with a token shows its stage. -/
theorem shows_some {e : Event} {t u : TaskRef} {a : Stage} (h : e.token = some (u, a)) :
    shows e t = if u = t then {a} else 0 := by
  simp [shows, h, stagesOf_cons]

/-- Taking a message out takes its stage away. -/
theorem stages_take {s : TxnSystem} {i : Nat} {e : Event} (h : s.net[i]? = some e)
    (t : TaskRef) :
    s.stages t = shows e t + ({ s with net := s.net.eraseIdx i } : TxnSystem).stages t := by
  have hperm : (s.net.filterMap Event.token).Perm
      (e.token.toList ++ (s.net.eraseIdx i).filterMap Event.token) := by
    refine ((perm_take h).filterMap _).trans ?_
    cases htok : e.token <;> simp [htok]
  rw [stages, tokens, stagesOf_append, stagesOf_perm hperm, stagesOf_append, add_assoc,
    ← stagesOf_append]
  rfl

/-- Sending messages adds their stages. -/
theorem stages_sent (s : TxnSystem) (es : List Event) (t : TaskRef) :
    ({ s with net := s.net ++ es } : TxnSystem).stages t =
      s.stages t + stagesOf t (es.filterMap Event.token) := by
  simp only [stages, tokens, List.filterMap_append, stagesOf_append]
  abel

/-- A message that is sent is where its task is. -/
theorem stages_send (s : TxnSystem) (e : Event) (t : TaskRef) :
    (s.send e).stages t = s.stages t + shows e t := by
  rw [send, stages_sent, shows]
  cases h : e.token <;> simp [h]

/-- The stages that all but the queue of one service show. -/
theorem stages_service {s : TxnSystem} {k : Nat} {svc : Service} (h : s.services[k]? = some svc)
    (t : TaskRef) : ∃ rest, s.stages t = stagesOf t (queueTokens svc) + rest ∧
      ∀ svc', ({ s with services := s.services.set k svc' } : TxnSystem).stages t =
        stagesOf t (queueTokens svc') + rest := by
  obtain ⟨hk, rfl⟩ := List.getElem?_eq_some_iff.mp h
  have hflat : ∀ svc', ((s.services.set k svc').flatMap queueTokens).Perm
      (queueTokens svc' ++ (s.services.eraseIdx k).flatMap queueTokens) := fun svc' =>
    (List.set_perm_cons_eraseIdx hk svc').flatMap_right _
  refine ⟨stagesOf t (s.net.filterMap Event.token) + (stagesOf t (s.calls.map PendingCall.token) +
    stagesOf t ((s.services.eraseIdx k).flatMap queueTokens)), ?_, fun svc' => ?_⟩
  · have hself := hflat s.services[k]
    rw [List.set_getElem_self] at hself
    simp only [stages, tokens, stagesOf_append, stagesOf_perm hself]
    abel
  · simp only [stages, tokens, stagesOf_append, stagesOf_perm (hflat svc')]
    abel

/-- Taking a pending call out takes its stage away. -/
theorem stages_call {s : TxnSystem} {i : Nat} {c : PendingCall} (h : s.calls[i]? = some c)
    (t : TaskRef) :
    s.stages t = (if c.task = t then {c.token.2} else 0) +
      ({ s with calls := s.calls.eraseIdx i } : TxnSystem).stages t := by
  have hperm := (perm_take h).map PendingCall.token
  simp only [stages, tokens, stagesOf_append, stagesOf_perm hperm, List.map_cons, stagesOf_cons,
    PendingCall.token]
  abel

/-- A new pending call adds its stage. -/
theorem stages_called (s : TxnSystem) (c : PendingCall) (t : TaskRef) :
    ({ s with calls := s.calls ++ [c] } : TxnSystem).stages t =
      s.stages t + if c.task = t then {c.token.2} else 0 := by
  simp only [stages, tokens, List.map_append, stagesOf_append, List.map_cons, List.map_nil,
    stagesOf_cons, stagesOf_nil, PendingCall.token, add_zero]
  abel

end TxnSystem

end Skull
