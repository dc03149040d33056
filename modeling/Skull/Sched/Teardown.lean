import Skull.Sched.Wakeup

namespace Skull

open Machines

/-!
# The data of the messages

A message owns its data, which are freed when its protocol has run, or when the queue that it is in
is destroyed:

* `SchedNet.enginesDestroy` — `_sk_engines_destroy`, as far as it frees messages: the data of all
  that the bridges and the ios hold;
* `SchedThreads.inHandlers` — the messages whose protocol is running;
* `SchedThreads.Accounted` — what was handled was freed once, or is in a handler;
* `SchedNet.enginesDestroy_perm` — destroying the engines frees what waits in the queues;
* `SchedThreads.teardown_run` — **no data leak and none are freed twice**: when all threads have
  stopped, at any point of their work, what they freed and what is destroyed afterwards are all the
  messages that were sent.
-/

/-! ### Destruction -/

/-- `sk_io_bridge_destroy`: the data it frees. -/
def ioBridgeDestroy (b : IoBridge) : List Nat := b.mq.map SkEvent.data

/-- `_cleanup_skio_events`. -/
def SkSched.cleanupSkioEvents (k : SkSched) (pri : Nat) : List Nat :=
  (k.ioTbl pri .input).map SkEvent.data ++ (k.ioTbl pri .output).map SkEvent.data

/-- `sk_sched_destroy`. -/
def SkSched.schedDestroy (k : SkSched) : List Nat :=
  k.bridgeTbl.flatMap ioBridgeDestroy ++ (List.range (ptoPriMax + 1)).flatMap k.cleanupSkioEvents

namespace SchedNet

/-- `sk_engine_destroy`. -/
def engineDestroy (s : SchedNet) (x : Sched) : List Nat := (s.scheds x).elim [] SkSched.schedDestroy

/-- `_sk_engines_destroy`. -/
def enginesDestroy (s : SchedNet) : List Nat :=
  ((List.range s.threads).map Sched.worker).flatMap s.engineDestroy ++
    ((List.range s.bioCnt).map fun i => Sched.bio (i + 1)).flatMap s.engineDestroy ++
    s.engineDestroy .master

variable {s s' : SchedNet} {x : Sched} {k : SkSched}

/-- A table, read entry by entry. -/
theorem flatMap_range_getElem? {α β : Type} (f : α → List β) (l : List α) (n : Nat)
    (h : l.length ≤ n) : ((List.range n).flatMap fun i => l[i]?.elim [] f) = l.flatMap f := by
  induction l generalizing n with
  | nil =>
    rw [List.flatMap_nil, List.flatMap_eq_nil_iff]
    intro i _
    rfl
  | cons a l ih =>
    obtain ⟨m, rfl⟩ : ∃ m, n = m + 1 := ⟨n - 1, by rw [List.length_cons] at h; omega⟩
    rw [List.range_succ_eq_map, List.flatMap_cons, List.flatMap_cons, List.flatMap_map]
    have hrest := ih m (by rw [List.length_cons] at h; omega)
    rw [← hrest]
    rfl

/-- The places of a kind, scheduler by scheduler. -/
theorem line_product (P : Sched → Nat → Place) (n : Nat) :
    Queues.line number s.queue ((s.engines.product (List.range n)).map fun q => P q.1 q.2) =
      s.engines.flatMap fun x => (List.range n).flatMap fun i => (s.queue (P x i)).map SkEvent.data := by
  have hnumber : ∀ (p : Place) (l : List SkEvent), l.filterMap (number p) = l.map SkEvent.data :=
    fun p l => congrFun (List.filterMap_eq_map (f := SkEvent.data)) l
  rw [Queues.line, List.flatMap_map, List.product, List.flatMap_assoc]
  simp only [List.flatMap_map, hnumber]

/-- **Destroying the engines** frees the messages that wait. -/
theorem enginesDestroy_perm (h : s.Star) : s.enginesDestroy.Perm s.waitingIds := by
  -- what an engine frees, queue by queue
  have hengine : ∀ x ∈ s.engines, ((List.range (s.threads + s.bioCnt + 1)).flatMap fun i =>
      (s.queue (.bridge x i)).map SkEvent.data) ++ ((List.range 10).flatMap fun p =>
        (s.queue (.io x p .input)).map SkEvent.data ++
          (s.queue (.io x p .output)).map SkEvent.data) = s.engineDestroy x := by
    intro x hx
    obtain ⟨k, hk⟩ := Option.isSome_iff_exists.mp ((h.engine x).mpr hx)
    have hlength : k.bridgeTbl.length ≤ s.threads + s.bioCnt + 1 := by
      rw [← length_engines]
      exact h.bridges_le hk
    rw [engineDestroy, hk, Option.elim_some, SkSched.schedDestroy,
      ← flatMap_range_getElem? ioBridgeDestroy k.bridgeTbl _ hlength]
    congr 1
    · refine List.flatMap_congr fun i _ => ?_
      rw [queue, hk, Option.elim_some]
      cases k.bridgeTbl[i]? <;> rfl
    · refine List.flatMap_congr fun p _ => ?_
      rw [queue_io hk, queue_io hk]
      rfl
  have hwaiting : s.waitingIds.Perm (s.engines.flatMap s.engineDestroy) := by
    rw [waitingIds]
    show (Queues.line number s.queue (_ ++ (_ ++ _))).Perm _
    rw [Queues.line_append, Queues.line_append, line_product (fun x i => .io x i .input),
      line_product (fun x i => .io x i .output), line_product (fun x i => .bridge x i),
      ← List.append_assoc]
    refine List.perm_append_comm.trans ?_
    refine ((List.flatMap_append_perm ..).append_left _).trans ?_
    refine (List.flatMap_append_perm ..).trans ?_
    refine List.Perm.flatMap_left _ fun x hx => ?_
    rw [← hengine x hx]
    exact (List.flatMap_append_perm ..).append_left _
  refine List.Perm.trans ?_ hwaiting.symm
  rw [enginesDestroy, engines, List.cons_append, List.flatMap_cons, List.flatMap_append]
  exact List.perm_append_comm

end SchedNet

/-! ### Handlers -/

/-- The message whose protocol runs. -/
def SchedPc.running : SchedPc → List SkEvent
  | .handler _ _ e _ => [e]
  | .created | .timers | .deliver .. | .notify .. | .pull .. | .buffer .. | .clean _ | .poll
  | .dispatch | .copy .. | .stopped => []

namespace SchedThreads

variable {s s' : SchedThreads} {x : Sched} {pc : SchedPc} {net : SchedNet} {pri idx : Nat}

/-- The messages in the handlers, by the scheduler. -/
def handlers (s : SchedThreads) : Queues Sched SkEvent := fun x => (s.pc x).running

/-- The numbers of the messages in the handlers. -/
def inHandlers (s : SchedThreads) : List Nat :=
  s.handlers.line (fun _ e => some e.data) s.net.engines

/-- **What was handled** was freed once, or is in a handler. -/
def Accounted (s : SchedThreads) : Prop := (s.freed ++ s.inHandlers).Perm s.net.handledIds

/-- A thread goes on that starts or ends no handler. -/
theorem handlers_goto (h : pc.running = (s.pc x).running) : (s.goto x pc).handlers = s.handlers := by
  funext y
  by_cases hy : y = x
  · rw [handlers, handlers, hy, goto_self, h]
  · rw [handlers, handlers, goto_of_ne hy]

theorem Accounted.congr (h : s.Accounted) (hfreed : s'.freed = s.freed)
    (hhandlers : s'.handlers = s.handlers) (hengines : s'.net.engines = s.net.engines)
    (hhandled : s'.net.handled = s.net.handled) : s'.Accounted := by
  rw [Accounted, inHandlers, SchedNet.handledIds, hfreed, hhandlers, hengines, hhandled]
  exact h

/-- A handler starts. -/
theorem Accounted.begins {nprocessed : Nat} {e : SkEvent} {events : List SkEvent}
    (h : s.Accounted) (hx : x ∈ s.net.engines) (hpc : (s.pc x).running = []) :
    ((s.goto x (.handler pri nprocessed e events)).setNet
      { s.net with handled := s.net.handled ++ [(x, e)] }).Accounted := by
  have hhandlers : ((s.goto x (.handler pri nprocessed e events)).setNet
      { s.net with handled := s.net.handled ++ [(x, e)] }).handlers = s.handlers.push x e := by
    funext y
    show ((s.goto x _).pc y).running = _
    by_cases hy : y = x
    · rw [hy, goto_self, Queues.push_self, handlers, hpc]
      rfl
    · rw [goto_of_ne hy, Queues.push_of_ne hy]
      rfl
  rw [Accounted, inHandlers, hhandlers]
  show (s.freed ++ Queues.line _ (s.handlers.push x e) s.net.engines).Perm
    ((s.net.handled ++ [(x, e)]).map fun (q : Sched × SkEvent) => q.2.data)
  rw [List.map_append]
  refine ((Queues.perm_push (SchedNet.engines_nodup s.net) hx).append_left _).trans ?_
  rw [← List.append_assoc]
  exact h.append_right _

/-- A handler ends, and the data are freed. -/
theorem Accounted.ends {nprocessed : Nat} {e : SkEvent} {events : List SkEvent} (h : s.Accounted)
    (hx : x ∈ s.net.engines) (hpc : s.pc x = .handler pri nprocessed e events) :
    ((s.eventDestroy e).goto x (.buffer pri nprocessed events)).Accounted := by
  have hhandlers : ((s.eventDestroy e).goto x (.buffer pri nprocessed events)).handlers =
      fun y => if y = x then (s.handlers y).tail else s.handlers y := by
    funext y
    by_cases hy : y = x
    · rw [if_pos hy, hy, handlers, handlers, goto_self, hpc]
      rfl
    · rw [if_neg hy, handlers, handlers, goto_of_ne hy, eventDestroy_pc]
  have hin : s.handlers x = [e] := by rw [handlers, hpc]; rfl
  have hpop : s.inHandlers.Perm _ := Queues.perm_pop (SchedNet.engines_nodup s.net) hx hin
  rw [Accounted, inHandlers, hhandlers]
  show (s.freed ++ [e.data] ++ Queues.line _ _ s.net.engines).Perm s.net.handledIds
  rw [List.append_assoc]
  refine List.Perm.trans (List.Perm.append_left _ ?_) h
  exact List.perm_append_comm.trans hpop.symm

/-- A turn that is no handler leaves what was handled. -/
theorem handled_of_turn (hknown : s.view.Known) {a : ThreadAction} (henabled : s.enabled a)
    (hexec : s.exec a = .ok s') (hrun : ∀ x pri, s.turn a ≠ some (.run x pri)) :
    s'.net.handled = s.net.handled := by
  show s'.view.handled = s.view.handled
  have hview := view_exec hknown.star henabled hexec
  cases hturn : s.turn a with
  | none =>
    rw [hturn] at hview
    rw [hview]
  | some b =>
    rw [hturn] at hview
    obtain ⟨-, -, heffect⟩ := hknown.step_ok hview.1 hview.2
    cases heffect with
    | send hsrc hdst hqueue hsent hhandled => exact hhandled
    | deliver hx hlink hdst hop hhandled => exact hhandled
    | copy hx hlink hop hhandled => exact hhandled
    | run hx hop hhandled => exact absurd hturn (hrun _ _)

/-- The engines stay. -/
theorem engines_of_exec (hknown : s.view.Known) {a : ThreadAction} (henabled : s.enabled a)
    (hexec : s.exec a = .ok s') : s'.net.engines = s.net.engines := by
  show s'.view.engines = s.view.engines
  have hview := view_exec hknown.star henabled hexec
  cases hturn : s.turn a with
  | none =>
    rw [hturn] at hview
    rw [hview]
  | some b =>
    rw [hturn] at hview
    exact (hknown.step_ok hview.1 hview.2).2.1.engines

/-- **A step** outside the loop of `_pull_and_run` starts and ends no handler. -/
theorem step_handlers (hbuffer : ∀ pri n e events, s.pc x ≠ .buffer pri n (e :: events))
    (hhandler : ∀ pri n e events, s.pc x ≠ .handler pri n e events) (hexec : s.step x = .ok s') :
    s'.freed = s.freed ∧ s'.handlers = s.handlers := by
  -- the end of a callback that runs no handler
  have hmsg : ∀ {s'}, (s.pc x).running = [] → s.deliverMsg x = .ok s' →
      s'.freed = s.freed ∧ s'.handlers = s.handlers := by
    intro s' hpc hexec
    obtain ⟨k, -, hgoto⟩ := except_bind_ok.mp hexec
    obtain rfl := Except.ok.inj hgoto
    exact ⟨rfl, handlers_goto hpc.symm⟩
  -- in each state of the thread the handlers that run are read off
  cases hpc : s.pc x with
  | created | poll | stopped =>
    simp only [step, hpc] at hexec
    obtain rfl := Except.ok.inj hexec
    exact ⟨rfl, rfl⟩
  | timers =>
    simp only [step, hpc] at hexec
    exact hmsg (by rw [hpc]; rfl) hexec
  | deliver pri delivery =>
    simp only [step, hpc] at hexec
    split at hexec
    · exact absurd hexec (by simp)
    · obtain rfl := Except.ok.inj hexec
      refine ⟨rfl, handlers_goto ?_⟩
      rw [hpc]
      split <;> rfl
    · obtain rfl := Except.ok.inj hexec
      exact ⟨rfl, handlers_goto (by rw [hpc]; rfl)⟩
  | notify idx delivery =>
    simp only [step, hpc] at hexec
    split at hexec
    · obtain rfl := Except.ok.inj hexec
      exact ⟨rfl, handlers_goto (by rw [hpc]; rfl)⟩
    · obtain rfl := Except.ok.inj hexec
      rw [ioBridgetNotify]
      split
      · exact ⟨rfl, handlers_goto (by rw [hpc]; rfl)⟩
      · exact ⟨rfl, handlers_goto (by rw [setEvfd_pc, hpc]; rfl)⟩
  -- the thread pulls from the queues, and frees nothing
  | pull pri nprocessed =>
    simp only [step, hpc] at hexec
    split at hexec
    · exact absurd hexec (by simp)
    · obtain rfl := Except.ok.inj hexec
      exact ⟨rfl, handlers_goto (by rw [hpc]; rfl)⟩
  -- at the end of a buffer no handler is left of it
  | buffer pri nprocessed events =>
    cases events with
    | nil =>
      simp only [step, hpc] at hexec
      obtain rfl := Except.ok.inj hexec
      refine ⟨rfl, handlers_goto ?_⟩
      rw [hpc]
      split <;> rfl
    | cons e events => exact absurd hpc (hbuffer pri nprocessed e events)
  | handler pri nprocessed e events => exact absurd hpc (hhandler pri nprocessed e events)
  | clean nprocessed =>
    simp only [step, hpc] at hexec
    split at hexec
    · exact hmsg (by rw [hpc]; rfl) hexec
    · obtain rfl := Except.ok.inj hexec
      exact ⟨rfl, handlers_goto (by rw [hpc]; rfl)⟩
  | dispatch =>
    simp only [step, hpc] at hexec
    obtain rfl := Except.ok.inj hexec
    refine ⟨rfl, handlers_goto ?_⟩
    rw [hpc]
    split <;> rfl
  -- a bridge is copied without a handler
  | copy y idx =>
    simp only [step, hpc] at hexec
    split at hexec
    · obtain rfl := Except.ok.inj hexec
      exact ⟨rfl, handlers_goto (by rw [hpc]; rfl)⟩
    · split at hexec
      · exact absurd hexec (by simp)
      · obtain rfl := Except.ok.inj hexec
        exact ⟨rfl, rfl⟩

/-- **A step** keeps the account. -/
theorem Accounted.step (h : s.Accounted) (hknown : s.view.Known) (hx : s.enabled (.step x))
    (hexec : s.step x = .ok s') : s'.Accounted := by
  by_cases hbuffer : ∃ pri n e events, s.pc x = .buffer pri n (e :: events)
  · obtain ⟨pri, n, e, events, hpc⟩ := hbuffer
    simp only [SchedThreads.step, hpc] at hexec
    split at hexec
    · exact absurd hexec (by simp)
    · obtain rfl := Except.ok.inj hexec
      exact h.begins hx.1 (by rw [hpc]; rfl)
  · by_cases hhandler : ∃ pri n e events, s.pc x = .handler pri n e events
    · obtain ⟨pri, n, e, events, hpc⟩ := hhandler
      simp only [SchedThreads.step, hpc] at hexec
      obtain rfl := Except.ok.inj hexec
      exact h.ends hx.1 hpc
    · obtain ⟨hfreed, hhandlers⟩ := step_handlers
        (fun pri n e events hpc => hbuffer ⟨pri, n, e, events, hpc⟩)
        (fun pri n e events hpc => hhandler ⟨pri, n, e, events, hpc⟩) hexec
      refine h.congr hfreed hhandlers (engines_of_exec hknown hx hexec)
        (handled_of_turn hknown hx hexec fun y pri hturn => ?_)
      -- a turn that handles a message is one of the loop
      simp only [turn] at hturn
      split at hturn
      · split at hturn <;> simp at hturn
      · rename_i hpc
        exact hbuffer ⟨_, _, _, _, hpc⟩
      · split at hturn <;> simp at hturn
      all_goals exact absurd hturn (by simp)

/-- **Every action** does. -/
theorem Accounted.exec (h : s.Accounted) (hknown : s.view.Known) {a : ThreadAction}
    (henabled : s.enabled a) (hexec : s.exec a = .ok s') : s'.Accounted := by
  -- the engines stay
  have hengines := engines_of_exec hknown henabled hexec
  cases a with
  -- a send counts as handled what was handled before
  | send src dst ptoId =>
    have hhandled := handled_of_turn hknown henabled hexec (by simp [turn])
    simp only [SchedThreads.exec] at hexec
    split at hexec
    · exact absurd hexec (by simp)
    · obtain rfl := Except.ok.inj hexec
      exact h.congr rfl rfl hengines hhandled
  | start x =>
    obtain rfl := Except.ok.inj hexec
    exact h.congr rfl (handlers_goto (by rw [setRunning_pc, henabled.2]; rfl)) rfl rfl
  -- only a step of a thread frees and runs handlers
  | step x => exact h.step hknown henabled hexec
  | wake x =>
    obtain rfl := Except.ok.inj hexec
    exact h.congr rfl (handlers_goto (by rw [henabled.2]; rfl)) rfl rfl
  | callback x y idx =>
    obtain rfl := Except.ok.inj hexec
    rw [copyEvent]
    split
    · exact h
    · exact h.congr rfl (handlers_goto (by rw [setEvfd_pc, henabled.2.1]; rfl)) rfl rfl
  | stop x =>
    obtain rfl := Except.ok.inj hexec
    exact h

/-- **In every state reached** all data are accounted for. -/
theorem Reach.accounted (h : machine.Reach Machine.anyStep s) : s.Accounted := by
  induction h with
  | init hinit =>
    obtain ⟨net, hnet, rfl⟩ := hinit
    obtain ⟨threads, bioCnt, hthreads, hok⟩ := hnet
    obtain ⟨-, -, -, -, hhandled, -⟩ := SchedNet.setupEngines_star hthreads hok
    have hnone : (setup net).inHandlers = [] := List.flatMap_eq_nil_iff.mpr fun _ _ => rfl
    rw [Accounted, hnone, SchedNet.handledIds]
    show ([] : List Nat).Perm (net.handled.map _)
    rw [hhandled]
    exact .refl _
  | step hs henabled _ hexec ih => exact ih.exec (Reach.known hs) henabled hexec

/-! ### Every life of a core -/

/-- Where no buffer holds a message, the queues are as they are seen. -/
theorem view_eq (h : ∀ x ∈ s.net.engines, (s.pc x).buffered = fun _ => [])
    (hstar : s.view.Star) : s.view = s.net := by
  rw [view, SchedNet.withBuffers]
  congr 1
  funext x
  cases hk : s.net.scheds x with
  | none => rfl
  | some k =>
    have hx : x ∈ s.net.engines := by
      refine (hstar.engine x).mp ?_
      rw [view, SchedNet.withBuffers_scheds, hk]
      rfl
    rw [Option.map_some]
    refine congrArg some (SkSched.ext_ioTbl (fun p t => ?_) rfl rfl rfl)
    cases t with
    | input => rw [SkSched.withBuffer_input, buffers, h x hx, List.nil_append]
    | output => rfl

/-- **The data of messages.** In every run of the threads the data of a message are freed when its
    protocol has run, and only once; and when all threads have stopped, wherever that leaves the
    messages, destroying the engines frees the data of all others. -/
theorem teardown_run {run : List (ThreadAction × SchedThreads)} (hinit : machine.init s)
    (hrun : machine.Path s run) : ∀ q ∈ run,
      (q.2.freed ++ q.2.inHandlers).Perm q.2.net.handledIds ∧
      ((∀ x ∈ q.2.net.engines, q.2.pc x = .stopped) →
        (q.2.freed ++ q.2.net.enginesDestroy).Perm (List.range q.2.net.sent.length)) := by
  intro q hq
  have hreach := hrun.reach (.init hinit) (Machine.stepsMeet_any run s) q hq
  have haccounted := Reach.accounted hreach
  have hknown := Reach.known hreach
  refine ⟨haccounted, fun hstopped => ?_⟩
  have hview : q.2.view = q.2.net := view_eq (fun x hx => by rw [hstopped x hx]; rfl) hknown.star
  rw [hview] at hknown
  -- no handler is left
  have hnone : q.2.inHandlers = [] := by
    refine List.flatMap_eq_nil_iff.mpr fun x hx => ?_
    rw [handlers, hstopped x hx]
    rfl
  have hfreed : q.2.freed.Perm q.2.net.handledIds := by
    rw [← List.append_nil q.2.freed, ← hnone]
    exact haccounted
  exact (hfreed.append (SchedNet.enginesDestroy_perm hknown.star)).trans hknown.routed.once

/-- The master sends two messages; the worker handles one, and both are stopped while the other one
    is in the bridge. -/
def stoppedEarly : List ThreadAction :=
  [.send .master none .tcpAccept, .start .master, .start (.worker 0)] ++ idleRound .master 1 ++
    [.step .master] ++ idleRound (.worker 0) 1 ++
    [.wake (.worker 0), .callback (.worker 0) .master 0] ++ List.replicate 4 (.step (.worker 0)) ++
    idleRound (.worker 0) 1 ++ idleRound (.worker 0) 1 ++
    [.wake .master, .send .master none .stdStart, .step .master] ++ idleRound .master 1 ++
    [.step .master, .stop .master, .stop (.worker 0), .wake .master, .wake (.worker 0),
      .step .master, .step (.worker 0)]

/-- The core after that. -/
def stopped : SchedThreads := machine.final (setup (SchedNet.core 1 0)) stoppedEarly

/-- A thread that is stopped leaves a message for the end. -/
theorem stoppedEarly_teardown :
    (stopped.pc .master = .stopped ∧ stopped.pc (.worker 0) = .stopped ∧ stopped.freed = [0] ∧
      stopped.net.enginesDestroy = [1]) ∧
      ∀ q ∈ machine.trace (setup (SchedNet.core 1 0)) stoppedEarly,
        (q.2.freed ++ q.2.inHandlers).Perm q.2.net.handledIds ∧
        ((∀ x ∈ q.2.net.engines, q.2.pc x = .stopped) →
          (q.2.freed ++ q.2.net.enginesDestroy).Perm (List.range q.2.net.sent.length)) :=
  ⟨by decide +kernel, teardown_run ⟨_, SchedNet.core_init (by decide) (by decide +kernel), rfl⟩
    (machine.trace_path stoppedEarly _)⟩

end SchedThreads

end Skull
