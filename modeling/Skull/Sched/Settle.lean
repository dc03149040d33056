import Skull.Lib.Sums
import Skull.Sched.Wakeup

namespace Skull

open Machines

/-!
# The threads come to rest

When nothing is sent any more, the messages that are under way are handled, and the threads go to
sleep.  No timeout is needed for that: a thread wakes up when an eventfd is readable, and runs the
callbacks of those that were, while others may become readable.

* `PolledThreads` — the threads, and what the event loop of each has been told and has yet to serve;
* `PolledThreads.Prompt` — a step without a timeout;
* `SchedThreads.work` — a measure: the turns that the messages need, the messages that are not in a
  buffer yet, the bridges that are or will be notified, and how far each thread is in its loops;
* `PolledThreads.work_lt` — every prompt step makes it smaller;
* `PolledThreads.exists_prompt` — while a thread is neither asleep nor at its end there is a prompt
  step;
* `SchedThreads.settles` — **all is handled without a timeout**.
-/

namespace SchedPc

instance (idx : Nat) (pc : SchedPc) : Decidable (pc.Notifying idx) :=
  match pc with
  | .deliver .. => inferInstanceAs (Decidable (¬ _ = _))
  | .notify .. => inferInstanceAs (Decidable (_ ∧ ¬ _ = _))
  | .created | .timers | .pull .. | .buffer .. | .handler .. | .clean _ | .poll | .dispatch
  | .copy .. | .stopped => .isFalse id

end SchedPc

namespace SchedThreads

variable {s s' : SchedThreads} {x y : Sched} {pc : SchedPc} {net : SchedNet} {pri idx : Nat}
  {told told' : Sched → List (Sched × Nat)}

/-! ### What is readable -/

/-- The eventfds that will wake the thread up. -/
def readable (s : SchedThreads) (x : Sched) : List (Sched × Nat) :=
  (s.net.engines ×ˢ List.range s.net.engines.length).filter fun e =>
    s.net.leads e.1 e.2 x ∧ s.evfd e.1 e.2 ≠ 0

/-! ### The measure -/

/-- A bound on the steps of a round that finds nothing. -/
def roundSteps (s : SchedThreads) : Nat := s.net.engines.length + 34

/-- What is left of a round after its loops. -/
def restOfRound (s : SchedThreads) (nprocessed : Nat) : Nat :=
  if nprocessed = 0 then 3 else s.roundSteps + 1

/-- The steps that a thread has left, if it gets no messages: one that has been told of an eventfd
    goes on by its callback. -/
def stepsLeft (s : SchedThreads) (told : List (Sched × Nat)) : SchedPc → Nat
  | .created => s.roundSteps + 2
  | .timers => s.roundSteps + 1
  | .deliver pri delivery => 25 + delivery.length + pri
  | .notify idx delivery => 24 + (delivery.length - idx)
  | .pull pri nprocessed => s.restOfRound nprocessed + 2 + 2 * pri
  | .buffer pri nprocessed events => s.restOfRound nprocessed + 1 + 2 * pri + 2 * events.length
  | .handler pri nprocessed _ events => s.restOfRound nprocessed + 2 + 2 * pri + 2 * events.length
  | .clean nprocessed => s.restOfRound nprocessed
  | .poll => 2
  | .dispatch => if told = [] then s.roundSteps + 2 else 1
  | .copy .. => s.roundSteps + 3
  | .stopped => 0

/-- The messages that have come in and are in no buffer. -/
def unpulled (s : SchedThreads) (x : Sched) : Nat :=
  ((List.range (ptoPriMax + 1)).map fun p => (s.net.queue (.io x p .input)).length).sum

/-- A bridge is notified, or will be. -/
def armed (s : SchedThreads) (x : Sched) (idx : Nat) : Nat :=
  (if s.evfd x idx ≠ 0 then 1 else 0) + if (s.pc x).Notifying idx then 1 else 0

/-- The bridges of a scheduler that are, or will be. -/
def notices (s : SchedThreads) (x : Sched) : Nat :=
  ((List.range s.net.engines.length).map (s.armed x)).sum

/-- What one thread has to do. -/
def cost (s : SchedThreads) (told : Sched → List (Sched × Nat)) (x : Sched) : Nat :=
  (s.roundSteps + 4) * (s.unpulled x + s.notices x) + s.stepsLeft (told x) (s.pc x)

/-- **The measure.** -/
def work (s : SchedThreads) (told : Sched → List (Sched × Nat)) : Nat :=
  (s.roundSteps + 10) * s.view.pending + (s.net.engines.map (s.cost told)).sum

/-! ### What one thread does to the others -/

/-- A thread does its work with its own queues and counters; bridges to other threads only become
    readable. -/
structure Beside (s : SchedThreads) (x : Sched) (s' : SchedThreads) : Prop where
  own : s.net.Own x s'.net
  pc : ∀ y, y ≠ x → s'.pc y = s.pc y
  evfd : ∀ y, y ≠ x → ∀ i, s'.evfd y i = s.evfd y i
  counts : ∀ i, s.evfd x i ≤ s'.evfd x i

namespace Beside

/-- A step that changes nothing. -/
theorem refl : s.Beside x s := ⟨.refl, fun _ _ => rfl, fun _ _ _ => rfl, fun _ => Nat.le_refl _⟩

variable (h : s.Beside x s')

include h

/-- A round takes as long. -/
theorem roundSteps : s'.roundSteps = s.roundSteps := by
  rw [SchedThreads.roundSteps, SchedThreads.roundSteps, h.own.engines]

/-- The others have as many messages to pull. -/
theorem unpulled (hy : y ≠ x) : s'.unpulled y = s.unpulled y := by
  rw [SchedThreads.unpulled, SchedThreads.unpulled]
  simp only [h.own.io y hy]

/-- They have as many bridges to notify. -/
theorem notices (hy : y ≠ x) : s'.notices y = s.notices y := by
  rw [SchedThreads.notices, SchedThreads.notices, h.own.engines]
  refine congrArg List.sum (List.map_congr_left fun i _ => ?_)
  rw [armed, armed, h.evfd y hy, h.pc y hy]

/-- What is left of the loops is the same. -/
theorem stepsLeft (l : List (Sched × Nat)) (pc : SchedPc) : s'.stepsLeft l pc = s.stepsLeft l pc := by
  have hrest : ∀ n, s'.restOfRound n = s.restOfRound n := by
    intro n
    rw [restOfRound, restOfRound, h.roundSteps]
  cases pc with
  | created | timers | copy | dispatch => simp only [SchedThreads.stepsLeft, h.roundSteps]
  | deliver | notify | poll | stopped => rfl
  | pull | buffer | handler | clean => simp only [SchedThreads.stepsLeft, hrest]

/-- Another thread has no more to do. -/
theorem cost (hy : y ≠ x) (htold : told' y = told y) : s'.cost told' y = s.cost told y := by
  rw [SchedThreads.cost, SchedThreads.cost, h.roundSteps, h.unpulled hy, h.notices hy, h.pc y hy,
    htold, h.stepsLeft]

/-- **The measure gets smaller** when what the thread has to do does, or a message takes a turn. -/
theorem work {a : Nat} (hx : x ∈ s.net.engines) (htold : ∀ y, y ≠ x → told' y = told y)
    (hpending : s'.view.pending + a ≤ s.view.pending)
    (hcost : s'.cost told' x < s.cost told x + (s.roundSteps + 10) * a) :
    s'.work told' < s.work told := by
  have hsum := sum_change (SchedNet.engines_nodup s.net) (f := s.cost told) (g := s'.cost told')
    (x := x) (b := (s.roundSteps + 10) * a) (a := 1) hx (fun y _ => by
      by_cases hy : y = x
      · rw [if_pos hy, if_pos hy, hy]
        exact hcost
      · rw [if_neg hy, if_neg hy]
        exact Nat.le_of_eq (h.cost hy (htold y hy)))
  have hmul := Nat.mul_le_mul_left (s.roundSteps + 10) hpending
  rw [Nat.mul_add] at hmul
  rw [SchedThreads.work, SchedThreads.work, h.roundSteps, h.own.engines]
  omega

/-- A step of the loops that takes no message on. -/
theorem work_of_local (hx : x ∈ s.net.engines) (htold : ∀ y, y ≠ x → told' y = told y)
    (hpending : s'.view.pending = s.view.pending) (hunpulled : s'.unpulled x = s.unpulled x)
    (hnotices : s'.notices x ≤ s.notices x)
    (hleft : s'.stepsLeft (told' x) (s'.pc x) < s.stepsLeft (told x) (s.pc x)) :
    s'.work told' < s.work told := by
  refine h.work (a := 0) hx htold (Nat.le_of_eq hpending) ?_
  have hmul := Nat.mul_le_mul_left (s.roundSteps + 4) (Nat.add_le_add_left hnotices (s.unpulled x))
  rw [SchedThreads.cost, SchedThreads.cost, h.roundSteps, hunpulled]
  omega

/-- **A turn** pays for what it leads to. -/
theorem work_of_turn (hx : x ∈ s.net.engines) (hpending : s'.view.pending < s.view.pending)
    (hmore : s'.unpulled x + s'.notices x ≤ s.unpulled x + s.notices x + 1)
    (hleft : s'.stepsLeft (told x) (s'.pc x) ≤ s.stepsLeft (told x) (s.pc x)) :
    s'.work told < s.work told := by
  refine h.work (a := 1) hx (fun _ _ => rfl) hpending ?_
  have hmul := Nat.mul_le_mul_left (s.roundSteps + 4) hmore
  rw [Nat.mul_add_one] at hmul
  rw [SchedThreads.cost, SchedThreads.cost, h.roundSteps]
  omega

end Beside

/-! ### Turns -/

/-- **A turn** of the routing makes the pending turns fewer, and any other step leaves them. -/
theorem pending_exec (hknown : s.view.Known) {a : ThreadAction} (henabled : s.enabled a)
    (hexec : s.exec a = .ok s') :
    match s.turn a with
    | none => s'.view.pending = s.view.pending
    | some b => b.isTurn → s'.view.pending < s.view.pending := by
  have hview := view_exec hknown.star henabled hexec
  cases hturn : s.turn a with
  | none =>
    rw [hturn] at hview
    exact congrArg SchedNet.pending hview
  | some b =>
    rw [hturn] at hview
    intro hb
    obtain ⟨-, hsame, heffect⟩ := hknown.step_ok hview.1 hview.2
    have hpending := heffect.pending hknown hsame
    rwa [if_pos hb] at hpending

/-! ### Steps of the loops -/

/-- A thread goes on, and does something to its own queues. -/
theorem beside_goto (hown : s.net.Own x net) : s.Beside x ((s.goto x pc).setNet net) where
  own := hown
  pc _ hy := goto_of_ne hy
  evfd _ _ _ := rfl
  counts _ := Nat.le_refl _

/-- A thread only goes on. -/
theorem beside_goto_self : s.Beside x (s.goto x pc) := beside_goto .refl

/-- `_deliver_msg` begins. -/
theorem deliverMsg_beside (hexec : s.deliverMsg x = .ok s') : s.Beside x s' := by
  obtain ⟨k, -, hgoto⟩ := except_bind_ok.mp hexec
  obtain rfl := Except.ok.inj hgoto
  exact beside_goto_self

/-- A bridge is notified. -/
theorem notify_beside {delivery : List Nat} {cnt : Nat} :
    s.Beside x ((s.ioBridgetNotify x idx cnt).goto x (.notify (idx + 1) delivery)) := by
  refine ⟨?_, fun y hy => ?_, fun y hy i => ?_, fun i => ?_⟩
  · rw [goto_net, ioBridgetNotify_net]
    exact .refl
  · rw [goto_of_ne hy, ioBridgetNotify_pc]
  · rw [goto_evfd, ioBridgetNotify_evfd, if_neg fun h => hy h.1, Nat.add_zero]
  · rw [goto_evfd, ioBridgetNotify_evfd]
    exact Nat.le_add_right _ _

/-- **A step of a thread** is its own. -/
theorem step_beside (h : s.Awake) (hexec : s.step x = .ok s') : s.Beside x s' := by
  have hdrained := h.drained x
  cases hpc : s.pc x with
  | created | poll | stopped =>
    simp only [step, hpc] at hexec
    -- these do not step
    exact Except.ok.inj hexec ▸ .refl
  | timers =>
    simp only [step, hpc] at hexec
    exact deliverMsg_beside hexec
  | deliver pri delivery =>
    simp only [step, hpc] at hexec
    cases hone : s.net.deliverOneIo x pri with
    | error fault =>
      rw [hone] at hexec
      exact absurd hexec (by simp)
    | ok q =>
      rw [hone] at hexec
      rcases SchedNet.deliverOneIo_own hone with ⟨rfl, -⟩ | ⟨-, idx, y, net, rfl, -, hown, -⟩
      · -- nothing is to be delivered
        exact Except.ok.inj hexec ▸ beside_goto_self
      · -- a bridge of its own gets an event
        exact Except.ok.inj hexec ▸ beside_goto hown
  | notify idx delivery =>
    simp only [step, hpc] at hexec
    split at hexec
    · exact Except.ok.inj hexec ▸ beside_goto_self
    · -- an eventfd of its own is written
      exact Except.ok.inj hexec ▸ notify_beside
  | pull pri nprocessed =>
    simp only [step, hpc] at hexec
    cases hpull : s.net.pullEvents x pri with
    | error fault =>
      rw [hpull] at hexec
      exact absurd hexec (by simp)
    | ok q =>
      rw [hpull] at hexec
      -- its own input is pulled
      exact Except.ok.inj hexec ▸ beside_goto (SchedNet.pullEvents_own hpull).1
  | buffer pri nprocessed events =>
    cases events with
    | nil =>
      simp only [step, hpc] at hexec
      exact Except.ok.inj hexec ▸ beside_goto_self
    | cons e events =>
      simp only [step, hpc] at hexec
      split at hexec
      · exact absurd hexec (by simp)
      · -- what was run is noted
        exact Except.ok.inj hexec ▸ beside_goto ⟨fun _ _ _ _ => rfl, fun _ _ _ => rfl, rfl⟩
  | handler pri nprocessed e events =>
    simp only [step, hpc] at hexec
    exact Except.ok.inj hexec ▸
      ⟨.refl, fun _ hy => goto_of_ne hy, fun _ _ _ => rfl, fun _ => Nat.le_refl _⟩
  | clean nprocessed =>
    simp only [step, hpc] at hexec
    split at hexec
    · exact deliverMsg_beside hexec
    · exact Except.ok.inj hexec ▸ beside_goto_self
  | dispatch =>
    simp only [step, hpc] at hexec
    exact Except.ok.inj hexec ▸ beside_goto_self
  | copy y idx =>
    rw [hpc] at hdrained
    simp only [step, hpc] at hexec
    split at hexec
    · exact Except.ok.inj hexec ▸ beside_goto_self
    · cases hcopy : s.net.copyTurn y idx with
      | error fault =>
        rw [hcopy] at hexec
        exact absurd hexec (by simp)
      | ok net =>
        -- a bridge that leads to it loses an event
        rw [hcopy] at hexec
        exact Except.ok.inj hexec ▸ ⟨(SchedNet.copyTurn_own hdrained hcopy).1, fun _ _ => rfl,
          fun _ _ _ => rfl, fun _ => Nat.le_refl _⟩

/-- The bridges that will be notified are among those that would have been. -/
theorem notices_le (hengines : s'.net.engines = s.net.engines) (hevfd : ∀ i, s'.evfd x i = s.evfd x i)
    (hnotify : ∀ i, (s'.pc x).Notifying i → (s.pc x).Notifying i) : s'.notices x ≤ s.notices x := by
  rw [notices, notices, hengines]
  refine List.sum_le_sum fun i _ => ?_
  rw [armed, armed, hevfd]
  refine Nat.add_le_add_left ?_ _
  by_cases hi : (s'.pc x).Notifying i
  · rw [if_pos hi, if_pos (hnotify i hi)]
  · rw [if_neg hi]
    exact Nat.zero_le _

/-- `_deliver_msg` begins: nothing is delivered yet. -/
theorem work_deliverMsg (hknown : s.view.Known) (hx : x ∈ s.net.engines)
    (hbuf : ∀ p, (s.pc x).buffered p = []) (hleft : s.roundSteps < s.stepsLeft (told x) (s.pc x))
    (hexec : s.deliverMsg x = .ok s') : s'.work told < s.work told := by
  have hview := deliverMsg_view hbuf hexec
  obtain ⟨k, hsched, hgoto⟩ := except_bind_ok.mp hexec
  have hk := SchedNet.scheds_of_sched hsched
  obtain rfl := Except.ok.inj hgoto
  have hbridges : k.bridgeTbl.length ≤ s.net.engines.length := by
    have hk' : s.view.scheds x = some (k.withBuffer (s.buffers x)) := by
      rw [view, SchedNet.withBuffers_scheds, hk, Option.map_some]
    have hle := hknown.star.bridges_le hk'
    exact hle
  refine beside_goto_self.work_of_local hx (fun _ _ => rfl) (congrArg SchedNet.pending hview) rfl ?_ ?_
  · refine notices_le rfl (fun _ => rfl) fun i hi => ?_
    rw [goto_self] at hi
    refine absurd ?_ hi
    show (List.replicate k.bridgeTbl.length 0)[i]?.getD 0 = 0
    rw [List.getElem?_replicate]
    split <;> rfl
  · rw [goto_self]
    refine Nat.lt_of_le_of_lt ?_ hleft
    show 25 + (List.replicate k.bridgeTbl.length 0).length + ptoPriMax ≤ s.net.engines.length + 34
    rw [List.length_replicate, ptoPriMax]
    omega

/-- **A step of `_deliver_one_io`.** -/
theorem work_deliver {delivery : List Nat} (h : s.Awake) (hknown : s.view.Known) (hpc : s.pc x = .deliver pri delivery)
    (henabled : s.enabled (.step x)) (hexec : s.step x = .ok s') : s'.work told < s.work told := by
  have hbeside := step_beside h hexec
  have hpending := pending_exec hknown henabled hexec
  simp only [turn, hpc] at hpending
  simp only [step, hpc] at hexec
  cases hone : s.net.deliverOneIo x pri with
  | error fault =>
    rw [hone] at hexec
    exact absurd hexec (by simp)
  | ok q =>
    rw [hone] at hexec
    rcases SchedNet.deliverOneIo_own hone with
      ⟨rfl, hnone⟩ | ⟨hsome, idx, y, net, rfl, hleads, hown, hmq, hio⟩
    · obtain rfl := Except.ok.inj hexec
      -- nothing is to be delivered, and the loop goes on
      rw [if_neg fun hin => SchedNet.enabled_deliver.mp hin hnone] at hpending
      refine hbeside.work_of_local henabled.1 (fun _ _ => rfl) hpending rfl ?_ ?_
      · refine notices_le rfl (fun _ => rfl) fun i hi => ?_
        rw [goto_self] at hi
        rw [hpc]
        split at hi
        · exact hi.2
        · exact hi
      · rw [goto_self, hpc]
        -- the second loop begins, or the next priority
        split
        · show 24 + (delivery.length - 0) < 25 + delivery.length + pri
          omega
        · show 25 + delivery.length + (pri - 1) < 25 + delivery.length + pri
          omega
    · obtain rfl := Except.ok.inj hexec
      rw [if_pos (SchedNet.enabled_deliver.mpr hsome)] at hpending
      refine hbeside.work_of_turn henabled.1 (hpending rfl) ?_ ?_
      · have hunpulled : ((s.goto x (.deliver pri (delivery.modify idx (· + 1)))).setNet net).unpulled
            x = s.unpulled x := by
          -- what is delivered is none of the input
          rw [unpulled, unpulled]
          refine congrArg List.sum (List.map_congr_left fun p _ => ?_)
          exact congrArg List.length (hio p .input (by simp))
        -- only the bridge that gets the message may be notified besides
        have hnotices : ((s.goto x (.deliver pri (delivery.modify idx (· + 1)))).setNet net).notices
            x ≤ s.notices x + 1 := by
          rw [notices, notices, setNet_net, hown.engines]
          refine sum_le_add (x := idx) List.nodup_range fun i _ => ?_
          rw [armed, armed, setNet_evfd, goto_evfd, setNet_pc, goto_self, hpc]
          by_cases hi : i = idx
          · rw [if_pos hi]
            split <;> split <;> split <;> omega
          · rw [if_neg hi]
            have hiff : (SchedPc.deliver pri (delivery.modify idx (· + 1))).Notifying i ↔
                (SchedPc.deliver pri delivery).Notifying i := by
              show (delivery.modify idx (· + 1))[i]?.getD 0 ≠ 0 ↔ delivery[i]?.getD 0 ≠ 0
              simp [Ne.symm hi]
            simp only [hiff, Nat.add_zero, Nat.le_refl]
        omega
      · rw [setNet_pc, goto_self, hpc]
        show 25 + (delivery.modify idx (· + 1)).length + pri ≤ 25 + delivery.length + pri
        rw [List.length_modify]

/-- **A step of the second loop of `_deliver_msg`.** -/
theorem work_notify {delivery : List Nat} (h : s.Awake) (hknown : s.view.Known) (hpc : s.pc x = .notify idx delivery)
    (henabled : s.enabled (.step x)) (hexec : s.step x = .ok s') : s'.work told < s.work told := by
  have hbeside := step_beside h hexec
  have hpending := pending_exec hknown henabled hexec
  simp only [turn, hpc] at hpending
  simp only [step, hpc] at hexec
  cases hcnt : delivery[idx]? with
  | none =>
    -- all bridges are notified, and events are pulled
    rw [hcnt] at hexec
    obtain rfl := Except.ok.inj hexec
    refine hbeside.work_of_local henabled.1 (fun _ _ => rfl) hpending rfl ?_ ?_
    · exact notices_le rfl (fun _ => rfl) fun i hi => absurd hi (by simp [SchedPc.Notifying])
    · rw [goto_self, hpc]
      show s.restOfRound 0 + 2 + 2 * ptoPriMax < 24 + (delivery.length - idx)
      rw [restOfRound, if_pos rfl, ptoPriMax]
      omega
  | some cnt =>
    rw [hcnt] at hexec
    obtain rfl := Except.ok.inj hexec
    have hlt : idx < delivery.length := (List.getElem?_eq_some_iff.mp hcnt).1
    refine hbeside.work_of_local henabled.1 (fun _ _ => rfl) hpending ?_ ?_ ?_
    · -- no event moves
      rw [unpulled, unpulled, goto_net, ioBridgetNotify_net]
    · rw [notices, notices, goto_net, ioBridgetNotify_net]
      refine List.sum_le_sum fun i _ => ?_
      rw [armed, armed, goto_evfd, ioBridgetNotify_evfd, goto_self, hpc]
      by_cases hi : i = idx
      · -- a bridge that is notified was going to be
        subst hi
        have hafter : ¬ (SchedPc.notify (i + 1) delivery).Notifying i := fun h =>
          absurd h.1 (Nat.not_succ_le_self i)
        rw [if_neg hafter, if_pos (show x = x ∧ i = i from ⟨rfl, rfl⟩)]
        by_cases hzero : cnt = 0
        · rw [hzero, Nat.add_zero]
          exact Nat.le_add_right _ _
        · have hbefore : (SchedPc.notify i delivery).Notifying i :=
            ⟨Nat.le_refl i, by rw [hcnt, Option.getD_some]; exact hzero⟩
          rw [if_pos hbefore]
          split <;> omega
      · -- the other bridges are notified as before
        rw [if_neg (show ¬ (x = x ∧ i = idx) from fun h => hi h.2), Nat.add_zero]
        refine Nat.add_le_add_left ?_ _
        by_cases hafter : (SchedPc.notify (idx + 1) delivery).Notifying i
        · have hbefore : (SchedPc.notify idx delivery).Notifying i :=
            ⟨Nat.le_of_succ_le hafter.1, hafter.2⟩
          rw [if_pos hafter, if_pos hbefore]
        · rw [if_neg hafter]
          exact Nat.zero_le _
    · -- one bridge less is to be notified
      rw [goto_self, hpc]
      show 24 + (delivery.length - (idx + 1)) < 24 + (delivery.length - idx)
      omega

/-- **Events are pulled.** -/
theorem work_pull {nprocessed : Nat} (h : s.Awake) (hknown : s.view.Known) (hpc : s.pc x = .pull pri nprocessed)
    (henabled : s.enabled (.step x)) (hexec : s.step x = .ok s') : s'.work told < s.work told := by
  have hbeside := step_beside h hexec
  have hpending := pending_exec hknown henabled hexec
  simp only [turn, hpc] at hpending
  simp only [step, hpc] at hexec
  cases hpull : s.net.pullEvents x pri with
  | error fault =>
    rw [hpull] at hexec
    exact absurd hexec (by simp)
  | ok q =>
    obtain ⟨events, net⟩ := q
    rw [hpull] at hexec
    obtain rfl := Except.ok.inj hexec
    obtain ⟨hown, -, hio, hinput, -⟩ := SchedNet.pullEvents_own hpull
    -- what is in the buffer is not in the queue
    have hunpulled : ((s.goto x (.buffer pri (nprocessed + events.length) events)).setNet net).unpulled
        x + events.length ≤ s.unpulled x + 0 := by
      have hsplit : ∀ p, (net.queue (.io x p .input)).length + (if p = pri then events.length else 0) =
          (s.net.queue (.io x p .input)).length := by
        intro p
        by_cases hp : p = pri
        · rw [if_pos hp, hp, hinput, List.length_append, Nat.add_comm]
        · rw [if_neg hp, hio p .input fun h => hp h.1, Nat.add_zero]
      by_cases hmax : pri ≤ ptoPriMax
      · refine sum_change (x := pri) (y := pri) List.nodup_range
          (List.mem_range.mpr (Nat.lt_succ_of_le hmax)) fun p _ => ?_
        rw [ite_self, Nat.add_zero, setNet_net, hsplit]
      · -- there are no messages of that priority
        have hnone : events = [] := List.eq_nil_iff_forall_not_mem.mpr fun e he => by
          have hfits := hknown.fits _ e (mem_view (hinput ▸ List.mem_append_left _ he))
          exact hmax (hfits.1 ▸ Nat.le_of_lt_succ (SchedNet.pri_lt e.ptoId))
        simp only [hnone, List.length_nil, Nat.add_zero, unpulled]
        refine List.sum_le_sum fun p _ => ?_
        have hp := hsplit p
        rw [setNet_net]
        omega
    have hnotices : ((s.goto x (.buffer pri (nprocessed + events.length) events)).setNet net).notices
        x ≤ s.notices x := by
      refine notices_le hown.engines (fun _ => rfl) fun i hi => absurd hi ?_
      rw [setNet_pc, goto_self]
      exact id
    refine hbeside.work (a := 0) henabled.1 (fun _ _ => rfl) (Nat.le_of_eq hpending) ?_
    have hround : s.restOfRound (nprocessed + events.length) ≤
        s.restOfRound nprocessed + (s.roundSteps + 1) * min 1 events.length := by
      rw [restOfRound, restOfRound]
      by_cases hzero : events.length = 0
      · rw [hzero, Nat.add_zero]
        exact Nat.le_add_right _ _
      · rw [Nat.min_eq_left (Nat.pos_of_ne_zero hzero), Nat.mul_one]
        split <;> split <;> omega
    have hsteps : ((s.goto x (.buffer pri (nprocessed + events.length) events)).setNet net).stepsLeft
        (told x) (.buffer pri (nprocessed + events.length) events) =
          s.restOfRound (nprocessed + events.length) + 1 + 2 * pri + 2 * events.length :=
      hbeside.stepsLeft _ _
    have hmin : (s.roundSteps + 1) * min 1 events.length + 2 * events.length ≤
        (s.roundSteps + 4) * events.length := by
      calc (s.roundSteps + 1) * min 1 events.length + 2 * events.length
          ≤ (s.roundSteps + 1) * events.length + 2 * events.length :=
            Nat.add_le_add_right (Nat.mul_le_mul_left _ (Nat.min_le_right _ _)) _
        _ = (s.roundSteps + 3) * events.length := by rw [← Nat.add_mul]
        _ ≤ (s.roundSteps + 4) * events.length := Nat.mul_le_mul_right _ (Nat.le_succ _)
    have hmul : (s.roundSteps + 4) * (((s.goto x (.buffer pri (nprocessed + events.length)
        events)).setNet net).unpulled x + ((s.goto x (.buffer pri (nprocessed + events.length)
        events)).setNet net).notices x) + (s.roundSteps + 4) * events.length ≤
          (s.roundSteps + 4) * (s.unpulled x + s.notices x) := by
      rw [← Nat.mul_add]
      exact Nat.mul_le_mul_left _ (by omega)
    rw [cost, cost, hbeside.roundSteps, setNet_pc, goto_self, hpc]
    have hbefore : s.stepsLeft (told x) (.pull pri nprocessed) =
        s.restOfRound nprocessed + 2 + 2 * pri := rfl
    rw [hbefore]
    omega

/-- **The loop of `_pull_and_run`.** -/
theorem work_buffer {nprocessed : Nat} {events : List SkEvent} (h : s.Awake) (hknown : s.view.Known)
    (hpc : s.pc x = .buffer pri nprocessed events) (henabled : s.enabled (.step x))
    (hexec : s.step x = .ok s') : s'.work told < s.work told := by
  have hbeside := step_beside h hexec
  have hpending := pending_exec hknown henabled hexec
  cases events with
  | nil =>
    simp only [turn, hpc] at hpending
    simp only [step, hpc] at hexec
    -- the buffer is empty, and the next priority is pulled
    obtain rfl := Except.ok.inj hexec
    refine hbeside.work_of_local henabled.1 (fun _ _ => rfl) hpending rfl ?_ ?_
    · -- nothing is to be notified any more
      refine notices_le rfl (fun _ => rfl) fun i hi => absurd hi ?_
      rw [goto_self]
      split <;> exact id
    · rw [goto_self, hpc]
      split
      · show s.restOfRound nprocessed < s.restOfRound nprocessed + 1 + 2 * pri + 2 * 0
        omega
      · show s.restOfRound nprocessed + 2 + 2 * (pri - 1) <
          s.restOfRound nprocessed + 1 + 2 * pri + 2 * 0
        omega
  | cons e events =>
    simp only [turn, hpc] at hpending
    simp only [step, hpc] at hexec
    split at hexec
    · -- an event for another scheduler aborts
      exact absurd hexec (by simp)
    · obtain rfl := Except.ok.inj hexec
      refine hbeside.work_of_turn henabled.1 (hpending rfl) ?_ ?_
      · refine Nat.le_succ_of_le (Nat.add_le_add (Nat.le_refl (s.unpulled x)) ?_)
        exact notices_le rfl (fun _ => rfl) fun i hi => absurd hi (by
          rw [setNet_pc, goto_self]
          exact id)
      · -- the event pays for its own handler
        rw [setNet_pc, goto_self, hpc]
        refine (Nat.le_of_eq (hbeside.stepsLeft _ _)).trans ?_
        show s.restOfRound nprocessed + 2 + 2 * pri + 2 * events.length ≤
          s.restOfRound nprocessed + 1 + 2 * pri + 2 * (events.length + 1)
        omega

/-- **The loop of `_copy_event`.** -/
theorem work_copy (h : s.Awake) (hknown : s.view.Known) (hpc : s.pc x = .copy y idx) (hleads : s.net.leads y idx x)
    (henabled : s.enabled (.step x)) (hexec : s.step x = .ok s') : s'.work told < s.work told := by
  have hbeside := step_beside h hexec
  have hpending := pending_exec hknown henabled hexec
  simp only [turn, hpc] at hpending
  simp only [step, hpc] at hexec
  -- the bridge is empty: the callback is over
  split at hexec
  · rename_i hempty
    rw [if_pos hempty] at hpending
    obtain rfl := Except.ok.inj hexec
    refine hbeside.work_of_local henabled.1 (fun _ _ => rfl) hpending rfl ?_ ?_
    · exact notices_le rfl (fun _ => rfl) fun i hi => absurd hi (by rw [goto_self]; exact id)
    · rw [goto_self, hpc]
      show (if told x = [] then s.roundSteps + 2 else 1) < s.roundSteps + 3
      split <;> omega
  · -- or one event is copied, which is then to be pulled
    rename_i hne
    rw [if_neg hne] at hpending
    cases hcopy : s.net.copyTurn y idx with
    | error fault =>
      rw [hcopy] at hexec
      exact absurd hexec (by simp)
    | ok net =>
      rw [hcopy] at hexec
      obtain rfl := Except.ok.inj hexec
      obtain ⟨hown, -, pri, hio⟩ := SchedNet.copyTurn_own hleads hcopy
      refine hbeside.work_of_turn henabled.1 (hpending rfl) ?_ (Nat.le_of_eq (hbeside.stepsLeft _ _))
      have hunpulled : (s.setNet net).unpulled x ≤ s.unpulled x + 1 :=
        sum_le_add List.nodup_range fun p _ => hio p
      have hnotices : (s.setNet net).notices x ≤ s.notices x :=
        notices_le hown.engines (fun _ => rfl) fun _ => id
      omega

/-- A step that only goes on. -/
theorem work_goto (hx : x ∈ s.net.engines) (htold : ∀ y, y ≠ x → told' y = told y)
    (hview : (s.goto x pc).view = s.view) (hnotify : ∀ i, ¬ pc.Notifying i)
    (hleft : (s.goto x pc).stepsLeft (told' x) pc < s.stepsLeft (told x) (s.pc x)) :
    (s.goto x pc).work told' < s.work told := by
  refine beside_goto_self.work_of_local hx htold (congrArg SchedNet.pending hview) rfl ?_
    (by rwa [goto_self])
  exact notices_le rfl (fun _ => rfl) fun i hi => absurd (by rwa [goto_self] at hi) (hnotify i)

/-- **Every step of a thread.** -/
theorem work_step (h : s.Awake) (hknown : s.view.Known) (hserved : s.pc x = .dispatch → told x = [])
    (henabled : s.enabled (.step x)) (hexec : s.step x = .ok s') : s'.work told < s.work told := by
  cases hpc : s.pc x with
  -- these do not step
  | created | poll | stopped => exact absurd henabled.2 (by simp [hpc, SchedPc.steps])
  | timers =>
    simp only [step, hpc] at hexec
    refine work_deliverMsg hknown henabled.1 (fun p => by rw [hpc]; rfl) ?_ hexec
    -- the timers have run
    rw [hpc]
    exact Nat.lt_succ_self _
  | deliver pri delivery => exact work_deliver h hknown hpc henabled hexec
  | notify idx delivery => exact work_notify h hknown hpc henabled hexec
  | pull pri nprocessed => exact work_pull h hknown hpc henabled hexec
  | buffer pri nprocessed events => exact work_buffer h hknown hpc henabled hexec
  | handler pri nprocessed e events =>
    have hbeside := step_beside h hexec
    simp only [step, hpc] at hexec
    obtain rfl := Except.ok.inj hexec
    have hview : ((s.eventDestroy e).goto x (.buffer pri nprocessed events)).view = s.view :=
      view_goto (by rw [eventDestroy_pc, hpc]; rfl)
    refine hbeside.work_of_local henabled.1 (fun _ _ => rfl) (congrArg SchedNet.pending hview) rfl ?_ ?_
    · exact notices_le rfl (fun _ => rfl) fun i hi => absurd hi (by rw [goto_self]; exact id)
    · rw [goto_self, hpc]
      refine Nat.lt_of_le_of_lt (Nat.le_of_eq (hbeside.stepsLeft _ _)) ?_
      show s.restOfRound nprocessed + 1 + 2 * pri + 2 * events.length <
        s.restOfRound nprocessed + 2 + 2 * pri + 2 * events.length
      omega
  | clean nprocessed =>
    simp only [step, hpc] at hexec
    split at hexec
    · rename_i hpos
      -- something was run, so another round begins
      refine work_deliverMsg hknown henabled.1 (fun p => by rw [hpc]; rfl) ?_ hexec
      rw [hpc]
      show s.roundSteps < s.restOfRound nprocessed
      rw [restOfRound, if_neg (Nat.ne_of_gt hpos)]
      exact Nat.lt_succ_self _
    · rename_i hzero
      obtain rfl := Except.ok.inj hexec
      -- nothing was run, and the thread goes to sleep
      refine work_goto henabled.1 (fun _ _ => rfl) (view_goto (by rw [hpc]; rfl)) (fun _ => id) ?_
      rw [hpc]
      show 2 < s.restOfRound nprocessed
      rw [restOfRound, if_pos (Nat.eq_zero_of_not_pos hzero)]
      decide
  | dispatch =>
    simp only [step, hpc] at hexec
    obtain rfl := Except.ok.inj hexec
    refine work_goto henabled.1 (fun _ _ => rfl) (view_goto (by rw [hpc]; split <;> rfl))
      (fun i => ?_) ?_
    · split <;> exact id
    · rw [hpc]
      -- all that it was told of is served
      have hbefore : s.stepsLeft (told x) .dispatch = s.roundSteps + 2 := if_pos (hserved hpc)
      rw [hbefore]
      -- the thread goes on, or to its end
      split
      · show s.roundSteps + 1 < s.roundSteps + 2
        omega
      · exact Nat.succ_pos _
  | copy y idx =>
    have hdrained := h.drained x
    rw [hpc] at hdrained
    exact work_copy h hknown hpc hdrained henabled hexec

/-- A thread starts. -/
theorem work_start (hx : x ∈ s.net.engines) (hpc : s.pc x = .created)
    (hexec : s.exec (.start x) = .ok s') : s'.work told < s.work told := by
  obtain rfl := Except.ok.inj hexec
  have hview : ((s.setRunning x true).goto x .timers).view = s.view :=
    view_goto (by rw [setRunning_pc, hpc]; rfl)
  have hbeside : s.Beside x ((s.setRunning x true).goto x .timers) :=
    ⟨.refl, fun _ hy => goto_of_ne hy, fun _ _ _ => rfl, fun _ => Nat.le_refl _⟩
  refine hbeside.work_of_local hx (fun _ _ => rfl) (congrArg SchedNet.pending hview) rfl ?_ ?_
  · exact notices_le rfl (fun _ => rfl) fun i hi => absurd hi (by rw [goto_self]; exact id)
  · rw [goto_self, hpc]
    exact Nat.lt_succ_self _

/-- A bridge that leads somewhere is one of those that are counted. -/
theorem leads_counted (hstar : s.view.Star) (hleads : s.net.leads y idx x) :
    y ∈ s.net.engines ∧ idx ∈ List.range s.net.engines.length ∧ y ≠ x := by
  obtain ⟨k, hk, hany⟩ := (Option.any_eq_true ..).mp hleads
  obtain ⟨b, hb, hdst⟩ := (Option.any_eq_true ..).mp hany
  have hview : s.view.scheds y = some (k.withBuffer (s.buffers y)) := by
    rw [view, SchedNet.withBuffers_scheds, hk, Option.map_some]
  have hle : k.bridgeTbl.length ≤ s.net.engines.length := by
    have hbridges := hstar.bridges_le hview
    exact hbridges
  have hlt : idx < k.bridgeTbl.length := (List.getElem?_eq_some_iff.mp hb).1
  refine ⟨(hstar.engine y).mp (by rw [hview]; rfl), List.mem_range.mpr (hlt.trans_le hle), ?_⟩
  rintro rfl
  have hmem : b.dst ∈ s.view.links y := by
    rw [← hstar.links y _ hview]
    exact List.mem_map.mpr ⟨b, List.mem_of_getElem? hb, rfl⟩
  rw [of_decide_eq_true hdst] at hmem
  exact SchedNet.not_mem_links s.view y hmem

/-- An eventfd is readable when its counter is not zero. -/
theorem mem_readable (hstar : s.view.Star) {e : Sched × Nat} :
    e ∈ s.readable x ↔ s.net.leads e.1 e.2 x ∧ s.evfd e.1 e.2 ≠ 0 := by
  rw [readable, List.mem_filter, decide_eq_true_iff]
  refine and_iff_right_of_imp fun h => ?_
  obtain ⟨hy, hidx, -⟩ := leads_counted hstar h.1
  exact List.mem_product.mpr ⟨hy, hidx⟩

/-! ### Callbacks -/

/-- The eventfd of the bridge `idx` of `y` is read by `x`, which goes on to copy. -/
def reads (s : SchedThreads) (x y : Sched) (idx : Nat) : SchedThreads :=
  (s.setEvfd y idx 0).goto x (.copy y idx)

/-- One eventfd is read. -/
theorem reads_evfd (z : Sched) (i : Nat) :
    (s.reads x y idx).evfd z i = if z = y ∧ i = idx then 0 else s.evfd z i := by
  rw [reads, goto_evfd, setEvfd_evfd]

/-- The other threads stay where they are. -/
theorem reads_pc {z : Sched} (hz : z ≠ x) : (s.reads x y idx).pc z = s.pc z := by
  rw [reads, goto_of_ne hz, setEvfd_pc]

/-- The bridge has one notice less. -/
theorem reads_armed (hne : s.evfd y idx ≠ 0) (z : Sched) (i : Nat) :
    (s.reads x y idx).armed z i + (if z = y ∧ i = idx then 1 else 0) ≤ s.armed z i := by
  have hlate : (if ((s.reads x y idx).pc z).Notifying i then 1 else 0) ≤
      if (s.pc z).Notifying i then 1 else 0 := by
    by_cases hz : z = x
    · rw [hz, reads, goto_self, if_neg (show ¬ (SchedPc.copy y idx).Notifying i from id)]
      exact Nat.zero_le _
    · rw [reads_pc hz]
  rw [armed, armed, reads_evfd]
  by_cases hzi : z = y ∧ i = idx
  · obtain ⟨rfl, rfl⟩ := hzi
    rw [if_pos (show z = z ∧ i = i from ⟨rfl, rfl⟩), if_pos (show z = z ∧ i = i from ⟨rfl, rfl⟩),
      if_pos hne, if_neg (show ¬ (0 : Nat) ≠ 0 from fun h => h rfl)]
    omega
  · rw [if_neg hzi, if_neg hzi]
    omega

/-- One notice less, for the sender of the bridge. -/
theorem reads_notices (hidx : idx ∈ List.range s.net.engines.length) (hne : s.evfd y idx ≠ 0)
    (z : Sched) : (s.reads x y idx).notices z + (if z = y then 1 else 0) ≤ s.notices z := by
  refine sum_change (x := idx) (y := idx) (b := 0) List.nodup_range hidx fun i _ => ?_
  rw [ite_self, Nat.add_zero]
  refine Nat.le_trans (Nat.add_le_add_left ?_ _) (reads_armed hne z i)
  by_cases hz : z = y
  · by_cases hi : i = idx
    · rw [if_pos hi, if_pos hz, if_pos ⟨hz, hi⟩]
    · rw [if_neg hi]
      exact Nat.zero_le _
  · rw [if_neg hz, ite_self]
    exact Nat.zero_le _

/-- What the other threads have left is the same. -/
theorem reads_stepsLeft (l : List (Sched × Nat)) (pc : SchedPc) :
    (s.reads x y idx).stepsLeft l pc = s.stepsLeft l pc := by
  cases pc <;> rfl

/-- **A callback** takes a notice, which pays for a round of the loops. -/
theorem work_callback (hknown : s.view.Known) (hpc : s.pc x = .dispatch)
    (hleads : s.net.leads y idx x) (hne : s.evfd y idx ≠ 0) (htold : ∀ z, z ≠ x → told' z = told z) :
    (s.copyEvent x y idx).work told' < s.work told := by
  obtain ⟨hy, hidx, hyx⟩ := leads_counted hknown.star hleads
  have hread : s.copyEvent x y idx = s.reads x y idx := if_neg hne
  have hview : (s.reads x y idx).view = s.view := view_goto (by rw [setEvfd_pc, hpc]; rfl)
  have hround : (s.reads x y idx).roundSteps = s.roundSteps := rfl
  have hcost := sum_change (x := x) (y := y) (a := s.roundSteps + 4) (b := s.roundSteps + 2)
    (SchedNet.engines_nodup s.net) hy (f := s.cost told) (g := (s.reads x y idx).cost told') fun z _ => by
      have hmul := Nat.mul_le_mul_left (s.roundSteps + 4)
        (Nat.add_le_add_left (reads_notices (x := x) hidx hne z) (s.unpulled z))
      rw [← Nat.add_assoc, Nat.mul_add, mul_ite, Nat.mul_one, Nat.mul_zero] at hmul
      have hunpulled : (s.reads x y idx).unpulled z = s.unpulled z := rfl
      rw [cost, cost, hunpulled, hround]
      by_cases hz : z = x
      · have hzy : z ≠ y := fun h => hyx (h.symm.trans hz)
        have hafter : (s.reads x y idx).stepsLeft (told' z) ((s.reads x y idx).pc z) =
            s.roundSteps + 3 := by
          rw [hz, reads, goto_self]
          rfl
        -- it may have served all that it was told of
        have hbefore : 1 ≤ s.stepsLeft (told z) (s.pc z) := by
          rw [hz, hpc]
          show 1 ≤ if told x = [] then s.roundSteps + 2 else 1
          split <;> omega
        rw [if_neg hzy] at hmul ⊢
        rw [if_pos hz, hafter]
        omega
      · rw [if_neg hz, reads_stepsLeft, reads_pc hz, htold z hz]
        omega
  have hengines : (s.reads x y idx).net.engines = s.net.engines := rfl
  rw [hread, work, work, hview, hround, hengines]
  omega

/-! ### Prompt steps are possible -/

end SchedThreads

namespace SchedNet

variable {s : SchedNet} {x : Sched} {k : SkSched} {pri : Nat} {p : Place}

/-- A queue holds no more messages than were sent. -/
theorem Known.queue_le (h : s.Known) (hp : p ∈ s.places) : (s.queue p).length ≤ s.sent.length := by
  have hlength := h.once.length_eq
  rw [List.length_range, Queues.line, List.length_flatMap] at hlength
  have hnumber : (s.queue p).length = ((s.queue p).filterMap (number p)).length := by
    have hmap : (s.queue p).filterMap (number p) = (s.queue p).map SkEvent.data :=
      congrFun (List.filterMap_eq_map (f := SkEvent.data)) _
    rw [hmap, List.length_map]
  rw [← hlength, hnumber]
  exact List.single_le_sum (fun _ _ => Nat.zero_le _) _ (List.mem_map.mpr ⟨p, hp, rfl⟩)

/-- While few messages are sent, a delivery finds room. -/
theorem Known.deliver_ok (h : s.Known) (hfew : s.sent.length < schedIoBridgeSz)
    (henabled : s.enabled (.deliver x pri)) : ∃ s', s.exec (.deliver x pri) = .ok s' := by
  have hroom : ∀ k, s.scheds x = some k → ∀ e rest idx k' b, k.ioTbl pri .output = e :: rest →
      s.findBridge (k.ioPull pri .output) e.dst = .ok (some idx, k') →
        k.bridgeTbl[idx]? = some b → b.mq.length < schedIoBridgeSz := by
    intro k hk e rest idx k' b _ _ hb
    have hx : x ∈ s.engines := (h.star.engine x).mp (by rw [hk]; rfl)
    have hlink : (s.links x)[idx]? = some b.dst := by
      rw [← h.star.links x k hk, List.getElem?_map, hb, Option.map_some]
    have hle := h.queue_le (bridge_mem_places hx hlink)
    rw [queue_bridge hk hb] at hle
    exact Nat.lt_of_le_of_lt hle hfew
  obtain ⟨s', hexec, -⟩ := deliver_effect_of_room h.star h.fits hroom henabled
  exact ⟨s', hexec⟩

end SchedNet

namespace SchedThreads

variable {s s' : SchedThreads} {x y : Sched} {pc : SchedPc} {net : SchedNet} {pri idx : Nat}

/-- `_deliver_msg` begins without an abort. -/
theorem deliverMsg_ok (hknown : s.view.Known) (hx : x ∈ s.net.engines) :
    ∃ s', s.deliverMsg x = .ok s' := by
  obtain ⟨k, hk⟩ := Option.isSome_iff_exists.mp ((hknown.star.engine x).mpr hx)
  obtain ⟨l, hl, rfl⟩ := Option.map_eq_some_iff.mp hk
  rw [deliverMsg, SchedNet.sched_eq hl]
  exact ⟨_, rfl⟩

/-- **A step of a thread does not abort** while few messages are sent. -/
theorem step_ok (hknown : s.view.Known) (hfew : s.net.sent.length < schedIoBridgeSz)
    (hx : x ∈ s.net.engines) : ∃ s', s.step x = .ok s' := by
  obtain ⟨k, hk⟩ := Option.isSome_iff_exists.mp ((hknown.star.engine x).mpr hx)
  obtain ⟨l, hl, rfl⟩ := Option.map_eq_some_iff.mp hk
  cases hpc : s.pc x with
  | created | poll | stopped | handler | dispatch =>
    simp only [step, hpc]
    -- no place of these aborts
    exact ⟨_, rfl⟩
  | timers =>
    simp only [step, hpc]
    exact deliverMsg_ok hknown hx
  | clean nprocessed =>
    simp only [step, hpc]
    split
    · exact deliverMsg_ok hknown hx
    · exact ⟨_, rfl⟩
  | notify idx delivery =>
    simp only [step, hpc]
    split <;> exact ⟨_, rfl⟩
  | pull pri nprocessed =>
    simp only [step, hpc, SchedNet.pullEvents, SchedNet.sched_eq hl]
    exact ⟨_, rfl⟩
  | deliver pri delivery =>
    obtain ⟨q, hone⟩ : ∃ q, s.net.deliverOneIo x pri = .ok q := by
      by_cases hon : s.net.enabled (.deliver x pri)
      · -- what is delivered is seen as well, where there is room
        have hview : s.view.enabled (.deliver x pri) := by
          rw [SchedNet.enabled_deliver] at hon ⊢
          rwa [SchedNet.queue_io hk, SkSched.withBuffer_output, ← SchedNet.queue_io hl]
        obtain ⟨t, ht⟩ := hknown.deliver_ok hfew hview
        have hturn : s.view.deliverTurn x pri = .ok t := ht
        rw [SchedNet.deliverTurn_eq, view, SchedNet.withBuffers_deliverOneIo] at hturn
        obtain ⟨r, hr, -⟩ := except_map_ok.mp hturn
        obtain ⟨q, hq, -⟩ := except_map_ok.mp hr
        exact ⟨q, hq⟩
      · -- there is nothing to deliver
        rw [SchedNet.enabled_deliver, not_not, SchedNet.queue_io hl] at hon
        simp only [SchedNet.deliverOneIo, SchedNet.sched_eq hl, bind, Except.bind, hon]
        exact ⟨_, rfl⟩
    obtain ⟨i, net⟩ := q
    simp only [step, hpc, hone]
    cases i <;> exact ⟨_, rfl⟩
  | buffer pri nprocessed events =>
    cases events with
    | nil =>
      simp only [step, hpc]
      exact ⟨_, rfl⟩
    | cons e events =>
      -- what is in the buffer was sent here
      have hmem : e ∈ s.view.queue (.io x pri .input) := by
        have hbuf : s.buffers x pri = e :: events := by
          rw [buffers, hpc]
          exact if_pos rfl
        rw [SchedNet.queue_io hk, SkSched.withBuffer_input, hbuf]
        exact .head _
      have hfits := hknown.fits _ e hmem
      simp only [step, hpc]
      -- so it is for this scheduler
      rw [if_neg (not_not_intro hfits.2.1)]
      exact ⟨_, rfl⟩
  | copy y idx =>
    simp only [step, hpc]
    by_cases hempty : s.net.bridgeMq y idx = []
    · -- there is nothing to copy
      rw [if_pos hempty]
      exact ⟨_, rfl⟩
    · rw [if_neg hempty]
      -- what is copied is seen as well
      have hon : s.view.enabled (.copy y idx) := view_enabled_copy hempty
      obtain ⟨t, ht, -⟩ := SchedNet.copy_effect hknown.star hon
      have hturn : s.view.copyTurn y idx = .ok t := ht
      rw [view, SchedNet.withBuffers_copyTurn] at hturn
      obtain ⟨net, hnet, -⟩ := except_map_ok.mp hturn
      rw [hnet]
      exact ⟨_, rfl⟩

/-! ### What an action leaves -/

/-- The bridges lead where they did, and an eventfd stays readable until its callback runs. -/
theorem exec_evfd (h : s.Awake) {a : ThreadAction} (hexec : s.exec a = .ok s') :
    (∀ y idx z, s'.net.leads y idx z = s.net.leads y idx z) ∧
      ∀ y idx, (∀ x, a ≠ .callback x y idx) → s.evfd y idx ≤ s'.evfd y idx := by
  cases a with
  | send src dst ptoId =>
    simp only [exec] at hexec
    cases hsend : s.net.schedSend src dst ptoId with
    | error fault =>
      rw [hsend] at hexec
      exact absurd hexec (by simp)
    | ok net =>
      rw [hsend] at hexec
      obtain rfl := Except.ok.inj hexec
      -- the message is put to a queue
      exact ⟨(SchedNet.schedSend_own hsend).1.leads, fun _ _ _ => Nat.le_refl _⟩
  | start | wake | stop =>
    -- neither touches an eventfd
    obtain rfl := Except.ok.inj hexec
    exact ⟨fun _ _ _ => rfl, fun _ _ _ => Nat.le_refl _⟩
  | step x =>
    have hbeside := step_beside h hexec
    refine ⟨hbeside.own.leads, fun y idx _ => ?_⟩
    by_cases hy : y = x
    · rw [hy]
      exact hbeside.counts idx
    · rw [hbeside.evfd y hy]
  | callback x y idx =>
    obtain rfl := Except.ok.inj hexec
    rw [copyEvent]
    split
    · exact ⟨fun _ _ _ => rfl, fun _ _ _ => Nat.le_refl _⟩
    · refine ⟨fun _ _ _ => rfl, fun z i hne => ?_⟩
      rw [goto_evfd, setEvfd_evfd, if_neg]
      rintro ⟨rfl, rfl⟩
      exact hne x rfl

/-- **All is done**: each thread is asleep or at its end, and when none is at its end all messages
    were handled. -/
structure Settled (s : SchedThreads) : Prop where
  threads : ∀ x ∈ s.net.engines, s.Asleep x ∨ s.pc x = .stopped
  messages : (∀ x ∈ s.net.engines, s.pc x ≠ .stopped) →
    s.net.handledIds.Perm (List.range s.net.sent.length)

end SchedThreads

/-! ### What the event loops are told -/

/-- The threads, and the eventfds that were readable when a thread woke up and that it has not
    served since. -/
structure PolledThreads where
  threads : SchedThreads
  told : Sched → List (Sched × Nat)

namespace PolledThreads

variable {p p' : PolledThreads} {a : ThreadAction} {x : Sched}

/-- A wake-up tells of the eventfds that are readable, and a callback serves one. -/
def toldAfter (p : PolledThreads) : ThreadAction → Sched → List (Sched × Nat)
  | .wake x => Function.update p.told x (p.threads.readable x)
  | .callback x y idx => Function.update p.told x ((p.told x).filter (· ≠ (y, idx)))
  | .send .. | .start _ | .step _ | .stop _ => p.told

/-- Nothing is sent or stopped.  A thread wakes up when an eventfd is readable, runs callbacks of
    those that are, and goes on when it has served those that were. -/
def Prompt (p : PolledThreads) : ThreadAction → Prop
  | .send .. | .stop _ => False
  | .start _ => True
  | .step x => p.threads.pc x = .dispatch → p.told x = []
  | .wake x => p.threads.readable x ≠ []
  | .callback _ y idx => p.threads.evfd y idx ≠ 0

/-- A callback is one that the thread was told of. -/
def Serves (p : PolledThreads) : ThreadAction → Prop
  | .callback x y idx => (y, idx) ∈ p.told x
  | .send .. | .start _ | .step _ | .wake _ | .stop _ => True

/-- The runs without a timeout. -/
def machine : Machine PolledThreads ThreadAction SchedFault where
  init p := SchedThreads.machine.init p.threads ∧ ∀ x, p.told x = []
  enabled p a := p.threads.enabled a ∧ p.Prompt a
  exec p a := (p.threads.exec a).map fun threads => { threads, told := p.toldAfter a }

/-- What a thread has yet to serve was readable when it woke up, and it has not served it. -/
theorem mem_toldAfter {e : Sched × Nat} (h : e ∈ p.toldAfter a x) :
    (a = .wake x ∧ e ∈ p.threads.readable x) ∨
      (e ∈ p.told x ∧ ∀ y idx, a = .callback x y idx → e ≠ (y, idx)) := by
  cases a with
  | send | start | step | stop => exact .inr ⟨h, fun y idx heq => absurd heq (by simp)⟩
  | wake z =>
    rw [toldAfter, Function.update_apply] at h
    split at h
    · rename_i hx
      exact .inl ⟨by rw [hx], hx ▸ h⟩
    · exact .inr ⟨h, fun y idx heq => absurd heq (by simp)⟩
  | callback z w i =>
    rw [toldAfter, Function.update_apply] at h
    split at h
    · rename_i hx
      obtain ⟨hin, hne⟩ := List.mem_filter.mp h
      refine .inr ⟨hx ▸ hin, fun y idx heq => ?_⟩
      obtain ⟨-, rfl, rfl⟩ := ThreadAction.callback.inj heq
      exact of_decide_eq_true hne
    · rename_i hx
      refine .inr ⟨h, fun y idx heq => absurd (ThreadAction.callback.inj heq).1.symm hx⟩

/-- **Such a run** is one of the threads. -/
theorem path_threads {run : List (ThreadAction × PolledThreads)} (hrun : machine.Path p run) :
    SchedThreads.machine.Path p.threads (run.map fun q => (q.1, q.2.threads)) := by
  induction run generalizing p with
  | nil => trivial
  | cons q run ih =>
    obtain ⟨a, p'⟩ := q
    obtain ⟨henabled, hexec, hrun⟩ := hrun
    obtain ⟨threads, hthreads, rfl⟩ := except_map_ok.mp hexec
    exact ⟨henabled.1, hthreads, ih hrun⟩

/-- What is known of the states from which the threads come to rest. -/
structure Settling (p : PolledThreads) : Prop where
  awake : p.threads.Awake
  known : p.threads.view.Known
  few : p.threads.net.sent.length < schedIoBridgeSz
  told : ∀ x, p.told x ⊆ p.threads.readable x

/-- Prompt steps send nothing. -/
theorem Prompt.sent (hprompt : p.Prompt a) {s' : SchedThreads} (hknown : p.threads.view.Known)
    (henabled : p.threads.enabled a) (hexec : p.threads.exec a = .ok s') :
    s'.view.Known ∧ s'.net.sent = p.threads.net.sent := by
  have hview := SchedThreads.view_exec hknown.star henabled hexec
  cases hturn : p.threads.turn a with
  | none =>
    rw [hturn] at hview
    have hsame : s'.view = p.threads.view := hview
    have hsent : s'.view.sent = p.threads.view.sent := by rw [hsame]
    exact ⟨hsame ▸ hknown, hsent⟩
  | some b =>
    rw [hturn] at hview
    obtain ⟨hknown', -, heffect⟩ := hknown.step_ok hview.1 hview.2
    refine ⟨hknown', ?_⟩
    cases heffect with
    | deliver hx hlink hdst hop hhandled => exact hop.sent
    | copy hx hlink hop hhandled => exact hop.sent
    | run hx hop hhandled => exact hop.sent
    | send hsrc hdst hqueue hsent hhandled =>
      -- only a sender has such a turn
      cases a with
      | send => exact absurd hprompt id
      | step x =>
        simp only [SchedThreads.turn] at hturn
        split at hturn
        · split at hturn <;> simp at hturn
        · exact absurd hturn (by simp)
        · split at hturn <;> simp at hturn
        all_goals exact absurd hturn (by simp)
      | start | wake | callback | stop => exact absurd hturn (by simp [SchedThreads.turn])

/-- **A prompt step** keeps what is known. -/
theorem Settling.exec (h : p.Settling) (henabled : machine.enabled p a)
    (hexec : machine.exec p a = .ok p') : p'.Settling := by
  obtain ⟨s', hs', rfl⟩ := except_map_ok.mp hexec
  obtain ⟨henabled, hprompt⟩ := henabled
  obtain ⟨hknown, hsent⟩ := hprompt.sent h.known henabled hs'
  obtain ⟨hleads, hcounts⟩ := SchedThreads.exec_evfd h.awake hs'
  refine ⟨h.awake.exec henabled hs', hknown, ?_, fun x e he => ?_⟩
  · show s'.net.sent.length < schedIoBridgeSz
    rw [hsent]
    exact h.few
  · obtain ⟨y, idx⟩ := e
    have hbefore : (y, idx) ∈ p.threads.readable x := by
      rcases mem_toldAfter he with ⟨-, hread⟩ | ⟨hold, -⟩
      · exact hread
      · exact h.told x hold
    obtain ⟨hlead, hne⟩ := (SchedThreads.mem_readable h.known.star).mp hbefore
    refine (SchedThreads.mem_readable hknown.star).mpr ⟨by rwa [hleads], ?_⟩
    have hother : ∀ z, a ≠ .callback z y idx := by
      rintro z rfl
      -- only the thread that it leads to runs its callback, and has served it then
      obtain rfl : x = z := SchedNet.leads_unique hlead henabled.2.2
      rcases mem_toldAfter (p := p) (a := .callback x y idx) he with ⟨hwake, -⟩ | ⟨-, hserved⟩
      · exact absurd hwake (by simp)
      · exact hserved y idx rfl rfl
    exact Nat.ne_of_gt (Nat.lt_of_lt_of_le (Nat.pos_of_ne_zero hne) (hcounts y idx hother))

/-- **Every prompt step makes the measure smaller.** -/
theorem Settling.work_lt (h : p.Settling) (henabled : machine.enabled p a)
    (hexec : machine.exec p a = .ok p') : p'.threads.work p'.told < p.threads.work p.told := by
  obtain ⟨s', hs', rfl⟩ := except_map_ok.mp hexec
  obtain ⟨henabled, hprompt⟩ := henabled
  cases a with
  | send | stop => exact absurd hprompt id
  | start x => exact SchedThreads.work_start henabled.1 henabled.2 hs'
  | step x => exact SchedThreads.work_step h.awake h.known hprompt henabled hs'
  | wake x =>
    obtain rfl := Except.ok.inj hs'
    refine SchedThreads.work_goto henabled.1 (fun _ hy => Function.update_of_ne hy _ _)
      (SchedThreads.view_goto (by rw [henabled.2]; rfl)) (fun _ => id) ?_
    rw [henabled.2]
    -- the event loop wakes up to run a callback
    have htold : p.toldAfter (.wake x) x = p.threads.readable x := Function.update_self ..
    show (if p.toldAfter (.wake x) x = [] then _ else 1) < 2
    rw [htold, if_neg hprompt]
    decide
  | callback x y idx =>
    obtain rfl := Except.ok.inj hs'
    exact SchedThreads.work_callback h.known henabled.2.1 henabled.2.2 hprompt fun _ hz =>
      Function.update_of_ne hz _ _

/-- **A thread that is neither asleep nor at its end** can go on without a timeout. -/
theorem Settling.exists_prompt (h : p.Settling) (hx : x ∈ p.threads.net.engines)
    (hasleep : ¬ p.threads.Asleep x) (hstopped : p.threads.pc x ≠ .stopped) :
    ∃ a p', machine.enabled p a ∧ p.Serves a ∧ machine.exec p a = .ok p' := by
  have hgo : ∀ a s', p.threads.enabled a → p.Prompt a → p.Serves a → p.threads.exec a = .ok s' →
      ∃ a p', machine.enabled p a ∧ p.Serves a ∧ machine.exec p a = .ok p' := by
    intro a s' henabled hprompt hserves hexec
    exact ⟨a, _, ⟨henabled, hprompt⟩, hserves, except_map_ok.mpr ⟨s', hexec, rfl⟩⟩
  have hstep : (p.threads.pc x).steps → (p.threads.pc x = .dispatch → p.told x = []) →
      ∃ a p', machine.enabled p a ∧ p.Serves a ∧ machine.exec p a = .ok p' := by
    intro hsteps hserved
    obtain ⟨s', hexec⟩ := SchedThreads.step_ok h.known h.few hx
    exact hgo (.step x) s' ⟨hx, hsteps⟩ hserved trivial hexec
  cases hpc : p.threads.pc x with
  | created => exact hgo (.start x) _ ⟨hx, hpc⟩ trivial trivial rfl
  | poll =>
    -- an eventfd is readable, or it would be asleep
    refine hgo (.wake x) _ ⟨hx, hpc⟩ (fun hnone => hasleep ⟨hpc, fun y idx hleads => ?_⟩) trivial rfl
    by_contra hne
    have hin := (SchedThreads.mem_readable h.known.star (e := (y, idx))).mpr ⟨hleads, hne⟩
    exact List.not_mem_nil (hnone ▸ hin)
  | dispatch =>
    by_cases htold : p.told x = []
    · exact hstep (by rw [hpc]; rfl) fun _ => htold
    · obtain ⟨⟨y, idx⟩, hin⟩ := List.exists_mem_of_ne_nil _ htold
      obtain ⟨hleads, hne⟩ := (SchedThreads.mem_readable h.known.star).mp (h.told x hin)
      exact hgo (.callback x y idx) _ ⟨hx, hpc, hleads⟩ hne hin rfl
  | stopped => exact absurd hpc hstopped
  | timers | deliver | notify | pull | buffer | handler | clean | copy =>
    exact hstep (by rw [hpc]; rfl) (by simp [hpc])

/-- Where no prompt step is possible, all is done. -/
theorem Settling.settled (h : p.Settling)
    (hnone : ¬ ∃ a p', machine.enabled p a ∧ p.Serves a ∧ machine.exec p a = .ok p') :
    p.threads.Settled := by
  have hthreads : ∀ x ∈ p.threads.net.engines,
      p.threads.Asleep x ∨ p.threads.pc x = .stopped := by
    intro x hx
    by_contra hcon
    obtain ⟨hasleep, hstopped⟩ := not_or.mp hcon
    exact hnone (h.exists_prompt hx hasleep hstopped)
  refine ⟨hthreads, fun hall => ?_⟩
  have hasleep : ∀ x ∈ p.threads.net.engines, p.threads.Asleep x := fun x hx =>
    (hthreads x hx).resolve_right (hall x hx)
  exact h.known.routed.quiet (h.awake.idle h.known hasleep)

end PolledThreads

namespace SchedThreads

variable {s : SchedThreads} {told : Sched → List (Sched × Nat)}

/-! ### Every run -/

/-- **All is handled without a timeout.** After any run in which fewer messages were sent than a
    bridge takes, and whatever readable eventfds the threads have been told of, when nothing more is
    sent every run of prompt steps is bounded, it can go on until each thread is asleep or at its
    end, and then, when none was stopped, all messages that were sent have been handled. -/
theorem settles {run : List (ThreadAction × SchedThreads)} (hinit : machine.init s)
    (hrun : machine.Path s run) (hfew : (Machine.last s run).net.sent.length < schedIoBridgeSz)
    (htold : ∀ x, told x ⊆ (Machine.last s run).readable x) :
    (∀ p, PolledThreads.machine.Path ⟨Machine.last s run, told⟩ p →
      machine.Path (Machine.last s run) (p.map fun q => (q.1, q.2.threads)) ∧
      p.length ≤ (Machine.last s run).work told ∧
      ((Machine.last ⟨Machine.last s run, told⟩ p).threads.Settled ∨
        ∃ a t, PolledThreads.machine.enabled (Machine.last ⟨Machine.last s run, told⟩ p) a ∧
          (Machine.last ⟨Machine.last s run, told⟩ p).Serves a ∧
          PolledThreads.machine.exec (Machine.last ⟨Machine.last s run, told⟩ p) a = .ok t)) ∧
    ∃ p, PolledThreads.machine.Path ⟨Machine.last s run, told⟩ p ∧
      Machine.StepsMeet PolledThreads.Serves ⟨Machine.last s run, told⟩ p ∧
      (Machine.last ⟨Machine.last s run, told⟩ p).threads.Settled := by
  have hreach := hrun.last_reach (.init hinit) (Machine.stepsMeet_any run s)
  have hstart : PolledThreads.Settling ⟨Machine.last s run, told⟩ :=
    ⟨Reach.awake hreach, Reach.known hreach, hfew, htold⟩
  have hnext : ∀ p : PolledThreads, p.Settling → ¬ p.threads.Settled → ∃ a t,
      PolledThreads.machine.enabled p a ∧ p.Serves a ∧ PolledThreads.machine.exec p a = .ok t := by
    intro p hp hnot
    by_contra hnone
    exact hnot (hp.settled hnone)
  have hless : ∀ (p : PolledThreads) a t, p.Settling → PolledThreads.machine.enabled p a →
      PolledThreads.machine.exec p a = .ok t → t.threads.work t.told < p.threads.work p.told :=
    fun p a t hp he hx => hp.work_lt he hx
  refine ⟨fun p hp => ⟨PolledThreads.path_threads hp, ?_, ?_⟩, ?_⟩
  · exact hp.length_le (C := Machine.anyStep) (f := fun p => p.threads.work p.told)
      (fun p a t hp he hx => hp.exec he hx) (fun p a t hp he _ hx => hless p a t hp he hx) hstart
      (Machine.stepsMeet_any p _)
  · by_cases hsettled : (Machine.last ⟨Machine.last s run, told⟩ p).threads.Settled
    · exact .inl hsettled
    · exact .inr (hnext _ (hp.last_invariant (fun p a t hp he hx => hp.exec he hx) hstart) hsettled)
  · exact Machine.exists_path_last (f := fun p : PolledThreads => p.threads.work p.told)
      (fun p a t hp he hx => hp.exec he hx) (fun p a t hp he _ hx => hless p a t hp he hx) hnext
      hstart

/-- The master sends a message before the threads start. -/
def sentFirst : List (ThreadAction × SchedThreads) :=
  machine.trace (setup (SchedNet.core 2 1)) [.send .master none .tcpAccept, .start .master,
    .start (.worker 0), .send .master (some (.worker 1)) .svcTaskRun]

/-- Two messages are sent, one of them before the threads start, and are handled. -/
theorem sentFirst_settles :
    (Machine.last (setup (SchedNet.core 2 1)) sentFirst).net.sent.length = 2 ∧
      ∃ p, PolledThreads.machine.Path
          ⟨Machine.last (setup (SchedNet.core 2 1)) sentFirst, fun _ => []⟩ p ∧
        (Machine.last ⟨Machine.last (setup (SchedNet.core 2 1)) sentFirst, fun _ => []⟩
          p).threads.Settled := by
  have hpath : machine.Path (setup (SchedNet.core 2 1)) sentFirst := machine.trace_path _ _
  obtain ⟨-, p, hp, -, hsettled⟩ := settles
    ⟨_, SchedNet.core_init (by decide) (by decide +kernel), rfl⟩ hpath (by decide +kernel)
    fun _ => List.nil_subset _
  exact ⟨by decide +kernel, p, hp, hsettled⟩

end SchedThreads

end Skull
