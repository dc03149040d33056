import Skull.Lib.Machine
import Skull.Service.Batch

namespace Skull

open Machines

/-!
# The room of a task queue

The queue that `_sk_service_data_create` makes, under pushes, pulls of any number of slots and
state changes in any order:

* `queueMachine` — these runs; a failed assertion of the queue aborts them;
* `Queue.Roomy` — the invariant: every buffer fits its limit and holds elements for it;
* `Queue.pull_roomy` — a pull of any number of slots keeps it;
* `queue_room` — in every reached state a push is refused exactly when the buffer of its element
  holds `max_slots` elements, and otherwise appends the element; no assertion fails, and the new
  size is computed without overflow.
-/

variable {α : Type} [QueueElem α]

/-! ### The machine -/

/-- The `max_queue_size` of `_sk_service_data_create`, for elements of `elemSz` bytes. -/
def queueSlots (elemSz : Nat) (maxQsize : Int) : Nat :=
  let limitation := (sizeTMod - 1) / elemSz
  if maxQsize > 0 then
    if maxQsize.toNat > limitation then limitation else maxQsize.toNat
  else srvMaxTask

/-- What happens to a queue. -/
inductive QueueAction (α : Type)
  | push (elem : α)
  | pull (maxSlots : Nat)
  | setState (state : QueueState)

/-- What the callers keep to: reads and writes are pushed, at least one slot is pulled, and the
    state is one of a started queue. -/
def QueueAction.Allowed : QueueAction α → Prop
  | .push elem => elemType elem = .read ∨ elemType elem = .write
  | .pull maxSlots => 1 ≤ maxSlots
  | .setState state => state.Started

/-- The queues of the services, with elements of `elemSz` bytes. -/
def queueMachine (elemSz : Nat) (maxQsize : Int) : Machine (Queue α) (QueueAction α) QueueFault where
  init q := ∃ mode : QueueMode, (mode = .rwPr ∨ mode = .rwPw) ∧
    Queue.create mode elemSz 0 (queueSlots elemSz maxQsize) = .ok (some q)
  enabled _ a := a.Allowed
  exec q
    | .push elem => (q.push elem).map Prod.snd
    | .pull maxSlots => (q.pull maxSlots).map Prod.snd
    | .setState state => q.setState state

namespace Queue

variable {q : Queue α} {x : α}

/-- What a push of `x` does: it is refused when the buffer of the element is full, and appends it
    otherwise; either way the new size can be computed with. -/
structure PushesRoom (q : Queue α) (x : α) : Prop where
  full : (q.data.bufferFor x).elems.length = q.maxSlots → q.push x = .ok (true, q)
  room : (q.data.bufferFor x).elems.length ≠ q.maxSlots →
    ∃ d, q.data.Push x d ∧ q.push x = .ok (false, { q with data := d })
  exact : (q.data.bufferFor x).PushExact q.maxSlots q.elemSz

/-! ### The invariant -/

/-- **The invariant** of a queue in use. -/
structure Roomy (q : Queue α) : Prop where
  readWrite : q.data.ReadWrite
  sized : q.Sized
  started : q.state.Started

/-- A queue in use holds what its pushes put into it. -/
theorem Roomy.held (h : q.Roomy) : q.Held where
  readWrite := h.readWrite
  elemSz := h.sized.elemSz
  maxSlots := h.sized.maxSlots
  atMost := by
    have hsz := h.sized.elemSz
    have hfits := h.sized.fits
    revert hfits
    cases q.data with
    | exclusive mq => exact fun hfits => hfits.length_le hsz
    | rwPw mq => exact fun hfits => hfits.length_le hsz
    | rwPr rmq wmq => exact fun hfits => ⟨hfits.1.length_le hsz, hfits.2.length_le hsz⟩

/-- The buffer of an element fits its limit. -/
theorem Roomy.bufferFor_fits (h : q.Roomy) (x : α) :
    (q.data.bufferFor x).Fits q.elemSz q.maxSlots := by
  have hfits := h.sized.fits
  revert hfits
  cases q.data with
  | exclusive mq => exact id
  | rwPw mq => exact id
  | rwPr rmq wmq =>
    intro hfits
    by_cases hx : elemType x = .read
    · simpa only [QueueData.bufferFor, if_pos hx] using hfits.1
    · simpa only [QueueData.bufferFor, if_neg hx] using hfits.2

/-- Another content that fits keeps the invariant. -/
theorem Roomy.withData (h : q.Roomy) {d : QueueData α} (hd : d.ReadWrite)
    (hfits : d.Fits q.elemSz q.maxSlots) : Roomy { q with data := d } :=
  ⟨hd, ⟨h.sized.elemSz, h.sized.maxSlots, h.sized.limit, hfits⟩, h.started⟩

/-- Less at the front keeps the invariant. -/
theorem Roomy.dropFront (h : q.Roomy) (k : Nat) :
    Roomy { q with data := q.data.dropFront k } := by
  refine h.withData (h.held.dropFront .idle k).readWrite ?_
  have hfits := h.sized.fits
  revert hfits
  cases q.data with
  | exclusive mq => exact fun hfits => hfits.drop k
  | rwPw mq => exact fun hfits => hfits.drop k
  | rwPr rmq wmq => exact fun hfits => ⟨hfits.1.drop k, hfits.2⟩

/-! ### Its steps -/

/-- A pull under a writer takes nothing. -/
theorem pull_writing (h : q.Held) {n : Nat} (hn : n ≠ 0) (hst : q.state = .write) :
    q.pull n = .ok ([], q) := by
  obtain ⟨state, elemSz, maxSlots, data⟩ := q
  obtain rfl : state = .write := hst
  cases data with
  | exclusive mq => exact absurd h.readWrite (by simp [QueueData.ReadWrite])
  | rwPw mq => simp [pull, hn, pullRwPw, Except.map]
  | rwPr rmq wmq => simp [pull, hn, pullRwPr, Except.map]

/-- **A pull** of any number of slots never aborts, and keeps the invariant. -/
theorem pull_roomy (h : q.Roomy) {n : Nat} (hn : n ≠ 0) :
    ∃ pulled d, q.pull n = .ok (pulled, { q with data := d }) ∧
      Roomy { q with data := d } := by
  rcases h.started with hst | hst | hst
  · by_cases hfront : ∃ x rest, q.data.front = x :: rest ∧ elemType x = .read
    · exact ⟨_, _, pull_front h.held hn (.inr ⟨hst, hfront⟩), h.dropFront _⟩
    · rw [pull_write h.held hn hst fun x rest hx hread => hfront ⟨x, rest, hx, hread⟩]
      obtain ⟨r, hpull, hone⟩ := pull_one h.readWrite (.inl hst) h.sized.maxSlots
      cases hone with
      | blocked => exact ⟨_, q.data, hpull, h⟩
      | popped hpop =>
        exact ⟨_, _, hpull, h.withData (hpop.readWrite h.readWrite) (hpop.fits h.sized.fits)⟩
  · exact ⟨_, _, pull_front h.held hn (.inl hst), h.dropFront _⟩
  · exact ⟨_, q.data, pull_writing h.held hn hst, h⟩

/-- **A push** is refused exactly when the buffer of its element is full. -/
theorem push_room (h : q.Roomy) (hx : elemType x = .read ∨ elemType x = .write) :
    q.PushesRoom x := by
  have hfits := h.bufferFor_fits x
  have hexact : (q.data.bufferFor x).PushExact q.maxSlots q.elemSz := by
    refine (Fmbuf.newSize_spec hfits h.sized.elemSz h.sized.maxSlots h.sized.limit ?_).1
    rcases Nat.eq_or_lt_of_le (hfits.length_le h.sized.elemSz) with hlen | hlen
    · exact .inl hlen
    · exact .inr (Fmbuf.room hlen)
  rcases push_cases h.readWrite h.sized hx with ⟨hlen, hpush⟩ | ⟨d, hlen, hd, -, hpush⟩
  · exact ⟨fun _ => hpush, fun hne => absurd hlen hne, hexact⟩
  · exact ⟨fun heq => absurd heq (Nat.ne_of_lt hlen), fun _ => ⟨d, hd, hpush⟩, hexact⟩

end Queue

section Runs

open Queue

variable {elemSz : Nat} {maxQsize : Int} {q : Queue α} {a : QueueAction α}

/-- No action that is allowed aborts, and each keeps the invariant and the number of slots. -/
theorem queueMachine_step (h : q.Roomy) (ha : a.Allowed) :
    ∃ q', (queueMachine elemSz maxQsize).exec q a = .ok q' ∧ q'.Roomy ∧
      q'.maxSlots = q.maxSlots := by
  cases a with
  | push x =>
    rcases push_cases h.readWrite h.sized ha with ⟨-, hpush⟩ | ⟨d, -, hd, hfits, hpush⟩
    · exact ⟨q, by simp [queueMachine, hpush, Except.map], h, rfl⟩
    · exact ⟨_, by simp [queueMachine, hpush, Except.map],
        h.withData (hd.readWrite h.readWrite) hfits, rfl⟩
  | pull n =>
    obtain ⟨pulled, d, hpull, hq⟩ := pull_roomy h (Nat.ne_of_gt ha)
    exact ⟨_, by simp [queueMachine, hpull, Except.map], hq, rfl⟩
  | setState st =>
    have hset : q.setState st = .ok { q with state := st } := by
      have hlock : st ≠ .lock := by
        rcases ha with rfl | rfl | rfl <;> decide
      have hrw := h.readWrite
      obtain ⟨state, elemSz, maxSlots, data⟩ := q
      cases data with
      | exclusive mq => exact absurd hrw (by simp [QueueData.ReadWrite])
      | rwPw mq => simp [setState, hlock]
      | rwPr rmq wmq => simp [setState, hlock]
    have hsized : Sized { q with state := st } :=
      ⟨h.sized.elemSz, h.sized.maxSlots, h.sized.limit, h.sized.fits⟩
    exact ⟨_, hset, ⟨h.readWrite, hsized, ha⟩, rfl⟩

/-- The slots of a service's queue: some, and no more than a C `int` counts. -/
theorem queueSlots_bounds (hsz : 0 < elemSz) (hlt : elemSz < 2 ^ 32) (hmax : maxQsize < 2 ^ 31) :
    0 < queueSlots elemSz maxQsize ∧ queueSlots elemSz maxQsize < 2 ^ 31 := by
  have hmod : sizeTMod = 2 ^ 64 := rfl
  have hlim : 2 ^ 31 ≤ (sizeTMod - 1) / elemSz := by
    rw [Nat.le_div_iff_mul_le hsz]
    calc 2 ^ 31 * elemSz ≤ 2 ^ 31 * 2 ^ 32 := Nat.mul_le_mul_left _ (Nat.le_of_lt hlt)
      _ ≤ sizeTMod - 1 := by decide
  simp only [queueSlots, srvMaxTask]
  split
  · split <;> omega
  · omega

/-- The new queue has the invariant. -/
theorem queueMachine_init (hsz : 0 < elemSz) (hlt : elemSz < 2 ^ 32) (hmax : maxQsize < 2 ^ 31)
    (hq : (queueMachine elemSz maxQsize).init q) :
    q.Roomy ∧ q.maxSlots = queueSlots elemSz maxQsize := by
  obtain ⟨mode, hmode, hcreate⟩ := hq
  obtain ⟨hpos, hle⟩ := queueSlots_bounds hsz hlt hmax
  set n := queueSlots elemSz maxQsize with hn
  -- the size of the buffer does not overflow
  have hlim : n * elemSz < Fmbuf.sizeLimit := by
    calc n * elemSz < 2 ^ 31 * 2 ^ 32 := Nat.mul_lt_mul'' hle hlt
      _ = Fmbuf.sizeLimit := by decide
  -- so the slots that it has are those that were asked for
  have hcut : elemSz * n % sizeTMod / n = elemSz := by
    rw [Nat.mul_comm, Nat.mod_eq_of_lt (Nat.lt_trans hlim (by decide)), Nat.mul_comm,
      Nat.mul_div_cancel _ hpos]
  have hfits : ∀ slots, slots ≤ n →
      Fmbuf.Fits elemSz n (Fmbuf.create (elemSz * slots) : Fmbuf α) := by
    intro slots hs
    refine ⟨by simp [Fmbuf.used, Fmbuf.create], ?_⟩
    rw [Nat.mul_comm]
    exact Nat.mul_le_mul_right _ hs
  have hne : ¬ (n = 0 ∨ 0 > n) := by omega
  -- one buffer, or one for each kind
  rcases hmode with rfl | rfl
  · simp only [Queue.create, hne, hcut, if_false, ne_eq, not_true_eq_false, Except.ok.injEq,
      Option.some.injEq] at hcreate
    subst hcreate
    exact ⟨⟨by simp [QueueData.ReadWrite, Fmbuf.create],
      ⟨hsz, hpos, hlim, hfits 0 (by omega), hfits 1 hpos⟩, .inl rfl⟩, rfl⟩
  · simp only [Queue.create, hne, hcut, if_false, ne_eq, not_true_eq_false, Except.ok.injEq,
      Option.some.injEq] at hcreate
    subst hcreate
    exact ⟨⟨by simp [QueueData.ReadWrite, Fmbuf.create], ⟨hsz, hpos, hlim, hfits 0 (by omega)⟩,
      .inl rfl⟩, rfl⟩

/-- Every queue that is reached has the invariant. -/
theorem queueMachine_roomy (hsz : 0 < elemSz) (hlt : elemSz < 2 ^ 32) (hmax : maxQsize < 2 ^ 31)
    (hq : (queueMachine elemSz maxQsize).Reach Machine.anyStep q) :
    q.Roomy ∧ q.maxSlots = queueSlots elemSz maxQsize := by
  refine hq.invariant (I := fun q => q.Roomy ∧ q.maxSlots = queueSlots elemSz maxQsize)
    (fun _ hinit => queueMachine_init hsz hlt hmax hinit) ?_
  rintro s a t ⟨hs, hslots⟩ ha - hx
  obtain ⟨q', hexec, hroomy, hsame⟩ := queueMachine_step hs ha
  obtain rfl : q' = t := Except.ok.inj (hexec.symm.trans hx)
  exact ⟨hroomy, hsame.trans hslots⟩

/-- **The capacity of a queue.** In every state that a service's queue reaches, no allowed action
    fails an assertion, and a push is refused exactly when the buffer its element goes to holds
    `max_slots` elements; it leaves the queue alone then, and appends the element otherwise. -/
theorem queue_room (hsz : 0 < elemSz) (hlt : elemSz < 2 ^ 32) (hmax : maxQsize < 2 ^ 31)
    (hq : (queueMachine elemSz maxQsize).Reach Machine.anyStep q) :
    q.maxSlots = queueSlots elemSz maxQsize ∧
    (∀ a : QueueAction α, a.Allowed → ∃ q', (queueMachine elemSz maxQsize).exec q a = .ok q') ∧
    ∀ x, elemType x = .read ∨ elemType x = .write → q.PushesRoom x := by
  obtain ⟨h, hslots⟩ := queueMachine_roomy hsz hlt hmax hq
  refine ⟨hslots, fun a ha => ?_, fun x hx => push_room h hx⟩
  obtain ⟨q', hexec, -⟩ := queueMachine_step h ha
  exact ⟨q', hexec⟩

end Runs

/-- The queue of a service with one slot, which a read has filled. -/
def filledQueue : Queue SrvTask :=
  { state := .idle, elemSz := srvTaskSize, maxSlots := 1
    data := .rwPw ⟨srvTaskSize, [Queue.waitingTask .read]⟩ }

/-- A full queue refuses. -/
theorem filledQueue_refuses : filledQueue.push (Queue.waitingTask .write) = .ok (true, filledQueue) := by
  have hempty : (queueMachine (α := SrvTask) srvTaskSize 1).Reach Machine.anyStep
      { filledQueue with data := .rwPw (Fmbuf.create 0) } := .init ⟨.rwPw, .inr rfl, rfl⟩
  have hfilled : (queueMachine (α := SrvTask) srvTaskSize 1).Reach Machine.anyStep filledQueue :=
    .step (a := .push (Queue.waitingTask .read)) hempty (.inl rfl) trivial rfl
  obtain ⟨-, -, hroom⟩ := queue_room (by decide) (by decide) (by decide) hfilled
  exact (hroom (Queue.waitingTask .write) (.inr rfl)).full rfl

end Skull
