import Skull.Service.Capacity

namespace Skull

/-!
# The policies of a readers–writer queue

What a push and a pull of one slot do to a queue in `rwPw` or `rwPr` mode, said once:

* `QueueData.Push`, `Queue.push_spec` — a push adds the element to the buffer for its type, or
  is refused;
* `QueueData.Pop` — which element a policy gives away: the oldest one (`rwPw`), or the oldest
  read, and the oldest write only when no read waits (`rwPr`);
* `Queue.pull_one` — a pull of one slot pops by the policy, and gives nothing away only when
  nothing may start (`Queue.Blocked`).
-/

variable {α : Type} [QueueElem α]

/-- `d.Pop x d'`: by the policy of the queue, `x` is the next element of `d`, and `d'` is left. -/
inductive QueueData.Pop : QueueData α → α → QueueData α → Prop
  | rwPw {size : Nat} {x : α} {rest : List α} :
      Pop (.rwPw ⟨size, x :: rest⟩) x (.rwPw ⟨size, rest⟩)
  | rwPrRead {size : Nat} {x : α} {rest : List α} {wmq : Fmbuf α} (hx : elemType x = .read) :
      Pop (.rwPr ⟨size, x :: rest⟩ wmq) x (.rwPr ⟨size, rest⟩ wmq)
  | rwPrWrite {size wsize : Nat} {x : α} {rest : List α} (hx : elemType x = .write) :
      Pop (.rwPr ⟨size, []⟩ ⟨wsize, x :: rest⟩) x (.rwPr ⟨size, []⟩ ⟨wsize, rest⟩)

/-- A readers–writer queue: each buffer holds elements of the types it is for. -/
def QueueData.ReadWrite : QueueData α → Prop
  | .exclusive _ => False
  | .rwPw mq => ∀ x ∈ mq.elems, elemType x = .read ∨ elemType x = .write
  | .rwPr rmq wmq =>
    (∀ x ∈ rmq.elems, elemType x = .read) ∧ ∀ x ∈ wmq.elems, elemType x = .write

/-- A pop keeps the kind of the queue. -/
theorem QueueData.Pop.readWrite {d d' : QueueData α} {x : α} (h : d.Pop x d')
    (hd : d.ReadWrite) : d'.ReadWrite := by
  cases h with
  | rwPw => exact fun y hy => hd y (by simp [hy])
  | rwPrRead => exact ⟨fun y hy => hd.1 y (by simp [hy]), hd.2⟩
  | rwPrWrite => exact ⟨hd.1, fun y hy => hd.2 y (by simp [hy])⟩

/-- A pop takes the first element. -/
theorem QueueData.Pop.elems {d d' : QueueData α} {x : α} (h : d.Pop x d') :
    d.elems = x :: d'.elems := by
  cases h <;> rfl

theorem QueueData.Pop.mode {d d' : QueueData α} {x : α} (h : d.Pop x d') : d'.mode = d.mode := by
  cases h <;> rfl

/-- A pop in `rwPr` mode gives a write away only when no read is left. -/
theorem QueueData.Pop.write_last {d d' : QueueData α} {x : α} (h : d.Pop x d')
    (hd : d.ReadWrite) (hmode : d.mode = .rwPr) (hx : Skull.elemType x = .write) :
    ∀ y ∈ d'.elems, Skull.elemType y = .write := by
  cases h with
  | rwPw => exact absurd hmode (by simp [QueueData.mode])
  | rwPrRead hr => exact absurd (hr.symm.trans hx) (by simp)
  | rwPrWrite =>
    intro y hy
    exact hd.2 y (by simpa [QueueData.elems] using .inr hy)

/-- A popped element is a read or a write. -/
theorem QueueData.Pop.elemType {d d' : QueueData α} {x : α} (h : d.Pop x d')
    (hd : d.ReadWrite) : elemType x = .read ∨ elemType x = .write := by
  cases h with
  | rwPw => exact hd x (by simp)
  | rwPrRead hx => exact .inl hx
  | rwPrWrite hx => exact .inr hx

/-- `d.Push x d'`: `d'` is `d` with `x` at the end of the buffer for its type. -/
inductive QueueData.Push : QueueData α → α → QueueData α → Prop
  | rwPw {mq : Fmbuf α} {x : α} {size : Nat} (hx : elemType x = .read ∨ elemType x = .write) :
      Push (.rwPw mq) x (.rwPw ⟨size, mq.elems ++ [x]⟩)
  | rwPrRead {rmq wmq : Fmbuf α} {x : α} {size : Nat} (hx : elemType x = .read) :
      Push (.rwPr rmq wmq) x (.rwPr ⟨size, rmq.elems ++ [x]⟩ wmq)
  | rwPrWrite {rmq wmq : Fmbuf α} {x : α} {size : Nat} (hx : elemType x = .write) :
      Push (.rwPr rmq wmq) x (.rwPr rmq ⟨size, wmq.elems ++ [x]⟩)

/-- A push keeps the kind of the queue. -/
theorem QueueData.Push.readWrite {d d' : QueueData α} {x : α} (h : d.Push x d')
    (hd : d.ReadWrite) : d'.ReadWrite := by
  cases h with
  | rwPw hx =>
    intro y hy
    rcases List.mem_append.mp hy with hy | hy
    · exact hd y hy
    · rw [List.mem_singleton.mp hy]; exact hx
  | rwPrRead hx =>
    refine ⟨fun y hy => ?_, hd.2⟩
    rcases List.mem_append.mp hy with hy | hy
    · exact hd.1 y hy
    · rw [List.mem_singleton.mp hy]; exact hx
  | rwPrWrite hx =>
    refine ⟨hd.1, fun y hy => ?_⟩
    rcases List.mem_append.mp hy with hy | hy
    · exact hd.2 y hy
    · rw [List.mem_singleton.mp hy]; exact hx

theorem QueueData.Push.mode {d d' : QueueData α} {x : α} (h : d.Push x d') :
    d'.mode = d.mode := by
  cases h <;> rfl

/-- A push adds one element. -/
theorem QueueData.Push.perm {d d' : QueueData α} {x : α} (h : d.Push x d') :
    d'.elems.Perm (d.elems ++ [x]) := by
  cases h with
  | rwPw => exact .refl _
  | rwPrRead =>
    simp only [QueueData.elems, List.append_assoc]
    exact List.Perm.append_left _ List.perm_append_comm
  | rwPrWrite => simp only [QueueData.elems, List.append_assoc]; exact .refl _

/-- In `rwPw` mode the new element is the last one. -/
theorem QueueData.Push.elems_rwPw {d d' : QueueData α} {x : α} (h : d.Push x d')
    (hmode : d'.mode = .rwPw) : d'.elems = d.elems ++ [x] := by
  cases h with
  | rwPw => rfl
  | rwPrRead => exact absurd hmode (by simp [QueueData.mode])
  | rwPrWrite => exact absurd hmode (by simp [QueueData.mode])

/-- Among the elements of one type the new element is the last one. -/
theorem QueueData.Push.filter {d d' : QueueData α} {x : α} (h : d.Push x d')
    (hd : d.ReadWrite) (k : ElemType) :
    d'.elems.filter (Skull.elemType · = k) =
      d.elems.filter (Skull.elemType · = k) ++ [x].filter (Skull.elemType · = k) := by
  cases h with
  | rwPw => simp [QueueData.elems]
  | @rwPrRead rmq wmq x _ hx =>
    have hw : Skull.elemType x = k → wmq.elems.filter (Skull.elemType · = k) = [] := by
      intro hk
      refine List.filter_eq_nil_iff.mpr fun y hy => ?_
      simp [hd.2 y hy, ← hk, hx]
    by_cases hk : Skull.elemType x = k <;> simp [QueueData.elems, hk, hw]
  | rwPrWrite => simp [QueueData.elems]

/-- Every buffer of the queue fits its limit. -/
def QueueData.Fits (elemSz maxSlots : Nat) : QueueData α → Prop
  | .exclusive mq => mq.Fits elemSz maxSlots
  | .rwPw mq => mq.Fits elemSz maxSlots
  | .rwPr rmq wmq => rmq.Fits elemSz maxSlots ∧ wmq.Fits elemSz maxSlots

/-- What is left fits. -/
theorem QueueData.Pop.fits {d d' : QueueData α} {x : α} {elemSz maxSlots : Nat}
    (h : d.Pop x d') (hd : d.Fits elemSz maxSlots) : d'.Fits elemSz maxSlots := by
  cases h with
  | rwPw => exact hd.tail
  | rwPrRead => exact ⟨hd.1.tail, hd.2⟩
  | rwPrWrite => exact ⟨hd.1, hd.2.tail⟩

/-- The sizes of a queue: its limit can be computed with in 64 bits. -/
structure Queue.Sized (q : Queue α) : Prop where
  elemSz : 0 < q.elemSz
  maxSlots : 0 < q.maxSlots
  limit : q.maxSlots * q.elemSz < Fmbuf.sizeLimit
  fits : q.data.Fits q.elemSz q.maxSlots

/-- The buffer that an element goes to. -/
def QueueData.bufferFor (d : QueueData α) (x : α) : Fmbuf α :=
  match d with
  | .exclusive mq => mq
  | .rwPw mq => mq
  | .rwPr rmq wmq => if elemType x = .read then rmq else wmq

/-- **Pushing.** A push of a read or a write on a readers–writer queue never aborts; it is
    refused and leaves the queue alone when the buffer for its type is full, and otherwise adds
    the element to this buffer. -/
theorem Queue.push_cases {q : Queue α} {x : α} (hd : q.data.ReadWrite) (hs : q.Sized)
    (hx : elemType x = .read ∨ elemType x = .write) :
    (q.data.bufferFor x).elems.length = q.maxSlots ∧ q.push x = .ok (true, q) ∨
      ∃ d, (q.data.bufferFor x).elems.length < q.maxSlots ∧ q.data.Push x d ∧
        d.Fits q.elemSz q.maxSlots ∧ q.push x = .ok (false, { q with data := d }) := by
  obtain ⟨state, elemSz, maxSlots, data⟩ := q
  obtain ⟨hsz, hmax, hlim, hfits⟩ := hs
  simp only at hsz hmax hlim hfits
  cases data with
  -- no queue of a service is exclusive
  | exclusive mq => exact absurd hd (by simp [QueueData.ReadWrite])
  -- one buffer for both kinds
  | rwPw mq =>
    have hrw : ¬ (elemType x ≠ .read ∧ elemType x ≠ .write) := by
      rcases hx with hx | hx <;> simp [hx]
    rcases Fmbuf.queuePush_spec x hfits hsz hmax hlim with ⟨hlen, h⟩ | ⟨size, hlen, h, hfit⟩
    · exact .inl ⟨hlen, by simp [Queue.push, hrw, h, Except.map]⟩
    · exact .inr ⟨_, hlen, .rwPw hx, hfit, by simp [Queue.push, hrw, h, Except.map]⟩
  -- each kind has its own
  | rwPr rmq wmq =>
    rcases hx with hx | hx
    · simp only [QueueData.bufferFor, hx, if_true]
      rcases Fmbuf.queuePush_spec x hfits.1 hsz hmax hlim with ⟨hlen, h⟩ | ⟨size, hlen, h, hfit⟩
      · exact .inl ⟨hlen, by simp [Queue.push, hx, h, Except.map]⟩
      · exact .inr ⟨_, hlen, .rwPrRead hx, ⟨hfit, hfits.2⟩,
          by simp [Queue.push, hx, h, Except.map]⟩
    · have hread : ¬ elemType x = .read := by simp [hx]
      simp only [QueueData.bufferFor, hread, if_false]
      rcases Fmbuf.queuePush_spec x hfits.2 hsz hmax hlim with ⟨hlen, h⟩ | ⟨size, hlen, h, hfit⟩
      · exact .inl ⟨hlen, by simp [Queue.push, hx, h, Except.map]⟩
      · exact .inr ⟨_, hlen, .rwPrWrite hx, ⟨hfits.1, hfit⟩,
          by simp [Queue.push, hx, h, Except.map]⟩

/-- A push is refused and leaves the queue alone, or it adds the element to the buffer for its
    type. -/
theorem Queue.push_spec {q : Queue α} {x : α} (hd : q.data.ReadWrite) (hs : q.Sized)
    (hx : elemType x = .read ∨ elemType x = .write) :
    q.push x = .ok (true, q) ∨
      ∃ d, q.data.Push x d ∧ d.Fits q.elemSz q.maxSlots ∧
        q.push x = .ok (false, { q with data := d }) := by
  rcases push_cases hd hs hx with ⟨-, hpush⟩ | ⟨d, -, hd, hfits, hpush⟩
  · exact .inl hpush
  · exact .inr ⟨d, hd, hfits, hpush⟩

/-- No element may start: under a writer none, under readers no write, and by the policy of
    the queue a waiting write may hold back the reads behind it. -/
def Queue.Blocked (q : Queue α) : Prop :=
  match q.data with
  | .exclusive _ => False
  | .rwPw mq =>
    mq.elems = [] ∨ q.state = .write ∨
      q.state = .read ∧ ∃ x, mq.elems.head? = some x ∧ elemType x = .write
  | .rwPr rmq wmq =>
    q.state = .write ∨ rmq.elems = [] ∧ (wmq.elems = [] ∨ q.state = .read)

/-- Nothing may start when nothing waits. -/
theorem Queue.blocked_of_empty {q : Queue α} (hd : q.data.ReadWrite) (hsz : 0 < q.elemSz)
    (h : q.empty = true) : q.Blocked := by
  obtain ⟨state, elemSz, maxSlots, data⟩ := q
  have hused : ∀ mq : Fmbuf α, mq.used elemSz = 0 → mq.elems = [] := by
    intro mq hmq
    rcases Nat.mul_eq_zero.mp hmq with hlen | hzero
    · exact List.length_eq_zero_iff.mp hlen
    · exact absurd hzero (Nat.pos_iff_ne_zero.mp hsz)
  cases data with
  | exclusive mq => exact absurd hd (by simp [QueueData.ReadWrite])
  | rwPw mq =>
    simp only [Queue.empty, decide_eq_true_eq] at h
    exact .inl (hused mq h)
  | rwPr rmq wmq =>
    simp only [Queue.empty, decide_eq_true_eq] at h
    exact .inr ⟨hused rmq h.1, .inl (hused wmq h.2)⟩

/-- The states of a started queue. -/
def QueueState.Started (st : QueueState) : Prop := st = .idle ∨ st = .read ∨ st = .write

/-- What a pull of one slot may do: pop an element the state admits, or nothing because the
    queue is blocked. -/
inductive Queue.PullOne (q : Queue α) : List (Nat × α) × Queue α → Prop
  | popped {x : α} {d : QueueData α} (hpop : q.data.Pop x d)
      (hst : elemType x = .read ∧ (q.state = .idle ∨ q.state = .read) ∨
        elemType x = .write ∧ q.state = .idle) :
      PullOne q ([(0, x)], { q with data := d })
  | blocked (h : q.Blocked) : PullOne q ([], q)

/-- **Pull policy.** On a started readers–writer queue a pull of one slot never aborts; it
    pops by the policy, or the queue is blocked. -/
theorem Queue.pull_one {q : Queue α} (hd : q.data.ReadWrite) (hst : q.state.Started)
    (hmax : 0 < q.maxSlots) : ∃ r, q.pull 1 = .ok r ∧ q.PullOne r := by
  obtain ⟨state, elemSz, maxSlots, data⟩ := q
  have hslots : (if 1 > maxSlots then maxSlots else 1) = 1 := by
    simp only at hmax
    split <;> omega
  cases data with
  | exclusive mq => exact absurd hd (by simp [QueueData.ReadWrite])
  | rwPw mq =>
    obtain ⟨size, elems⟩ := mq
    simp only [Queue.pull, Nat.one_ne_zero, if_false, hslots]
    -- idle, under readers, under a writer
    rcases hst with rfl | rfl | rfl
    · cases elems with
      | nil => exact ⟨_, rfl, .blocked (.inl rfl)⟩
      | cons x rest =>
        have hx := hd x (by simp)
        refine ⟨([(0, x)], _), by simp [pullRwPw, Fmbuf.queuePull, Except.map],
          .popped .rwPw ?_⟩
        rcases hx with hx | hx <;> simp [hx]
    · cases elems with
      | nil => exact ⟨_, rfl, .blocked (.inl rfl)⟩
      | cons x rest =>
        rcases hd x (by simp) with hx | hx
        · exact ⟨([(0, x)], _), by simp [pullRwPw, Fmbuf.queuePull, hx, Except.map],
            .popped .rwPw (.inl ⟨hx, .inr rfl⟩)⟩
        · exact ⟨_, by simp [pullRwPw, Fmbuf.queuePull, hx, Except.map],
            .blocked (.inr (.inr ⟨rfl, x, rfl, hx⟩))⟩
    · exact ⟨_, rfl, .blocked (.inr (.inl rfl))⟩
  | rwPr rmq wmq =>
    obtain ⟨rsize, reads⟩ := rmq
    obtain ⟨wsize, writes⟩ := wmq
    simp only [Queue.pull, Nat.one_ne_zero, if_false, hslots]
    -- idle, under readers, under a writer: a write goes only when no read waits
    rcases hst with rfl | rfl | rfl
    · cases reads with
      | nil =>
        cases writes with
        | nil => exact ⟨_, rfl, .blocked (.inr ⟨rfl, .inl rfl⟩)⟩
        | cons x rest =>
          have hx := hd.2 x (by simp)
          exact ⟨([(0, x)], _), by simp [pullRwPr, Fmbuf.queuePull, hx, Except.map],
            .popped (.rwPrWrite hx) (.inr ⟨hx, rfl⟩)⟩
      | cons x rest =>
        have hx := hd.1 x (by simp)
        exact ⟨([(0, x)], _), by simp [pullRwPr, Fmbuf.queuePull, hx, Except.map],
          .popped (.rwPrRead hx) (.inl ⟨hx, .inl rfl⟩)⟩
    · cases reads with
      | nil => exact ⟨_, rfl, .blocked (.inr ⟨rfl, .inr rfl⟩)⟩
      | cons x rest =>
        have hx := hd.1 x (by simp)
        exact ⟨([(0, x)], _), by simp [pullRwPr, Fmbuf.queuePull, hx, Except.map],
          .popped (.rwPrRead hx) (.inl ⟨hx, .inr rfl⟩)⟩
    · exact ⟨_, rfl, .blocked (.inl rfl)⟩


end Skull
