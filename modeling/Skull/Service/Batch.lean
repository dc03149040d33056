import Skull.Service.Policy
import Skull.Service.Service

namespace Skull

/-!
# Pulling several elements at once

* `Fmbuf.queuePull_eq` — what `_sk_queue_pull` takes: the first elements of the wanted type, and
  where it writes them;
* `Queue.pullEach` — what a pull of several slots stands for: pulling one element at a time;
* `Queue.pull_front`, `Queue.pull_write` — a pull takes the reads at the front, or one write;
* `Queue.pullEach_front`, `Queue.pullEach_write` — so does pulling one at a time;
* `Queue.batch_iff` — the elements are the same, but they are written where they belong only when
  at most one is pulled: the pointer arithmetic counts in elements of four bytes.
-/

variable {α : Type} [QueueElem α]

/-- The element is a read. -/
def isRead (x : α) : Bool := elemType x = .read

/-- The elements `xs`, the first of which is the element `cnt` of a pull, with the offsets they
    are written at. -/
def placed (elemSz base : Nat) : Nat → List α → List (Nat × α)
  | _, [] => []
  | cnt, x :: xs => (base + elemBaseSize * (cnt * elemSz), x) :: placed elemSz base (cnt + 1) xs

omit [QueueElem α] in
/-- The tasks are placed in their order. -/
@[simp] theorem placed_snd (elemSz base : Nat) (xs : List α) :
    ∀ cnt, (placed elemSz base cnt xs).map Prod.snd = xs := by
  induction xs with
  | nil => intro cnt; rfl
  | cons x xs ih => intro cnt; rw [placed, List.map_cons, ih]

omit [QueueElem α] in
@[simp] theorem placed_length (elemSz base cnt : Nat) (xs : List α) :
    (placed elemSz base cnt xs).length = xs.length := by
  rw [← List.length_map Prod.snd, placed_snd]

omit [QueueElem α] in
/-- They are placed one behind the other. -/
theorem placed_fst (elemSz base : Nat) (xs : List α) : ∀ cnt, (placed elemSz base cnt xs).map
    Prod.fst = (List.range' cnt xs.length).map fun k => base + elemBaseSize * (k * elemSz) := by
  induction xs with
  | nil => intro cnt; rfl
  | cons x xs ih =>
    intro cnt
    rw [placed, List.map_cons, ih, List.length_cons, List.range'_succ, List.map_cons]

omit [QueueElem α] in
/-- Pulling goes on one element further in the caller's array. -/
theorem placed_base (elemSz : Nat) (xs : List α) : ∀ cnt,
    placed elemSz (elemBaseSize * (1 * elemSz)) cnt xs = placed elemSz 0 (cnt + 1) xs := by
  induction xs with
  | nil => intro cnt; rfl
  | cons x xs ih =>
    intro cnt
    have hoff : elemBaseSize * (1 * elemSz) + elemBaseSize * (cnt * elemSz) =
        0 + elemBaseSize * ((cnt + 1) * elemSz) := by
      rw [← Nat.mul_add, ← Nat.add_mul, Nat.add_comm 1, Nat.zero_add]
    rw [placed, placed, ih, hoff]

/-- **`_sk_queue_pull`** takes the first elements of the wanted type, at most `slots`. -/
theorem Fmbuf.queuePull_eq (type : Option ElemType) (elemSz base : Nat) :
    ∀ (slots cnt : Nat) (mq : Fmbuf α),
      mq.queuePull type elemSz base slots cnt =
        (placed elemSz base cnt
          ((mq.elems.take slots).takeWhile fun x => type.all (· = elemType x)),
        ⟨mq.size, mq.elems.drop
          ((mq.elems.take slots).takeWhile fun x => type.all (· = elemType x)).length⟩) := by
  intro slots
  induction slots with
  | zero => intro cnt mq; rfl
  | succ slots ih =>
    intro cnt mq
    obtain ⟨size, elems⟩ := mq
    cases elems with
    | nil => rfl
    | cons x rest =>
      by_cases hx : type.all (· = elemType x) = true
      · simp only [queuePull, hx, if_true, ih, List.take_succ_cons, List.takeWhile_cons, placed,
          List.length_cons, List.drop_succ_cons]
      · simp only [queuePull, hx, List.take_succ_cons, List.takeWhile_cons]
        simp [placed]

/-- A task that may be pulled with reads is a read. -/
theorem isRead_all (x : α) :
    ((some ElemType.read).all fun t => decide (t = elemType x)) = isRead x := by
  simp only [Option.all_some, isRead, eq_comm]

/-- A pull of the reads at the front. -/
theorem Fmbuf.queuePull_read (elemSz base slots cnt : Nat) (mq : Fmbuf α) :
    mq.queuePull (some .read) elemSz base slots cnt =
      (placed elemSz base cnt ((mq.elems.take slots).takeWhile isRead),
        ⟨mq.size, mq.elems.drop ((mq.elems.take slots).takeWhile isRead).length⟩) := by
  rw [queuePull_eq]
  simp only [isRead_all]

namespace QueueData

/-- The elements that a pull looks at first: all of them, or the reads. -/
def front : QueueData α → List α
  | .exclusive mq => mq.elems
  | .rwPw mq => mq.elems
  | .rwPr rmq _ => rmq.elems

/-- The data without the first `k` of these. -/
def dropFront (d : QueueData α) (k : Nat) : QueueData α :=
  match d with
  | .exclusive mq => .exclusive ⟨mq.size, mq.elems.drop k⟩
  | .rwPw mq => .rwPw ⟨mq.size, mq.elems.drop k⟩
  | .rwPr rmq wmq => .rwPr ⟨rmq.size, rmq.elems.drop k⟩ wmq

omit [QueueElem α] in
/-- What is taken is gone from the front. -/
@[simp] theorem front_dropFront (d : QueueData α) (k : Nat) :
    (d.dropFront k).front = d.front.drop k := by
  cases d <;> rfl

omit [QueueElem α] in
@[simp] theorem dropFront_zero (d : QueueData α) : d.dropFront 0 = d := by
  cases d <;> rfl

omit [QueueElem α] in
/-- Taken twice. -/
theorem dropFront_dropFront (d : QueueData α) (j k : Nat) :
    (d.dropFront j).dropFront k = d.dropFront (j + k) := by
  cases d <;> simp only [dropFront, List.drop_drop]

/-- Every buffer holds at most `slots` elements. -/
def AtMost (slots : Nat) : QueueData α → Prop
  | .exclusive mq => mq.elems.length ≤ slots
  | .rwPw mq => mq.elems.length ≤ slots
  | .rwPr rmq wmq => rmq.elems.length ≤ slots ∧ wmq.elems.length ≤ slots

end QueueData

namespace Queue

/-- A queue with what its own pushes put into it. -/
structure Held (q : Queue α) : Prop where
  readWrite : q.data.ReadWrite
  elemSz : 0 < q.elemSz
  maxSlots : 0 < q.maxSlots
  atMost : q.data.AtMost q.maxSlots

variable {q : Queue α} {n : Nat}

/-! ### A pull of several slots -/

/-- No more is there than the slots hold. -/
theorem Held.take_min (h : q.Held) (n : Nat) :
    q.data.front.take (if n > q.maxSlots then q.maxSlots else n) = q.data.front.take n := by
  have hlen : q.data.front.length ≤ q.maxSlots := by
    have hatMost := h.atMost
    revert hatMost
    cases q.data with
    | exclusive mq => exact id
    | rwPw mq => exact id
    | rwPr rmq wmq => exact And.left
  split
  · rw [List.take_of_length_le hlen, List.take_of_length_le (by omega)]
  · rfl

/-- **The reads at the front** are what a pull takes, under readers or when the first element is a
    read. -/
theorem pull_front (h : q.Held) (hn : n ≠ 0)
    (hst : q.state = .read ∨ q.state = .idle ∧ ∃ x rest, q.data.front = x :: rest ∧
      elemType x = .read) :
    q.pull n = .ok (placed q.elemSz 0 0 ((q.data.front.take n).takeWhile isRead),
      { q with data := q.data.dropFront ((q.data.front.take n).takeWhile isRead).length }) := by
  have htake := h.take_min n
  have hmax := h.maxSlots
  have hslots : 0 < if n > q.maxSlots then q.maxSlots else n := by split <;> omega
  rw [← htake]
  set slots := if n > q.maxSlots then q.maxSlots else n with hdef
  obtain ⟨state, elemSz, maxSlots, data⟩ := q
  simp only at hdef hst htake
  cases data with
  | exclusive mq => exact absurd h.readWrite (by simp [QueueData.ReadWrite])
  | rwPw mq =>
    simp only [Queue.pull, if_neg hn, ← hdef]
    rcases hst with rfl | ⟨rfl, x, rest, hfront, hx⟩
    · simp only [pullRwPw, Fmbuf.queuePull_read, Except.map]
      rfl
    · -- an idle queue decides by its first element, a read
      obtain ⟨size, elems⟩ := mq
      obtain rfl : elems = x :: rest := hfront
      obtain ⟨k, hk⟩ := Nat.exists_eq_succ_of_ne_zero (Nat.ne_of_gt hslots)
      have hread : isRead x = true := decide_eq_true hx
      rw [hk]
      simp only [pullRwPw, Fmbuf.queuePull, Option.all_none, if_true, QueueData.front,
        QueueData.dropFront, List.take_succ_cons, List.takeWhile_cons, hread, placed,
        List.length_cons, List.drop_succ_cons]
      by_cases hone : k + 1 = 1
      · have hzero : k = 0 := by omega
        subst hzero
        simp [Except.map, placed]
      · simp only [hone, hx, if_false, reduceCtorEq, ne_eq, not_true_eq_false, Nat.succ_eq_add_one,
          Nat.add_sub_cancel, Fmbuf.queuePull_read, placed_base, Except.map]
  | rwPr rmq wmq =>
    simp only [Queue.pull, if_neg hn, ← hdef]
    rcases hst with rfl | ⟨rfl, x, rest, hfront, hx⟩
    · simp only [pullRwPr, Fmbuf.queuePull_read, Except.map]
      rfl
    · -- an idle queue decides by its first element, a read
      obtain ⟨size, elems⟩ := rmq
      obtain rfl : elems = x :: rest := hfront
      obtain ⟨k, hk⟩ := Nat.exists_eq_succ_of_ne_zero (Nat.ne_of_gt hslots)
      have hread : isRead x = true := decide_eq_true hx
      rw [hk]
      simp only [pullRwPr, Fmbuf.queuePull_read, QueueData.front, QueueData.dropFront,
        Nat.succ_eq_add_one, List.take_succ_cons, List.takeWhile_cons, hread, if_true, placed,
        List.length_cons, List.drop_succ_cons, Except.map]

/-- **No read is at the front** of an idle queue: a pull of several slots is one of one slot. -/
theorem pull_write (h : q.Held) (hn : n ≠ 0) (hst : q.state = .idle)
    (hfront : ∀ x rest, q.data.front = x :: rest → elemType x ≠ .read) : q.pull n = q.pull 1 := by
  have hmax := h.maxSlots
  have hslots : 0 < if n > q.maxSlots then q.maxSlots else n := by split <;> omega
  have hone : (if 1 > q.maxSlots then q.maxSlots else 1) = 1 := by split <;> omega
  obtain ⟨state, elemSz, maxSlots, data⟩ := q
  simp only at hmax hslots hone hst
  subst hst
  cases data with
  | exclusive mq => exact absurd h.readWrite (by simp [QueueData.ReadWrite])
  | rwPw mq =>
    obtain ⟨size, elems⟩ := mq
    simp only [Queue.pull, if_neg hn, hone, Nat.one_ne_zero, if_false]
    cases elems with
    | nil => rfl
    | cons x rest =>
      have hx : elemType x = .write := (h.readWrite x (by simp)).resolve_left (hfront x rest rfl)
      simp only [pullRwPw, Fmbuf.queuePull, Option.all_none, if_true, hx]
      by_cases hk : (if n > maxSlots then maxSlots else n) = 1
      · rw [if_pos hk]
      · rw [if_neg hk]
  | rwPr rmq wmq =>
    obtain ⟨size, elems⟩ := rmq
    simp only [Queue.pull, if_neg hn, hone, Nat.one_ne_zero, if_false]
    cases elems with
    | nil =>
      obtain ⟨k, hk⟩ := Nat.exists_eq_succ_of_ne_zero (Nat.ne_of_gt hslots)
      rw [hk]
      rfl
    | cons x rest =>
      -- what waits in the queue of the reads is a read
      exact absurd (h.readWrite.1 x (by simp)) (hfront x rest rfl)

/-- A pull of an idle queue with no read at the front gives nothing away, or one write. -/
theorem pull_one_write (h : q.Held) (hst : q.state = .idle)
    (hfront : ∀ x rest, q.data.front = x :: rest → elemType x ≠ .read) :
    q.pull 1 = .ok ([], q) ∨
      ∃ x d, elemType x = .write ∧ q.pull 1 = .ok ([(0, x)], { q with data := d }) := by
  obtain ⟨r, hpull, hone⟩ := pull_one h.readWrite (.inl hst) h.maxSlots
  cases hone with
  | blocked => exact .inl hpull
  | @popped x d hpop =>
    right
    have hx : elemType x = .write := by
      refine (hpop.elemType h.readWrite).resolve_left ?_
      obtain ⟨state, elemSz, maxSlots, data⟩ := q
      cases hpop with
      | rwPw => exact hfront _ _ rfl
      | rwPrRead => exact hfront _ _ rfl
      | rwPrWrite hw => rw [hw]; decide
    exact ⟨x, d, hx, hpull⟩

/-! ### One element at a time -/

/-- Pulling one element at a time, at most `n` of them: after a read the state is set to `READ`,
    and a write is the last. -/
def pullEach : Nat → Queue α → Except QueueFault (List α × Queue α)
  | 0, q => .ok ([], q)
  | n + 1, q =>
    match q.pull 1 with
    | .error f => .error f
    | .ok ([], q) => .ok ([], q)
    | .ok ((_, x) :: _, q) =>
      if elemType x = .write then .ok ([x], q)
      else
        match q.setState .read with
        | .error f => .error f
        | .ok q => (pullEach n q).map fun (xs, q) => (x :: xs, q)

omit [QueueElem α] in
/-- A queue goes to reading. -/
theorem setState_read (hd : ∀ mq, q.data ≠ .exclusive mq) :
    q.setState .read = .ok { q with state := .read } := by
  obtain ⟨state, elemSz, maxSlots, data⟩ := q
  cases data with
  | exclusive mq => exact absurd rfl (hd mq)
  | rwPw mq => rfl
  | rwPr rmq wmq => rfl

/-- What is left after a pull from the front is held too. -/
theorem Held.dropFront (h : q.Held) (st : QueueState) (k : Nat) :
    Held { q with state := st, data := q.data.dropFront k } := by
  obtain ⟨state, elemSz, maxSlots, data⟩ := q
  refine ⟨?_, h.elemSz, h.maxSlots, ?_⟩
  · have hrw := h.readWrite
    cases data with
    | exclusive mq => exact hrw
    | rwPw mq => exact fun x hx => hrw x (List.mem_of_mem_drop hx)
    | rwPr rmq wmq => exact ⟨fun x hx => hrw.1 x (List.mem_of_mem_drop hx), hrw.2⟩
  · have hatMost := h.atMost
    cases data with
    | exclusive mq => exact Nat.le_trans (List.drop_sublist k _).length_le hatMost
    | rwPw mq => exact Nat.le_trans (List.drop_sublist k _).length_le hatMost
    | rwPr rmq wmq => exact ⟨Nat.le_trans (List.drop_sublist k _).length_le hatMost.1, hatMost.2⟩

/-- **A read at the front** is what pulling one element at a time takes first. -/
theorem pullEach_read (h : q.Held) (hst : q.state = .read ∨ q.state = .idle) {x : α}
    {rest : List α} (hfront : q.data.front = x :: rest) (hx : elemType x = .read) :
    pullEach (n + 1) q =
      (pullEach n { q with state := .read, data := q.data.dropFront 1 }).map
        fun (xs, q) => (x :: xs, q) := by
  have hread : isRead x = true := decide_eq_true hx
  have hpull : q.pull 1 = .ok ([(0, x)], { q with data := q.data.dropFront 1 }) := by
    rw [pull_front h Nat.one_ne_zero (hst.imp_right fun hidle => ⟨hidle, x, rest, hfront, hx⟩),
      hfront]
    simp [hread, placed]
  have hexcl : ∀ mq, q.data.dropFront 1 ≠ .exclusive mq := by
    have hrw := h.readWrite
    revert hrw
    cases q.data with
    | exclusive mq => exact fun hrw => absurd hrw (by simp [QueueData.ReadWrite])
    | rwPw mq => exact fun _ _ => by simp [QueueData.dropFront]
    | rwPr rmq wmq => exact fun _ _ => by simp [QueueData.dropFront]
  have hset := setState_read (q := { q with data := q.data.dropFront 1 }) hexcl
  simp [pullEach, hpull, hx, hset]

/-- Pulling one element at a time takes the reads at the front, under readers or when the first
    element is a read. -/
theorem pullEach_front (n : Nat) : ∀ {q : Queue α}, q.Held →
    (q.state = .read ∨ q.state = .idle ∧ ∃ x rest, q.data.front = x :: rest ∧
      elemType x = .read) →
    ∃ state, pullEach n q = .ok ((q.data.front.take n).takeWhile isRead,
      { q with state, data := q.data.dropFront ((q.data.front.take n).takeWhile isRead).length }) := by
  induction n with
  | zero =>
    intro q h hst
    refine ⟨q.state, ?_⟩
    rw [List.take_zero, List.takeWhile_nil, List.length_nil, QueueData.dropFront_zero]
    rfl
  | succ n ih =>
    intro q h hst
    by_cases hfirst : ∃ x rest, q.data.front = x :: rest ∧ elemType x = .read
    · -- one read is pulled, and what follows finds the queue under readers
      obtain ⟨x, rest, hfront, hx⟩ := hfirst
      have hread : isRead x = true := decide_eq_true hx
      obtain ⟨state, heach⟩ := ih (h.dropFront .read 1) (.inl rfl)
      refine ⟨state, ?_⟩
      rw [pullEach_read h (hst.imp_right And.left) hfront hx, heach]
      simp [hfront, hread, QueueData.dropFront_dropFront, Except.map, Nat.add_comm 1]
    · -- under readers nothing is pulled: no read is at the front
      have hstate : q.state = .read := hst.resolve_right fun hidle => hfirst hidle.2
      have hnone : ∀ m, (q.data.front.take m).takeWhile isRead = [] := by
        intro m
        cases hfront : q.data.front with
        | nil => simp
        | cons x rest =>
          have hx : isRead x = false := by
            refine decide_eq_false fun hx => hfirst ⟨x, rest, hfront, hx⟩
          cases m <;> simp [hx]
      refine ⟨.read, ?_⟩
      have hpull := pull_front (n := 1) h Nat.one_ne_zero (.inl hstate)
      rw [hnone] at hpull ⊢
      rw [List.length_nil, QueueData.dropFront_zero] at hpull ⊢
      rw [pullEach, hpull, placed, ← hstate]

/-- Without a read at the front of an idle queue, pulling one element at a time is one pull. -/
theorem pullEach_write (h : q.Held) (hst : q.state = .idle) (hn : n ≠ 0)
    (hfront : ∀ x rest, q.data.front = x :: rest → elemType x ≠ .read) :
    ∃ pulled data, q.pull n = .ok (pulled, { q with data }) ∧
      pullEach n q = .ok (pulled.map Prod.snd, { q with data }) ∧
      (pulled = [] ∨ ∃ x, pulled = [(0, x)]) := by
  obtain ⟨k, rfl⟩ := Nat.exists_eq_succ_of_ne_zero hn
  rw [pull_write h hn hst hfront]
  rcases pull_one_write h hst hfront with hpull | ⟨x, d, hx, hpull⟩
  · exact ⟨[], q.data, hpull, by rw [pullEach, hpull]; rfl, by simp⟩
  · exact ⟨[(0, x)], d, hpull, by simp [pullEach, hpull, hx], by simp⟩

/-! ### The two compared -/

/-- **A pull of `n` slots stands for `n` pulls of one**: it leaves the same data, yields the same
    elements, and writes each of them at its place of the caller's array of `n` elements. -/
def Batch (n : Nat) (q : Queue α) : Prop :=
  ∃ pulled data state, q.pull n = .ok (pulled, { q with data }) ∧
    pullEach n q = .ok (pulled.map Prod.snd, { q with state, data }) ∧
    pulled.map Prod.fst = (List.range pulled.length).map (· * q.elemSz) ∧
    ∀ p ∈ pulled, p.1 + q.elemSz ≤ n * q.elemSz

/-- Two reads are first in the buffer that a pull looks at. -/
def TwoReads (q : Queue α) : Prop :=
  ∃ x y rest, q.data.front = x :: y :: rest ∧ elemType x = .read ∧ elemType y = .read

omit [QueueElem α] in
/-- The offsets of a pull count elements of `elemSz` bytes only when there is no second one. -/
theorem placed_exact {elemSz : Nat} (hsz : 0 < elemSz) (xs : List α) :
    (placed elemSz 0 0 xs).map Prod.fst = (List.range xs.length).map (· * elemSz) ↔
      xs.length ≤ 1 := by
  rw [placed_fst, List.range_eq_range']
  constructor
  · intro h
    by_contra hlen
    have hone : (List.range' 0 xs.length)[1]? = some 1 := by
      rw [List.getElem?_range' (by omega)]
    have hsnd := congrArg (fun l => l[1]?) h
    simp only [List.getElem?_map, hone, Option.map_some, Option.some.injEq] at hsnd
    rw [elemBaseSize] at hsnd
    omega
  · intro hlen
    refine List.map_congr_left fun k hk => ?_
    have hzero : k = 0 := by
      have := (List.mem_range'_1.mp hk).2
      omega
    simp [hzero]

/-- A pull takes one read at most exactly when it is one of a single slot or the second element
    is no read. -/
theorem front_one_iff (hn : n ≠ 0) :
    ((q.data.front.take n).takeWhile isRead).length ≤ 1 ↔ n = 1 ∨ ¬ q.TwoReads := by
  -- a pull of two elements begins with two reads
  have htwo : 2 ≤ ((q.data.front.take n).takeWhile isRead).length ↔ n ≠ 1 ∧ q.TwoReads := by
    obtain ⟨k, rfl⟩ := Nat.exists_eq_succ_of_ne_zero hn
    constructor
    · intro hlen
      match hfront : q.data.front with
      | [] => simp [hfront] at hlen
      | [x] =>
        have hle := (List.takeWhile_prefix (l := [x]) isRead).length_le
        simp only [hfront, List.take_succ_cons, List.take_nil] at hlen
        simp only [List.length_singleton] at hle
        omega
      | x :: y :: rest =>
        rw [hfront, List.take_succ_cons] at hlen
        cases hx : isRead x with
        | false => simp [hx] at hlen
        | true =>
          cases k with
          | zero => simp [hx] at hlen
          | succ k =>
            cases hy : isRead y with
            | false => simp [hx, hy] at hlen
            | true => exact ⟨by omega, x, y, rest, hfront, of_decide_eq_true hx,
                of_decide_eq_true hy⟩
    · rintro ⟨hk, x, y, rest, hfront, hx, hy⟩
      obtain ⟨j, rfl⟩ := Nat.exists_eq_succ_of_ne_zero (show k ≠ 0 by omega)
      have hx' : isRead x = true := decide_eq_true hx
      have hy' : isRead y = true := decide_eq_true hy
      simp [hfront, hx', hy']
  -- the two sides are the negations
  rw [← not_iff_not, Nat.not_le, Nat.lt_iff_add_one_le, htwo]
  simp

/-- **A pull of several slots** is one pull after the other exactly when it takes one read at most:
    it is one of a single slot, or the first two elements are not both reads.  Every further read
    is written past its place, four times as far as it belongs. -/
theorem batch_iff (h : q.Held) (hst : q.state = .idle ∨ q.state = .read) (hn : 1 ≤ n) :
    q.Batch n ↔ n = 1 ∨ ¬ q.TwoReads := by
  have hn0 : n ≠ 0 := Nat.ne_of_gt hn
  by_cases hread : q.state = .read ∨ q.state = .idle ∧ ∃ x rest, q.data.front = x :: rest ∧
      elemType x = .read
  · have hpull := pull_front h hn0 hread
    obtain ⟨state, heach⟩ := pullEach_front n h hread
    set taken := (q.data.front.take n).takeWhile isRead with htaken
    rw [← front_one_iff hn0, ← htaken, ← placed_exact h.elemSz taken]
    constructor
    · rintro ⟨pulled, data, _, hpulled, -, hoff, -⟩
      have heq := Except.ok.inj (hpull.symm.trans hpulled)
      rw [← (Prod.mk.inj heq).1, placed_length] at hoff
      exact hoff
    · intro hoff
      refine ⟨_, _, state, hpull, by rw [heach, placed_snd], by rw [hoff, placed_length],
        fun p hp => ?_⟩
      -- the only element that is placed begins the block
      have hone := (placed_exact h.elemSz taken).mp hoff
      have hmem := List.mem_map_of_mem (f := Prod.fst) hp
      rw [hoff] at hmem
      obtain ⟨k, hk, hpk⟩ := List.mem_map.mp hmem
      have hzero : k = 0 := by
        have := List.mem_range.mp hk
        omega
      rw [← hpk, hzero, Nat.zero_mul, Nat.zero_add]
      exact Nat.le_mul_of_pos_left _ hn
  · -- a write comes first, so one element is pulled at most
    have hidle : q.state = .idle := hst.resolve_right fun hr => hread (.inl hr)
    have hfront : ∀ x rest, q.data.front = x :: rest → elemType x ≠ .read :=
      fun x rest hfront hx => hread (.inr ⟨hidle, x, rest, hfront, hx⟩)
    have hno : ¬ q.TwoReads := fun ⟨x, y, rest, hfr, hx, _⟩ => hfront x _ hfr hx
    refine iff_of_true ?_ (.inr hno)
    obtain ⟨pulled, data, hpull, heach, hone⟩ := pullEach_write h hidle hn0 hfront
    refine ⟨pulled, data, q.state, hpull, heach, ?_⟩
    have hle : q.elemSz ≤ n * q.elemSz := Nat.le_mul_of_pos_left _ hn
    rcases hone with rfl | ⟨x, rfl⟩
    · exact ⟨rfl, by simp⟩
    · exact ⟨by simp, by simpa using hle⟩

/-- A call of a service by a task of a transaction. -/
def waitingTask (type : ElemType) : SrvTask :=
  { base := type, ioStatus := .ok, bidx := 0, src := .worker 0
    data := .api 0 0 0 ⟨0, 0⟩ }

/-- A queue of a service in `rwPw` mode with a read and a write. -/
def readThenWrite : Queue SrvTask :=
  { state := .idle, elemSz := srvTaskSize, maxSlots := srvMaxTask
    data := .rwPw ⟨144, [waitingTask .read, waitingTask .write]⟩ }

/-- A read and a write are pulled with their offsets. -/
theorem readThenWrite_batch : readThenWrite.Batch 3 := by
  have hrw : ∀ x ∈ [waitingTask .read, waitingTask .write],
      elemType x = .read ∨ elemType x = .write := by decide
  have hatMost : [waitingTask .read, waitingTask .write].length ≤ srvMaxTask := by decide
  have h : readThenWrite.Held := ⟨hrw, by decide, by decide, hatMost⟩
  refine (batch_iff h (.inl rfl) (by decide)).mpr (.inr ?_)
  rintro ⟨x, y, rest, hfront, hx, hy⟩
  obtain ⟨rfl, hrest⟩ := List.cons.inj hfront
  obtain ⟨rfl, -⟩ := List.cons.inj hrest
  exact absurd hy (by decide)

/-- **Two reads, pulled together**: the second is written at byte 288 of an array of 144. -/
theorem two_reads_misplaced : ∃ q₀ q₁ q : Queue SrvTask,
    Queue.create .rwPr srvTaskSize 0 srvMaxTask = .ok (some q₀) ∧
    q₀.push (waitingTask .read) = .ok (false, q₁) ∧ q₁.push (waitingTask .read) = .ok (false, q) ∧
    q.state = .idle ∧ ¬ q.Batch 2 := by
  refine ⟨_, _, _, rfl, rfl, rfl, rfl, ?_⟩
  rintro ⟨pulled, data, state, hpull, -, -, hroom⟩
  have hpulled : pulled = [(0, waitingTask .read), (288, waitingTask .read)] := by
    exact ((Prod.mk.inj (Except.ok.inj hpull)).1).symm
  rw [hpulled] at hroom
  exact absurd (hroom (288, waitingTask .read) (by simp)) (by decide)

end Queue

end Skull
