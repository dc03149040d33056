import Mathlib.Algebra.Order.Ring.Int
import Mathlib.Data.List.Basic
import Mathlib.Tactic.Common

namespace Skull

/-!
# The task queue of a service (`sk_queue`)

The queue holds fixed-size elements in one flibs buffer (`exclusive`, `rwPw`) or in two, one
for the reads and one for the writes (`rwPr`).  flibs is not part of the repository: `Fmbuf`
keeps what the queue relies on, a byte size and the whole elements held, oldest first; a push
succeeds iff the free bytes suffice, and a realloc keeps the content.

* `Fmbuf.newSize`, `Fmbuf.queuePush`, `Fmbuf.queuePull` — `_get_new_size`, `_sk_queue_push`
  and `_sk_queue_pull`;
* `Queue.push`, `Queue.pull`, `Queue.setState` — the public operations, which dispatch on the
  mode of the queue through the shape of its data.

Size computations are 64-bit (`size_t`): they are taken modulo `2 ^ 64`.  A pull writes into
the caller's array of `sk_queue_elem_base_t`; the elements it yields are paired with the byte
offset they are written at.
-/

/-- `sk_queue_mode_t`. -/
inductive QueueMode
  | exclusive | rwPr | rwPw
  deriving DecidableEq, Repr

/-- `sk_queue_state_t`. -/
inductive QueueState
  | init | destroy | idle | lock | read | write
  deriving DecidableEq, Repr

/-- `sk_queue_elem_type_t`. -/
inductive ElemType
  | exclusive | read | write
  deriving DecidableEq, Repr

/-- Types whose values start with a `sk_queue_elem_base_t`. -/
class QueueElem (α : Type) where
  /-- The `type` field of the element base. -/
  elemType : α → ElemType

export QueueElem (elemType)

/-- The assertions of `sk_queue.c`. -/
inductive QueueFault
  /-- `elem_sz * max_slots / max_slots == elem_sz` in `sk_queue_create`. -/
  | createSpace
  /-- `new_sz > 0` in `_get_new_size`. -/
  | newSize
  /-- `!ret` after the realloc in `_sk_queue_push`. -/
  | pushAfterRealloc
  /-- The element type check of a push. -/
  | elemType
  /-- `max_slots` in `sk_queue_pull`. -/
  | maxSlots
  /-- The element type check of `_sk_queue_pull_rw_pw`. -/
  | pullType
  /-- `SK_ASSERT(0)` for an unexpected state in a pull. -/
  | pullState
  /-- `SK_ASSERT(0)` in `sk_queue_setstate`. -/
  | setState
  deriving DecidableEq, Repr

/-- The values of `size_t`. -/
def sizeTMod : Nat := 2 ^ 64

/-- `sizeof(sk_queue_elem_base_t)`, the step of the pointer arithmetic on the caller's array. -/
def elemBaseSize : Nat := 4

/-! ### The buffer -/

/-- A flibs buffer that holds whole elements. -/
structure Fmbuf (α : Type) where
  /-- The capacity in bytes. -/
  size : Nat
  /-- The elements held, oldest first. -/
  elems : List α
  deriving DecidableEq, Repr

namespace Fmbuf

variable {α : Type}

/-- `fmbuf_create`. -/
def create (size : Nat) : Fmbuf α := ⟨size, []⟩

/-- `fmbuf_used`: the bytes held. -/
def used (elemSz : Nat) (mq : Fmbuf α) : Nat := mq.elems.length * elemSz

/-- `fmbuf_push`: succeeds iff the free bytes suffice. -/
def push (elemSz : Nat) (mq : Fmbuf α) (elem : α) : Option (Fmbuf α) :=
  if elemSz ≤ mq.size - mq.used elemSz then some { mq with elems := mq.elems ++ [elem] } else none

/-- `fmbuf_realloc`: keeps the content. -/
def realloc (mq : Fmbuf α) (size : Nat) : Fmbuf α := { mq with size := size }

/-- The doubling loop of `_get_new_size`.  The first argument bounds the turns: after 64
    doublings a 64-bit value is zero, so 65 turns always reach an exit of the loop. -/
def growLoop (usedSz need : Nat) : Nat → Nat → Nat
  | 0, newSz => newSz
  | turns + 1, newSz =>
    if newSz = 0 then 0
    else
      let doubled := newSz * 2 % sizeTMod
      if need ≤ (doubled + sizeTMod - usedSz) % sizeTMod then doubled
      else growLoop usedSz need turns doubled

/-- `_get_new_size`. -/
def newSize (mq : Fmbuf α) (newSlots maxSlots elemSz : Nat) : Except QueueFault Nat :=
  let currSz := if mq.size = 0 then 1 else mq.size
  let newSz := growLoop (mq.used elemSz) (newSlots * elemSz % sizeTMod) 65 currSz
  let maxBufSz := maxSlots * elemSz % sizeTMod
  let newSz := if newSz > maxBufSz then maxBufSz else newSz
  if newSz > 0 then .ok newSz else .error .newSize

/-- `_sk_queue_push`: `true` is the non-zero return, a full buffer. -/
def queuePush (mq : Fmbuf α) (maxSlots elemSz : Nat) (elem : α) :
    Except QueueFault (Bool × Fmbuf α) :=
  match mq.push elemSz elem with
  | some mq' => .ok (false, mq')
  | none =>
    match mq.newSize 1 maxSlots elemSz with
    | .error f => .error f
    | .ok newSz =>
      if mq.size = newSz then .ok (true, mq)
      else
        match (mq.realloc newSz).push elemSz elem with
        | some mq' => .ok (false, mq')
        | none => .error .pushAfterRealloc

variable [QueueElem α]

/-- `_sk_queue_pull`: pops up to `slots` elements from the front while they have the wanted
    type (`none` is `SK_QUEUE_ELEM_ANY`).  `base` is the byte offset of `elems` in the caller's
    array, `pulledCnt` the number of elements popped so far. -/
def queuePull (type : Option ElemType) (elemSz base : Nat) :
    (slots pulledCnt : Nat) → Fmbuf α → List (Nat × α) × Fmbuf α
  | 0, _, mq => ([], mq)
  | _ + 1, _, ⟨size, []⟩ => ([], ⟨size, []⟩)
  | slots + 1, pulledCnt, ⟨size, elem :: rest⟩ =>
    if type.all (· = elemType elem) then
      let (pulled, mq) := queuePull type elemSz base slots (pulledCnt + 1) ⟨size, rest⟩
      ((base + elemBaseSize * (pulledCnt * elemSz), elem) :: pulled, mq)
    else ([], ⟨size, elem :: rest⟩)

end Fmbuf

/-! ### The queue -/

/-- The `data` union of a queue; its shape is the mode. -/
inductive QueueData (α : Type)
  | exclusive (mq : Fmbuf α)
  | rwPw (mq : Fmbuf α)
  | rwPr (rmq wmq : Fmbuf α)
  deriving DecidableEq, Repr

/-- The elements of a queue; in `rwPr` mode the reads come first. -/
def QueueData.elems {α : Type} : QueueData α → List α
  | .exclusive mq => mq.elems
  | .rwPw mq => mq.elems
  | .rwPr rmq wmq => rmq.elems ++ wmq.elems

/-- The mode that the shape of the data stands for. -/
def QueueData.mode {α : Type} : QueueData α → QueueMode
  | .exclusive _ => .exclusive
  | .rwPw _ => .rwPw
  | .rwPr _ _ => .rwPr

/-- `sk_queue_t`. -/
structure Queue (α : Type) where
  state : QueueState
  elemSz : Nat
  maxSlots : Nat
  data : QueueData α
  deriving DecidableEq, Repr

namespace Queue

variable {α : Type}

/-- The `mode` field. -/
def mode (q : Queue α) : QueueMode := q.data.mode

/-- `SK_QUEUE_DEFAULT_WRITE_SLOTS`. -/
def defaultWriteSlots : Nat := 1

/-- `sk_queue_create`: `none` is the `NULL` return. -/
def create (mode : QueueMode) (elemSz initSlots maxSlots : Nat) :
    Except QueueFault (Option (Queue α)) :=
  if maxSlots = 0 ∨ initSlots > maxSlots then .ok none
  else if elemSz * maxSlots % sizeTMod / maxSlots ≠ elemSz then .error .createSpace
  else
    let data := match mode with
      | .exclusive => QueueData.exclusive (Fmbuf.create (elemSz * initSlots))
      | .rwPw => QueueData.rwPw (Fmbuf.create (elemSz * initSlots))
      | .rwPr => QueueData.rwPr (Fmbuf.create (elemSz * initSlots))
          (Fmbuf.create (elemSz * defaultWriteSlots))
    .ok (some { state := .idle, elemSz, maxSlots, data })

/-- `sk_queue_empty`. -/
def empty (q : Queue α) : Bool :=
  match q.data with
  | .exclusive mq => mq.used q.elemSz = 0
  | .rwPw mq => mq.used q.elemSz = 0
  | .rwPr rmq wmq => rmq.used q.elemSz = 0 ∧ wmq.used q.elemSz = 0

/-- `sk_queue_setstate`. -/
def setState (q : Queue α) (state : QueueState) : Except QueueFault (Queue α) :=
  match q.data with
  | .exclusive _ =>
    if state ≠ .idle ∧ state ≠ .lock then .error .setState else .ok { q with state }
  | .rwPw _ | .rwPr _ _ =>
    if state = .lock then .error .setState else .ok { q with state }

variable [QueueElem α]

/-- `sk_queue_push`: `true` is the non-zero return, a full buffer. -/
def push (q : Queue α) (elem : α) : Except QueueFault (Bool × Queue α) :=
  match q.data with
  | .exclusive mq =>
    if elemType elem ≠ .exclusive then .error .elemType
    else (mq.queuePush q.maxSlots q.elemSz elem).map
      fun (ret, mq) => (ret, { q with data := .exclusive mq })
  | .rwPw mq =>
    if elemType elem ≠ .read ∧ elemType elem ≠ .write then .error .elemType
    else (mq.queuePush q.maxSlots q.elemSz elem).map
      fun (ret, mq) => (ret, { q with data := .rwPw mq })
  | .rwPr rmq wmq =>
    if elemType elem ≠ .read ∧ elemType elem ≠ .write then .error .elemType
    else if elemType elem = .read then
      (rmq.queuePush q.maxSlots q.elemSz elem).map
        fun (ret, rmq) => (ret, { q with data := .rwPr rmq wmq })
    else
      (wmq.queuePush q.maxSlots q.elemSz elem).map
        fun (ret, wmq) => (ret, { q with data := .rwPr rmq wmq })

/-- `_sk_queue_pull_exlusive`: at most one element, none under `LOCK`. -/
def pullExclusive (state : QueueState) (mq : Fmbuf α) : List (Nat × α) × Fmbuf α :=
  if state = .lock then ([], mq)
  else
    match mq with
    | ⟨size, []⟩ => ([], ⟨size, []⟩)
    | ⟨size, elem :: rest⟩ => ([(0, elem)], ⟨size, rest⟩)

/-- `_sk_queue_pull_rw_pw`. -/
def pullRwPw (state : QueueState) (elemSz maxSlots : Nat) (mq : Fmbuf α) :
    Except QueueFault (List (Nat × α) × Fmbuf α) :=
  match state with
  | .idle =>
    match mq.queuePull none elemSz 0 1 0 with
    | ([], mq) => .ok ([], mq)
    | (first :: _, mq) =>
      if maxSlots = 1 then .ok ([first], mq)
      else if elemType first.2 = .write then .ok ([first], mq)
      else if elemType first.2 ≠ .read then .error .pullType
      else
        -- the read elements as much as possible, from `elems + 1 * elem_sz` on
        let (pulled, mq) :=
          mq.queuePull (some .read) elemSz (elemBaseSize * (1 * elemSz)) (maxSlots - 1) 0
        .ok (first :: pulled, mq)
  | .read => .ok (mq.queuePull (some .read) elemSz 0 maxSlots 0)
  | .write => .ok ([], mq)
  | .init | .destroy | .lock => .error .pullState

/-- `_sk_queue_pull_rw_pr`. -/
def pullRwPr (state : QueueState) (elemSz maxSlots : Nat) (rmq wmq : Fmbuf α) :
    Except QueueFault (List (Nat × α) × Fmbuf α × Fmbuf α) :=
  match state with
  | .idle =>
    match rmq.queuePull (some .read) elemSz 0 maxSlots 0 with
    | ([], rmq) =>
      let (pulled, wmq) := wmq.queuePull (some .write) elemSz 0 1 0
      .ok (pulled, rmq, wmq)
    | (pulled, rmq) => .ok (pulled, rmq, wmq)
  | .read =>
    let (pulled, rmq) := rmq.queuePull (some .read) elemSz 0 maxSlots 0
    .ok (pulled, rmq, wmq)
  | .write => .ok ([], rmq, wmq)
  | .init | .destroy | .lock => .error .pullState

/-- `sk_queue_pull`: the elements pulled, each with the byte offset it is written at. -/
def pull (q : Queue α) (maxSlots : Nat) : Except QueueFault (List (Nat × α) × Queue α) :=
  if maxSlots = 0 then .error .maxSlots
  else
    let maxPullSlots := if maxSlots > q.maxSlots then q.maxSlots else maxSlots
    match q.data with
    | .exclusive mq =>
      let (pulled, mq) := pullExclusive q.state mq
      .ok (pulled, { q with data := .exclusive mq })
    | .rwPw mq =>
      (pullRwPw q.state q.elemSz maxPullSlots mq).map
        fun (pulled, mq) => (pulled, { q with data := .rwPw mq })
    | .rwPr rmq wmq =>
      (pullRwPr q.state q.elemSz maxPullSlots rmq wmq).map
        fun (pulled, rmq, wmq) => (pulled, { q with data := .rwPr rmq wmq })

end Queue

end Skull
