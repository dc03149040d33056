import Skull.Common.Mbuf
import Skull.Sched.Sched

namespace Skull

open Machines

/-!
# The queues of an io (`sk_io`)

A scheduler has an io for each priority: two queues of events, over buffers of flibs.  flibs is not
part of the repository.  Its calls are the parameter `FmbufApi`, and `FmbufApi.Lawful` is what
`sk_io` relies on: a push succeeds iff the free bytes suffice, a pop iff the bytes are there, and
a realloc keeps the content.

* `SkIo.push`, `SkIo.pull` — `sk_io_push` and `sk_io_pull`, with `SkIo.growLoop` for the loop of
  `_get_new_size`;
* `SkIo.getNewSize_ends`, `SkIo.getNewSize_room` — the loop always ends, and below 2^62 bytes it
  ends with room for the batch;
* `SkIo.Represents` — what the queues hold; `SkIo.push_spec`, `SkIo.pull_spec`;
* `IoRun.lossless_of_reach` — **no event is lost**, whatever the batches;
* `SkIo.push_ioPush`, `SkIo.pull_ioPull` — the queues of `SkSched` are such queues.
-/

/-! ### flibs -/

/-- The calls of flibs on its buffers, which are of type `β`. -/
structure FmbufApi (β : Type) where
  create : Nat → β
  size : β → Nat
  used : β → Nat
  /-- Whether it fails. -/
  push : β → List UInt8 → Bool × β
  /-- Whether it fails, and the bytes copied out. -/
  pop : β → Nat → Bool × List UInt8 × β
  realloc : β → Nat → β

namespace FmbufApi

variable {β : Type}

/-- `fmbuf_free`. -/
def free (F : FmbufApi β) (b : β) : Nat := F.size b - F.used b

/-- **What the calls do** to the bytes of a buffer, oldest first. -/
structure Lawful (F : FmbufApi β) (content : β → List UInt8) : Prop where
  create : ∀ size, content (F.create size) = [] ∧ F.size (F.create size) = size
  used : ∀ b, F.used b = (content b).length
  push : ∀ b data, data.length ≤ F.free b → ∃ b', F.push b data = (false, b') ∧
    content b' = content b ++ data ∧ F.size b' = F.size b
  full : ∀ b data, F.free b < data.length → F.push b data = (true, b)
  pop : ∀ b size, size ≤ F.used b → ∃ b', F.pop b size = (false, (content b).take size, b') ∧
    content b' = (content b).drop size ∧ F.size b' = F.size b
  realloc : ∀ b size, F.used b ≤ size → content (F.realloc b size) = content b ∧
    F.size (F.realloc b size) = size

end FmbufApi

/-- A buffer of bytes has these calls. -/
def ByteBuf.api (cut : List UInt8 → Nat → List UInt8) : FmbufApi ByteBuf where
  create size := ⟨size, []⟩
  size := ByteBuf.size
  used := ByteBuf.used
  push := ByteBuf.push
  pop b size := ((b.pop size).1, b.bytes.take size, (b.pop size).2)
  realloc := ByteBuf.realloc cut

/-- A buffer of bytes does what is documented. -/
theorem ByteBuf.api_lawful (cut : List UInt8 → Nat → List UInt8) :
    (ByteBuf.api cut).Lawful ByteBuf.bytes where
  create _ := ⟨rfl, rfl⟩
  used _ := rfl
  push b data hfree := by
    have hpush : b.push data = (false, { b with bytes := b.bytes ++ data }) := by
      rw [ByteBuf.push, if_pos (show data.length ≤ b.free from hfree)]
    exact ⟨_, hpush, rfl, rfl⟩
  full b data hfull := by
    show b.push data = (true, b)
    rw [ByteBuf.push, if_neg (show ¬ data.length ≤ b.free from Nat.not_le.mpr hfull)]
  pop b size hle := by
    have hpop : b.pop size = (false, { b with bytes := b.bytes.drop size }) := by
      rw [ByteBuf.pop, if_pos (show size ≤ b.used from hle)]
    refine ⟨(b.pop size).2, ?_, ?_, ?_⟩
    · show ((b.pop size).1, b.bytes.take size, (b.pop size).2) = _
      rw [hpop]
    · rw [hpop]
    · rw [hpop]
      rfl
  realloc b size hle := by
    show (b.realloc cut size).bytes = b.bytes ∧ _
    rw [ByteBuf.realloc, if_pos (show b.used ≤ size from hle)]
    exact ⟨rfl, rfl⟩

/-! ### The code -/

/-- `SK_EVENT_SZ`, with pointers of 64 bits. -/
def eventSz : Nat := 56

/-- An event takes some bytes. -/
theorem eventSz_pos : 0 < eventSz := by decide

/-- An `sk_event_t` in memory. -/
abbrev RawEvent := { bytes : List UInt8 // bytes.length = eventSz }

/-- An array of them. -/
def rawBytes (events : List RawEvent) : List UInt8 := events.flatMap Subtype.val

/-- `sk_io_t`. -/
structure SkIo (β : Type) where
  mq : IoType → β

/-- The assertions, and a loop that does not end. -/
inductive IoFault
  /-- The loop of `_get_new_size`. -/
  | loops
  /-- `new_sz > 0` in `_get_new_size`. -/
  | newSz
  /-- The last one of `sk_io_push`. -/
  | push
  /-- That of `sk_io_pull`. -/
  | pop
  deriving DecidableEq, Repr

namespace SkIo

variable {β : Type} (F : FmbufApi β)

/-- A queue has another buffer. -/
def setMq (io : SkIo β) (type : IoType) (mq : β) : SkIo β := ⟨Function.update io.mq type mq⟩

/-- `sk_io_create`; sizes are of type `size_t`. -/
def create (inputSz outputSz : Nat) : SkIo β where
  mq
    | .input => F.create (eventSz * inputSz % (sizeMax + 1))
    | .output => F.create (eventSz * outputSz % (sizeMax + 1))

/-- The loop of `_get_new_size`, or `none` when the turns do not suffice. -/
def growLoop (usedSz needSz : Nat) : (turns newSz : Nat) → Option Nat
  | 0, _ => none
  | turns + 1, newSz =>
    if newSz = 0 then some newSz
    else
      let newSz := newSz * 2 % (sizeMax + 1)
      if needSz ≤ (newSz + (sizeMax + 1) - usedSz) % (sizeMax + 1) then some newSz
      else growLoop usedSz needSz turns newSz

/-- Enough turns: a size that is doubled 64 times is zero. -/
def growTurns : Nat := 65

/-- `_get_new_size`, up to its assertion. -/
def getNewSize (mq : β) (nevents : Nat) : Option Nat :=
  let currCnt := F.size mq / eventSz
  let usedCnt := F.used mq / eventSz
  let newCnt := if currCnt = 0 then 1 else currCnt
  growLoop (usedCnt * eventSz % (sizeMax + 1)) (nevents * eventSz % (sizeMax + 1)) growTurns
    (newCnt * eventSz % (sizeMax + 1))

/-- `sk_io_push`. -/
def push (io : SkIo β) (type : IoType) (events : List RawEvent) : Except IoFault (SkIo β) :=
  let data := (rawBytes events).take (eventSz * events.length % (sizeMax + 1))
  match F.push (io.mq type) data with
  | (false, mq) => .ok (io.setMq type mq)
  | (true, mq) =>
    match getNewSize F mq events.length with
    | none => .error .loops
    | some newSz =>
      if newSz = 0 then .error .newSz
      else
        match F.push (F.realloc mq newSz) data with
        | (false, mq) => .ok (io.setMq type mq)
        | (true, _) => .error .push

/-- `sk_io_pull`: the number it returns, and the bytes that it copies to `events`. -/
def pull (io : SkIo β) (type : IoType) (nevents : Nat) :
    Except IoFault (Nat × List UInt8 × SkIo β) :=
  let mq := io.mq type
  let mqCnt := F.used mq / eventSz
  let actualCnt := if nevents > mqCnt then mqCnt else nevents
  if mqCnt = 0 then .ok (0, [], io)
  else
    match F.pop mq (actualCnt * eventSz % (sizeMax + 1)) with
    | (false, bytes, mq) => .ok (actualCnt, bytes, io.setMq type mq)
    | (true, _) => .error .pop

/-- `sk_io_used`. -/
def used (io : SkIo β) (type : IoType) : Nat := F.used (io.mq type) / eventSz

/-! ### The growth loop -/

section Loop

variable {usedSz needSz : Nat}

/-- **The growth loop ends**, whatever it starts from: a size that is doubled often enough is zero
    in 64 bits. -/
theorem growLoop_ends (k : Nat) : ∀ newSz, newSz ≤ sizeMax → sizeMax + 1 ∣ newSz * 2 ^ k →
    (growLoop usedSz needSz (k + 1) newSz).isSome := by
  have hmax : sizeMax + 1 = 2 ^ 64 := rfl
  induction k with
  | zero =>
    intro newSz hle hdvd
    rw [Nat.pow_zero, Nat.mul_one] at hdvd
    have hzero : newSz = 0 := Nat.eq_zero_of_dvd_of_lt hdvd (Nat.lt_succ_of_le hle)
    rw [growLoop, if_pos hzero]
    rfl
  | succ k ih =>
    intro newSz hle hdvd
    rw [growLoop]
    split
    · rfl
    · dsimp only
      split
      · rfl
      · apply ih
        · exact Nat.le_of_lt_succ (Nat.mod_lt _ (Nat.succ_pos _))
        · -- the doubled size differs from the exact one by a multiple of 2^64
          rw [Nat.pow_succ', ← Nat.mul_assoc] at hdvd
          rw [Nat.dvd_iff_mod_eq_zero, Nat.mod_mul_mod, ← Nat.dvd_iff_mod_eq_zero]
          exact hdvd

/-- **It ends with room** for a batch, when what is used and the batch are below 2^62 bytes: the
    size was doubled at least once, and no doubling overflows. -/
theorem growLoop_room (hneed : usedSz + needSz < 2 ^ 62) (k : Nat) : ∀ newSz turns, k < turns →
    0 < newSz → newSz < 2 ^ 62 → usedSz ≤ newSz → 2 ^ 62 ≤ newSz * 2 ^ k →
    ∃ r, growLoop usedSz needSz turns newSz = some r ∧ usedSz + needSz ≤ r ∧ newSz * 2 ≤ r ∧
      r < 2 ^ 63 := by
  have hmax : sizeMax + 1 = 2 ^ 64 := rfl
  -- the size is doubled at most `k` times
  induction k with
  | zero =>
    intro newSz turns _ _ hlt _ hbig
    rw [Nat.pow_zero, Nat.mul_one] at hbig
    exact absurd hbig (Nat.not_le.mpr hlt)
  | succ k ih =>
    intro newSz turns hturns hpos hlt hused hbig
    obtain ⟨turns, rfl⟩ := Nat.exists_eq_succ_of_ne_zero (Nat.ne_of_gt (Nat.zero_lt_of_lt hturns))
    -- no doubling overflows, and neither does the room
    have hdouble : newSz * 2 % (sizeMax + 1) = newSz * 2 := Nat.mod_eq_of_lt (by omega)
    have hsub : (newSz * 2 + (sizeMax + 1) - usedSz) % (sizeMax + 1) = newSz * 2 - usedSz := by
      have hcomm : newSz * 2 + (sizeMax + 1) - usedSz = newSz * 2 - usedSz + (sizeMax + 1) := by
        omega
      rw [hcomm, Nat.add_mod_right, Nat.mod_eq_of_lt (by omega)]
    rw [growLoop, if_neg (Nat.ne_of_gt hpos)]
    dsimp only
    rw [hdouble, hsub]
    -- the room is enough, or the loop goes on
    split
    · exact ⟨newSz * 2, rfl, by omega, Nat.le_refl _, by omega⟩
    · have hpow : newSz * 2 * 2 ^ k = newSz * 2 ^ (k + 1) := by
        rw [Nat.pow_succ', Nat.mul_assoc]
      obtain ⟨r, hr, hroom, hle, hsmall⟩ := ih (newSz * 2) turns (by omega) (by omega) (by omega)
        (by omega) (by rw [hpow]; exact hbig)
      exact ⟨r, hr, hroom, by omega, hsmall⟩

/-- The loop of `_get_new_size` ends for every buffer and every batch. -/
theorem getNewSize_ends (mq : β) (nevents : Nat) : (getNewSize F mq nevents).isSome := by
  apply growLoop_ends 64
  · exact Nat.le_of_lt_succ (Nat.mod_lt _ (Nat.succ_pos _))
  · exact Nat.dvd_mul_left _ _

/-- The new size has room for the batch, when the buffer has not. -/
theorem getNewSize_room {mq : β} {held nevents : Nat} (hused : F.used mq = held * eventSz)
    (hsize : F.used mq ≤ F.size mq) (hfull : F.free mq < eventSz * nevents)
    (hbelow : F.used mq + eventSz * nevents < 2 ^ 62) :
    ∃ r, getNewSize F mq nevents = some r ∧ F.used mq + eventSz * nevents ≤ r ∧ r ≠ 0 := by
  have hmax : sizeMax + 1 = 2 ^ 64 := rfl
  have hsz : eventSz < 2 ^ 62 := by decide
  have hfree : F.free mq = F.size mq - F.used mq := rfl
  have hdiv : F.used mq / eventSz * eventSz = F.used mq := by
    rw [hused, Nat.mul_div_cancel _ eventSz_pos]
  -- the current size in whole events, or one event
  set newCnt := if F.size mq / eventSz = 0 then 1 else F.size mq / eventSz with hdef
  have hwhole : F.size mq / eventSz * eventSz ≤ F.size mq := Nat.div_mul_le_self _ _
  have hcnt : 0 < newCnt * eventSz ∧ newCnt * eventSz < 2 ^ 62 ∧ F.used mq ≤ newCnt * eventSz := by
    by_cases hzero : F.size mq / eventSz = 0
    · have hone : newCnt = 1 := by rw [hdef, if_pos hzero]
      have hnone : F.used mq / eventSz = 0 :=
        Nat.eq_zero_of_le_zero (hzero ▸ Nat.div_le_div_right hsize)
      rw [hnone, Nat.zero_mul] at hdiv
      rw [hone, Nat.one_mul, ← hdiv]
      exact ⟨eventSz_pos, hsz, Nat.zero_le _⟩
    · have hsame : newCnt = F.size mq / eventSz := by rw [hdef, if_neg hzero]
      have hle : F.used mq ≤ F.size mq / eventSz * eventSz := by
        rw [← hdiv]
        exact Nat.mul_le_mul_right _ (Nat.div_le_div_right hsize)
      rw [hsame]
      exact ⟨Nat.mul_pos (Nat.pos_of_ne_zero hzero) eventSz_pos, by omega, hle⟩
  obtain ⟨hpos, hlt, hle⟩ := hcnt
  have hbig : 2 ^ 62 ≤ newCnt * eventSz * 2 ^ 62 := Nat.le_mul_of_pos_left _ hpos
  obtain ⟨r, hr, hroom, hdouble, -⟩ := growLoop_room hbelow 62 (newCnt * eventSz) growTurns
    (by decide) hpos hlt hle hbig
  refine ⟨r, ?_, hroom, by omega⟩
  rw [getNewSize, hdiv, Nat.mul_comm nevents, Nat.mod_eq_of_lt (by omega : F.used mq < _),
    Nat.mod_eq_of_lt (by omega : eventSz * nevents < _)]
  show growLoop _ _ growTurns (newCnt * eventSz % (sizeMax + 1)) = some r
  rw [Nat.mod_eq_of_lt (by omega)]
  exact hr

end Loop

/-! ### What the queues hold -/

theorem length_rawBytes (events : List RawEvent) :
    (rawBytes events).length = events.length * eventSz := by
  induction events with
  | nil => rw [rawBytes, List.flatMap_nil, List.length_nil, List.length_nil, Nat.zero_mul]
  | cons e events ih =>
    have hcons : rawBytes (e :: events) = e.val ++ rawBytes events := List.flatMap_cons
    rw [hcons, List.length_append, e.property, ih, List.length_cons, Nat.succ_mul, Nat.add_comm]

theorem rawBytes_append (as bs : List RawEvent) :
    rawBytes (as ++ bs) = rawBytes as ++ rawBytes bs :=
  List.flatMap_append

/-- The bytes of the first events of a list, and those of the others. -/
theorem rawBytes_split (events : List RawEvent) (n : Nat) :
    (rawBytes events).take (min n events.length * eventSz) = rawBytes (events.take n) ∧
      (rawBytes events).drop (min n events.length * eventSz) = rawBytes (events.drop n) := by
  have hlen : (rawBytes (events.take n)).length = min n events.length * eventSz := by
    rw [length_rawBytes, List.length_take]
  have hsplit : rawBytes events = rawBytes (events.take n) ++ rawBytes (events.drop n) := by
    rw [← rawBytes_append, List.take_append_drop]
  rw [hsplit, ← hlen, List.take_left, List.drop_left]
  exact ⟨rfl, rfl⟩

/-- The queues of an io hold the events `queues`. -/
structure Represents (content : β → List UInt8) (io : SkIo β) (queues : IoType → List RawEvent) :
    Prop where
  content : ∀ type, content (io.mq type) = rawBytes (queues type)
  size : ∀ type, F.used (io.mq type) ≤ F.size (io.mq type)

variable {F} {content : β → List UInt8} {io : SkIo β} {queues : IoType → List RawEvent}

/-- The bytes used, and the events. -/
theorem Represents.used (hF : F.Lawful content) (h : io.Represents F content queues)
    (type : IoType) : F.used (io.mq type) = (queues type).length * eventSz := by
  rw [hF.used, h.content, length_rawBytes]

/-- `sk_io_used` is the number of events. -/
theorem used_eq (hF : F.Lawful content) (h : io.Represents F content queues) (type : IoType) :
    io.used F type = (queues type).length := by
  rw [SkIo.used, h.used hF, Nat.mul_div_cancel _ eventSz_pos]

/-- One queue changes. -/
theorem Represents.setMq (h : io.Represents F content queues) {type : IoType} {mq : β}
    {queue : List RawEvent} (hmq : content mq = rawBytes queue) (hsize : F.used mq ≤ F.size mq) :
    (io.setMq type mq).Represents F content (Function.update queues type queue) := by
  have hsame : (io.setMq type mq).mq type = mq := Function.update_self ..
  have hother : ∀ t, t ≠ type → (io.setMq type mq).mq t = io.mq t := fun t ht =>
    Function.update_of_ne ht ..
  refine ⟨fun t => ?_, fun t => ?_⟩
  · by_cases ht : t = type
    · rw [ht, hsame, Function.update_self]
      exact hmq
    · rw [hother t ht, Function.update_of_ne ht]
      exact h.content t
  · by_cases ht : t = type
    · rw [ht, hsame]
      exact hsize
    · rw [hother t ht]
      exact h.size t

/-- A new io is empty. -/
theorem create_represents (hF : F.Lawful content) (inputSz outputSz : Nat) :
    (create F inputSz outputSz).Represents F content fun _ => [] := by
  have hempty : ∀ size, content (F.create size) = [] ∧ F.used (F.create size) = 0 := fun size =>
    ⟨(hF.create size).1, by rw [hF.used, (hF.create size).1, List.length_nil]⟩
  refine ⟨fun type => ?_, fun type => ?_⟩
  · cases type <;> exact (hempty _).1
  · cases type <;> rw [SkIo.create, (hempty _).2] <;> exact Nat.zero_le _

/-- **Pushing**: a batch below 2^62 bytes with what is held is appended. -/
theorem push_spec (hF : F.Lawful content) (h : io.Represents F content queues) (type : IoType)
    (events : List RawEvent)
    (hbelow : F.used (io.mq type) + eventSz * events.length < 2 ^ 62) :
    ∃ io', io.push F type events = .ok io' ∧
      io'.Represents F content (Function.update queues type (queues type ++ events)) := by
  have hmax : sizeMax + 1 = 2 ^ 64 := rfl
  set mq := io.mq type with hmq
  have hlen : (rawBytes events).length = eventSz * events.length := by
    rw [length_rawBytes, Nat.mul_comm]
  have hdata : (rawBytes events).take (eventSz * events.length % (sizeMax + 1)) =
      rawBytes events := by
    rw [Nat.mod_eq_of_lt (by omega), ← hlen, List.take_length]
  -- a push that succeeds, to a buffer with the same content
  have happend : ∀ b, content b = content mq → F.used b ≤ F.size b →
      (rawBytes events).length ≤ F.free b → ∃ b', F.push b (rawBytes events) = (false, b') ∧
        content b' = rawBytes (queues type ++ events) ∧ F.used b' ≤ F.size b' := by
    intro b hb hsize hfree
    obtain ⟨b', hpush, hcontent, hsame⟩ := hF.push b (rawBytes events) hfree
    have hroom : F.free b = F.size b - F.used b := rfl
    refine ⟨b', hpush, ?_, ?_⟩
    · rw [hcontent, hb, hmq, h.content, rawBytes_append]
    · rw [hF.used b', hcontent, List.length_append, ← hF.used b, hsame]
      omega
  rw [SkIo.push, hdata, ← hmq]
  by_cases hfree : (rawBytes events).length ≤ F.free mq
  · obtain ⟨b, hpush, hcontent, hsize⟩ := happend mq rfl (h.size type) hfree
    rw [hpush]
    exact ⟨_, rfl, h.setMq hcontent hsize⟩
  · have hfull := Nat.lt_of_not_le hfree
    have hused : F.used mq = (queues type).length * eventSz := h.used hF type
    rw [hF.full mq _ hfull]
    dsimp only
    obtain ⟨r, hr, hroom, hpos⟩ := getNewSize_room F hused (h.size type) (hlen ▸ hfull) hbelow
    obtain ⟨hkeep, hsize⟩ := hF.realloc mq r (by omega)
    have hheld : F.used (F.realloc mq r) = F.used mq := by rw [hF.used, hkeep, ← hF.used]
    have hfree' : F.free (F.realloc mq r) = r - F.used mq := by
      rw [FmbufApi.free, hsize, hheld]
    obtain ⟨b, hpush, hcontent, hle⟩ := happend (F.realloc mq r) hkeep (by omega) (by omega)
    rw [hr]
    dsimp only
    rw [if_neg hpos, hpush]
    exact ⟨_, rfl, h.setMq hcontent hle⟩

/-- **Pulling**: the first events come out, as many as are wanted or held. -/
theorem pull_spec (hF : F.Lawful content) (h : io.Represents F content queues) (type : IoType)
    (hbelow : F.used (io.mq type) ≤ sizeMax) (nevents : Nat) :
    ∃ io', io.pull F type nevents = .ok (min nevents (queues type).length,
        rawBytes ((queues type).take nevents), io') ∧
      io'.Represents F content (Function.update queues type ((queues type).drop nevents)) := by
  have hused := h.used hF type
  have hcnt : F.used (io.mq type) / eventSz = (queues type).length := used_eq hF h type
  rw [SkIo.pull]
  rw [hcnt]
  -- nothing is there to pull
  by_cases hzero : (queues type).length = 0
  · have hnil := List.eq_nil_of_length_eq_zero hzero
    have hsame : Function.update queues type ((queues type).drop nevents) = queues := by
      rw [hnil, List.drop_nil, ← hnil, Function.update_eq_self]
    rw [if_pos hzero, hzero, Nat.min_zero, hsame, hnil, List.take_nil]
    exact ⟨io, rfl, h⟩
  · -- at most as many events as there are
    have hmin : (if nevents > (queues type).length then (queues type).length else nevents) =
        min nevents (queues type).length := by
      split <;> omega
    have hle : min nevents (queues type).length * eventSz ≤ F.used (io.mq type) := by
      rw [hused]
      exact Nat.mul_le_mul_right _ (Nat.min_le_right _ _)
    -- `fmbuf_pop` gives the first bytes and keeps the others
    obtain ⟨b, hpop, hcontent, hsame⟩ := hF.pop (io.mq type) _ hle
    rw [h.content, (rawBytes_split _ _).1] at hpop
    rw [h.content, (rawBytes_split _ _).2] at hcontent
    rw [if_neg hzero, hmin, Nat.mod_eq_of_lt (by omega), hpop]
    refine ⟨_, rfl, h.setMq hcontent ?_⟩
    have hless : F.used b ≤ F.used (io.mq type) := by
      rw [hF.used b, hcontent, hused, length_rawBytes, List.length_drop]
      exact Nat.mul_le_mul_right _ (Nat.sub_le _ _)
    rw [hsame]
    exact Nat.le_trans hless (h.size type)

/-! ### The queues of a scheduler -/

variable {enc : SkEvent → RawEvent} {k : SkSched} {pri : Nat}

/-- The queues of the model of a scheduler take an event as an io does. -/
theorem push_ioPush (hF : F.Lawful content)
    (h : io.Represents F content fun t => (k.ioTbl pri t).map enc) (type : IoType) (e : SkEvent)
    (hbelow : F.used (io.mq type) + eventSz < 2 ^ 62) :
    ∃ io', io.push F type [enc e] = .ok io' ∧
      io'.Represents F content fun t => ((k.ioPush pri type e).ioTbl pri t).map enc := by
  have hone : eventSz * [enc e].length = eventSz := Nat.mul_one _
  obtain ⟨io', hpush, hio'⟩ := push_spec hF h type [enc e] (by rw [hone]; exact hbelow)
  refine ⟨io', hpush, ?_⟩
  have hsame : (fun t => ((k.ioPush pri type e).ioTbl pri t).map enc) = Function.update
      (fun t => (k.ioTbl pri t).map enc) type ((k.ioTbl pri type).map enc ++ [enc e]) := by
    funext t
    by_cases ht : t = type
    · rw [ht, Function.update_self]
      simp [SkSched.ioPush]
    · rw [Function.update_of_ne ht]
      simp [SkSched.ioPush, ht]
  rw [hsame]
  exact hio'

/-- They give the event that an io gives. -/
theorem pull_ioPull (hF : F.Lawful content)
    (h : io.Represents F content fun t => (k.ioTbl pri t).map enc) (type : IoType)
    (hbelow : F.used (io.mq type) ≤ sizeMax) :
    ∃ io', io.pull F type 1 = .ok (min 1 (k.ioTbl pri type).length,
        rawBytes ((k.ioTbl pri type).head?.map enc).toList, io') ∧
      io'.Represents F content fun t => ((k.ioPull pri type).ioTbl pri t).map enc := by
  obtain ⟨io', hpull, hio'⟩ := pull_spec hF h type hbelow 1
  rw [List.length_map] at hpull
  have hfirst : ((k.ioTbl pri type).map enc).take 1 =
      ((k.ioTbl pri type).head?.map enc).toList := by
    cases k.ioTbl pri type <;> rfl
  have hsame : (fun t => ((k.ioPull pri type).ioTbl pri t).map enc) = Function.update
      (fun t => (k.ioTbl pri t).map enc) type (((k.ioTbl pri type).map enc).drop 1) := by
    funext t
    by_cases ht : t = type
    · rw [ht, Function.update_self]
      simp [SkSched.ioPull]
    · rw [Function.update_of_ne ht]
      simp [SkSched.ioPull, ht]
  rw [hfirst] at hpull
  rw [hsame]
  exact ⟨io', hpull, hio'⟩

end SkIo

/-! ### Runs -/

/-- An io with its history. -/
structure IoRun (β : Type) where
  io : SkIo β
  /-- The events pushed to each queue. -/
  pushed : IoType → List RawEvent
  /-- The bytes that pulls copied out. -/
  pulled : IoType → List UInt8
  /-- The sum of the numbers that pulls returned. -/
  count : IoType → Nat

/-- A use of an io. -/
inductive IoAction
  | push (type : IoType) (events : List RawEvent)
  | pull (type : IoType) (nevents : Nat)

namespace IoRun

variable {β : Type} (F : FmbufApi β)

/-- What runs on an action. -/
def exec (s : IoRun β) : IoAction → Except IoFault (IoRun β)
  | .push type events => (s.io.push F type events).map fun io =>
    { s with io, pushed := Function.update s.pushed type (s.pushed type ++ events) }
  | .pull type nevents => (s.io.pull F type nevents).map fun r =>
    { s with
      io := r.2.2
      pulled := Function.update s.pulled type (s.pulled type ++ r.2.1)
      count := Function.update s.count type (s.count type + r.1) }

/-- The runs of an io.  Batches have sizes of type `size_t`. -/
def machine : Machine (IoRun β) IoAction IoFault where
  init s := ∃ inputSz outputSz,
    s = ⟨SkIo.create F inputSz outputSz, fun _ => [], fun _ => [], fun _ => 0⟩
  enabled _ a := match a with
    | .push _ events => events.length ≤ sizeMax
    | .pull _ nevents => nevents ≤ sizeMax
  exec := exec F

instance (s : IoRun β) (a : IoAction) : Decidable ((machine F).enabled s a) :=
  match a with
  | .push _ events => inferInstanceAs (Decidable (events.length ≤ sizeMax))
  | .pull _ nevents => inferInstanceAs (Decidable (nevents ≤ sizeMax))

/-- What is held and pushed is below 2^62 bytes. -/
def Below (s : IoRun β) : IoAction → Prop
  | .push type events => F.used (s.io.mq type) + eventSz * events.length < 2 ^ 62
  | .pull .. => True

instance (s : IoRun β) (a : IoAction) : Decidable (s.Below F a) :=
  match a with
  | .push .. => inferInstanceAs (Decidable (_ < _))
  | .pull .. => inferInstanceAs (Decidable True)

/-- The events that were pushed and not pulled. -/
def queue (s : IoRun β) (type : IoType) : List RawEvent := (s.pushed type).drop (s.count type)

/-- **No event is lost** from a queue. -/
structure Lossless (s : IoRun β) (type : IoType) : Prop where
  /-- What was pulled is what was pushed first. -/
  fifo : s.count type ≤ (s.pushed type).length ∧
    s.pulled type = rawBytes ((s.pushed type).take (s.count type))
  /-- What was not pulled is there. -/
  held : s.io.used F type = (s.queue type).length
  /-- No push fails, and it appends its events. -/
  pushes : ∀ events, s.Below F (.push type events) → ∃ s', s.exec F (.push type events) = .ok s' ∧
    s'.queue type = s.queue type ++ events
  /-- The loop of `_get_new_size` ends, for any batch. -/
  grows : ∀ nevents, (SkIo.getNewSize F (s.io.mq type) nevents).isSome
  /-- A pull returns as many events as are wanted or held, which are the first ones. -/
  pulls : ∀ nevents, ∃ io, s.io.pull F type nevents = .ok (min nevents (s.queue type).length,
    rawBytes ((s.queue type).take nevents), io)

/-- **The invariant.** -/
structure Inv (content : β → List UInt8) (s : IoRun β) : Prop where
  represents : s.io.Represents F content s.queue
  below : ∀ type, F.used (s.io.mq type) < 2 ^ 62
  count : ∀ type, s.count type ≤ (s.pushed type).length
  pulled : ∀ type, s.pulled type = rawBytes ((s.pushed type).take (s.count type))

variable {F} {content : β → List UInt8} {s : IoRun β}

/-- More is pushed. -/
theorem queue_push {type : IoType} (hcount : s.count type ≤ (s.pushed type).length) (io : SkIo β)
    (events : List RawEvent) :
    queue { s with io, pushed := Function.update s.pushed type (s.pushed type ++ events) } =
      Function.update s.queue type (s.queue type ++ events) := by
  funext t
  show (Function.update s.pushed type (s.pushed type ++ events) t).drop (s.count t) = _
  by_cases ht : t = type
  · rw [ht, Function.update_self, Function.update_self, List.drop_append_of_le_length hcount, queue]
  · rw [Function.update_of_ne ht, Function.update_of_ne ht, queue]

/-- The first events are pulled. -/
theorem queue_pull (type : IoType) (n : Nat) (io : SkIo β) (pulled : IoType → List UInt8) :
    queue { s with
      io, pulled
      count := Function.update s.count type (s.count type + min n (s.queue type).length) } =
        Function.update s.queue type ((s.queue type).drop n) := by
  funext t
  show (s.pushed t).drop (Function.update s.count type
    (s.count type + min n (s.queue type).length) t) = _
  by_cases ht : t = type
  · have hmin : (s.queue type).drop (min n (s.queue type).length) = (s.queue type).drop n := by
      rcases Nat.le_total n (s.queue type).length with hle | hle
      · rw [Nat.min_eq_left hle]
      · rw [Nat.min_eq_right hle, List.drop_length, List.drop_of_length_le hle]
    rw [ht, Function.update_self, Function.update_self, ← hmin, ← List.drop_drop, queue]
  · rw [Function.update_of_ne ht, Function.update_of_ne ht, queue]

/-- **A push** keeps the invariant. -/
theorem Inv.push (hF : F.Lawful content) (h : s.Inv F content) {type : IoType}
    {events : List RawEvent} (hbelow : s.Below F (.push type events)) :
    ∃ s', s.exec F (.push type events) = .ok s' ∧ s'.Inv F content ∧
      s'.queue type = s.queue type ++ events := by
  obtain ⟨io', hpush, hio'⟩ := SkIo.push_spec hF h.represents type events hbelow
  have hqueue := queue_push (h.count type) io' events
  refine ⟨{ s with io := io', pushed := Function.update s.pushed type (s.pushed type ++ events) },
    ?_, ⟨?_, fun t => ?_, fun t => ?_, fun t => ?_⟩, ?_⟩
  · -- the queue takes the events
    rw [exec, hpush]
    rfl
  · rw [hqueue]
    exact hio'
  · show F.used (io'.mq t) < 2 ^ 62
    rw [hio'.used hF t]
    by_cases ht : t = type
    · rw [ht, Function.update_self, List.length_append, Nat.add_mul, ← h.represents.used hF type,
        Nat.mul_comm events.length]
      exact hbelow
    · rw [Function.update_of_ne ht, ← h.represents.used hF t]
      exact h.below t
  · show s.count t ≤ (Function.update s.pushed type (s.pushed type ++ events) t).length
    -- the numbers of what was pulled stay below those that were pushed
    by_cases ht : t = type
    · rw [ht, Function.update_self, List.length_append]
      exact Nat.le_trans (h.count type) (Nat.le_add_right _ _)
    · rw [Function.update_of_ne ht]
      exact h.count t
  · show s.pulled t =
      rawBytes ((Function.update s.pushed type (s.pushed type ++ events) t).take (s.count t))
    by_cases ht : t = type
    · -- what was pulled lies before what is pushed
      rw [ht, Function.update_self, List.take_append_of_le_length (h.count type)]
      exact h.pulled type
    · rw [Function.update_of_ne ht]
      exact h.pulled t
  · rw [hqueue, Function.update_self]

/-- **A pull** keeps it. -/
theorem Inv.pull (hF : F.Lawful content) (h : s.Inv F content) (type : IoType) (nevents : Nat) :
    ∃ io, s.io.pull F type nevents = .ok (min nevents (s.queue type).length,
        rawBytes ((s.queue type).take nevents), io) ∧
      Inv F content { s with
        io
        pulled := Function.update s.pulled type
          (s.pulled type ++ rawBytes ((s.queue type).take nevents))
        count := Function.update s.count type
          (s.count type + min nevents (s.queue type).length) } := by
  have hmax : sizeMax + 1 = 2 ^ 64 := rfl
  have hsmall := h.below type
  obtain ⟨io, hpull, hio⟩ := SkIo.pull_spec hF h.represents type (by omega) nevents
  have hlen : (s.queue type).length = (s.pushed type).length - s.count type := List.length_drop
  have hcount := h.count type
  refine ⟨io, hpull, ?_, fun t => ?_, fun t => ?_, fun t => ?_⟩
  · -- the queue is what is left
    rw [queue_pull]
    exact hio
  · show F.used (io.mq t) < 2 ^ 62
    rw [hio.used hF t]
    by_cases ht : t = type
    · -- what is left takes less room
      have hused := h.represents.used hF type
      rw [ht, Function.update_self, List.length_drop]
      refine Nat.lt_of_le_of_lt ?_ hsmall
      rw [hused]
      exact Nat.mul_le_mul_right _ (Nat.sub_le _ _)
    · rw [Function.update_of_ne ht, ← h.represents.used hF t]
      exact h.below t
  · show Function.update s.count type (s.count type + min nevents (s.queue type).length) t ≤
      (s.pushed t).length
    by_cases ht : t = type
    · rw [ht, Function.update_self]
      omega
    · rw [Function.update_of_ne ht]
      exact h.count t
  · show Function.update s.pulled type _ t = rawBytes ((s.pushed t).take
      (Function.update s.count type (s.count type + min nevents (s.queue type).length) t))
    by_cases ht : t = type
    · -- what is pulled now continues what was pulled before
      rw [ht, Function.update_self, Function.update_self, List.take_add, SkIo.rawBytes_append,
        ← h.pulled type]
      have hmin : (s.queue type).take (min nevents (s.queue type).length) =
          (s.queue type).take nevents := List.take_eq_take_min.symm
      rw [← hmin]
      rfl
    · rw [Function.update_of_ne ht, Function.update_of_ne ht]
      exact h.pulled t

/-- The invariant says that no event is lost. -/
theorem Inv.lossless (hF : F.Lawful content) (h : s.Inv F content) (type : IoType) :
    s.Lossless F type where
  fifo := ⟨h.count type, h.pulled type⟩
  held := SkIo.used_eq hF h.represents type
  pushes events hbelow := by
    obtain ⟨s', hs', -, hqueue⟩ := h.push hF hbelow
    exact ⟨s', hs', hqueue⟩
  grows nevents := SkIo.getNewSize_ends F _ nevents
  pulls nevents := by
    obtain ⟨io, hpull, -⟩ := h.pull hF type nevents
    exact ⟨io, hpull⟩

/-- The invariant holds along every run that stays below 2^62 bytes. -/
theorem reach_inv (hF : F.Lawful content) (h : (machine F).Reach (Below F) s) :
    s.Inv F content := by
  refine h.invariant ?_ ?_
  · rintro s ⟨inputSz, outputSz, rfl⟩
    have hempty := SkIo.create_represents hF inputSz outputSz
    refine ⟨hempty, fun type => ?_, fun type => Nat.le_refl _, fun type => rfl⟩
    rw [hempty.used hF type, List.length_nil, Nat.zero_mul]
    exact Nat.two_pow_pos 62
  · intro s a s' hs _ hbelow hx
    cases a with
    | push type events =>
      obtain ⟨t, ht, hinv, -⟩ := hs.push hF hbelow
      rw [← Except.ok.inj (ht.symm.trans hx)]
      exact hinv
    | pull type nevents =>
      obtain ⟨io, hpull, hinv⟩ := hs.pull hF type nevents
      have hexec : (machine F).exec s (.pull type nevents) =
          (s.io.pull F type nevents).map _ := rfl
      rw [hexec, hpull] at hx
      rw [← Except.ok.inj hx]
      exact hinv

/-- **No event is lost**, for every sequence of pushes and pulls with any batches, as long as what
    is held and pushed is below 2^62 bytes. -/
theorem lossless_of_reach (hF : F.Lawful content) (h : (machine F).Reach (Below F) s)
    (type : IoType) : s.Lossless F type := (reach_inv hF h).lossless hF type

/-- An event of the tests. -/
def sampleEvent (byte : UInt8) : RawEvent := ⟨List.replicate eventSz byte, List.length_replicate⟩

/-- An io with no room at first, where a batch of three events is pushed and two are pulled. -/
def sampleRun : IoRun ByteBuf :=
  (machine (ByteBuf.api keepFirst)).final
    ⟨SkIo.create (ByteBuf.api keepFirst) 0 0, fun _ => [], fun _ => [], fun _ => 0⟩
    [.push .input [sampleEvent 1, sampleEvent 2, sampleEvent 3], .pull .input 2,
      .push .output [sampleEvent 4], .push .input [sampleEvent 5]]

theorem create_init (F : FmbufApi β) (inputSz outputSz : Nat) : (machine F).init
    ⟨SkIo.create F inputSz outputSz, fun _ => [], fun _ => [], fun _ => 0⟩ :=
  ⟨inputSz, outputSz, rfl⟩

theorem sampleRun_reach :
    (machine (ByteBuf.api keepFirst)).Reach (Below (ByteBuf.api keepFirst)) sampleRun :=
  Machine.final_reach (.init (create_init _ 0 0)) _ (by decide +kernel)

/-- It loses nothing, and keeps the order. -/
theorem sampleRun_lossless : sampleRun.Lossless (ByteBuf.api keepFirst) .input ∧
    sampleRun.queue .input = [sampleEvent 3, sampleEvent 5] :=
  ⟨lossless_of_reach (ByteBuf.api_lawful keepFirst) sampleRun_reach .input, by decide +kernel⟩

end IoRun

end Skull
