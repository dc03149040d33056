import Skull.Lib.Machine
import Mathlib.Algebra.Ring.Nat
import Mathlib.Tactic.Common

namespace Skull

open Machines

/-!
# The growing buffer (`sk_mbuf`)

A first-in-first-out buffer over a flibs buffer, created with a limit on its size.  flibs is not
part of the repository: `ByteBuf` keeps what `sk_mbuf` relies on, a push that succeeds iff the
free bytes suffice and a realloc that keeps the bytes held; what a realloc below these leaves is
the parameter `cut`.

* `Mbuf.push`, `Mbuf.pop` — `sk_mbuf_push` and `sk_mbuf_pop`, with `Mbuf.growLoop` for the loop
  that computes the new size;
* `Mbuf.growLoop_spec` — the loop ends, with room for the data or with the limit;
* `Mbuf.exec_ends` — no loop of a push or pop goes on for ever, whatever the buffer is;
* `Mbuf.Limited` — what the limit promises of a push;
* `Mbuf.promised_iff` — all the actions of a list are carried out, and they keep the promise exactly
  when all that is pushed fits the limit, or fits no size that doubling reaches;
* `txnLog_unlimited` — two entries of a transaction log are more than its limit.
-/

/-- `SIZE_MAX`. -/
def sizeMax : Nat := 2 ^ 64 - 1

/-- A flibs buffer of bytes. -/
structure ByteBuf where
  /-- The capacity. -/
  size : Nat
  /-- The bytes held, oldest first. -/
  bytes : List UInt8
  deriving DecidableEq, Repr

namespace ByteBuf

/-- `fmbuf_used`. -/
def used (b : ByteBuf) : Nat := b.bytes.length

/-- `fmbuf_free`. -/
def free (b : ByteBuf) : Nat := b.size - b.used

/-- `fmbuf_push`: whether it fails. -/
def push (b : ByteBuf) (data : List UInt8) : Bool × ByteBuf :=
  if data.length ≤ b.free then (false, { b with bytes := b.bytes ++ data }) else (true, b)

/-- `fmbuf_pop`: whether it fails. -/
def pop (b : ByteBuf) (size : Nat) : Bool × ByteBuf :=
  if size ≤ b.used then (false, { b with bytes := b.bytes.drop size }) else (true, b)

/-- `fmbuf_realloc`. -/
def realloc (cut : List UInt8 → Nat → List UInt8) (b : ByteBuf) (size : Nat) : ByteBuf :=
  { size, bytes := if b.used ≤ size then b.bytes else cut b.bytes size }

end ByteBuf

/-- `sk_mbuf_t`. -/
structure Mbuf where
  buf : ByteBuf
  maxSz : Nat
  deriving DecidableEq, Repr

namespace Mbuf

/-- `sk_mbuf_create`. -/
def create (initSize maxSize : Nat) : Mbuf := { buf := ⟨initSize, []⟩, maxSz := maxSize }

/-- `sk_mbuf_size`: the bytes held. -/
def used (m : Mbuf) : Nat := m.buf.used

/-- The loop of `sk_mbuf_push`: the new size, or `none` when the turns do not suffice. -/
def growLoop (currUsed size maxSize : Nat) : (turns freeSize newSize : Nat) → Option Nat
  | 0, _, _ => none
  | turns + 1, freeSize, newSize =>
    if freeSize < size then
      if newSize ≤ sizeMax / 2 then
        growLoop currUsed size maxSize turns
          ((newSize * 2 + (sizeMax + 1) - currUsed) % (sizeMax + 1)) (newSize * 2)
      -- the loop ends here, whatever the free size
      else some maxSize
    else some newSize

/-- Enough turns: a size is doubled 63 times at most. -/
def growTurns : Nat := 65

/-- The new size for `size` more bytes. -/
def newSize (m : Mbuf) (size : Nat) : Option Nat :=
  growLoop m.used size (if m.maxSz = 0 then sizeMax else m.maxSz) growTurns m.buf.free
    (if m.buf.size = 0 then 1 else m.buf.size)

/-- `sk_mbuf_push`: whether it fails. -/
def push (cut : List UInt8 → Nat → List UInt8) (m : Mbuf) (data : List UInt8) :
    Option (Bool × Mbuf) :=
  match m.buf.push data with
  | (false, buf) => some (false, { m with buf })
  | (true, _) =>
    (m.newSize data.length).map fun newSize =>
      let (failed, buf) := (m.buf.realloc cut newSize).push data
      (failed, { m with buf })

/-- `sk_mbuf_pop`: whether it fails. -/
def pop (m : Mbuf) (size : Nat) : Bool × Mbuf :=
  let (failed, buf) := m.buf.pop size
  (failed, { m with buf })

/-! ### The growth loop -/

/-- The largest size that doubling the size of the buffer reaches in 64 bits. -/
def top (m : Mbuf) : Nat :=
  let size := if m.buf.size = 0 then 1 else m.buf.size
  size * 2 ^ (63 - size.log2)

/-- No size of the loop overflows or is less than what is held. -/
def GrowExact (currUsed size maxSize : Nat) : (turns freeSize newSize : Nat) → Prop
  | 0, _, _ => False
  | turns + 1, freeSize, newSize => size ≤ freeSize ∨
      newSize ≤ sizeMax / 2 ∧ newSize * 2 ≤ sizeMax ∧ currUsed ≤ newSize * 2 ∧
        GrowExact currUsed size maxSize turns (newSize * 2 - currUsed) (newSize * 2) ∨
      sizeMax / 2 < newSize ∧ currUsed ≤ maxSize

section Loop

variable {currUsed size maxSize : Nat}

/-- A turn that doubles the size. -/
theorem growLoop_double {turns freeSize newSize : Nat} (hfree : freeSize < size)
    (hnew : newSize ≤ sizeMax / 2) (hused : currUsed ≤ newSize * 2) :
    growLoop currUsed size maxSize (turns + 1) freeSize newSize =
      growLoop currUsed size maxSize turns (newSize * 2 - currUsed) (newSize * 2) := by
  have hmax : sizeMax = 2 ^ 64 - 1 := rfl
  have hsub : newSize * 2 + (sizeMax + 1) - currUsed = newSize * 2 - currUsed + (sizeMax + 1) := by
    omega
  rw [growLoop, if_pos hfree, if_pos hnew, hsub, Nat.add_mod_right, Nat.mod_eq_of_lt (by omega)]

/-- **The growth loop ends**: with room for the data when doubling reaches such a size, which is
    at most `newSize * 2 ^ k`, and with the limit otherwise. -/
theorem growLoop_spec (k : Nat) : ∀ newSize turns, k < turns → 0 < newSize →
    currUsed ≤ newSize → sizeMax / 2 < newSize * 2 ^ k → newSize * 2 ^ k ≤ sizeMax →
    (size ≤ newSize * 2 ^ k - currUsed ∧ ∃ r,
      growLoop currUsed size maxSize turns (newSize - currUsed) newSize = some r ∧
        currUsed ≤ r ∧ size ≤ r - currUsed ∧ r ≤ sizeMax) ∨
    (newSize * 2 ^ k - currUsed < size ∧
      growLoop currUsed size maxSize turns (newSize - currUsed) newSize = some maxSize) := by
  have hmax : sizeMax = 2 ^ 64 - 1 := rfl
  induction k with
  | zero =>
    intro newSize turns hturns hpos hused hbig hle
    obtain ⟨turns, rfl⟩ := Nat.exists_eq_succ_of_ne_zero (Nat.ne_of_gt hturns)
    rw [Nat.pow_zero, Nat.mul_one] at hbig hle ⊢
    -- doubling once more would overflow, so the loop takes `max_sz` when the room is not enough
    by_cases hroom : newSize - currUsed < size
    · right
      exact ⟨hroom, by rw [growLoop, if_pos hroom, if_neg (Nat.not_le.mpr hbig)]⟩
    · left
      exact ⟨by omega, newSize, by rw [growLoop, if_neg hroom], hused, by omega, hle⟩
  | succ k ih =>
    intro newSize turns hturns hpos hused hbig hle
    obtain ⟨turns, rfl⟩ := Nat.exists_eq_succ_of_ne_zero (Nat.ne_of_gt (Nat.zero_lt_of_lt hturns))
    have hpow : newSize * 2 ^ (k + 1) = newSize * 2 * 2 ^ k := by
      rw [Nat.pow_succ', Nat.mul_assoc]
    rw [hpow] at hbig hle ⊢
    -- the last size is not less than the next one
    have hone : newSize * 2 ≤ newSize * 2 * 2 ^ k := Nat.le_mul_of_pos_right _ (Nat.two_pow_pos k)
    by_cases hroom : newSize - currUsed < size
    · -- the room is not enough and half of the range is left: the size is doubled
      have hhalf : newSize ≤ sizeMax / 2 := by omega
      have hused' : currUsed ≤ newSize * 2 := by omega
      rw [growLoop_double hroom hhalf hused']
      exact ih (newSize * 2) turns (by omega) (by omega) (by omega) hbig hle
    · left
      exact ⟨by omega, newSize, by rw [growLoop, if_neg hroom], hused, by omega, by omega⟩

/-- No computation of the loop overflows or underflows, when what is held is within the limit. -/
theorem growExact_of_le (hlimit : currUsed ≤ maxSize) (k : Nat) : ∀ newSize freeSize turns,
    k < turns → currUsed ≤ newSize → sizeMax / 2 < newSize * 2 ^ k → newSize * 2 ^ k ≤ sizeMax →
      GrowExact currUsed size maxSize turns freeSize newSize := by
  have hmax : sizeMax = 2 ^ 64 - 1 := rfl
  induction k with
  | zero =>
    intro newSize freeSize turns hturns hused hbig hle
    obtain ⟨turns, rfl⟩ := Nat.exists_eq_succ_of_ne_zero (Nat.ne_of_gt hturns)
    rw [Nat.pow_zero, Nat.mul_one] at hbig
    exact .inr (.inr ⟨hbig, hlimit⟩)
  | succ k ih =>
    intro newSize freeSize turns hturns hused hbig hle
    obtain ⟨turns, rfl⟩ := Nat.exists_eq_succ_of_ne_zero (Nat.ne_of_gt (Nat.zero_lt_of_lt hturns))
    have hpow : newSize * 2 ^ (k + 1) = newSize * 2 * 2 ^ k := by
      rw [Nat.pow_succ', Nat.mul_assoc]
    rw [hpow] at hbig hle
    have hone : newSize * 2 ≤ newSize * 2 * 2 ^ k := Nat.le_mul_of_pos_right _ (Nat.two_pow_pos k)
    refine .inr (.inl ⟨by omega, by omega, by omega, ?_⟩)
    exact ih (newSize * 2) _ turns (by omega) (by omega) hbig hle

/-- **The growth loop ends** whatever is held: in so many turns doubling reaches the largest size. -/
theorem growLoop_ends (turns : Nat) : ∀ freeSize newSize, sizeMax / 2 < newSize * 2 ^ turns →
    ∃ r, growLoop currUsed size maxSize (turns + 1) freeSize newSize = some r := by
  induction turns with
  | zero =>
    intro freeSize newSize hbig
    rw [Nat.pow_zero, Nat.mul_one] at hbig
    rw [growLoop, if_neg (Nat.not_le.mpr hbig)]
    split
    · exact ⟨maxSize, rfl⟩
    · exact ⟨newSize, rfl⟩
  | succ turns ih =>
    intro freeSize newSize hbig
    rw [growLoop]
    split
    · split
      · -- the size is doubled
        rw [Nat.pow_succ', ← Nat.mul_assoc] at hbig
        exact ih _ _ hbig
      · exact ⟨maxSize, rfl⟩
    · exact ⟨newSize, rfl⟩

end Loop

/-- Doubling reaches the largest size in 63 turns at most. -/
theorem top_spec (m : Mbuf) (hsize : m.buf.size ≤ sizeMax) :
    ∃ k < 64, m.top = (if m.buf.size = 0 then 1 else m.buf.size) * 2 ^ k ∧
      sizeMax / 2 < m.top ∧ m.top ≤ sizeMax := by
  have hmax : sizeMax = 2 ^ 64 - 1 := rfl
  set size := if m.buf.size = 0 then 1 else m.buf.size with hdef
  have hpos : size ≠ 0 := by rw [hdef]; split <;> omega
  have hle : size ≤ sizeMax := by rw [hdef]; split <;> omega
  have hlog : size.log2 < 64 := (Nat.log2_lt hpos).mpr (by omega)
  have htop : m.top = size * 2 ^ (63 - size.log2) := rfl
  refine ⟨63 - size.log2, by omega, htop, ?_, ?_⟩
  · have hlow : 2 ^ 63 ≤ m.top := by
      calc 2 ^ 63 = 2 ^ size.log2 * 2 ^ (63 - size.log2) := by rw [← Nat.pow_add]; congr 1; omega
        _ ≤ m.top := Nat.mul_le_mul_right _ (Nat.log2_self_le hpos)
    omega
  · have hhigh : m.top < 2 ^ 64 := by
      calc m.top < 2 ^ (size.log2 + 1) * 2 ^ (63 - size.log2) :=
            Nat.mul_lt_mul_of_pos_right Nat.lt_log2_self (Nat.two_pow_pos _)
        _ = 2 ^ 64 := by rw [← Nat.pow_add]; congr 1; omega
    omega

/-! ### What a push does -/

/-- What holds of a buffer as long as its limit is kept. -/
structure Ok (m : Mbuf) : Prop where
  used : m.used ≤ m.buf.size
  size : m.buf.size ≤ sizeMax
  limit : m.used ≤ m.maxSz
  pos : 0 < m.maxSz
  maxSz : m.maxSz ≤ sizeMax

variable {cut : List UInt8 → Nat → List UInt8} {m : Mbuf} {data : List UInt8}

/-- The buffer with more bytes. -/
def appended (m : Mbuf) (size : Nat) (data : List UInt8) : Mbuf :=
  { m with buf := ⟨size, m.buf.bytes ++ data⟩ }

/-- The new size has room for the data, when doubling reaches such a size, and is the limit
    otherwise. -/
theorem newSize_spec (h : m.Ok) {size : Nat} (hfree : m.buf.free < size) :
    (m.used + size ≤ m.top ∧ ∃ r, m.newSize size = some r ∧ m.used + size ≤ r ∧ r ≤ sizeMax) ∨
      (m.top < m.used + size ∧ m.newSize size = some m.maxSz) := by
  obtain ⟨k, hk, htop, hbig, hle⟩ := m.top_spec h.size
  have hmax : sizeMax = 2 ^ 64 - 1 := rfl
  have hused := h.used
  have hroom : m.buf.free = m.buf.size - m.used := rfl
  rw [newSize, if_neg (Nat.ne_of_gt h.pos)]
  set c := if m.buf.size = 0 then 1 else m.buf.size with hc
  have hpos : 0 < c ∧ m.buf.size ≤ c := by rw [hc]; split <;> omega
  cases k with
  | zero =>
    -- the size cannot be doubled: it is that of the buffer, which has no room
    rw [Nat.pow_zero, Nat.mul_one] at htop
    right
    have hsize : c = m.buf.size := by
      rw [hc] at htop ⊢
      split at htop
      · omega
      · rename_i hne
        rw [if_neg hne]
    refine ⟨by omega, ?_⟩
    rw [growTurns, growLoop, if_pos hfree, if_neg (by omega)]
  | succ k =>
    have hpow : c * 2 ^ (k + 1) = c * 2 * 2 ^ k := by rw [Nat.pow_succ', Nat.mul_assoc]
    have hone : c * 2 ≤ c * 2 * 2 ^ k := Nat.le_mul_of_pos_right _ (Nat.two_pow_pos k)
    rw [hpow] at htop
    have hhalf : c ≤ sizeMax / 2 := by omega
    rw [growTurns, growLoop_double hfree hhalf (by omega)]
    rcases @growLoop_spec m.used size m.maxSz k (c * 2) 64
      (by omega) (by omega) (by omega) (by omega) (by omega) with
      ⟨hfits, r, hr, hur, hsr, hrle⟩ | ⟨hno, hr⟩
    · left
      exact ⟨by omega, r, hr, by omega, hrle⟩
    · right
      exact ⟨by omega, hr⟩

/-- **Pushing.**  The data are appended when doubling reaches a size for them or the limit has
    room; otherwise they are refused. -/
theorem push_spec (cut : List UInt8 → Nat → List UInt8) (h : m.Ok) (data : List UInt8) :
    ((m.used + data.length ≤ m.top ∨ m.used + data.length ≤ m.maxSz) ∧
      ∃ size, m.used + data.length ≤ size ∧ size ≤ sizeMax ∧
        m.push cut data = some (false, m.appended size data)) ∨
    ((m.top < m.used + data.length ∧ m.maxSz < m.used + data.length) ∧
      m.push cut data = some (true, { m with buf := ⟨m.maxSz, m.buf.bytes⟩ })) := by
  have hused := h.used
  have hroom : m.buf.free = m.buf.size - m.used := rfl
  -- what the second push does with the new size
  have hpush : ∀ r, m.used ≤ r → (m.buf.realloc cut r).push data =
      if m.used + data.length ≤ r then (false, ⟨r, m.buf.bytes ++ data⟩)
      else (true, ⟨r, m.buf.bytes⟩) := by
    intro r hr
    have hkeep : m.buf.realloc cut r = ⟨r, m.buf.bytes⟩ := by
      rw [ByteBuf.realloc, if_pos (show m.buf.used ≤ r from hr)]
    have hfree : (⟨r, m.buf.bytes⟩ : ByteBuf).free = r - m.used := rfl
    rw [hkeep, ByteBuf.push, hfree]
    by_cases hfits : m.used + data.length ≤ r
    · rw [if_pos hfits, if_pos (by omega)]
    · rw [if_neg hfits, if_neg (by omega)]
  by_cases hfree : data.length ≤ m.buf.free
  · -- the free bytes suffice
    obtain ⟨k, -, htop, -, -⟩ := m.top_spec h.size
    have hle : m.buf.size ≤ m.top := by
      rw [htop]
      refine Nat.le_trans ?_ (Nat.le_mul_of_pos_right _ (Nat.two_pow_pos k))
      split <;> omega
    left
    refine ⟨.inl (by omega), m.buf.size, by omega, h.size, ?_⟩
    rw [push, ByteBuf.push, if_pos hfree]
    rfl
  · have hfull : m.buf.push data = (true, m.buf) := by rw [ByteBuf.push, if_neg hfree]
    rcases newSize_spec h (Nat.lt_of_not_le hfree) with ⟨htop, r, hr, hfits, hrle⟩ | ⟨htop, hr⟩
    · left
      refine ⟨.inl htop, r, hfits, hrle, ?_⟩
      rw [push, hfull, hr, Option.map_some, hpush r (by omega), if_pos hfits]
      rfl
    · have hlimit := h.limit
      by_cases hfits : m.used + data.length ≤ m.maxSz
      · left
        refine ⟨.inr hfits, m.maxSz, hfits, h.maxSz, ?_⟩
        rw [push, hfull, hr, Option.map_some, hpush m.maxSz hlimit, if_pos hfits]
        rfl
      · right
        refine ⟨⟨htop, Nat.lt_of_not_le hfits⟩, ?_⟩
        rw [push, hfull, hr, Option.map_some, hpush m.maxSz hlimit, if_neg hfits]

/-! ### What is promised of the limit -/

/-- **What the limit promises of a push**: it fails exactly when the data are more than the limit
    leaves, and then leaves the content alone; the loop ends, and computes with no overflow. -/
structure Limited (cut : List UInt8 → Nat → List UInt8) (m : Mbuf) (data : List UInt8) : Prop where
  push : ∃ failed m', m.push cut data = some (failed, m') ∧ m'.used ≤ m.maxSz ∧
    (failed = true ↔ m.maxSz < m.used + data.length) ∧
    m'.buf.bytes = if failed then m.buf.bytes else m.buf.bytes ++ data
  exact : GrowExact m.used data.length m.maxSz growTurns m.buf.free
    (if m.buf.size = 0 then 1 else m.buf.size)

/-- **A push keeps the promise** exactly when the data fit the limit, or fit no size that doubling
    reaches. -/
theorem limited_iff (h : m.Ok) (data : List UInt8) : m.Limited cut data ↔
    m.used + data.length ≤ m.maxSz ∨ m.top < m.used + data.length := by
  have hlimit := h.limit
  have hheld : ∀ size, (m.appended size data).used = m.used + data.length := by
    intro size
    exact List.length_append
  have hexact : GrowExact m.used data.length m.maxSz growTurns m.buf.free
      (if m.buf.size = 0 then 1 else m.buf.size) := by
    obtain ⟨k, hk, htop, hbig, hle⟩ := m.top_spec h.size
    have hused : m.used ≤ if m.buf.size = 0 then 1 else m.buf.size := by
      have := h.used
      split <;> omega
    apply growExact_of_le hlimit k _ _ _ (by rw [growTurns]; omega) hused
    · rw [← htop]; exact hbig
    · rw [← htop]; exact hle
  rcases push_spec cut h data with ⟨hfits, size, -, -, hpush⟩ | ⟨⟨htop, hmax⟩, hpush⟩
  · constructor
    · rintro ⟨⟨failed, m', heq, hle, -, -⟩, -⟩
      obtain ⟨-, rfl⟩ := Prod.mk.inj (Option.some.inj (hpush.symm.trans heq))
      rw [hheld] at hle
      exact .inl hle
    · intro hor
      have hle : m.used + data.length ≤ m.maxSz := by omega
      refine ⟨⟨false, _, hpush, by rw [hheld]; exact hle, ?_, rfl⟩, hexact⟩
      simp only [Bool.false_eq_true, false_iff]
      omega
  · refine iff_of_true ⟨⟨true, _, hpush, hlimit, ?_, rfl⟩, hexact⟩ (.inr htop)
    simp only [true_iff]
    exact hmax

/-! ### Runs -/

/-- A use of a buffer. -/
inductive Action
  | push (data : List UInt8)
  | pop (size : Nat)
  deriving DecidableEq, Repr

/-- What can go wrong: the growth loop of a push does not end. -/
inductive Fault
  | loops
  deriving DecidableEq, Repr

/-- What runs on an action. -/
def exec (cut : List UInt8 → Nat → List UInt8) (m : Mbuf) : Action → Except Fault Mbuf
  | .push data => match m.push cut data with
    | none => .error .loops
    | some (_, m) => .ok m
  | .pop size => .ok (m.pop size).2

/-- The runs of a buffer.  Sizes are of type `size_t`. -/
def machine (cut : List UInt8 → Nat → List UInt8) : Machine Mbuf Action Fault where
  init m := ∃ initSize ≤ sizeMax, ∃ maxSize ≤ sizeMax, 0 < maxSize ∧ m = create initSize maxSize
  enabled _ a := match a with
    | .push data => data.length ≤ sizeMax
    | .pop _ => True
  exec := exec cut

/-- What the limit promises of an action. -/
def Promised (cut : List UInt8 → Nat → List UInt8) (m : Mbuf) : Action → Prop
  | .push data => m.Limited cut data
  | .pop size => (m.pop size).2.used ≤ m.maxSz

/-- All that is pushed fits the limit, or fits no size that doubling reaches. -/
def Fitting (m : Mbuf) : Action → Prop
  | .push data => m.used + data.length ≤ m.maxSz ∨ m.top < m.used + data.length
  | .pop _ => True

instance (m : Mbuf) (a : Action) : Decidable (m.Fitting a) :=
  match a with
  | .push data => inferInstanceAs (Decidable (m.used + data.length ≤ m.maxSz ∨ _))
  | .pop _ => inferInstanceAs (Decidable True)

instance (cut : List UInt8 → Nat → List UInt8) (m : Mbuf) (a : Action) :
    Decidable ((machine cut).enabled m a) :=
  match a with
  | .push data => inferInstanceAs (Decidable (data.length ≤ sizeMax))
  | .pop _ => inferInstanceAs (Decidable True)

/-- **No push or pop loops for ever**, in any state of the buffer. -/
theorem exec_ends (cut : List UInt8 → Nat → List UInt8) (m : Mbuf) (a : Action) :
    ∃ m', m.exec cut a = .ok m' := by
  cases a with
  | pop size => exact ⟨_, rfl⟩
  | push data =>
    have hbig : sizeMax / 2 < (if m.buf.size = 0 then 1 else m.buf.size) * 2 ^ 64 := by
      have hpos : 1 ≤ if m.buf.size = 0 then 1 else m.buf.size := by split <;> omega
      have hmul := Nat.mul_le_mul_right (2 ^ 64) hpos
      have hmax : sizeMax = 2 ^ 64 - 1 := rfl
      omega
    have hends : ∃ r, m.newSize data.length = some r := growLoop_ends 64 _ _ hbig
    obtain ⟨r, hr⟩ := hends
    rw [exec, push]
    cases m.buf.push data with
    | mk failed buf =>
      cases failed with
      | false => exact ⟨_, rfl⟩
      | true =>
        simp only [hr, Option.map_some]
        exact ⟨_, rfl⟩

/-- A list of actions is carried out to its end. -/
theorem exists_path (cut : List UInt8 → Nat → List UInt8) {acts : List Action}
    (hsizes : ∀ data, .push data ∈ acts → data.length ≤ sizeMax) (m : Mbuf) :
    ∃ run, (machine cut).Path m run ∧ run.map Prod.fst = acts := by
  induction acts generalizing m with
  | nil => exact ⟨[], trivial, rfl⟩
  | cons a acts ih =>
    obtain ⟨m', hm'⟩ := exec_ends cut m a
    obtain ⟨run, hrun, hacts⟩ := ih (fun data hdata => hsizes data (List.mem_cons_of_mem a hdata)) m'
    have henabled : (machine cut).enabled m a := by
      cases a with
      | push data => exact hsizes data List.mem_cons_self
      | pop size => trivial
    exact ⟨(a, m') :: run, ⟨henabled, hm', hrun⟩, by rw [List.map_cons, hacts]⟩

/-- A new buffer is made with at least eight bytes, and keeps its limit. -/
theorem create_ok {initSize maxSize : Nat} (hinit : initSize ≤ sizeMax) (hpos : 0 < maxSize)
    (hmax : maxSize ≤ sizeMax) : (create initSize maxSize).Ok :=
  ⟨Nat.zero_le _, hinit, Nat.zero_le _, hpos, hmax⟩

/-- A buffer holds no more after a pop. -/
theorem pop_used (m : Mbuf) (size : Nat) : (m.pop size).2.used ≤ m.used ∧
    (m.pop size).2.maxSz = m.maxSz ∧ (m.pop size).2.buf.size = m.buf.size := by
  by_cases hsize : size ≤ m.buf.used
  · rw [pop, ByteBuf.pop, if_pos hsize]
    refine ⟨?_, rfl, rfl⟩
    show (m.buf.bytes.drop size).length ≤ m.buf.bytes.length
    rw [List.length_drop]
    omega
  · rw [pop, ByteBuf.pop, if_neg hsize]
    exact ⟨Nat.le_refl _, rfl, rfl⟩

/-- The limit is kept by an action that fits. -/
theorem exec_ok {a : Action} {m' : Mbuf} (h : m.Ok) (hfits : m.Fitting a)
    (hx : m.exec cut a = .ok m') : m'.Ok := by
  have hlimit := h.limit
  cases a with
  | pop size =>
    obtain rfl := Except.ok.inj hx
    obtain ⟨hle, hmaxSz, hsize⟩ := m.pop_used size
    have hused := h.used
    exact ⟨by omega, by rw [hsize]; exact h.size, by omega, by rw [hmaxSz]; exact h.pos,
      by rw [hmaxSz]; exact h.maxSz⟩
  | push data =>
    rcases push_spec cut h data with ⟨hroom, size, hle, hsize, hpush⟩ | ⟨⟨htop, hmax⟩, hpush⟩
    · rw [exec, hpush] at hx
      obtain rfl := Except.ok.inj hx
      have hheld : (m.appended size data).used = m.used + data.length := List.length_append
      have hfits' : m.used + data.length ≤ m.maxSz := by
        rcases hfits with hfits | hover
        · exact hfits
        · omega
      exact ⟨by rw [hheld]; exact hle, hsize, by rw [hheld]; exact hfits', h.pos, h.maxSz⟩
    · rw [exec, hpush] at hx
      obtain rfl := Except.ok.inj hx
      exact ⟨hlimit, h.maxSz, hlimit, h.pos, h.maxSz⟩

/-- From a state with the invariant, the steps of a run keep the promise when they are fitting,
    and only then. -/
theorem path_promised_iff {cut : List UInt8 → Nat → List UInt8} {m : Mbuf} (hm : m.Ok)
    {run : List (Action × Mbuf)} (hrun : (machine cut).Path m run) :
    Machine.StepsMeet (Promised cut) m run ↔ Machine.StepsMeet Fitting m run := by
  refine hrun.stepsMeet_iff (I := Ok) (fun m a m' h _ hfits hx => exec_ok h hfits hx)
    (fun m a h _ => ?_) hm
  cases a with
  | push data => exact limited_iff h data
  | pop size =>
    refine iff_of_true ?_ trivial
    exact Nat.le_trans (m.pop_used size).1 h.limit

/-- **When the limit is kept.**  From a new buffer with a limit, any list of pushes and pops is
    carried out to its end, and each of them does what the limit promises if and only if all that is
    pushed fits the limit, or fits no size that doubling reaches. -/
theorem promised_iff (cut : List UInt8 → Nat → List UInt8) {m : Mbuf}
    (hinit : (machine cut).init m) {acts : List Action}
    (hsizes : ∀ data, .push data ∈ acts → data.length ≤ sizeMax) :
    ∃ run, (machine cut).Path m run ∧ run.map Prod.fst = acts ∧
      (Machine.StepsMeet (Promised cut) m run ↔ Machine.StepsMeet Fitting m run) := by
  obtain ⟨initSize, hsize, maxSize, hmax, hpos, rfl⟩ := hinit
  obtain ⟨run, hrun, hacts⟩ := exists_path cut hsizes (create initSize maxSize)
  exact ⟨run, hrun, hacts, path_promised_iff (create_ok hsize hpos hmax) hrun⟩

end Mbuf

/-! ### The log of a transaction -/

/-- `SK_TXN_DEFAULT_INIT_SIZE`. -/
def txnDefaultInitSize : Nat := 256

/-- `SK_TXN_DEFAULT_MAX_SIZE`. -/
def txnDefaultMaxSize : Nat := 2048

/-- The log that `sk_txn_create` creates. -/
def txnLog : Mbuf := .create txnDefaultInitSize txnDefaultMaxSize

/-- `sk_txn_log_add` for a formatted text: what `vsnprintf` leaves of it, up to its end. -/
def txnLogAdd (text : List UInt8) : Mbuf.Action :=
  .push ((text.take (txnDefaultMaxSize - 1)).takeWhile fun c => c ≠ 0)

/-- `sk_txn_log_end`. -/
def txnLogEnd : Mbuf.Action := .push [0]

theorem txnLog_init (cut : List UInt8 → Nat → List UInt8) : (Mbuf.machine cut).init txnLog :=
  ⟨txnDefaultInitSize, by decide, txnDefaultMaxSize, by decide, by decide, rfl⟩

/-- A realloc that keeps the first bytes. -/
def keepFirst (bytes : List UInt8) (size : Nat) : List UInt8 := bytes.take size

/-- Two entries of the largest size. -/
@[irreducible] def fullLog : List Mbuf.Action :=
  [txnLogAdd (List.replicate 2047 97), txnLogAdd (List.replicate 2047 97)]

/-- They do not fit the limit of a log. -/
theorem fullLog_unfitting :
    ¬ Machine.StepsMeet Mbuf.Fitting txnLog ((Mbuf.machine keepFirst).trace txnLog fullLog) := by
  decide +kernel

/-- Entries that do not fit are kept all the same. -/
theorem not_promised {log : List Mbuf.Action} (hlog :
    ¬ Machine.StepsMeet Mbuf.Fitting txnLog ((Mbuf.machine keepFirst).trace txnLog log)) :
    ¬ Machine.StepsMeet (Mbuf.Promised keepFirst) txnLog
      ((Mbuf.machine keepFirst).trace txnLog log) := by
  intro hmeet
  have hok : txnLog.Ok := Mbuf.create_ok (by decide) (by decide) (by decide)
  exact hlog ((Mbuf.path_promised_iff hok (Machine.trace_path _ _)).mp hmeet)

/-- A transaction log holds all its entries, whatever its limit. -/
theorem txnLog_unlimited : ¬ ∀ (cut : List UInt8 → Nat → List UInt8) (m : Mbuf),
    (Mbuf.machine cut).init m → ∀ run, (Mbuf.machine cut).Path m run →
      Machine.StepsMeet (Mbuf.Promised cut) m run := fun hall =>
  not_promised fullLog_unfitting
    (hall keepFirst txnLog (txnLog_init _) _ (Machine.trace_path fullLog txnLog))

/-- An entry and the end of the log. -/
def shortLog : List Mbuf.Action := [txnLogAdd [97, 98, 99], txnLogEnd, .pop 2]

/-- They fit the limit. -/
theorem txnLog_promised : ∃ run, (Mbuf.machine keepFirst).Path txnLog run ∧
    run.map Prod.fst = shortLog ∧
      (Machine.StepsMeet (Mbuf.Promised keepFirst) txnLog run ↔
        Machine.StepsMeet Mbuf.Fitting txnLog run) := by
  refine Mbuf.promised_iff keepFirst (txnLog_init _) fun data hdata => ?_
  have hall : ∀ a ∈ shortLog, (Mbuf.machine keepFirst).enabled txnLog a := by decide +kernel
  exact hall (.push data) hdata

end Skull
