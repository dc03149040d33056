import Skull.Lib.Dict
import Skull.Lib.Machine

namespace Skull

open Machines

/-!
# Memory accounting (`sk_malloc`)

The wrappers of the allocator count the usable sizes of what one scope allocates and frees, in
64-bit counters.  The allocator itself is not part of the repository: what a call returns, and how
large the block is, are arguments of the call.

* `Malloc.MemStat.allocated`, `Malloc.MemStat.updatePeak` — `sk_mem_allocated` and
  `SK_ATOMIC_UPDATE_PEAKSZ`;
* `Malloc.malloc`, `Malloc.calloc`, `Malloc.realloc`, `Malloc.posixMemalign`,
  `Malloc.alignedAlloc`, `Malloc.free` — the wrappers;
* `Malloc.Exact` — what the counters are to say of the live blocks;
* `Malloc.exact_iff` — they do after every call exactly when every realloc is counted: none fails,
  and none shrinks a block in place.
-/

namespace Malloc

/-! ### The counters -/

/-- `sk_mem_stat_t`, without the numbers of calls. -/
structure MemStat where
  allocSz : UInt64
  dallocSz : UInt64
  peakSz : UInt64
  deriving DecidableEq, Repr

namespace MemStat

/-- `sk_mem_allocated`. -/
def allocated (stat : MemStat) : UInt64 :=
  if stat.allocSz > stat.dallocSz then stat.allocSz - stat.dallocSz else 0

/-- `SK_ATOMIC_UPDATE_PEAKSZ`. -/
def updatePeak (stat : MemStat) : MemStat :=
  let currPeak := stat.peakSz
  let currUsed := stat.allocated
  if currPeak = currUsed then stat
  else { stat with peakSz := if currPeak > currUsed then currPeak else currUsed }

/-- `SK_ATOMIC_ADD(&stat->alloc_sz, sz)`. -/
def addAlloc (stat : MemStat) (sz : UInt64) : MemStat :=
  { stat with allocSz := stat.allocSz + sz }

/-- `SK_ATOMIC_ADD(&stat->dalloc_sz, sz)`. -/
def addDalloc (stat : MemStat) (sz : UInt64) : MemStat :=
  { stat with dallocSz := stat.dallocSz + sz }

end MemStat

/-! ### The allocator -/

/-- A block that the allocator returns, with its usable size. -/
structure Block where
  ptr : Nat
  size : UInt64
  deriving DecidableEq, Repr

/-- The live blocks with their usable sizes. -/
abbrev Live := Dict Nat UInt64

/-- `malloc_usable_size`; `none` is the null pointer. -/
def usableSize (live : Live) (ptr : Option Nat) : UInt64 := (ptr.bind live.get?).getD 0

/-- The live blocks after an allocation. -/
def allocLive (live : Live) (res : Option Block) : Live :=
  res.elim live fun block => live.set block.ptr block.size

/-- The live blocks after a `free`. -/
def freeLive (live : Live) (ptr : Option Nat) : Live := ptr.elim live live.erase

/-- The live blocks after a `realloc`: one that fails leaves the block alone, unless the size is
    zero. -/
def reallocLive (live : Live) (ptr : Option Nat) (sz : Nat) (res : Option Block) : Live :=
  match ptr, res with
  | none, res => allocLive live res
  | some ptr, none => if sz = 0 then live.erase ptr else live
  | some ptr, some block =>
    if block.ptr = ptr then live.set ptr block.size else (live.set block.ptr block.size).erase ptr

/-- The bytes of the live blocks. -/
def Live.total (live : Live) : Nat := live.sum fun _ size => size.toNat

/-! ### The wrappers -/

/-- What a wrapper of an allocation counts. -/
def countAlloc (stat : MemStat) (live : Live) (res : Option Block) : MemStat :=
  (stat.addAlloc (usableSize (allocLive live res) (res.map Block.ptr))).updatePeak

/-- `malloc`. -/
def malloc (stat : MemStat) (live : Live) (res : Option Block) : MemStat × Live :=
  (countAlloc stat live res, allocLive live res)

/-- `calloc`. -/
def calloc (stat : MemStat) (live : Live) (res : Option Block) : MemStat × Live :=
  (countAlloc stat live res, allocLive live res)

/-- `aligned_alloc`. -/
def alignedAlloc (stat : MemStat) (live : Live) (res : Option Block) : MemStat × Live :=
  (countAlloc stat live res, allocLive live res)

/-- `posix_memalign`, which counts nothing when it fails. -/
def posixMemalign (stat : MemStat) (live : Live) (res : Option Block) : MemStat × Live :=
  (if res.isNone then stat else countAlloc stat live res, allocLive live res)

/-- `free`. -/
def free (stat : MemStat) (live : Live) (ptr : Option Nat) : MemStat × Live :=
  ((stat.addDalloc (usableSize live ptr)).updatePeak, freeLive live ptr)

/-- `realloc`. -/
def realloc (stat : MemStat) (live : Live) (ptr : Option Nat) (sz : Nat) (res : Option Block) :
    MemStat × Live :=
  let oldSz := usableSize live ptr
  let live := reallocLive live ptr sz res
  let nptr := res.map Block.ptr
  let newSz := usableSize live nptr
  let stat :=
    if ptr = none then stat.addAlloc newSz
    else if sz = 0 then stat.addDalloc oldSz
    else if ptr ≠ nptr then (stat.addAlloc newSz).addDalloc oldSz
    else if newSz > oldSz then stat.addAlloc (newSz - oldSz)
    else stat
  (stat.updatePeak, live)

/-! ### Runs -/

/-- A call of the allocator by the scope, with what the allocator returns. -/
inductive Call
  | malloc (res : Option Block)
  | calloc (res : Option Block)
  | posixMemalign (res : Option Block)
  | alignedAlloc (res : Option Block)
  | free (ptr : Option Nat)
  | realloc (ptr : Option Nat) (sz : Nat) (res : Option Block)
  deriving DecidableEq, Repr

/-- The counters, the live blocks, and the most bytes that were live after a call. -/
structure State where
  stat : MemStat
  live : Live
  high : Nat

/-- Before the first call. -/
def State.start : State := ⟨⟨0, 0, 0⟩, .empty, 0⟩

/-- Run a call. -/
def State.call (s : State) (c : Call) : State :=
  let (stat, live) := match c with
    | .malloc res => malloc s.stat s.live res
    | .calloc res => calloc s.stat s.live res
    | .posixMemalign res => posixMemalign s.stat s.live res
    | .alignedAlloc res => alignedAlloc s.stat s.live res
    | .free ptr => free s.stat s.live ptr
    | .realloc ptr sz res => realloc s.stat s.live ptr sz res
  ⟨stat, live, max s.high live.total⟩

/-- What the allocator and its caller keep to: a block that is returned is not live yet, unless a
    realloc leaves it where it is; what is freed or reallocated is live. -/
def Call.Valid (live : Live) : Call → Prop
  | .malloc res | .calloc res | .posixMemalign res | .alignedAlloc res =>
    ∀ block ∈ res, live.get? block.ptr = none
  | .free ptr => ∀ p ∈ ptr, (live.get? p).isSome
  | .realloc ptr _ res => (∀ p ∈ ptr, (live.get? p).isSome) ∧
    ∀ block ∈ res, ptr = some block.ptr ∨ live.get? block.ptr = none

/-- The calls of one scope. -/
def machine : Machine State Call Empty where
  init s := s = .start
  enabled s c := c.Valid s.live
  exec s c := .ok (s.call c)

/-- **What the counters are to say**: how much is live, and how much was at most. -/
structure Exact (s : State) : Prop where
  live : (s.stat.allocSz - s.stat.dallocSz).toNat = s.live.total
  peak : s.stat.peakSz.toNat = s.high

/-- **A call is counted**: it is no realloc, or one that does not fail and does not shrink its
    block in place. -/
def Counted (s : State) : Call → Prop
  | .realloc (some ptr) sz none => sz = 0 ∨ usableSize s.live (some ptr) = 0
  | .realloc (some ptr) sz (some block) =>
    if sz = 0 then block.size = 0
    else block.ptr = ptr → usableSize s.live (some ptr) ≤ block.size
  | _ => True

instance (live : Live) (c : Call) : Decidable (c.Valid live) :=
  match c with
  | .malloc res | .calloc res | .posixMemalign res | .alignedAlloc res =>
    inferInstanceAs (Decidable (∀ block ∈ res, live.get? block.ptr = none))
  | .free ptr => inferInstanceAs (Decidable (∀ p ∈ ptr, (live.get? p).isSome))
  | .realloc ptr _ res => inferInstanceAs (Decidable ((∀ p ∈ ptr, (live.get? p).isSome) ∧
      ∀ block ∈ res, ptr = some block.ptr ∨ live.get? block.ptr = none))

instance (s : State) (c : Call) : Decidable (machine.enabled s c) :=
  inferInstanceAs (Decidable (c.Valid s.live))

instance (s : State) (c : Call) : Decidable (Counted s c) :=
  match c with
  | .realloc (some ptr) sz none =>
    inferInstanceAs (Decidable (sz = 0 ∨ usableSize s.live (some ptr) = 0))
  | .realloc (some ptr) sz (some block) =>
    inferInstanceAs (Decidable (if sz = 0 then block.size = 0
      else block.ptr = ptr → usableSize s.live (some ptr) ≤ block.size))
  | .realloc none _ _ | .malloc _ | .calloc _ | .posixMemalign _ | .alignedAlloc _ | .free _ =>
    inferInstanceAs (Decidable True)

/-- The bytes that a call allocates. -/
def Call.grown (live : Live) : Call → Nat
  | .malloc res | .calloc res | .posixMemalign res | .alignedAlloc res | .realloc none _ res =>
    res.elim 0 fun block => block.size.toNat
  | .free _ => 0
  | .realloc (some ptr) _ res => res.elim 0 fun block =>
    if block.ptr = ptr then block.size.toNat - (usableSize live (some ptr)).toNat
    else block.size.toNat

/-- The counter of the bytes allocated has room for a call. -/
def Fits (s : State) (c : Call) : Prop := s.stat.allocSz.toNat + c.grown s.live < 2 ^ 64

instance (s : State) (c : Call) : Decidable (Fits s c) := Nat.decLt _ _

/-! ### The live blocks -/

section Blocks

variable {live : Live} {ptr : Nat}

/-- The usable size of a block is its part of the total. -/
theorem part_eq (live : Live) (ptr : Nat) :
    Dict.part (fun _ size => UInt64.toNat size) live ptr =
      (usableSize live (some ptr)).toNat := by
  rw [Dict.part, usableSize, Option.bind_some]
  cases live.get? ptr <;> rfl

@[simp] theorem usableSize_none (live : Live) : usableSize live none = 0 := rfl

/-- A block that is made has the size it was made with. -/
theorem usableSize_set (live : Live) (ptr : Nat) (size : UInt64) :
    usableSize (live.set ptr size) (some ptr) = size := by
  rw [usableSize, Option.bind_some, Dict.get?_set_self, Option.getD_some]

/-- The freed block leaves the size of the others alone. -/
theorem usableSize_erase_set {b : Block} (hne : b.ptr ≠ ptr) :
    usableSize ((live.set b.ptr b.size).erase ptr) (some b.ptr) = b.size := by
  rw [usableSize, Option.bind_some, Dict.get?_erase, if_neg hne, Dict.get?_set_self,
    Option.getD_some]

/-- Setting the size of a block. -/
theorem total_set (live : Live) (ptr : Nat) (size : UInt64) :
    Live.total (live.set ptr size) + (usableSize live (some ptr)).toNat =
      live.total + size.toNat := by
  rw [← part_eq]
  exact Dict.sum_set _ live ptr size

/-- Freeing a block. -/
theorem total_erase (live : Live) (ptr : Nat) :
    Live.total (live.erase ptr) + (usableSize live (some ptr)).toNat = live.total := by
  rw [← part_eq]
  exact Dict.sum_erase _ live ptr

/-- Moving a block. -/
theorem total_move {b : Block} (hne : b.ptr ≠ ptr) (hnew : live.get? b.ptr = none) :
    Live.total ((live.set b.ptr b.size).erase ptr) + (usableSize live (some ptr)).toNat =
      live.total + b.size.toNat := by
  have hold : usableSize (live.set b.ptr b.size) (some ptr) = usableSize live (some ptr) := by
    simp only [usableSize, Option.bind_some, Dict.get?_set_of_ne live b.size hne.symm]
  have hset := total_set live b.ptr b.size
  have hzero : usableSize live (some b.ptr) = 0 := by
    simp only [usableSize, Option.bind_some, hnew, Option.getD_none]
  rw [hzero] at hset
  have herase := total_erase (live.set b.ptr b.size) ptr
  rw [hold] at herase
  have h0 : (0 : UInt64).toNat = 0 := rfl
  omega

/-- What an allocation returns becomes live. -/
theorem total_alloc {res : Option Block} (hnew : ∀ b ∈ res, live.get? b.ptr = none) :
    (allocLive live res).total = live.total + res.elim 0 (fun b => b.size.toNat) ∧
      (usableSize (allocLive live res) (res.map Block.ptr)).toNat =
        res.elim 0 fun b => b.size.toNat := by
  cases res with
  | none => exact ⟨rfl, rfl⟩
  | some b =>
    have hset := total_set live b.ptr b.size
    have hzero : usableSize live (some b.ptr) = 0 := by
      simp only [usableSize, Option.bind_some, hnew b rfl, Option.getD_none]
    rw [hzero] at hset
    refine ⟨hset, ?_⟩
    show (usableSize (live.set b.ptr b.size) (some b.ptr)).toNat = b.size.toNat
    rw [usableSize_set]

end Blocks

/-! ### The counters after a call -/

/-- `stat` says that `total` bytes are live; its counter of the bytes allocated did not pass its
    limit. -/
def MemStat.Counts (stat : MemStat) (total : Nat) : Prop :=
  stat.allocSz.toNat = stat.dallocSz.toNat + total

namespace MemStat

variable {stat : MemStat} {total : Nat}

/-- The difference of the counters. -/
theorem Counts.sub (h : stat.Counts total) : (stat.allocSz - stat.dallocSz).toNat = total := by
  have hle : stat.dallocSz ≤ stat.allocSz := UInt64.le_iff_toNat_le.mpr (by rw [h]; omega)
  rw [UInt64.toNat_sub_of_le _ _ hle, h, Nat.add_sub_cancel_left]

/-- A counter that counts is the total, as long as that fits. -/
theorem Counts.allocated (h : stat.Counts total) : stat.allocated.toNat = total := by
  rw [MemStat.allocated]
  split
  · exact h.sub
  · rename_i hle
    have hnat : ¬ stat.dallocSz.toNat < stat.allocSz.toNat := fun hlt =>
      hle (UInt64.lt_iff_toNat_lt.mpr hlt)
    have hzero : (0 : UInt64).toNat = 0 := rfl
    rw [h] at hnat
    omega

/-- Counting bytes that are allocated. -/
theorem Counts.addAlloc (h : stat.Counts total) {sz : UInt64}
    (hfits : stat.allocSz.toNat + sz.toNat < 2 ^ 64) :
    (stat.addAlloc sz).Counts (total + sz.toNat) := by
  show (stat.allocSz + sz).toNat = stat.dallocSz.toNat + (total + sz.toNat)
  rw [UInt64.toNat_add, Nat.mod_eq_of_lt hfits, h, Nat.add_assoc]

/-- Counting bytes that are freed. -/
theorem Counts.addDalloc (h : stat.Counts total) {sz : UInt64} (hle : sz.toNat ≤ total) :
    (stat.addDalloc sz).Counts (total - sz.toNat) := by
  have hlt := stat.allocSz.toNat_lt
  show stat.allocSz.toNat = (stat.dallocSz + sz).toNat + (total - sz.toNat)
  rw [h] at hlt ⊢
  rw [UInt64.toNat_add, Nat.mod_eq_of_lt (by omega)]
  omega

/-- The peak after an update. -/
theorem Counts.updatePeak (h : stat.Counts total) : stat.updatePeak.Counts total ∧
    stat.updatePeak.peakSz.toNat = max stat.peakSz.toNat total := by
  have hused := h.allocated
  rw [MemStat.updatePeak]
  split
  · rename_i heq
    refine ⟨h, ?_⟩
    rw [heq, hused, Nat.max_self]
  · refine ⟨h, ?_⟩
    show (if stat.peakSz > stat.allocated then stat.peakSz else stat.allocated).toNat = _
    split
    · rename_i hgt
      have hnat := UInt64.lt_iff_toNat_lt.mp hgt
      rw [hused] at hnat
      omega
    · rename_i hgt
      have hnat : ¬ stat.allocated.toNat < stat.peakSz.toNat := fun hlt =>
        hgt (UInt64.lt_iff_toNat_lt.mpr hlt)
      rw [hused] at hnat ⊢
      omega

end MemStat

/-- **The invariant** of the runs whose calls are counted. -/
structure Inv (s : State) : Prop where
  counts : s.stat.Counts s.live.total
  peak : s.stat.peakSz.toNat = s.high
  high : s.live.total ≤ s.high

/-- Nothing is allocated in the beginning. -/
theorem inv_start : Inv .start := ⟨rfl, rfl, Nat.le_refl _⟩

/-- What the invariant knows makes the statistics exact. -/
theorem Inv.exact {s : State} (h : Inv s) : Exact s := ⟨h.counts.sub, h.peak⟩

/-- A call after which the counters say what is live keeps the invariant. -/
theorem Inv.next {s : State} (h : Inv s) {stat : MemStat} {live : Live}
    (hpeak : stat.peakSz = s.stat.peakSz) (hcounts : stat.Counts live.total) :
    Inv ⟨stat.updatePeak, live, max s.high live.total⟩ := by
  obtain ⟨hcounts', hmax⟩ := hcounts.updatePeak
  refine ⟨hcounts', ?_, Nat.le_max_right _ _⟩
  rw [hmax, hpeak, h.peak]

/-! ### The calls -/

section Calls

variable {s : State}

/-- A wrapper of an allocation keeps the invariant. -/
theorem Inv.alloc (h : Inv s) {res : Option Block} (hnew : ∀ b ∈ res, s.live.get? b.ptr = none)
    (hfits : s.stat.allocSz.toNat + res.elim 0 (fun b => b.size.toNat) < 2 ^ 64) :
    Inv ⟨countAlloc s.stat s.live res, allocLive s.live res,
      max s.high (allocLive s.live res).total⟩ := by
  obtain ⟨htotal, husable⟩ := total_alloc hnew
  refine h.next rfl ?_
  rw [htotal, ← husable]
  rw [← husable] at hfits
  exact h.counts.addAlloc hfits

/-- A `free` keeps the invariant. -/
theorem Inv.free (h : Inv s) (ptr : Option Nat) : Inv (s.call (.free ptr)) := by
  have htotal : Live.total (freeLive s.live ptr) =
      s.live.total - (usableSize s.live ptr).toNat ∧
        (usableSize s.live ptr).toNat ≤ s.live.total := by
    cases ptr with
    | none => exact ⟨rfl, Nat.zero_le _⟩
    | some p =>
      have herase := total_erase s.live p
      refine ⟨?_, by omega⟩
      show Live.total (s.live.erase p) = _
      omega
  refine h.next rfl ?_
  rw [htotal.1]
  exact h.counts.addDalloc htotal.2

/-- The size of a block is part of the total. -/
theorem usableSize_le (live : Live) (ptr : Nat) :
    (usableSize live (some ptr)).toNat ≤ live.total := by
  have herase := total_erase live ptr
  omega

/-- **A realloc that fails or frees** its block, for the size 0. -/
theorem Inv.realloc_none (h : Inv s) {p sz : Nat}
    (hcounted : sz = 0 ∨ usableSize s.live (some p) = 0) :
    Inv (s.call (.realloc (some p) sz none)) := by
  have herase := total_erase s.live p
  by_cases hsz : sz = 0
  · have hcall : s.call (.realloc (some p) sz none) =
        ⟨(s.stat.addDalloc (usableSize s.live (some p))).updatePeak, s.live.erase p,
          max s.high (Live.total (s.live.erase p))⟩ := by
      simp [State.call, realloc, reallocLive, hsz]
    rw [hcall]
    refine h.next rfl ?_
    have hlive : Live.total (s.live.erase p) =
        s.live.total - (usableSize s.live (some p)).toNat := by omega
    rw [hlive]
    exact h.counts.addDalloc (usableSize_le s.live p)
  · have hzero := hcounted.resolve_left hsz
    have hcall : s.call (.realloc (some p) sz none) =
        ⟨((s.stat.addAlloc 0).addDalloc 0).updatePeak, s.live, max s.high s.live.total⟩ := by
      simp [State.call, realloc, reallocLive, hsz, hzero]
    rw [hcall]
    refine h.next rfl ?_
    have hlt := s.stat.allocSz.toNat_lt
    have hadd : (s.stat.addAlloc 0).Counts (s.live.total + (0 : UInt64).toNat) :=
      h.counts.addAlloc (by simpa using hlt)
    exact hadd.addDalloc (Nat.zero_le _)

/-- **A realloc that moves** its block. -/
theorem Inv.realloc_move (h : Inv s) {p sz : Nat} {b : Block} (hsz : sz ≠ 0) (hne : b.ptr ≠ p)
    (hnew : s.live.get? b.ptr = none)
    (hfits : s.stat.allocSz.toNat + b.size.toNat < 2 ^ 64) :
    Inv (s.call (.realloc (some p) sz (some b))) := by
  have hmove := total_move hne hnew
  have hle := usableSize_le s.live p
  have hptr : ¬ p = b.ptr := Ne.symm hne
  have hcall : s.call (.realloc (some p) sz (some b)) =
      ⟨((s.stat.addAlloc b.size).addDalloc (usableSize s.live (some p))).updatePeak,
        (s.live.set b.ptr b.size).erase p,
        max s.high (Live.total ((s.live.set b.ptr b.size).erase p))⟩ := by
    simp [State.call, realloc, reallocLive, hsz, hne, hptr, usableSize_erase_set hne]
  rw [hcall]
  refine h.next rfl ?_
  have hlive : Live.total ((s.live.set b.ptr b.size).erase p) =
      s.live.total + b.size.toNat - (usableSize s.live (some p)).toNat := by omega
  rw [hlive]
  exact (h.counts.addAlloc hfits).addDalloc (by omega)

/-- **A realloc that grows** its block in place. -/
theorem Inv.realloc_grow (h : Inv s) {p sz : Nat} {size : UInt64} (hsz : sz ≠ 0)
    (hle : usableSize s.live (some p) ≤ size)
    (hfits : s.stat.allocSz.toNat + (size.toNat - (usableSize s.live (some p)).toNat) < 2 ^ 64) :
    Inv (s.call (.realloc (some p) sz (some ⟨p, size⟩))) := by
  have hset := total_set s.live p size
  have hnat := UInt64.le_iff_toNat_le.mp hle
  -- the difference is added only when the block grows
  by_cases hgt : size > usableSize s.live (some p)
  · have hcall : s.call (.realloc (some p) sz (some ⟨p, size⟩)) =
        ⟨(s.stat.addAlloc (size - usableSize s.live (some p))).updatePeak, s.live.set p size,
          max s.high (Live.total (s.live.set p size))⟩ := by
      simp [State.call, realloc, reallocLive, hsz, usableSize_set, hgt]
    have hsub := UInt64.toNat_sub_of_le _ _ hle
    rw [hcall]
    refine h.next rfl ?_
    have hlive : Live.total (s.live.set p size) =
        s.live.total + (size - usableSize s.live (some p)).toNat := by omega
    rw [hlive]
    exact h.counts.addAlloc (by rw [hsub]; exact hfits)
  · have hcall : s.call (.realloc (some p) sz (some ⟨p, size⟩)) =
        ⟨s.stat.updatePeak, s.live.set p size, max s.high (Live.total (s.live.set p size))⟩ := by
      simp [State.call, realloc, reallocLive, hsz, usableSize_set, hgt]
    -- the size has not grown, and by assumption not shrunk
    have hsame : ¬ (usableSize s.live (some p)).toNat < size.toNat := fun hlt =>
      hgt (UInt64.lt_iff_toNat_lt.mpr hlt)
    rw [hcall]
    refine h.next rfl ?_
    have hlive : Live.total (s.live.set p size) = s.live.total := by omega
    rw [hlive]
    exact h.counts

/-- What a realloc to the size 0 does that returns a block nevertheless. -/
theorem realloc_zero (s : State) {p : Nat} {b : Block}
    (hnew : p = b.ptr ∨ s.live.get? b.ptr = none) :
    ∃ live : Live, s.call (.realloc (some p) 0 (some b)) =
      ⟨(s.stat.addDalloc (usableSize s.live (some p))).updatePeak, live, max s.high live.total⟩ ∧
        live.total + (usableSize s.live (some p)).toNat = s.live.total + b.size.toNat := by
  by_cases hptr : b.ptr = p
  · refine ⟨s.live.set p b.size, ?_, total_set s.live p b.size⟩
    simp [State.call, realloc, reallocLive, hptr]
  · refine ⟨(s.live.set b.ptr b.size).erase p, ?_, ?_⟩
    · simp [State.call, realloc, reallocLive, hptr]
    · exact total_move hptr (hnew.resolve_left fun heq => hptr heq.symm)

/-- **A call that is counted** keeps the invariant. -/
theorem Inv.call (h : Inv s) {c : Call} (hvalid : c.Valid s.live) (hcounted : Counted s c)
    (hfits : Fits s c) : Inv (s.call c) := by
  cases c with
  | malloc res => exact h.alloc hvalid hfits
  | calloc res => exact h.alloc hvalid hfits
  | alignedAlloc res => exact h.alloc hvalid hfits
  | posixMemalign res =>
    cases res with
    | none =>
      -- nothing was allocated
      have hmax : max s.high s.live.total = s.high := Nat.max_eq_left h.high
      show Inv ⟨s.stat, s.live, max s.high s.live.total⟩
      rw [hmax]
      exact h
    | some b => exact h.alloc hvalid hfits
  | free ptr => exact h.free ptr
  | realloc ptr sz res =>
    cases ptr with
    | none =>
      have hnew : ∀ b ∈ res, s.live.get? b.ptr = none := fun b hb =>
        (hvalid.2 b hb).resolve_left (by simp)
      exact h.alloc hnew hfits
    | some p =>
      cases res with
      | none => exact h.realloc_none hcounted
      | some b =>
        have hptr := hvalid.2 b rfl
        by_cases hsz : sz = 0
        · subst hsz
          -- `realloc` with size zero frees the block, and its result counts nothing
          have hzero : b.size = 0 := hcounted
          obtain ⟨live, hcall, htotal⟩ := realloc_zero s (hptr.imp_left Option.some.inj)
          rw [hzero] at htotal
          have hle := usableSize_le s.live p
          have hlive : live.total = s.live.total - (usableSize s.live (some p)).toNat := by
            have h0 : (0 : UInt64).toNat = 0 := rfl
            omega
          rw [hcall]
          refine h.next rfl ?_
          rw [hlive]
          exact h.counts.addDalloc hle
        · simp only [Counted, if_neg hsz] at hcounted
          by_cases hmoved : b.ptr = p
          · -- the block grows in place
            obtain ⟨ptr, size⟩ := b
            obtain rfl : ptr = p := hmoved
            have hgrown : s.stat.allocSz.toNat +
                (size.toNat - (usableSize s.live (some ptr)).toNat) < 2 ^ 64 := by
              simpa [Fits, Call.grown] using hfits
            exact h.realloc_grow hsz (hcounted rfl) hgrown
          · -- the block moves: the old one is freed, and the new one allocated
            have hnew := hptr.resolve_left fun heq => hmoved (Option.some.inj heq).symm
            have hgrown : s.stat.allocSz.toNat + b.size.toNat < 2 ^ 64 := by
              simpa [Fits, Call.grown, hmoved] using hfits
            exact h.realloc_move hsz hmoved hnew hgrown

/-- Counters that say something else are not exact. -/
theorem not_exact {stat : MemStat} {total high : Nat} {live : Live} (hcounts : stat.Counts total)
    (hne : total ≠ live.total) : ¬ Exact ⟨stat.updatePeak, live, high⟩ := fun hexact =>
  hne (hcounts.updatePeak.1.sub.symm.trans hexact.live)

/-- **A call that is not counted** leaves the counters wrong. -/
theorem Inv.call_breaks (h : Inv s) {c : Call} (hvalid : c.Valid s.live)
    (hcounted : ¬ Counted s c) : ¬ Exact (s.call c) := by
  cases c with
  | malloc res => exact absurd trivial hcounted
  | calloc res => exact absurd trivial hcounted
  | alignedAlloc res => exact absurd trivial hcounted
  | posixMemalign res => exact absurd trivial hcounted
  | free ptr => exact absurd trivial hcounted
  | realloc ptr sz res =>
    cases ptr with
    | none => exact absurd trivial hcounted
    | some p =>
      have hle := usableSize_le s.live p
      cases res with
      | none =>
        simp only [Counted, not_or] at hcounted
        obtain ⟨hsz, hold⟩ := hcounted
        -- the block is live, and counted as freed
        have hcall : s.call (.realloc (some p) sz none) =
            ⟨((s.stat.addAlloc 0).addDalloc (usableSize s.live (some p))).updatePeak, s.live,
              max s.high s.live.total⟩ := by
          simp [State.call, realloc, reallocLive, hsz]
        have hlt := s.stat.allocSz.toNat_lt
        have hadd : (s.stat.addAlloc 0).Counts (s.live.total + (0 : UInt64).toNat) :=
          h.counts.addAlloc (by simpa using hlt)
        have hpos : (usableSize s.live (some p)).toNat ≠ 0 := fun hzero =>
          hold (UInt64.toNat_inj.mp hzero)
        rw [hcall]
        refine not_exact (hadd.addDalloc (Nat.le_trans hle (Nat.le_add_right _ _))) ?_
        have h0 : (0 : UInt64).toNat = 0 := rfl
        omega
      | some b =>
        by_cases hsz : sz = 0
        · subst hsz
          have hsize : b.size.toNat ≠ 0 := fun hzero => hcounted (UInt64.toNat_inj.mp hzero)
          obtain ⟨live, hcall, htotal⟩ := realloc_zero s ((hvalid.2 b rfl).imp_left Option.some.inj)
          rw [hcall]
          exact not_exact (h.counts.addDalloc hle) (by omega)
        · simp only [Counted, if_neg hsz, Classical.not_imp] at hcounted
          obtain ⟨hptr, hless⟩ := hcounted
          obtain ⟨ptr, size⟩ := b
          obtain rfl : ptr = p := hptr
          have hlt : size.toNat < (usableSize s.live (some ptr)).toNat :=
            Nat.lt_of_not_le fun hnat => hless (UInt64.le_iff_toNat_le.mpr hnat)
          have hgt : ¬ size > usableSize s.live (some ptr) := fun hgt =>
            Nat.lt_asymm hlt (UInt64.lt_iff_toNat_lt.mp hgt)
          -- the block is smaller, and nothing is counted
          have hcall : s.call (.realloc (some ptr) sz (some ⟨ptr, size⟩)) =
              ⟨s.stat.updatePeak, s.live.set ptr size,
                max s.high (Live.total (s.live.set ptr size))⟩ := by
            simp [State.call, realloc, reallocLive, hsz, usableSize_set, hgt]
          have hset := total_set s.live ptr size
          rw [hcall]
          exact not_exact h.counts (by omega)

end Calls

/-- **When the accounting is exact.** In a run of one scope that counts fewer than `2 ^ 64` bytes,
    the counters say after every call what is live and what was at most, if and only if every call
    is counted. -/
theorem exact_iff {run : List (Call × State)} (hrun : machine.Path .start run)
    (hfits : Machine.StepsMeet Fits .start run) :
    (∀ q ∈ run, Exact q.2) ↔ Machine.StepsMeet Counted .start run := by
  refine Machine.path_iff (M := machine.restrict Fits) (I := Inv) (fun s h => Inv.exact h) ?_ ?_
    inv_start (hrun.restrict hfits)
  · rintro s c t h ⟨hvalid, hroom⟩ hcounted hx
    obtain rfl := Except.ok.inj hx
    exact h.call hvalid hcounted hroom
  · rintro s c t h ⟨hvalid, -⟩ hcounted hx
    obtain rfl := Except.ok.inj hx
    exact h.call_breaks hvalid hcounted

/-- A block of 64 bytes that a realloc shrinks to 32 where it is. -/
def shrunkCalls : List Call := [.malloc (some ⟨4096, 64⟩), .realloc (some 4096) 20 (some ⟨4096, 32⟩)]

/-- The counters still say 64. -/
theorem shrunk_inexact : ¬ ∀ run, machine.Path .start run → ∀ q ∈ run, Exact q.2 := by
  intro hall
  have hpath := Machine.trace_path (M := machine) shrunkCalls .start
  have hlast : (machine.trace .start shrunkCalls).getLast?.isSome = true := by decide +kernel
  obtain ⟨q, hq⟩ := Option.isSome_iff_exists.mp hlast
  have hexact := (hall _ hpath q (List.mem_of_getLast? hq)).live
  have hstat : (machine.final .start shrunkCalls).stat = ⟨64, 0, 64⟩ := by decide +kernel
  have htotal : (machine.final .start shrunkCalls).live.total = 32 := by decide +kernel
  rw [Machine.final, hq] at hstat htotal
  simp only [Option.elim_some] at hstat htotal
  rw [hstat, htotal] at hexact
  exact absurd hexact (by decide)

/-- A block that grows, is moved and freed. -/
def grownCalls : List Call :=
  [.calloc (some ⟨4096, 64⟩), .realloc (some 4096) 70 (some ⟨4096, 80⟩),
   .realloc (some 4096) 200 (some ⟨8192, 208⟩), .posixMemalign none, .realloc (some 8192) 0 none]

/-- A block that grows is counted with what it was. -/
theorem grown_exact : (∀ q ∈ machine.trace .start grownCalls, Exact q.2) ∧
    (machine.final .start grownCalls).stat = ⟨288, 288, 208⟩ := by
  have hpath := Machine.trace_path (M := machine) grownCalls .start
  exact ⟨(exact_iff hpath (by decide +kernel)).mpr (by decide +kernel), by decide +kernel⟩

end Malloc

end Skull
