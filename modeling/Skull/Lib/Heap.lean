import Skull.Lib.Dict
import Mathlib.Data.List.Perm.Basic

/-!
# Heaps

Blocks of memory by address, as the C library hands them out:

* `Heap.calloc`, `Heap.free` — a block is written at a free address; to free an address that holds
  no block is a fault, to free `NULL` is nothing;
* `Allocator` — the choice of an address, any one that holds no block;
* `Allocator.above` — an allocator that never reuses an address;
* `Blocks` — blocks numbered in the order of their allocation, for programs that never compare
  addresses, with `Blocks.Owned`: every block was freed once or has one owner.
-/

namespace Heaps

/-- An address; a pointer that may be `NULL` is an `Option Addr`. -/
abbrev Addr := Nat

/-- The blocks that are allocated. -/
structure Heap (β : Type) where
  blocks : Dict Addr β
  deriving DecidableEq

namespace Heap

variable {β : Type}

/-- No block. -/
def empty : Heap β := ⟨Dict.empty⟩

/-- The block at an address. -/
def get? (h : Heap β) (a : Addr) : Option β := h.blocks.get? a

/-- Write a block at an address. -/
def calloc (h : Heap β) (a : Addr) (b : β) : Heap β := ⟨h.blocks.set a b⟩

/-- `free`: `none` when the pointer is neither `NULL` nor the address of a block. -/
def free (h : Heap β) : Option Addr → Option (Heap β)
  | none => some h
  | some a => if (h.get? a).isSome then some ⟨h.blocks.erase a⟩ else none

@[simp] theorem get?_calloc (h : Heap β) (a : Addr) (b : β) : (h.calloc a b).get? a = some b := by
  show (h.blocks.set a b).get? a = some b
  rw [Dict.get?_set, if_pos rfl]

theorem get?_calloc_of_ne (h : Heap β) {a k : Addr} (b : β) (hne : k ≠ a) :
    (h.calloc a b).get? k = h.get? k :=
  h.blocks.get?_set_of_ne b hne

/-- A pointer to no block cannot be freed. -/
theorem free_none {h : Heap β} {a : Addr} (ha : h.get? a = none) : h.free (some a) = none := by
  simp [free, ha]

/-- A block can be freed; its address is free then, and nothing else changes. -/
theorem free_some {h : Heap β} {a : Addr} {b : β} (ha : h.get? a = some b) :
    ∃ h', h.free (some a) = some h' ∧ h'.get? a = none ∧ ∀ k, k ≠ a → h'.get? k = h.get? k := by
  refine ⟨⟨h.blocks.erase a⟩, by simp [free, ha], ?_, fun k hk => ?_⟩
  · show (h.blocks.erase a).get? a = none
    rw [Dict.get?_erase, if_pos rfl]
  · show (h.blocks.erase a).get? k = h.blocks.get? k
    rw [Dict.get?_erase, if_neg hk]

end Heap

/-- An allocator: it picks an address that holds no block. -/
structure Allocator (β : Type) where
  pick : Heap β → Addr
  fresh : ∀ h : Heap β, h.get? (pick h) = none

namespace Allocator

variable {β : Type}

/-- The address above all that hold a block. -/
def top (h : Heap β) : Addr := (h.blocks.entries.map Prod.fst).foldr (fun a n : Nat => max (a + 1) n) 0

/-- A number above all others. -/
theorem lt_foldr_max {a : Nat} {as : List Nat} (h : a ∈ as) :
    a < as.foldr (fun a n => max (a + 1) n) 0 := by
  induction as with
  | nil => simp at h
  | cons b as ih =>
    rw [List.foldr_cons]
    rcases List.mem_cons.mp h with rfl | h
    · omega
    · have hlt := ih h
      omega

theorem get?_top (h : Heap β) : h.get? (top h) = none := by
  show Dict.getEntry (top h) h.blocks.entries = none
  rw [Dict.getEntry_eq_none]
  intro hmem
  exact Nat.lt_irrefl _ (lt_foldr_max hmem)

/-- The allocator that goes above all that is allocated. -/
def above : Allocator β := ⟨top, get?_top⟩

end Allocator

/-! ### Numbered blocks -/

/-- Blocks by the number of their allocation, and the numbers of those that were freed. -/
structure Blocks (β : Type) where
  contents : List β
  freed : List Nat
  deriving DecidableEq, Repr

namespace Blocks

variable {β : Type}

/-- No block was allocated. -/
def empty : Blocks β := ⟨[], []⟩

/-- Allocate a block: its number, and the blocks then. -/
def alloc (bs : Blocks β) (b : β) : Nat × Blocks β :=
  (bs.contents.length, { bs with contents := bs.contents ++ [b] })

/-- The block with a number, while it is allocated. -/
def get? (bs : Blocks β) (i : Nat) : Option β := if i ∈ bs.freed then none else bs.contents[i]?

/-- Free a block that is allocated. -/
def free (bs : Blocks β) (i : Nat) : Option (Blocks β) :=
  if (bs.get? i).isSome then some { bs with freed := bs.freed ++ [i] } else none

/-- Every block that was allocated was freed, exactly once. -/
def Settled (bs : Blocks β) : Prop := (List.range bs.contents.length).Perm bs.freed

/-- Every block was freed once or has one owner. -/
def Owned (bs : Blocks β) (owned : List Nat) : Prop :=
  (List.range bs.contents.length).Perm (bs.freed ++ owned)

variable {bs : Blocks β} {owned : List Nat} {i : Nat} {b : β}

/-- Nobody owns anything in the beginning. -/
theorem owned_empty : (empty : Blocks β).Owned [] := .refl _

/-- When nobody owns anything all blocks were freed. -/
theorem Owned.settled (h : bs.Owned []) : bs.Settled := by
  simpa [Owned, Settled] using h

/-- The order of the owned blocks does not matter. -/
theorem Owned.perm {owned' : List Nat} (h : bs.Owned owned) (hp : owned.Perm owned') :
    bs.Owned owned' := h.trans (hp.append_left _)

/-- A block that still has an owner was not freed. -/
theorem Owned.not_settled (h : bs.Owned (i :: owned)) : ¬ bs.Settled := by
  intro hs
  have hlen := h.length_eq.symm.trans hs.length_eq
  simp at hlen

/-- A block with an owner is allocated. -/
theorem Owned.get? (h : bs.Owned (i :: owned)) : bs.get? i = bs.contents[i]? ∧
    i < bs.contents.length := by
  have hnodup : (bs.freed ++ i :: owned).Nodup := h.nodup_iff.mp List.nodup_range
  have hmem : i ∈ List.range bs.contents.length := h.mem_iff.mpr (by simp)
  have hfreed : i ∉ bs.freed := fun hc =>
    (List.nodup_append.mp hnodup).2.2 i hc i (.head _) rfl
  exact ⟨if_neg hfreed, List.mem_range.mp hmem⟩

/-- A new block has an owner, and the other blocks are as they were. -/
theorem Owned.alloc (h : bs.Owned owned) (b : β) :
    (bs.alloc b).2.Owned ((bs.alloc b).1 :: owned) := by
  show (List.range (bs.contents ++ [b]).length).Perm (bs.freed ++ bs.contents.length :: owned)
  rw [List.length_append, List.length_singleton, List.range_succ]
  exact (List.perm_append_singleton _ _).trans ((h.cons _).trans List.perm_middle.symm)

/-- The owner of a block frees it. -/
theorem Owned.free (h : bs.Owned (i :: owned)) :
    bs.free i = some { bs with freed := bs.freed ++ [i] } ∧
      Owned { bs with freed := bs.freed ++ [i] } owned := by
  constructor
  · obtain ⟨hget, hlt⟩ := h.get?
    simp [Blocks.free, hget, hlt]
  · show (List.range bs.contents.length).Perm (bs.freed ++ [i] ++ owned)
    rw [List.append_assoc]
    exact h

end Blocks

end Heaps
