import Mathlib.Data.List.Perm.Basic
import Mathlib.Tactic.Common

namespace Machines

/-!
# Readers–writer locks

The abstract side of a component that admits either several readers or one writer.  An
`RWLock` cannot be in a mixed state: it is free, held by one or more readers, or held by one
writer.

* `RWLock.grant`, `RWLock.release` — one more holder, one holder less;
* `RWLock.Holds l ks` — the list `ks` of kinds of the current holders agrees with `l`;
* `RWLock.Holds.grant`, `RWLock.Holds.release` — the two operations keep the agreement;
* `RWLock.Holds.exclusion` — readers–writer exclusion.
-/

/-- What a holder wants. -/
inductive RWKind
  | read | write
  deriving DecidableEq, Repr

/-- A readers–writer lock; `shared n` is held by `n + 1` readers. -/
inductive RWLock
  | free
  | shared (n : Nat)
  | exclusive
  deriving DecidableEq, Repr

namespace RWLock

/-- Admit one more holder, if the lock allows it. -/
def grant : RWLock → RWKind → Option RWLock
  | .free, .read => some (.shared 0)
  | .free, .write => some .exclusive
  | .shared n, .read => some (.shared (n + 1))
  | .shared _, .write => none
  | .exclusive, _ => none

/-- Drop one holder. -/
def release : RWLock → Option RWLock
  | .free => none
  | .shared 0 => some .free
  | .shared (n + 1) => some (.shared n)
  | .exclusive => some .free

/-- The number of holders. -/
def holders : RWLock → Nat
  | .free => 0
  | .shared n => n + 1
  | .exclusive => 1

/-- The holders of `l` have the kinds `ks`. -/
def Holds : RWLock → List RWKind → Prop
  | .free, ks => ks = []
  | .shared n, ks => ks.length = n + 1 ∧ ∀ k ∈ ks, k = .read
  | .exclusive, ks => ks = [.write]

/-- The order of the holders does not matter. -/
theorem Holds.perm {l : RWLock} {ks ks' : List RWKind} (h : l.Holds ks) (hp : ks.Perm ks') :
    l.Holds ks' := by
  cases l with
  | free =>
    simp only [Holds] at h ⊢
    subst h
    exact hp.symm.eq_nil
  | shared n => exact ⟨hp.length_eq ▸ h.1, fun k hk => h.2 k (hp.mem_iff.mpr hk)⟩
  | exclusive =>
    simp only [Holds] at h ⊢
    subst h
    exact List.perm_singleton.mp hp.symm

/-- A lock has as many holders as its state says. -/
theorem Holds.length {l : RWLock} {ks : List RWKind} (h : l.Holds ks) :
    ks.length = l.holders := by
  cases l with
  | free => simp only [Holds] at h; simp [h, holders]
  | shared n => exact h.1
  | exclusive => simp only [Holds] at h; simp [h, holders]

/-- **Exclusion.** The holders are all readers, or there is one writer. -/
theorem Holds.exclusion {l : RWLock} {ks : List RWKind} (h : l.Holds ks) :
    (∀ k ∈ ks, k = .read) ∨ ks = [.write] := by
  cases l with
  | free => simp only [Holds] at h; simp [h]
  | shared n => exact .inl h.2
  | exclusive => exact .inr h

/-- Admitting a holder adds its kind. -/
theorem Holds.grant {l l' : RWLock} {k : RWKind} {ks : List RWKind} (h : l.Holds ks)
    (hg : l.grant k = some l') : l'.Holds (k :: ks) := by
  cases l <;> cases k <;> simp only [RWLock.grant, Option.some.injEq, reduceCtorEq] at hg <;>
    subst hg
  case free.read => simp only [Holds] at h; simp [Holds, h]
  case free.write => simp only [Holds] at h; simp [Holds, h]
  case shared.read n =>
    refine ⟨by simp [h.1], fun k hk => ?_⟩
    rcases List.mem_cons.mp hk with rfl | hk
    · rfl
    · exact h.2 k hk

/-- Dropping a holder is possible when there is one, and removes its kind. -/
theorem Holds.release {l : RWLock} {k : RWKind} {ks : List RWKind} (h : l.Holds (k :: ks)) :
    ∃ l', l.release = some l' ∧ l'.Holds ks := by
  cases l with
  | free => simp [Holds] at h
  | shared n =>
    obtain ⟨hlen, hall⟩ := h
    simp only [List.length_cons, Nat.add_right_cancel_iff] at hlen
    have hks : ∀ k ∈ ks, k = .read := fun k hk => hall k (by simp [hk])
    cases n with
    | zero => exact ⟨.free, rfl, List.length_eq_zero_iff.mp hlen⟩
    | succ n => exact ⟨.shared n, rfl, hlen, hks⟩
  | exclusive =>
    simp only [Holds, List.cons.injEq] at h
    exact ⟨.free, rfl, h.2⟩

/-- A lock with a writer among its holders is held exclusively. -/
theorem Holds.eq_exclusive {l : RWLock} {ks : List RWKind} (h : l.Holds ks)
    (hk : RWKind.write ∈ ks) : l = .exclusive := by
  cases l with
  | free => simp only [Holds] at h; simp [h] at hk
  | shared n => exact absurd (h.2 _ hk) (by simp)
  | exclusive => rfl

end RWLock

end Machines
