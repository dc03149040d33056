import Mathlib.Algebra.GroupWithZero.Nat
import Mathlib.Algebra.Order.BigOperators.Group.List
import Mathlib.Algebra.Order.Group.Nat

namespace Machines

/-!
# Sums over a list

What becomes of a sum over distinct elements when a step changes what one of them adds, or what one
of them gets another one loses:

* `sum_le_add` — one element gets something;
* `sum_change` — one gets something, and another one loses something.
-/

variable {α : Type} [DecidableEq α] {l : List α} {f g : α → Nat} {x y : α} {a b : Nat}

/-- A sum to which no element adds, but for one. -/
theorem sum_indicator_le (hnodup : l.Nodup) (x : α) (b : Nat) :
    (l.map fun z => if z = x then b else 0).sum ≤ b := by
  induction l with
  | nil => exact Nat.zero_le b
  | cons z l ih =>
    obtain ⟨hz, hnodup⟩ := List.nodup_cons.mp hnodup
    rw [List.map_cons, List.sum_cons]
    by_cases hx : z = x
    · -- the element comes once only
      have hrest : (l.map fun z => if z = x then b else 0) = l.map fun _ => 0 :=
        List.map_congr_left fun w hw => if_neg fun (heq : w = x) => hz ((heq.trans hx.symm) ▸ hw)
      rw [if_pos hx, hrest]
      simp
    · rw [if_neg hx, Nat.zero_add]
      exact ih hnodup

/-- **A sum grows** by what one element gets. -/
theorem sum_le_add (hnodup : l.Nodup) (h : ∀ z ∈ l, g z ≤ f z + if z = x then b else 0) :
    (l.map g).sum ≤ (l.map f).sum + b := by
  have hle := List.sum_le_sum h
  rw [List.sum_map_add] at hle
  exact hle.trans (Nat.add_le_add_left (sum_indicator_le hnodup x b) _)

/-- **A sum changes** at one element by what it gets, and at another one by what it loses. -/
theorem sum_change (hnodup : l.Nodup) (hy : y ∈ l)
    (h : ∀ z ∈ l, g z + (if z = y then a else 0) ≤ f z + if z = x then b else 0) :
    (l.map g).sum + a ≤ (l.map f).sum + b := by
  have hle := sum_le_add hnodup h
  rw [List.sum_map_add] at hle
  have hlower : a ≤ (l.map fun z => if z = y then a else 0).sum :=
    List.single_le_sum (fun _ _ => Nat.zero_le _) a (List.mem_map.mpr ⟨y, hy, if_pos rfl⟩)
  omega

end Machines
