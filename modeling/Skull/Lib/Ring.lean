import Mathlib.Data.List.Rotate
import Mathlib.Tactic.Common

namespace Machines

/-!
# Going round

The numbers below `size`, from one of them on and round:

* `circle` — the list of them;
* `filter_circle_next` — when the first one of some kind is taken, those of that kind from the next
  number on are the others, and then this one.
-/

variable {size start x : Nat}

/-- The numbers below `size`, from `start` on. -/
def circle (size start : Nat) : List Nat := (List.range size).rotate start

@[simp] theorem length_circle : (circle size start).length = size := by simp [circle]

/-- Every place is passed. -/
theorem mem_circle : x ∈ circle size start ↔ x < size := by simp [circle]

theorem nodup_circle : (circle size start).Nodup := List.nodup_rotate.mpr List.nodup_range

/-- The place after so many steps. -/
theorem getElem_circle (start : Nat) {n : Nat} (h : n < size) :
    (circle size start)[n]? = some ((start + n) % size) := by
  have hn : n < ((List.range size).rotate start).length := by simpa using h
  rw [circle, List.getElem?_eq_getElem hn, List.getElem_rotate, List.getElem_range,
    List.length_range, Nat.add_comm]

/-- **The numbers from the next one on.** -/
theorem circle_next {as bs : List Nat} (h : circle size start = as ++ x :: bs) :
    circle size ((x + 1) % size) = bs ++ (as ++ [x]) := by
  have hlen : as.length < size := by
    have hsize := congrArg List.length h
    simp only [length_circle, List.length_append, List.length_cons] at hsize
    omega
  have hx : x = (start + as.length) % size := by
    have hget := getElem_circle start hlen
    rw [h, List.getElem?_append_right (le_refl _), Nat.sub_self, List.getElem?_cons_zero] at hget
    exact Option.some.inj hget
  have hmod : ∀ n, (List.range size).rotate (n % size) = (List.range size).rotate n := fun n => by
    simpa using List.rotate_mod (List.range size) n
  have hrotate : circle size ((x + 1) % size) = (circle size start).rotate (as.length + 1) := by
    rw [circle, hx, Nat.mod_add_mod, hmod, circle, List.rotate_rotate, Nat.add_assoc]
  have hsplit : as ++ x :: bs = (as ++ [x]) ++ bs := by simp
  have hlen' : as.length + 1 = (as ++ [x]).length := by simp
  rw [hrotate, h, hsplit, hlen', List.rotate_append_length_eq]

/-- **Those of a kind, from the next one on.** -/
theorem filter_circle_next {p : Nat → Bool} {xs : List Nat}
    (h : (circle size start).filter p = x :: xs) :
    (circle size ((x + 1) % size)).filter p = xs ++ [x] := by
  obtain ⟨as, bs, hsplit, has, hx, hbs⟩ := List.filter_eq_cons_iff.mp h
  have has' : as.filter p = [] := List.filter_eq_nil_iff.mpr has
  rw [circle_next hsplit, List.filter_append, List.filter_append, has', hbs]
  simp [hx]

end Machines
