import Mathlib.Algebra.GroupWithZero.Nat
import Mathlib.Data.List.Perm.Basic
import Mathlib.Algebra.Order.BigOperators.Group.List
import Mathlib.Tactic.Common

namespace Machines

/-!
# Queues that elements move between

A family of queues, each first in, first out; an element is pushed to a queue, or moves from the
head of one queue to the end of another one.

* `Queues`, `Queues.push`, `Queues.move` — the queues and what happens to them;
* `Queues.line` — what a row of queues holds, from its last queue to its first one, as far as a
  `view` of each queue shows it;
* `Queues.line_push` — what is pushed to the first queue of a row comes last in its line;
* `Queues.line_move` — along a row elements move in line; `Queues.line_leave` — those that leave
  the row leave the others in line;
* `Queues.perm_move` — whatever moves within a row, it holds the same elements;
* `Queues.load_move` — what a move does to the sum of the weights of all elements.
-/

/-- The content of each queue, oldest element first. -/
abbrev Queues (κ α : Type) := κ → List α

namespace Queues

variable {κ α ι : Type}

/-- What a row of queues holds. -/
def line (view : κ → α → Option ι) (Q : Queues κ α) (ks : List κ) : List ι :=
  ks.flatMap fun k => (Q k).filterMap (view k)

section Line

variable {view : κ → α → Option ι} {Q Q' : Queues κ α} {k : κ} {ks as bs : List κ}

@[simp] theorem line_nil : line view Q [] = [] := rfl

@[simp] theorem line_cons : line view Q (k :: ks) = (Q k).filterMap (view k) ++ line view Q ks := rfl

@[simp] theorem line_append : line view Q (as ++ bs) = line view Q as ++ line view Q bs :=
  List.flatMap_append

/-- What is in the line is in one of its places. -/
theorem mem_line {i : ι} : i ∈ line view Q ks ↔ ∃ k ∈ ks, ∃ x ∈ Q k, view k x = some i := by
  simp [line]

theorem line_congr (h : ∀ k ∈ ks, Q' k = Q k) : line view Q' ks = line view Q ks := by
  induction ks with
  | nil => rfl
  | cons k ks ih =>
    rw [line_cons, line_cons, h k (.head _), ih fun i hi => h i (.tail _ hi)]

end Line

variable [DecidableEq κ]

/-- `x` is pushed to `k`. -/
def push (Q : Queues κ α) (k : κ) (x : α) : Queues κ α :=
  fun i => if i = k then Q i ++ [x] else Q i

/-- The head of `k` is popped, and `y` pushed to `k'`. -/
def move (Q : Queues κ α) (k k' : κ) (y : α) : Queues κ α :=
  push (fun i => if i = k then (Q i).tail else Q i) k' y

variable {view : κ → α → Option ι} {Q Q' : Queues κ α} {k k' : κ} {ks as bs : List κ} {x y : α}
  {rest : List α}

@[simp] theorem push_self : Q.push k x k = Q k ++ [x] := if_pos rfl

theorem push_of_ne {i : κ} (h : i ≠ k) : Q.push k x i = Q i := if_neg h

theorem move_of_ne {i : κ} (h : i ≠ k) (h' : i ≠ k') : Q.move k k' y i = Q i := by
  rw [move, push_of_ne h', if_neg h]

/-- The element leaves its place. -/
theorem move_from (hne : k ≠ k') (hk : Q k = x :: rest) : Q.move k k' y k = rest := by
  rw [move, push_of_ne hne, if_pos rfl, hk, List.tail_cons]

/-- It is at the end of the other one. -/
theorem move_to (hne : k ≠ k') : Q.move k k' y k' = Q k' ++ [y] := by
  rw [move, push_self, if_neg (Ne.symm hne)]

/-- What is in a place after a push. -/
theorem mem_push {i : κ} {z : α} (h : z ∈ Q.push k x i) : z ∈ Q i ∨ i = k ∧ z = x := by
  rw [push] at h
  split at h
  · rename_i hi
    exact (List.mem_append.mp h).imp_right fun hz => ⟨hi, List.mem_singleton.mp hz⟩
  · exact .inl h

/-- What is in a place after a move. -/
theorem mem_move {i : κ} {z : α} (h : z ∈ Q.move k k' y i) : z ∈ Q i ∨ i = k' ∧ z = y := by
  refine (mem_push h).imp_left fun hz => ?_
  split at hz
  · exact List.mem_of_mem_tail hz
  · exact hz

/-! ### The line of a row -/

/-- An element is pushed to a queue that is not in the row. -/
theorem line_push_of_not_mem (h : k ∉ ks) : line view (Q.push k x) ks = line view Q ks :=
  line_congr fun _ hi => push_of_ne fun heq => h (heq ▸ hi)

/-- An element is pushed that is not seen. -/
theorem line_push_unseen (h : view k x = none) : line view (Q.push k x) ks = line view Q ks := by
  induction ks with
  | nil => rfl
  | cons i ks ih =>
    rw [line_cons, line_cons, ih]
    by_cases hi : i = k
    · subst hi
      rw [push_self, List.filterMap_append, List.filterMap_cons_none h, List.filterMap_nil,
        List.append_nil]
    · rw [push_of_ne hi]

/-- **An element joins the line.** -/
theorem line_push (h : k ∉ as) :
    line view (Q.push k x) (as ++ [k]) = line view Q (as ++ [k]) ++ (view k x).toList := by
  rw [line_append, line_append, line_push_of_not_mem h, line_cons, line_cons, push_self,
    List.filterMap_append]
  cases hx : view k x with
  | none => simp [hx]
  | some i => simp [hx]

/-- **An element moves in line**, from one queue of the row to the next one. -/
theorem line_move (hnodup : (as ++ k' :: k :: bs).Nodup) (hk : Q k = x :: rest)
    (hview : view k x = view k' y) :
    line view (Q.move k k' y) (as ++ k' :: k :: bs) = line view Q (as ++ k' :: k :: bs) := by
  obtain ⟨-, hrow, hdisjoint⟩ := List.nodup_append.mp hnodup
  obtain ⟨hk', hrow⟩ := List.nodup_cons.mp hrow
  obtain ⟨hkbs, -⟩ := List.nodup_cons.mp hrow
  have hne : k ≠ k' := fun heq => hk' (heq ▸ .head _)
  have has : line view (Q.move k k' y) as = line view Q as := line_congr fun i hi => by
    exact move_of_ne (hdisjoint i hi k (.tail _ (.head _))) (hdisjoint i hi k' (.head _))
  have hbs : line view (Q.move k k' y) bs = line view Q bs := line_congr fun i hi => by
    exact move_of_ne (fun heq => hkbs (heq ▸ hi)) fun heq => hk' (.tail _ (heq ▸ hi))
  rw [line_append, line_append, line_cons, line_cons, line_cons, line_cons, has, hbs,
    move_from hne hk, move_to hne, hk, List.filterMap_append, List.filterMap_cons (a := x), hview]
  cases hy : view k' y with
  | none => simp [hy]
  | some i => simp [hy]

/-- Popping a queue leaves the rest of the line. -/
theorem line_pop_sublist :
    (line view (fun i => if i = k then (Q i).tail else Q i) ks).Sublist (line view Q ks) := by
  induction ks with
  | nil => exact .slnil
  | cons i ks ih =>
    rw [line_cons, line_cons]
    refine List.Sublist.append ?_ ih
    split
    · exact (List.tail_sublist _).filterMap _
    · exact .refl _

/-- **An element leaves the row**, or moves where it is not seen. -/
theorem line_leave (h : k' ∉ ks ∨ view k' y = none) :
    (line view (Q.move k k' y) ks).Sublist (line view Q ks) := by
  rw [move]
  rcases h with hk' | hy
  · rw [line_push_of_not_mem hk']
    exact line_pop_sublist
  · rw [line_push_unseen hy]
    exact line_pop_sublist

/-! ### The elements of a row -/

/-- A push adds one element to the line. -/
theorem perm_push (hnodup : ks.Nodup) (hk : k ∈ ks) :
    (line view (Q.push k x) ks).Perm (line view Q ks ++ (view k x).toList) := by
  obtain ⟨as, bs, rfl⟩ := List.append_of_mem hk
  have has : k ∉ as := fun hin => (List.nodup_append.mp hnodup).2.2 k hin k (.head _) rfl
  have hbs : k ∉ bs := (List.nodup_cons.mp (List.nodup_append.mp hnodup).2.1).1
  have hsplit : as ++ k :: bs = (as ++ [k]) ++ bs := by simp
  have hline : line view Q (as ++ [k] ++ bs) = line view Q (as ++ [k]) ++ line view Q bs :=
    line_append
  rw [hsplit, hline, line_append, line_push has, line_push_of_not_mem hbs, List.append_assoc,
    List.append_assoc]
  exact List.perm_append_comm.append_left _

/-- A pop takes one element out of it. -/
theorem perm_pop (hnodup : ks.Nodup) (hin : k ∈ ks) (hk : Q k = x :: rest) :
    (line view Q ks).Perm
      (line view (fun i => if i = k then (Q i).tail else Q i) ks ++ (view k x).toList) := by
  obtain ⟨as, bs, rfl⟩ := List.append_of_mem hin
  have has : ∀ i ∈ as, (if i = k then (Q i).tail else Q i) = Q i := fun i hi => if_neg fun heq =>
    (List.nodup_append.mp hnodup).2.2 i hi k (.head _) heq
  have hbs : ∀ i ∈ bs, (if i = k then (Q i).tail else Q i) = Q i := by
    intro i hi
    refine if_neg ?_
    rintro rfl
    exact (List.nodup_cons.mp (List.nodup_append.mp hnodup).2.1).1 hi
  rw [line_append, line_append, line_cons, line_cons, line_congr has, line_congr hbs, if_pos rfl, hk,
    List.tail_cons]
  have hx : (x :: rest).filterMap (view k) = (view k x).toList ++ rest.filterMap (view k) := by
    cases hx : view k x with
    | none => simp [hx]
    | some i => simp [hx]
  rw [hx, List.append_assoc, List.append_assoc]
  refine List.Perm.append_left _ ?_
  rw [List.append_assoc]
  exact List.perm_append_comm.trans (by rw [List.append_assoc])

/-- **A row holds what it held**, whatever moves within it. -/
theorem perm_move (hnodup : ks.Nodup) (hin : k ∈ ks) (hin' : k' ∈ ks) (hk : Q k = x :: rest)
    (hview : view k x = view k' y) : (line view (Q.move k k' y) ks).Perm (line view Q ks) := by
  refine (perm_push hnodup hin').trans ?_
  rw [← hview]
  exact (perm_pop hnodup hin hk).symm

/-- The sum of the weights of all elements of a row. -/
def load (w : κ → α → Nat) (Q : Queues κ α) (ks : List κ) : Nat :=
  (line (fun k x => some (w k x)) Q ks).sum

/-- A push adds the weight of its element. -/
theorem load_push {w : κ → α → Nat} (hnodup : ks.Nodup) (hk : k ∈ ks) :
    (Q.push k x).load w ks = Q.load w ks + w k x := by
  rw [load, (perm_push hnodup hk).sum_eq, List.sum_append]
  simp [load]

/-- **A move** takes the weight of an element away, and adds its new one. -/
theorem load_move {w : κ → α → Nat} (hnodup : ks.Nodup) (hin : k ∈ ks) (hin' : k' ∈ ks)
    (hk : Q k = x :: rest) : (Q.move k k' y).load w ks + w k x = Q.load w ks + w k' y := by
  have hpop : (line (fun k x => some (w k x)) Q ks).sum = (line (fun k x => some (w k x))
      (fun i => if i = k then (Q i).tail else Q i) ks ++ (some (w k x)).toList).sum :=
    (perm_pop hnodup hin hk).sum_eq
  rw [List.sum_append] at hpop
  rw [move, load_push hnodup hin', load, load, hpop]
  simp only [Option.toList_some, List.sum_singleton]
  omega

end Queues

end Machines
