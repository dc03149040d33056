import Mathlib.Algebra.BigOperators.Group.List.Basic
import Mathlib.Algebra.Order.BigOperators.Group.List
import Mathlib.Data.List.Basic
import Mathlib.Tactic.Common

/-!
# Dictionaries with sums

A dictionary in the order in which its keys were inserted, no key twice:

* `Dict.get?`, `Dict.set`, `Dict.erase`, `Dict.find?` — reading, writing, removing, searching in
  order;
* `Dict.sum` — the sum of a quantity over the entries;
* `Dict.sum_set`, `Dict.sum_erase` — how a change of one entry changes such a sum.
-/

/-- A dictionary from `α` to `β`. -/
structure Dict (α β : Type) where
  entries : List (α × β)
  nodup : (entries.map Prod.fst).Nodup

namespace Dict

variable {α β : Type} [DecidableEq α]

instance [DecidableEq β] : DecidableEq (Dict α β) := fun d e =>
  match d, e with
  | ⟨xs, _⟩, ⟨ys, _⟩ =>
    if h : xs = ys then .isTrue (by subst h; rfl) else .isFalse fun heq => h (congrArg entries heq)

/-- No entries. -/
def empty : Dict α β := ⟨[], .nil⟩

/-! ### Reading and writing -/

/-- The value at a key, in a list of entries. -/
def getEntry (a : α) : List (α × β) → Option β
  | [] => none
  | (k, b) :: es => if k = a then some b else getEntry a es

/-- A list of entries with `b` at the key `a`: at its place, or at the end. -/
def setEntry (a : α) (b : β) : List (α × β) → List (α × β)
  | [] => [(a, b)]
  | (k, c) :: es => if k = a then (a, b) :: es else (k, c) :: setEntry a b es

/-- A list of entries without the key `a`. -/
def eraseEntry (a : α) : List (α × β) → List (α × β)
  | [] => []
  | (k, c) :: es => if k = a then es else (k, c) :: eraseEntry a es

/-- Setting an entry adds its key. -/
theorem mem_keys_setEntry {a k : α} {b : β} (es : List (α × β)) :
    k ∈ (setEntry a b es).map Prod.fst ↔ k = a ∨ k ∈ es.map Prod.fst := by
  induction es with
  | nil => simp [setEntry]
  | cons e es ih =>
    by_cases hk : e.1 = a
    · simp [setEntry, hk]
    · simp only [setEntry, if_neg hk, List.map_cons, List.mem_cons, ih]
      tauto

/-- The keys after a value is set: the same ones, or one more at the end. -/
theorem keys_setEntry {a : α} {b : β} (es : List (α × β)) :
    (setEntry a b es).map Prod.fst =
      if a ∈ es.map Prod.fst then es.map Prod.fst else es.map Prod.fst ++ [a] := by
  induction es with
  | nil => rfl
  | cons e es ih =>
    by_cases hk : e.1 = a
    · simp [setEntry, hk]
    · simp only [setEntry, if_neg hk, List.map_cons, ih, List.mem_cons, Ne.symm hk, false_or]
      split <;> rfl

theorem nodup_setEntry {a : α} {b : β} (es : List (α × β)) (h : (es.map Prod.fst).Nodup) :
    ((setEntry a b es).map Prod.fst).Nodup := by
  induction es with
  | nil => simp [setEntry]
  | cons e es ih =>
    obtain ⟨he, hes⟩ := List.nodup_cons.mp h
    by_cases hk : e.1 = a
    · simpa [setEntry, hk] using h
    · rw [setEntry, if_neg hk, List.map_cons, List.nodup_cons]
      refine ⟨fun hmem => ?_, ih hes⟩
      exact ((mem_keys_setEntry es).mp hmem).elim hk he

/-- Erasing an entry takes elements out. -/
theorem eraseEntry_sublist (a : α) (es : List (α × β)) : (eraseEntry a es).Sublist es := by
  induction es with
  | nil => exact .slnil
  | cons e es ih =>
    rw [eraseEntry]
    split
    · exact List.sublist_cons_self e es
    · exact ih.cons_cons e

/-- The value at the key `a`. -/
def get? (d : Dict α β) (a : α) : Option β := getEntry a d.entries

/-- Write `b` at the key `a`. -/
def set (d : Dict α β) (a : α) (b : β) : Dict α β :=
  ⟨setEntry a b d.entries, nodup_setEntry d.entries d.nodup⟩

/-- Remove the key `a`. -/
def erase (d : Dict α β) (a : α) : Dict α β :=
  ⟨eraseEntry a d.entries, ((eraseEntry_sublist a d.entries).map Prod.fst).nodup d.nodup⟩

/-- The first entry with a property. -/
def find? (d : Dict α β) (p : α → β → Bool) : Option (α × β) := d.entries.find? fun e => p e.1 e.2

/-- The number of entries. -/
def size (d : Dict α β) : Nat := d.entries.length

theorem getEntry_eq_none {a : α} (es : List (α × β)) :
    getEntry a es = none ↔ a ∉ es.map Prod.fst := by
  induction es with
  | nil => simp [getEntry]
  | cons e es ih =>
    by_cases hk : e.1 = a
    · simp [getEntry, hk]
    · simp only [getEntry, if_neg hk, ih, List.map_cons, List.mem_cons, Ne.symm hk, false_or]

/-- The entry that was set, and the others. -/
theorem getEntry_setEntry (a k : α) (b : β) (es : List (α × β)) :
    getEntry k (setEntry a b es) = if k = a then some b else getEntry k es := by
  induction es with
  | nil =>
    by_cases hk : k = a
    · simp [setEntry, getEntry, hk]
    · simp [setEntry, getEntry, hk, Ne.symm hk]
  | cons e es ih =>
    obtain ⟨j, c⟩ := e
    by_cases hj : j = a
    · subst hj
      by_cases hk : k = j
      · simp [setEntry, getEntry, hk]
      · simp [setEntry, getEntry, hk, Ne.symm hk]
    · rw [setEntry, if_neg hj, getEntry, getEntry, ih]
      by_cases hk : k = a
      · subst hk
        simp [hj]
      · simp [hk]

/-- The entry that was erased, and the others. -/
theorem getEntry_eraseEntry (a k : α) (es : List (α × β)) (h : (es.map Prod.fst).Nodup) :
    getEntry k (eraseEntry a es) = if k = a then none else getEntry k es := by
  induction es with
  | nil => simp [eraseEntry, getEntry]
  | cons e es ih =>
    obtain ⟨j, c⟩ := e
    obtain ⟨he, hes⟩ := List.nodup_cons.mp h
    by_cases hj : j = a
    · subst hj
      rw [eraseEntry, if_pos rfl, getEntry]
      by_cases hk : k = j
      · rw [if_pos hk, hk]
        exact (getEntry_eq_none es).mpr he
      · rw [if_neg hk, if_neg (Ne.symm hk)]
    · rw [eraseEntry, if_neg hj, getEntry, getEntry, ih hes]
      by_cases hk : k = a
      · subst hk
        simp [hj]
      · simp [hk]

/-- What is found is there. -/
theorem mem_of_getEntry {a : α} {b : β} {es : List (α × β)} (h : getEntry a es = some b) :
    (a, b) ∈ es := by
  induction es with
  | nil => exact absurd h (by simp [getEntry])
  | cons e es ih =>
    obtain ⟨j, c⟩ := e
    rw [getEntry] at h
    split at h
    · rename_i hj
      obtain rfl := Option.some.inj h
      simp [hj]
    · exact List.mem_cons_of_mem _ (ih h)

/-- What is there is found, when the keys are distinct. -/
theorem getEntry_of_mem {a : α} {b : β} {es : List (α × β)} (hnodup : (es.map Prod.fst).Nodup)
    (h : (a, b) ∈ es) : getEntry a es = some b := by
  induction es with
  | nil => simp at h
  | cons e es ih =>
    obtain ⟨he, hes⟩ := List.nodup_cons.mp hnodup
    rcases List.mem_cons.mp h with rfl | h
    · simp [getEntry]
    · have hne : e.1 ≠ a := fun heq => he (heq ▸ List.mem_map_of_mem (f := Prod.fst) h)
      rw [getEntry, if_neg hne, ih hes h]

@[simp] theorem get?_empty (a : α) : (empty : Dict α β).get? a = none := rfl

theorem get?_set (d : Dict α β) (a k : α) (b : β) :
    (d.set a b).get? k = if k = a then some b else d.get? k :=
  getEntry_setEntry a k b d.entries

@[simp] theorem get?_set_self (d : Dict α β) (a : α) (b : β) : (d.set a b).get? a = some b := by
  rw [get?_set, if_pos rfl]

theorem get?_set_of_ne (d : Dict α β) {a k : α} (b : β) (h : k ≠ a) :
    (d.set a b).get? k = d.get? k := by
  rw [get?_set, if_neg h]

/-- An entry after a write is the one that was written, or was there before. -/
theorem get?_set_cases {d : Dict α β} {a k : α} {b x : β} (h : (d.set a b).get? k = some x) :
    k = a ∧ x = b ∨ k ≠ a ∧ d.get? k = some x := by
  rw [get?_set] at h
  split at h
  · rename_i hk
    exact .inl ⟨hk, (Option.some.inj h).symm⟩
  · rename_i hk
    exact .inr ⟨hk, h⟩

theorem get?_erase (d : Dict α β) (a k : α) :
    (d.erase a).get? k = if k = a then none else d.get? k :=
  getEntry_eraseEntry a k d.entries d.nodup

/-- Setting an entry to what it is changes nothing. -/
theorem setEntry_same {a : α} {b : β} {es : List (α × β)} (h : getEntry a es = some b) :
    setEntry a b es = es := by
  induction es with
  | nil => exact absurd h (by simp [getEntry])
  | cons e es ih =>
    obtain ⟨j, c⟩ := e
    rw [getEntry] at h
    split at h
    · rename_i hj
      rw [setEntry, if_pos hj, hj, Option.some.inj h]
    · rename_i hj
      rw [setEntry, if_neg hj, ih h]

/-- Writing what is there changes nothing. -/
theorem set_same {d : Dict α β} {a : α} {b : β} (h : d.get? a = some b) : d.set a b = d := by
  obtain ⟨es, hnodup⟩ := d
  simp only [set, setEntry_same h]

/-- The last value that was set stays. -/
theorem setEntry_setEntry (a : α) (b c : β) (es : List (α × β)) :
    setEntry a c (setEntry a b es) = setEntry a c es := by
  induction es with
  | nil => simp [setEntry]
  | cons e es ih =>
    obtain ⟨j, x⟩ := e
    by_cases hj : j = a
    · simp [setEntry, hj]
    · simp only [setEntry, if_neg hj, ih]

/-- The last value written is the one that stays. -/
@[simp] theorem set_set (d : Dict α β) (a : α) (b c : β) : (d.set a b).set a c = d.set a c := by
  obtain ⟨es, hnodup⟩ := d
  simp only [set, setEntry_setEntry]

theorem eraseEntry_none {a : α} {es : List (α × β)} (h : getEntry a es = none) :
    eraseEntry a es = es := by
  induction es with
  | nil => rfl
  | cons e es ih =>
    obtain ⟨j, c⟩ := e
    rw [getEntry] at h
    split at h
    · exact absurd h (by simp)
    · rename_i hj
      rw [eraseEntry, if_neg hj, ih h]

/-- Removing what is not there changes nothing. -/
theorem erase_none {d : Dict α β} {a : α} (h : d.get? a = none) : d.erase a = d := by
  obtain ⟨es, hnodup⟩ := d
  simp only [erase, eraseEntry_none h]

/-- An entry after a removal is another one that was there before. -/
theorem get?_erase_some {d : Dict α β} {a k : α} {x : β} (h : (d.erase a).get? k = some x) :
    k ≠ a ∧ d.get? k = some x := by
  rw [get?_erase] at h
  split at h
  · exact absurd h (by simp)
  · rename_i hk
    exact ⟨hk, h⟩

/-- The entries are what is read. -/
theorem mem_entries_iff {d : Dict α β} {a : α} {b : β} :
    (a, b) ∈ d.entries ↔ d.get? a = some b :=
  ⟨getEntry_of_mem d.nodup, mem_of_getEntry⟩

/-- A search finds an entry of the dictionary. -/
theorem find?_some {d : Dict α β} {p : α → β → Bool} {e : α × β} (h : d.find? p = some e) :
    d.get? e.1 = some e.2 ∧ p e.1 e.2 = true := by
  obtain ⟨a, b⟩ := e
  have hp := List.find?_some (p := fun e : α × β => p e.1 e.2) h
  exact ⟨mem_entries_iff.mp (List.mem_of_find?_eq_some h), hp⟩

/-- A search that finds nothing. -/
theorem find?_none {d : Dict α β} {p : α → β → Bool} (h : d.find? p = none) {a : α} {b : β}
    (hab : d.get? a = some b) : p a b = false := by
  have hnone := List.find?_eq_none.mp h (a, b) (mem_entries_iff.mpr hab)
  simpa using hnone

/-! ### Sums -/

section Sums

variable {M : Type} [AddCommMonoid M]

/-- The sum of `f` over the entries. -/
def sum (f : α → β → M) (d : Dict α β) : M := (d.entries.map fun e => f e.1 e.2).sum

/-- What the key `a` contributes to such a sum. -/
def part (f : α → β → M) (d : Dict α β) (a : α) : M := (d.get? a).elim 0 (f a)

omit [DecidableEq α] in
/-- The sum over no entries. -/
@[simp] theorem sum_empty (f : α → β → M) : sum f (empty : Dict α β) = 0 := rfl

/-- **Writing one entry** changes a sum by what the key contributes. -/
theorem sum_set (f : α → β → M) (d : Dict α β) (a : α) (b : β) :
    sum f (d.set a b) + part f d a = sum f d + f a b := by
  obtain ⟨es, hnodup⟩ := d
  simp only [sum, part, set, get?]
  clear hnodup
  induction es with
  | nil => simp [setEntry, getEntry]
  | cons e es ih =>
    obtain ⟨j, c⟩ := e
    by_cases hj : j = a
    · subst hj
      simp only [setEntry, getEntry, if_true, List.map_cons, List.sum_cons, Option.elim_some]
      rw [add_comm (f j b), add_assoc, add_comm (f j b), ← add_assoc, add_comm (f j c)]
    · simp only [setEntry, getEntry, if_neg hj, List.map_cons, List.sum_cons]
      rw [add_assoc, ih, add_assoc]

/-- **Removing one entry** takes off what the key contributes. -/
theorem sum_erase (f : α → β → M) (d : Dict α β) (a : α) :
    sum f (d.erase a) + part f d a = sum f d := by
  obtain ⟨es, hnodup⟩ := d
  simp only [sum, part, erase, get?]
  clear hnodup
  induction es with
  | nil => simp [eraseEntry, getEntry]
  | cons e es ih =>
    obtain ⟨j, c⟩ := e
    by_cases hj : j = a
    · subst hj
      simp only [eraseEntry, getEntry, if_true, List.map_cons, List.sum_cons, Option.elim_some]
      rw [add_comm]
    · simp only [eraseEntry, getEntry, if_neg hj, List.map_cons, List.sum_cons]
      rw [add_assoc, ih]

/-- A key that is new adds its part. -/
theorem sum_set_new (f : α → β → M) {d : Dict α β} {a : α} (h : d.get? a = none) (b : β) :
    sum f (d.set a b) = sum f d + f a b := by
  rw [← sum_set, part, h, Option.elim_none, add_zero]

end Sums

omit [DecidableEq α] in
/-- A sum of numbers that are not negative is not negative. -/
theorem sum_nonneg {f : α → β → Int} (h : ∀ a b, 0 ≤ f a b) (d : Dict α β) : 0 ≤ sum f d := by
  rw [sum]
  refine List.sum_nonneg fun x hx => ?_
  obtain ⟨e, -, rfl⟩ := List.mem_map.mp hx
  exact h e.1 e.2

/-- Such a sum is zero if and only if all its parts are. -/
theorem sum_eq_zero_iff {f : α → β → Int} (h : ∀ a b, 0 ≤ f a b) {d : Dict α β} :
    sum f d = 0 ↔ ∀ a b, d.get? a = some b → f a b = 0 := by
  constructor
  · intro hsum a b hab
    have herase := sum_erase f d a
    have hrest := sum_nonneg h (d.erase a)
    have hpart := h a b
    rw [part, hab, Option.elim_some] at herase
    omega
  · intro hzero
    rw [sum]
    refine List.sum_eq_zero fun x hx => ?_
    obtain ⟨e, he, rfl⟩ := List.mem_map.mp hx
    exact hzero e.1 e.2 (mem_entries_iff.mp he)

omit [DecidableEq α] in
/-- The size is the sum of one for each entry. -/
theorem size_eq_sum (d : Dict α β) : (d.size : Int) = sum (fun _ _ => (1 : Int)) d := by
  rw [size, sum]
  induction d.entries with
  | nil => rfl
  | cons e es ih =>
    rw [List.map_cons, List.sum_cons, ← ih, List.length_cons]
    omega

end Dict
