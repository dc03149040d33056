import Mathlib.Algebra.BigOperators.Group.List.Basic
import Mathlib.Algebra.Group.Pi.Basic
import Mathlib.Data.Multiset.OrderedMonoid
import Mathlib.Tactic.Common

namespace Machines

/-!
# Tokens

A job of a system is at one place at a time: an entry of a table, a message, an element of a queue.
Each place has a token, which says what job it is and in which phase; the tokens of a system are
the sum over its places:

* `token` — the token of a job in a phase; the tokens of a system are, for each job, a multiset of
  phases;
* `Tracked` — a job that lives has one token, and what its phase says of it holds; other jobs have
  none;
* `Tracked.found` — a token that is there is the only one of its job;
* `Tracked.enter`, `Tracked.move`, `Tracked.keep` — a new token, one that changes its phase, and
  steps that do not matter to any of them.
-/

variable {ι φ α : Type} [DecidableEq ι]

/-- The token of the job `i` in phase `p`. -/
def token (i : ι) (p : φ) : ι → Multiset φ := Pi.single i {p}

@[simp] theorem token_same (i : ι) (p : φ) : token i p i = {p} := by
  rw [token, Pi.single_eq_same]

theorem token_other {i j : ι} (h : j ≠ i) (p : φ) : token i p j = 0 := by
  rw [token, Pi.single_eq_of_ne h]

omit [DecidableEq ι] in
/-- The tokens of a list of places are those of its places. -/
theorem mem_sum_places {f : α → ι → Multiset φ} {l : List α} {i : ι} {p : φ} :
    p ∈ (l.map f).sum i ↔ ∃ x ∈ l, p ∈ f x i := by
  induction l with
  | nil => simp
  | cons x l ih =>
    rw [List.map_cons, List.sum_cons, Pi.add_apply, Multiset.mem_add, ih, List.exists_mem_cons_iff]

/-- Who has which token. -/
theorem mem_token {i j : ι} {p q : φ} : q ∈ token i p j ↔ j = i ∧ q = p := by
  by_cases h : j = i
  · subst h
    rw [token_same, Multiset.mem_singleton]
    exact (and_iff_right rfl).symm
  · rw [token_other h]
    exact ⟨fun hq => absurd hq (Multiset.notMem_zero q), fun hq => absurd hq.1 h⟩

/-- The tokens of a list of jobs that are all in one phase. -/
theorem mem_sum_token {l : List ι} {i : ι} {p q : φ} :
    q ∈ (l.map (token · p)).sum i ↔ i ∈ l ∧ q = p := by
  rw [mem_sum_places]
  constructor
  · rintro ⟨j, hj, hq⟩
    obtain ⟨rfl, rfl⟩ := mem_token.mp hq
    exact ⟨hj, rfl⟩
  · rintro ⟨hi, rfl⟩
    exact ⟨i, hi, mem_token.mpr ⟨rfl, rfl⟩⟩

/-- **One token each.**  `holds i p` is what is known of the job `i` in phase `p`. -/
structure Tracked (lives : ι → Prop) (places : ι → Multiset φ) (holds : ι → φ → Prop) : Prop where
  one : ∀ i, lives i → ∃ p, places i = {p} ∧ holds i p
  none : ∀ i, ¬ lives i → places i = 0

namespace Tracked

variable {lives lives' : ι → Prop} {places places' : ι → Multiset φ}
  {holds holds' : ι → φ → Prop} {i : ι} {p q : φ}

omit [DecidableEq ι] in
/-- A token that is there is that of a job that lives. -/
theorem found (h : Tracked lives places holds) (hp : p ∈ places i) :
    lives i ∧ places i = {p} ∧ holds i p := by
  have hlives : lives i := by
    by_contra hno
    rw [h.none i hno] at hp
    exact absurd hp (Multiset.notMem_zero p)
  obtain ⟨r, hr, hholds⟩ := h.one i hlives
  rw [hr] at hp
  obtain rfl := Multiset.mem_singleton.mp hp
  exact ⟨hlives, hr, hholds⟩

omit [DecidableEq ι] in
/-- The tokens stay, and so does what is known of them. -/
theorem keep (h : Tracked lives places holds) (hplaces : places' = places)
    (hlives : ∀ j, lives' j ↔ lives j) (hholds : ∀ j r, lives j → holds j r → holds' j r) :
    Tracked lives' places' holds' := by
  subst hplaces
  refine ⟨fun j hj => ?_, fun j hj => h.none j fun hold => hj ((hlives j).mpr hold)⟩
  have hold : lives j := (hlives j).mp hj
  obtain ⟨r, hr, hr'⟩ := h.one j hold
  exact ⟨r, hr, hholds j r hold hr'⟩

/-- **A token changes its phase.** -/
theorem move (h : Tracked lives places holds) (hp : p ∈ places i)
    (hplaces : places' + token i p = places + token i q)
    (hother : ∀ j r, j ≠ i → holds j r → holds' j r) (hi : holds i p → holds' i q) :
    Tracked lives places' holds' := by
  obtain ⟨hlives, hone, hholds⟩ := h.found hp
  have hne : ∀ j, j ≠ i → places' j = places j := fun j hj => by
    have hat := congrFun hplaces j
    rwa [Pi.add_apply, Pi.add_apply, token_other hj, token_other hj, add_zero, add_zero] at hat
  have hsame : places' i = {q} := by
    have hat := congrFun hplaces i
    rw [Pi.add_apply, Pi.add_apply, token_same, token_same, hone,
      add_comm ({p} : Multiset φ) {q}] at hat
    exact add_right_cancel hat
  refine ⟨fun j hj => ?_, fun j hj => ?_⟩
  · by_cases hji : j = i
    · subst hji
      exact ⟨q, hsame, hi hholds⟩
    · obtain ⟨r, hr, hr'⟩ := h.one j hj
      exact ⟨r, (hne j hji).trans hr, hother j r hji hr'⟩
  · have hji : j ≠ i := fun heq => hj (heq ▸ hlives)
    rw [hne j hji]
    exact h.none j hj

/-- **A new token.** -/
theorem enter (h : Tracked lives places holds) (hnew : ¬ lives i)
    (hplaces : places' = token i p + places) (hlives : ∀ j, lives' j ↔ lives j ∨ j = i)
    (hother : ∀ j r, j ≠ i → holds j r → holds' j r) (hi : holds' i p) :
    Tracked lives' places' holds' := by
  have hne : ∀ j, j ≠ i → places' j = places j := fun j hj => by
    rw [hplaces, Pi.add_apply, token_other hj, zero_add]
  refine ⟨fun j hj => ?_, fun j hj => ?_⟩
  · by_cases hji : j = i
    · subst hji
      refine ⟨p, ?_, hi⟩
      rw [hplaces, Pi.add_apply, h.none j hnew, token_same, add_zero]
    · obtain ⟨r, hr, hr'⟩ := h.one j (((hlives j).mp hj).resolve_right hji)
      exact ⟨r, (hne j hji).trans hr, hother j r hji hr'⟩
  · have hji : j ≠ i := fun heq => hj ((hlives j).mpr (.inr heq))
    rw [hne j hji]
    exact h.none j fun hold => hj ((hlives j).mpr (.inl hold))

end Tracked

end Machines
