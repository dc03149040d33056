import Skull.Lib.Machine

namespace Machines

/-!
# Simulation between machines

Two machines on different levels: a concrete one, whose steps are small, and an abstract one, whose
steps are those that matter.

* `Machine.Simulation M C N D view R` — every step of `M` that meets `C` is a step of `N` that meets
  `D`, the one that `view` names, or none; `R` relates the states;
* `Machine.Simulation.path` — so is every run: the steps of the abstract run are the views of the
  concrete one;
* `Machine.Simulation.reach` — a state that `M` reaches is related to one that `N` reaches, so that
  what is known of `N` is known of `M`;
* `unread` — a list of which some elements were taken out by their numbers, to show a network as
  the queue of what is in flight.
-/

namespace Machine

variable {σ α ε τ β δ : Type}

/-- **Simulation.**  `R` relates the initial states of `M` to those of `N`; a step of `M` that
    meets `C` keeps `R`, where `N` makes the step that `view` names, which meets `D`, and none
    where it names none. -/
structure Simulation (M : Machine σ α ε) (C : σ → α → Prop) (N : Machine τ β δ)
    (D : τ → β → Prop) (view : σ → α → Option β) (R : σ → τ → Prop) : Prop where
  init : ∀ s, M.init s → ∃ t, N.init t ∧ R s t
  stutter : ∀ s a s' t, R s t → M.enabled s a → C s a → M.exec s a = .ok s' → view s a = none →
    R s' t
  step : ∀ s a s' t b, R s t → M.enabled s a → C s a → M.exec s a = .ok s' → view s a = some b →
    ∃ t', N.enabled t b ∧ D t b ∧ N.exec t b = .ok t' ∧ R s' t'

/-- The steps of the abstract run that a run from `s` is. -/
def views (view : σ → α → Option β) (s : σ) : List (α × σ) → List β
  | [] => []
  | (a, s') :: p => (view s a).toList ++ views view s' p

namespace Simulation

variable {M : Machine σ α ε} {C : σ → α → Prop} {N : Machine τ β δ} {D : τ → β → Prop}
  {view : σ → α → Option β} {R : σ → τ → Prop}

/-- **Runs are simulated.** -/
theorem path (h : Simulation M C N D view R) {p : List (α × σ)} {s : σ} {t : τ} (hR : R s t)
    (hp : M.Path s p) (hc : StepsMeet C s p) :
    ∃ q, N.Path t q ∧ StepsMeet D t q ∧ q.map Prod.fst = views view s p ∧
      R (last s p) (last t q) := by
  induction p generalizing s t with
  | nil => exact ⟨[], trivial, trivial, rfl, hR⟩
  | cons b p ih =>
    obtain ⟨a, s'⟩ := b
    obtain ⟨he, hx, hp⟩ := hp
    rw [last_cons]
    cases hview : view s a with
    | none =>
      obtain ⟨q, hq, hd, hviews, hlast⟩ := ih (h.stutter s a s' t hR he hc.1 hx hview) hp hc.2
      exact ⟨q, hq, hd, by rw [hviews, views, hview]; rfl, hlast⟩
    | some b =>
      obtain ⟨t', he', hd', hx', hR'⟩ := h.step s a s' t b hR he hc.1 hx hview
      obtain ⟨q, hq, hd, hviews, hlast⟩ := ih hR' hp hc.2
      refine ⟨(b, t') :: q, ⟨he', hx', hq⟩, ⟨hd', hd⟩, ?_, by rwa [last_cons]⟩
      rw [List.map_cons, hviews, views, hview]
      rfl

/-- **What is reached** is related to something that is reached. -/
theorem reach (h : Simulation M C N D view R) {s : σ} (hs : M.Reach C s) :
    ∃ t, N.Reach D t ∧ R s t := by
  induction hs with
  | init hs =>
    obtain ⟨t, ht, hR⟩ := h.init _ hs
    exact ⟨t, .init ht, hR⟩
  | @step s s' a _ he hc hx ih =>
    obtain ⟨t, ht, hR⟩ := ih
    cases hview : view s a with
    | none => exact ⟨t, ht, h.stutter s a s' t hR he hc hx hview⟩
    | some b =>
      obtain ⟨t', he', hd', hx', hR'⟩ := h.step s a s' t b hR he hc hx hview
      exact ⟨t', .step ht he' hd' hx', hR'⟩

end Simulation

end Machine

/-! ### What is left of a list -/

section Unread

variable {α : Type}

/-- The elements of a list whose numbers are not in `done`. -/
def unread (done : List Nat) (l : List α) : List α :=
  (l.zipIdx.filter fun q => q.2 ∉ done).map Prod.fst

/-- An element is unread when its number is. -/
theorem mem_unread {done : List Nat} {l : List α} {a : α} :
    a ∈ unread done l ↔ ∃ i, i ∉ done ∧ l[i]? = some a := by
  simp only [unread, List.mem_map, List.mem_filter, decide_eq_true_eq, Prod.exists,
    List.mem_zipIdx_iff_getElem?]
  constructor
  · rintro ⟨b, i, ⟨hb, hi⟩, rfl⟩
    exact ⟨i, hi, hb⟩
  · rintro ⟨i, hi, ha⟩
    exact ⟨a, i, ⟨ha, hi⟩, rfl⟩

/-- New elements are unread. -/
theorem unread_append {done : List Nat} {l : List α} (hdone : ∀ i ∈ done, i < l.length)
    (l' : List α) : unread done (l ++ l') = unread done l ++ l' := by
  have hnew : (l'.zipIdx l.length).filter (fun q => q.2 ∉ done) = l'.zipIdx l.length := by
    refine List.filter_eq_self.mpr fun q hq => ?_
    have hle := (List.mem_zipIdx hq).1
    exact decide_eq_true fun hin => absurd (hdone _ hin) (Nat.not_lt.mpr hle)
  rw [unread, List.zipIdx_append, List.filter_append, List.map_append, Nat.zero_add, hnew,
    List.zipIdx_map_fst]
  rfl

/-- How many elements before the number `n` are unread. -/
def unreadBefore (done : List Nat) (l : List α) (n : Nat) : Nat := (unread done (l.take n)).length

/-- **An element is read**: it is taken out from where it is, after those before it. -/
theorem unread_read {done : List Nat} {l : List α} {n : Nat} {a : α} (ha : l[n]? = some a)
    (hn : n ∉ done) : (unread done l)[unreadBefore done l n]? = some a ∧
      unread (done ++ [n]) l = (unread done l).eraseIdx (unreadBefore done l n) ∧
      ∀ b ∈ (unread done l).take (unreadBefore done l n), ∃ j, j < n ∧ j ∉ done ∧
        l[j]? = some b := by
  obtain ⟨hlt, rfl⟩ := List.getElem?_eq_some_iff.mp ha
  have hlen : (l.take n).length = n := List.length_take_of_le (Nat.le_of_lt hlt)
  have hsplit : l = l.take n ++ l[n] :: l.drop (n + 1) := by
    rw [List.getElem_cons_drop, List.take_append_drop]
  -- the numbers before `n` and after it
  have hbefore : ∀ q ∈ (l.take n).zipIdx, q.2 ≠ n := by
    intro q hq
    have := (List.mem_zipIdx hq).2.1
    omega
  have hafter : ∀ q ∈ (l.drop (n + 1)).zipIdx (n + 1), q.2 ≠ n := by
    intro q hq
    have := (List.mem_zipIdx hq).1
    omega
  have hzip : l.zipIdx = (l.take n).zipIdx ++ (l[n], n) :: (l.drop (n + 1)).zipIdx (n + 1) := by
    conv_lhs => rw [hsplit]
    rw [List.zipIdx_append, List.zipIdx_cons, Nat.zero_add, hlen]
  have hself : ∀ {m : List (α × Nat)}, (∀ q ∈ m, q.2 ≠ n) →
      m.filter (fun q => q.2 ∉ done ++ [n]) = m.filter fun q => q.2 ∉ done := by
    intro m hm
    refine List.filter_congr fun q hq => ?_
    simp [hm q hq]
  obtain ⟨rest, hold, hread⟩ : ∃ rest, unread done l = unread done (l.take n) ++ l[n] :: rest ∧
      unread (done ++ [n]) l = unread done (l.take n) ++ rest := by
    refine ⟨(((l.drop (n + 1)).zipIdx (n + 1)).filter fun q => q.2 ∉ done).map Prod.fst, ?_, ?_⟩
    · rw [unread, hzip, List.filter_append, List.filter_cons_of_pos (by simpa using hn),
        List.map_append, List.map_cons]
      rfl
    · rw [unread, hzip, List.filter_append, hself hbefore, List.filter_cons_of_neg (by simp),
        hself hafter, List.map_append]
      rfl
  refine ⟨?_, ?_, fun b hb => ?_⟩
  · rw [unreadBefore, hold, List.getElem?_append_right (Nat.le_refl _), Nat.sub_self, List.getElem?_cons_zero]
  · rw [unreadBefore, hold, hread, List.eraseIdx_append_of_length_le (Nat.le_refl _), Nat.sub_self,
      List.eraseIdx_cons_zero]
  · rw [unreadBefore, hold, List.take_left' rfl] at hb
    obtain ⟨j, hj, hb⟩ := mem_unread.mp hb
    have hjn : j < n := hlen ▸ (List.getElem?_eq_some_iff.mp hb).1
    exact ⟨j, hjn, hj, by rwa [List.getElem?_take_of_lt hjn] at hb⟩

end Unread

end Machines
