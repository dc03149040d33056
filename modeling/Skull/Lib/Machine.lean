import Mathlib.Algebra.GroupWithZero.Nat
import Mathlib.Data.List.Basic

namespace Machines

/-!
# Guarded machines that may abort

A `Machine` is a program seen from its event loop: a set of actions, a guard that says
which of them may happen in a state, and the code that runs on an action.  The code may
abort (a failed assertion, a use of freed memory): it then returns `Except.error` and the
run is over.

* `Ensures` — what holds of the result of a computation that may abort, with its sequence rule;
* `Machine.Reach M C` — the states reached by runs whose steps all satisfy the extra
  condition `C` (take `C := M.anyStep` for all runs);
* `Machine.Reach.invariant` — the induction rule: an initial property that every permitted
  step preserves holds in every reached state;
* `Machine.Path` and `Machine.StepsMeet` — explicit runs, with `path_iff`: where a step
  keeps the property exactly when it meets the condition, a run keeps it in all its states
  exactly when all its steps meet the condition; `Path.stepsMeet_iff` compares two conditions, and
  `Path.length_le` and `Path.length_add_le` bound a run by a measure; `exists_path_last` leads one
  to its end;
* `Machine.restrict` — the runs whose steps all meet a condition;
* `Machine.play`, `Machine.trace`, `Machine.final` — the runs as programs, to evaluate a concrete
  list of actions.
-/

/-- A mapped computation succeeds when the computation does. -/
theorem except_map_ok {ε α β : Type} {x : Except ε α} {f : α → β} {b : β} :
    x.map f = .ok b ↔ ∃ a, x = .ok a ∧ f a = b := by
  cases x <;> simp [Except.map]

/-- A sequence of computations succeeds when both do. -/
theorem except_bind_ok {ε α β : Type} {x : Except ε α} {f : α → Except ε β} {b : β} :
    x >>= f = .ok b ↔ ∃ a, x = .ok a ∧ f a = .ok b := by
  cases x <;> simp [bind, Except.bind]

/-- A mapped computation aborts when the computation does. -/
theorem except_map_error {ε α β : Type} {x : Except ε α} {f : α → β} {fault : ε} :
    x.map f = .error fault ↔ x = .error fault := by
  cases x <;> simp [Except.map]

/-- A sequence of computations aborts when one of them does. -/
theorem except_bind_error {ε α β : Type} {x : Except ε α} {f : α → Except ε β} {fault : ε} :
    x >>= f = .error fault ↔ x = .error fault ∨ ∃ a, x = .ok a ∧ f a = .error fault := by
  cases x <;> simp [bind, Except.bind]

/-- A computation succeeds when it has a result. -/
theorem except_isOk {ε α : Type} {x : Except ε α} : x.isOk ↔ ∃ a, x = .ok a := by
  cases x <;> simp [Except.isOk, Except.toBool]

/-- Every result of a computation that succeeds has the property. -/
def Ensures {ε α : Type} (x : Except ε α) (P : α → Prop) : Prop := ∀ a, x = .ok a → P a

section Ensures

variable {ε α β : Type} {x : Except ε α} {P Q : α → Prop}

/-- What succeeds with the property has it. -/
theorem ensures_ok {a : α} (h : P a) : Ensures (.ok a : Except ε α) P := by
  intro b hb
  rwa [← Except.ok.inj hb]

/-- What fails promises nothing. -/
theorem ensures_error {fault : ε} : Ensures (.error fault : Except ε α) P := by
  intro a ha
  exact absurd ha (by simp)

/-- A weaker property is ensured too. -/
theorem Ensures.mono (h : Ensures x P) (hPQ : ∀ a, P a → Q a) : Ensures x Q :=
  fun a ha => hPQ a (h a ha)

/-- **Sequence rule.** -/
theorem Ensures.bind {f : α → Except ε β} {R : β → Prop} (h : Ensures x P)
    (hf : ∀ a, P a → Ensures (f a) R) : Ensures (x >>= f) R := by
  intro b hb
  obtain ⟨a, ha, hfa⟩ := except_bind_ok.mp hb
  exact hf a (h a ha) b hfa

/-- A mapped computation ensures what the map makes of the property. -/
theorem Ensures.map {f : α → β} {R : β → Prop} (h : Ensures x P) (hf : ∀ a, P a → R (f a)) :
    Ensures (x.map f) R := by
  intro b hb
  obtain ⟨a, ha, rfl⟩ := except_map_ok.mp hb
  exact hf a (h a ha)

end Ensures

/-- **Invariant rule** for a loop over a list; the invariant may name the elements before. -/
theorem foldlM_ok {ε σ α : Type} {f : σ → α → Except ε σ} {I : List α → σ → Prop}
    (hstep : ∀ pre x s t, I pre s → f s x = .ok t → I (pre ++ [x]) t) {pre xs : List α} {s t : σ}
    (h : I pre s) (hok : xs.foldlM f s = .ok t) : I (pre ++ xs) t := by
  induction xs generalizing pre s with
  | nil =>
    obtain rfl := Except.ok.inj hok
    rwa [List.append_nil]
  | cons x xs ih =>
    obtain ⟨u, hu, hrest⟩ := except_bind_ok.mp hok
    have hxs := ih (hstep pre x s u h hu) hrest
    rwa [List.append_assoc] at hxs

/-- A loop whose turns all succeed succeeds. -/
theorem foldlM_total {ε σ α : Type} {f : σ → α → Except ε σ} {xs : List α}
    (h : ∀ s, ∀ x ∈ xs, ∃ t, f s x = .ok t) (s : σ) : ∃ t, xs.foldlM f s = .ok t := by
  induction xs generalizing s with
  | nil => exact ⟨s, rfl⟩
  | cons x xs ih =>
    obtain ⟨u, hu⟩ := h s x (.head _)
    obtain ⟨t, ht⟩ := ih (fun s y hy => h s y (.tail _ hy)) u
    exact ⟨t, except_bind_ok.mpr ⟨u, hu, ht⟩⟩

/-- A loop whose turns succeed or fail whatever the state is does so, too. -/
theorem foldlM_transfer {ε σ α : Type} {f : σ → α → Except ε σ}
    (hturn : ∀ x s t s', f s x = .ok t → ∃ t', f s' x = .ok t') {xs : List α} {s t : σ}
    (h : xs.foldlM f s = .ok t) (s' : σ) : ∃ t', xs.foldlM f s' = .ok t' := by
  induction xs generalizing s s' with
  | nil => exact ⟨s', rfl⟩
  | cons x xs ih =>
    obtain ⟨u, hu, hrest⟩ := except_bind_ok.mp h
    obtain ⟨u', hu'⟩ := hturn x s u s' hu
    obtain ⟨t', ht'⟩ := ih hrest u'
    exact ⟨t', except_bind_ok.mpr ⟨u', hu', ht'⟩⟩

/-- **Invariant rule** for a loop that counts up to `n`. -/
theorem foldlM_range_ok {ε σ : Type} {f : σ → Nat → Except ε σ} {I : Nat → σ → Prop}
    (hstep : ∀ i s t, I i s → f s i = .ok t → I (i + 1) t) {n : Nat} {s t : σ} (h : I 0 s)
    (hok : (List.range n).foldlM f s = .ok t) : I n t := by
  induction n generalizing t with
  | zero =>
    obtain rfl := Except.ok.inj hok
    exact h
  | succ n ih =>
    rw [List.range_succ, List.foldlM_append] at hok
    obtain ⟨u, hu, hlast⟩ := except_bind_ok.mp hok
    obtain ⟨v, hv, hend⟩ := except_bind_ok.mp hlast
    obtain rfl := Except.ok.inj hend
    exact hstep n u _ (ih hu) hv

/-- A guarded machine over states `σ`, actions `α` and aborts `ε`. -/
structure Machine (σ α ε : Type) where
  /-- The states a run may start in. -/
  init : σ → Prop
  /-- The actions that may happen in a state. -/
  enabled : σ → α → Prop
  /-- What the code does on an action. -/
  exec : σ → α → Except ε σ

namespace Machine

variable {σ α ε : Type} (M : Machine σ α ε)

/-- The condition every step meets. -/
def anyStep (_ : σ) (_ : α) : Prop := True

/-- The states reached by runs whose steps all meet `C`. -/
inductive Reach (C : σ → α → Prop) : σ → Prop
  | init {s : σ} (h : M.init s) : Reach C s
  | step {s t : σ} {a : α} (hs : Reach C s) (he : M.enabled s a) (hc : C s a)
      (hx : M.exec s a = .ok t) : Reach C t

variable {M}

/-- **Invariant rule.** A property of the initial states that every permitted step from a
    state with the property preserves holds in every reached state. -/
theorem Reach.invariant {C : σ → α → Prop} {I : σ → Prop}
    (hinit : ∀ s, M.init s → I s)
    (hstep : ∀ s a t, I s → M.enabled s a → C s a → M.exec s a = .ok t → I t)
    {s : σ} (h : M.Reach C s) : I s := by
  induction h with
  | init h => exact hinit _ h
  | step _ he hc hx ih => exact hstep _ _ _ ih he hc hx

variable (M)

/-! ### Explicit runs -/

/-- `M.Path s p`: from `s` the actions of `p` happen in order, each leading to the state
    beside it. -/
def Path (s : σ) : List (α × σ) → Prop
  | [] => True
  | (a, t) :: p => M.enabled s a ∧ M.exec s a = .ok t ∧ Path t p

/-- Every step of the run `p` from `s` meets `C`. -/
def StepsMeet (C : σ → α → Prop) (s : σ) : List (α × σ) → Prop
  | [] => True
  | (a, t) :: p => C s a ∧ StepsMeet C t p

instance (C : σ → α → Prop) [∀ s a, Decidable (C s a)] :
    ∀ (s : σ) (p : List (α × σ)), Decidable (StepsMeet C s p)
  | _, [] => .isTrue trivial
  | s, (a, t) :: p =>
    have := instDecidableStepsMeet C t p
    inferInstanceAs (Decidable (C s a ∧ StepsMeet C t p))

/-- Every run meets the condition of all steps. -/
theorem stepsMeet_any (p : List (α × σ)) (s : σ) : StepsMeet anyStep s p := by
  induction p generalizing s with
  | nil => trivial
  | cons b p ih => exact ⟨trivial, ih b.2⟩

variable {M}

/-- The states along a run whose steps meet `C`, from a state reached so, are reached so. -/
theorem Path.reach {C : σ → α → Prop} {p : List (α × σ)} {s : σ} (hs : M.Reach C s)
    (hp : M.Path s p) (hc : StepsMeet C s p) : ∀ q ∈ p, M.Reach C q.2 := by
  induction p generalizing s with
  | nil => intro q hq; simp at hq
  | cons b p ih =>
    obtain ⟨a, t⟩ := b
    obtain ⟨he, hx, hp⟩ := hp
    have ht : M.Reach C t := .step hs he hc.1 hx
    intro q hq
    rcases List.mem_cons.mp hq with rfl | hq
    · exact ht
    · exact ih ht hp hc.2 q hq

/-- The last state of a run. -/
def last (s : σ) (p : List (α × σ)) : σ := p.getLast?.elim s Prod.snd

theorem Path.last_reach {C : σ → α → Prop} {p : List (α × σ)} {s : σ} (hs : M.Reach C s)
    (hp : M.Path s p) (hc : StepsMeet C s p) : M.Reach C (last s p) := by
  cases hlast : p.getLast? with
  | none =>
    rw [last, hlast]
    exact hs
  | some q =>
    rw [last, hlast]
    exact hp.reach hs hc q (List.mem_of_getLast? hlast)

/-- A property that every step keeps holds along a run. -/
theorem Path.invariant {I : σ → Prop}
    (hkeep : ∀ s a t, I s → M.enabled s a → M.exec s a = .ok t → I t) {p : List (α × σ)} {s : σ}
    (hs : I s) (hp : M.Path s p) : ∀ q ∈ p, I q.2 := by
  induction p generalizing s with
  | nil => intro q hq; simp at hq
  | cons b p ih =>
    obtain ⟨a, t⟩ := b
    obtain ⟨he, hx, hp⟩ := hp
    have ht : I t := hkeep s a t hs he hx
    intro q hq
    rcases List.mem_cons.mp hq with rfl | hq
    · exact ht
    · exact ih ht hp q hq

/-- So it does at the end of the run. -/
theorem Path.last_invariant {I : σ → Prop}
    (hkeep : ∀ s a t, I s → M.enabled s a → M.exec s a = .ok t → I t) {p : List (α × σ)} {s : σ}
    (hs : I s) (hp : M.Path s p) : I (last s p) := by
  cases hlast : p.getLast? with
  | none =>
    rw [last, hlast]
    exact hs
  | some q =>
    rw [last, hlast]
    exact hp.invariant hkeep hs q (List.mem_of_getLast? hlast)

/-- **Exact condition for a run.** Let `I` be kept by the steps that meet `C`, let `I` imply
    `P`, and let every step that does not meet `C` end in a state without `P`.  Then a run
    has `P` in all the states it reaches if and only if all its steps meet `C`. -/
theorem path_iff {C : σ → α → Prop} {I P : σ → Prop} (hIP : ∀ s, I s → P s)
    (hkeep : ∀ s a t, I s → M.enabled s a → C s a → M.exec s a = .ok t → I t)
    (hbreak : ∀ s a t, I s → M.enabled s a → ¬ C s a → M.exec s a = .ok t → ¬ P t)
    {p : List (α × σ)} {s : σ} (hs : I s) (hp : M.Path s p) :
    (∀ q ∈ p, P q.2) ↔ StepsMeet C s p := by
  induction p generalizing s with
  | nil => simp [StepsMeet]
  | cons b p ih =>
    obtain ⟨a, t⟩ := b
    obtain ⟨he, hx, hp⟩ := hp
    constructor
    · intro hP
      have hc : C s a := by
        by_contra hc
        exact hbreak s a t hs he hc hx (hP (a, t) (by simp))
      have ht : I t := hkeep s a t hs he hc hx
      exact ⟨hc, (ih ht hp).mp fun q hq => hP q (by simp [hq])⟩
    · rintro ⟨hc, hm⟩ q hq
      have ht : I t := hkeep s a t hs he hc hx
      rcases List.mem_cons.mp hq with rfl | hq
      · exact hIP _ ht
      · exact (ih ht hp).mpr hm q hq

/-- **Two conditions on a run.** Let `I` be kept by the steps that meet `C`, and let a step from
    a state with `I` meet `D` exactly when it meets `C`.  Then all the steps of a run meet `D`
    exactly when they all meet `C`. -/
theorem Path.stepsMeet_iff {C D : σ → α → Prop} {I : σ → Prop}
    (hkeep : ∀ s a t, I s → M.enabled s a → C s a → M.exec s a = .ok t → I t)
    (hiff : ∀ s a, I s → M.enabled s a → (D s a ↔ C s a)) {p : List (α × σ)} {s : σ}
    (hs : I s) (hp : M.Path s p) : StepsMeet D s p ↔ StepsMeet C s p := by
  induction p generalizing s with
  | nil => exact Iff.rfl
  | cons b p ih =>
    obtain ⟨a, t⟩ := b
    obtain ⟨he, hx, hp⟩ := hp
    show D s a ∧ StepsMeet D t p ↔ C s a ∧ StepsMeet C t p
    rw [hiff s a hs he]
    apply and_congr_right
    intro hc
    exact ih (hkeep s a t hs he hc hx) hp

/-- **Bounded runs.** Where every step that meets `C` makes a measure smaller, a run of such steps
    is no longer than the measure. -/
theorem Path.length_le {C : σ → α → Prop} {I : σ → Prop} {f : σ → Nat}
    (hkeep : ∀ s a t, I s → M.enabled s a → M.exec s a = .ok t → I t)
    (hless : ∀ s a t, I s → M.enabled s a → C s a → M.exec s a = .ok t → f t < f s)
    {p : List (α × σ)} {s : σ} (hs : I s) (hp : M.Path s p) (hc : StepsMeet C s p) :
    p.length ≤ f s := by
  induction p generalizing s with
  | nil => exact Nat.zero_le _
  | cons b p ih =>
    obtain ⟨a, t⟩ := b
    obtain ⟨he, hx, hp⟩ := hp
    have hrest := ih (hkeep s a t hs he hx) hp hc.2
    have hfirst := hless s a t hs he hc.1 hx
    rw [List.length_cons]
    omega

theorem last_cons (s : σ) (b : α × σ) (p : List (α × σ)) : last s (b :: p) = last b.2 p := by
  rw [last, last, List.getLast?_cons, Option.elim_some]
  cases p.getLast? <;> rfl

/-- **Amortised runs.** Where every step makes a measure smaller but for what its action adds, the
    steps of a run and the measure at its end are no more than the measure at its start and what was
    added. -/
theorem Path.length_add_le {I : σ → Prop} {f : σ → Nat} {g : α → Nat}
    (hkeep : ∀ s a t, I s → M.enabled s a → M.exec s a = .ok t → I t)
    (hless : ∀ s a t, I s → M.enabled s a → M.exec s a = .ok t → f t + 1 ≤ f s + g a)
    {p : List (α × σ)} {s : σ} (hs : I s) (hp : M.Path s p) :
    p.length + f (last s p) ≤ f s + (p.map fun b => g b.1).sum := by
  induction p generalizing s with
  | nil => exact Nat.le_of_eq (Nat.zero_add _)
  | cons b p ih =>
    obtain ⟨a, t⟩ := b
    obtain ⟨he, hx, hp⟩ := hp
    have hrest := ih (hkeep s a t hs he hx) hp
    have hfirst := hless s a t hs he hx
    rw [last_cons, List.length_cons, List.map_cons, List.sum_cons]
    show p.length + 1 + f (last t p) ≤ f s + (g a + (p.map fun b => g b.1).sum)
    omega

/-- **Runs to an end.** Where every step that meets `C` makes a measure smaller, and such a step is
    possible in every state without `R`, a run of such steps leads to a state with `R`. -/
theorem exists_path_last {C : σ → α → Prop} {I R : σ → Prop} {f : σ → Nat}
    (hkeep : ∀ s a t, I s → M.enabled s a → M.exec s a = .ok t → I t)
    (hless : ∀ s a t, I s → M.enabled s a → C s a → M.exec s a = .ok t → f t < f s)
    (hstep : ∀ s, I s → ¬ R s → ∃ a t, M.enabled s a ∧ C s a ∧ M.exec s a = .ok t) {s : σ}
    (hs : I s) : ∃ p, M.Path s p ∧ StepsMeet C s p ∧ R (last s p) := by
  induction hn : f s using Nat.strongRecOn generalizing s with
  | ind n ih =>
    by_cases hr : R s
    · exact ⟨[], trivial, trivial, hr⟩
    · obtain ⟨a, t, he, hc, hx⟩ := hstep s hs hr
      have hlt : f t < n := hn ▸ hless s a t hs he hc hx
      obtain ⟨p, hp, hmeet, hlast⟩ := ih (f t) hlt (hkeep s a t hs he hx) rfl
      exact ⟨(a, t) :: p, ⟨he, hx, hp⟩, ⟨hc, hmeet⟩, by rwa [last_cons]⟩

/-! ### Restricted runs -/

variable (M) in
/-- The machine with the steps that meet `D` only. -/
def restrict (D : σ → α → Prop) : Machine σ α ε :=
  { M with enabled := fun s a => M.enabled s a ∧ D s a }

/-- A run whose steps all meet `D`. -/
theorem Path.restrict {D : σ → α → Prop} {p : List (α × σ)} {s : σ} (hp : M.Path s p)
    (hD : StepsMeet D s p) : (M.restrict D).Path s p := by
  induction p generalizing s with
  | nil => trivial
  | cons b p ih =>
    obtain ⟨a, t⟩ := b
    obtain ⟨he, hx, hp⟩ := hp
    exact ⟨⟨he, hD.1⟩, hx, ih hp hD.2⟩

/-! ### Running a list of actions -/

variable (M) [∀ s a, Decidable (M.enabled s a)]

/-- Run a list of actions; `none` when one of them is not enabled or aborts. -/
def play (s : σ) : List α → Option σ
  | [] => some s
  | a :: as =>
    if M.enabled s a then
      match M.exec s a with
      | .ok t => play t as
      | .error _ => none
    else none

variable {M}

/-- A list of actions that plays to the end reaches its last state. -/
theorem play_reach {as : List α} {s t : σ} (hs : M.Reach anyStep s) (h : M.play s as = some t) :
    M.Reach anyStep t := by
  induction as generalizing s with
  | nil => simp only [play, Option.some.injEq] at h; exact h ▸ hs
  | cons a as ih =>
    simp only [play] at h
    split at h
    · rename_i he
      split at h
      · rename_i u hu
        exact ih (.step hs he trivial hu) h
      · exact absurd h (by simp)
    · exact absurd h (by simp)

variable (M) in
/-- The run of a list of actions, up to the first one that is not enabled or aborts. -/
def trace (s : σ) : List α → List (α × σ)
  | [] => []
  | a :: as =>
    if M.enabled s a then
      match M.exec s a with
      | .ok t => (a, t) :: trace t as
      | .error _ => []
    else []

/-- The run of a list of actions is a run. -/
theorem trace_path (as : List α) (s : σ) : M.Path s (M.trace s as) := by
  induction as generalizing s with
  | nil => trivial
  | cons a as ih =>
    simp only [trace]
    split
    · rename_i he
      split
      · rename_i t ht
        exact ⟨he, ht, ih t⟩
      · trivial
    · trivial

/-- Its steps meet a condition that its actions meet in every state. -/
theorem trace_meets {C : σ → α → Prop} {as : List α} (h : ∀ a ∈ as, ∀ s, C s a) (s : σ) :
    StepsMeet C s (M.trace s as) := by
  induction as generalizing s with
  | nil => trivial
  | cons a as ih =>
    simp only [trace]
    split
    · split
      · exact ⟨h a List.mem_cons_self s, ih (fun b hb => h b (List.mem_cons_of_mem a hb)) _⟩
      · trivial
    · trivial

variable (M) in
/-- The state after a list of actions, up to the first one that is not enabled or aborts. -/
def final (s : σ) (as : List α) : σ := (M.trace s as).getLast?.elim s Prod.snd

/-- It is reached when the steps meet the condition. -/
theorem final_reach {C : σ → α → Prop} {s : σ} (hs : M.Reach C s) (as : List α)
    (hc : StepsMeet C s (M.trace s as)) : M.Reach C (M.final s as) :=
  (trace_path as s).last_reach hs hc

end Machine

end Machines
