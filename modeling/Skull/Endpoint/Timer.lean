import Mathlib.Data.List.Basic

namespace Skull

/-!
# The timer service (`sk_timer_service`)

A timer has a validity bit: `sk_timer_cancel` only clears it, and a timer that went off is handled
later, when its `SK_PTO_TIMER_TRIGGERED` event is.  The handler frees the timer.

* `Timer`, `TimerSvc` — a timer with its callback `κ`, and all the timers that exist;
* `TimerSvc.create`, `TimerSvc.reset`, `TimerSvc.cancel`, `TimerSvc.trigger`,
  `TimerSvc.destroy` — the operations; those on a timer that was freed return `none`;
* `TimerSvc.Owned` — the pointers to timers and the timers agree: what a pointer points to exists,
  and a valid timer is pointed to; kept by each operation when the pointers follow it;
* `TimerSvc.Follows` — the valid timers of a later service: those of the earlier one, and new ones.
-/

/-- A timer, by its address. -/
abbrev TimerId := Nat

/-- `sk_timer_t`, with the callback and its argument. -/
structure Timer (κ : Type) where
  kind : κ
  valid : Bool
  /-- Its event is sent. -/
  triggered : Bool
  /-- When it goes off. -/
  due : Nat
  deriving DecidableEq, Repr

/-- `sk_timersvc_t`, with the clock. -/
structure TimerSvc (κ : Type) where
  timers : TimerId → Option (Timer κ)
  /-- The number of timers created. -/
  created : Nat
  /-- `timer_alive`. -/
  timerAlive : UInt32
  /-- `sk_time_ms`. -/
  now : Nat

namespace TimerSvc

variable {κ : Type} (s : TimerSvc κ)

/-- The service with `τ` at `t`. -/
def set (t : TimerId) (τ : Option (Timer κ)) : TimerSvc κ :=
  { s with timers := fun i => if i = t then τ else s.timers i }

/-- One timer is set. -/
@[simp] theorem set_timers (t : TimerId) (τ : Option (Timer κ)) (i : TimerId) :
    (s.set t τ).timers i = if i = t then τ else s.timers i := rfl

@[simp] theorem set_created (t : TimerId) (τ : Option (Timer κ)) :
    (s.set t τ).created = s.created := rfl

@[simp] theorem set_now (t : TimerId) (τ : Option (Timer κ)) : (s.set t τ).now = s.now := rfl

/-- `sk_timersvc_timer_create` for a timer that goes off once. -/
def create (kind : κ) (delay : Nat) : TimerSvc κ :=
  { s.set s.created (some { kind, valid := true, triggered := false, due := s.now + delay }) with
    created := s.created + 1
    timerAlive := s.timerAlive + 1 }

/-- `sk_timer_cancel`. -/
def cancel (t : TimerId) : Option (TimerSvc κ) :=
  (s.timers t).map fun τ => s.set t (some { τ with valid := false })

/-- `sk_timer_resetn`: whether it was still time. -/
def reset (t : TimerId) (delay : Nat) : Option (Bool × TimerSvc κ) :=
  (s.timers t).map fun τ =>
    if τ.triggered then (false, s) else (true, s.set t (some { τ with due := s.now + delay }))

/-- `_timer_triggered`. -/
def trigger (t : TimerId) : Option (TimerSvc κ) :=
  (s.timers t).map fun τ => s.set t (some { τ with triggered := true })

/-- `sk_timersvc_timer_destroy`. -/
def destroy (t : TimerId) : TimerSvc κ :=
  { s.set t none with timerAlive := s.timerAlive - 1 }

/-- Time passes. -/
def elapse (ms : Nat) : TimerSvc κ := { s with now := s.now + ms }

/-- The new timer is there. -/
@[simp] theorem create_timers (kind : κ) (delay : Nat) (i : TimerId) :
    (s.create kind delay).timers i = if i = s.created then
      some { kind, valid := true, triggered := false, due := s.now + delay } else s.timers i := rfl

@[simp] theorem create_created (kind : κ) (delay : Nat) :
    (s.create kind delay).created = s.created + 1 := rfl

@[simp] theorem create_now (kind : κ) (delay : Nat) : (s.create kind delay).now = s.now := rfl

/-- The timer that is destroyed is not there. -/
@[simp] theorem destroy_timers (t i : TimerId) :
    (s.destroy t).timers i = if i = t then none else s.timers i := rfl

@[simp] theorem destroy_created (t : TimerId) : (s.destroy t).created = s.created := rfl

@[simp] theorem destroy_now (t : TimerId) : (s.destroy t).now = s.now := rfl

@[simp] theorem elapse_timers (ms : Nat) : (s.elapse ms).timers = s.timers := rfl

@[simp] theorem elapse_created (ms : Nat) : (s.elapse ms).created = s.created := rfl

@[simp] theorem elapse_now (ms : Nat) : (s.elapse ms).now = s.now + ms := rfl

/-! ### A cancelled timer -/

/-- The service after the timer a pointer points to was cancelled, if there is one. -/
def cancelled (s : TimerSvc κ) (t : Option TimerId) : TimerSvc κ :=
  { s with timers := fun i =>
      if t = some i then (s.timers i).map fun τ => { τ with valid := false } else s.timers i }

/-- The timer that is cancelled is not valid any more. -/
@[simp] theorem cancelled_timers (t : Option TimerId) (i : TimerId) :
    (s.cancelled t).timers i =
      if t = some i then (s.timers i).map fun τ => { τ with valid := false } else s.timers i := rfl

@[simp] theorem cancelled_created (t : Option TimerId) : (s.cancelled t).created = s.created := rfl

@[simp] theorem cancelled_now (t : Option TimerId) : (s.cancelled t).now = s.now := rfl

theorem cancelled_none : s.cancelled none = s := rfl

/-- Cancelling a timer that exists. -/
theorem cancel_eq {t : TimerId} (h : (s.timers t).isSome) :
    s.cancel t = some (s.cancelled (some t)) := by
  obtain ⟨τ, hτ⟩ := Option.isSome_iff_exists.mp h
  rw [cancel, hτ, Option.map_some, cancelled, set]
  congr 2
  funext i
  by_cases hi : i = t
  · rw [hi, if_pos rfl, if_pos rfl, hτ, Option.map_some]
  · rw [if_neg hi, if_neg fun h => hi (Option.some.inj h).symm]

/-! ### Pointers to timers -/

/-- `pts k t` says that the pointer for the callback `k` points to `t`: then `t` is valid and has
    that callback, and every valid timer is pointed to. -/
structure Owned (pts : κ → TimerId → Prop) (s : TimerSvc κ) : Prop where
  fresh : ∀ t τ, s.timers t = some τ → t < s.created
  exist : ∀ k t, pts k t → ∃ τ, s.timers t = some τ ∧ τ.kind = k ∧ τ.valid = true
  owned : ∀ t τ, s.timers t = some τ → τ.valid = true → pts τ.kind t

/-- `s'` is `s` later, with perhaps more timers, of which none is valid. -/
structure Grown (s s' : TimerSvc κ) : Prop where
  kept : ∀ i < s.created, s'.timers i = s.timers i
  idle : ∀ i τ, s.created ≤ i → s'.timers i = some τ → i < s'.created ∧ τ.valid = false
  created : s.created ≤ s'.created
  now : s.now ≤ s'.now

namespace Owned

variable {pts pts' : κ → TimerId → Prop} {s : TimerSvc κ}

/-- What a pointer points to is there. -/
theorem isSome (h : Owned pts s) {k : κ} {t : TimerId} (ht : pts k t) : (s.timers t).isSome := by
  obtain ⟨τ, hτ, -⟩ := h.exist k t ht
  rw [hτ]
  rfl

/-- A timer that belongs to something was made before. -/
theorem lt (h : Owned pts s) {k : κ} {t : TimerId} (ht : pts k t) : t < s.created := by
  obtain ⟨τ, hτ, -⟩ := h.exist k t ht
  exact h.fresh t τ hτ

/-- A timer is pointed to by the pointer for its callback only. -/
theorem kind_eq (h : Owned pts s) {k : κ} {t : TimerId} {τ : Timer κ} (ht : pts k t)
    (hτ : s.timers t = some τ) : τ.kind = k := by
  obtain ⟨τ', hτ', hk, -⟩ := h.exist k t ht
  rw [← Option.some.inj (hτ'.symm.trans hτ)]
  exact hk

/-- Nothing points to a timer that is not valid. -/
theorem not_pts (h : Owned pts s) {k : κ} {t : TimerId} {τ : Timer κ} (hτ : s.timers t = some τ)
    (hvalid : τ.valid = false) : ¬ pts k t := by
  intro ht
  obtain ⟨τ', hτ', -, hv⟩ := h.exist k t ht
  rw [← Option.some.inj (hτ.symm.trans hτ'), hvalid] at hv
  exact absurd hv (by simp)

/-- The same pointers. -/
theorem congr (h : Owned pts s) (hpts : ∀ k t, pts' k t ↔ pts k t) : Owned pts' s :=
  ⟨h.fresh, fun k t ht => h.exist k t ((hpts k t).mp ht),
    fun t τ hτ hv => (hpts τ.kind t).mpr (h.owned t τ hτ hv)⟩

/-- The timer of the callback `k₀` is cancelled, and the pointer to it cleared. -/
theorem cancelled (h : Owned pts s) (k₀ : κ) {c : Option TimerId}
    (hc : ∀ t, pts k₀ t ↔ c = some t) (hpts : ∀ k t, pts' k t ↔ pts k t ∧ k ≠ k₀) :
    Owned pts' (s.cancelled c) := by
  -- a timer has one callback, so no other pointer points to what is cancelled
  have hother : ∀ k t, pts k t → k ≠ k₀ → c ≠ some t := by
    intro k t ht hne hct
    obtain ⟨τ, hτ, hk, -⟩ := h.exist k t ht
    exact hne (hk.symm.trans (h.kind_eq ((hc t).mpr hct) hτ))
  refine ⟨fun t τ hτ => ?_, fun k t ht => ?_, fun t τ hτ hv => ?_⟩
  · rw [cancelled_timers] at hτ
    split at hτ
    · obtain ⟨τ', hτ', -⟩ := Option.map_eq_some_iff.mp hτ
      exact h.fresh t τ' hτ'
    · exact h.fresh t τ hτ
  · obtain ⟨hold, hne⟩ := (hpts k t).mp ht
    rw [cancelled_timers, if_neg (hother k t hold hne)]
    exact h.exist k t hold
  · rw [cancelled_timers] at hτ
    split at hτ
    · obtain ⟨τ', -, rfl⟩ := Option.map_eq_some_iff.mp hτ
      exact absurd hv (by simp)
    · rename_i hct
      have hold := h.owned t τ hτ hv
      refine (hpts _ _).mpr ⟨hold, fun hk => hct ?_⟩
      exact (hc t).mp (hk ▸ hold)

/-- A new timer. -/
theorem create (h : Owned pts s) {k₀ : κ} {delay : Nat}
    (hpts : ∀ k t, pts' k t ↔ pts k t ∨ k = k₀ ∧ t = s.created) :
    Owned pts' (s.create k₀ delay) := by
  refine ⟨fun t τ hτ => ?_, fun k t ht => ?_, fun t τ hτ hv => ?_⟩
  · rw [create_timers] at hτ
    rw [create_created]
    split at hτ
    · rename_i ht
      rw [ht]
      exact Nat.lt_succ_self s.created
    · exact Nat.lt_succ_of_lt (h.fresh t τ hτ)
  · rw [create_timers]
    rcases (hpts k t).mp ht with hold | ⟨rfl, rfl⟩
    · have hlt := h.lt hold
      rw [if_neg (Nat.ne_of_lt hlt)]
      exact h.exist k t hold
    · rw [if_pos rfl]
      exact ⟨_, rfl, rfl, rfl⟩
  · rw [create_timers] at hτ
    split at hτ
    · rename_i ht
      rw [← Option.some.inj hτ]
      exact (hpts _ _).mpr (.inr ⟨rfl, ht⟩)
    · exact (hpts _ _).mpr (.inl (h.owned t τ hτ hv))

/-- The time or the state of a timer changes. -/
theorem set (h : Owned pts s) {t : TimerId} {τ τ' : Timer κ} (hτ : s.timers t = some τ)
    (hkind : τ'.kind = τ.kind) (hvalid : τ'.valid = τ.valid) : Owned pts (s.set t (some τ')) := by
  refine ⟨fun i σ hσ => ?_, fun k i hi => ?_, fun i σ hσ hv => ?_⟩
  · rw [set_timers] at hσ
    split at hσ
    · rename_i hit
      exact hit ▸ h.fresh t τ hτ
    · exact h.fresh i σ hσ
  · rw [set_timers]
    obtain ⟨σ, hσ, hk, hv⟩ := h.exist k i hi
    split
    · rename_i hit
      rw [hit, hτ] at hσ
      exact ⟨τ', rfl, by rw [hkind, Option.some.inj hσ, hk],
        by rw [hvalid, Option.some.inj hσ, hv]⟩
    · exact ⟨σ, hσ, hk, hv⟩
  · rw [set_timers] at hσ
    split at hσ
    · rename_i hit
      rw [← Option.some.inj hσ, hkind, hit]
      rw [← Option.some.inj hσ, hvalid] at hv
      exact h.owned t τ hτ hv
    · exact h.owned i σ hσ hv

/-- A timer is freed, and the pointer to it cleared. -/
theorem destroy (h : Owned pts s) {t : TimerId} (hsub : ∀ k i, pts' k i → pts k i ∧ i ≠ t)
    (hkeep : ∀ k i, pts k i → i ≠ t → pts' k i) : Owned pts' (s.destroy t) := by
  refine ⟨fun i σ hσ => ?_, fun k i hi => ?_, fun i σ hσ hv => ?_⟩
  · rw [destroy_timers] at hσ
    split at hσ
    · exact absurd hσ (by simp)
    · exact h.fresh i σ hσ
  · obtain ⟨hold, hne⟩ := hsub k i hi
    rw [destroy_timers, if_neg hne]
    exact h.exist k i hold
  · rw [destroy_timers] at hσ
    split at hσ
    · exact absurd hσ (by simp)
    · rename_i hne
      exact hkeep _ _ (h.owned i σ hσ hv) hne

/-- A timer that is not valid is freed. -/
theorem free (h : Owned pts s) {t : TimerId} {τ : Timer κ} (hτ : s.timers t = some τ)
    (hvalid : τ.valid = false) : Owned pts (s.destroy t) := by
  refine h.destroy (fun k i hi => ⟨hi, ?_⟩) fun k i hi _ => hi
  rintro rfl
  exact h.not_pts hτ hvalid hi

/-- Timers that are not valid need no pointer. -/
theorem grown (h : Owned pts s) {s' : TimerSvc κ} (hg : s.Grown s') : Owned pts s' := by
  refine ⟨fun t τ hτ => ?_, fun k t ht => ?_, fun t τ hτ hv => ?_⟩
  · by_cases hlt : t < s.created
    · exact Nat.lt_of_lt_of_le hlt hg.created
    · exact (hg.idle t τ (Nat.le_of_not_lt hlt) hτ).1
  · rw [hg.kept t (h.lt ht)]
    exact h.exist k t ht
  · by_cases hlt : t < s.created
    · rw [hg.kept t hlt] at hτ
      exact h.owned t τ hτ hv
    · exact absurd hv (by rw [(hg.idle t τ (Nat.le_of_not_lt hlt) hτ).2]; simp)

/-- Time changes no owner. -/
theorem elapse (h : Owned pts s) (ms : Nat) : Owned pts (s.elapse ms) :=
  ⟨h.fresh, h.exist, h.owned⟩

/-- Time passes, and no timer is new. -/
theorem elapsed (h : Owned pts s) (ms : Nat) : s.Grown (s.elapse ms) := by
  refine ⟨fun _ _ => rfl, fun i τ hle hτ => ?_, Nat.le_refl _, Nat.le_add_right _ _⟩
  exact absurd (h.fresh i τ hτ) (Nat.not_lt.mpr hle)

end Owned

/-! ### Timers over time -/

/-- `s'` is a later `s`: a valid timer of `s'` was valid in `s`, for the same callback and the same
    time, or is `new` and has not gone off. -/
structure Follows (new : Timer κ → Prop) (s s' : TimerSvc κ) : Prop where
  now : s.now ≤ s'.now
  timers : ∀ t τ', s'.timers t = some τ' → τ'.valid = true →
    (∃ τ, s.timers t = some τ ∧ τ.valid = true ∧ τ'.kind = τ.kind ∧ τ'.due = τ.due ∧
      (τ'.triggered = true → τ.triggered = true ∨ τ.due ≤ s'.now)) ∨
    τ'.triggered = false ∧ new τ'

namespace Follows

variable {new new' : Timer κ → Prop} {s s' : TimerSvc κ}

theorem refl (s : TimerSvc κ) : Follows new s s :=
  ⟨Nat.le_refl _, fun _ τ hτ hv => .inl ⟨τ, hτ, hv, rfl, rfl, .inl⟩⟩

/-- What follows with fewer new timers does with more. -/
theorem mono (h : Follows new s s') (hnew : ∀ τ, new τ → new' τ) : Follows new' s s' :=
  ⟨h.now, fun t τ hτ hv => (h.timers t τ hτ hv).imp_right fun hn => ⟨hn.1, hnew τ hn.2⟩⟩

/-- Fewer timers are there, or fewer are valid. -/
theorem sub (h : Follows new s s') {s'' : TimerSvc κ} (hnow : s''.now = s'.now)
    (hsub : ∀ t τ, s''.timers t = some τ → τ.valid = true → s'.timers t = some τ) :
    Follows new s s'' := by
  refine ⟨?_, fun t τ hτ hv => ?_⟩
  · rw [hnow]
    exact h.now
  · rw [hnow]
    exact h.timers t τ (hsub t τ hτ hv) hv

/-- Cancelling makes no timer. -/
theorem cancelled (h : Follows new s s') (c : Option TimerId) : Follows new s (s'.cancelled c) := by
  refine h.sub rfl fun t τ hτ hv => ?_
  rw [cancelled_timers] at hτ
  split at hτ
  · obtain ⟨σ, -, rfl⟩ := Option.map_eq_some_iff.mp hτ
    exact absurd hv (by simp)
  · exact hτ

theorem destroy (h : Follows new s s') (t : TimerId) : Follows new s (s'.destroy t) := by
  refine h.sub rfl fun i τ hτ hv => ?_
  rw [destroy_timers] at hτ
  split at hτ
  · exact absurd hτ (by simp)
  · exact hτ

/-- A new timer. -/
theorem create (h : Follows new s s') {kind : κ} {delay : Nat}
    (hnew : new { kind, valid := true, triggered := false, due := s'.now + delay }) :
    Follows new s (s'.create kind delay) := by
  refine ⟨h.now, fun t τ hτ hv => ?_⟩
  rw [create_timers] at hτ
  split at hτ
  · rw [← Option.some.inj hτ]
    exact .inr ⟨rfl, hnew⟩
  · exact h.timers t τ hτ hv

/-- A timer that has not gone off is set again. -/
theorem reset (t : TimerId) {τ : Timer κ} (hfire : τ.triggered = false) {delay : Nat}
    (hnew : new { τ with due := s.now + delay }) :
    Follows new s (s.set t (some { τ with due := s.now + delay })) := by
  refine ⟨Nat.le_refl _, fun i σ hσ hv => ?_⟩
  rw [set_timers] at hσ
  split at hσ
  · rw [← Option.some.inj hσ]
    exact .inr ⟨hfire, hnew⟩
  · exact .inl ⟨σ, hσ, hv, rfl, rfl, .inl⟩

/-- One service follows another that follows a third. -/
theorem trans {s'' : TimerSvc κ} (h : Follows (fun _ => False) s s') (h' : Follows new s' s'') :
    Follows new s s'' := by
  refine ⟨Nat.le_trans h.now h'.now, fun t τ'' hτ'' hv => ?_⟩
  rcases h'.timers t τ'' hτ'' hv with ⟨τ', hτ', hv', hkind', hdue', hfire'⟩ | hnew
  · rcases h.timers t τ' hτ' hv' with ⟨τ, hτ, hv, hkind, hdue, hfire⟩ | ⟨-, hno⟩
    · refine .inl ⟨τ, hτ, hv, hkind'.trans hkind, hdue'.trans hdue, fun htriggered => ?_⟩
      rcases hfire' htriggered with hold | hle
      · exact (hfire hold).imp_right fun hle => Nat.le_trans hle h'.now
      · exact .inr (hdue ▸ hle)
    · exact hno.elim
  · exact .inr hnew

/-- Time passed before. -/
theorem of_elapse {ms : Nat} (h : Follows new (s.elapse ms) s') : Follows new s s' :=
  ⟨Nat.le_trans (Nat.le_add_right _ _) h.now, h.timers⟩

/-- New timers only. -/
theorem of_grown (h : s.Grown s') : Follows new s s' := by
  refine ⟨h.now, fun t τ hτ hv => ?_⟩
  by_cases hlt : t < s.created
  · rw [h.kept t hlt] at hτ
    exact .inl ⟨τ, hτ, hv, rfl, rfl, .inl⟩
  · rw [(h.idle t τ (Nat.le_of_not_lt hlt) hτ).2] at hv
    exact absurd hv (by simp)

end Follows

end TimerSvc

end Skull
