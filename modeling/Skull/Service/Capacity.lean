import Skull.Service.Queue

namespace Skull

/-!
# The capacity of a queue

When a push succeeds.  The doubling loop of `_get_new_size` and the cut at
`max_slots * elem_sz` are said once, for a buffer that fits its limit:

* `Fmbuf.Fits` — the bytes held fit the buffer and the buffer fits the limit;
* `Fmbuf.growLoop_ge` — the loop reaches a size with room for the new element;
* `Fmbuf.newSize_spec` — the new size, which is computed with no overflow (`Fmbuf.PushExact`);
* `Fmbuf.queuePush_spec` — a push is refused exactly when `max_slots` elements are held, and
  never aborts.
-/

namespace Fmbuf

variable {α : Type} {elemSz maxSlots : Nat}

/-- A buffer below this size may be doubled in 64 bits. -/
def sizeLimit : Nat := 2 ^ 63

/-- The bytes held fit the buffer, and the buffer fits its limit. -/
structure Fits (elemSz maxSlots : Nat) (mq : Fmbuf α) : Prop where
  used : mq.used elemSz ≤ mq.size
  size : mq.size ≤ maxSlots * elemSz

theorem used_append (mq : Fmbuf α) (elem : α) (size : Nat) :
    (⟨size, mq.elems ++ [elem]⟩ : Fmbuf α).used elemSz = mq.used elemSz + elemSz := by
  simp [Fmbuf.used, Nat.succ_mul]

/-- Shrinking the content keeps the fit. -/
theorem Fits.tail {size : Nat} {x : α} {rest : List α}
    (h : Fits elemSz maxSlots (⟨size, x :: rest⟩ : Fmbuf α)) :
    Fits elemSz maxSlots (⟨size, rest⟩ : Fmbuf α) := by
  refine ⟨Nat.le_trans ?_ h.used, h.size⟩
  exact Nat.mul_le_mul_right _ (by simp)

/-- Dropping elements keeps the fit. -/
theorem Fits.drop {size : Nat} {xs : List α} (h : Fits elemSz maxSlots (⟨size, xs⟩ : Fmbuf α))
    (k : Nat) : Fits elemSz maxSlots (⟨size, xs.drop k⟩ : Fmbuf α) := by
  refine ⟨Nat.le_trans ?_ h.used, h.size⟩
  exact Nat.mul_le_mul_right _ (List.drop_sublist k xs).length_le

/-- A buffer that fits its limit holds no more elements than it has slots for. -/
theorem Fits.length_le {mq : Fmbuf α} (h : mq.Fits elemSz maxSlots) (hsz : 0 < elemSz) :
    mq.elems.length ≤ maxSlots :=
  Nat.le_of_mul_le_mul_right (Nat.le_trans h.used h.size) hsz

/-- A buffer with fewer elements has room for one more below its limit. -/
theorem room {mq : Fmbuf α} (hlen : mq.elems.length < maxSlots) :
    mq.used elemSz + elemSz ≤ maxSlots * elemSz := by
  calc mq.used elemSz + elemSz = (mq.elems.length + 1) * elemSz := by
        rw [Fmbuf.used, Nat.succ_mul]
    _ ≤ maxSlots * elemSz := Nat.mul_le_mul_right _ hlen

/-- No size of the doubling loop overflows, or is less than what is held; and the loop ends. -/
def GrowExact (usedSz need : Nat) : (turns newSz : Nat) → Prop
  | 0, _ => False
  | turns + 1, newSz => newSz * 2 < sizeTMod ∧ usedSz ≤ newSz * 2 ∧
      (need ≤ newSz * 2 - usedSz ∨ GrowExact usedSz need turns (newSz * 2))

/-- One turn of the loop, from a size that may be doubled. -/
theorem growLoop_turn {usedSz need turns newSz : Nat} (hpos : 0 < newSz) (hused : usedSz ≤ newSz)
    (hlt : newSz < sizeLimit) : growLoop usedSz need (turns + 1) newSz =
      if need ≤ newSz * 2 - usedSz then newSz * 2 else growLoop usedSz need turns (newSz * 2) := by
  have hlimit : sizeLimit = 2 ^ 63 := rfl
  have hmod : sizeTMod = 2 ^ 64 := rfl
  have hdbl : newSz * 2 % sizeTMod = newSz * 2 := Nat.mod_eq_of_lt (by omega)
  have hroom : (newSz * 2 + sizeTMod - usedSz) % sizeTMod = newSz * 2 - usedSz := by
    have hsub : newSz * 2 + sizeTMod - usedSz = newSz * 2 - usedSz + sizeTMod := by omega
    rw [hsub, Nat.add_mod_right, Nat.mod_eq_of_lt (by omega)]
  rw [growLoop, if_neg (Nat.pos_iff_ne_zero.mp hpos)]
  simp only [hdbl, hroom]

/-- **The doubling loop.** From a positive size, with enough turns left, the loop ends at a
    size with room for the elements held and the new one, and computes with no overflow. -/
theorem growLoop_ge {usedSz need : Nat} (hneed : usedSz + need ≤ sizeLimit) (turns : Nat) :
    ∀ newSz, 0 < newSz → usedSz ≤ newSz → newSz < sizeLimit →
      usedSz + need ≤ newSz * 2 ^ turns →
      usedSz + need ≤ growLoop usedSz need (turns + 1) newSz ∧
        GrowExact usedSz need (turns + 1) newSz := by
  have hlimit : sizeLimit = 2 ^ 63 := rfl
  have hmod : sizeTMod = 2 ^ 64 := rfl
  induction turns with
  | zero =>
    intro newSz hpos hused hlt hturns
    rw [Nat.pow_zero, Nat.mul_one] at hturns
    have hroom : need ≤ newSz * 2 - usedSz := by omega
    rw [growLoop_turn hpos hused hlt, if_pos hroom]
    exact ⟨by omega, by omega, by omega, .inl hroom⟩
  | succ turns ih =>
    intro newSz hpos hused hlt hturns
    rw [growLoop_turn hpos hused hlt]
    split
    · rename_i hroom
      exact ⟨by omega, by omega, by omega, .inl hroom⟩
    · have hpow : usedSz + need ≤ newSz * 2 * 2 ^ turns := by
        calc usedSz + need ≤ newSz * 2 ^ (turns + 1) := hturns
          _ = newSz * 2 * 2 ^ turns := by rw [Nat.pow_succ', Nat.mul_assoc]
      obtain ⟨hge, hexact⟩ := ih (newSz * 2) (by omega) (by omega) (by omega) hpow
      exact ⟨hge, by omega, by omega, .inr hexact⟩

/-- The size computations of a push of one element are those of the natural numbers. -/
def PushExact (maxSlots elemSz : Nat) (mq : Fmbuf α) : Prop :=
  1 * elemSz < sizeTMod ∧ maxSlots * elemSz < sizeTMod ∧
    GrowExact (mq.used elemSz) elemSz 65 (if mq.size = 0 then 1 else mq.size)

/-- **The new size** of a buffer without room is its limit, or has room for one more element. -/
theorem newSize_spec {mq : Fmbuf α} (h : mq.Fits elemSz maxSlots) (hsz : 0 < elemSz)
    (hmax : 0 < maxSlots) (hlim : maxSlots * elemSz < sizeLimit)
    (hfull : mq.elems.length = maxSlots ∨ mq.used elemSz + elemSz ≤ maxSlots * elemSz) :
    mq.PushExact maxSlots elemSz ∧ ∃ newSz, mq.newSize 1 maxSlots elemSz = .ok newSz ∧
      (newSz = maxSlots * elemSz ∨
        mq.used elemSz + elemSz ≤ newSz ∧ newSz ≤ maxSlots * elemSz) := by
  have hlimit : sizeLimit = 2 ^ 63 := rfl
  have hmod : sizeTMod = 2 ^ 64 := rfl
  have hused := h.used
  have hsize := h.size
  have hpos : 0 < maxSlots * elemSz := Nat.mul_pos hmax hsz
  have helem : elemSz ≤ maxSlots * elemSz := Nat.le_mul_of_pos_left _ hmax
  have hneedmod : 1 * elemSz % sizeTMod = elemSz := by
    rw [Nat.one_mul]; exact Nat.mod_eq_of_lt (by omega)
  have hmaxmod : maxSlots * elemSz % sizeTMod = maxSlots * elemSz := Nat.mod_eq_of_lt (by omega)
  set currSz := if mq.size = 0 then 1 else mq.size with hcurr
  have hcurr0 : 0 < currSz ∧ mq.used elemSz ≤ currSz ∧ currSz < sizeLimit := by
    rw [hcurr]; split <;> omega
  -- the loop ends with room, or at the first turn when the buffer is full
  have hloop : (mq.used elemSz + elemSz ≤ growLoop (mq.used elemSz) elemSz 65 currSz ∨
      maxSlots * elemSz ≤ growLoop (mq.used elemSz) elemSz 65 currSz) ∧
      GrowExact (mq.used elemSz) elemSz 65 currSz := by
    rcases hfull with hlen | hroom
    · have hheld : mq.used elemSz = maxSlots * elemSz := by rw [Fmbuf.used, hlen]
      have hfirst : elemSz ≤ currSz * 2 - mq.used elemSz := by omega
      refine ⟨.inr ?_, by omega, by omega, .inl hfirst⟩
      rw [growLoop_turn hcurr0.1 hcurr0.2.1 hcurr0.2.2, if_pos hfirst]
      omega
    · have hpow : mq.used elemSz + elemSz ≤ currSz * 2 ^ 64 := by
        calc mq.used elemSz + elemSz ≤ 1 * 2 ^ 64 := by omega
          _ ≤ currSz * 2 ^ 64 := Nat.mul_le_mul_right _ hcurr0.1
      obtain ⟨hge, hexact⟩ := growLoop_ge (by omega) 64 currSz hcurr0.1 hcurr0.2.1 hcurr0.2.2 hpow
      exact ⟨.inl hge, hexact⟩
  refine ⟨⟨by omega, by omega, hloop.2⟩, ?_⟩
  set r := growLoop (mq.used elemSz) elemSz 65 currSz with hr
  have hr0 : 0 < r := by omega
  refine ⟨if r > maxSlots * elemSz then maxSlots * elemSz else r, ?_, ?_⟩
  · have hnew : (if r > maxSlots * elemSz then maxSlots * elemSz else r) > 0 := by
      split <;> omega
    simp only [newSize, hneedmod, hmaxmod, ← hcurr, ← hr, hnew, if_true]
  · split <;> omega

/-- **Pushing.** The buffer refuses the element exactly when `max_slots` elements are held,
    and is then left alone; otherwise it appends the element.  It never aborts. -/
theorem queuePush_spec {mq : Fmbuf α} (elem : α) (h : mq.Fits elemSz maxSlots)
    (hsz : 0 < elemSz) (hmax : 0 < maxSlots) (hlim : maxSlots * elemSz < sizeLimit) :
    (mq.elems.length = maxSlots ∧ mq.queuePush maxSlots elemSz elem = .ok (true, mq)) ∨
      ∃ size, mq.elems.length < maxSlots ∧
        mq.queuePush maxSlots elemSz elem = .ok (false, ⟨size, mq.elems ++ [elem]⟩) ∧
        Fits elemSz maxSlots (⟨size, mq.elems ++ [elem]⟩ : Fmbuf α) := by
  have hused := h.used
  have hsize := h.size
  rcases Nat.eq_or_lt_of_le (h.length_le hsz) with hfull | hroom
  · -- the buffer is full, and has its largest size
    have hheld : mq.used elemSz = maxSlots * elemSz := by rw [Fmbuf.used, hfull]
    obtain ⟨-, newSz, hnew, hspec⟩ := newSize_spec h hsz hmax hlim (.inl hfull)
    have heq : mq.size = newSz := by omega
    have hpush : mq.push elemSz elem = none := by
      rw [push, if_neg (by omega)]
    exact .inl ⟨hfull, by simp only [queuePush, hpush, hnew, heq, if_true]⟩
  · have hfits : mq.used elemSz + elemSz ≤ maxSlots * elemSz := room hroom
    by_cases hfree : elemSz ≤ mq.size - mq.used elemSz
    · refine .inr ⟨mq.size, hroom, ?_, ?_, hsize⟩
      · simp [queuePush, push, hfree]
      · rw [used_append]; exact (by omega : mq.used elemSz + elemSz ≤ mq.size)
    · obtain ⟨-, newSz, hnew, hspec⟩ := newSize_spec h hsz hmax hlim (.inr hfits)
      have hpush : mq.push elemSz elem = none := by rw [push, if_neg hfree]
      have hne : mq.size ≠ newSz := by omega
      have hle : newSz ≤ maxSlots * elemSz ∧ mq.used elemSz + elemSz ≤ newSz := by omega
      refine .inr ⟨newSz, hroom, ?_, ?_, hle.1⟩
      · have hroom' : elemSz ≤ newSz - mq.used elemSz := by omega
        simp only [queuePush, hpush, hnew, hne, if_false]
        simp only [push, realloc]
        simp only [Fmbuf.used] at hroom' ⊢
        simp [hroom']
      · rw [used_append]; exact hle.2

end Fmbuf

end Skull
