import Skull.User.TxnStore
import Mathlib.Data.List.Induction

namespace Skull

/-!
# What a user function does to the message

The calls of `data()` and the changes made through the references they return:

* `DataOp.applied` — the operations on a message to which some of the references lead;
* `DataOp.messages` — the messages of a C++ transaction, one for each call of `data()`;
* `DataStep.left` — the message a user function leaves when all its changes are made, and
  `DataStep.viaLast`, when only those through the last reference are.
-/

variable {M : Type}

namespace DataOp

/-- Whether an operation is a call of `data()`. -/
def isData : DataOp M → Bool
  | .data => true
  | .mutate .. => false

/-- The number of calls of `data()`. -/
def calls (ops : List (DataOp M)) : Nat := ops.countP isData

/-- An operation on a message to which the references in `through` lead: the number of references
    there are, and the message. -/
def apply (through : Nat → Bool) (p : Nat × M) : DataOp M → Nat × M
  | .data => (p.1 + 1, p.2)
  | .mutate k f => (p.1, if k < p.1 ∧ through k then f p.2 else p.2)

/-- Operations on a message to which the references in `through` lead. -/
def applied (through : Nat → Bool) (ops : List (DataOp M)) (m : M) : Nat × M :=
  ops.foldl (apply through) (0, m)

/-- The messages of a C++ transaction that gets `m` from each call of `data()`. -/
def messages (m : M) (ops : List (DataOp M)) : List M :=
  ops.foldl (fun ms op => match op with
    | .data => ms ++ [m]
    | .mutate k f => ms.modify k f) []

variable {through : Nat → Bool} {m : M}

/-- One operation more. -/
theorem calls_concat (ops : List (DataOp M)) (op : DataOp M) :
    calls (ops ++ [op]) = calls ops + if op.isData then 1 else 0 := by
  simp [calls, List.countP_append, List.countP_singleton]

/-- It is applied last. -/
theorem applied_concat (ops : List (DataOp M)) (op : DataOp M) :
    applied through (ops ++ [op]) m = apply through (applied through ops m) op := by
  simp [applied, List.foldl_append]

/-- A call for the data shows the message. -/
theorem messages_data (ops : List (DataOp M)) :
    messages m (ops ++ [.data]) = messages m ops ++ [m] := by
  simp [messages, List.foldl_append]

/-- A change is seen through all that were shown. -/
theorem messages_mutate (ops : List (DataOp M)) (k : Nat) (f : M → M) :
    messages m (ops ++ [.mutate k f]) = (messages m ops).modify k f := by
  simp [messages, List.foldl_append]

/-- The calls are counted. -/
theorem applied_fst (ops : List (DataOp M)) : (applied through ops m).1 = calls ops := by
  induction ops using List.reverseRecOn with
  | nil => rfl
  | append_singleton ops op ih =>
    rw [applied_concat, calls_concat]
    cases op <;> simp [apply, isData, ih]

/-- A message that no reference leads to stays as it is. -/
theorem applied_untouched {ops : List (DataOp M)} (h : ∀ k, k < calls ops → through k = false) :
    (applied through ops m).2 = m := by
  induction ops using List.reverseRecOn with
  | nil => rfl
  | append_singleton ops op ih =>
    have hle : calls ops ≤ calls (ops ++ [op]) := by
      rw [calls_concat]
      exact Nat.le_add_right _ _
    have hm := ih fun k hk => h k (by omega)
    rw [applied_concat]
    cases op with
    | data => exact hm
    | mutate k f =>
      show (if k < (applied through ops m).1 ∧ through k = true then _ else _) = m
      rw [if_neg, hm]
      rintro ⟨hk, ht⟩
      rw [applied_fst] at hk
      simp [h k (by omega)] at ht

/-- There is a message for each call of `data()`. -/
theorem length_messages (ops : List (DataOp M)) : (messages m ops).length = calls ops := by
  induction ops using List.reverseRecOn with
  | nil => rfl
  | append_singleton ops op ih =>
    rw [calls_concat]
    cases op with
    | data => simp [messages_data, ih, isData]
    | mutate k f => simp [messages_mutate, ih, isData]

/-- The message number `i` has the changes that were made through the reference number `i`. -/
theorem getElem?_messages (ops : List (DataOp M)) (i : Nat) :
    (messages m ops)[i]? =
      if i < calls ops then some (applied (fun k => k = i) ops m).2 else none := by
  induction ops using List.reverseRecOn generalizing i with
  | nil => rfl
  | append_singleton ops op ih =>
    have hlen : (messages m ops).length = calls ops := length_messages ops
    rw [applied_concat, calls_concat]
    -- a call of `data` restores one message more
    cases op with
    | data =>
      rw [messages_data]
      show _ = if i < calls ops + 1 then some (applied (fun k => k = i) ops m).2 else none
      -- a call before it, the call itself, or none
      rcases Nat.lt_trichotomy i (calls ops) with hlt | rfl | hgt
      · rw [List.getElem?_append_left (by omega), ih, if_pos hlt, if_pos (by omega)]
      · rw [← hlen, List.getElem?_concat_length, hlen, if_pos (Nat.lt_succ_self _),
          applied_untouched]
        intro k hk
        simpa using Nat.ne_of_lt hk
      · rw [List.getElem?_eq_none (by simp; omega), if_neg (by omega)]
    -- a change is one of the message of its call
    | mutate k f =>
      rw [messages_mutate, List.getElem?_modify, ih]
      by_cases hi : i < calls ops
      · by_cases hk : k = i
        · subst hk
          simp [hi, apply, isData, applied_fst]
        · simp [hi, hk, apply, isData]
      · simp [hi, isData]

end DataOp

namespace DataStep

/-- The number of calls of `data()`. -/
def calls (b : DataStep M) : Nat := DataOp.calls b.ops

/-- The message a user function leaves of the message it found: all its changes are made. -/
def left (b : DataStep M) (m : M) : M := (DataOp.applied (fun _ => true) b.ops m).2

/-- The changes that are made through the reference of the last call of `data()` alone. -/
def viaLast (b : DataStep M) (m : M) : M :=
  (DataOp.applied (fun k => k + 1 = b.calls) b.ops m).2

variable {b : DataStep M} {m : M}

/-- A function that never calls `data()` leaves the message as it is. -/
theorem left_of_calls_zero (h : b.calls = 0) : b.left m = m := by
  apply DataOp.applied_untouched
  intro k hk
  rw [calls] at h
  omega

/-- `TxnImp::msg_` at the end. -/
theorem getLast?_messages (hcalls : 0 < b.calls) :
    (DataOp.messages m b.ops).getLast? = some (b.viaLast m) := by
  have hlen : (DataOp.messages m b.ops).length = b.calls := DataOp.length_messages b.ops
  rw [List.getLast?_eq_getElem?, hlen, DataOp.getElem?_messages, if_pos]
  · have hthrough : (fun k => decide (k = b.calls - 1)) = fun k => decide (k + 1 = b.calls) := by
      funext k
      simp only [decide_eq_decide]
      omega
    rw [hthrough]
    rfl
  · show b.calls - 1 < b.calls
    omega

theorem messages_nil (hcalls : b.calls = 0) : DataOp.messages m b.ops = [] :=
  List.eq_nil_of_length_eq_zero ((DataOp.length_messages b.ops).trans hcalls)

end DataStep

end Skull
