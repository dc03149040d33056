import Skull.User.DataOps

namespace Skull

open Machines Heaps

/-!
# The message behind the raw data

* `Holds` — the user data of the transaction represent a message; both layers read it
  (`Holds.data_cpp`, `Holds.data_python`);
* `reset_bytes`, `reset_null`, `Holds.deleteRaw` — what becomes of the raw data when they are
  stored over and deleted;
* `KeepsMsg` — the condition on a step, and `Holds.step_ends`, what a step does with and without
  it.
-/

variable {M : Type}

/-! ### The message that is represented -/

variable (pb : Protobuf M)

/-- The user data of the transaction represent a message.  An empty one may be represented by a
    pointer to a freed buffer. -/
inductive Holds : M → TxnStore → Prop
  | unset {heap : Heap (List UInt8)} : Holds pb.newMsg ⟨none, heap⟩
  | null {heap : Heap (List UInt8)} : Holds pb.newMsg ⟨some ⟨none, 0⟩, heap⟩
  | stored {heap : Heap (List UInt8)} {a : Addr} {m : M} (hget : heap.get? a = some (pb.serialize m))
      (hne : pb.serialize m ≠ []) : Holds m ⟨some ⟨some a, (pb.serialize m).length⟩, heap⟩
  | dangling {heap : Heap (List UInt8)} {a : Addr} (hget : heap.get? a = none) :
      Holds pb.newMsg ⟨some ⟨some a, 0⟩, heap⟩

namespace TxnStore

/-- The pointer of the raw data. -/
def data_ (s : TxnStore) : Option Addr := s.udata.bind TxnSharedRawData.data_

/-- The raw data point to a buffer that was freed. -/
def Dangling (s : TxnStore) : Prop := ∃ a, s.data_ = some a ∧ s.heap.get? a = none

/-- The user data after a call of `data()`. -/
def touch (s : TxnStore) : TxnStore :=
  { s with udata := some (s.udata.getD { data_ := none, size_ := 0 }) }

end TxnStore

/-- The address that `calloc` hands out next is the one that the raw data point to. -/
def Host.Reuses (h : Host) (s : TxnStore) : Prop := s.data_ = some (h.alloc.pick s.heap)

variable {pb} {m : M} {s : TxnStore}

@[simp] theorem TxnStore.touch_touch (s : TxnStore) : s.touch.touch = s.touch := rfl

@[simp] theorem TxnStore.touch_heap (s : TxnStore) : s.touch.heap = s.heap := rfl

/-- Touching the store leaves the data. -/
@[simp] theorem TxnStore.touch_data_ (s : TxnStore) : s.touch.data_ = s.data_ := by
  obtain ⟨udata, heap⟩ := s
  cases udata <;> rfl

theorem TxnStore.dangling_touch : s.touch.Dangling ↔ s.Dangling := by
  simp [TxnStore.Dangling]

theorem Holds.touch (h : Holds pb m s) : Holds pb m s.touch := by
  cases h with
  | unset => exact .null
  | null => exact .null
  | stored hget hne => exact .stored hget hne
  | dangling hget => exact .dangling hget

/-- The bytes behind the raw data are the message. -/
theorem Holds.read (h : Holds pb m s) {raw : TxnSharedRawData} (hraw : s.udata = some raw) :
    readData s.heap raw.data_ raw.size_ = .ok (pb.serialize m) := by
  cases h with
  | unset => simp at hraw
  | null | dangling =>
    obtain rfl := Option.some.inj hraw
    rw [pb.serialize_newMsg]
    rfl
  | stored hget hne =>
    obtain rfl := Option.some.inj hraw
    simp [readData, hget, hne]

/-- What was serialized is parsed. -/
theorem parseData_ok {heap : Heap (List UInt8)} {p : Option Addr} {size : Nat}
    (h : readData heap p size = .ok (pb.serialize m)) : parseData pb heap p size = .ok m := by
  unfold parseData
  rw [h]
  simp [pb.parse_serialize]

/-- `TxnImp::data` gives the message. -/
theorem Holds.data_cpp (h : Holds pb m s) (t : TxnImp M) :
    t.data pb s = .ok ({ msgs := t.msgs ++ [m] }, s.touch) := by
  have hparse := parseData_ok (h.touch.read rfl)
  cases h with
  | unset | null => rfl
  | @stored heap a _ hget hne =>
    show (parseData pb heap (some a) (pb.serialize m).length).map _ = _
    rw [show parseData pb heap (some a) (pb.serialize m).length = .ok m from hparse]
    rfl
  | @dangling heap a hget =>
    show (parseData pb heap (some a) 0).map _ = _
    rw [show parseData pb heap (some a) 0 = .ok pb.newMsg from hparse]
    rfl

/-- `Txn.data` gives the message. -/
theorem Holds.data_python (h : Holds pb m s) :
    PyTxn.data pb { _msg := none } s = .ok { _msg := some m } := by
  have hparse := pb.parse_serialize m
  unfold PyTxn.data pyTxnGet
  cases hudata : s.udata with
  | none =>
    cases h
    · rfl
    all_goals simp at hudata
  | some raw =>
    simp only [h.read hudata, Except.map, hparse]

/-! ### What the body of a user function does -/

/-- The operations of a function in C++. -/
theorem Holds.ops_cpp (h : Holds pb m s) (ops : List (DataOp M)) :
    ops.foldlM (TxnImp.runOp pb) ({ msgs := [] }, s) =
      .ok ({ msgs := DataOp.messages m ops }, if DataOp.calls ops = 0 then s else s.touch) := by
  induction ops using List.reverseRecOn with
  | nil => rfl
  | append_singleton ops op ih =>
    simp only [List.foldlM_append, ih, List.foldlM_cons, List.foldlM_nil, bind_pure]
    show TxnImp.runOp pb _ op = _
    rw [DataOp.calls_concat]
    cases op with
    | data =>
      have hdata : ∀ s', s' = s ∨ s' = s.touch → TxnImp.runOp pb
          ({ msgs := DataOp.messages m ops }, s') .data =
            .ok ({ msgs := DataOp.messages m ops ++ [m] }, s.touch) := by
        rintro s' (rfl | rfl)
        · exact h.data_cpp _
        · exact h.touch.data_cpp _
      rw [hdata _ (by split <;> simp), DataOp.messages_data]
      rfl
    | mutate k f =>
      rw [DataOp.messages_mutate]
      rfl

/-- The operations of a function in Python. -/
theorem Holds.ops_python (h : Holds pb m s) (ops : List (DataOp M)) :
    ops.foldlM (PyTxn.runOp pb s) (0, { _msg := none }) =
      .ok (DataOp.calls ops, ⟨if DataOp.calls ops = 0 then none
        else some (DataOp.applied (fun _ => true) ops m).2⟩) := by
  induction ops using List.reverseRecOn with
  | nil => rfl
  | append_singleton ops op ih =>
    simp only [List.foldlM_append, ih, List.foldlM_cons, List.foldlM_nil, bind_pure]
    show PyTxn.runOp pb s _ op = _
    rw [DataOp.calls_concat, DataOp.applied_concat]
    cases op with
    | data =>
      by_cases hzero : DataOp.calls ops = 0
      · have hm : (DataOp.applied (fun _ => true) ops m).2 = m :=
          DataOp.applied_untouched fun k hk => by omega
        simp only [PyTxn.runOp, hzero, if_true, h.data_python]
        simp [DataOp.apply, DataOp.isData, hm, Except.map]
      · simp [PyTxn.runOp, PyTxn.data, hzero, DataOp.apply, DataOp.isData, Except.map]
    | mutate k f =>
      have hfst : (DataOp.applied (fun _ => true) ops m).1 = DataOp.calls ops :=
        DataOp.applied_fst ops
      by_cases hk : k < DataOp.calls ops
      · have hzero : DataOp.calls ops ≠ 0 := by omega
        simp [PyTxn.runOp, hk, hzero, hfst, DataOp.apply, DataOp.isData]
      · simp [PyTxn.runOp, hk, hfst, DataOp.apply, DataOp.isData]

/-! ### What is stored back -/

/-- **Storing bytes.**  `reset` with a new buffer goes through unless the raw data point to a
    freed buffer, and `calloc` did not hand out the same address again. -/
theorem reset_bytes {raw : TxnSharedRawData} (hraw : s.udata = some raw)
    {m' : M} (hne : pb.serialize m' ≠ []) {host : Host} {r : Except UserFault TxnStore}
    (hr : (raw.reset (s.heap.calloc (host.alloc.pick s.heap) (pb.serialize m'))
      (some (host.alloc.pick s.heap)) (pb.serialize m').length).map
        (fun p => { udata := some p.1, heap := p.2 }) = r) :
    (s.Dangling ∧ ¬ host.Reuses s ∧ r = .error .badFree) ∨
      ((s.Dangling → host.Reuses s) ∧ ∃ t, r = .ok t ∧ Holds pb m' t) := by
  have hlen : (pb.serialize m').length ≠ 0 := fun hz => hne (List.eq_nil_of_length_eq_zero hz)
  have hfresh := host.alloc.fresh s.heap
  generalize hp : host.alloc.pick s.heap = p at hr hfresh
  have hdata : s.data_ = raw.data_ := by rw [TxnStore.data_, hraw]; rfl
  have hreuse : host.Reuses s ↔ raw.data_ = some p := by rw [Host.Reuses, hdata, hp]
  have hstored : Holds pb m' ⟨some ⟨some p, (pb.serialize m').length⟩,
      s.heap.calloc p (pb.serialize m')⟩ := .stored (Heap.get?_calloc ..) hne
  unfold TxnSharedRawData.reset at hr
  by_cases heq : raw.data_ = some p
  · -- the address is the same: nothing is freed
    rw [if_pos heq] at hr
    refine .inr ⟨fun _ => hreuse.mpr heq, _, hr.symm, ?_⟩
    obtain ⟨data, size⟩ := raw
    obtain rfl : data = some p := heq
    exact hstored
  · -- the new address is stored, and the old one freed
    rw [if_neg heq] at hr
    simp only [if_neg hlen] at hr
    cases hold : raw.data_ with
    | none =>
      refine .inr ⟨?_, _, ?_, hstored⟩
      · rintro ⟨a, ha, -⟩
        rw [hdata, hold] at ha
        exact absurd ha (by simp)
      · rw [← hr, hold]
        rfl
    | some a =>
      have hap : a ≠ p := fun hap => heq (hap ▸ hold)
      cases hget : s.heap.get? a with
      | none =>
        -- the old buffer was freed before: it is freed twice
        refine .inl ⟨⟨a, hdata.trans hold, hget⟩, fun hc => heq (hreuse.mp hc), ?_⟩
        have hfree : (s.heap.calloc p (pb.serialize m')).free (some a) = none :=
          Heap.free_none ((Heap.get?_calloc_of_ne _ _ hap).trans hget)
        rw [← hr, hold]
        simp [freeData, hfree, Except.map]
      | some bytes =>
        obtain ⟨heap, hfree, -, hothers⟩ :=
          Heap.free_some ((Heap.get?_calloc_of_ne s.heap (pb.serialize m') hap).trans hget)
        refine .inr ⟨?_, ⟨some ⟨some p, _⟩, heap⟩, ?_, .stored ?_ hne⟩
        · rintro ⟨b, hb, hnone⟩
          rw [hdata, hold] at hb
          obtain rfl := Option.some.inj hb
          exact absurd (hget.symm.trans hnone) (by simp)
        · rw [← hr, hold]
          simp [freeData, hfree, Except.map]
        · rw [hothers p (Ne.symm hap), Heap.get?_calloc]

/-- Storing no bytes: `reset` with `NULL` frees the old buffer and keeps its address. -/
theorem reset_null (pb : Protobuf M) {raw : TxnSharedRawData} (hraw : s.udata = some raw)
    {r : Except UserFault TxnStore}
    (hr : (raw.reset s.heap none 0).map (fun p => { udata := some p.1, heap := p.2 }) = r) :
    (s.Dangling ∧ r = .error .badFree) ∨
      (¬ s.Dangling ∧ ∃ t, r = .ok t ∧ Holds pb pb.newMsg t) := by
  have hdata : s.data_ = raw.data_ := by rw [TxnStore.data_, hraw]; rfl
  unfold TxnSharedRawData.reset at hr
  cases hold : raw.data_ with
  | none =>
    refine .inr ⟨?_, ⟨some ⟨none, 0⟩, s.heap⟩, ?_, .null⟩
    · rintro ⟨a, ha, -⟩
      rw [hdata, hold] at ha
      exact absurd ha (by simp)
    · rw [← hr, if_pos hold]
      simp [Except.map, hold]
  | some a =>
    rw [if_neg (by simp [hold])] at hr
    simp only [ne_eq, not_true_eq_false, if_false, hold] at hr
    cases hget : s.heap.get? a with
    | none =>
      -- the old buffer was freed before: it is freed twice
      refine .inl ⟨⟨a, hdata.trans hold, hget⟩, ?_⟩
      rw [← hr]
      simp [freeData, Heap.free_none hget, Except.map]
    | some bytes =>
      obtain ⟨heap, hfree, hnone, -⟩ := Heap.free_some hget
      refine .inr ⟨?_, ⟨some ⟨some a, 0⟩, heap⟩, ?_, .dangling hnone⟩
      · rintro ⟨b, hb, hnone⟩
        rw [hdata, hold] at hb
        obtain rfl := Option.some.inj hb
        exact absurd (hget.symm.trans hnone) (by simp)
      · rw [← hr]
        simp [freeData, hfree, Except.map]

/-- The raw data are deleted. -/
theorem Holds.deleteRaw (h : Holds pb m s) :
    (s.Dangling ∧ s.deleteRaw = .error .badFree) ∨
      (¬ s.Dangling ∧ ∃ t, s.deleteRaw = .ok t ∧ Holds pb pb.newMsg t) := by
  unfold TxnStore.deleteRaw
  cases h with
  | unset | null =>
    refine .inr ⟨?_, _, rfl, .unset⟩
    rintro ⟨a, ha, -⟩
    simp [TxnStore.data_] at ha
  | @stored heap a _ hget hne =>
    obtain ⟨heap', hfree, -⟩ := Heap.free_some hget
    refine .inr ⟨?_, ⟨none, heap'⟩, ?_, .unset⟩
    · rintro ⟨b, hb, hnone⟩
      obtain rfl : a = b := Option.some.inj hb
      exact absurd (hget.symm.trans hnone) (by simp)
    · simp [freeData, hfree, Except.map]
  | @dangling heap a hget =>
    refine .inl ⟨⟨a, rfl, hget⟩, ?_⟩
    simp [freeData, Heap.free_none hget, Except.map]

/-! ### One step -/

variable (pb) in
/-- The message that a step leaves; `pack` is the end of the transaction. -/
def leave (b : DataStep M) (m : M) : M := if b.entry = .pack then pb.newMsg else b.left m

variable (pb) in
/-- The condition on a step that finds the message `m`:
    * the raw data are not deleted, nor stored over, when they point to a freed buffer, unless
      `calloc` hands out the same address for what is stored;
    * in C++, a callback does not throw, and the changes made through the last reference are all
      that counts;
    * in Python, an exception ends only a function that changed nothing, and the message is not
      made empty. -/
structure KeepsMsg (m : M) (s : TxnStore) (host : Host) (b : DataStep M) : Prop where
  pack : b.entry = .pack → ¬ s.Dangling
  caught : host.lang = .cpp → b.entry = .callback → b.raised = false
  cpp : host.lang = .cpp → b.entry ≠ .pack → 0 < b.calls →
    b.viaLast m = b.left m ∧ (s.Dangling → b.left m ≠ pb.newMsg ∧ host.Reuses s)
  raised : host.lang = .python → b.entry ≠ .pack → b.raised = true → b.left m = m
  python : host.lang = .python → b.entry ≠ .pack → b.raised = false → 0 < b.calls →
    (b.left m = pb.newMsg → m = pb.newMsg) ∧
      (b.left m ≠ pb.newMsg → s.Dangling → host.Reuses s)

/-- How a step ends: it breaks down, or it leaves some message. -/
inductive StepEnds (pb : Protobuf M) (m : M) (s : TxnStore) (host : Host) (b : DataStep M) : Prop
  | fault (f : UserFault) (hstep : s.step pb host b = .error f)
    (hbad : s.Dangling ∨ b.entry = .callback) (hk : ¬ KeepsMsg pb m s host b)
  | leaves (t : TxnStore) (m' : M) (hstep : s.step pb host b = .ok t) (ht : Holds pb m' t)
      (hk : KeepsMsg pb m s host b ↔ m' = leave pb b m)

variable {host : Host} {b : DataStep M}

/-- A function in C++ ends in the destructor. -/
theorem Holds.step_cpp (h : Holds pb m s) (hlang : host.lang = .cpp) (hpack : b.entry ≠ .pack)
    (hcaught : ¬ (b.entry = .callback ∧ b.raised = true)) :
    s.step pb host b = TxnImp.destroy pb false host.alloc
      { msgs := DataOp.messages m b.ops } (if b.calls = 0 then s else s.touch) := by
  unfold TxnStore.step DataStep.runCpp
  simp only [hlang, h.ops_cpp, hcaught, hpack, if_false, decide_false]
  rfl

/-- A function in Python ends in `storeMsgData` or in an exception. -/
theorem Holds.step_python (h : Holds pb m s) (hlang : host.lang = .python)
    (hpack : b.entry ≠ .pack) :
    s.step pb host b = if b.raised then .ok s else PyTxn.storeMsgData pb host.alloc
      ⟨if b.calls = 0 then none else some (b.left m)⟩ s := by
  unfold TxnStore.step DataStep.runPython
  simp only [hlang, h.ops_python, hpack, if_false]
  rfl

/-- A function that does not call `data()` leaves the user data as they are. -/
theorem Holds.step_unopened (h : Holds pb m s) (hpack : b.entry ≠ .pack)
    (hcaught : ¬ (b.entry = .callback ∧ b.raised = true)) (hcalls : b.calls = 0) :
    s.step pb host b = .ok s := by
  cases hlang : host.lang with
  | cpp =>
    rw [h.step_cpp hlang hpack hcaught, DataStep.messages_nil hcalls, if_pos hcalls]
    rfl
  | python =>
    rw [h.step_python hlang hpack, if_pos hcalls]
    split <;> rfl

/-- A function that calls `data()` leaves user data. -/
theorem Holds.step_opened (h : Holds pb m s) (hpack : b.entry ≠ .pack) (hraised : b.raised = false)
    (hpos : 0 < b.calls) {t : TxnStore} (hstep : s.step pb host b = .ok t) : t.udata ≠ none := by
  have hcalls : b.calls ≠ 0 := Nat.ne_of_gt hpos
  cases hlang : host.lang with
  | cpp =>
    rw [h.step_cpp hlang hpack (by simp [hraised]), if_neg hcalls] at hstep
    unfold TxnImp.destroy at hstep
    simp only [Bool.false_eq_true, if_false, TxnImp.msg_, DataStep.getLast?_messages hpos,
      TxnStore.touch] at hstep
    split at hstep <;> obtain ⟨p, -, rfl⟩ := except_map_ok.mp hstep <;> simp
  | python =>
    rw [h.step_python hlang hpack, if_neg (by simp [hraised]), if_neg hcalls] at hstep
    simp only [PyTxn.storeMsgData, pyTxnSet] at hstep
    split at hstep
    · obtain ⟨p, -, rfl⟩ := except_map_ok.mp hstep
      simp
    · obtain rfl := Except.ok.inj hstep
      simp

/-- A function in C++ that stores back. -/
theorem Holds.store_cpp (h : Holds pb m s) (hlang : host.lang = .cpp) (hpack : b.entry ≠ .pack)
    (hcaught : ¬ (b.entry = .callback ∧ b.raised = true)) : StepEnds pb m s host b := by
  have hstep := h.step_cpp hlang hpack hcaught
  have hleave : leave pb b m = b.left m := if_neg hpack
  by_cases hcalls : b.calls = 0
  · -- `data()` is not called: the user data are not touched
    refine .leaves s m (h.step_unopened hpack hcaught hcalls) h ?_
    · rw [hleave, b.left_of_calls_zero hcalls]
      exact ⟨fun _ => rfl, fun _ => ⟨fun hc => absurd hc hpack,
        fun _ hc => by simpa using fun hr => hcaught ⟨hc, hr⟩, fun _ _ hpos => by omega,
        fun hc => by simp [hlang] at hc, fun hc => by simp [hlang] at hc⟩⟩
  · have hpos : 0 < b.calls := Nat.pos_of_ne_zero hcalls
    have hlast := DataStep.getLast?_messages (m := m) hpos
    have hk : KeepsMsg pb m s host b ↔
        b.viaLast m = b.left m ∧ (s.Dangling → b.left m ≠ pb.newMsg ∧ host.Reuses s) :=
      ⟨fun hk => hk.cpp hlang hpack hpos, fun hk => ⟨fun hc => absurd hc hpack,
        fun _ hc => by simpa using fun hr => hcaught ⟨hc, hr⟩, fun _ _ _ => hk,
        fun hc => by simp [hlang] at hc, fun hc => by simp [hlang] at hc⟩⟩
    have hreuse : host.Reuses s.touch ↔ host.Reuses s := by simp [Host.Reuses]
    rw [if_neg hcalls] at hstep
    unfold TxnImp.destroy at hstep
    simp only [Bool.false_eq_true, if_false, TxnImp.msg_, hlast] at hstep
    by_cases hnil : pb.serialize (b.viaLast m) = []
    · -- the last message is the default one, which has no bytes
      have hnew : b.viaLast m = pb.newMsg := pb.serialize_eq_nil.mp hnil
      simp only [TxnStore.touch, hnil, List.length_nil, if_true] at hstep
      rcases reset_null pb (s := s.touch) rfl hstep.symm with ⟨hd, hr⟩ | ⟨hd, t, hr, ht⟩
      · rw [TxnStore.dangling_touch] at hd
        refine .fault _ hr (.inl hd) fun hc => ?_
        obtain ⟨heq, hover⟩ := hk.mp hc
        exact (hover hd).1 (heq ▸ hnew)
      · rw [TxnStore.dangling_touch] at hd
        refine .leaves t _ hr ht ?_
        rw [hk, hleave, ← hnew]
        exact ⟨fun hc => hc.1, fun hc => ⟨hc, fun hd' => absurd hd' hd⟩⟩
    · have hnew : b.viaLast m ≠ pb.newMsg := fun hc => hnil (pb.serialize_eq_nil.mpr hc)
      -- the last message has bytes, and is stored
      have hlen : (pb.serialize (b.viaLast m)).length ≠ 0 := fun hz =>
        hnil (List.eq_nil_of_length_eq_zero hz)
      simp only [TxnStore.touch, if_neg hlen] at hstep
      rcases reset_bytes (s := s.touch) rfl hnil hstep.symm with
        ⟨hd, hr, herr⟩ | ⟨hd, t, hr, ht⟩
      · rw [TxnStore.dangling_touch] at hd
        rw [hreuse] at hr
        exact .fault _ herr (.inl hd) fun hc => hr ((hk.mp hc).2 hd).2
      · rw [TxnStore.dangling_touch, hreuse] at hd
        refine .leaves t _ hr ht ?_
        rw [hk, hleave]
        exact ⟨fun hc => hc.1, fun hc => ⟨hc, fun hd' => ⟨hc ▸ hnew, hd hd'⟩⟩⟩

/-- A function in Python that may store back. -/
theorem Holds.store_python (h : Holds pb m s) (hlang : host.lang = .python)
    (hpack : b.entry ≠ .pack) : StepEnds pb m s host b := by
  have hstep := h.step_python hlang hpack
  have hleave : leave pb b m = b.left m := if_neg hpack
  by_cases hraised : b.raised = true
  · -- the changes are lost
    refine .leaves s m (by rw [hstep, if_pos hraised]) h ?_
    rw [hleave]
    exact ⟨fun hk => (hk.raised hlang hpack hraised).symm, fun hm => ⟨fun hc => absurd hc hpack,
      fun hc => by simp [hlang] at hc, fun hc => by simp [hlang] at hc, fun _ _ _ => hm.symm,
      fun _ _ hc => by simp [hraised] at hc⟩⟩
  · rw [if_neg hraised] at hstep
    have hnot : b.raised = false := by simpa using hraised
    by_cases hcalls : b.calls = 0
    · -- `data()` is not called
      refine .leaves s m (h.step_unopened hpack (by simp [hnot]) hcalls) h ?_
      · rw [hleave, b.left_of_calls_zero hcalls]
        exact ⟨fun _ => rfl, fun _ => ⟨fun hc => absurd hc hpack,
          fun hc => by simp [hlang] at hc, fun hc => by simp [hlang] at hc,
          fun _ _ hc => absurd hc hraised, fun _ _ _ hpos => by omega⟩⟩
    · have hpos : 0 < b.calls := Nat.pos_of_ne_zero hcalls
      have hk : KeepsMsg pb m s host b ↔ (b.left m = pb.newMsg → m = pb.newMsg) ∧
          (b.left m ≠ pb.newMsg → s.Dangling → host.Reuses s) :=
        ⟨fun hk => hk.python hlang hpack hnot hpos, fun hk => ⟨fun hc => absurd hc hpack,
          fun hc => by simp [hlang] at hc, fun hc => by simp [hlang] at hc,
          fun _ _ hc => absurd hc hraised, fun _ _ _ _ => hk⟩⟩
      rw [if_neg hcalls] at hstep
      by_cases hnil : pb.serialize (b.left m) = []
      · -- nothing is stored
        have hnew : b.left m = pb.newMsg := pb.serialize_eq_nil.mp hnil
        refine .leaves s.touch m ?_ h.touch ?_
        · rw [hstep]
          simp [PyTxn.storeMsgData, pyTxnSet, hnil, TxnStore.touch]
        · rw [hk, hleave, hnew]
          exact ⟨fun hc => hc.1 rfl, fun hc => ⟨fun _ => hc, fun hne => absurd rfl hne⟩⟩
      · have hnew : b.left m ≠ pb.newMsg := fun hc => hnil (pb.serialize_eq_nil.mpr hc)
        have hlen : 0 < (pb.serialize (b.left m)).length := List.length_pos_of_ne_nil hnil
        simp only [PyTxn.storeMsgData, pyTxnSet, gt_iff_lt, hlen, if_true] at hstep
        rcases reset_bytes (s := s.touch) rfl hnil hstep.symm with
          ⟨hd, hr, herr⟩ | ⟨hd, t, hr, ht⟩
        · rw [TxnStore.dangling_touch] at hd
          exact .fault _ herr (.inl hd) fun hc => hr (by simpa [Host.Reuses] using (hk.mp hc).2 hnew hd)
        · rw [TxnStore.dangling_touch] at hd
          refine .leaves t _ hr ht ?_
          rw [hk, hleave]
          exact ⟨fun _ => rfl, fun _ => ⟨fun hc => absurd hc hnew,
            fun _ hd' => by simpa [Host.Reuses] using hd hd'⟩⟩

/-- `pack` in either language. -/
theorem Holds.packs (h : Holds pb m s) (hpack : b.entry = .pack) : StepEnds pb m s host b := by
  -- the leaving of `pack` deletes the data
  have hleave : leave pb b m = pb.newMsg := if_pos hpack
  have hk : KeepsMsg pb m s host b ↔ ¬ s.Dangling :=
    ⟨fun hk => hk.pack hpack, fun hd => ⟨fun _ => hd, fun _ hc => by simp [hpack] at hc,
      fun _ hc => absurd hpack hc, fun _ hc => absurd hpack hc, fun _ hc => absurd hpack hc⟩⟩
  -- in both languages nothing else is left of it
  obtain ⟨s', hs', hdang, hstep⟩ : ∃ s', Holds pb m s' ∧ (s'.Dangling ↔ s.Dangling) ∧
      s.step pb host b = s'.deleteRaw := by
    unfold TxnStore.step
    cases host.lang with
    | cpp =>
      refine ⟨if DataOp.calls b.ops = 0 then s else s.touch, ?_, ?_, ?_⟩
      · split
        · exact h
        · exact h.touch
      · split
        · exact Iff.rfl
        · exact TxnStore.dangling_touch
      · simp [DataStep.runCpp, h.ops_cpp, hpack, TxnImp.destroy]
    | python =>
      refine ⟨s, h, Iff.rfl, ?_⟩
      simp [DataStep.runPython, h.ops_python, hpack, PyTxn.destroyMsgData, pyTxnSet]
  -- the data was deleted already, or is deleted now
  rcases hs'.deleteRaw with ⟨hd, hr⟩ | ⟨hd, t, hr, ht⟩
  · exact .fault _ (hstep.trans hr) (.inl (hdang.mp hd)) fun hc => hk.mp hc (hdang.mp hd)
  · refine .leaves t _ (hstep.trans hr) ht ?_
    rw [hk, hleave]
    exact ⟨fun _ => rfl, fun _ hd' => hd (hdang.mpr hd')⟩

/-- **Step lemma.**  A step leaves the message it should exactly when it meets the condition. -/
theorem Holds.step_ends (h : Holds pb m s) (host : Host) (b : DataStep M) :
    StepEnds pb m s host b := by
  by_cases hpack : b.entry = .pack
  · exact h.packs hpack
  · cases hlang : host.lang with
    | python => exact h.store_python hlang hpack
    | cpp =>
      by_cases hc : b.entry = .callback ∧ b.raised = true
      · -- an exception that nobody catches
        refine .fault .terminate ?_ (.inr hc.1) fun hk => ?_
        · unfold TxnStore.step DataStep.runCpp
          simp [hlang, h.ops_cpp, hc]
        · exact absurd ((hk.caught hlang hc.1).symm.trans hc.2) (by simp)
      · exact h.store_cpp hlang hpack hc

end Skull
