import Mathlib.Algebra.BigOperators.Group.List.Basic
import Mathlib.Algebra.Order.Ring.Abs
import Mathlib.Algebra.Order.Ring.Int
import Mathlib.Data.Int.ModEq
import Mathlib.Tactic.Common
import Mathlib.Tactic.Ring

namespace Skull

/-!
# The messages of the scheduler (`sk_pto`)

A message is a header and its arguments, eight bytes each; the header has a checksum of the
arguments:

* `ptoTbl` — the table of the protocols;
* `PtoMsg.pack`, `PtoMsg.arg`, `PtoMsg.check` — `sk_pto_pack`, `sk_pto_arg` and `sk_pto_check`;
* `checksum_modEq` — the checksum is the sum of the bytes as signed characters, where zero counts
  as one, times the salt of the protocol;
* `PtoMsg.arg_pack`, `PtoMsg.check_pack` — what was packed is read back and accepted;
* `PtoMsg.detects_iff` — a modified byte is detected unless a zero becomes a one, or a one a zero.
-/

/-! ### The protocols -/

/-- `sk_proto_t`, without its operations. -/
structure Proto where
  id : Nat
  pri : Nat
  argc : Nat
  salt : Nat
  deriving DecidableEq, Repr

/-- `SK_PTO_MAX`. -/
def ptoMax : Nat := 12

/-- `sk_pto_tbl`. -/
def ptoTbl : List Proto :=
  [⟨0, 7, 1, 10⟩,   -- SK_PTO_TCP_ACCEPT
   ⟨1, 5, 0, 11⟩,   -- SK_PTO_WORKFLOW_RUN
   ⟨2, 9, 0, 12⟩,   -- SK_PTO_ENTITY_DESTROY
   ⟨3, 6, 5, 13⟩,   -- SK_PTO_SVC_IOCALL
   ⟨4, 4, 5, 14⟩,   -- SK_PTO_SVC_TASK_RUN
   ⟨5, 6, 3, 15⟩,   -- SK_PTO_SVC_TASK_DONE
   ⟨6, 8, 3, 16⟩,   -- SK_PTO_TIMER_TRIGGERED
   ⟨7, 8, 7, 17⟩,   -- SK_PTO_TIMER_EMIT
   ⟨8, 7, 0, 18⟩,   -- SK_PTO_STD_START
   ⟨9, 8, 6, 19⟩,   -- SK_PTO_SVC_TIMER_RUN
   ⟨10, 8, 3, 20⟩,  -- SK_PTO_SVC_TIMER_DONE
   ⟨11, 6, 5, 21⟩,  -- SK_PTO_SVC_TASK_CB
   ⟨12, 0, 0, 0⟩]   -- SK_PTO_MAX

/-- Every protocol is at its own number, and its salt is small and not zero. -/
theorem ptoTbl_spec : ∀ pto ∈ ptoTbl, ptoTbl[pto.id]? = some pto ∧ pto.id ≤ ptoMax ∧
    (pto.argc ≠ 0 → pto.id < ptoMax ∧ 0 < pto.salt ∧ pto.salt ≤ 21) := by
  decide

/-! ### The checksum -/

/-- A byte as a `char`, which is signed. -/
def charVal (c : UInt8) : Int := if c.toNat < 128 then c.toNat else c.toNat - 256

/-- The `uc` of `_checksum`: a `char` converted to `uint32_t`, where zero becomes one. -/
def checkVal (c : UInt8) : Nat :=
  if charVal c = 0 then 1 else (charVal c % 2 ^ 32).toNat

/-- The loop of `_checksum`, on 32-bit integers. -/
def checksumLoop (salt : Nat) : List UInt8 → Nat → Nat
  | [], checksum => checksum
  | c :: data, checksum =>
    checksumLoop salt data ((checksum + checkVal c * salt % 2 ^ 32) % 2 ^ 32)

/-- The macro `checksum`, which cuts `_checksum` to 16 bits. -/
def checksum (data : List UInt8) (salt : Nat) : Nat :=
  if data = [] then 0 else checksumLoop salt data 0 % 2 ^ 16

/-- What a byte counts. -/
def byteVal (c : UInt8) : Int := if charVal c = 0 then 1 else charVal c

/-- What is added for a byte, modulo the register. -/
theorem checkVal_modEq (c : UInt8) : (checkVal c : Int) ≡ byteVal c [ZMOD 2 ^ 32] := by
  unfold checkVal byteVal
  split
  · rfl
  · rw [Int.toNat_of_nonneg (Int.emod_nonneg _ (by decide))]
    exact Int.mod_modEq _ _

/-- The loop adds the bytes, times the salt, modulo the register. -/
theorem checksumLoop_modEq (salt : Nat) (data : List UInt8) : ∀ acc : Nat,
    (checksumLoop salt data acc : Int) ≡ acc + (data.map byteVal).sum * salt [ZMOD 2 ^ 32] := by
  induction data with
  | nil =>
    intro acc
    simp only [checksumLoop, List.map_nil, List.sum_nil, Int.zero_mul, Int.add_zero]
    rfl
  | cons c data ih =>
    intro acc
    rw [checksumLoop]
    have hturn : (((acc + checkVal c * salt % 2 ^ 32) % 2 ^ 32 : Nat) : Int) ≡
        acc + byteVal c * salt [ZMOD 2 ^ 32] := by
      push_cast
      refine (Int.mod_modEq _ _).trans ?_
      apply Int.ModEq.add_left
      exact (Int.mod_modEq _ _).trans ((checkVal_modEq c).mul_right _)
    refine (ih _).trans ((hturn.add_right _).trans ?_)
    have hsum : ((acc : Int) + byteVal c * salt) + (data.map byteVal).sum * salt =
        acc + ((c :: data).map byteVal).sum * salt := by
      rw [List.map_cons, List.sum_cons]
      ring
    rw [hsum]

/-- **The checksum** is the sum of what the bytes count, times the salt, in 16 bits. -/
theorem checksum_modEq (data : List UInt8) (salt : Nat) :
    (checksum data salt : Int) ≡ (data.map byteVal).sum * salt [ZMOD 2 ^ 16] := by
  unfold checksum
  split
  · rename_i hnil
    simp only [hnil, List.map_nil, List.sum_nil, Int.zero_mul]
    rfl
  · have hloop := checksumLoop_modEq salt data 0
    rw [Nat.cast_zero, Int.zero_add] at hloop
    push_cast
    refine (Int.mod_modEq _ _).trans (hloop.of_dvd ?_)
    exact ⟨2 ^ 16, by decide⟩

/-- The checksum has 16 bits. -/
theorem checksum_lt (data : List UInt8) (salt : Nat) : checksum data salt < 2 ^ 16 := by
  unfold checksum
  split
  · decide
  · exact Nat.mod_lt _ (by decide)

/-- What a byte counts tells it, but for zero and one. -/
theorem byteVal_eq_iff (b c : UInt8) :
    byteVal b = byteVal c ↔ b = c ∨ b = 0 ∧ c = 1 ∨ b = 1 ∧ c = 0 := by
  have hb := b.toNat_lt
  have hc := c.toNat_lt
  have heq : ∀ x y : UInt8, x = y ↔ x.toNat = y.toNat := fun x y => UInt8.toNat_inj.symm
  simp only [heq, UInt8.toNat_zero, UInt8.toNat_one, byteVal, charVal]
  split <;> split <;> split <;> split <;> omega

/-- What a byte counts is small. -/
theorem byteVal_bound (c : UInt8) : -128 ≤ byteVal c ∧ byteVal c ≤ 127 := by
  have hc := c.toNat_lt
  unfold byteVal charVal
  split <;> split <;> omega

/-- **One byte changes**: the checksum stays the same exactly when the byte counts the same. -/
theorem checksum_set {data : List UInt8} {k : Nat} (hk : k < data.length) (c : UInt8) {salt : Nat}
    (hpos : 0 < salt) (hsalt : salt ≤ 21) :
    checksum (data.set k c) salt = checksum data salt ↔ byteVal data[k] = byteVal c := by
  have hsum : ((data.set k c).map byteVal).sum =
      (data.map byteVal).sum + (byteVal c - byteVal data[k]) := by
    have hlen : k < (data.map byteVal).length := by rw [List.length_map]; exact hk
    rw [List.map_set, List.sum_set', dif_pos hlen, List.getElem_map]
    ring
  have hnew := checksum_modEq (data.set k c) salt
  have hold := checksum_modEq data salt
  rw [hsum] at hnew
  have hb := byteVal_bound data[k]
  have hc := byteVal_bound c
  constructor
  · intro heq
    -- the difference is a multiple of 2 ^ 16 and less than that
    rw [heq] at hnew
    have hdvd := (hold.symm.trans hnew).dvd
    have hdiff : ((data.map byteVal).sum + (byteVal c - byteVal data[k])) * (salt : Int) -
        (data.map byteVal).sum * salt = (byteVal c - byteVal data[k]) * salt := by ring
    rw [hdiff] at hdvd
    have hzero : (byteVal c - byteVal data[k]) * (salt : Int) = 0 := by
      apply Int.eq_zero_of_abs_lt_dvd hdvd
      rw [abs_mul, Nat.abs_cast]
      have habs : |byteVal c - byteVal data[k]| ≤ 255 := abs_le.mpr ⟨by omega, by omega⟩
      calc |byteVal c - byteVal data[k]| * (salt : Int) ≤ 255 * 21 :=
            Int.mul_le_mul habs (by omega) (by omega) (by decide)
        _ < 2 ^ 16 := by decide
    rcases Int.mul_eq_zero.mp hzero with h | h <;> omega
  · intro heq
    rw [heq, Int.sub_self, Int.add_zero] at hnew
    have hmod := hnew.trans hold.symm
    have hlt := checksum_lt (data.set k c) salt
    have hlt' := checksum_lt data salt
    have := Int.ModEq.eq hmod
    omega

/-! ### Messages -/

/-- A message: its header and the bytes behind it. -/
structure PtoMsg where
  id : Nat
  argc : Nat
  chk : Nat
  body : List UInt8
  deriving DecidableEq, Repr

/-- The assertions of `sk_pto.c`. -/
inductive PtoFault
  /-- `id == pto->id` in `sk_pto_pack`. -/
  | packId
  /-- `id < SK_PTO_MAX`. -/
  | idRange
  /-- `id == hdr->id`. -/
  | idMismatch
  /-- `idx < pto->argc` in `sk_pto_arg`. -/
  | argIdx
  deriving DecidableEq, Repr

/-- `SK_PTO_ARGSZ`. -/
def ptoArgSz : Nat := 8

/-- The bytes of an argument, the lowest one first. -/
def argBytes (arg : UInt64) : List UInt8 :=
  (List.range ptoArgSz).map fun k => UInt8.ofNat (arg.toNat / 256 ^ k)

/-- The argument that some bytes hold. -/
def bytesArg (bytes : List UInt8) : UInt64 :=
  UInt64.ofNat (bytes.foldr (fun c n => c.toNat + 256 * n) 0)

namespace PtoMsg

/-- The loop of `sk_pto_pack`, from the argument `i` on; `args` are the variable arguments. -/
def packArgs (args : Nat → UInt64) (i : Nat) : Nat → List UInt8
  | 0 => []
  | argc + 1 => argBytes (args i) ++ packArgs args (i + 1) argc

/-- `sk_pto_pack`. -/
def pack (id : Nat) (args : Nat → UInt64) : Except PtoFault PtoMsg :=
  match ptoTbl[id]? with
  | none => .error .packId
  | some pto =>
    if id ≠ pto.id then .error .packId
    else
      let body := packArgs args 0 pto.argc
      .ok { id := id % 2 ^ 8, argc := pto.argc, chk := checksum body pto.salt % 2 ^ 16, body }

/-- The checks on the id of a message, and its protocol. -/
def proto (id : Nat) (hdr : PtoMsg) : Except PtoFault Proto :=
  if id ≥ ptoMax then .error .idRange
  else if id ≠ hdr.id then .error .idMismatch
  else
    match ptoTbl[hdr.id]? with
    | none => .error .idRange
    | some pto => .ok pto

/-- `sk_pto_arg`: the argument at the address it returns, or `none` for the null pointer. -/
def arg (id : Nat) (hdr : PtoMsg) (idx : Nat) : Except PtoFault (Option UInt64) :=
  if hdr.argc = 0 then .ok none
  else
    (proto id hdr).bind fun pto =>
      if idx ≥ pto.argc then .error .argIdx
      else .ok (some (bytesArg ((hdr.body.drop (ptoArgSz * idx)).take ptoArgSz)))

/-- `sk_pto_check`. -/
def check (id : Nat) (hdr : PtoMsg) : Except PtoFault Bool :=
  if hdr.argc = 0 then .ok true
  else
    (proto id hdr).bind fun pto =>
      .ok (hdr.chk = checksum (hdr.body.take (ptoArgSz * hdr.argc)) pto.salt)

/-- The message with another byte at `k`. -/
def modify (hdr : PtoMsg) (k : Nat) (c : UInt8) : PtoMsg := { hdr with body := hdr.body.set k c }

/-! ### Packing and reading -/

/-- An argument takes eight bytes. -/
theorem argBytes_length (arg : UInt64) : (argBytes arg).length = ptoArgSz := by
  simp [argBytes]

/-- The bytes of an argument hold it. -/
theorem bytesArg_argBytes (arg : UInt64) : bytesArg (argBytes arg) = arg := by
  have hlt := arg.toNat_lt
  have hrange : List.range ptoArgSz = [0, 1, 2, 3, 4, 5, 6, 7] := by decide
  have hbyte : ∀ n : Nat, (UInt8.ofNat n).toNat = n % 256 := fun n => UInt8.toNat_ofNat
  rw [bytesArg, argBytes, hrange, ← UInt64.toNat_inj, UInt64.toNat_ofNat']
  simp only [List.map_cons, List.map_nil, List.foldr_cons, List.foldr_nil, hbyte, Nat.reducePow,
    Nat.div_one]
  omega

/-- So many arguments take eight bytes each. -/
theorem packArgs_length (args : Nat → UInt64) (argc : Nat) :
    ∀ i, (packArgs args i argc).length = ptoArgSz * argc := by
  induction argc with
  | zero => intro i; rfl
  | succ argc ih =>
    intro i
    rw [packArgs, List.length_append, argBytes_length, ih, Nat.mul_succ, Nat.add_comm]

/-- The bytes of the argument `idx`. -/
theorem packArgs_drop (args : Nat → UInt64) (argc : Nat) : ∀ i idx, idx < argc →
    ((packArgs args i argc).drop (ptoArgSz * idx)).take ptoArgSz = argBytes (args (i + idx)) := by
  induction argc with
  | zero => intro i idx hidx; exact absurd hidx (Nat.not_lt_zero _)
  | succ argc ih =>
    intro i idx hidx
    rw [packArgs]
    cases idx with
    | zero =>
      rw [Nat.mul_zero, List.drop_zero, List.take_left' (argBytes_length _)]
      rfl
    | succ idx =>
      have hdrop : ptoArgSz * (idx + 1) = (argBytes (args i)).length + ptoArgSz * idx := by
        rw [argBytes_length, Nat.mul_succ, Nat.add_comm]
      rw [hdrop, List.drop_append, List.drop_eq_nil_of_le (Nat.le_add_right _ _), List.nil_append,
        Nat.add_sub_cancel_left, ih (i + 1) idx (by omega)]
      congr 2
      omega

section Protocol

variable {pto : Proto} (args : Nat → UInt64)

/-- The message of a protocol. -/
def packed (pto : Proto) (args : Nat → UInt64) : PtoMsg where
  id := pto.id
  argc := pto.argc
  chk := checksum (packArgs args 0 pto.argc) pto.salt
  body := packArgs args 0 pto.argc

/-- Packing a message of the table. -/
theorem pack_eq (hpto : pto ∈ ptoTbl) : pack pto.id args = .ok (packed pto args) := by
  obtain ⟨hat, hid, -⟩ := ptoTbl_spec pto hpto
  have hmax : ptoMax = 12 := rfl
  have hchk := checksum_lt (packArgs args 0 pto.argc) pto.salt
  simp only [pack, hat, ne_eq, not_true_eq_false, if_false, packed]
  rw [Nat.mod_eq_of_lt (by omega), Nat.mod_eq_of_lt hchk]

/-- The header names its entry of the table. -/
theorem proto_eq (hpto : pto ∈ ptoTbl) (hargc : pto.argc ≠ 0) {hdr : PtoMsg}
    (hhdr : hdr.id = pto.id) : proto pto.id hdr = .ok pto := by
  obtain ⟨hat, -, hlt⟩ := ptoTbl_spec pto hpto
  have hid : ¬ pto.id ≥ ptoMax := Nat.not_le.mpr (hlt hargc).1
  simp only [proto, hid, if_false, hhdr, ne_eq, not_true_eq_false, hat]

/-- **What was packed is read back.** -/
theorem arg_pack (hpto : pto ∈ ptoTbl) {idx : Nat} (hidx : idx < pto.argc) :
    arg pto.id (packed pto args) idx = .ok (some (args idx)) := by
  have hargc : pto.argc ≠ 0 := Nat.ne_of_gt (Nat.zero_lt_of_lt hidx)
  have hne : ¬ (packed pto args).argc = 0 := hargc
  rw [arg, if_neg hne, proto_eq hpto hargc rfl]
  show (if idx ≥ pto.argc then _ else _) = _
  rw [if_neg (Nat.not_le.mpr hidx)]
  show Except.ok (some (bytesArg (((packArgs args 0 pto.argc).drop _).take _))) = _
  rw [packArgs_drop args pto.argc 0 idx hidx, bytesArg_argBytes, Nat.zero_add]

/-- The check of a message of a protocol, whatever its bytes. -/
theorem check_eq (hpto : pto ∈ ptoTbl) (hargc : pto.argc ≠ 0) {hdr : PtoMsg}
    (hhdr : hdr.id = pto.id) (hhdrc : hdr.argc = pto.argc)
    (hlen : hdr.body.length = ptoArgSz * pto.argc) :
    check pto.id hdr = .ok (hdr.chk = checksum hdr.body pto.salt) := by
  rw [check, if_neg (by rw [hhdrc]; exact hargc), proto_eq hpto hargc hhdr]
  show Except.ok (decide (_ = checksum (hdr.body.take _) _)) = _
  rw [hhdrc, ← hlen, List.take_length]

/-- **What was packed is accepted.** -/
theorem check_pack (hpto : pto ∈ ptoTbl) (hargc : pto.argc ≠ 0) :
    check pto.id (packed pto args) = .ok true := by
  rw [check_eq hpto hargc rfl rfl (packArgs_length args pto.argc 0)]
  simp [packed]

end Protocol

/-- **What is promised of a message**: it is accepted, its arguments are read back, and it is
    rejected with another byte at `k`. -/
structure Detects (pto : Proto) (args : Nat → UInt64) (k : Nat) (c : UInt8) : Prop where
  packs : pack pto.id args = .ok (packed pto args)
  accepted : check pto.id (packed pto args) = .ok true
  returned : ∀ idx < pto.argc, arg pto.id (packed pto args) idx = .ok (some (args idx))
  rejected : (packed pto args).body[k]? ≠ some c →
    check pto.id ((packed pto args).modify k c) = .ok false

/-- **When a modified byte is detected**: unless it was zero and becomes one, or was one and
    becomes zero. -/
theorem detects_iff {pto : Proto} (hpto : pto ∈ ptoTbl) (hargc : pto.argc ≠ 0)
    (args : Nat → UInt64) {k : Nat} (hk : k < ptoArgSz * pto.argc) (c : UInt8) :
    Detects pto args k c ↔ ¬ ((packed pto args).body[k]? = some 0 ∧ c = 1 ∨
      (packed pto args).body[k]? = some 1 ∧ c = 0) := by
  obtain ⟨-, -, hrest⟩ := ptoTbl_spec pto hpto
  obtain ⟨-, hpos, hsalt⟩ := hrest hargc
  set body := packArgs args 0 pto.argc with hbody
  have hlen : body.length = ptoArgSz * pto.argc := packArgs_length args pto.argc 0
  have hk' : k < body.length := by rw [hlen]; exact hk
  have hget : (packed pto args).body[k]? = some body[k] := List.getElem?_eq_getElem hk'
  have hcheck : check pto.id ((packed pto args).modify k c) =
      .ok (checksum body pto.salt = checksum (body.set k c) pto.salt) :=
    check_eq hpto hargc rfl rfl (by show (body.set k c).length = _; rw [List.length_set, hlen])
  have hset := checksum_set hk' c hpos hsalt
  -- a change is seen if and only if the byte adds another value, and 0 counts as 1
  have hval := byteVal_eq_iff body[k] c
  rw [hget]
  simp only [Option.some.injEq]
  constructor
  · -- the one change that keeps the sum
    intro h hflip
    have hrejected := h.rejected (by
      rw [hget]
      rcases hflip with ⟨h₀, h₁⟩ | ⟨h₁, h₀⟩ <;> simp [h₀, h₁])
    rw [hcheck, hset.mpr (hval.mpr (.inr hflip))] at hrejected
    simp at hrejected
  · -- any other one changes it
    intro hflip
    refine ⟨pack_eq args hpto, check_pack args hpto hargc, fun idx hidx => arg_pack args hpto hidx,
      fun hne => ?_⟩
    have hdiff : ¬ byteVal body[k] = byteVal c := by
      rw [hval, not_or]
      refine ⟨fun heq => hne (by rw [hget, heq]), hflip⟩
    rw [hcheck, decide_eq_false (fun heq => hdiff (hset.mp heq.symm))]

/-- `SK_PTO_SVC_TASK_DONE`. -/
def svcTaskDone : Proto := ⟨5, 6, 3, 15⟩

/-- A service name, `resume_wf` and `svc_task_done`. -/
def taskDoneArgs (idx : Nat) : UInt64 := if idx = 0 then 4096 else if idx = 1 then 1 else 0

/-- The workflow is resumed or not: the check does not tell. -/
theorem resume_undetected : ¬ ∀ pto ∈ ptoTbl, pto.argc ≠ 0 → ∀ args k c,
    k < ptoArgSz * pto.argc → Detects pto args k c := by
  intro hall
  have hdetects := hall svcTaskDone (by decide) (by decide) taskDoneArgs 8 0 (by decide)
  have hrejected := hdetects.rejected (by decide)
  exact absurd hrejected (by decide)

/-- Another boolean is detected. -/
theorem resume_detects : Detects svcTaskDone taskDoneArgs 8 2 ↔
    ¬ ((packed svcTaskDone taskDoneArgs).body[8]? = some 0 ∧ (2 : UInt8) = 1 ∨
      (packed svcTaskDone taskDoneArgs).body[8]? = some 1 ∧ (2 : UInt8) = 0) :=
  detects_iff (by decide) (by decide) taskDoneArgs (by decide) 2

end PtoMsg

end Skull
