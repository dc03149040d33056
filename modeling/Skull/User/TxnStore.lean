import Skull.Lib.Heap
import Skull.Lib.Machine

namespace Skull

open Machines Heaps

/-!
# The transaction data in the language layers

Modules in C++ and in Python share one message with each other: it is kept in the transaction as
binary data, and each language layer parses it for the user and stores it back:

* `Protobuf` — what the layers use of a message type;
* `TxnSharedRawData` — the binary data, the same class in both layers, and `TxnStore`, the user
  data of the transaction with the heap;
* `TxnImp` — the C++ transaction: `TxnImp.data`, `TxnImp.destroy`;
* `PyTxn` — the Python transaction: `PyTxn.data`, `PyTxn.storeMsgData`, `PyTxn.destroyMsgData`;
* `DataStep` — one entry function or callback of the user, and `TxnStore.step`, which runs it in
  the layer of its language.
-/

/-- A message type: an empty message, and how messages are written as bytes and read back. -/
structure Protobuf (M : Type) where
  newMsg : M
  serialize : M → List UInt8
  parse : List UInt8 → Option M
  parse_serialize : ∀ m, parse (serialize m) = some m
  serialize_newMsg : serialize newMsg = []

/-- Only the empty message has no bytes. -/
theorem Protobuf.serialize_eq_nil {M : Type} {pb : Protobuf M} {m : M} :
    pb.serialize m = [] ↔ m = pb.newMsg := by
  constructor
  · intro h
    have hm := pb.parse_serialize m
    rw [h, ← pb.serialize_newMsg, pb.parse_serialize] at hm
    exact (Option.some.inj hm).symm
  · rintro rfl
    exact pb.serialize_newMsg

/-- A message with one field of type `bool`, number 1. -/
def flagMsg : Protobuf Bool where
  newMsg := false
  serialize flag := if flag then [8, 1] else []
  parse bytes := if bytes = [] then some false else if bytes = [8, 1] then some true else none
  parse_serialize flag := by cases flag <;> rfl
  serialize_newMsg := rfl

/-- How the language layers break down. -/
inductive UserFault
  /-- A block is freed that is not allocated. -/
  | badFree
  /-- Bytes are read that are not allocated. -/
  | badRead
  /-- An assertion fails, or `NULL` is used. -/
  | assertFailed
  /-- An exception that nobody catches. -/
  | terminate
  deriving DecidableEq, Repr

/-- `TxnSharedRawData`. -/
structure TxnSharedRawData where
  data_ : Option Addr
  size_ : Nat
  deriving DecidableEq, Repr

/-- The user data of a transaction, and the heap that its bytes are in. -/
structure TxnStore where
  udata : Option TxnSharedRawData
  heap : Heap (List UInt8)
  deriving DecidableEq

/-! ### The raw data -/

/-- `free`. -/
def freeData (heap : Heap (List UInt8)) (p : Option Addr) :
    Except UserFault (Heap (List UInt8)) :=
  match heap.free p with
  | none => .error .badFree
  | some heap => .ok heap

/-- The first `size` bytes at a pointer. -/
def readData (heap : Heap (List UInt8)) (p : Option Addr) (size : Nat) :
    Except UserFault (List UInt8) :=
  if size = 0 then .ok []
  else
    match p.bind heap.get? with
    | none => .error .badRead
    | some bytes => if size ≤ bytes.length then .ok (bytes.take size) else .error .badRead

/-- `TxnSharedRawData::reset`. -/
def TxnSharedRawData.reset (raw : TxnSharedRawData) (heap : Heap (List UInt8)) (data : Option Addr)
    (sz : Nat) : Except UserFault (TxnSharedRawData × Heap (List UInt8)) :=
  if raw.data_ = data then .ok ({ raw with size_ := sz }, heap)
  else
    match data with
    | none =>
      if sz ≠ 0 then .error .assertFailed
      -- the pointer keeps its value
      else (freeData heap raw.data_).map fun heap => ({ raw with size_ := sz }, heap)
    | some _ =>
      if sz = 0 then .error .assertFailed
      else (freeData heap raw.data_).map fun heap => ({ data_ := data, size_ := sz }, heap)

/-- `delete rawData; skull_txn_setdata(txn, NULL)`. -/
def TxnStore.deleteRaw (s : TxnStore) : Except UserFault TxnStore :=
  match s.udata with
  | none => .ok s
  | some raw => (freeData s.heap raw.data_).map fun heap => { udata := none, heap }

/-! ### C++ -/

section Layers

variable {M : Type} (pb : Protobuf M)

/-- `TxnImp`: the messages that were created, in this order; `msg_` is the last of them. -/
structure TxnImp (M : Type) where
  msgs : List M

/-- `TxnImp::msg_`. -/
def TxnImp.msg_ {M : Type} (t : TxnImp M) : Option M := t.msgs.getLast?

/-- `ParseFromArray` into a new message, which is asserted to succeed. -/
def parseData (heap : Heap (List UInt8)) (p : Option Addr) (size : Nat) : Except UserFault M :=
  match readData heap p size with
  | .error f => .error f
  | .ok bytes =>
    match pb.parse bytes with
    | none => .error .assertFailed
    | some m => .ok m

/-- `TxnImp::data`. -/
def TxnImp.data (t : TxnImp M) (s : TxnStore) : Except UserFault (TxnImp M × TxnStore) :=
  let rawData := s.udata.getD { data_ := none, size_ := 0 }
  let s := { s with udata := some rawData }
  match rawData.data_ with
  | none => .ok ({ msgs := t.msgs ++ [pb.newMsg] }, s)
  | some binData =>
    (parseData pb s.heap (some binData) rawData.size_).map fun m => ({ msgs := t.msgs ++ [m] }, s)

/-- `TxnImp::~TxnImp`; `alloc` is the choice of `calloc`. -/
def TxnImp.destroy (destroyRawData : Bool) (alloc : Allocator (List UInt8)) (t : TxnImp M)
    (s : TxnStore) : Except UserFault TxnStore :=
  if destroyRawData then s.deleteRaw
  else
    match t.msg_ with
    | none => .ok s
    | some msg =>
      match s.udata with
      | none => .error .assertFailed
      | some rawData =>
        let idlData := pb.serialize msg
        if idlData.length = 0 then
          (rawData.reset s.heap none 0).map fun (raw, heap) => { udata := some raw, heap }
        else
          let a := alloc.pick s.heap
          (rawData.reset (s.heap.calloc a idlData) (some a) idlData.length).map fun (raw, heap) =>
            { udata := some raw, heap }

/-! ### Python -/

/-- `Txn` of Python. -/
structure PyTxn (M : Type) where
  _msg : Option M

/-- `py_txn_get`. -/
def pyTxnGet (s : TxnStore) : Except UserFault (Option (List UInt8)) :=
  match s.udata with
  | none => .ok none
  | some rawData => (readData s.heap rawData.data_ rawData.size_).map some

/-- `py_txn_set`. -/
def pyTxnSet (alloc : Allocator (List UInt8)) (s : TxnStore) (data : Option (List UInt8)) :
    Except UserFault TxnStore :=
  match data with
  | none => s.deleteRaw
  | some bytes =>
    let rawData := s.udata.getD { data_ := none, size_ := 0 }
    let s := { s with udata := some rawData }
    -- nothing is stored when there are no bytes
    if bytes.length > 0 then
      let a := alloc.pick s.heap
      (rawData.reset (s.heap.calloc a bytes) (some a) bytes.length).map fun (raw, heap) =>
        { udata := some raw, heap }
    else .ok s

/-- `Txn.data`. -/
def PyTxn.data (t : PyTxn M) (s : TxnStore) : Except UserFault (PyTxn M) :=
  match t._msg with
  | some _ => .ok t
  | none =>
    match pyTxnGet s with
    | .error f => .error f
    | .ok none => .ok { _msg := some pb.newMsg }
    | .ok (some bytes) =>
      match pb.parse bytes with
      | none => .error .assertFailed
      | some m => .ok { _msg := some m }

/-- `Txn.storeMsgData`. -/
def PyTxn.storeMsgData (alloc : Allocator (List UInt8)) (t : PyTxn M) (s : TxnStore) :
    Except UserFault TxnStore :=
  match t._msg with
  | none => .ok s
  | some msg => pyTxnSet alloc s (some (pb.serialize msg))

/-- `Txn.destroyMsgData`. -/
def PyTxn.destroyMsgData (alloc : Allocator (List UInt8)) (s : TxnStore) :
    Except UserFault TxnStore :=
  pyTxnSet alloc s none

/-! ### What the user does -/

/-- What a user function does with the transaction data: it calls `data()`, or it changes the
    message through the reference that its call number `k` of `data()` returned. -/
inductive DataOp (M : Type)
  | data
  | mutate (k : Nat) (f : M → M)

/-- The user functions that get a transaction. -/
inductive UserEntry
  | unpack
  | run
  /-- The callback of a service call. -/
  | callback
  | pack
  deriving DecidableEq, Repr

/-- A call of a user function: what it does with the data, and whether it ends in an exception. -/
structure DataStep (M : Type) where
  entry : UserEntry
  ops : List (DataOp M)
  raised : Bool

/-- The language of a module. -/
inductive UserLang
  | cpp
  | python
  deriving DecidableEq, Repr

/-- Where a user function runs: the language of its module, and how `calloc` chooses then. -/
structure Host where
  lang : UserLang
  alloc : Allocator (List UInt8)

/-- An operation in C++. -/
def TxnImp.runOp (ts : TxnImp M × TxnStore) : DataOp M → Except UserFault (TxnImp M × TxnStore)
  | .data => ts.1.data pb ts.2
  | .mutate k f => .ok ({ msgs := ts.1.msgs.modify k f }, ts.2)

/-- An operation in Python, where all references are to one message; `refs` counts them. -/
def PyTxn.runOp (s : TxnStore) (rt : Nat × PyTxn M) : DataOp M → Except UserFault (Nat × PyTxn M)
  | .data => (rt.2.data pb s).map fun t => (rt.1 + 1, t)
  | .mutate k f => .ok (rt.1, if k < rt.1 then { _msg := rt.2._msg.map f } else rt.2)

/-- The C++ layer around a user function: `skull_module_run`, `skull_module_unpack`,
    `skull_module_pack` and `_skull_svc_api_callback`.  Only the last one catches nothing. -/
def DataStep.runCpp (b : DataStep M) (alloc : Allocator (List UInt8)) (s : TxnStore) :
    Except UserFault TxnStore :=
  match b.ops.foldlM (TxnImp.runOp pb) ({ msgs := [] }, s) with
  | .error f => .error f
  | .ok (t, s) =>
    if b.entry = .callback ∧ b.raised then .error .terminate
    else t.destroy pb (b.entry = .pack) alloc s

/-- The Python layer around a user function: `run_module_run`, `run_module_unpack`,
    `run_module_pack` and `_service_api_callback`.  An exception skips `storeMsgData`. -/
def DataStep.runPython (b : DataStep M) (alloc : Allocator (List UInt8)) (s : TxnStore) :
    Except UserFault TxnStore :=
  match b.ops.foldlM (PyTxn.runOp pb s) (0, { _msg := none }) with
  | .error f => .error f
  | .ok (_, t) =>
    if b.entry = .pack then PyTxn.destroyMsgData alloc s
    else if b.raised then .ok s
    else t.storeMsgData pb alloc s

/-- A user function runs. -/
def TxnStore.step (s : TxnStore) (h : Host) (b : DataStep M) : Except UserFault TxnStore :=
  match h.lang with
  | .cpp => b.runCpp pb h.alloc s
  | .python => b.runPython pb h.alloc s

end Layers

end Skull
