import Skull.User.TxnStore

namespace Skull

open Machines Heaps

/-!
# The buffers of a service call

A service call from its `iocall` to its completion, in C++ and in Python:

* `UserIocall.request` — the serialized request that the language layer allocates;
* `UserIocall.updates` — the API body and the pending callbacks, each of which parses the response,
  changes it and stores it back (`ServiceApiRespData`);
* `UserIocall.completes` — the callback wrapper and `skull_srv_iocomplete`, and `UserIocall.run`, all of it;
* `UserIocall.OneOwner` — each buffer is freed exactly once, and the response is `NULL` or a buffer
  that is allocated all the time.
-/

/-- The part of `sk_txn_taskdata_t` that holds the buffers, with the blocks allocated for them. -/
structure CallBuffers where
  request : Option Nat
  request_sz : Nat
  response : Option Nat
  response_sz : Nat
  blocks : Blocks (List UInt8)
  deriving DecidableEq, Repr

/-- Who gets at the response. -/
inductive RespAccess
  /-- The function of the API. -/
  | body
  /-- The callback of a pending endpoint call. -/
  | epCallback
  /-- The function of a pending job, and whether it asks for the data of the API. -/
  | jobCallback (touches : Bool)
  deriving DecidableEq, Repr

/-- An access to the response message, and what it changes. -/
structure RespUpdate (R : Type) where
  access : RespAccess
  change : R → R

/-- What becomes of a service call. -/
inductive CallReply (R : Type)
  /-- `skull_txn_iocall` returns an error. -/
  | rejected
  /-- The call is executed, or refused because the service is busy; whether there is a callback,
      and whether it ends in an exception. -/
  | accepted (callback : Option Bool) (busy : Bool) (updates : List (RespUpdate R))

/-- A service call of a module or a callback. -/
structure UserIocall (Q R : Type) where
  lang : UserLang
  msg : Q
  reply : CallReply R

section Buffers

variable {Q R : Type} (pq : Protobuf Q) (pr : Protobuf R)

/-! ### Reading and freeing -/

/-- `free`. -/
def freeBlock (blocks : Blocks (List UInt8)) (p : Option Nat) :
    Except UserFault (Blocks (List UInt8)) :=
  match p with
  | none => .ok blocks
  | some i =>
    match blocks.free i with
    | none => .error .badFree
    | some blocks => .ok blocks

/-- The first `sz` bytes at a pointer. -/
def readBlock (blocks : Blocks (List UInt8)) (p : Option Nat) (sz : Nat) :
    Except UserFault (List UInt8) :=
  if sz = 0 then .ok []
  else
    match p.bind blocks.get? with
    | none => .error .badRead
    | some bytes => if sz ≤ bytes.length then .ok (bytes.take sz) else .error .badRead

/-- `deserializeMsg` of `ServiceApiReqData` and `ServiceApiRespData`. -/
def deserializeMsg {M : Type} (pb : Protobuf M) (blocks : Blocks (List UInt8)) (data : Option Nat)
    (sz : Nat) : Except UserFault M :=
  if data.isSome ∧ sz ≠ 0 then
    match readBlock blocks data sz with
    | .error f => .error f
    | .ok bytes =>
      match pb.parse bytes with
      | none => .error .assertFailed
      | some m => .ok m
  else .ok pb.newMsg

/-! ### The response -/

/-- `ServiceApiRespData::~ServiceApiRespData`, when it stores back. -/
def storeResp (msg : R) (s : CallBuffers) : Except UserFault CallBuffers :=
  let freed := if s.response_sz ≠ 0 then freeBlock s.blocks s.response else .ok s.blocks
  match freed with
  | .error f => .error f
  | .ok blocks =>
    let newData := pr.serialize msg
    if newData.length ≠ 0 then
      let (i, blocks) := blocks.alloc newData
      .ok { s with response := some i, response_sz := newData.length, blocks }
    -- the task keeps the pointer
    else .ok { s with blocks }

/-- An access to the response: `ServiceApiRespData` is built from the buffer of the task, and
    destroyed.  For a job, the constructor of `ServiceApiDataImp` that is called makes a temporary
    one for this, and the data that the job asks for are not valid. -/
def RespUpdate.run (s : CallBuffers) (u : RespUpdate R) : Except UserFault CallBuffers :=
  match deserializeMsg pr s.blocks s.response s.response_sz with
  | .error f => .error f
  | .ok msg =>
    match u.access with
    | .body | .epCallback => storeResp pr (u.change msg) s
    | .jobCallback touches =>
      match storeResp pr msg s with
      | .error f => .error f
      | .ok s => if touches then .error .assertFailed else .ok s

/-! ### The call -/

namespace UserIocall

/-- The request is serialized.  C++ allocates nothing for an empty message, Python does. -/
def request (c : UserIocall Q R) : CallBuffers :=
  let bytes := pq.serialize c.msg
  let (i, blocks) := Blocks.empty.alloc bytes
  if c.lang = .cpp ∧ bytes.length = 0 then
    { request := none, request_sz := 0, response := none, response_sz := 0, blocks := .empty }
  else
    { request := some i, request_sz := bytes.length, response := none, response_sz := 0, blocks }

/-- The accesses to the response, one after another. -/
def updates (us : List (RespUpdate R)) (s : CallBuffers) : Except UserFault CallBuffers :=
  us.foldlM (RespUpdate.run pr) s

/-- `skull_srv_iocomplete`. -/
def iocomplete (s : CallBuffers) : Except UserFault CallBuffers :=
  (freeBlock s.blocks s.response).map fun blocks =>
    { request := none, request_sz := 0, response := none, response_sz := 0, blocks }

/-- `_skull_svc_api_callback` of C++ and `_api_cb` of Python. -/
def callback (c : UserIocall Q R) (raised : Bool) (s : CallBuffers) : Except UserFault CallBuffers :=
  match c.lang with
  | .cpp =>
    match deserializeMsg pq s.blocks s.request s.request_sz with
    | .error f => .error f
    | .ok _ =>
      match deserializeMsg pr s.blocks s.response s.response_sz with
      | .error f => .error f
      | .ok _ =>
        if raised then .error .terminate
        else (freeBlock s.blocks s.request).map fun blocks => { s with blocks }
  | .python =>
    match readBlock s.blocks s.request s.request_sz with
    | .error f => .error f
    | .ok _ =>
      match readBlock s.blocks s.response s.response_sz with
      | .error f => .error f
      | .ok _ => (freeBlock s.blocks s.request).map fun blocks => { s with blocks }

/-- `skull_srv_iocall_complete`. -/
def completes (c : UserIocall Q R) (cb : Option Bool) (s : CallBuffers) :
    Except UserFault CallBuffers :=
  match cb with
  | none => iocomplete s
  | some raised =>
    match c.callback pq pr raised s with
    | .error f => .error f
    | .ok s => iocomplete s

/-- The call.  When it is rejected, only C++ frees the request; a busy service does not run the
    API. -/
def run (c : UserIocall Q R) : Except UserFault CallBuffers :=
  let s := c.request pq
  match c.reply with
  | .rejected =>
    match c.lang with
    | .cpp => (freeBlock s.blocks s.request).map fun blocks => { s with request := none, blocks }
    | .python => .ok s
  | .accepted cb busy us =>
    match updates pr (if busy then [] else us) s with
    | .error f => .error f
    | .ok s => c.completes pq pr cb s

/-- The response is `NULL` or a buffer that is allocated. -/
def RespLive (s : CallBuffers) : Prop := ∀ i, s.response = some i → (s.blocks.get? i).isSome

/-- **One owner.**  The call goes through, each buffer was freed exactly once at its end, and
    after every access the response is `NULL` or allocated. -/
def OneOwner (c : UserIocall Q R) : Prop :=
  (∃ t, c.run pq pr = .ok t ∧ t.blocks.Settled) ∧
    ∀ cb us, c.reply = .accepted cb false us → ∀ n s,
      updates pr (us.take n) (c.request pq) = .ok s → RespLive s

/-! ### The condition -/

/-- The response that an access leaves; the function of a job gets at none. -/
def left (u : RespUpdate R) (r : R) : R :=
  match u.access with
  | .body | .epCallback => u.change r
  | .jobCallback _ => r

/-- The accesses make no response empty that was not, and no job asks for the data. -/
def Careful : R → List (RespUpdate R) → Prop
  | _, [] => True
  | r, u :: us => u.access ≠ .jobCallback true ∧ (left u r = pr.newMsg → r = pr.newMsg) ∧
      Careful (left u r) us

/-- The request has an owner at the end: a C++ call that is rejected, or one with a callback,
    which does not throw in C++; a request of no bytes needs none in C++. -/
def RequestOwned (c : UserIocall Q R) : Prop :=
  match c.lang, c.reply with
  | .cpp, .rejected => True
  | .python, .rejected => False
  | .cpp, .accepted cb _ _ => cb = some false ∨ cb = none ∧ c.msg = pq.newMsg
  | .python, .accepted cb _ _ => cb ≠ none

/-- The API is not run, or all accesses to the response are careful. -/
def ResponseOwned (c : UserIocall Q R) : Prop :=
  ∀ cb us, c.reply = .accepted cb false us → Careful pr pr.newMsg us

end UserIocall

end Buffers

end Skull
