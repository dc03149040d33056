import Skull.Entity.Stream
import Skull.User.TxnData

namespace Skull

open Machines Heaps

/-!
# Retrying an unpack

A connection whose unpack functions work on the data of the half transaction:

* `UnpackCall.skullModuleUnpack` — `skull_module_unpack`, which asserts that the transaction has
  no user data, around the language layer;
* `Unpacking` — the client, with the user data of its half transaction and the message that the
  unpack functions left in it;
* `Unpacking.Retriable` — another call on the half transaction passes the assertion and reads
  that message;
* `Unpacking.retriable_iff` — that is so in all states of a run exactly when no unpack function
  that needs more data has called `data()`.
-/

variable {M : Type}

/-- How the unpack function of the user ends. -/
inductive UnpackEnd
  | returned (n : Int)
  /-- It returns nothing, in Python. -/
  | returnedNone
  | raised
  deriving DecidableEq, Repr

/-- A call of the unpack function of the user. -/
structure UnpackCall (M : Type) where
  host : Host
  ops : List (DataOp M)
  ends : UnpackEnd

namespace UnpackCall

/-- What the function does with the transaction data. -/
def step (u : UnpackCall M) : DataStep M :=
  { entry := .unpack, ops := u.ops, raised := u.ends = .raised }

/-- What the language layers return. -/
def consumed (u : UnpackCall M) : Int :=
  match u.ends with
  | .returned n => n
  | .returnedNone | .raised => -1

/-- `skull_module_unpack` of the core: the bytes consumed, and the user data after. -/
def skullModuleUnpack (pb : Protobuf M) (u : UnpackCall M) (s : TxnStore) :
    Except UserFault (Int × TxnStore) :=
  if s.udata ≠ none then .error .assertFailed
  else (s.step pb u.host u.step).map fun s => (u.consumed, s)

end UnpackCall

/-- What goes wrong in a connection. -/
inductive UnpackFault
  | entity (f : EntityFault)
  | user (f : UserFault)
  deriving DecidableEq, Repr

/-- A connection. -/
structure Unpacking (M : Type) where
  client : Client
  /-- The user data of the half transaction, and the heap. -/
  store : TxnStore
  /-- The message that the unpack functions left in the half transaction. -/
  left : M
  deriving DecidableEq

/-- What may happen to a connection. -/
inductive UnpackAction (M : Type)
  /-- Data arrive; if the unpack function is called, this is what it does. -/
  | read (arrived : Option (List UInt8)) (call : UnpackCall M)
  | other (a : ClientAction)

/-- `sk_driver_util_unpack` gets to the unpack function. -/
def Client.unpacks (c : Client) (arrived : Option (List UInt8)) : Bool :=
  match c.reader, arrived with
  | some e, some bytes => e.rbuf ++ bytes ≠ []
  | _, _ => false

/-- An action that is no read. -/
def ClientAction.isNoRead : ClientAction → Bool
  | .read _ _ => false
  | _ => true

namespace Unpacking

/-- What runs on an action.  The half transaction keeps its data while more is needed; then it is
    handed on, or left to the entity that is destroyed. -/
def exec (pb : Protobuf M) (s : Unpacking M) : UnpackAction M → Except UnpackFault (Unpacking M)
  | .read arrived call =>
    if s.client.unpacks arrived then
      match call.skullModuleUnpack pb s.store with
      | .error f => .error (.user f)
      | .ok (consumed, store) =>
        match s.client.readCb arrived consumed with
        | .error f => .error (.entity f)
        | .ok client =>
          if consumed = 0 then .ok { client, store, left := call.step.left s.left }
          else .ok { client, store := .new store.heap, left := pb.newMsg }
    else
      match s.client.readCb arrived 0 with
      | .error f => .error (.entity f)
      | .ok client => .ok { s with client }
  | .other a =>
    match s.client.exec a with
    | .error f => .error (.entity f)
    | .ok client => .ok { s with client }

/-- When an action may happen. -/
def enabled (s : Unpacking M) : UnpackAction M → Prop
  | .read arrived _ => s.client.enabled (.read arrived 0)
  | .other a => s.client.enabled a ∧ a.isNoRead

instance (s : Unpacking M) (a : UnpackAction M) : Decidable (s.enabled a) :=
  match a with
  | .read arrived _ => inferInstanceAs (Decidable (s.client.enabled (.read arrived 0)))
  | .other _ => inferInstanceAs (Decidable (_ ∧ _))

/-- A connection that was just accepted. -/
def accepted (pb : Protobuf M) (concurrent destroyNotxn : Bool) (heap : Heap (List UInt8)) :
    Unpacking M :=
  { client := .accepted true concurrent destroyNotxn, store := .new heap, left := pb.newMsg }

/-- The runs of a connection. -/
def machine (pb : Protobuf M) : Machine (Unpacking M) (UnpackAction M) UnpackFault where
  init s := ∃ concurrent destroyNotxn heap, s = accepted pb concurrent destroyNotxn heap
  enabled := enabled
  exec := exec pb

instance (pb : Protobuf M) (s : Unpacking M) (a : UnpackAction M) :
    Decidable ((machine pb).enabled s a) :=
  inferInstanceAs (Decidable (s.enabled a))

/-- Whatever the next unpack function does, it can be called on the half transaction, and it reads
    what was left there. -/
def Retriable (pb : Protobuf M) (s : Unpacking M) : Prop :=
  ∀ e txn, s.client.ent = some e → e.halfTxn = some txn →
    (∀ call, ∃ r, UnpackCall.skullModuleUnpack pb call s.store = .ok r) ∧
      ∀ reader, next pb reader s.store = .ok s.left

/-- An unpack function that needs more data does not call `data()`. -/
def NeedsNoData (s : Unpacking M) : UnpackAction M → Prop
  | .read arrived call => s.client.unpacks arrived = true → call.consumed = 0 → call.step.calls = 0
  | .other _ => True

/-- The half transaction has no user data. -/
structure NoData (pb : Protobuf M) (s : Unpacking M) : Prop where
  udata : s.store.udata = none
  left : s.left = pb.newMsg

variable {pb : Protobuf M} {s t : Unpacking M} {store : TxnStore} {call : UnpackCall M}

/-! ### The call -/

theorem holds_none (pb : Protobuf M) (h : store.udata = none) : Holds pb pb.newMsg store := by
  obtain ⟨udata, heap⟩ := store
  obtain rfl : udata = none := h
  exact .unset

/-- A call on a transaction without user data goes through. -/
theorem skullModuleUnpack_total (h : store.udata = none) (call : UnpackCall M) :
    ∃ r, call.skullModuleUnpack pb store = .ok r := by
  unfold UnpackCall.skullModuleUnpack
  rw [if_neg (by simp [h])]
  rcases (holds_none pb h).step_ends call.host call.step with
    ⟨f, -, hbad, -⟩ | ⟨store', m', hstep, -, -⟩
  · rcases hbad with ⟨a, ha, -⟩ | hentry
    · simp [TxnStore.data_, h] at ha
    · exact absurd hentry (by simp [UnpackCall.step])
  · exact ⟨(call.consumed, store'), by rw [hstep]; rfl⟩

/-- A call on a transaction with user data does not. -/
theorem skullModuleUnpack_asserts (h : store.udata ≠ none) (call : UnpackCall M) :
    call.skullModuleUnpack pb store = .error .assertFailed := if_pos h

/-- A call that does not open the data leaves them as they are. -/
theorem store_of_unopened (h : store.udata = none) (hcalls : call.step.calls = 0) {n : Int}
    {store' : TxnStore} (hcall : call.skullModuleUnpack pb store = .ok (n, store')) :
    store' = store := by
  unfold UnpackCall.skullModuleUnpack at hcall
  rw [if_neg (by simp [h]), (holds_none pb h).step_unopened (by simp [UnpackCall.step])
    (by simp [UnpackCall.step]) hcalls] at hcall
  exact (congrArg Prod.snd (Except.ok.inj hcall)).symm

/-- A call that opens the data and needs more leaves user data. -/
theorem udata_of_opened (h : store.udata = none) (hpos : 0 < call.step.calls)
    (hzero : call.consumed = 0) {n : Int} {store' : TxnStore}
    (hcall : call.skullModuleUnpack pb store = .ok (n, store')) : store'.udata ≠ none := by
  have hraised : call.step.raised = false := by
    show decide (call.ends = .raised) = false
    rw [decide_eq_false_iff_not]
    intro hc
    simp [UnpackCall.consumed, hc] at hzero
  unfold UnpackCall.skullModuleUnpack at hcall
  rw [if_neg (by simp [h])] at hcall
  obtain ⟨store₁, hstep, heq⟩ := except_map_ok.mp hcall
  obtain rfl : store₁ = store' := congrArg Prod.snd heq
  exact (holds_none pb h).step_opened (by simp [UnpackCall.step]) hraised hpos hstep

/-- A call consumes what the module says. -/
theorem consumed_eq {n : Int} {store' : TxnStore}
    (hcall : call.skullModuleUnpack pb store = .ok (n, store')) : n = call.consumed := by
  unfold UnpackCall.skullModuleUnpack at hcall
  split at hcall
  · exact absurd hcall (by simp)
  · obtain ⟨store₁, -, heq⟩ := except_map_ok.mp hcall
    exact (congrArg Prod.fst heq).symm

/-! ### The runs -/

/-- A half transaction without user data can be unpacked again. -/
theorem NoData.retriable (h : s.NoData pb) : s.Retriable pb := by
  intro e txn _ _
  refine ⟨skullModuleUnpack_total h.udata, fun reader => ?_⟩
  rw [h.left]
  exact (holds_none pb h.udata).next reader

/-- What a read does. -/
theorem exec_read {arrived : Option (List UInt8)} (h : s.exec pb (.read arrived call) = .ok t)
    (hunpacks : s.client.unpacks arrived = true) : ∃ store client,
      call.skullModuleUnpack pb s.store = .ok (call.consumed, store) ∧
      s.client.readCb arrived call.consumed = .ok client ∧
      t = if call.consumed = 0 then { client, store, left := call.step.left s.left }
        else { client, store := .new store.heap, left := pb.newMsg } := by
  unfold exec at h
  simp only [hunpacks, if_true] at h
  split at h
  · exact absurd h (by simp)
  · rename_i n store hcall
    obtain rfl := consumed_eq hcall
    split at h
    · exact absurd h (by simp)
    · rename_i client hclient
      refine ⟨store, client, hcall, hclient, ?_⟩
      split at h
      · rename_i hzero
        rw [if_pos hzero]
        exact (Except.ok.inj h).symm
      · rename_i hzero
        rw [if_neg hzero]
        exact (Except.ok.inj h).symm

/-- **Step lemma.**  While no unpack function that needs more opens the data, there are none. -/
theorem exec_noData {a : UnpackAction M} (hs : s.NoData pb) (hc : s.NeedsNoData a)
    (h : s.exec pb a = .ok t) : t.NoData pb := by
  cases a with
  | other a =>
    simp only [exec] at h
    split at h
    · exact absurd h (by simp)
    · obtain rfl := Except.ok.inj h
      exact ⟨hs.udata, hs.left⟩
  | read arrived call =>
    by_cases hunpacks : s.client.unpacks arrived = true
    · obtain ⟨store, client, hcall, -, rfl⟩ := exec_read h hunpacks
      split
      · rename_i hzero
        have hcalls := hc hunpacks hzero
        obtain rfl := store_of_unopened hs.udata hcalls hcall
        exact ⟨hs.udata, by rw [DataStep.left_of_calls_zero hcalls, hs.left]⟩
      · exact ⟨rfl, rfl⟩
    · unfold exec at h
      simp only [if_neg hunpacks] at h
      split at h
      · exact absurd h (by simp)
      · obtain rfl := Except.ok.inj h
        exact ⟨hs.udata, hs.left⟩

/-- An unpack function that opens the data and needs more cannot be called again. -/
theorem exec_opened {a : UnpackAction M} (hs : s.NoData pb) (hc : ¬ s.NeedsNoData a)
    (h : s.exec pb a = .ok t) : ¬ t.Retriable pb := by
  cases a with
  | other a => exact absurd trivial hc
  | read arrived call =>
    simp only [NeedsNoData, Classical.not_imp] at hc
    obtain ⟨hunpacks, hzero, hcalls⟩ := hc
    -- the call took nothing and left data
    obtain ⟨store, client, hcall, hclient, rfl⟩ := exec_read h hunpacks
    have hudata := udata_of_opened hs.udata (Nat.pos_of_ne_zero hcalls) hzero hcall
    -- so the half transaction of the entity has that data
    obtain ⟨e, txn, hent, hhalf⟩ : ∃ e txn, client.ent = some e ∧ e.halfTxn = some txn := by
      unfold Client.unpacks at hunpacks
      split at hunpacks
      · rename_i e bytes hreader
        obtain ⟨hent, hstatus⟩ := Option.filter_eq_some_iff.mp hreader
        have hactive : ¬ e.status ≠ .active := by simpa using hstatus
        have hdata : e.rbuf ++ bytes ≠ [] := of_decide_eq_true hunpacks
        simp only [Client.readCb, hent, hactive, if_false, hzero] at hclient
        rcases Client.driverUnpack_data s.client 0 hdata with ⟨-, hu⟩ | ⟨hc, -⟩ | ⟨hc, -⟩
        · simp only [hu, gt_iff_lt, Int.lt_irrefl, if_false] at hclient
          obtain rfl := Except.ok.inj hclient
          exact ⟨_, _, rfl, rfl⟩
        · exact absurd hc (by decide)
        · exact absurd hc (by decide)
      · exact absurd hunpacks (by simp)
    intro hretry
    rw [if_pos hzero] at hretry
    -- the next call finds it, and asserts that there is none
    obtain ⟨r, hr⟩ := (hretry e txn hent hhalf).1 call
    exact absurd ((skullModuleUnpack_asserts hudata call).symm.trans hr) (by simp)

/-- **When an unpack can be retried.**  In a run, the half transaction can be unpacked again at
    every point, and the data stored before are read, if and only if no unpack function that needs
    more data has called `data()`. -/
theorem retriable_iff {p : List (UnpackAction M × Unpacking M)} (hs : (machine pb).init s)
    (hp : (machine pb).Path s p) :
    (∀ q ∈ p, q.2.Retriable pb) ↔ Machine.StepsMeet NeedsNoData s p := by
  have hinit : s.NoData pb := by
    obtain ⟨concurrent, destroyNotxn, heap, rfl⟩ := hs
    exact ⟨rfl, rfl⟩
  exact Machine.path_iff (I := NoData pb) (P := Retriable pb) (C := NeedsNoData)
    (fun _ h => h.retriable) (fun _ _ _ hs _ hc hx => exec_noData hs hc hx)
    (fun _ _ _ hs _ hc hx => exec_opened hs hc hx) hinit hp

/-- A connection of a workflow whose data are a flag. -/
def flagClient : Unpacking Bool := accepted flagMsg false false .empty

theorem flagClient_init : (machine flagMsg).init flagClient := ⟨false, false, .empty, rfl⟩

/-- An unpack function in C++ that waits for a second byte, and opens the data when it has it. -/
def waits (n : Int) (ops : List (DataOp Bool)) : UnpackCall Bool :=
  { host := ⟨.cpp, Allocator.above⟩, ops, ends := .returned n }

/-- A request in two parts against its condition. -/
theorem flagClient_retriable_iff :
    (∀ q ∈ (machine flagMsg).trace flagClient [.read (some [1]) (waits 0 []),
      .read (some [2]) (waits 2 [.data, .mutate 0 fun _ => true])], q.2.Retriable flagMsg) ↔
    Machine.StepsMeet NeedsNoData flagClient ((machine flagMsg).trace flagClient
      [.read (some [1]) (waits 0 []),
        .read (some [2]) (waits 2 [.data, .mutate 0 fun _ => true])]) :=
  retriable_iff flagClient_init (Machine.trace_path _ _)

/-- The connection whose unpack function opened the data while it waits. -/
def openedEarly : Unpacking Bool :=
  ((machine flagMsg).play flagClient [.read (some [1]) (waits 0 [.data])]).getD flagClient

/-- A module that asks for its data too early hits the assertion. -/
theorem openedEarly_asserts : ¬ ∀ s, (machine flagMsg).Reach Machine.anyStep s →
    s.Retriable flagMsg := by
  intro hall
  have hplay : (machine flagMsg).play flagClient [.read (some [1]) (waits 0 [.data])] =
      some openedEarly := by decide +kernel
  have hretry := hall openedEarly (Machine.play_reach (.init flagClient_init) hplay)
  have hhalf : openedEarly.client.ent.bind Entity.halfTxn = some 0 := by decide +kernel
  obtain ⟨e, hent, htxn⟩ := Option.bind_eq_some_iff.mp hhalf
  obtain ⟨r, hr⟩ := (hretry e 0 hent htxn).1 (waits 0 [])
  have hudata : openedEarly.store.udata ≠ none := by decide +kernel
  exact absurd ((skullModuleUnpack_asserts hudata _).symm.trans hr) (by simp)

end Unpacking

end Skull
