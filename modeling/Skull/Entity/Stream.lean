import Skull.Entity.Steps
import Skull.Lib.Framing

namespace Skull

open Machines

/-!
# The stream that a client sends

What `sk_driver_util_unpack` makes of the bytes received on an entity, read by read:

* `Stream` — a client with the bytes it was sent and the bytes taken for each of its requests;
* `Client.Untouched` — what every step that is no read leaves of the read buffer;
* `Stream.Partitions` and `Stream.partitions_iff` — the inputs stored in the transactions are the
  bytes taken for them exactly when every request takes all that is buffered;
* `Stream.reach_cut` — the requests that were taken are those of one call of the unpack function
  for each read, whatever the function is;
* `Stream.parsed_iff` — all complete requests have been taken exactly when each of them came in
  with a read of its own.
-/

namespace Client

/-- The entity of the client, while it takes data. -/
def reader (c : Client) : Option Entity := c.ent.filter fun e => e.status = .active

/-- The bytes that come in with an action, if the client takes them. -/
def arrives (c : Client) : ClientAction → List (List UInt8)
  | .read (some bytes) _ => if c.reader.isSome then [bytes] else []
  | _ => []

/-- The bytes that an action takes from the read buffer. -/
def takes (c : Client) : ClientAction → List (List UInt8)
  | .read (some bytes) consumed =>
    match c.reader with
    | none => []
    | some e =>
      if e.rbuf ++ bytes ≠ [] ∧ 0 < consumed then [(e.rbuf ++ bytes).take consumed.toNat] else []
  | _ => []

end Client

/-- A client and the stream it was sent. -/
structure Stream where
  client : Client
  /-- The bytes received, read by read. -/
  received : List (List UInt8)
  /-- The bytes taken for each complete request. -/
  consumed : List (List UInt8)
  deriving DecidableEq, Repr

namespace Stream

/-- What runs on an action. -/
def exec (s : Stream) (a : ClientAction) : Except EntityFault Stream :=
  (s.client.exec a).map fun client =>
    { client, received := s.received ++ s.client.arrives a
      consumed := s.consumed ++ s.client.takes a }

/-- The runs of a client with its stream. -/
def machine : Machine Stream ClientAction EntityFault where
  init s := Client.machine.init s.client ∧ s.received = [] ∧ s.consumed = []
  enabled s a := s.client.enabled a
  exec := exec

instance (s : Stream) (a : ClientAction) : Decidable (machine.enabled s a) :=
  inferInstanceAs (Decidable (s.client.enabled a))

end Stream

namespace Client

variable {c c' : Client} {e : Entity} {arrived : Option (List UInt8)} {bytes : List UInt8}
  {consumed : Int}

/-! ### What is no read -/

/-- Nothing was read from `c` to `c'`: the same inputs are stored, and an entity that is left has
    the same bytes and was active if it is. -/
structure Untouched (c c' : Client) : Prop where
  inputs : c'.inputs = c.inputs
  ent : ∀ e', c'.ent = some e' → ∃ e, c.ent = some e ∧ e'.rbuf = e.rbuf ∧
    (e'.status = .active → e.status = .active)

theorem Untouched.refl (c : Client) : c.Untouched c := ⟨rfl, fun e he => ⟨e, he, rfl, id⟩⟩

theorem Untouched.trans {c₁ c₂ c₃ : Client} (h : c₁.Untouched c₂) (h' : c₂.Untouched c₃) :
    c₁.Untouched c₃ := by
  refine ⟨h'.inputs.trans h.inputs, fun e₃ he₃ => ?_⟩
  obtain ⟨e₂, he₂, hbuf, hact⟩ := h'.ent e₃ he₃
  obtain ⟨e₁, he₁, hbuf', hact'⟩ := h.ent e₂ he₂
  exact ⟨e₁, he₁, hbuf.trans hbuf', fun hs => hact' (hact hs)⟩

/-- Destruction reads nothing. -/
theorem Fades.untouched (h : c.Fades c') : c.Untouched c' := by
  refine ⟨h.inputs, fun e' he' => ?_⟩
  obtain ⟨e, he, -, -, -, -, -, hbuf, hact⟩ := h.ent e' he'
  exact ⟨e, he, hbuf, hact⟩

/-- An entity whose buffer and status stay is read from by nobody. -/
theorem Untouched.of_ent {e' : Entity} (hent : c.ent = some e) (hent' : c'.ent = some e')
    (hinputs : c'.inputs = c.inputs) (hbuf : e'.rbuf = e.rbuf) (hact : e'.status = e.status) :
    c.Untouched c' := by
  refine ⟨hinputs, fun e₁ he₁ => ⟨e, hent, ?_, ?_⟩⟩ <;>
    rw [← Option.some.inj (hent'.symm.trans he₁)]
  · exact hbuf
  · rw [hact]
    exact id

/-- The end of a transaction touches no bytes. -/
theorem txnDestroy_untouched {txn : TxnId} (h : c.txnDestroy txn = .ok c') : c.Untouched c' := by
  unfold txnDestroy at h
  split at h
  · exact absurd h (by simp)
  · rename_i e hent
    obtain ⟨e', hdel, rfl⟩ := except_map_ok.mp h
    unfold Entity.txndel at hdel
    split at hdel
    · simp only at hdel
      split at hdel
      · rw [← Except.ok.inj hdel]
        exact .of_ent hent rfl rfl rfl rfl
      · exact absurd hdel (by simp)
    · exact absurd hdel (by simp)

theorem deliverLoop_untouched (cnt : Nat) : ∀ {c c' : Client} {n : Nat},
    deliverLoop cnt c = .ok (n, c') → c.Untouched c' := by
  induction cnt with
  | zero =>
    intro c c' n h
    obtain ⟨-, rfl⟩ := Prod.mk.inj (Except.ok.inj h)
    exact .refl c
  | succ cnt ih =>
    intro c c' n h
    rw [deliverLoop] at h
    split at h
    · exact absurd h (by simp)
    · rename_i e hent
      split at h
      · -- the entity is busy
        obtain ⟨-, rfl⟩ := Prod.mk.inj (Except.ok.inj h)
        exact .refl c
      · split at h
        · -- nothing waits
          obtain ⟨-, rfl⟩ := Prod.mk.inj (Except.ok.inj h)
          exact .refl c
        · rename_i txn iqueue hq
          split at h
          · exact absurd h (by simp)
          · rename_i e₁ hadd
            obtain ⟨⟨m, c₁⟩, hloop, heq⟩ := except_map_ok.mp h
            obtain ⟨-, rfl⟩ := Prod.mk.inj heq
            -- one transaction is delivered, which moves it from the queue
            refine .trans ?_ (ih hloop)
            unfold Entity.txnadd at hadd
            simp only at hadd
            split at hadd
            · rw [← Except.ok.inj hadd]
              exact .of_ent hent rfl rfl rfl rfl
            · exact absurd hadd (by simp)

theorem driverDeliver_untouched {max : Int} {n : Nat} (h : c.driverDeliver max = .ok (n, c')) :
    c.Untouched c' := by
  unfold driverDeliver at h
  split at h
  · exact absurd h (by simp)
  · exact deliverLoop_untouched _ h

theorem txnLogAndDestroy_untouched {txn : TxnId} {allComplete : Bool}
    (h : c.txnLogAndDestroy txn allComplete = .ok c') : c.Untouched c' := by
  unfold txnLogAndDestroy at h
  split at h
  · rw [← Except.ok.inj h]
    exact .refl c
  · split at h
    · exact absurd h (by simp)
    · rename_i n c₁ hdel
      split at h
      · exact absurd h (by simp)
      · rename_i c₂ hdestroy
        have huntouched := (driverDeliver_untouched hdel).trans (txnDestroy_untouched hdestroy)
        split at h
        · exact absurd h (by simp)
        · split at h
          · exact huntouched.trans (safeDestroy_fades h).untouched
          · rw [← Except.ok.inj h]
            exact huntouched

theorem modulePack_untouched {failed writeError : Bool}
    (h : c.modulePack failed writeError = .ok c') : c.Untouched c' := by
  unfold modulePack at h
  set c₁ := if failed then c.mark .inactive else c with hc₁
  have hmark : c.Untouched c₁ := by
    rw [hc₁]
    split
    · exact (mark_fades c (by simp)).untouched
    · exact .refl c
  simp only at h
  split at h
  · exact hmark.trans (safeDestroy_fades h).untouched
  · rw [← Except.ok.inj h]
    exact hmark

theorem workflowRun_untouched {txn : TxnId} {outcome : RunOutcome}
    (h : c.workflowRun txn outcome = .ok c') : c.Untouched c' := by
  unfold workflowRun at h
  split at h
  · exact absurd h (by simp)
  · rename_i e hent
    have hadopt : c.Untouched (c.adopt e) := .of_ent hent rfl rfl rfl rfl
    split at h
    · exact absurd h (by simp)
    · cases outcome with
      | pending => exact Except.ok.inj h ▸ hadopt
      | next =>
        rw [← Except.ok.inj h]
        exact ⟨hadopt.inputs, hadopt.ent⟩
      | packed failed writeError allComplete =>
        simp only at h
        split at h
        · exact absurd h (by simp)
        · rename_i c₁ hpack
          exact (hadopt.trans (modulePack_untouched hpack)).trans (txnLogAndDestroy_untouched h)
      | destroyed allComplete => exact hadopt.trans (txnLogAndDestroy_untouched h)

/-! ### Reads -/

/-- A read that nobody takes. -/
theorem readCb_idle (h : c.readCb arrived consumed = .ok c') (hreader : c.reader = none) :
    c' = c := by
  unfold readCb at h
  split at h
  · exact absurd h (by simp)
  · rename_i e hent
    split at h
    · exact (Except.ok.inj h).symm
    · rename_i hstatus
      simp only [not_not] at hstatus
      simp [reader, hent, hstatus] at hreader

/-- A read that fails. -/
theorem readCb_none (h : c.readCb none consumed = .ok c') : c' = c := by
  unfold readCb at h
  split at h
  · exact absurd h (by simp)
  · split at h
    · exact (Except.ok.inj h).symm
    · simp only [driverUnpack, gt_iff_lt, Int.lt_irrefl, if_false] at h
      exact (Except.ok.inj h).symm

/-- What a read leaves: the bytes behind the request that was taken, and the input stored in its
    transaction. -/
structure Reads (c : Client) (e : Entity) (bytes : List UInt8) (consumed : Int) (c' : Client) :
    Prop where
  rbuf : ∀ e', c'.ent = some e' → e'.rbuf = (e.rbuf ++ bytes).drop consumed.toNat
  inputs : c'.inputs.map Prod.snd = c.inputs.map Prod.snd ++
    if e.rbuf ++ bytes ≠ [] ∧ 0 < consumed then [e.rbuf ++ bytes] else []

/-- **A read.** What an active entity has buffered grows by what arrives; a complete request is
    taken from its head, and all of it is stored. -/
theorem readCb_reads (h : c.readCb (some bytes) consumed = .ok c') (hreader : c.reader = some e) :
    c.Reads e bytes consumed c' := by
  obtain ⟨hent, hstatus⟩ := Option.filter_eq_some_iff.mp hreader
  have hactive : ¬ e.status ≠ .active := by simpa using hstatus
  simp only [readCb, hent, hactive, if_false] at h
  by_cases hdata : e.rbuf ++ bytes = []
  · -- nothing arrived and nothing was buffered
    have hlen : (e.rbuf ++ bytes).length = 0 := by rw [hdata]; rfl
    simp only [driverUnpack, hlen, if_true, gt_iff_lt, Int.lt_irrefl, if_false] at h
    obtain rfl := Except.ok.inj h
    refine ⟨fun e' he' => ?_, ?_⟩
    · rw [hdata, List.drop_nil, ← Option.some.inj (hent.symm.trans he')]
      exact (List.append_eq_nil_iff.mp hdata).1
    · simp [hdata]
  · rcases driverUnpack_data c consumed hdata with ⟨hzero, hu⟩ | ⟨hneg, hu⟩ | ⟨hpos, hu⟩
    · simp only [hu, gt_iff_lt, Int.lt_irrefl, if_false] at h
      obtain rfl := Except.ok.inj h
      refine ⟨fun e' he' => ?_, ?_⟩
      · rw [← Option.some.inj he', hzero]
        rfl
      · simp [hzero, withHalf]
    · -- the unpack function fails: the entity is destroyed, and keeps its buffer
      rw [hu] at h
      cases hdestroy : (c.withHalf e (e.rbuf ++ bytes)).safeDestroy with
      | error f => simp [hdestroy, Except.map] at h
      | ok c₁ =>
        have hno : ¬ (-1 : Int) > 0 := by decide
        simp only [hdestroy, Except.map, hno, if_false] at h
        obtain rfl := Except.ok.inj h
        have hfade := (safeDestroy_fades hdestroy).untouched
        refine ⟨fun e' he' => ?_, ?_⟩
        · obtain ⟨e₁, he₁, hbuf, -⟩ := hfade.ent e' he'
          rw [hbuf, ← Option.some.inj he₁, Int.toNat_of_nonpos (Int.le_of_lt hneg)]
          rfl
        · have hnot : ¬ (e.rbuf ++ bytes ≠ [] ∧ 0 < consumed) := by omega
          rw [hfade.inputs, if_neg hnot, List.append_nil]
          rfl
    · simp only [hu, gt_iff_lt, hpos, if_true] at h
      -- a request is complete: it is taken from the buffer, and delivered
      obtain ⟨⟨n, c₁⟩, hdel, rfl⟩ := except_map_ok.mp h
      have hkeep := driverDeliver_untouched hdel
      refine ⟨fun e' he' => ?_, ?_⟩
      · obtain ⟨e₁, he₁, hbuf, -⟩ := hkeep.ent e' he'
        rw [hbuf, ← Option.some.inj he₁]
      · rw [hkeep.inputs, if_pos ⟨hdata, hpos⟩]
        exact List.map_append

end Client

namespace Stream

/-- `s'` is what a read that an active entity takes makes of `s`. -/
structure Took (s : Stream) (e : Entity) (bytes : List UInt8) (consumed : Int) (s' : Stream) :
    Prop where
  reads : s.client.Reads e bytes consumed s'.client
  received : s'.received = s.received ++ [bytes]
  consumed : s'.consumed = s.consumed ++
    if e.rbuf ++ bytes ≠ [] ∧ 0 < consumed then [(e.rbuf ++ bytes).take consumed.toNat] else []

/-- Bytes that come in are taken as the driver does. -/
theorem exec_read {s s' : Stream} {e : Entity} {bytes : List UInt8} {consumed : Int}
    (h : s.exec (.read (some bytes) consumed) = .ok s') (hreader : s.client.reader = some e) :
    s.Took e bytes consumed s' := by
  obtain ⟨c', hexec, rfl⟩ := except_map_ok.mp h
  refine ⟨Client.readCb_reads hexec hreader, ?_, ?_⟩
  · simp [Client.arrives, hreader]
  · simp only [Client.takes, hreader]

/-- **What a step does to the stream.** A read that an active entity takes, or nothing. -/
theorem exec_cases {s s' : Stream} {a : ClientAction} (h : s.exec a = .ok s') :
    s.client.Untouched s'.client ∧ s'.received = s.received ∧ s'.consumed = s.consumed ∨
      ∃ e bytes consumed, a = .read (some bytes) consumed ∧ s.client.reader = some e ∧
        s.Took e bytes consumed s' := by
  obtain ⟨c', hexec, rfl⟩ := except_map_ok.mp h
  -- in all other steps nothing arrives and nothing is taken
  have hidle (huntouched : s.client.Untouched c') (harrives : s.client.arrives a = [])
      (htakes : s.client.takes a = []) :
      s.client.Untouched c' ∧ s.received ++ s.client.arrives a = s.received ∧
        s.consumed ++ s.client.takes a = s.consumed :=
    ⟨huntouched, by rw [harrives, List.append_nil], by rw [htakes, List.append_nil]⟩
  cases a with
  | read arrived consumed =>
    cases arrived with
    | none =>
      have hread : s.client.readCb none consumed = .ok c' := hexec
      obtain rfl := Client.readCb_none hread
      exact .inl (hidle (.refl _) rfl rfl)
    | some bytes =>
      cases hreader : s.client.reader with
      | none =>
        obtain rfl := Client.readCb_idle hexec hreader
        refine .inl (hidle (.refl _) ?_ ?_)
        · simp [Client.arrives, hreader]
        · simp [Client.takes, hreader]
      | some e =>
        exact .inr ⟨e, bytes, consumed, rfl, rfl, exec_read h hreader⟩
  | error => exact .inl (hidle (Client.safeDestroy_fades hexec).untouched rfl rfl)
  | resume txn =>
    refine .inl (hidle ?_ rfl rfl)
    rw [← Except.ok.inj hexec]
    exact ⟨rfl, (Client.Untouched.refl s.client).ent⟩
  | workflowRun i outcome =>
    refine .inl (hidle ?_ rfl rfl)
    simp only [Client.exec] at hexec
    split at hexec
    · rw [← Except.ok.inj hexec]
      exact .refl _
    · have hrun := Client.workflowRun_untouched hexec
      exact ⟨hrun.inputs, hrun.ent⟩
  | cleanDead => exact .inl (hidle (Client.cleanDead_fades hexec).untouched rfl rfl)
  | shutdown => exact .inl (hidle (Client.mgrDestroy_fades hexec).untouched rfl rfl)

/-! ### The inputs of the transactions -/

/-- The inputs stored in the transactions are the bytes that were taken for them, and these are
    the first ones of the stream. -/
def Partitions (s : Stream) : Prop :=
  s.client.inputs.map Prod.snd = s.consumed ∧
    (s.client.inputs.map Prod.snd).flatten <+: s.received.flatten

/-- A request that is taken is all that is buffered. -/
def Whole (s : Stream) : ClientAction → Prop
  | .read (some bytes) consumed => ∀ e ∈ s.client.reader, 0 < consumed →
      ((e.rbuf ++ bytes).length : Int) ≤ consumed
  | _ => True

/-- `rest` is what is left of the stream, in the buffer of an active entity. -/
structure Left (s : Stream) (rest : List UInt8) : Prop where
  stream : s.received.flatten = s.consumed.flatten ++ rest
  rbuf : ∀ e, s.client.reader = some e → e.rbuf = rest

/-- A reader that is left alone has the bytes it had. -/
theorem reader_untouched {c c' : Client} (h : c.Untouched c') {e' : Entity}
    (he' : c'.reader = some e') : ∃ e, c.reader = some e ∧ e'.rbuf = e.rbuf := by
  obtain ⟨hent', hstatus'⟩ := Option.filter_eq_some_iff.mp he'
  obtain ⟨e, hent, hbuf, hact⟩ := h.ent e' hent'
  have hstatus : e.status = .active := hact (by simpa using hstatus')
  exact ⟨e, Option.filter_eq_some_iff.mpr ⟨hent, by simpa using hstatus⟩, hbuf⟩

/-- Nothing is read. -/
theorem Left.untouched {s s' : Stream} {rest : List UInt8} (h : s.Left rest)
    (hkeep : s.client.Untouched s'.client) (hreceived : s'.received = s.received)
    (hconsumed : s'.consumed = s.consumed) : s'.Left rest := by
  refine ⟨by rw [hreceived, hconsumed]; exact h.stream, fun e' he' => ?_⟩
  obtain ⟨e, he, hbuf⟩ := reader_untouched hkeep he'
  rw [hbuf]
  exact h.rbuf e he

/-- Something is read. -/
theorem Left.reads {s s' : Stream} {e : Entity} {bytes : List UInt8} {consumed : Int}
    (h : s.Left e.rbuf) (htook : s.Took e bytes consumed s') :
    s'.Left ((e.rbuf ++ bytes).drop consumed.toNat) := by
  refine ⟨?_, fun e' he' => htook.reads.rbuf e' (Option.filter_eq_some_iff.mp he').1⟩
  rw [htook.received, htook.consumed, List.flatten_append, List.flatten_append, h.stream,
    List.flatten_singleton, List.append_assoc, List.append_assoc]
  congr 1
  split
  · rw [List.flatten_singleton, List.take_append_drop]
  · rename_i hno
    rcases not_and_or.mp hno with hnil | hneg
    · rw [not_not.mp hnil, List.drop_nil]
      rfl
    · rw [Int.toNat_of_nonpos (by omega)]
      rfl

/-- What is kept while every request takes all that is buffered. -/
structure Split (s : Stream) : Prop where
  inputs : s.client.inputs.map Prod.snd = s.consumed
  left : ∃ rest, s.Left rest

/-- What is split so partitions what was read. -/
theorem Split.partitions {s : Stream} (h : s.Split) : s.Partitions := by
  obtain ⟨rest, hleft⟩ := h.left
  exact ⟨h.inputs, by rw [h.inputs, hleft.stream]; exact List.prefix_append _ _⟩

/-- What is left is what the reader holds. -/
theorem Split.left_of_reader {s : Stream} (h : s.Split) {e : Entity}
    (he : s.client.reader = some e) : s.Left e.rbuf := by
  obtain ⟨rest, hleft⟩ := h.left
  rw [hleft.rbuf e he]
  exact hleft

/-- **Kept.** -/
theorem exec_split {s s' : Stream} {a : ClientAction} (hs : s.Split) (hw : s.Whole a)
    (h : s.exec a = .ok s') : s'.Split := by
  rcases exec_cases h with ⟨hkeep, hreceived, hconsumed⟩ |
    ⟨e, bytes, consumed, rfl, hreader, htook⟩
  · obtain ⟨rest, hleft⟩ := hs.left
    exact ⟨by rw [hkeep.inputs, hconsumed]; exact hs.inputs,
      rest, hleft.untouched hkeep hreceived hconsumed⟩
  · refine ⟨?_, _, (hs.left_of_reader hreader).reads htook⟩
    rw [htook.reads.inputs, htook.consumed, hs.inputs]
    split
    · rename_i hdata
      have hall := hw e hreader hdata.2
      rw [List.take_of_length_le (by omega)]
    · rfl

/-- **Lost.** A request that leaves bytes in the buffer is stored with them. -/
theorem exec_torn {s s' : Stream} {a : ClientAction} (hs : s.Split) (hw : ¬ s.Whole a)
    (h : s.exec a = .ok s') : ¬ s'.Partitions := by
  obtain ⟨bytes, consumed, rfl, e, hreader, hpos, hless⟩ : ∃ bytes consumed,
      a = .read (some bytes) consumed ∧ ∃ e, s.client.reader = some e ∧ 0 < consumed ∧
        consumed < (e.rbuf ++ bytes).length := by
    unfold Whole at hw
    split at hw
    · rename_i bytes consumed
      simp only [Option.mem_def, not_forall, not_le] at hw
      obtain ⟨e, hreader, hpos, hless⟩ := hw
      exact ⟨bytes, consumed, rfl, e, hreader, hpos, hless⟩
    · exact absurd trivial hw
  have htook := exec_read h hreader
  have hdata : e.rbuf ++ bytes ≠ [] := by
    intro hnil
    rw [hnil, List.length_nil] at hless
    omega
  intro hparts
  have heq := hparts.1
  rw [htook.reads.inputs, htook.consumed, hs.inputs, if_pos ⟨hdata, hpos⟩,
    if_pos ⟨hdata, hpos⟩] at heq
  have htake := congrArg List.length (List.singleton_inj.mp (List.append_cancel_left heq))
  rw [List.length_take] at htake
  omega

theorem init_split {s : Stream} (h : machine.init s) : s.Split := by
  obtain ⟨⟨owned, concurrent, destroyNotxn, hclient⟩, hreceived, hconsumed⟩ := h
  refine ⟨by rw [hclient, hconsumed]; rfl, [], by rw [hreceived, hconsumed]; rfl, fun e he => ?_⟩
  rw [hclient] at he
  rw [← Option.some.inj ((Option.filter_eq_some_iff.mp he).1)]

/-- **When the inputs are the stream.** In a run, the inputs stored are at every point the bytes
    taken for them if and only if no request leaves bytes in the buffer. -/
theorem partitions_iff {s : Stream} {p : List (ClientAction × Stream)} (hs : machine.init s)
    (hp : machine.Path s p) :
    (∀ q ∈ p, q.2.Partitions) ↔ Machine.StepsMeet Whole s p :=
  Machine.path_iff (I := Split) (P := Partitions) (C := Whole) (fun _ h => h.partitions)
    (fun _ _ _ hs _ hw hx => exec_split hs hw hx)
    (fun _ _ _ hs _ hw hx => exec_torn hs hw hx) (init_split hs) hp

/-- A connection that sent nothing yet. -/
def fresh : Stream := { client := Client.accepted true false false, received := [], consumed := [] }

theorem fresh_init : machine.init fresh := ⟨⟨true, false, false, rfl⟩, rfl, rfl⟩

/-- The connection that sent two bytes at once, of which one was taken. -/
def overread : Stream := (machine.play fresh [.read (some [1, 2]) 1]).getD fresh

/-- An unpack that consumes more than there is tears the stream. -/
theorem overread_torn : ¬ ∀ s, machine.Reach Machine.anyStep s → s.Partitions := by
  intro hall
  have hplay : machine.play fresh [.read (some [1, 2]) 1] = some overread := by decide +kernel
  have hparts := (hall overread (Machine.play_reach (.init fresh_init) hplay)).1
  exact absurd hparts (by decide +kernel)

/-- Two reads against their condition. -/
theorem fresh_partitions_iff :
    (∀ q ∈ machine.trace fresh [.read (some [1]) 1, .read (some [2]) 1], q.2.Partitions) ↔
      Machine.StepsMeet Whole fresh
        (machine.trace fresh [.read (some [1]) 1, .read (some [2]) 1]) :=
  partitions_iff fresh_init (Machine.trace_path _ _)

/-! ### The requests of the stream -/

/-- The unpack function that is called is `u`. -/
def UnpackedBy (u : List UInt8 → Int) (s : Stream) : ClientAction → Prop
  | .read (some bytes) consumed => ∀ e ∈ s.client.reader, consumed = u (e.rbuf ++ bytes)
  | _ => True

/-- What is kept while `u` is called: the requests were taken read by read, and what is left is in
    the buffer of an active entity. -/
structure Cut (u : List UInt8 → Int) (s : Stream) : Prop where
  consumed : s.consumed = (collect u s.received).1
  rbuf : ∀ e, s.client.reader = some e → e.rbuf = (collect u s.received).2
  inputs : s.client.inputs.length = s.consumed.length

/-- **Kept.** A read takes what `u` says of all that is buffered. -/
theorem exec_cut {u : List UInt8 → Int} {s s' : Stream} {a : ClientAction} (hs : s.Cut u)
    (hb : s.UnpackedBy u a) (h : s.exec a = .ok s') : s'.Cut u := by
  rcases exec_cases h with ⟨hkeep, hreceived, hconsumed⟩ |
    ⟨e, bytes, consumed, rfl, hreader, htook⟩
  · refine ⟨by rw [hreceived, hconsumed]; exact hs.consumed, fun e' he' => ?_,
      by rw [hkeep.inputs, hconsumed]; exact hs.inputs⟩
    obtain ⟨e, he, hbuf⟩ := reader_untouched hkeep he'
    rw [hbuf, hreceived]
    exact hs.rbuf e he
  · have hval : consumed = u (e.rbuf ++ bytes) := hb e hreader
    have hbuf : e.rbuf = (collect u s.received).2 := hs.rbuf e hreader
    have hrbuf (e' : Entity) (he' : s'.client.reader = some e') :
        e'.rbuf = (e.rbuf ++ bytes).drop consumed.toNat :=
      htook.reads.rbuf e' (Option.filter_eq_some_iff.mp he').1
    -- there is one more input if a request is taken
    have hinputs : s'.client.inputs.length = s'.consumed.length := by
      have hlen := congrArg List.length htook.reads.inputs
      rw [List.length_map, List.length_append, List.length_map, hs.inputs] at hlen
      rw [hlen, htook.consumed, List.length_append]
      split <;> rfl
    rw [hval] at hrbuf
    have hconsumed := htook.consumed
    rw [hval, hs.consumed] at hconsumed
    by_cases htakes : Takes u (e.rbuf ++ bytes)
    · -- a request is complete
      rw [if_pos (show e.rbuf ++ bytes ≠ [] ∧ 0 < u (e.rbuf ++ bytes) from htakes)] at hconsumed
      have hnext := receive_pos (s := collect u s.received) (hbuf ▸ htakes)
      rw [← hbuf] at hnext
      refine ⟨?_, fun e' he' => ?_, hinputs⟩
      · rw [htook.received, collect_append, hnext]
        exact hconsumed
      · rw [htook.received, collect_append, hnext]
        exact hrbuf e' he'
    · -- no request is complete, and everything stays
      rw [if_neg (show ¬ (e.rbuf ++ bytes ≠ [] ∧ 0 < u (e.rbuf ++ bytes)) from htakes),
        List.append_nil] at hconsumed
      have hnext := receive_neg (s := collect u s.received) (hbuf ▸ htakes)
      rw [← hbuf] at hnext
      refine ⟨?_, fun e' he' => ?_, hinputs⟩
      · rw [htook.received, collect_append, hnext]
        exact hconsumed
      · rw [htook.received, collect_append, hnext, hrbuf e' he']
        by_cases hdata : e.rbuf ++ bytes = []
        · rw [hdata, List.drop_nil]
        · have hneg : ¬ 0 < u (e.rbuf ++ bytes) := fun hpos => htakes ⟨hdata, hpos⟩
          rw [Int.toNat_of_nonpos (by omega)]
          rfl

/-- Nothing was received on a new connection. -/
theorem init_cut {u : List UInt8 → Int} {s : Stream} (h : machine.init s) : s.Cut u := by
  obtain ⟨⟨owned, concurrent, destroyNotxn, hclient⟩, hreceived, hconsumed⟩ := h
  refine ⟨by rw [hreceived, hconsumed]; rfl, fun e he => ?_,
    by rw [hclient, hconsumed]; rfl⟩
  rw [hclient] at he
  rw [hreceived, ← Option.some.inj ((Option.filter_eq_some_iff.mp he).1)]
  rfl

/-- In every state of every run, one call for each read has taken what was taken. -/
theorem reach_cut {u : List UInt8 → Int} {s : Stream} (hs : machine.Reach (UnpackedBy u) s) :
    s.Cut u :=
  hs.invariant (fun _ h => init_cut h) (fun _ _ _ hs _ hb hx => exec_cut hs hb hx)

/-- **When all requests are taken.** Whatever the unpack function and the reads, there is one
    transaction for each request that was taken; and these are the requests of all that was
    received, one after the other, if and only if each of them has a read of its own.  For an unpack
    function that does not look behind a request, this is that no number of last reads completes
    more requests than they are; for one that takes all that is buffered, that at most one read
    brings bytes. -/
theorem parsed_iff {u : List UInt8 → Int} {s : Stream} (hs : machine.Reach (UnpackedBy u) s) :
    s.client.inputs.length = s.consumed.length ∧
      (s.consumed = parse u s.received.flatten ↔ Spaced u s.received) ∧
      (Framed u → (Spaced u s.received ↔ ∀ i ≤ s.received.length,
        (parse u s.received.flatten).length ≤
          complete u s.received i + (s.received.length - i))) ∧
      ((∀ b, u b = b.length) →
        (Spaced u s.received ↔ (s.received.filter fun bytes => !bytes.isEmpty).length ≤ 1)) := by
  have hcut := reach_cut hs
  refine ⟨hcut.inputs, ?_, fun hu => spaced_iff_complete hu _, fun hu => spaced_iff_single hu _⟩
  rw [hcut.consumed]
  exact collect_iff s.received

instance (u : List UInt8 → Int) (s : Stream) (a : ClientAction) : Decidable (s.UnpackedBy u a) :=
  match a with
  | .read (some bytes) consumed =>
    inferInstanceAs (Decidable (∀ e ∈ s.client.reader, consumed = u (e.rbuf ++ bytes)))
  | .read none _ | .error | .resume _ | .workflowRun .. | .cleanDead | .shutdown =>
    inferInstanceAs (Decidable True)

/-- The unpack function of the format whose requests are single bytes. -/
def unpackByte : List UInt8 → Int
  | [] => 0
  | _ :: _ => 1

/-- It is one. -/
theorem unpackByte_unpacks : Unpacks (fun r : List UInt8 => r.length = 1) unpackByte := by
  intro b
  cases b with
  | nil => simp [unpackByte]
  | cons x b =>
    refine ⟨fun h => absurd h (by simp [unpackByte]), fun h => ?_⟩
    exact absurd (by simp) (h 1)

/-- Two requests that come in with one read: only the first one is ever taken. -/
theorem overread_unparsed : ¬ ∀ (isRequest : List UInt8 → Prop) (u : List UInt8 → Int),
    Unpacks isRequest u → ∀ s, machine.Reach (UnpackedBy u) s →
      s.consumed = parse u s.received.flatten := by
  intro hall
  have hreach : machine.Reach (UnpackedBy unpackByte) overread := by
    refine Machine.Path.reach (.init fresh_init)
      (Machine.trace_path [.read (some [1, 2]) 1] fresh) (by decide +kernel)
      (.read (some [1, 2]) 1, overread) (by decide +kernel)
  have heq := hall _ _ unpackByte_unpacks overread hreach
  exact absurd heq (by decide +kernel)

/-- Two requests that come in one after the other. -/
def paced : Stream := machine.final fresh [.read (some [1]) 1, .read (some [2]) 1]

/-- Both of them are taken. -/
theorem fresh_parsed_iff :
    paced.client.inputs.length = paced.consumed.length ∧
      (paced.consumed = parse unpackByte paced.received.flatten ↔
        Spaced unpackByte paced.received) ∧
      (Framed unpackByte → (Spaced unpackByte paced.received ↔ ∀ i ≤ paced.received.length,
        (parse unpackByte paced.received.flatten).length ≤
          complete unpackByte paced.received i + (paced.received.length - i))) ∧
      ((∀ b, unpackByte b = b.length) → (Spaced unpackByte paced.received ↔
        (paced.received.filter fun bytes => !bytes.isEmpty).length ≤ 1)) :=
  parsed_iff (Machine.final_reach (.init fresh_init) _ (by decide +kernel))

end Stream

end Skull
