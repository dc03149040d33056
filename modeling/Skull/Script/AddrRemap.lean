import Mathlib.Algebra.Order.Ring.Int
import Skull.Lib.Dict
import Skull.Lib.Machine

namespace Skull

open Machines

/-!
# The trace report (`skull-addr-remap.py`)

The script reads the trace lines of the allocator and keeps three dictionaries: `MemMap`, the live
blocks of each scope; `MemStat`, the usage of each calling address; `CrossScope`, the blocks that
another scope freed.

* `AddrRemap.recordAction` — `recordAction`, with `createRecord`, `removeRecord`,
  `collectCrossScope` and `recordMemStat`;
* `AddrRemap.Line.WellFormed` — the lines that an allocator can trace, by the blocks live then;
* `AddrRemap.Accounts` — what the dictionaries are to hold;
* `AddrRemap.accounts_iff` — they do after every line exactly when no block is resized in place:
  a resize in place adds the new size to the old one, and leaves `MemStat` alone.
-/

namespace AddrRemap

/-! ### The dictionaries -/

/-- How a null pointer is traced. -/
def nilAddr : String := "(nil)"

/-- A record of `details`. -/
structure Detail where
  sz : Int
  saddr : String
  deriving DecidableEq

/-- A scope's entry of `MemMap`. -/
structure Block where
  usage : Int
  nalloc : Int
  ndalloc : Int
  details : Dict String Detail
  deriving DecidableEq

/-- The entry that the `setdefault` calls make. -/
def Block.default : Block := ⟨0, 0, 0, .empty⟩

/-- A scope's entry of `MemStat`, below the calling address. -/
structure MemStat where
  usage : Int
  nalloc : Int
  ndalloc : Int
  deriving DecidableEq

/-- `_createMemStat`. -/
def MemStat.create : MemStat := ⟨0, 0, 0⟩

/-- An entry of `CrossScope`. -/
structure Cross where
  alloced : Detail
  allocedIn : String
  freed : Detail
  freedIn : String
  count : Nat
  deriving DecidableEq

/-- `MemMap`, `MemStat` and `CrossScope`. -/
structure Report where
  memMap : Dict String Block
  memStat : Dict String (Dict String MemStat)
  crossScope : Dict String Cross
  deriving DecidableEq

/-- The report before the first line. -/
def Report.empty : Report := ⟨.empty, .empty, .empty⟩

/-- `MemMap[scope]`, which is there after the `setdefault` calls. -/
def Report.block (r : Report) (scope : String) : Block := (r.memMap.get? scope).getD .default

/-- `recordMemStat`. -/
def recordMemStat (memStat : Dict String (Dict String MemStat)) (scope sAddr : String)
    (isAlloc : Bool) (dataSz : Int) : Dict String (Dict String MemStat) :=
  if isAlloc then
    let entry := (memStat.get? sAddr).getD .empty
    let block := (entry.get? scope).getD .create
    memStat.set sAddr (entry.set scope
      { block with usage := block.usage + dataSz, nalloc := block.nalloc + 1 })
  else
    match memStat.get? sAddr with
    | none => memStat
    | some entry =>
      match entry.get? scope with
      | none => memStat
      | some block =>
        memStat.set sAddr (entry.set scope
          { block with usage := block.usage - dataSz, ndalloc := block.ndalloc + 1 })

/-- `createRecord`. -/
def createRecord (r : Report) (scope dataAddr : String) (dataSz : Int) (sAddr : String) : Report :=
  let block := r.block scope
  { r with
    memMap := r.memMap.set scope
      { block with
        usage := block.usage + dataSz, nalloc := block.nalloc + 1
        details := block.details.set dataAddr { sz := dataSz, saddr := sAddr } }
    memStat := recordMemStat r.memStat scope sAddr true dataSz }

/-- The second half of `removeRecord`, for the record `detail` of the scope. -/
def popRecord (r : Report) (scope dataAddr : String) (dataSz : Int) (detail : Detail) : Report :=
  let block := r.block scope
  { r with
    memMap := r.memMap.set scope
      { block with
        usage := block.usage - dataSz, ndalloc := block.ndalloc + 1
        details := block.details.erase dataAddr }
    memStat := recordMemStat r.memStat scope detail.saddr false dataSz }

/-- The entry of `CrossScope` for one more block that was freed. -/
def crossRecord (r : Report) (rawScope name : String) (dataSz : Int) (sAddr : String)
    (record : Detail) : Report :=
  let key := record.saddr ++ "_" ++ sAddr ++ "_" ++ toString dataSz
  let cross := match r.crossScope.get? key with
    | none => { alloced := record, allocedIn := name, freed := { sz := dataSz, saddr := sAddr }
                freedIn := rawScope, count := 1 }
    | some cross => { cross with count := cross.count + 1 }
  { r with crossScope := r.crossScope.set key cross }

/-- `collectCrossScope`: the first scope that has the address gives up its record. -/
def collectCrossScope (r : Report) (rawScope dataAddr : String) (dataSz : Int) (sAddr : String) :
    Report :=
  match r.memMap.find? fun _ block => (block.details.get? dataAddr).isSome with
  | none => r
  | some (name, block) =>
    match block.details.get? dataAddr with
    | none => r
    | some record =>
      popRecord (crossRecord r rawScope name dataSz sAddr record) name dataAddr dataSz record

/-- `removeRecord`. -/
def removeRecord (r : Report) (scope dataAddr : String) (dataSz : Int) (sAddr : String) : Report :=
  if dataAddr = nilAddr then r
  else
    match (r.block scope).details.get? dataAddr with
    | none => collectCrossScope r scope dataAddr dataSz sAddr
    | some detail => popRecord r scope dataAddr dataSz detail

/-- The branch of `recordAction` for a block that was not moved. -/
def resizeRecord (r : Report) (scope ptr : String) (oldSz newSz : Int) : Report :=
  let block := r.block scope
  match block.details.get? ptr with
  | none => r
  | some detail =>
    let block := { block with
      usage := block.usage + (newSz - oldSz)
      details := block.details.set ptr { detail with sz := detail.sz + newSz } }
    { r with memMap := r.memMap.set scope block }

/-- What a trace line reports: an allocation by `malloc`, `calloc`, `posix_memalign` or
    `aligned_alloc`, a `realloc`, or a `free`. -/
inductive Call
  | alloc (dataAddr : String) (dataSz : Nat)
  | realloc (oldPtr newPtr : String) (oldSz newSz : Nat)
  | free (dataAddr : String) (dataSz : Nat)
  deriving DecidableEq

/-- A trace line. -/
structure Line where
  scope : String
  sAddr : String
  call : Call
  deriving DecidableEq

/-- `recordAction`. -/
def recordAction (r : Report) (l : Line) : Report :=
  let r := { r with memMap := r.memMap.set l.scope (r.block l.scope) }
  match l.call with
  | .alloc dataAddr dataSz => createRecord r l.scope dataAddr dataSz l.sAddr
  | .realloc oldPtr newPtr oldSz newSz =>
    if oldPtr = nilAddr then createRecord r l.scope newPtr newSz l.sAddr
    else if newPtr = nilAddr then removeRecord r l.scope oldPtr oldSz l.sAddr
    else if oldPtr ≠ newPtr then
      removeRecord (createRecord r l.scope newPtr newSz l.sAddr) l.scope oldPtr oldSz l.sAddr
    else resizeRecord r l.scope oldPtr oldSz newSz
  | .free dataAddr dataSz => removeRecord r l.scope dataAddr dataSz l.sAddr

/-! ### The traced program -/

/-- The live blocks of the program, with their current sizes. -/
abbrev Live := Dict String Nat

/-- **A line that an allocator can trace**: what is allocated is no live block, and the sizes of a
    live block are its current one; a block that is not known may be freed. -/
def Line.WellFormed (live : Live) (l : Line) : Prop :=
  match l.call with
  | .alloc dataAddr _ => dataAddr ≠ nilAddr ∧ live.get? dataAddr = none
  | .realloc oldPtr newPtr oldSz _ =>
    if oldPtr = nilAddr then newPtr ≠ nilAddr ∧ live.get? newPtr = none
    else live.get? oldPtr = some oldSz ∧
      (newPtr = nilAddr ∨ newPtr = oldPtr ∨ live.get? newPtr = none)
  | .free dataAddr dataSz =>
    dataAddr = nilAddr ∨ live.get? dataAddr = none ∨ live.get? dataAddr = some dataSz

instance (live : Live) (l : Line) : Decidable (l.WellFormed live) :=
  match l with
  | ⟨_, _, .alloc dataAddr _⟩ =>
    inferInstanceAs (Decidable (dataAddr ≠ nilAddr ∧ live.get? dataAddr = none))
  | ⟨_, _, .realloc oldPtr newPtr oldSz _⟩ =>
    inferInstanceAs (Decidable (if oldPtr = nilAddr then newPtr ≠ nilAddr ∧ live.get? newPtr = none
      else live.get? oldPtr = some oldSz ∧
        (newPtr = nilAddr ∨ newPtr = oldPtr ∨ live.get? newPtr = none)))
  | ⟨_, _, .free dataAddr dataSz⟩ =>
    inferInstanceAs (Decidable (dataAddr = nilAddr ∨ live.get? dataAddr = none ∨
      live.get? dataAddr = some dataSz))

/-- The live blocks after a line. -/
def Line.after (live : Live) (l : Line) : Live :=
  match l.call with
  | .alloc dataAddr dataSz => live.set dataAddr dataSz
  | .realloc oldPtr newPtr _ newSz =>
    if oldPtr = nilAddr then live.set newPtr newSz
    else if newPtr = nilAddr then live.erase oldPtr
    else if oldPtr ≠ newPtr then (live.set newPtr newSz).erase oldPtr
    else live.set oldPtr newSz
  | .free dataAddr _ => if dataAddr = nilAddr then live else live.erase dataAddr

/-- The report and the live blocks. -/
structure Traced where
  report : Report
  live : Live

/-- The runs of the script over well-formed traces. -/
def machine : Machine Traced Line Empty where
  init s := s = ⟨.empty, .empty⟩
  enabled s l := l.WellFormed s.live
  exec s l := .ok ⟨recordAction s.report l, l.after s.live⟩

/-! ### What the dictionaries are to hold -/

/-- The usage of a scope in `MemStat`, over all addresses. -/
def statUsage (memStat : Dict String (Dict String MemStat)) (scope : String) : Int :=
  memStat.sum fun _ entry => (entry.get? scope).elim 0 MemStat.usage

/-- **The accounts of a report**, for the live blocks of the program. -/
structure Accounts (s : Traced) : Prop where
  /-- The usage of a scope is the sum of its records, … -/
  usage : ∀ scope, (s.report.block scope).usage =
    (s.report.block scope).details.sum fun _ detail => detail.sz
  /-- … each of which has the current size of its block. -/
  current : ∀ scope addr detail, (s.report.block scope).details.get? addr = some detail →
    ∃ n, s.live.get? addr = some n ∧ detail.sz = n
  count : ∀ scope, (s.report.block scope).nalloc - (s.report.block scope).ndalloc =
    (s.report.block scope).details.size
  stat : ∀ scope, statUsage s.report.memStat scope = (s.report.block scope).usage

/-- A line does not resize a block in place, or leaves the accounts right by chance: the block is
    another scope's and keeps its size, or its sizes are zero. -/
def NotResized (s : Traced) (l : Line) : Prop :=
  match l.call with
  | .realloc oldPtr newPtr oldSz newSz => oldPtr = newPtr →
    if ((s.report.block l.scope).details.get? oldPtr).isSome then oldSz = 0 ∧ newSz = 0
    else newSz = oldSz
  | _ => True

instance (s : Traced) (l : Line) : Decidable (NotResized s l) :=
  match l with
  | ⟨scope, _, .realloc oldPtr newPtr oldSz newSz⟩ =>
    inferInstanceAs (Decidable (oldPtr = newPtr →
      if ((s.report.block scope).details.get? oldPtr).isSome then oldSz = 0 ∧ newSz = 0
      else newSz = oldSz))
  | ⟨_, _, .alloc _ _⟩ => inferInstanceAs (Decidable True)
  | ⟨_, _, .free _ _⟩ => inferInstanceAs (Decidable True)

instance (s : Traced) (l : Line) : Decidable (machine.enabled s l) :=
  inferInstanceAs (Decidable (l.WellFormed s.live))

/-! ### The dictionaries after a change -/

/-- `MemStat` has an entry for a scope below an address. -/
def Known (memStat : Dict String (Dict String MemStat)) (sAddr scope : String) : Prop :=
  ((memStat.get? sAddr).bind fun entry => entry.get? scope).isSome

section Changes

variable (memStat : Dict String (Dict String MemStat)) (scope sAddr : String) (sz : Int)

/-- **An allocation** adds its size to the usage of the scope. -/
theorem statUsage_alloc (scope' : String) :
    statUsage (recordMemStat memStat scope sAddr true sz) scope' =
      statUsage memStat scope' + if scope' = scope then sz else 0 := by
  set entry := (memStat.get? sAddr).getD .empty with hentry
  set block := (entry.get? scope).getD .create with hblock
  have hsum := Dict.sum_set (fun _ (entry : Dict String MemStat) =>
    (entry.get? scope').elim 0 MemStat.usage) memStat sAddr (entry.set scope
      { block with usage := block.usage + sz, nalloc := block.nalloc + 1 })
  have hpart : Dict.part (fun _ (entry : Dict String MemStat) =>
      (entry.get? scope').elim 0 MemStat.usage) memStat sAddr =
        (entry.get? scope').elim 0 MemStat.usage := by
    rw [Dict.part, hentry]
    cases memStat.get? sAddr <;> simp
  have husage : block.usage = (entry.get? scope).elim 0 MemStat.usage := by
    rw [hblock]
    cases entry.get? scope <;> rfl
  rw [hpart, Dict.get?_set] at hsum
  rw [recordMemStat, if_pos rfl, statUsage, statUsage]
  simp only [← hentry, ← hblock]
  by_cases hscope : scope' = scope
  · subst hscope
    simp only [if_true, Option.elim_some] at hsum ⊢
    omega
  · simp only [if_neg hscope] at hsum ⊢
    omega

/-- **A deallocation** takes its size off, where there is an entry to take it from. -/
theorem statUsage_free (hknown : Known memStat sAddr scope) (scope' : String) :
    statUsage (recordMemStat memStat scope sAddr false sz) scope' =
      statUsage memStat scope' - if scope' = scope then sz else 0 := by
  obtain ⟨block, hbind⟩ := Option.isSome_iff_exists.mp hknown
  obtain ⟨entry, hentry, hblock⟩ := Option.bind_eq_some_iff.mp hbind
  have hsum := Dict.sum_set (fun _ (entry : Dict String MemStat) =>
    (entry.get? scope').elim 0 MemStat.usage) memStat sAddr (entry.set scope
      { block with usage := block.usage - sz, ndalloc := block.ndalloc + 1 })
  rw [Dict.part, hentry, Dict.get?_set, Option.elim_some] at hsum
  simp only [recordMemStat, Bool.false_eq_true, if_false, hentry, hblock, statUsage]
  by_cases hscope : scope' = scope
  · subst hscope
    simp only [if_true, Option.elim_some, hblock] at hsum ⊢
    omega
  · simp only [if_neg hscope] at hsum ⊢
    omega

variable {memStat scope sAddr sz}

/-- An allocation makes its address known in its scope. -/
theorem known_alloc {sAddr' scope' : String}
    (h : sAddr' = sAddr ∧ scope' = scope ∨ Known memStat sAddr' scope') :
    Known (recordMemStat memStat scope sAddr true sz) sAddr' scope' := by
  simp only [Known, recordMemStat, if_true, Dict.get?_set]
  by_cases hs : sAddr' = sAddr
  · subst hs
    rw [if_pos rfl, Option.bind_some, Dict.get?_set]
    by_cases hc : scope' = scope
    · rw [if_pos hc]; rfl
    · have hknown : Known memStat sAddr' scope' := h.resolve_left fun hboth => hc hboth.2
      obtain ⟨block, hbind⟩ := Option.isSome_iff_exists.mp hknown
      obtain ⟨entry, hentry, hblock⟩ := Option.bind_eq_some_iff.mp hbind
      simp [hc, hentry, hblock]
  · rw [if_neg hs]
    exact h.resolve_left fun hboth => hs hboth.1

/-- A free makes no address unknown. -/
theorem known_free {sAddr' scope' : String} (h : Known memStat sAddr' scope') :
    Known (recordMemStat memStat scope sAddr false sz) sAddr' scope' := by
  simp only [recordMemStat, Bool.false_eq_true, if_false]
  split
  · exact h
  · rename_i entry hentry
    split
    · exact h
    · rename_i block hblock
      simp only [Known, Dict.get?_set] at h ⊢
      by_cases hs : sAddr' = sAddr
      · subst hs
        rw [if_pos rfl, Option.bind_some, Dict.get?_set]
        by_cases hc : scope' = scope
        · rw [if_pos hc]; rfl
        · rw [if_neg hc]
          simpa [hentry] using h
      · rw [if_neg hs]
        exact h

end Changes

/-- The blocks of the scopes after one of them changes. -/
theorem block_set (r : Report) (scope scope' : String) (b : Block)
    (memStat : Dict String (Dict String MemStat)) (crossScope : Dict String Cross) :
    Report.block ⟨r.memMap.set scope b, memStat, crossScope⟩ scope' =
      if scope' = scope then b else r.block scope' := by
  rw [Report.block, Dict.get?_set]
  split <;> rfl

/-! ### The invariant -/

/-- **The invariant**: the accounts, and every live block is recorded by one scope, with an entry
    in `MemStat`. -/
structure Inv (s : Traced) : Prop extends Accounts s where
  recorded : ∀ addr n, s.live.get? addr = some n →
    ∃ scope detail, (s.report.block scope).details.get? addr = some detail
  once : ∀ addr scope scope' detail detail',
    (s.report.block scope).details.get? addr = some detail →
    (s.report.block scope').details.get? addr = some detail' → scope = scope'
  known : ∀ scope addr detail, (s.report.block scope).details.get? addr = some detail →
    Known s.report.memStat detail.saddr scope
  nil : s.live.get? nilAddr = none

/-- Nothing is recorded in the beginning. -/
theorem inv_empty : Inv ⟨.empty, .empty⟩ where
  usage _ := rfl
  current _ _ _ h := absurd h (by simp [Report.block, Report.empty, Block.default])
  count _ := rfl
  stat _ := rfl
  recorded _ _ h := absurd h (by simp)
  once _ _ _ _ _ h := absurd h (by simp [Report.block, Report.empty, Block.default])
  known _ _ _ h := absurd h (by simp [Report.block, Report.empty, Block.default])
  nil := rfl

variable {r : Report} {live : Live} {scope addr : String}

/-- An address that is not live is recorded nowhere. -/
theorem Inv.unrecorded (h : Inv ⟨r, live⟩) (hlive : live.get? addr = none) (scope : String) :
    (r.block scope).details.get? addr = none := by
  cases hget : (r.block scope).details.get? addr with
  | none => rfl
  | some detail =>
    obtain ⟨n, hn, -⟩ := h.current scope addr detail hget
    exact absurd (hlive.symm.trans hn) (by simp)

/-- The records after a block is recorded. -/
theorem createRecord_details (r : Report) (scope addr : String) (n : Int) (sAddr : String)
    (c a : String) : ((createRecord r scope addr n sAddr).block c).details.get? a =
      if c = scope ∧ a = addr then some ⟨n, sAddr⟩ else (r.block c).details.get? a := by
  rw [createRecord, block_set]
  by_cases hc : c = scope
  · subst hc
    simp only [if_true, Dict.get?_set, true_and]
  · simp only [hc, false_and, if_false]

/-- The accounts after a block is recorded that becomes live. -/
theorem Inv.create_accounts (h : Inv ⟨r, live⟩) (hlive : live.get? addr = none) (scope : String)
    (n : Nat) (sAddr : String) :
    Accounts ⟨createRecord r scope addr n sAddr, live.set addr n⟩ := by
  -- the block is new for every scope
  have hunrec := h.unrecorded hlive
  have hdetails := createRecord_details r scope addr n sAddr
  constructor
  case usage =>
    intro c
    show ((createRecord r scope addr n sAddr).block c).usage = _
    rw [createRecord, block_set]
    -- the scope of the block, and the others
    by_cases hc : c = scope
    · subst hc
      simp only [if_true]
      rw [Dict.sum_set_new _ (hunrec c), h.usage c]
    · simpa only [if_neg hc] using h.usage c
  case current =>
    intro c a d hget
    rw [hdetails] at hget
    split at hget
    · -- the block that is new has its size
      rename_i hca
      refine ⟨n, ?_, ?_⟩
      · show (live.set addr n).get? a = some n
        rw [hca.2, Dict.get?_set_self]
      · rw [← Option.some.inj hget]
    · obtain ⟨m, hm, hsz⟩ := h.current c a d hget
      refine ⟨m, ?_, hsz⟩
      -- the others were live before
      have hne : a ≠ addr := fun ha => by
        rw [ha] at hm
        exact absurd (hlive.symm.trans hm) (by simp)
      exact (Dict.get?_set_of_ne live n hne).trans hm
  case count =>
    intro c
    -- one call more was counted
    show ((createRecord r scope addr n sAddr).block c).nalloc -
      ((createRecord r scope addr n sAddr).block c).ndalloc = _
    have hcount := h.count c
    rw [createRecord, block_set]
    by_cases hc : c = scope
    · subst hc
      simp only [if_true]
      rw [Dict.size_eq_sum, Dict.sum_set_new _ (hunrec c), ← Dict.size_eq_sum]
      simp only at hcount
      omega
    · simpa only [if_neg hc] using hcount
  case stat =>
    intro c
    -- the statistics of the stack
    show statUsage (recordMemStat r.memStat scope sAddr true n) c =
      ((createRecord r scope addr n sAddr).block c).usage
    have hstat := h.stat c
    rw [statUsage_alloc, createRecord, block_set]
    by_cases hc : c = scope
    · subst hc
      simp only [if_true]
      rw [hstat]
    · simpa only [if_neg hc, add_zero] using hstat

/-- **Recording a block** that becomes live. -/
theorem Inv.create (h : Inv ⟨r, live⟩) (hnil : addr ≠ nilAddr) (hlive : live.get? addr = none)
    (scope : String) (n : Nat) (sAddr : String) :
    Inv ⟨createRecord r scope addr n sAddr, live.set addr n⟩ := by
  have hunrec := h.unrecorded hlive
  have hdetails := createRecord_details r scope addr n sAddr
  constructor
  case toAccounts => exact h.create_accounts hlive scope n sAddr
  case recorded =>
    intro a m hget
    -- the new block is recorded in its scope
    by_cases ha : a = addr
    · exact ⟨scope, ⟨n, sAddr⟩, by rw [hdetails, if_pos ⟨rfl, ha⟩]⟩
    · obtain ⟨c, d, hd⟩ := h.recorded a m ((Dict.get?_set_of_ne live n ha).symm.trans hget)
      exact ⟨c, d, by rw [hdetails, if_neg fun hca => ha hca.2]; exact hd⟩
  case once =>
    intro a c c' d d' hd hd'
    rw [hdetails] at hd hd'
    -- a block in two scopes would have been recorded before
    split at hd
    · rename_i hca
      split at hd'
      · rename_i hca'
        rw [hca.1, hca'.1]
      · rw [hca.2, hunrec c'] at hd'
        exact absurd hd' (by simp)
    · split at hd'
      · rename_i hca'
        rw [hca'.2, hunrec c] at hd
        exact absurd hd (by simp)
      · exact h.once a c c' d d' hd hd'
  case known =>
    -- the stack of the new block is known now
    intro c a d hd
    rw [hdetails] at hd
    apply known_alloc
    split at hd
    · rename_i hca
      exact .inl ⟨by rw [← Option.some.inj hd], hca.1⟩
    · exact .inr (h.known c a d hd)
  case nil => exact (Dict.get?_set_of_ne live n (Ne.symm hnil)).trans h.nil

/-- The records after one of them is removed. -/
theorem popRecord_details (r : Report) (scope addr : String) (n : Int) (detail : Detail)
    (c a : String) : ((popRecord r scope addr n detail).block c).details.get? a =
      if c = scope ∧ a = addr then none else (r.block c).details.get? a := by
  rw [popRecord, block_set]
  by_cases hc : c = scope
  · subst hc
    simp only [if_true, Dict.get?_erase, true_and]
  · simp only [hc, false_and, if_false]

/-- What is recorded after a record is removed was recorded before, at another address. -/
theorem Inv.pop_recorded (h : Inv ⟨r, live⟩) {detail : Detail} {n : Nat}
    (hrec : (r.block scope).details.get? addr = some detail) {c a : String} {d : Detail}
    (hd : ((popRecord r scope addr n detail).block c).details.get? a = some d) :
    a ≠ addr ∧ (r.block c).details.get? a = some d := by
  rw [popRecord_details] at hd
  split at hd
  · exact absurd hd (by simp)
  · rename_i hca
    refine ⟨fun ha => hca ⟨?_, ha⟩, hd⟩
    -- one scope records an address
    rw [ha] at hd
    exact h.once addr c scope d detail hd hrec

/-- The accounts after the record of a block is removed that is live no more. -/
theorem Inv.pop_accounts (h : Inv ⟨r, live⟩) {detail : Detail} {n : Nat}
    (hlive : live.get? addr = some n) (hrec : (r.block scope).details.get? addr = some detail) :
    Accounts ⟨popRecord r scope addr n detail, live.erase addr⟩ := by
  -- what is recorded of the block is its size
  have hsz : detail.sz = n := by
    obtain ⟨m, hm, hsz⟩ := h.current scope addr detail hrec
    rw [hsz, Option.some.inj (hm.symm.trans hlive)]
  constructor
  case usage =>
    intro c
    show ((popRecord r scope addr n detail).block c).usage = _
    have husage := h.usage c
    rw [popRecord, block_set]
    -- the scope of the block loses what was recorded of it
    by_cases hc : c = scope
    · subst hc
      have hsum := Dict.sum_erase (fun _ (d : Detail) => d.sz) (r.block c).details addr
      rw [Dict.part, hrec, Option.elim_some] at hsum
      simp only [if_true] at husage ⊢
      omega
    · simpa only [if_neg hc] using husage
  case current =>
    intro c a d hget
    -- what is still recorded was so before, and of another block
    obtain ⟨ha, hd⟩ := h.pop_recorded hrec hget
    obtain ⟨m, hm, hsz⟩ := h.current c a d hd
    refine ⟨m, ?_, hsz⟩
    show (live.erase addr).get? a = some m
    rw [Dict.get?_erase, if_neg ha]
    exact hm
  case count =>
    intro c
    show ((popRecord r scope addr n detail).block c).nalloc -
      ((popRecord r scope addr n detail).block c).ndalloc = _
    have hcount := h.count c
    rw [popRecord, block_set]
    by_cases hc : c = scope
    · -- one call of `free` more was counted
      subst hc
      have hsum := Dict.sum_erase (fun _ (_ : Detail) => (1 : Int)) (r.block c).details addr
      rw [Dict.part, hrec, Option.elim_some, ← Dict.size_eq_sum, ← Dict.size_eq_sum] at hsum
      simp only [if_true] at hcount ⊢
      omega
    · simpa only [if_neg hc] using hcount
  case stat =>
    intro c
    show statUsage (recordMemStat r.memStat scope detail.saddr false n) c =
      ((popRecord r scope addr n detail).block c).usage
    have hstat := h.stat c
    rw [statUsage_free _ _ _ _ (h.known scope addr detail hrec), popRecord, block_set]
    by_cases hc : c = scope
    · subst hc
      simp only [if_true]
      rw [hstat]
    · simpa only [if_neg hc, sub_zero] using hstat

/-- **Removing the record** of a block that is live no more. -/
theorem Inv.pop (h : Inv ⟨r, live⟩) {detail : Detail} {n : Nat} (hlive : live.get? addr = some n)
    (hrec : (r.block scope).details.get? addr = some detail) :
    Inv ⟨popRecord r scope addr n detail, live.erase addr⟩ := by
  have hdetails := popRecord_details r scope addr n detail
  constructor
  case toAccounts => exact h.pop_accounts hlive hrec
  case recorded =>
    intro a m hget
    change (live.erase addr).get? a = some m at hget
    rw [Dict.get?_erase] at hget
    split at hget
    · exact absurd hget (by simp)
    · -- another block is live as before
      rename_i ha
      obtain ⟨c, d, hd⟩ := h.recorded a m hget
      exact ⟨c, d, by rw [hdetails, if_neg fun hca => ha hca.2]; exact hd⟩
  case once =>
    intro a c c' d d' hd hd'
    exact h.once a c c' d d' (h.pop_recorded hrec hd).2 (h.pop_recorded hrec hd').2
  case known =>
    intro c a d hd
    exact known_free (h.known c a d (h.pop_recorded hrec hd).2)
  case nil =>
    show (live.erase addr).get? nilAddr = none
    rw [Dict.get?_erase]
    split
    · rfl
    · exact h.nil

/-- The invariant looks at the scopes' entries and at `MemStat` only. -/
theorem Inv.congr (h : Inv ⟨r, live⟩) {r' : Report} (hblock : ∀ c, r'.block c = r.block c)
    (hstat : r'.memStat = r.memStat) : Inv ⟨r', live⟩ where
  usage c := by rw [hblock c]; exact h.usage c
  current c := by rw [hblock c]; exact h.current c
  count c := by rw [hblock c]; exact h.count c
  stat c := by rw [hblock c, hstat]; exact h.stat c
  recorded a n hn := by
    obtain ⟨c, d, hd⟩ := h.recorded a n hn
    exact ⟨c, d, by rw [hblock c]; exact hd⟩
  once a c c' := by rw [hblock c, hblock c']; exact h.once a c c'
  known c := by rw [hblock c, hstat]; exact h.known c
  nil := h.nil

/-- **Freeing a live block**, from whatever scope. -/
theorem Inv.remove (h : Inv ⟨r, live⟩) {n : Nat} (hlive : live.get? addr = some n)
    (scope sAddr : String) : Inv ⟨removeRecord r scope addr n sAddr, live.erase addr⟩ := by
  have hnil : addr ≠ nilAddr := fun heq => by
    rw [heq] at hlive
    exact absurd (hlive.symm.trans h.nil) (by simp)
  rw [removeRecord, if_neg hnil]
  cases hown : (r.block scope).details.get? addr with
  | some detail => exact h.pop hlive hown
  | none =>
    -- another scope has it
    obtain ⟨c, d, hd⟩ := h.recorded addr n hlive
    simp only [collectCrossScope]
    cases hfind : r.memMap.find? fun _ block => (block.details.get? addr).isSome with
    | none =>
      cases hblock : r.memMap.get? c with
      | none => simp [Report.block, hblock, Block.default] at hd
      | some b =>
        have hno := Dict.find?_none hfind hblock
        rw [Report.block, hblock, Option.getD_some] at hd
        simp [hd] at hno
    | some e =>
      obtain ⟨name, block⟩ := e
      obtain ⟨hblock, hsome⟩ := Dict.find?_some hfind
      obtain ⟨detail, hdetail⟩ := Option.isSome_iff_exists.mp hsome
      simp only [hdetail]
      have hrec : (r.block name).details.get? addr = some detail := by
        rw [Report.block, hblock]
        exact hdetail
      have hcross : Inv ⟨crossRecord r scope name n sAddr detail, live⟩ :=
        h.congr (fun _ => rfl) rfl
      exact hcross.pop hlive hrec

/-- Freeing what is not known changes nothing. -/
theorem Inv.remove_unknown (h : Inv ⟨r, live⟩) (hlive : live.get? addr = none)
    (scope sAddr : String) (n : Int) : removeRecord r scope addr n sAddr = r := by
  have hunrec := h.unrecorded hlive
  rw [removeRecord]
  split
  · rfl
  · rw [hunrec scope]
    simp only [collectCrossScope]
    cases hfind : r.memMap.find? fun _ block => (block.details.get? addr).isSome with
    | none => rfl
    | some e =>
      obtain ⟨name, block⟩ := e
      obtain ⟨hblock, hsome⟩ := Dict.find?_some hfind
      have hrec := hunrec name
      rw [Report.block, hblock, Option.getD_some] at hrec
      simp [hrec] at hsome

/-! ### The lines -/

/-- The report when the scope of a line has its entry. -/
def Report.withScope (r : Report) (scope : String) : Report :=
  { r with memMap := r.memMap.set scope (r.block scope) }

/-- A new scope has no blocks. -/
theorem withScope_block (r : Report) (scope c : String) :
    (r.withScope scope).block c = r.block c := by
  rw [Report.withScope, block_set]
  split
  · rename_i hc
    rw [hc]
  · rfl

/-- Opening a scope keeps what is recorded. -/
theorem Inv.withScope (h : Inv ⟨r, live⟩) (scope : String) : Inv ⟨r.withScope scope, live⟩ :=
  h.congr (withScope_block r scope) rfl

/-- The entries of the scopes after a resize in place of a block of the scope. -/
theorem resizeRecord_block {detail : Detail}
    (hrec : (r.block scope).details.get? addr = some detail) (oldSz newSz : Int) (c : String) :
    (resizeRecord r scope addr oldSz newSz).block c = if c = scope then
      { r.block scope with
        usage := (r.block scope).usage + (newSz - oldSz)
        details := (r.block scope).details.set addr { detail with sz := detail.sz + newSz } }
      else r.block c := by
  simp only [resizeRecord, hrec]
  rw [block_set]

/-- A resize in place that keeps the invariant: nothing changes. -/
theorem Inv.resize_same (h : Inv ⟨r, live⟩) {oldSz newSz : Nat}
    (hlive : live.get? addr = some oldSz)
    (hsizes : if ((r.block scope).details.get? addr).isSome then oldSz = 0 ∧ newSz = 0
      else newSz = oldSz) :
    Inv ⟨resizeRecord r scope addr oldSz newSz, live.set addr newSz⟩ := by
  cases hrec : (r.block scope).details.get? addr with
  | none =>
    rw [hrec] at hsizes
    have hnew : newSz = oldSz := hsizes
    rw [hnew, Dict.set_same hlive, resizeRecord, hrec]
    exact h
  | some detail =>
    rw [hrec] at hsizes
    obtain ⟨rfl, rfl⟩ : oldSz = 0 ∧ newSz = 0 := hsizes
    rw [Dict.set_same hlive]
    refine h.congr (fun c => ?_) ?_
    · rw [resizeRecord_block hrec]
      split
      · rename_i hc
        rw [hc]
        simp [Dict.set_same hrec]
      · rfl
    · simp only [resizeRecord, hrec]

/-- **A resize in place** breaks the accounts: of a block that the scope records it adds the new
    size to the old one, and one that another scope records keeps its old size. -/
theorem Inv.resize_breaks (h : Inv ⟨r, live⟩) {oldSz newSz : Nat}
    (hlive : live.get? addr = some oldSz)
    (hsizes : ¬ if ((r.block scope).details.get? addr).isSome then oldSz = 0 ∧ newSz = 0
      else newSz = oldSz) :
    ¬ Accounts ⟨resizeRecord r scope addr oldSz newSz, live.set addr newSz⟩ := by
  intro hacc
  have hset : (live.set addr newSz).get? addr = some newSz := Dict.get?_set_self live addr newSz
  cases hrec : (r.block scope).details.get? addr with
  | none =>
    rw [hrec] at hsizes
    have hne : newSz ≠ oldSz := hsizes
    obtain ⟨c, detail, hd⟩ := h.recorded addr oldSz hlive
    have hsame : resizeRecord r scope addr oldSz newSz = r := by simp only [resizeRecord, hrec]
    rw [hsame] at hacc
    obtain ⟨n, hn, hsz⟩ := hacc.current c addr detail hd
    obtain ⟨m, hm, hsz'⟩ := h.current c addr detail hd
    have hnew : newSz = n := Option.some.inj (hset.symm.trans hn)
    have hold : oldSz = m := Option.some.inj (hlive.symm.trans hm)
    omega
  | some detail =>
    rw [hrec] at hsizes
    have hne : ¬ (oldSz = 0 ∧ newSz = 0) := hsizes
    have hblock := resizeRecord_block hrec oldSz newSz scope
    rw [if_pos rfl] at hblock
    obtain ⟨m, hm, hsz⟩ := h.current scope addr detail hrec
    have hold : oldSz = m := Option.some.inj (hlive.symm.trans hm)
    -- the record has both sizes
    have hget : ((resizeRecord r scope addr oldSz newSz).block scope).details.get? addr =
        some { detail with sz := detail.sz + newSz } := by
      rw [hblock]
      exact Dict.get?_set_self ..
    obtain ⟨n, hn, hsum⟩ := hacc.current scope addr _ hget
    have hnew : newSz = n := Option.some.inj (hset.symm.trans hn)
    simp only at hsum
    -- so the old one is zero, and the usage grows where `MemStat` does not
    have hstat := hacc.stat scope
    have hstat₀ := h.stat scope
    simp only [hblock] at hstat
    have hmem : (resizeRecord r scope addr oldSz newSz).memStat = r.memStat := by
      simp only [resizeRecord, hrec]
    rw [hmem] at hstat
    simp only at hstat₀
    omega

/-- **A line** of a well-formed trace keeps the invariant, unless it resizes a block in place. -/
theorem Inv.line {l : Line} (h : Inv ⟨r, live⟩) (hwf : l.WellFormed live)
    (hnot : NotResized ⟨r, live⟩ l) : Inv ⟨recordAction r l, l.after live⟩ := by
  obtain ⟨scope, sAddr, call⟩ := l
  have h₀ := h.withScope scope
  cases call with
  | alloc dataAddr dataSz => exact h₀.create hwf.1 hwf.2 scope dataSz sAddr
  | free dataAddr dataSz =>
    simp only [Line.WellFormed] at hwf
    by_cases hnil : dataAddr = nilAddr
    · simp only [recordAction, removeRecord, Line.after, if_pos hnil]
      exact h₀
    · simp only [recordAction, Line.after, if_neg hnil]
      rcases hwf.resolve_left hnil with hnone | hsome
      · -- the block was not allocated: nothing is recorded of it
        rw [Dict.erase_none hnone]
        exact (h₀.remove_unknown hnone scope sAddr dataSz).symm ▸ h₀
      · exact h₀.remove hsome scope sAddr
  | realloc oldPtr newPtr oldSz newSz =>
    simp only [Line.WellFormed] at hwf
    simp only [recordAction, Line.after]
    by_cases hold : oldPtr = nilAddr
    · rw [if_pos hold] at hwf
      simp only [if_pos hold]
      exact h₀.create hwf.1 hwf.2 scope newSz sAddr
    · rw [if_neg hold] at hwf
      simp only [if_neg hold]
      by_cases hnew : newPtr = nilAddr
      · simp only [if_pos hnew]
        exact h₀.remove hwf.1 scope sAddr
      · simp only [if_neg hnew]
        by_cases hmoved : oldPtr = newPtr
        · -- the block stays where it is, with the size it had
          subst hmoved
          simp only [ne_eq, not_true_eq_false, if_false]
          have hsizes := hnot rfl
          rw [← withScope_block r scope] at hsizes
          exact h₀.resize_same hwf.1 hsizes
        · simp only [ne_eq, hmoved, not_false_eq_true, if_true]
          -- the new block is recorded before the old one is removed
          have hfree : live.get? newPtr = none :=
            (hwf.2.resolve_left hnew).resolve_left fun heq => hmoved heq.symm
          have hcreated := h₀.create hnew hfree scope newSz sAddr
          have holdlive : (live.set newPtr newSz).get? oldPtr = some oldSz := by
            rw [Dict.get?_set_of_ne _ _ hmoved]
            exact hwf.1
          exact hcreated.remove holdlive scope sAddr

/-- A line that resizes a block in place breaks the accounts. -/
theorem Inv.line_breaks {l : Line} (h : Inv ⟨r, live⟩) (hwf : l.WellFormed live)
    (hnot : ¬ NotResized ⟨r, live⟩ l) : ¬ Accounts ⟨recordAction r l, l.after live⟩ := by
  obtain ⟨scope, sAddr, call⟩ := l
  cases call with
  | alloc dataAddr dataSz => exact absurd trivial hnot
  | free dataAddr dataSz => exact absurd trivial hnot
  | realloc oldPtr newPtr oldSz newSz =>
    simp only [NotResized, Classical.not_imp] at hnot
    obtain ⟨rfl, hsizes⟩ := hnot
    simp only [Line.WellFormed] at hwf
    have hnil : oldPtr ≠ nilAddr := by
      intro heq
      rw [if_pos heq] at hwf
      exact hwf.1 heq
    rw [if_neg hnil] at hwf
    rw [← withScope_block r scope] at hsizes
    simp only [recordAction, Line.after, if_neg hnil, ne_eq, not_true_eq_false, if_false]
    exact (h.withScope scope).resize_breaks hwf.1 hsizes

/-- **When the report is right.** After every line of a well-formed trace the accounts hold if and
    only if none of the lines resizes a block in place. -/
theorem accounts_iff {run : List (Line × Traced)} (hrun : machine.Path ⟨.empty, .empty⟩ run) :
    (∀ q ∈ run, Accounts q.2) ↔ Machine.StepsMeet NotResized ⟨.empty, .empty⟩ run := by
  refine Machine.path_iff (fun s h => h.toAccounts) ?_ ?_ inv_empty hrun
  · rintro ⟨r, live⟩ l t h hwf hnot hx
    obtain rfl := Except.ok.inj hx
    exact h.line hwf hnot
  · rintro ⟨r, live⟩ l t h hwf hnot hx
    obtain rfl := Except.ok.inj hx
    exact h.line_breaks hwf hnot

/-- A block of 16 bytes that grows to 24 where it is. -/
def grownLines : List Line :=
  [⟨"skull.core", "0x1", .alloc "0xa0" 16⟩, ⟨"skull.core", "0x2", .realloc "0xa0" "0xa0" 16 24⟩]

/-- The script records 40 bytes. -/
theorem grown_misreported : ¬ ∀ run, machine.Path ⟨.empty, .empty⟩ run →
    ∀ q ∈ run, Accounts q.2 := by
  intro hall
  have hpath := Machine.trace_path (M := machine) grownLines ⟨.empty, .empty⟩
  have hlast : (machine.trace ⟨.empty, .empty⟩ grownLines).getLast?.isSome = true := by
    decide +kernel
  obtain ⟨q, hq⟩ := Option.isSome_iff_exists.mp hlast
  have hacc := hall _ hpath q (List.mem_of_getLast? hq)
  have hget : ((machine.final ⟨.empty, .empty⟩ grownLines).report.block "skull.core").details.get?
      "0xa0" = some ⟨40, "0x1"⟩ := by
    decide +kernel
  have hlive : (machine.final ⟨.empty, .empty⟩ grownLines).live.get? "0xa0" = some 24 := by
    decide +kernel
  rw [Machine.final, hq] at hget hlive
  obtain ⟨n, hn, hsz⟩ := hacc.current _ _ _ hget
  have h24 : 24 = n := Option.some.inj (hlive.symm.trans hn)
  simp only at hsz
  omega

/-- A block that is moved by a second scope and freed by a third, and one that is not known. -/
def movedLines : List Line :=
  [⟨"skull.core", "0x1", .alloc "0xa0" 16⟩,
   ⟨"module.request", "0x2", .realloc "0xa0" "0xb0" 16 24⟩,
   ⟨"service.test", "0x3", .free "0xb0" 24⟩, ⟨"skull.core", "0x4", .free "0xc0" 8⟩]

/-- A block that is freed in another scope. -/
theorem moved_reported :
    (∀ q ∈ machine.trace ⟨.empty, .empty⟩ movedLines, Accounts q.2) ∧
      (machine.trace ⟨.empty, .empty⟩ movedLines).length = 4 := by
  have hpath := Machine.trace_path (M := machine) movedLines ⟨.empty, .empty⟩
  exact ⟨(accounts_iff hpath).mpr (by decide +kernel), by decide +kernel⟩

end AddrRemap

end Skull
