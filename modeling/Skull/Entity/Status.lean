import Skull.Entity.Manager

namespace Skull

open Machines

/-!
# The entity counters of the admin module (`sk_admin`)

The command `info` adds up the counters of the entity managers of all engines, and prints one line.

* `EntityMgrStat.mergeOneStat`, `mergeStat`, `statusEntity`, `shown` — the merge and the line;
* `EntityMgrStat.Field`, `EntityMgrStat.get` — the fields of the structure, to speak of each;
* `statusEntity_get` — a field that is merged is the sum of that field, the two others stay zero;
* `statusEntity_sums_iff` — when the line shows the sums;
* `statusEntity_shown_iff` — of managers that got where they are by their operations: when the total
  shown is that of the types shown.
-/

/-! ### The fields -/

namespace EntityMgrStat

/-- A field of `sk_entity_mgr_stat_t`. -/
inductive Field
  | total | inactive | type (type : EntityType)
  deriving DecidableEq, Repr

/-- The value of a field. -/
def get (stat : EntityMgrStat) : Field → Int
  | .total => stat.total
  | .inactive => stat.inactive
  | .type type => stat.count type

/-- `_merge_one_stat`. -/
def mergeOneStat (target stat : EntityMgrStat) : EntityMgrStat :=
  { target with
    total := target.total + stat.total
    inactive := target.inactive + stat.inactive
    entityNone := target.entityNone + stat.entityNone
    entitySockV4tcp := target.entitySockV4tcp + stat.entitySockV4tcp
    entitySockV4udp := target.entitySockV4udp + stat.entitySockV4udp
    entitySockV6tcp := target.entitySockV6tcp + stat.entitySockV6tcp
    entitySockV6udp := target.entitySockV6udp + stat.entitySockV6udp
    entityTimer := target.entityTimer + stat.entityTimer
    entityEpV4tcp := target.entityEpV4tcp + stat.entityEpV4tcp
    entityEpV4udp := target.entityEpV4udp + stat.entityEpV4udp
    entityEpV6tcp := target.entityEpV6tcp + stat.entityEpV6tcp
    entityEpV6udp := target.entityEpV6udp + stat.entityEpV6udp
    entityEpTxnTimer := target.entityEpTxnTimer + stat.entityEpTxnTimer }

/-- The fields that `_merge_one_stat` adds. -/
def Field.merged : Field → Bool
  | .type .std | .type .epTimer => false
  | _ => true

/-- **One merge**, field by field. -/
theorem mergeOneStat_get (target stat : EntityMgrStat) (f : Field) :
    (target.mergeOneStat stat).get f = target.get f + if f.merged then stat.get f else 0 := by
  cases f with
  | total => rfl
  | inactive => rfl
  | type type =>
    cases type
    case std => exact (Int.add_zero _).symm
    case epTimer => exact (Int.add_zero _).symm
    all_goals rfl

@[simp] theorem zero_get (f : Field) : zero.get f = 0 := by
  cases f with
  | total => rfl
  | inactive => rfl
  | type type => cases type <;> rfl

end EntityMgrStat

/-! ### The engines -/

/-- The entity managers of an engine: its own, and the two of its endpoint pool. -/
structure EngineMgrs where
  entityMgr : EntityMgr
  epTcp : EntityMgr
  epUdp : EntityMgr

/-- The engines of `sk_core_t`. -/
structure CoreEngines where
  master : EngineMgrs
  workers : List EngineMgrs
  bio : List EngineMgrs

/-- The managers of an engine. -/
def EngineMgrs.mgrs (engine : EngineMgrs) : List EntityMgr :=
  [engine.entityMgr, engine.epTcp, engine.epUdp]

/-- The managers of all engines. -/
def CoreEngines.mgrs (core : CoreEngines) : List EntityMgr :=
  (core.master :: (core.workers ++ core.bio)).flatMap EngineMgrs.mgrs

/-- `_merge_stat`. -/
def mergeStat (target : EntityMgrStat) (engine : EngineMgrs) : EntityMgrStat :=
  ((target.mergeOneStat engine.entityMgr.stat).mergeOneStat engine.epTcp.stat).mergeOneStat
    engine.epUdp.stat

/-- The structure that `_status_entity` builds. -/
def statusEntity (core : CoreEngines) : EntityMgrStat :=
  core.bio.foldl mergeStat (core.workers.foldl mergeStat (mergeStat .zero core.master))

/-- The line that `_status_entity` prints of it: the labels and the values. -/
def shown (stat : EntityMgrStat) : List (String × Int) :=
  [("total", stat.total), ("inactive", stat.inactive), ("none", stat.entityNone),
    ("std", stat.entityStd), ("v4tcp", stat.entitySockV4tcp), ("v4udp", stat.entitySockV4udp),
    ("v6tcp", stat.entitySockV6tcp), ("v6udp", stat.entitySockV6udp), ("timer", stat.entityTimer),
    ("ep_v4tcp", stat.entityEpV4tcp), ("ep_v4udp", stat.entityEpV4udp),
    ("ep_v6tcp", stat.entityEpV6tcp), ("ep_v6udp", stat.entityEpV6udp),
    ("ep_timer", stat.entityEpTimer), ("ep_txn_timer", stat.entityEpTxnTimer)]

/-- The counts by type of such a line: all but the total and the inactive ones. -/
def perType (line : List (String × Int)) : List Int :=
  (line.filter fun entry => entry.1 ≠ "total" ∧ entry.1 ≠ "inactive").map Prod.snd

/-- The total of a line is the sum of its counts by type. -/
def Balanced (line : List (String × Int)) : Prop :=
  line.lookup "total" = some (perType line).sum

/-- The sum of a field over all managers. -/
def CoreEngines.sum (core : CoreEngines) (f : EntityMgrStat.Field) : Int :=
  (core.mgrs.map fun m => m.stat.get f).sum

/-- **The counters that are shown** are the sums over the managers, and they balance when they do in
    each manager. -/
structure CoreEngines.Sums (core : CoreEngines) : Prop where
  fields : ∀ f, (statusEntity core).get f = core.sum f
  balanced : (∀ m ∈ core.mgrs, m.stat.total = m.stat.typeSum) → Balanced (shown (statusEntity core))

/-! ### The merge -/

open EntityMgrStat (Field)

/-- The output balances when the counts of the types add up to the total. -/
theorem shown_balanced (stat : EntityMgrStat) : Balanced (shown stat) ↔ stat.total = stat.typeSum := by
  have hper : (perType (shown stat)).sum = stat.typeSum := by
    simp [perType, shown, EntityMgrStat.typeSum]
    omega
  rw [Balanced, hper]
  exact ⟨fun h => Option.some.inj h, fun h => congrArg some h⟩

/-- Merging the counters of an engine is merging those of its managers, one after the other. -/
theorem foldl_mergeStat (engines : List EngineMgrs) : ∀ target : EntityMgrStat,
    engines.foldl mergeStat target =
      (engines.flatMap EngineMgrs.mgrs).foldl (fun t m => t.mergeOneStat m.stat) target := by
  induction engines with
  | nil => exact fun _ => rfl
  | cons engine engines ih =>
    intro target
    rw [List.foldl_cons, ih, List.flatMap_cons, List.foldl_append]
    rfl

/-- The output is what the managers are merged to. -/
theorem statusEntity_eq (core : CoreEngines) :
    statusEntity core = core.mgrs.foldl (fun t m => t.mergeOneStat m.stat) .zero := by
  rw [statusEntity, ← List.foldl_append]
  show (core.master :: (core.workers ++ core.bio)).foldl mergeStat .zero = _
  rw [foldl_mergeStat]
  rfl

/-- Merging the counters of several managers. -/
theorem foldl_mergeOneStat_get (f : Field) (mgrs : List EntityMgr) : ∀ target : EntityMgrStat,
    (mgrs.foldl (fun t m => t.mergeOneStat m.stat) target).get f =
      target.get f + if f.merged then (mgrs.map fun m => m.stat.get f).sum else 0 := by
  induction mgrs with
  | nil => intro target; simp
  | cons m mgrs ih =>
    intro target
    rw [List.foldl_cons, ih, EntityMgrStat.mergeOneStat_get, List.map_cons, List.sum_cons]
    by_cases hf : f.merged = true
    · simp only [hf, if_true]
      omega
    · simp only [hf, Bool.false_eq_true, if_false, Int.add_zero]

/-- **What is built**: a field that is merged is the sum of that field over the managers, and the two
    others stay zero. -/
theorem statusEntity_get (core : CoreEngines) (f : Field) :
    (statusEntity core).get f = if f.merged then core.sum f else 0 := by
  rw [statusEntity_eq, foldl_mergeOneStat_get, EntityMgrStat.zero_get, Int.zero_add]
  rfl

/-! ### When the counters are shown right -/

/-- What the total of a structure is above the sum of its counts by type. -/
def EntityMgrStat.gap (stat : EntityMgrStat) : Int := stat.total - stat.typeSum

/-- A merge adds the gaps, and the two counts that it leaves out. -/
theorem mergeOneStat_gap (target stat : EntityMgrStat) :
    (target.mergeOneStat stat).gap =
      target.gap + stat.gap + (stat.count .std + stat.count .epTimer) := by
  simp only [EntityMgrStat.gap, EntityMgrStat.typeSum, EntityMgrStat.mergeOneStat,
    EntityMgrStat.count]
  omega

/-- What is missing from the sum is what the types that are left out count. -/
theorem foldl_mergeOneStat_gap (mgrs : List EntityMgr) (h : ∀ m ∈ mgrs, m.stat.gap = 0) :
    ∀ target : EntityMgrStat,
    (mgrs.foldl (fun t m => t.mergeOneStat m.stat) target).gap =
      target.gap + ((mgrs.map fun m => m.stat.count .std).sum +
        (mgrs.map fun m => m.stat.count .epTimer).sum) := by
  induction mgrs with
  | nil => intro target; simp
  | cons m mgrs ih =>
    intro target
    have hm : m.stat.gap = 0 := h m (by simp)
    rw [List.foldl_cons, ih (fun k hk => h k (by simp [hk])), mergeOneStat_gap, hm, List.map_cons,
      List.map_cons, List.sum_cons, List.sum_cons]
    omega

/-- **Managers that balance**: the total shown is above the counts shown by the entities of the two
    types that are not merged. -/
theorem statusEntity_gap (core : CoreEngines)
    (h : ∀ m ∈ core.mgrs, m.stat.total = m.stat.typeSum) :
    (statusEntity core).gap = core.sum (.type .std) + core.sum (.type .epTimer) := by
  have hgap : ∀ m ∈ core.mgrs, m.stat.gap = 0 := fun m hm => by
    rw [EntityMgrStat.gap, h m hm, Int.sub_self]
  rw [statusEntity_eq, foldl_mergeOneStat_gap core.mgrs hgap]
  exact Int.zero_add _

/-- Nothing is missing exactly when the output balances. -/
theorem balanced_iff_gap (stat : EntityMgrStat) : Balanced (shown stat) ↔ stat.gap = 0 := by
  rw [shown_balanced, EntityMgrStat.gap, Int.sub_eq_zero]

/-- **The command `info` shows the sums** of the counters if and only if the managers count no
    entities of the standard input and no timers of endpoints. -/
theorem statusEntity_sums_iff (core : CoreEngines) :
    core.Sums ↔ core.sum (.type .std) = 0 ∧ core.sum (.type .epTimer) = 0 := by
  constructor
  · intro h
    have hleft : ∀ f : Field, f.merged = false → core.sum f = 0 := fun f hf => by
      rw [← h.fields f, statusEntity_get, hf]
      rfl
    exact ⟨hleft _ rfl, hleft _ rfl⟩
  · rintro ⟨hstd, htimer⟩
    refine ⟨fun f => ?_, fun hmgrs => ?_⟩
    · rw [statusEntity_get]
      split
      · rfl
      · next hf =>
        -- the only fields left out are the two that are zero
        cases f with
        | total => exact absurd rfl hf
        | inactive => exact absurd rfl hf
        | type type =>
          cases type
          case std => exact hstd.symm
          case epTimer => exact htimer.symm
          all_goals exact absurd rfl hf
    · rw [balanced_iff_gap, statusEntity_gap core hmgrs, hstd, htimer]
      rfl

/-- A manager that the entity of the standard input was added to. -/
def stdMgr : EntityMgr := EntityMgr.machine.final .create [.create .std false, .add 0]

/-- The engines of a core without background io whose worker reads the standard input. -/
def stdCore : CoreEngines :=
  { master := ⟨.create, .create, .create⟩, workers := [⟨stdMgr, .create, .create⟩], bio := [] }

/-- The count of the standard input is not merged: the line says one entity, and none of any type. -/
theorem stdCore_hidden : ¬ stdCore.Sums := by
  intro h
  have hstd := h.fields (.type .std)
  exact absurd hstd (by decide +kernel)

/-! ### Managers that are reached -/

namespace EntityMgr

variable {m : EntityMgr}

/-- The manager owns an entity of the type. -/
def Owns (m : EntityMgr) (type : EntityType) : Prop :=
  ∃ id e, m.heap.get? id = some e ∧ e.ent.owned = true ∧ e.type = type

/-- A counter of a manager is not negative, and zero only if no entity of the type is owned. -/
theorem Inv.count_nonneg (h : m.Inv) (type : EntityType) :
    0 ≤ m.stat.count type ∧ (m.stat.count type = 0 ↔ ¬ m.Owns type) := by
  have hone : ∀ id e, 0 ≤ ownedOne type id e := fun id e => by
    rw [ownedOne]
    split <;> omega
  rw [h.counted.count type]
  refine ⟨Dict.sum_nonneg hone m.heap, ?_⟩
  rw [Dict.sum_eq_zero_iff hone]
  constructor
  · rintro hzero ⟨id, e, hget, howned⟩
    have hval := hzero id e hget
    rw [ownedOne, if_pos howned] at hval
    exact absurd hval (by decide)
  · intro hno id e hget
    rw [ownedOne, if_neg]
    exact fun howned => hno ⟨id, e, hget, howned⟩

end EntityMgr

/-- A sum of what is not negative is zero when all of it is. -/
theorem sum_nonneg_eq_zero {α : Type} {l : List α} {f : α → Int} (h : ∀ x ∈ l, 0 ≤ f x) :
    0 ≤ (l.map f).sum ∧ ((l.map f).sum = 0 ↔ ∀ x ∈ l, f x = 0) := by
  induction l with
  | nil => simp
  | cons x l ih =>
    obtain ⟨hnonneg, hzero⟩ := ih fun y hy => h y (by simp [hy])
    have hx := h x (by simp)
    rw [List.map_cons, List.sum_cons, List.forall_mem_cons, ← hzero]
    omega

/-- **What the line of reached managers says**: its total is the sum of its counts if and only if no
    manager owns an entity of the standard input or of a timer of an endpoint. -/
theorem statusEntity_shown_iff (core : CoreEngines)
    (h : ∀ m ∈ core.mgrs, EntityMgr.machine.Reach Machine.anyStep m) :
    Balanced (shown (statusEntity core)) ↔
      ∀ m ∈ core.mgrs, ¬ m.Owns .std ∧ ¬ m.Owns .epTimer := by
  have hinv : ∀ m ∈ core.mgrs, m.Inv := fun m hm => (EntityMgr.reach_inv (h m hm)).1
  have hsum : ∀ type, 0 ≤ core.sum (.type type) ∧
      (core.sum (.type type) = 0 ↔ ∀ m ∈ core.mgrs, ¬ m.Owns type) := fun type => by
    obtain ⟨hnonneg, hzero⟩ := sum_nonneg_eq_zero (f := fun m => m.stat.count type)
      fun m hm => ((hinv m hm).count_nonneg type).1
    refine ⟨hnonneg, hzero.trans ?_⟩
    exact forall₂_congr fun m hm => ((hinv m hm).count_nonneg type).2
  rw [balanced_iff_gap, statusEntity_gap core fun m hm => (hinv m hm).counted.types]
  obtain ⟨hstd, hstd'⟩ := hsum .std
  obtain ⟨htimer, htimer'⟩ := hsum .epTimer
  constructor
  · intro hgap
    have hboth : core.sum (.type .std) = 0 ∧ core.sum (.type .epTimer) = 0 := by omega
    exact fun m hm => ⟨hstd'.mp hboth.1 m hm, htimer'.mp hboth.2 m hm⟩
  · intro hno
    rw [hstd'.mpr fun m hm => (hno m hm).1, htimer'.mpr fun m hm => (hno m hm).2]
    rfl

end Skull
