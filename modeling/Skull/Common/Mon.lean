import Mathlib.Algebra.BigOperators.Group.List.Basic
import Mathlib.Algebra.Ring.Int.Defs
import Mathlib.Data.List.AList
import Mathlib.Data.List.Forall2
import Mathlib.Tactic.Common

namespace Skull

/-!
# Metrics and their snapshots (`sk_mon`)

A table of named values, and a window of snapshots taken of it.  Values are exact numbers: of any
commutative monoid `V`.

* `Mon.inc`, `Mon.set`, `Mon.snapshotAndReset`, `Mon.snapshot` — the public operations;
* `MonHistory` — what a sequence of them says of the time between two resets;
* `Mon.moveLoop_lookup` — the loop of a reset copies every value once, and zeroes it;
* `rotate_padded` — the rotation of the window keeps the newest snapshots and gives the oldest away;
* `mon_accounted` — after any sequence the snapshots, the freed ones and the current values are
  those of the history.
-/

/-- `SK_MON_DEFAULT_WINDOW`. -/
def monDefaultWindow : Nat := 2

/-- A table from names to values; the `fhash` of the source. -/
abbrev MonTbl (V : Type) := AList fun _ : String => V

/-- `raw ? *raw : 0.0`. -/
def MonTbl.value {V : Type} [Zero V] (tbl : MonTbl V) (name : String) : V :=
  (tbl.lookup name).getD 0

/-- `sk_mon_snapshot_t`; the id tells the allocations apart. -/
structure MonSnapshot (V : Type) where
  id : Nat
  start : Int
  stop : Int
  map : MonTbl V

/-- `sk_mon_t`, with the snapshots made and those given to `sk_mon_snapshot_destroy`. -/
structure Mon (V : Type) where
  monTbl : MonTbl V
  start : Int
  prev : List (Option (MonSnapshot V))
  /-- How many snapshots were stored. -/
  made : Nat
  /-- The snapshots destroyed, latest first. -/
  freed : List (MonSnapshot V)

/-- The assertions of `sk_mon.c`. -/
inductive MonFault
  /-- `name_len`. -/
  | name
  deriving DecidableEq, Repr

namespace Mon

variable {V : Type}

/-- `sk_mon_create`. -/
def create (now : Int) : Mon V :=
  { monTbl := ∅, start := now, prev := List.replicate monDefaultWindow none, made := 0, freed := [] }

variable [AddCommMonoid V]

/-- `sk_mon_inc`. -/
def inc (m : Mon V) (name : String) (value : V) : Except MonFault (Mon V) :=
  if name.length = 0 then .error .name
  else .ok { m with monTbl := m.monTbl.insert name (m.monTbl.value name + value) }

/-- `sk_mon_set`. -/
def set (m : Mon V) (name : String) (value : V) : Except MonFault (Mon V) :=
  if name.length = 0 then .error .name else .ok { m with monTbl := m.monTbl.insert name value }

/-- `sk_mon_get`. -/
def get (m : Mon V) (name : String) : Except MonFault V :=
  if name.length = 0 then .error .name else .ok (m.monTbl.value name)

/-- The loop of `sk_mon_snapshot_and_reset` over the names that the iterator gives: the value the
    table has then goes into the snapshot, and a zero into the table. -/
def moveLoop : List String → MonTbl V → MonTbl V → MonTbl V × MonTbl V
  | [], tbl, map => (tbl, map)
  | name :: names, tbl, map =>
    match tbl.lookup name with
    | some value => moveLoop names (tbl.insert name 0) (map.insert name value)
    | none => moveLoop names tbl map

/-- The loop of `sk_mon_snapshot`, which leaves the table alone. -/
def copyLoop (tbl : MonTbl V) : List String → MonTbl V → MonTbl V
  | [], map => map
  | name :: names, map =>
    match tbl.lookup name with
    | some value => copyLoop tbl names (map.insert name value)
    | none => copyLoop tbl names map

omit [AddCommMonoid V] in
/-- Insert a snapshot in front of the window; the one that leaves it. -/
def rotate : Option (MonSnapshot V) → List (Option (MonSnapshot V)) →
    List (Option (MonSnapshot V)) × Option (MonSnapshot V)
  | snapshot, [] => ([], snapshot)
  | snapshot, tmp :: prev =>
    let (prev, oldest) := rotate tmp prev
    (snapshot :: prev, oldest)

/-- `sk_mon_snapshot_and_reset`, at the time `now`. -/
def snapshotAndReset (m : Mon V) (now : Int) : Mon V :=
  let (monTbl, map) := moveLoop m.monTbl.keys m.monTbl ∅
  let (prev, oldest) := rotate (some { id := m.made, start := m.start, stop := now, map }) m.prev
  { monTbl, start := now, prev, made := m.made + 1, freed := oldest.toList ++ m.freed }

/-- `sk_mon_snapshot_prev`. -/
def snapshotPrev (m : Mon V) (loc : Int) : Option (MonSnapshot V) :=
  if loc < 0 ∨ loc ≥ monDefaultWindow then none else (m.prev[loc.toNat]?).join

/-- `sk_mon_snapshot`: a stored snapshot, or a copy of the table that is the caller's. -/
def snapshot (m : Mon V) (loc : Int) (now : Int) : Option (MonSnapshot V) :=
  if loc ≠ 0 then m.snapshotPrev (loc - 1)
  else some { id := m.made, start := m.start, stop := now
              map := copyLoop m.monTbl m.monTbl.keys ∅ }

end Mon

/-- A call of one of the operations that change the metrics. -/
inductive MonAction (V : Type)
  | inc (name : String) (value : V)
  | set (name : String) (value : V)
  | snapshotAndReset (now : Int)
  deriving DecidableEq, Repr

namespace Mon

variable {V : Type} [AddCommMonoid V]

/-- Run an action. -/
def exec (m : Mon V) : MonAction V → Except MonFault (Mon V)
  | .inc name value => m.inc name value
  | .set name value => m.set name value
  | .snapshotAndReset now => .ok (m.snapshotAndReset now)

/-- Run a sequence of actions. -/
def run (m : Mon V) : List (MonAction V) → Except MonFault (Mon V)
  | [] => .ok m
  | a :: as =>
    match m.exec a with
    | .error f => .error f
    | .ok m => m.run as

end Mon

/-! ### What the actions say -/

/-- The names of an action are not empty. -/
def MonAction.Named {V : Type} : MonAction V → Prop
  | .inc name _ => name.length ≠ 0
  | .set name _ => name.length ≠ 0
  | .snapshotAndReset _ => True

/-- What an action adds to a name. -/
def MonAction.added {V : Type} [Zero V] (name : String) : MonAction V → V
  | .inc n x => if n = name then x else 0
  | .set _ _ => 0
  | .snapshotAndReset _ => 0

/-- An update of a metric. -/
inductive MonUpdate (V : Type)
  | inc (name : String) (value : V)
  | set (name : String) (value : V)

section History

variable {V : Type} [AddCommMonoid V]

/-- The value of a name after an update. -/
def MonUpdate.apply (name : String) (v : V) : MonUpdate V → V
  | .inc n x => if n = name then v + x else v
  | .set n x => if n = name then x else v

/-- **What the updates accumulate** for a name, from zero. -/
def accumulated (name : String) (updates : List (MonUpdate V)) : V :=
  updates.foldl (MonUpdate.apply name) 0

/-- The last update comes last. -/
theorem accumulated_concat (name : String) (updates : List (MonUpdate V)) (u : MonUpdate V) :
    accumulated name (updates ++ [u]) = u.apply name (accumulated name updates) := by
  rw [accumulated, List.foldl_append]
  rfl

end History

/-- The time between two resets, with its updates. -/
structure MonWindow (V : Type) where
  start : Int
  stop : Int
  updates : List (MonUpdate V)

/-- The windows that were closed, newest first, and the one that is open. -/
structure MonHistory (V : Type) where
  closed : List (MonWindow V)
  start : Int
  current : List (MonUpdate V)

namespace MonHistory

variable {V : Type}

/-- The history of an action more. -/
def record (h : MonHistory V) : MonAction V → MonHistory V
  | .inc name value => { h with current := h.current ++ [.inc name value] }
  | .set name value => { h with current := h.current ++ [.set name value] }
  | .snapshotAndReset now =>
    { closed := { start := h.start, stop := now, updates := h.current } :: h.closed
      start := now, current := [] }

/-- The history of the actions `as` from the time `start`. -/
def of (start : Int) (as : List (MonAction V)) : MonHistory V :=
  as.foldl record { closed := [], start, current := [] }

end MonHistory

/-! ### The loops -/

section Loops

variable {V : Type} [AddCommMonoid V]

open Mon

/-- **The loop of a reset.** Every name of the iterator is copied with the value it had, and reads
    zero afterwards; the others are left alone. -/
theorem moveLoop_lookup (names : List String) : ∀ tbl map : MonTbl V, names.Nodup →
    ∀ name, (moveLoop names tbl map).1.lookup name =
        (if name ∈ names then (tbl.lookup name).map fun _ => 0 else tbl.lookup name) ∧
      (moveLoop names tbl map).2.lookup name =
        if name ∈ names ∧ name ∈ tbl then tbl.lookup name else map.lookup name := by
  induction names with
  | nil => intro tbl map _ name; simp [moveLoop]
  | cons key names ih =>
    intro tbl map hnodup name
    obtain ⟨hkey, hnames⟩ := List.nodup_cons.mp hnodup
    -- the metric is not in the table: nothing is moved for it
    cases hval : tbl.lookup key with
    | none =>
      rw [moveLoop, hval]
      have hmem : key ∉ tbl := AList.lookup_eq_none.mp hval
      obtain ⟨htbl, hmap⟩ := ih tbl map hnames name
      simp only [htbl, hmap, List.mem_cons]
      by_cases hname : name = key
      · subst hname
        simp [hkey, hval, hmem]
      · simp [hname]
    -- its value goes to the snapshot, and the table has 0 for it
    | some value =>
      rw [moveLoop, hval]
      have hmem : key ∈ tbl := AList.lookup_isSome.mp (by rw [hval]; rfl)
      obtain ⟨htbl, hmap⟩ := ih (tbl.insert key 0) (map.insert key value) hnames name
      simp only [htbl, hmap, List.mem_cons]
      by_cases hname : name = key
      · subst hname
        simp [hkey, hval, hmem]
      · simp [hname, AList.lookup_insert_ne hname]

/-- What the table and the new snapshot hold after the loop of a reset. -/
theorem moveLoop_keys (tbl : MonTbl V) (name : String) :
    (moveLoop tbl.keys tbl ∅).1.lookup name = (tbl.lookup name).map (fun _ => 0) ∧
      (moveLoop tbl.keys tbl ∅).2.lookup name = tbl.lookup name := by
  obtain ⟨htbl, hmap⟩ := moveLoop_lookup tbl.keys tbl ∅ tbl.keys_nodup name
  rw [htbl, hmap]
  by_cases hname : name ∈ tbl
  · simp [hname, AList.mem_keys.mp hname]
  · have hnone : tbl.lookup name = none := AList.lookup_eq_none.mpr hname
    simp [hname, hnone]

/-! ### The window -/

omit [AddCommMonoid V] in
/-- The first `w` snapshots of `all`, as slots of a window. -/
def padded : List (MonSnapshot V) → Nat → List (Option (MonSnapshot V))
  | _, 0 => []
  | [], w + 1 => none :: padded [] w
  | s :: all, w + 1 => some s :: padded all w

omit [AddCommMonoid V] in
theorem padded_nil (w : Nat) : padded ([] : List (MonSnapshot V)) w = List.replicate w none := by
  induction w with
  | zero => rfl
  | succ w ih => rw [padded, ih, List.replicate_succ]

omit [AddCommMonoid V] in
/-- A slot of the window is the snapshot with its number. -/
theorem padded_getElem (w : Nat) : ∀ (all : List (MonSnapshot V)) (i : Nat), i < w →
    ((padded all w)[i]?).join = all[i]? := by
  induction w with
  | zero => intro all i hi; exact absurd hi (Nat.not_lt_zero i)
  | succ w ih =>
    intro all i hi
    cases all with
    | nil =>
      cases i with
      | zero => rfl
      | succ i => simpa [padded] using ih [] i (by omega)
    | cons s all =>
      cases i with
      | zero => rfl
      | succ i => simpa [padded] using ih all i (by omega)

omit [AddCommMonoid V] in
/-- The snapshots in the window. -/
theorem padded_filterMap (w : Nat) : ∀ all : List (MonSnapshot V),
    (padded all w).filterMap id = all.take w := by
  induction w with
  | zero => intro all; simp [padded]
  | succ w ih =>
    intro all
    cases all with
    | nil => simpa [padded] using ih []
    | cons s all =>
      show s :: (padded all w).filterMap id = s :: all.take w
      rw [ih]

omit [AddCommMonoid V] in
/-- Nothing leaves a window that gets nothing and holds nothing. -/
theorem rotate_none (w : Nat) : rotate none (padded ([] : List (MonSnapshot V)) w) =
    (padded [] w, none) := by
  induction w with
  | zero => rfl
  | succ w ih => rw [padded, rotate, ih]

omit [AddCommMonoid V] in
/-- **The rotation** keeps the newest snapshots, and gives away the one that is too old. -/
theorem rotate_padded (w : Nat) : ∀ (all : List (MonSnapshot V)) (s : MonSnapshot V),
    rotate (some s) (padded all w) = (padded (s :: all) w, (s :: all)[w]?) := by
  induction w with
  | zero => intro all s; rfl
  | succ w ih =>
    intro all s
    cases all with
    | nil => rw [padded, rotate, rotate_none, padded]; simp
    | cons t all => rw [padded, rotate, ih, padded]; simp

end Loops

/-! ### The accounts -/

section Accounts

variable {V : Type} [AddCommMonoid V]

/-- `s` is the snapshot of the window `w`: its times, and for every name what the window
    accumulated. -/
structure MonSnapshot.Holds (s : MonSnapshot V) (w : MonWindow V) : Prop where
  start : s.start = w.start
  stop : s.stop = w.stop
  value : ∀ name, s.map.value name = accumulated name w.updates

/-- **The accounts** of metrics with the history `h`: `all` are the snapshots of its windows, newest
    first. -/
structure Mon.Accounted (m : Mon V) (h : MonHistory V) (all : List (MonSnapshot V)) : Prop where
  /-- One snapshot was made for each window. -/
  made : all.map MonSnapshot.id = (List.range h.closed.length).reverse
  /-- Each holds what its window accumulated. -/
  holds : List.Forall₂ MonSnapshot.Holds all h.closed
  /-- The newest ones are stored, … -/
  stored : ∀ (i : Nat) (now : Int), m.snapshot (i + 1) now =
    if i < monDefaultWindow then all[i]? else none
  /-- … and the others were freed, once each. -/
  freed : m.freed = all.drop monDefaultWindow
  /-- A window starts when the one before it ends, and the open one when the newest ends. -/
  contiguous : all.IsChain fun s t => s.start = t.stop
  start : ∀ s ∈ all.head?, m.start = s.stop
  /-- The table has what was accumulated since then. -/
  current : ∀ name, m.monTbl.value name = accumulated name h.current

/-- The invariant of the runs. -/
structure Mon.Inv (m : Mon V) (h : MonHistory V) (all : List (MonSnapshot V)) : Prop where
  made : all.map MonSnapshot.id = (List.range m.made).reverse
  count : m.made = h.closed.length
  holds : List.Forall₂ MonSnapshot.Holds all h.closed
  prev : m.prev = padded all monDefaultWindow
  freed : m.freed = all.drop monDefaultWindow
  contiguous : all.IsChain fun s t => s.start = t.stop
  stop : ∀ s ∈ all.head?, m.start = s.stop
  start : m.start = h.start
  current : ∀ name, m.monTbl.value name = accumulated name h.current

namespace Mon

variable {m : Mon V} {h : MonHistory V} {all : List (MonSnapshot V)}

/-- New metrics have one window, and nothing in it. -/
theorem create_inv (now : Int) : (create now : Mon V).Inv (MonHistory.of now []) [] where
  made := rfl
  count := rfl
  holds := .nil
  prev := (padded_nil monDefaultWindow).symm
  freed := rfl
  contiguous := .nil
  stop := by simp
  start := rfl
  current _ := rfl

/-- An update of one name keeps the accounts, when the name then has the value it should. -/
theorem Inv.update (hinv : m.Inv h all) {key : String} {v : V} {u : MonUpdate V}
    (hkey : u.apply key (accumulated key h.current) = v)
    (hother : ∀ name, name ≠ key → ∀ x : V, u.apply name x = x) :
    Inv { m with monTbl := m.monTbl.insert key v } { h with current := h.current ++ [u] } all := by
  refine { hinv with current := fun name => ?_ }
  rw [accumulated_concat]
  by_cases hname : name = key
  · rw [hname, hkey]
    simp [MonTbl.value]
  · rw [hother name hname, ← hinv.current]
    simp [MonTbl.value, AList.lookup_insert_ne hname]

/-- **A reset** stores the accounts of the window that it closes. -/
theorem Inv.snapshotAndReset (hinv : m.Inv h all) (now : Int) :
    ∃ s, (m.snapshotAndReset now).Inv (h.record (.snapshotAndReset now)) (s :: all) := by
  set s : MonSnapshot V :=
    { id := m.made, start := m.start, stop := now
      map := (moveLoop m.monTbl.keys m.monTbl ∅).2 } with hs
  -- the ring of the previous windows loses its oldest one
  have hrotate := rotate_padded monDefaultWindow all s
  rw [← hinv.prev] at hrotate
  have hreset : m.snapshotAndReset now =
      { monTbl := (moveLoop m.monTbl.keys m.monTbl ∅).1, start := now
        prev := padded (s :: all) monDefaultWindow, made := m.made + 1
        freed := (s :: all)[monDefaultWindow]?.toList ++ m.freed } := by
    simp only [Mon.snapshotAndReset, ← hs, hrotate]
  refine ⟨s, ?_⟩
  rw [hreset]
  constructor
  · rw [List.map_cons, hinv.made, List.range_succ, List.reverse_append]
    rfl
  · simp [MonHistory.record, hinv.count]
  · refine .cons ⟨hinv.start, rfl, fun name => ?_⟩ hinv.holds
    rw [← hinv.current name]
    simp only [MonTbl.value, hs, (moveLoop_keys m.monTbl name).2]
  · rfl
  · show (s :: all)[monDefaultWindow]?.toList ++ m.freed = (s :: all).drop monDefaultWindow
    rw [List.drop_eq_getElem?_toList_append, hinv.freed]
    rfl
  · cases hall : all with
    | nil => exact .singleton s
    | cons t rest =>
      have hcont := hinv.contiguous
      rw [hall] at hcont
      exact .cons_cons (hinv.stop t (by simp [hall])) hcont
  · simp [hs]
  · rfl
  · intro name
    simp only [MonTbl.value, (moveLoop_keys m.monTbl name).1]
    cases m.monTbl.lookup name <;> rfl

/-- One action. -/
theorem Inv.exec (hinv : m.Inv h all) {a : MonAction V} (ha : a.Named) :
    ∃ m' all', m.exec a = .ok m' ∧ m'.Inv (h.record a) all' := by
  cases a with
  | inc name value =>
    refine ⟨_, all, if_neg ha, hinv.update ?_ ?_⟩
    · rw [MonUpdate.apply, if_pos rfl, hinv.current]
    · exact fun n hn x => if_neg hn.symm
  | set name value =>
    refine ⟨_, all, if_neg ha, hinv.update ?_ ?_⟩
    · rw [MonUpdate.apply, if_pos rfl]
    · exact fun n hn x => if_neg hn.symm
  | snapshotAndReset now =>
    obtain ⟨s, hs⟩ := hinv.snapshotAndReset now
    exact ⟨_, _, rfl, hs⟩

/-- A sequence of actions. -/
theorem Inv.run (as : List (MonAction V)) : ∀ {m : Mon V} {h : MonHistory V}
    {all : List (MonSnapshot V)}, m.Inv h all → (∀ a ∈ as, a.Named) →
    ∃ m' all', m.run as = .ok m' ∧ m'.Inv (as.foldl MonHistory.record h) all' := by
  induction as with
  | nil => exact fun hinv _ => ⟨_, _, rfl, hinv⟩
  | cons a as ih =>
    intro m h all hinv hnamed
    obtain ⟨m₁, all₁, hexec, hinv₁⟩ := hinv.exec (hnamed a (by simp))
    obtain ⟨m', all', hrun, hinv'⟩ := ih hinv₁ fun b hb => hnamed b (by simp [hb])
    exact ⟨m', all', by rw [Mon.run, hexec]; exact hrun, hinv'⟩

/-- The accounts of the invariant. -/
theorem Inv.accounted (hinv : m.Inv h all) : m.Accounted h all where
  made := by rw [hinv.made, hinv.count]
  holds := hinv.holds
  stored i now := by
    have hloc : ((i : Int) + 1) ≠ 0 := by omega
    rw [snapshot, if_pos hloc, snapshotPrev, hinv.prev]
    by_cases hi : i < monDefaultWindow
    · have hin : ¬ ((i : Int) + 1 - 1 < 0 ∨ (i : Int) + 1 - 1 ≥ monDefaultWindow) := by omega
      rw [if_pos hi, if_neg hin, ← padded_getElem monDefaultWindow all i hi]
      simp
    · rw [if_neg hi, if_pos (by omega)]
  freed := hinv.freed
  contiguous := hinv.contiguous
  start := hinv.stop
  current := hinv.current

end Mon

/-! ### Nothing is lost -/

/-- What the windows of a history accumulated for a name. -/
def MonHistory.total (name : String) (h : MonHistory V) : V :=
  (h.closed.map fun w => accumulated name w.updates).sum + accumulated name h.current

/-- An action adds what it increments the name by, unless it sets the name. -/
theorem MonHistory.total_record {name : String} (h : MonHistory V) {a : MonAction V}
    (hset : ∀ v, a ≠ .set name v) : (h.record a).total name = h.total name + a.added name := by
  cases a with
  | inc n x =>
    simp only [record, total, accumulated_concat, MonUpdate.apply, MonAction.added]
    split
    · rw [add_assoc]
    · rw [add_zero]
  | set n x =>
    have hname : n ≠ name := fun hn => hset x (by rw [hn])
    simp only [record, total, accumulated_concat, MonUpdate.apply, MonAction.added, if_neg hname,
      add_zero]
  | snapshotAndReset now =>
    have hnil : accumulated name ([] : List (MonUpdate V)) = 0 := rfl
    simp only [record, total, List.map_cons, List.sum_cons, MonAction.added, hnil, add_zero]
    rw [add_comm]

/-- What a sequence of actions adds to a name, in all windows together. -/
theorem MonHistory.total_foldl {name : String} (as : List (MonAction V)) : ∀ h : MonHistory V,
    (∀ a ∈ as, ∀ v, a ≠ .set name v) →
      (as.foldl record h).total name = h.total name + (as.map (MonAction.added name)).sum := by
  induction as with
  | nil => intro h _; simp
  | cons a as ih =>
    intro h hset
    rw [List.foldl_cons, ih _ fun b hb => hset b (by simp [hb]), h.total_record (hset a (by simp)),
      List.map_cons, List.sum_cons, add_assoc]

/-- The snapshots of a history hold what its windows accumulated. -/
theorem holds_sum {all : List (MonSnapshot V)} {ws : List (MonWindow V)} (name : String)
    (hholds : List.Forall₂ MonSnapshot.Holds all ws) :
    (all.map fun s => s.map.value name).sum = (ws.map fun w => accumulated name w.updates).sum := by
  induction hholds with
  | nil => rfl
  | cons hsw _ ih => rw [List.map_cons, List.sum_cons, hsw.value name, ih, List.map_cons,
      List.sum_cons]

/-- The values of a name in some snapshots. -/
def heldBy (name : String) (snapshots : List (MonSnapshot V)) : V :=
  (snapshots.map fun s => s.map.value name).sum

/-- **The accounts of the metrics.** After every sequence of actions the snapshots, stored and
    freed, and the table are those of its history; a reset would leave every known name at zero;
    and for a name that is only incremented the values that were dropped, those stored and the
    current one are all that was added. -/
theorem mon_accounted (start : Int) (as : List (MonAction V)) (hnamed : ∀ a ∈ as, a.Named) :
    ∃ (m : Mon V) (all : List (MonSnapshot V)), (Mon.create start).run as = .ok m ∧
      m.Accounted (MonHistory.of start as) all ∧
      (∀ now name, (m.snapshotAndReset now).monTbl.lookup name =
        (m.monTbl.lookup name).map fun _ => 0) ∧
      ∀ name, (∀ v, .set name v ∉ as) →
        heldBy name m.freed + heldBy name (m.prev.filterMap id) + m.monTbl.value name =
          (as.map (MonAction.added name)).sum := by
  obtain ⟨m, all, hrun, hinv⟩ := (Mon.create_inv (V := V) start).run as hnamed
  refine ⟨m, all, hrun, hinv.accounted, fun now name => (moveLoop_keys m.monTbl name).1, ?_⟩
  intro name hset
  have hsplit : heldBy name all = heldBy name m.freed + heldBy name (m.prev.filterMap id) := by
    rw [hinv.freed, hinv.prev, padded_filterMap, add_comm, heldBy, heldBy, heldBy,
      ← List.sum_append, ← List.map_append, List.take_append_drop]
  have hempty : (MonHistory.of start ([] : List (MonAction V))).total name = 0 := by
    simp [MonHistory.of, MonHistory.total, accumulated]
  calc heldBy name m.freed + heldBy name (m.prev.filterMap id) + m.monTbl.value name
      = heldBy name all + m.monTbl.value name := by rw [hsplit]
    _ = (as.foldl MonHistory.record (MonHistory.of start [])).total name := by
      rw [MonHistory.total, ← hinv.current name, heldBy, holds_sum name hinv.holds]
    _ = (as.map (MonAction.added name)).sum := by
      rw [MonHistory.total_foldl as _ fun a ha v hav => hset v (hav ▸ ha), hempty, zero_add]

end Accounts

/-- Three windows: the first snapshot is freed. -/
def requestMetrics : List (MonAction Int) :=
  [.inc "request" 2, .inc "request" 1, .snapshotAndReset 10, .inc "request" 4,
   .snapshotAndReset 20, .set "latency" 7, .snapshotAndReset 30, .inc "request" 5]

/-- The metrics of a core that counts its requests. -/
theorem requestMetrics_accounted : ∃ (m : Mon Int) (all : List (MonSnapshot Int)),
    (Mon.create 0).run requestMetrics = .ok m ∧
      m.Accounted (MonHistory.of 0 requestMetrics) all ∧
      heldBy "request" m.freed + heldBy "request" (m.prev.filterMap id) +
        m.monTbl.value "request" = 12 := by
  have hnamed : ∀ a ∈ requestMetrics, a.Named := by
    simp [requestMetrics, MonAction.Named]
  obtain ⟨m, all, hrun, haccounted, -, htotal⟩ := mon_accounted 0 requestMetrics hnamed
  exact ⟨m, all, hrun, haccounted, htotal "request" (by simp [requestMetrics])⟩

end Skull
