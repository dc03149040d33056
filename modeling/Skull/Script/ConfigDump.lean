import Skull.Script.ConfigUtils

namespace Skull

open Machines

/-!
# What is read back of the file that is written

* `dumped_pyNode`, `dumpedEntries_eq`, … — what `yaml.dump` makes of the parts of a node;
* `dumpConfig_get` — what is at a key of the file that is written;
* `From` — a setting comes from what a file has at its key, and `From.same_iff`: it stays the same
  when the same is read there;
* `sameAt_plain`, `sameAt_diagLog`, `sameAt_langs`, `sameAt_section` — when a setting stays the same;
* `same_iff_writable` — when all of them do but the sections.
-/

variable {entries entries' : List (String × CfgNode)} {node node' : CfgNode} {s t : Setting}
  {c c' : SkConfig} {key : String}

/-! ### Unique keys -/

/-- The keys of a mapping. -/
theorem CfgNode.Unique.keys (h : (CfgNode.mapping entries).Unique) :
    (entries.map Prod.fst).Nodup := by
  cases h
  assumption

/-- What is at a key of a mapping. -/
theorem CfgNode.Unique.get (h : (CfgNode.mapping entries).Unique)
    (hget : Dict.getEntry key entries = some node) : node.Unique := by
  cases h with
  | mapping _ hall => exact hall _ (Dict.mem_of_getEntry hget)

/-- An item of a list. -/
theorem CfgNode.Unique.item {items : List CfgNode} (h : (CfgNode.array items).Unique)
    (hmem : node ∈ items) : node.Unique := by
  cases h with
  | array hall => exact hall node hmem

namespace ConfigUtils

/-! ### The nodes that are dumped -/

/-- A node of the script's own is read back as it is. -/
@[simp] theorem dumped_pyNode (v : PyValue) : dumped (pyNode v) = pyNode v := rfl

/-- The items of a list are dumped one by one. -/
theorem dumpedItems_eq (items : List CfgNode) : dumpedItems items = items.map dumped := by
  induction items with
  | nil => rfl
  | cons item items ih => rw [dumpedItems, ih, List.map_cons]

/-- The entries of a mapping are dumped one by one. -/
theorem dumpedEntries_eq (entries : List (String × CfgNode)) :
    dumpedEntries entries = entries.map fun e => (e.1, dumped e.2) := by
  induction entries with
  | nil => rfl
  | cons e es ih => rw [dumpedEntries, ih, List.map_cons]

/-- Their keys stay. -/
theorem dumpedEntries_keys (entries : List (String × CfgNode)) :
    (dumpedEntries entries).map Prod.fst = entries.map Prod.fst := by
  rw [dumpedEntries_eq, List.map_map]
  rfl

/-- What is at a key of a mapping that is dumped. -/
theorem getEntry_dumped (key : String) (entries : List (String × CfgNode)) :
    Dict.getEntry key (dumpedEntries entries) = (Dict.getEntry key entries).map dumped := by
  induction entries with
  | nil => rfl
  | cons e es ih =>
    rw [dumpedEntries, Dict.getEntry, Dict.getEntry, ih]
    split <;> rfl

/-- An entry that is set is dumped in its place. -/
theorem dumpedEntries_setEntry (key : String) (node : CfgNode) (entries : List (String × CfgNode)) :
    dumpedEntries (Dict.setEntry key node entries) =
      Dict.setEntry key (dumped node) (dumpedEntries entries) := by
  induction entries with
  | nil => rfl
  | cons e es ih =>
    rw [Dict.setEntry, dumpedEntries, Dict.setEntry]
    split
    · rfl
    · rw [dumpedEntries, ih]

/-- A node that is false for Python is dumped as one that gives the engine nothing either. -/
theorem dumpsAs_of_falsy (hs : s = .workflows ∨ s = .services) (h : truthy node = false) :
    DumpsAs s node ∧ s.load createConfig node = .ok createConfig := by
  have hnode : (∃ v, node = .value v) ∨ node = .array [] ∨ node = .mapping [] := by
    cases node with
    | value v => exact .inl ⟨v, rfl⟩
    | array items =>
      obtain rfl : items = [] := by simpa [truthy] using h
      exact .inr (.inl rfl)
    | mapping es =>
      obtain rfl : es = [] := by simpa [truthy] using h
      exact .inr (.inr rfl)
  rcases hs with rfl | rfl <;> rcases hnode with ⟨v, rfl⟩ | rfl | rfl <;> exact ⟨rfl, rfl⟩

/-! ### The file -/

/-- The keys of what is written are among those that are written. -/
theorem getEntry_filterMap (f : String → Option CfgNode) (keys : List String) (key : String) :
    Dict.getEntry key (keys.filterMap fun k => (f k).map (k, ·)) =
      if key ∈ keys then f key else none := by
  induction keys with
  | nil => rfl
  | cons k ks ih =>
    rw [List.filterMap_cons]
    by_cases hk : k = key
    · subst hk
      cases hf : f k with
      | none => simp [hf, ih]
      | some node => simp [Dict.getEntry]
    · cases hf : f k with
      | none => simp [ih, Ne.symm hk]
      | some node => simp [Dict.getEntry, hk, ih, Ne.symm hk]

variable {yaml : String → Option CfgNode} {file : List (String × CfgNode)}

/-- A file can be read back when all that is written in it can. -/
theorem dumpConfig_eq_some : dumpConfig yaml entries = some file ↔
    (∀ key ∈ dumpKeys, (dumpItem yaml entries key).isSome) ∧
      file = dumpKeys.filterMap fun key => (dumpItem yaml entries key).join.map (key, ·) := by
  rw [dumpConfig]
  by_cases hall : ∀ key ∈ dumpKeys, (dumpItem yaml entries key).isSome
  · rw [if_pos (List.all_eq_true.mpr hall), Option.some.injEq, eq_comm]
    exact ⟨fun h => ⟨hall, h⟩, And.right⟩
  · rw [if_neg (fun h => hall (List.all_eq_true.mp h))]
    exact ⟨fun h => absurd h (by simp), fun h => absurd h.1 hall⟩

/-- **What is at a key of the file that is written.** -/
theorem dumpConfig_get (h : dumpConfig yaml entries = some file) (key : String) :
    Dict.getEntry key file = if key ∈ dumpKeys then (dumpItem yaml entries key).join else none := by
  obtain ⟨-, rfl⟩ := dumpConfig_eq_some.mp h
  exact getEntry_filterMap _ _ _

/-- Each key is written once. -/
theorem dumpConfig_nodup (h : dumpConfig yaml entries = some file) :
    (file.map Prod.fst).Nodup := by
  obtain ⟨-, rfl⟩ := dumpConfig_eq_some.mp h
  have hsub : ∀ keys : List String, (List.map Prod.fst
      (keys.filterMap fun k => (dumpItem yaml entries k).join.map (k, ·))).Sublist keys := by
    intro keys
    induction keys with
    | nil => exact .slnil
    | cons k ks ih =>
      rw [List.filterMap_cons]
      cases (dumpItem yaml entries k).join with
      | none => exact ih.cons k
      | some node => exact ih.cons_cons k
  exact (hsub dumpKeys).nodup (by decide)

/-- The keys of the settings are written, but for the name of the diagnosis log. -/
theorem key_mem_dumpKeys (h : s ≠ .diagName) : s.key ∈ dumpKeys := by
  cases s <;> first | decide | exact absurd rfl h

/-! ### What is written for a setting -/

/-- What is written for a setting whose value is true for Python. -/
theorem dumpItem_truthy (hw : s ≠ .workflows) (hs : s ≠ .services)
    (hget : Dict.getEntry s.key entries = some node) (ht : truthy node = true) :
    dumpItem yaml entries s.key = (yaml (pyStr node)).map some := by
  have hkey : ¬(s.key = "workflows" ∨ s.key = "services") := by
    rintro (h | h)
    · exact hw (Setting.key_inj h)
    · exact hs (Setting.key_inj h)
  rw [dumpItem, hget, Option.filter_some_pos ht]
  exact if_neg hkey

/-- A comment is written for another one. -/
theorem dumpItem_falsy (hw : s ≠ .workflows) (hs : s ≠ .services) (hl : s ≠ .langs)
    (h : (Dict.getEntry s.key entries).filter truthy = none) :
    dumpItem yaml entries s.key = some none := by
  have hkey : ¬(s.key = "workflows" ∨ s.key = "services") := by
    rintro (h | h)
    · exact hw (Setting.key_inj h)
    · exact hs (Setting.key_inj h)
  have hlangs : ¬s.key = "languages" := fun h => hl (Setting.key_inj h)
  rw [dumpItem, h]
  show (if _ then _ else if _ then _ else _) = _
  rw [if_neg hlangs, if_neg hkey]

/-- What is written for the languages when there are none. -/
theorem dumpItem_noLangs (h : (Dict.getEntry "languages" entries).filter truthy = none) :
    dumpItem yaml entries "languages" = some (some defaultLanguages) := by
  rw [dumpItem, h]
  rfl

/-- What is written for a section. -/
theorem dumpItem_section (hs : s = .workflows ∨ s = .services) :
    dumpItem yaml entries s.key =
      some (some ((((Dict.getEntry s.key entries).filter truthy).map dumped).getD nothing)) := by
  have hkey : ¬s.key = "languages" ∧ (s.key = "workflows" ∨ s.key = "services") := by
    rcases hs with rfl | rfl <;> decide
  rw [dumpItem]
  cases (Dict.getEntry s.key entries).filter truthy with
  | some node => exact if_pos hkey.2
  | none =>
    show (if _ then _ else if _ then _ else _) = _
    rw [if_neg hkey.1, if_pos hkey.2]
    rfl

/-! ### Settings and files -/

/-- What the branch of a setting makes of what is at its key. -/
def reads (s : Setting) (get : Option CfgNode) : Except CfgFault SkConfig :=
  match get with
  | none => .ok createConfig
  | some node => s.load createConfig node

/-- The setting comes from what a file has at its key. -/
def From (s : Setting) (get : Option CfgNode) (c : SkConfig) : Prop :=
  ∃ d, reads s get = .ok d ∧ s.SameAt d c

/-- The settings of a configuration come from its file. -/
theorem from_of_load (hnodup : (entries.map Prod.fst).Nodup)
    (h : SkConfig.loadConfig (.mapping entries) createConfig = .ok c) (s : Setting) :
    From s (Dict.getEntry s.key entries) c := by
  obtain ⟨hnone, hsome⟩ := Setting.loadEntries_sameAt hnodup h s
  cases hget : Dict.getEntry s.key entries with
  | none => exact ⟨createConfig, rfl, hnone hget⟩
  | some n => exact hsome n hget

/-- A branch writes its own setting only. -/
theorem reads_other {get : Option CfgNode} {d : SkConfig} (h : reads s get = .ok d) (hne : t ≠ s) :
    t.SameAt createConfig d := by
  cases get with
  | none =>
    obtain rfl := Except.ok.inj h
    exact .refl t createConfig
  | some n => exact Setting.load_other h hne

/-- **A setting stays the same** exactly when the same is read for it. -/
theorem From.same_iff {get get' : Option CfgNode} (h : From s get c) (h' : From s get' c') :
    s.SameAt c c' ↔ reads s get' = reads s get := by
  obtain ⟨d, hd, hsame⟩ := h
  obtain ⟨d', hd', hsame'⟩ := h'
  rw [hd, hd']
  constructor
  · intro hcc
    refine congrArg Except.ok (Setting.eq_of_sameAt fun t => ?_)
    by_cases ht : t = s
    · rw [ht]
      exact (hsame'.trans hcc.symm).trans hsame.symm
    · exact (reads_other hd' ht).symm.trans (reads_other hd ht)
  · intro heq
    obtain rfl := Except.ok.inj heq
    exact hsame.symm.trans hsame'

/-- The default is read where nothing else is. -/
theorem readsDefault_iff : ReadsDefault s.key node ↔ reads s none = reads s (some node) := by
  rw [ReadsDefault, Setting.loadEntry_key, eq_comm]
  rfl

/-! ### When a setting stays the same -/

section Same

variable (hfile : dumpConfig yaml entries = some file)

include hfile

/-- What is at the key of a setting that is written is read back. -/
theorem get_eq_some (hd : s ≠ .diagName) {item : Option CfgNode}
    (h : dumpItem yaml entries s.key = item.map some) :
    Dict.getEntry s.key file = item ∧ item.isSome := by
  have hsome := (dumpConfig_eq_some.mp hfile).1 s.key (key_mem_dumpKeys hd)
  rw [dumpConfig_get hfile, if_pos (key_mem_dumpKeys hd), h]
  rw [h] at hsome
  cases item with
  | none => exact absurd hsome (by simp)
  | some n => exact ⟨rfl, rfl⟩

/-- A setting whose value is true for Python stays the same when its text reads the same. -/
theorem sameAt_truthy (hw : s ≠ .workflows) (hs : s ≠ .services) (hd : s ≠ .diagName)
    (hget : Dict.getEntry s.key entries = some node) (ht : truthy node = true)
    (h : From s (Dict.getEntry s.key entries) c) (h' : From s (Dict.getEntry s.key file) c') :
    s.SameAt c c' ↔ FormatsAs yaml s node := by
  have hitem : dumpItem yaml entries s.key = (yaml (pyStr node)).map some :=
    dumpItem_truthy hw hs hget ht
  obtain ⟨hread, hsome⟩ := get_eq_some hfile hd hitem
  obtain ⟨n, hn⟩ := Option.isSome_iff_exists.mp hsome
  rw [h.same_iff h', hread, hget, FormatsAs, hn]
  exact ⟨fun heq => ⟨n, rfl, heq⟩, fun ⟨n', hn', heq⟩ => Option.some.inj hn' ▸ heq⟩

/-- **The settings that are like each other.** -/
theorem sameAt_plain (hw : s ≠ .workflows) (hs : s ≠ .services) (hd : s ≠ .diagName)
    (hl : s ≠ .langs) (h : From s (Dict.getEntry s.key entries) c)
    (h' : From s (Dict.getEntry s.key file) c') :
    s.SameAt c c' ↔ ∀ node, Dict.getEntry s.key entries = some node →
      if truthy node then FormatsAs yaml s node else ReadsDefault s.key node := by
  -- a comment is written when the value is false for Python
  have hfalsy (hno : (Dict.getEntry s.key entries).filter truthy = none) :
      Dict.getEntry s.key file = none := by
    rw [dumpConfig_get hfile, if_pos (key_mem_dumpKeys hd), dumpItem_falsy hw hs hl hno]
    rfl
  cases hget : Dict.getEntry s.key entries with
  | none =>
    rw [h.same_iff h', hfalsy (by rw [hget]; rfl), hget]
    simp
  | some node =>
    cases ht : truthy node with
    | true =>
      rw [sameAt_truthy hfile hw hs hd hget ht h h']
      simp [ht]
    | false =>
      rw [h.same_iff h', hfalsy (by rw [hget]; exact Option.filter_some_neg (by simp [ht])), hget,
        ← readsDefault_iff]
      simp [ht]

/-- The name of the diagnosis log is not written. -/
theorem sameAt_diagLog (h : From .diagName (Dict.getEntry "diag_log" entries) c)
    (h' : From .diagName (Dict.getEntry "diag_log" file) c') :
    Setting.diagName.SameAt c c' ↔
      ∀ node, Dict.getEntry "diag_log" entries = some node → ReadsDefault "diag_log" node := by
  have hnone : Dict.getEntry "diag_log" file = none := by
    rw [dumpConfig_get hfile, if_neg (by decide)]
  rw [h.same_iff h', hnone]
  cases Dict.getEntry "diag_log" entries with
  | none => simp
  | some node =>
    have hiff : ReadsDefault "diag_log" node ↔ reads .diagName none = reads .diagName (some node) :=
      readsDefault_iff (s := .diagName)
    simp [hiff]

/-- Without languages the script writes some. -/
theorem sameAt_langs (h : From .langs (Dict.getEntry "languages" entries) c)
    (h' : From .langs (Dict.getEntry "languages" file) c') :
    Setting.langs.SameAt c c' ↔ ∃ node, Dict.getEntry "languages" entries = some node ∧
      truthy node ∧ FormatsAs yaml .langs node := by
  by_cases hyes : ∃ node, Dict.getEntry "languages" entries = some node ∧ truthy node = true
  · obtain ⟨node, hget, ht⟩ := hyes
    rw [sameAt_truthy hfile (s := .langs) (by decide) (by decide) (by decide) hget ht h h']
    constructor
    · exact fun hf => ⟨node, hget, ht, hf⟩
    · rintro ⟨node', hget', -, hf⟩
      obtain rfl := Option.some.inj (hget.symm.trans hget')
      exact hf
  · -- the engine reads no languages, and then those that are written
    have hno : (Dict.getEntry "languages" entries).filter truthy = none := by
      rw [Option.filter_eq_none_iff]
      exact fun node hget ht => hyes ⟨node, hget, ht⟩
    have hwritten : Dict.getEntry "languages" file = some defaultLanguages := by
      rw [dumpConfig_get hfile, if_pos (by decide), dumpItem_noLangs hno]
      rfl
    have hempty : reads .langs (Dict.getEntry "languages" entries) = .ok createConfig := by
      cases hget : Dict.getEntry "languages" entries with
      | none => rfl
      | some node =>
        have ht : truthy node = false := by simpa [hget] using hyes
        cases node with
        | value v => rfl
        | mapping es => rfl
        | array items =>
          obtain rfl : items = [] := by simpa [truthy] using ht
          rfl
    rw [h.same_iff h', hwritten, hempty]
    refine iff_of_false (fun heq => ?_) ?_
    · have hlangs := congrArg SkConfig.langs (Except.ok.inj heq)
      exact absurd hlangs (by decide)
    · rintro ⟨node, hget, ht, -⟩
      exact hyes ⟨node, hget, ht⟩

/-- A section that is not edited stays the same when it is dumped as it is read. -/
theorem sameAt_section (hs : s = .workflows ∨ s = .services)
    (h : From s (Dict.getEntry s.key entries) c) (h' : From s (Dict.getEntry s.key file) c') :
    s.SameAt c c' ↔ ∀ node, Dict.getEntry s.key entries = some node → DumpsAs s node := by
  have hin : s.key ∈ dumpKeys := by rcases hs with rfl | rfl <;> decide
  have hread : Dict.getEntry s.key file =
      some ((((Dict.getEntry s.key entries).filter truthy).map dumped).getD nothing) := by
    rw [dumpConfig_get hfile, if_pos hin, dumpItem_section hs]
    rfl
  have hnothing : reads s (some nothing) = .ok createConfig := by
    rcases hs with rfl | rfl <;> rfl
  rw [h.same_iff h', hread]
  cases hget : Dict.getEntry s.key entries with
  | none =>
    refine iff_of_true ?_ (by simp)
    exact hnothing
  | some node =>
    cases ht : truthy node with
    | true =>
      rw [Option.filter_some_pos ht]
      exact ⟨fun heq n hn => Option.some.inj hn ▸ heq, fun hd => hd node rfl⟩
    | false =>
      obtain ⟨hdump, hload⟩ := dumpsAs_of_falsy hs ht
      rw [Option.filter_some_neg (by simp [ht])]
      refine iff_of_true (hnothing.trans hload.symm) fun n hn => ?_
      rw [← Option.some.inj hn]
      exact hdump

/-- **The settings that are no sections stay the same** when the file is written as it is read. -/
theorem same_iff_writable (h : ∀ s : Setting, s ≠ .workflows → s ≠ .services →
      From s (Dict.getEntry s.key entries) c)
    (h' : ∀ s : Setting, From s (Dict.getEntry s.key file) c') :
    (∀ s : Setting, s ≠ .workflows → s ≠ .services → s.SameAt c c') ↔ Writable yaml entries := by
  have hdiag := sameAt_diagLog hfile (h .diagName (by decide) (by decide)) (h' .diagName)
  have hlangs := sameAt_langs hfile (h .langs (by decide) (by decide)) (h' .langs)
  constructor
  · intro hsame
    refine ⟨fun s hw hs hd hl => ?_, hdiag.mp (hsame _ (by decide) (by decide)),
      fun node hget ht => ?_, hlangs.mp (hsame _ (by decide) (by decide))⟩
    · exact (sameAt_plain hfile hw hs hd hl (h s hw hs) (h' s)).mp (hsame s hw hs)
    · have hsome := (dumpConfig_eq_some.mp hfile).1 "diag_name" (by decide)
      rw [dumpItem, hget, Option.filter_some_pos ht] at hsome
      simpa using hsome
  · intro hwritable s hw hs
    by_cases hd : s = .diagName
    · rw [hd]
      exact hdiag.mpr hwritable.diagLog
    · by_cases hl : s = .langs
      · rw [hl]
        exact hlangs.mpr hwritable.languages
      · exact (sameAt_plain hfile hw hs hd hl (h s hw hs) (h' s)).mpr
          (hwritable.plain s hw hs hd hl)

end Same

end ConfigUtils

end Skull
