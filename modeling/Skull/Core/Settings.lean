import Skull.Core.Config
import Skull.Lib.Dict
import Skull.Lib.Machine

namespace Skull

open Machines

/-!
# The settings of a configuration

Each key of `_load_config` is one setting: it writes one part of the configuration, and what it
writes there depends on its node and on that part only.  So the order of the keys does not matter:

* `Setting`, `Setting.load` — the keys, and the branch of the loader for each;
* `Setting.SameAt` — two configurations have the same value there;
* `Setting.load_other`, `Setting.load_transfer` — what a branch leaves alone, and what it depends on;
* `loadEntries_sameAt` — each setting of what is loaded comes from the node at its key;
* `loadEntries_total` — a file is loaded when each of its entries is.
-/

/-- The settings. -/
inductive Setting
  | threads | workflows | logName | diagName | logLevel | services | bioCnt | langs | commandPort
  | commandBind | maxFds | txnLogging | slowlogMs
  deriving DecidableEq, Repr

namespace Setting

/-- The key of a setting. -/
def key : Setting → String
  | threads => "worker_threads"
  | workflows => "workflows"
  | logName => "log_name"
  | diagName => "diag_log"
  | logLevel => "log_level"
  | services => "services"
  | bioCnt => "bg_iothreads"
  | langs => "languages"
  | commandPort => "command_port"
  | commandBind => "command_bind"
  | maxFds => "max_fds"
  | txnLogging => "txn_logging"
  | slowlogMs => "slowlog_ms"

/-- The branch of `_load_config` for a setting. -/
def load (s : Setting) (config : SkConfig) (child : CfgNode) : Except CfgFault SkConfig :=
  match s with
  | threads => (threadsOf child).map fun threads => { config with threads }
  | workflows => SkConfig.loadWorkflow child config
  | logName => (logNameOf .logName child).map fun logName => { config with logName }
  | diagName => (logNameOf .diagName child).map fun diagName => { config with diagName }
  | logLevel => (logLevelOf child).map fun logLevel => { config with logLevel }
  | services => SkConfig.loadServices child config
  | bioCnt => SkConfig.loadBios child config
  | langs => SkConfig.loadLangs child config
  | commandPort => (commandPortOf child).map fun commandPort => { config with commandPort }
  | commandBind => (commandBindOf child).map fun commandBind => { config with commandBind }
  | maxFds => child.getint.map fun maxFds => { config with maxFds }
  | txnLogging => child.getbool.map fun txnLogging => { config with txnLogging }
  | slowlogMs => child.getint.map fun slowlogMs => { config with slowlogMs }

/-- Two configurations have the same value there. -/
def SameAt (s : Setting) (c c' : SkConfig) : Prop :=
  match s with
  | threads => c.threads = c'.threads
  | workflows => c.workflows = c'.workflows
  | logName => c.logName = c'.logName
  | diagName => c.diagName = c'.diagName
  | logLevel => c.logLevel = c'.logLevel
  | services => c.services = c'.services
  | bioCnt => c.bioCnt = c'.bioCnt
  | langs => c.langs = c'.langs
  | commandPort => c.commandPort = c'.commandPort
  | commandBind => c.commandBind = c'.commandBind
  | maxFds => c.maxFds = c'.maxFds
  | txnLogging => c.txnLogging = c'.txnLogging
  | slowlogMs => c.slowlogMs = c'.slowlogMs

variable {s t : Setting} {c c' c₁ c₂ c₃ : SkConfig} {node : CfgNode}

theorem SameAt.refl (s : Setting) (c : SkConfig) : s.SameAt c c := by cases s <;> rfl

theorem SameAt.symm (h : s.SameAt c c') : s.SameAt c' c := by
  cases s <;> exact Eq.symm h

theorem SameAt.trans (h : s.SameAt c₁ c₂) (h' : s.SameAt c₂ c₃) : s.SameAt c₁ c₃ := by
  cases s <;> exact Eq.trans h h'

/-- The settings are all there is. -/
theorem eq_of_sameAt (h : ∀ s : Setting, s.SameAt c c') : c = c' := by
  cases c
  cases c'
  obtain rfl := h threads
  obtain rfl := h workflows
  obtain rfl := h logName
  obtain rfl := h diagName
  obtain rfl := h logLevel
  obtain rfl := h services
  obtain rfl := h bioCnt
  obtain rfl := h langs
  obtain rfl := h commandPort
  obtain rfl := h commandBind
  obtain rfl := h maxFds
  obtain rfl := h txnLogging
  obtain rfl := h slowlogMs
  rfl

/-- Different settings have different keys. -/
theorem key_inj (h : s.key = t.key) : s = t := by
  cases s <;> cases t <;> first | rfl | exact absurd h (by decide)

/-! ### One key -/

/-- The entry at the key of a setting loads it. -/
theorem loadEntry_key (s : Setting) (c : SkConfig) (node : CfgNode) :
    c.loadEntry s.key node = s.load c node := by
  cases s <;> rfl

/-- A key of no setting is skipped. -/
theorem loadEntry_unknown {k : String} (h : ∀ s : Setting, s.key ≠ k) (c : SkConfig)
    (node : CfgNode) : c.loadEntry k node = .ok c := by
  have hne : ∀ (s : Setting) (name : String), s.key = name → ¬k = name := by
    rintro s name rfl heq
    exact h s heq.symm
  rw [SkConfig.loadEntry, if_neg (hne threads "worker_threads" rfl),
    if_neg (hne workflows "workflows" rfl), if_neg (hne logName "log_name" rfl),
    if_neg (hne diagName "diag_log" rfl), if_neg (hne logLevel "log_level" rfl),
    if_neg (hne services "services" rfl), if_neg (hne bioCnt "bg_iothreads" rfl),
    if_neg (hne langs "languages" rfl), if_neg (hne commandPort "command_port" rfl),
    if_neg (hne commandBind "command_bind" rfl), if_neg (hne maxFds "max_fds" rfl),
    if_neg (hne txnLogging "txn_logging" rfl), if_neg (hne slowlogMs "slowlog_ms" rfl)]

/-- **What a branch leaves alone.** -/
theorem load_other (h : s.load c node = .ok c') (hne : t ≠ s) : t.SameAt c c' := by
  cases s with
  | threads | logName | diagName | logLevel | commandPort | commandBind | maxFds | txnLogging
  | slowlogMs =>
    -- each branch writes the field of its own setting, or nothing
    obtain ⟨a, -, rfl⟩ := except_map_ok.mp h
    cases t <;> first | rfl | exact absurd rfl hne
  | workflows =>
    obtain ⟨a, -, rfl⟩ := except_map_ok.mp h
    cases t <;> first | rfl | exact absurd rfl hne
  | services =>
    cases node with
    | mapping entries =>
      obtain ⟨a, -, rfl⟩ := except_map_ok.mp h
      cases t <;> first | rfl | exact absurd rfl hne
    | value | array =>
      obtain rfl := Except.ok.inj h
      exact .refl t c
  | bioCnt =>
    cases node with
    | value v =>
      obtain ⟨n, -, hn⟩ := except_bind_ok.mp h
      split at hn
      · obtain rfl := Except.ok.inj hn
        cases t <;> first | rfl | exact absurd rfl hne
      · exact absurd hn (by simp)
    | array | mapping =>
      obtain rfl := Except.ok.inj h
      exact .refl t c
  | langs =>
    cases node with
    | array items =>
      obtain ⟨a, -, rfl⟩ := except_map_ok.mp h
      cases t <;> first | rfl | exact absurd rfl hne
    | value | mapping =>
      obtain rfl := Except.ok.inj h
      exact .refl t c

/-- Whether services load does not depend on the table they are put in. -/
theorem loadServiceLoop_transfer {entries : List (String × CfgNode)}
    {table table' : String → Option ServiceCfg} (h : loadServiceLoop entries table = .ok table')
    (base : String → Option ServiceCfg) : ∃ t, loadServiceLoop entries base = .ok t := by
  refine foldlM_transfer (fun e _ _ _ hturn => ?_) h base
  obtain ⟨service, hservice, -⟩ := except_bind_ok.mp hturn
  exact ⟨_, except_bind_ok.mpr ⟨service, hservice, rfl⟩⟩

/-- Whether languages load does not depend on those before them. -/
theorem loadLangs_transfer {items : List CfgNode} {ls ls' : List String}
    (h : items.foldlM SkConfig.loadLang ls = .ok ls') (base : List String) :
    ∃ l, items.foldlM SkConfig.loadLang base = .ok l := by
  refine foldlM_transfer (fun item _ _ _ hturn => ?_) h base
  obtain ⟨lang, hlang, -⟩ := except_bind_ok.mp hturn
  exact ⟨_, except_bind_ok.mpr ⟨lang, hlang, rfl⟩⟩

/-- **What a branch depends on**: its node, and the value of its setting. -/
theorem load_transfer (h : s.load c₁ node = .ok c) (c₂ : SkConfig) :
    ∃ c', s.load c₂ node = .ok c' ∧ (s.SameAt c₁ c₂ → s.SameAt c c') := by
  cases s with
  | threads | logName | diagName | logLevel | commandPort | commandBind | maxFds | txnLogging
  | slowlogMs =>
    obtain ⟨a, ha, rfl⟩ := except_map_ok.mp h
    exact ⟨_, except_map_ok.mpr ⟨a, ha, rfl⟩, fun _ => rfl⟩
  | workflows =>
    -- workflows are appended to those that are there
    obtain ⟨ws, hws, rfl⟩ := except_map_ok.mp h
    exact ⟨_, except_map_ok.mpr ⟨ws, hws, rfl⟩, fun hsame => congrArg (· ++ ws) hsame⟩
  | services =>
    cases node with
    | mapping entries =>
      obtain ⟨table, htable, rfl⟩ := except_map_ok.mp h
      -- services are put into the table that is there
      obtain ⟨table', htable'⟩ := loadServiceLoop_transfer htable c₂.services
      refine ⟨_, except_map_ok.mpr ⟨table', htable', rfl⟩, fun hsame => ?_⟩
      rw [hsame.symm] at htable'
      exact Except.ok.inj (htable.symm.trans htable')
    | value | array =>
      obtain rfl := Except.ok.inj h
      exact ⟨c₂, rfl, id⟩
  | bioCnt =>
    cases node with
    | value v =>
      obtain ⟨n, hn, hend⟩ := except_bind_ok.mp h
      split at hend
      next hpos =>
        obtain rfl := Except.ok.inj hend
        exact ⟨{ c₂ with bioCnt := n }, except_bind_ok.mpr ⟨n, hn, if_pos hpos⟩, fun _ => rfl⟩
      next => exact absurd hend (by simp)
    | array | mapping =>
      obtain rfl := Except.ok.inj h
      exact ⟨c₂, rfl, id⟩
  | langs =>
    cases node with
    | array items =>
      obtain ⟨ls, hls, rfl⟩ := except_map_ok.mp h
      obtain ⟨ls', hls'⟩ := loadLangs_transfer hls c₂.langs
      refine ⟨_, except_map_ok.mpr ⟨ls', hls', rfl⟩, fun hsame => ?_⟩
      rw [hsame.symm] at hls'
      exact Except.ok.inj (hls.symm.trans hls')
    | value | mapping =>
      obtain rfl := Except.ok.inj h
      exact ⟨c₂, rfl, id⟩

/-! ### A file -/

variable {entries : List (String × CfgNode)}

/-- A key writes its own setting only. -/
theorem loadEntry_other {k : String} (h : c.loadEntry k node = .ok c') (hne : s.key ≠ k) :
    s.SameAt c c' := by
  by_cases hk : ∃ t : Setting, t.key = k
  · obtain ⟨t, rfl⟩ := hk
    rw [loadEntry_key] at h
    exact load_other h fun heq => hne (heq ▸ rfl)
  · rw [loadEntry_unknown fun t ht => hk ⟨t, ht⟩] at h
    obtain rfl := Except.ok.inj h
    exact .refl s c

/-- Whether an entry loads does not depend on the configuration it is put in. -/
theorem loadEntry_transfer {k : String} (h : c₁.loadEntry k node = .ok c) (c₂ : SkConfig) :
    ∃ c', c₂.loadEntry k node = .ok c' := by
  by_cases hk : ∃ t : Setting, t.key = k
  · obtain ⟨t, rfl⟩ := hk
    rw [loadEntry_key] at h
    obtain ⟨c', hc', -⟩ := load_transfer h c₂
    exact ⟨c', by rwa [loadEntry_key]⟩
  · exact ⟨c₂, loadEntry_unknown (fun t ht => hk ⟨t, ht⟩) c₂ node⟩

/-- **Each setting of what is loaded** comes from the node at its key. -/
theorem loadEntries_sameAt (hnodup : (entries.map Prod.fst).Nodup)
    (h : entries.foldlM (fun config e => config.loadEntry e.1 e.2) c = .ok c') (s : Setting) :
    (Dict.getEntry s.key entries = none → s.SameAt c c') ∧
      ∀ n, Dict.getEntry s.key entries = some n → ∃ d, s.load c n = .ok d ∧ s.SameAt d c' := by
  induction entries generalizing c with
  | nil =>
    obtain rfl := Except.ok.inj h
    exact ⟨fun _ => .refl s c, fun n hn => absurd hn (by simp [Dict.getEntry])⟩
  | cons e es ih =>
    obtain ⟨c₁, hentry, hrest⟩ := except_bind_ok.mp h
    obtain ⟨hnone, hsome⟩ := ih (List.nodup_cons.mp hnodup).2 hrest
    have hget : Dict.getEntry s.key (e :: es) =
        if e.1 = s.key then some e.2 else Dict.getEntry s.key es := rfl
    rw [hget]
    -- the entry of the key: no entry behind it has the key again
    by_cases hk : e.1 = s.key
    · have hes : Dict.getEntry s.key es = none :=
        (Dict.getEntry_eq_none es).mpr (hk ▸ (List.nodup_cons.mp hnodup).1)
      rw [if_pos hk]
      refine ⟨fun hn => absurd hn (by simp), fun n hn => ⟨c₁, ?_, hnone hes⟩⟩
      dsimp only at hentry
      rw [hk, loadEntry_key, Option.some.inj hn] at hentry
      exact hentry
    · -- another entry leaves the setting, so it starts from the same
      have hsame := loadEntry_other hentry (Ne.symm hk)
      rw [if_neg hk]
      refine ⟨fun hn => hsame.trans (hnone hn), fun n hn => ?_⟩
      obtain ⟨d, hd, hdsame⟩ := hsome n hn
      obtain ⟨d', hd', himp⟩ := load_transfer hd c
      exact ⟨d', hd', (himp hsame.symm).symm.trans hdsame⟩

/-- **A file is loaded** when each of its entries is. -/
theorem loadEntries_total
    (h : ∀ e ∈ entries, ∃ d, createConfig.loadEntry e.1 e.2 = .ok d) (c : SkConfig) :
    ∃ c', entries.foldlM (fun config e => config.loadEntry e.1 e.2) c = .ok c' := by
  refine foldlM_total (fun c e he => ?_) c
  obtain ⟨d, hd⟩ := h e he
  exact loadEntry_transfer hd c

/-! ### Services -/

/-- **The table of services** has what is loaded from the node of each service. -/
theorem loadServiceLoop_get {table table' : String → Option ServiceCfg}
    (hnodup : (entries.map Prod.fst).Nodup) (h : loadServiceLoop entries table = .ok table')
    (name : String) : (Dict.getEntry name entries = none → table' name = table name) ∧
      ∀ n, Dict.getEntry name entries = some n →
        ∃ service, loadService n = .ok service ∧ table' name = some service := by
  induction entries generalizing table with
  | nil =>
    obtain rfl := Except.ok.inj h
    exact ⟨fun _ => rfl, fun n hn => absurd hn (by simp [Dict.getEntry])⟩
  | cons e es ih =>
    obtain ⟨table₁, hturn, hrest⟩ := except_bind_ok.mp h
    obtain ⟨service, hservice, hend⟩ := except_bind_ok.mp hturn
    obtain rfl := Except.ok.inj hend
    obtain ⟨hnone, hsome⟩ := ih (List.nodup_cons.mp hnodup).2 hrest
    have hget : Dict.getEntry name (e :: es) =
        if e.1 = name then some e.2 else Dict.getEntry name es := rfl
    rw [hget]
    by_cases hk : e.1 = name
    · have hes : Dict.getEntry name es = none :=
        (Dict.getEntry_eq_none es).mpr (hk ▸ (List.nodup_cons.mp hnodup).1)
      rw [if_pos hk]
      refine ⟨fun hn => absurd hn (by simp), fun n hn => ⟨service, ?_, ?_⟩⟩
      · rw [← Option.some.inj hn]
        exact hservice
      · rw [hnone hes, if_pos hk.symm]
    · rw [if_neg hk]
      refine ⟨fun hn => ?_, hsome⟩
      rw [hnone hn, if_neg (Ne.symm hk)]

/-- The services are loaded when each of them is. -/
theorem loadServiceLoop_total (h : ∀ e ∈ entries, ∃ service, loadService e.2 = .ok service)
    (table : String → Option ServiceCfg) : ∃ table', loadServiceLoop entries table = .ok table' := by
  refine foldlM_total (fun table e he => ?_) table
  obtain ⟨service, hservice⟩ := h e he
  exact ⟨_, except_bind_ok.mpr ⟨service, hservice, rfl⟩⟩

end Setting

end Skull
