import Skull.Core.Config
import Skull.Lib.Dict
import Skull.Lib.Machine

namespace Skull

open Machines

/-!
# The workflows of a core

`_sk_setup_workflows` makes the workflows of a configuration and loads their modules.  A module that
was loaded before is skipped, also where it should become part of a workflow:

* `SkCore.addModule`, `SkCore.setupWorkflow`, `SkCore.setupWorkflows` — the loops of the source;
* `SkCore.Added`, `SkCore.Built` — what the inner and the outer loop did;
* `SkCore.setupWorkflows_iff` — the workflows are as configured when no module recurs;
* `recurring_dropped` — a module that two workflows have is part of the first one only.

What `sk_module_load` returns depends on the loader of the module and on its files; the model has it
as a condition on the configuration of the module.  The creation of a driver is its type.
-/

/-- `sk_module_t`. -/
structure SkModule where
  cfg : ModuleCfg
  deriving DecidableEq, Repr

/-- `sk_workflow_t`. -/
structure SkWorkflow where
  cfg : WorkflowCfg
  modules : List SkModule
  deriving DecidableEq, Repr

/-- `sk_driver_type_t`. -/
inductive DriverType
  | app | std | tcp | udp
  deriving DecidableEq, Repr

/-- `sk_driver_t`. -/
structure SkDriver where
  type : DriverType
  workflow : SkWorkflow
  deriving DecidableEq, Repr

/-- The part of `sk_core_t` that the setup of the workflows writes; `loaded` are the modules that
    `sk_module_load` returned, in that order. -/
structure SkCore where
  workflows : List SkWorkflow
  drivers : List SkDriver
  uniqueModules : Dict String SkModule
  loaded : List SkModule
  deriving DecidableEq

/-- Why a core does not start. -/
inductive CoreFault
  /-- `exit(1)`: a module cannot be loaded. -/
  | load
  deriving DecidableEq, Repr

/-- `sk_module_load`, of a module whose files its loader opens. -/
def moduleLoad (opens : ModuleCfg → Bool) (cfg : ModuleCfg) : Option SkModule :=
  if opens cfg then some { cfg } else none

/-- `sk_workflow_create`. -/
def workflowCreate (cfg : WorkflowCfg) : SkWorkflow := { cfg, modules := [] }

/-- `sk_workflow_add_module`. -/
def SkWorkflow.addModule (workflow : SkWorkflow) (module : SkModule) : SkWorkflow :=
  { workflow with modules := workflow.modules ++ [module] }

/-- `sk_driver_create`. -/
def driverCreate (workflow : SkWorkflow) : SkDriver where
  type :=
    if workflow.cfg.enableStdin then .std
    else if 0 < workflow.cfg.port then
      match workflow.cfg.sockType with
      | .tcp => .tcp
      | .udp => .udp
    else .app
  workflow

/-- The names of the modules of a configuration. -/
def WorkflowCfg.moduleNames (cfg : WorkflowCfg) : List String := cfg.modules.map ModuleCfg.name

/-- The names of modules. -/
def namesOf (modules : List SkModule) : List String := modules.map fun m => m.cfg.name

/-- The names of the modules of a workflow. -/
def SkWorkflow.moduleNames (workflow : SkWorkflow) : List String := namesOf workflow.modules

namespace SkCore

variable (opens : ModuleCfg → Bool)

/-- One turn of the inner loop of `_sk_setup_workflows`. -/
def addModule (r : SkCore × SkWorkflow) (cfg : ModuleCfg) :
    Except CoreFault (SkCore × SkWorkflow) :=
  let (core, workflow) := r
  match core.uniqueModules.get? cfg.name with
  | some _ => .ok (core, workflow)
  | none =>
    match moduleLoad opens cfg with
    | none => .error .load
    | some module => .ok
      ({ core with
          loaded := core.loaded ++ [module]
          uniqueModules := core.uniqueModules.set cfg.name module },
        workflow.addModule module)

/-- One turn of the outer loop of `_sk_setup_workflows`. -/
def setupWorkflow (core : SkCore) (cfg : WorkflowCfg) : Except CoreFault SkCore := do
  let (core, workflow) ← cfg.modules.foldlM (addModule opens) (core, workflowCreate cfg)
  .ok { core with
    workflows := core.workflows ++ [workflow]
    drivers := core.drivers ++ [driverCreate workflow] }

/-- `_sk_setup_workflows`. -/
def setupWorkflows (configs : List WorkflowCfg) (core : SkCore) : Except CoreFault SkCore :=
  configs.foldlM (setupWorkflow opens)
    { core with workflows := [], uniqueModules := .empty, loaded := [] }

/-- The names of the modules that were loaded. -/
def loadedNames (core : SkCore) : List String := namesOf core.loaded

/-- **Built as configured**: each workflow has the modules of its configuration, in that order, and
    each module was loaded once. -/
structure AsConfigured (configs : List WorkflowCfg) (core : SkCore) : Prop where
  modules : core.workflows.map SkWorkflow.moduleNames = configs.map WorkflowCfg.moduleNames
  once : ∀ name ∈ configs.flatMap WorkflowCfg.moduleNames, core.loadedNames.count name = 1

instance (configs : List WorkflowCfg) (core : SkCore) : Decidable (AsConfigured configs core) :=
  decidable_of_iff
    (core.workflows.map SkWorkflow.moduleNames = configs.map WorkflowCfg.moduleNames ∧
      ∀ name ∈ configs.flatMap WorkflowCfg.moduleNames, core.loadedNames.count name = 1)
    ⟨fun h => ⟨h.1, h.2⟩, fun h => ⟨h.modules, h.once⟩⟩

/-- The table has the modules that were loaded, and no module was loaded twice. -/
structure Known (core : SkCore) : Prop where
  table : ∀ name, core.uniqueModules.get? name = none ↔ name ∉ core.loadedNames
  nodup : core.loadedNames.Nodup

variable {opens} {core core' : SkCore} {workflow workflow' : SkWorkflow}

/-! ### One workflow -/

/-- **What the inner loop did** for the modules `cfgs`. -/
structure Added (core : SkCore) (workflow : SkWorkflow) (cfgs : List ModuleCfg)
    (r : SkCore × SkWorkflow) : Prop where
  known : r.1.Known
  workflows : r.1.workflows = core.workflows
  /-- The modules that were loaded are those that the workflow got. -/
  new : ∃ names, r.1.loadedNames = core.loadedNames ++ names ∧
    r.2.moduleNames = workflow.moduleNames ++ names ∧
    ((core.loadedNames ++ cfgs.map ModuleCfg.name).Nodup → names = cfgs.map ModuleCfg.name)
  /-- All are loaded now. -/
  mem : ∀ name, name ∈ r.1.loadedNames ↔
    name ∈ core.loadedNames ∨ name ∈ cfgs.map ModuleCfg.name

theorem namesOf_append (ms ms' : List SkModule) : namesOf (ms ++ ms') = namesOf ms ++ namesOf ms' :=
  List.map_append

/-- **What one turn of the inner loop does.** -/
theorem addModule_cases {r : SkCore × SkWorkflow} {cfg : ModuleCfg}
    (h : addModule opens (core, workflow) cfg = .ok r) :
    core.uniqueModules.get? cfg.name ≠ none ∧ r = (core, workflow) ∨
      core.uniqueModules.get? cfg.name = none ∧
        r = ({ core with
            loaded := core.loaded ++ [⟨cfg⟩]
            uniqueModules := core.uniqueModules.set cfg.name ⟨cfg⟩ },
          workflow.addModule ⟨cfg⟩) := by
  rw [addModule] at h
  cases hget : core.uniqueModules.get? cfg.name with
  | some module =>
    simp only [hget] at h
    exact .inl ⟨Option.some_ne_none module, (Except.ok.inj h).symm⟩
  | none =>
    simp only [hget, moduleLoad] at h
    split_ifs at h with hopens
    exact .inr ⟨rfl, (Except.ok.inj h).symm⟩

/-- One module more is added, and loaded when it was not loaded before. -/
theorem addModule_added {cfgs : List ModuleCfg} {cfg : ModuleCfg} {r r' : SkCore × SkWorkflow}
    (h : Added core workflow cfgs r) (hadd : addModule opens r cfg = .ok r') :
    Added core workflow (cfgs ++ [cfg]) r' := by
  obtain ⟨c, w⟩ := r
  obtain ⟨names, hloaded, hmodules, hfresh⟩ := h.new
  have hmem : cfg.name ∈ c.loadedNames ↔
      cfg.name ∈ core.loadedNames ++ cfgs.map ModuleCfg.name :=
    (h.mem cfg.name).trans List.mem_append.symm
  have hnames : (cfgs ++ [cfg]).map ModuleCfg.name = cfgs.map ModuleCfg.name ++ [cfg.name] :=
    List.map_append
  -- the names stay distinct when the new one is none of those that are loaded
  have hnodup : (core.loadedNames ++ (cfgs ++ [cfg]).map ModuleCfg.name).Nodup ↔
      cfg.name ∉ c.loadedNames ∧ (core.loadedNames ++ cfgs.map ModuleCfg.name).Nodup := by
    rw [hmem, hnames, ← List.append_assoc, List.nodup_middle, List.append_nil, List.nodup_cons]
  obtain ⟨hget, rfl⟩ | ⟨hget, rfl⟩ := addModule_cases hadd
  · -- the module was loaded before, so the workflow does not get it
    have hin : cfg.name ∈ c.loadedNames := by
      by_contra hout
      exact hget ((h.known.table cfg.name).mpr hout)
    refine ⟨h.known, h.workflows, ⟨names, hloaded, hmodules, ?_⟩, fun name => ?_⟩
    · intro hn
      exact absurd hin (hnodup.mp hn).1
    · rw [h.mem name, hnames, List.mem_append, List.mem_singleton, ← or_assoc]
      constructor
      · exact .inl
      · rintro (hn | rfl)
        · exact hn
        · exact (h.mem cfg.name).mp hin
  · -- the module is loaded now
    have hout : cfg.name ∉ c.loadedNames := (h.known.table cfg.name).mp hget
    have hloaded' : namesOf (c.loaded ++ [⟨cfg⟩]) = c.loadedNames ++ [cfg.name] :=
      namesOf_append _ _
    refine ⟨⟨fun name => ?table, ?nodup⟩, h.workflows,
      ⟨names ++ [cfg.name], ?loaded, ?modules, ?fresh⟩, fun name => ?mem⟩
    case table =>
      rw [loadedNames, hloaded', Dict.get?_set, List.mem_append, List.mem_singleton]
      split
      next heq => simp [heq]
      next hne => simp [hne, h.known.table name]
    case nodup =>
      rw [loadedNames, hloaded', List.nodup_middle, List.append_nil]
      exact List.nodup_cons.mpr ⟨hout, h.known.nodup⟩
    case loaded => rw [loadedNames, hloaded', hloaded, List.append_assoc]
    case modules =>
      show namesOf (w.modules ++ [⟨cfg⟩]) = _
      rw [namesOf_append, ← List.append_assoc, ← hmodules]
      rfl
    case fresh =>
      intro hn
      rw [hfresh (hnodup.mp hn).2, hnames]
    case mem =>
      rw [loadedNames, hloaded', List.mem_append, h.mem name, hnames, List.mem_append, or_assoc]

/-- **The inner loop.** -/
theorem addModules_added {cfgs : List ModuleCfg} {r : SkCore × SkWorkflow} (h : core.Known)
    (hadd : cfgs.foldlM (addModule opens) (core, workflow) = .ok r) :
    Added core workflow cfgs r := by
  have hstart : Added core workflow [] (core, workflow) :=
    ⟨h, rfl, ⟨[], by simp⟩, fun name => by simp⟩
  exact foldlM_ok (fun pre cfg s t hs hst => addModule_added hs hst) hstart hadd

/-! ### All workflows -/

/-- **What the outer loop did** for the workflows `cfgs`. -/
structure Built (cfgs : List WorkflowCfg) (core : SkCore) : Prop where
  known : core.Known
  /-- The modules of the workflows, one after the other, are those that were loaded. -/
  split : core.workflows.flatMap SkWorkflow.moduleNames = core.loadedNames
  mem : ∀ name, name ∈ core.loadedNames ↔ name ∈ cfgs.flatMap WorkflowCfg.moduleNames
  /-- Where no module recurs the workflows are as configured. -/
  fresh : (cfgs.flatMap WorkflowCfg.moduleNames).Nodup →
    core.workflows.map SkWorkflow.moduleNames = cfgs.map WorkflowCfg.moduleNames

/-- One workflow more is built. -/
theorem setupWorkflow_built {cfgs : List WorkflowCfg} {cfg : WorkflowCfg} (h : Built cfgs core)
    (hsetup : setupWorkflow opens core cfg = .ok core') : Built (cfgs ++ [cfg]) core' := by
  obtain ⟨⟨c, w⟩, hadd, hend⟩ := except_bind_ok.mp hsetup
  have hadded := addModules_added h.known hadd
  obtain rfl := Except.ok.inj hend
  obtain ⟨names, hloaded, hmodules, hfresh⟩ := hadded.new
  -- the modules of the new workflow are those that were loaded for it
  have hw : w.moduleNames = names := hmodules
  have hflat : (cfgs ++ [cfg]).flatMap WorkflowCfg.moduleNames =
      cfgs.flatMap WorkflowCfg.moduleNames ++ cfg.moduleNames := by simp
  refine ⟨⟨hadded.known.table, hadded.known.nodup⟩, ?split, fun name => ?mem, fun hn => ?fresh⟩
  case split =>
    show (c.workflows ++ [w]).flatMap SkWorkflow.moduleNames = c.loadedNames
    rw [hadded.workflows, hloaded, List.flatMap_append, h.split, List.flatMap_singleton, hw]
  case mem =>
    show name ∈ c.loadedNames ↔ _
    rw [hadded.mem name, h.mem name, hflat, List.mem_append]
    rfl
  case fresh =>
    show (c.workflows ++ [w]).map SkWorkflow.moduleNames = _
    rw [hflat] at hn
    -- when no name is there twice, no module of the workflow had been loaded
    have hn' : (core.loadedNames ++ cfg.moduleNames).Nodup := by
      rw [List.nodup_append'] at hn ⊢
      exact ⟨h.known.nodup, hn.2.1, fun name hname => hn.2.2 ((h.mem name).mp hname)⟩
    rw [hadded.workflows, List.map_append, h.fresh (List.nodup_append.mp hn).1, List.map_append,
      List.map_singleton, hw, hfresh hn']
    rfl

/-- **The outer loop.** -/
theorem setupWorkflows_built {configs : List WorkflowCfg}
    (h : setupWorkflows opens configs core = .ok core') : Built configs core' := by
  have hstart : Built [] { core with workflows := [], uniqueModules := .empty, loaded := [] } :=
    ⟨⟨fun name => by simp [loadedNames, namesOf], .nil⟩, rfl, fun name => by
      simp [loadedNames, namesOf], fun _ => rfl⟩
  exact foldlM_ok (fun pre cfg s t hs hst => setupWorkflow_built hs hst) hstart h

/-- The setup succeeds when all modules can be loaded. -/
theorem setupWorkflows_total {configs : List WorkflowCfg}
    (h : ∀ cfg ∈ configs, ∀ m ∈ cfg.modules, opens m) (core : SkCore) :
    ∃ core', setupWorkflows opens configs core = .ok core' := by
  apply foldlM_total
  intro core cfg hcfg
  have hadd : ∀ r, ∀ m ∈ cfg.modules, ∃ r', addModule opens r m = .ok r' := by
    intro ⟨core, workflow⟩ m hm
    rw [addModule]
    cases hget : core.uniqueModules.get? m.name with
    | some module => exact ⟨_, rfl⟩
    | none =>
      simp only [moduleLoad, h cfg hcfg m hm, if_true]
      exact ⟨_, rfl⟩
  obtain ⟨r, hr⟩ := foldlM_total hadd (core, workflowCreate cfg)
  exact ⟨_, except_bind_ok.mpr ⟨r, hr, rfl⟩⟩

/-- **When the workflows are built as configured**: exactly when no module recurs, within a workflow
    or in several. -/
theorem setupWorkflows_iff (opens : ModuleCfg → Bool) (configs : List WorkflowCfg)
    (core core' : SkCore) (h : setupWorkflows opens configs core = .ok core') :
    AsConfigured configs core' ↔ (configs.flatMap WorkflowCfg.moduleNames).Nodup := by
  have hbuilt := setupWorkflows_built h
  constructor
  · intro hconf
    have hflat : core'.loadedNames = configs.flatMap WorkflowCfg.moduleNames := by
      rw [← hbuilt.split, List.flatMap_def, hconf.modules, List.flatMap_def]
    rw [← hflat]
    exact hbuilt.known.nodup
  · intro hnodup
    exact ⟨hbuilt.fresh hnodup, fun name hname =>
      List.count_eq_one_of_mem hbuilt.known.nodup ((hbuilt.mem name).mpr hname)⟩

/-- The core before the setup. -/
def start : SkCore where
  workflows := []
  drivers := []
  uniqueModules := .empty
  loaded := []

/-- A workflow of modules of the C++ loader. -/
def cppWorkflow (names : List String) : WorkflowCfg :=
  { createWorkflowCfg with modules := names.map fun name => { name, type := "cpp" } }

/-- Two workflows with modules of different names are set up as configured. -/
theorem setupWorkflows_distinct :
    ∃ core', setupWorkflows (fun _ => true) [cppWorkflow ["a", "b"], cppWorkflow ["c"]] start =
        .ok core' ∧
      (AsConfigured [cppWorkflow ["a", "b"], cppWorkflow ["c"]] core' ↔
        ([cppWorkflow ["a", "b"], cppWorkflow ["c"]].flatMap WorkflowCfg.moduleNames).Nodup) :=
  ⟨_, rfl, setupWorkflows_iff (fun _ => true) _ start _ rfl⟩

/-- A module that recurs is part of the first workflow only. -/
theorem recurring_dropped :
    ∃ core', setupWorkflows (fun _ => true) [cppWorkflow ["a"], cppWorkflow ["a", "b"]] start =
        .ok core' ∧ ¬AsConfigured [cppWorkflow ["a"], cppWorkflow ["a", "b"]] core' :=
  ⟨_, rfl, by decide⟩

end SkCore

end Skull
