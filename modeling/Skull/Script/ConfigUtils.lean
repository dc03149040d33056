import Skull.Core.Settings
import Skull.Core.Stdin

namespace Skull

/-!
# Editing a configuration (`skull-config-utils.py`)

The script loads a configuration, adds a workflow, a module or a service, and writes the file:

* `PyValue.toStr`, `PyValue.toRepr`, `PyValue.dump` — the texts that Python makes of a value, which
  need not be the text that was read;
* `ConfigUtils.pyStr`, `ConfigUtils.dumped` — what `'{}'.format` writes for a node, and what is read
  back from what `yaml.dump` writes for it;
* `ConfigUtils.dumpConfig` — what `_dump_config_to_file` writes;
* `ConfigUtils.processAddWorkflow`, `ConfigUtils.processAddModule`, `ConfigUtils.processAddService` —
  the edits, where no result is an exception, at which the file stays as it was;
* `ConfigUtils.Edit.Preserves` — what an edit is to do to the configuration that is loaded;
* `ConfigUtils.Writable`, `ConfigUtils.Edit.Kept`, `ConfigUtils.Edit.Fits` — the files and the edits
  for which it does.

What `yaml.dump` writes is read back as the Python value that it was.  What `'{}'.format` writes is
no YAML of that value: what is read back of it is the parameter `yaml`.
-/

/-! ### Python -/

/-- How `repr` writes a character of a string between quotes. -/
def reprChar (quote c : Char) : List Char :=
  let backslash := Char.ofNat 92
  if c = backslash ∨ c = quote then [backslash, c]
  else if c.toNat = 10 then [backslash, 'n']
  else if c.toNat = 13 then [backslash, 'r']
  else if c.toNat = 9 then [backslash, 't']
  else if c.toNat < 32 ∨ c.toNat = 127 then
    [backslash, 'x', Nat.digitChar (c.toNat / 16), Nat.digitChar (c.toNat % 16)]
  else [c]

/-- `repr` of a string: between single quotes, unless it has some and no double ones. -/
def reprString (text : String) : String :=
  let single := Char.ofNat 39
  let double := Char.ofNat 34
  let quote := if single ∈ text.toList ∧ double ∉ text.toList then double else single
  String.ofList ([quote] ++ text.toList.flatMap (reprChar quote) ++ [quote])

namespace PyValue

/-- The value is true for Python. -/
def truthy : PyValue → Bool
  | none => false
  | bool b => b
  | int n => n ≠ 0
  | str text => text ≠ ""
  | other falsy .. => !falsy

/-- `str(value)`. -/
def toStr : PyValue → String
  | none => "None"
  | bool b => if b then "True" else "False"
  | int n => toString n
  | str text => text
  | other _ shown .. => shown

/-- `repr(value)`. -/
def toRepr : PyValue → String
  | none => "None"
  | bool b => if b then "True" else "False"
  | int n => toString n
  | str text => reprString text
  | other _ _ repr _ => repr

/-- The text of the scalar that `yaml.dump` writes. -/
def dump : PyValue → String
  | none => "null"
  | bool b => if b then "true" else "false"
  | int n => toString n
  | str text => text
  | other _ _ _ dump => dump

end PyValue

namespace ConfigUtils

/-! ### The file -/

/-- The value of a node is true for Python. -/
def truthy : CfgNode → Bool
  | .value v => v.py.truthy
  | .array items => ¬items.isEmpty
  | .mapping entries => ¬entries.isEmpty

mutual

/-- `repr` of the Python value of a node. -/
def pyRepr : CfgNode → String
  | .value v => v.py.toRepr
  | .array items => "[" ++ ", ".intercalate (pyReprs items) ++ "]"
  | .mapping entries => "\x7b" ++ ", ".intercalate (pyReprEntries entries) ++ "\x7d"

/-- The items of a list. -/
def pyReprs : List CfgNode → List String
  | [] => []
  | item :: items => pyRepr item :: pyReprs items

/-- The entries of a dictionary. -/
def pyReprEntries : List (String × CfgNode) → List String
  | [] => []
  | (key, node) :: entries => (reprString key ++ ": " ++ pyRepr node) :: pyReprEntries entries

end

/-- What `'{}'.format` writes for the Python value of a node. -/
def pyStr : CfgNode → String
  | .value v => v.py.toStr
  | node => pyRepr node

mutual

/-- What is read back of what `yaml.dump` writes for the Python value of a node. -/
def dumped : CfgNode → CfgNode
  | .value v => .value { v with text := v.py.dump }
  | .array items => .array (dumpedItems items)
  | .mapping entries => .mapping (dumpedEntries entries)

/-- The items of a list. -/
def dumpedItems : List CfgNode → List CfgNode
  | [] => []
  | item :: items => dumped item :: dumpedItems items

/-- The entries of a mapping. -/
def dumpedEntries : List (String × CfgNode) → List (String × CfgNode)
  | [] => []
  | (key, node) :: entries => (key, dumped node) :: dumpedEntries entries

end

/-- What the script writes, in that order. -/
def dumpKeys : List String :=
  ["worker_threads", "bg_iothreads", "command_port", "command_bind", "log_name", "log_level",
    "diag_name", "languages", "txn_logging", "max_fds", "slowlog_ms", "workflows", "services"]

/-- A node of the script's own: its text is what `yaml.dump` writes. -/
def pyNode (v : PyValue) : CfgNode := .value ⟨v.dump, v⟩

/-- The languages that are written when there are none. -/
def defaultLanguages : CfgNode := .array [pyNode (.str "cpp"), pyNode (.str "py")]

/-- A key without a value. -/
def nothing : CfgNode := .value ⟨"", .none⟩

/-- What is read back at a key: nothing when a comment is written there, and `none` when what is
    written is no YAML. -/
def dumpItem (yaml : String → Option CfgNode) (entries : List (String × CfgNode)) (key : String) :
    Option (Option CfgNode) :=
  match (Dict.getEntry key entries).filter truthy with
  | some node =>
    if key = "workflows" ∨ key = "services" then some (some (dumped node))
    else (yaml (pyStr node)).map some
  | none =>
    if key = "languages" then some (some defaultLanguages)
    else if key = "workflows" ∨ key = "services" then some (some nothing)
    else some none

/-- `_dump_config_to_file`: what is read back of the file. -/
def dumpConfig (yaml : String → Option CfgNode) (entries : List (String × CfgNode)) :
    Option (List (String × CfgNode)) :=
  if dumpKeys.all fun key => (dumpItem yaml entries key).isSome then
    some (dumpKeys.filterMap fun key => (dumpItem yaml entries key).join.map (key, ·))
  else none

/-! ### The edits -/

/-- `_create_workflow`. -/
def createWorkflow : List (String × CfgNode) :=
  [("concurrency", pyNode (.int 1)), ("idl", pyNode (.str "")), ("stdin", pyNode (.int 0)),
    ("port", pyNode (.int (-1))), ("modules", .array [])]

/-- The `workflow_frame` of `_process_add_workflow`. -/
def workflowFrame (concurrency : Int) (idl : String) (port stdin : Int) :
    List (String × CfgNode) :=
  let frame := Dict.setEntry "concurrency" (pyNode (.int concurrency)) createWorkflow
  let frame := Dict.setEntry "idl" (pyNode (.str idl)) frame
  if stdin = 1 then Dict.setEntry "stdin" (pyNode (.int 1)) frame
  else if 0 < port then Dict.setEntry "port" (pyNode (.int port)) frame
  else frame

/-- `_process_add_workflow`. -/
def processAddWorkflow (frame : List (String × CfgNode)) (entries : List (String × CfgNode)) :
    Option (List (String × CfgNode)) :=
  match Dict.getEntry "workflows" entries with
  | some (.value v) =>
    if v.py = .none then some (Dict.setEntry "workflows" (.array [.mapping frame]) entries)
    else none
  | some (.array items) =>
    some (Dict.setEntry "workflows" (.array (items ++ [.mapping frame])) entries)
  | some (.mapping _) | none => none

/-- The place that an index means, which counts from the end when it is negative. -/
def pyIndex (length : Nat) (idx : Int) : Option Nat :=
  if 0 ≤ idx then if idx < length then some idx.toNat else none
  else if -length ≤ idx then some (length + idx).toNat
  else none

/-- `_module_valid`.  The engine takes no item that is not a scalar. -/
def moduleValid (name type : String) : List CfgNode → Option Bool
  | [] => some true
  | .value v :: items =>
    match colonTokens v.py.toStr with
    | n :: t :: _ => if n = name ∧ t ≠ type then some false else moduleValid name type items
    | _ => none
  | .array _ :: _ | .mapping _ :: _ => none

/-- The text of a module. -/
def moduleText (name type : String) : String := name ++ ":" ++ type

/-- The workflow with one more module. -/
def addModuleTo (name type : String) (frame : List (String × CfgNode)) :
    Option (List (String × CfgNode)) :=
  match Dict.getEntry "modules" frame with
  | some (.array items) =>
    if moduleValid name type items = some true then
      some (Dict.setEntry "modules" (.array (items ++ [pyNode (.str (moduleText name type))])) frame)
    else none
  | some (.value _) | some (.mapping _) | none => none

/-- `_process_add_module`. -/
def processAddModule (workflowIdx : Int) (name type : String) (entries : List (String × CfgNode)) :
    Option (List (String × CfgNode)) :=
  match Dict.getEntry "workflows" entries with
  | some (.array frames) => do
    let i ← pyIndex frames.length workflowIdx
    match frames[i]? with
    | some (.mapping frame) =>
      let frame ← addModuleTo name type frame
      some (Dict.setEntry "workflows" (.array (frames.set i (.mapping frame))) entries)
    | some (.value _) | some (.array _) | none => none
  | some (.value _) | some (.mapping _) | none => none

/-- The `service_obj` of `_process_add_service`. -/
def serviceObj (enable : PyValue) (dataMode language : String) : List (String × CfgNode) :=
  [("type", pyNode (.str language)), ("enable", pyNode enable),
    ("data_mode", pyNode (.str dataMode))]

/-- `_process_add_service`. -/
def processAddService (name : String) (obj : List (String × CfgNode))
    (entries : List (String × CfgNode)) : Option (List (String × CfgNode)) :=
  match Dict.getEntry "services" entries with
  | some (.value v) =>
    if v.py = .none then some (Dict.setEntry "services" (.mapping [(name, .mapping obj)]) entries)
    else none
  | some (.mapping services) =>
    some (Dict.setEntry "services" (.mapping (Dict.setEntry name (.mapping obj) services)) entries)
  | some (.array _) | none => none

/-- The edits of the script. -/
inductive Edit
  | addWorkflow (concurrency : Int) (idl : String) (port stdin : Int)
  | addModule (workflowIdx : Int) (name type : String)
  | addService (name : String) (enable : PyValue) (dataMode language : String)

namespace Edit

/-- An edit. -/
def apply : Edit → List (String × CfgNode) → Option (List (String × CfgNode))
  | .addWorkflow concurrency idl port stdin =>
    processAddWorkflow (workflowFrame concurrency idl port stdin)
  | .addModule workflowIdx name type => processAddModule workflowIdx name type
  | .addService name enable dataMode language =>
    processAddService name (serviceObj enable dataMode language)

/-! ### What is promised -/

/-- The configuration with the item of the edit, as the engine reads it. -/
def Added (c c' : SkConfig) : Edit → Prop
  | .addWorkflow concurrency idl port stdin => c'.services = c.services ∧
      ∃ w, Loads (workflowFrame concurrency idl port stdin) w ∧ c'.workflows = c.workflows ++ [w]
  | .addModule workflowIdx name type => c'.services = c.services ∧
      ∃ i m, pyIndex c.workflows.length workflowIdx = some i ∧
        loadModule (pyNode (.str (moduleText name type))) = .ok m ∧
        c'.workflows = c.workflows.modify i fun w => { w with modules := w.modules ++ [m] }
  | .addService name enable dataMode language => c'.workflows = c.workflows ∧
      ∃ service, loadService (.mapping (serviceObj enable dataMode language)) = .ok service ∧
        c'.services = fun n => if n = name then some service else c.services n

/-- **What is promised** of an edit: the configuration has the item, and else the same settings, with
    the names as they are read. -/
structure Preserves (edit : Edit) (c c' : SkConfig) : Prop where
  added : edit.Added c c'
  same : ∀ s : Setting, s ≠ .workflows → s ≠ .services → s.SameAt c c'
  names : c.logNameText = c'.logNameText ∧ c.diagNameText = c'.diagNameText

end Edit

/-! ### When it is so -/

/-- The engine reads the same from what `'{}'.format` writes for the node. -/
def FormatsAs (yaml : String → Option CfgNode) (s : Setting) (node : CfgNode) : Prop :=
  ∃ node', yaml (pyStr node) = some node' ∧ s.load createConfig node' = s.load createConfig node

/-- The engine reads the same from what `yaml.dump` writes for the node. -/
def DumpsAs (s : Setting) (node : CfgNode) : Prop :=
  s.load createConfig (dumped node) = s.load createConfig node

/-- The engine reads from the node what it has without it. -/
def ReadsDefault (key : String) (node : CfgNode) : Prop :=
  createConfig.loadEntry key node = .ok createConfig

/-- **The files whose settings are written as they are read**: a value that is true for Python has a
    text from which the engine reads the same, one that is false is the default, so is the name of the
    diagnosis log, and there are languages. -/
structure Writable (yaml : String → Option CfgNode) (entries : List (String × CfgNode)) : Prop where
  plain : ∀ s : Setting, s ≠ .workflows → s ≠ .services → s ≠ .diagName → s ≠ .langs →
    ∀ node, Dict.getEntry s.key entries = some node →
      if truthy node then FormatsAs yaml s node else ReadsDefault s.key node
  diagLog : ∀ node, Dict.getEntry "diag_log" entries = some node → ReadsDefault "diag_log" node
  /-- This key is written, and no setting. -/
  diagName : ∀ node, Dict.getEntry "diag_name" entries = some node → truthy node →
    (yaml (pyStr node)).isSome
  languages : ∃ node, Dict.getEntry "languages" entries = some node ∧ truthy node ∧
    FormatsAs yaml .langs node

namespace Edit

/-- The section that an edit changes. -/
def target : Edit → Setting
  | .addWorkflow .. | .addModule .. => .workflows
  | .addService .. => .services

/-- The other section. -/
def other : Edit → Setting
  | .addWorkflow .. | .addModule .. => .services
  | .addService .. => .workflows

/-- What is there in the section that an edit changes, but for a service that is replaced, is dumped
    as it is read. -/
def KeptThere (entries : List (String × CfgNode)) : Edit → Prop
  | .addWorkflow .. | .addModule .. =>
    ∀ node, Dict.getEntry "workflows" entries = some node → DumpsAs .workflows node
  | .addService name .. =>
    ∀ services, Dict.getEntry "services" entries = some (.mapping services) →
      ∀ n node, n ≠ name → Dict.getEntry n services = some node →
        loadService (dumped node) = loadService node

/-- The workflows and services that are there are dumped as they are read. -/
def Kept (entries : List (String × CfgNode)) (edit : Edit) : Prop :=
  edit.KeptThere entries ∧
    ∀ node, Dict.getEntry edit.other.key entries = some node → DumpsAs edit.other node

/-- The engine takes the item, and takes it where it is. -/
def Fits (entries : List (String × CfgNode)) : Edit → Prop
  | .addWorkflow concurrency idl port stdin =>
    Acceptable (workflowFrame concurrency idl port stdin) ∧
      ∀ items, Dict.getEntry "workflows" entries = some (.array items) →
        ∀ frame, CfgNode.mapping frame ∈ items → ¬EnablesStdin frame
  | .addModule _ name type => (moduleText name type).length < configValueMaxlen
  | .addService _ _ dataMode _ => dataMode = "rw-pr" ∨ dataMode = "rw-pw"

end Edit

end ConfigUtils

end Skull
