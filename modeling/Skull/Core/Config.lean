import Mathlib.Algebra.Order.Ring.Int
import Mathlib.Data.List.Nodup
import Mathlib.Tactic.Common

namespace Skull

/-!
# The configuration of the engine (`sk_config`)

The tree that `sk_config_load` makes of a YAML file, and what `_load_config` reads from it:

* `Scalar`, `CfgNode` — the tree; `CfgNode.Unique` says that a mapping has each key once;
* `CfgNode.getint`, `CfgNode.getbool`, `CfgNode.getstring` — how the engine reads a value;
* `loadModules`, `loadWorkflow`, `loadServices`, … — the loaders of the source;
* `SkConfig.loadEntry`, `SkConfig.loadConfig`, `skConfigCreate` — the settings of a file.

The iteration over a mapping is in the order of its list, which is any order.  A failed assertion
and an `exit` are a `CfgFault`, and so is the use of a node as what it is not.  Texts are lists of
characters of one byte, and the keys of a mapping are strings for Python, too.
-/

/-! ### The tree -/

/-- What `yaml.load` makes of a scalar. -/
inductive PyValue
  | none
  | bool (b : Bool)
  | int (n : Int)
  | str (text : String)
  /-- A float, a date or bytes: whether it is false for Python, and what `str`, `repr` and `yaml.dump`
      make of it. -/
  | other (falsy : Bool) (str repr dump : String)
  deriving DecidableEq, Repr

/-- A scalar: its text, which is all the engine reads, and its value for Python. -/
structure Scalar where
  text : String
  py : PyValue
  deriving DecidableEq, Repr

/-- `sk_cfg_node_t`. -/
inductive CfgNode
  | value (scalar : Scalar)
  | array (items : List CfgNode)
  | mapping (entries : List (String × CfgNode))

/-- Every mapping has each key once. -/
inductive CfgNode.Unique : CfgNode → Prop
  | value (scalar : Scalar) : Unique (.value scalar)
  | array {items : List CfgNode} (h : ∀ n ∈ items, Unique n) : Unique (.array items)
  | mapping {entries : List (String × CfgNode)} (hkeys : (entries.map Prod.fst).Nodup)
      (h : ∀ e ∈ entries, Unique e.2) : Unique (.mapping entries)

/-- Why a file is not accepted. -/
inductive CfgFault
  /-- A node is used as what it is not. -/
  | type
  /-- `errno` is `ERANGE` in `sk_config_getint`. -/
  | range
  /-- The format of a module. -/
  | module
  /-- The port of a workflow. -/
  | port
  /-- Only one workflow can enable stdin. -/
  | stdin
  | sockType
  | logName
  | diagName
  | logLevel
  | dataMode
  /-- A service has no `data_mode`. -/
  | noDataMode
  | threads
  | bios
  | commandPort
  /-- `_validate_logname`. -/
  | validate
  deriving DecidableEq, Repr

/-! ### Values -/

/-- The value of a decimal digit. -/
def digitVal (c : Char) : Nat := c.toNat - '0'.toNat

/-- The number that a list of digits begins with. -/
def readDigits (cs : List Char) : Nat :=
  (cs.takeWhile Char.isDigit).foldl (fun n c => 10 * n + digitVal c) 0

/-- `isspace`. -/
def isSpace (c : Char) : Bool := c = ' ' ∨ 9 ≤ c.toNat ∧ c.toNat ≤ 13

/-- `strtol` with base 10, before it is clamped. -/
def strtol (text : String) : Int :=
  match text.toList.dropWhile isSpace with
  | '-' :: cs => -readDigits cs
  | '+' :: cs => readDigits cs
  | cs => readDigits cs

/-- A `long` as an `int`. -/
def toInt32 (n : Int) : Int := n.bmod (2 ^ 32)

/-- The bit that `(uint32_t) n & 0x1` is. -/
def lowBit (n : Int) : Bool := n % 2 = 1

namespace CfgNode

/-- `sk_config_getstring`, also for `node->data.value`. -/
def getstring : CfgNode → Except CfgFault String
  | .value v => .ok v.text
  | .array _ | .mapping _ => .error .type

/-- `sk_config_getint`. -/
def getint (node : CfgNode) : Except CfgFault Int := do
  let text ← node.getstring
  let value := strtol text
  if value < -2 ^ 63 ∨ 2 ^ 63 ≤ value then .error .range else .ok (toInt32 value)

/-- `sk_config_getbool`. -/
def getbool (node : CfgNode) : Except CfgFault Bool := do
  let text ← node.getstring
  .ok (text.toLower = "true")

end CfgNode

/-! ### The settings -/

/-- `sk_module_cfg_t`. -/
structure ModuleCfg where
  name : String
  type : String
  deriving DecidableEq, Repr

/-- `SK_SOCK_TCP`, `SK_SOCK_UDP`. -/
inductive SockType
  | tcp | udp
  deriving DecidableEq, Repr

/-- `sk_workflow_cfg_t`. -/
structure WorkflowCfg where
  concurrent : Bool
  enableStdin : Bool
  sockType : SockType
  port : Int
  bind : String
  idlName : Option String
  modules : List ModuleCfg
  timeout : Int
  deriving DecidableEq, Repr

/-- `sk_srv_data_mode_t`. -/
inductive SrvDataMode
  | rwPr | rwPw
  deriving DecidableEq, Repr

/-- `sk_service_cfg_t`. -/
structure ServiceCfg where
  type : Option String
  enable : Bool
  dataMode : SrvDataMode
  maxQsize : Int
  deriving DecidableEq, Repr

/-- The log levels of `flog`. -/
inductive LogLevel
  | trace | debug | info | warn | error | fatal
  deriving DecidableEq, Repr

/-- The level as a number. -/
def LogLevel.toInt : LogLevel → Int
  | trace => 0
  | debug => 1
  | info => 2
  | warn => 3
  | error => 4
  | fatal => 5

/-- `sk_config_t`; `services` is the table of the services, `langs` the keys of that table. -/
structure SkConfig where
  /-- The bytes of the array, without the zeros that fill it. -/
  logName : String
  /-- The bytes of the array behind it, in the same way. -/
  diagName : String
  threads : Int
  logLevel : LogLevel
  workflows : List WorkflowCfg
  services : String → Option ServiceCfg
  bioCnt : Int
  commandPort : Int
  commandBind : Option String
  langs : List String
  maxFds : Int
  slowlogMs : Int
  txnLogging : Bool

/-- `SK_CONFIG_NO_PORT`. -/
def configNoPort : Int := -1

/-- `SK_CONFIG_LOGNAME_LEN`. -/
def configLognameLen : Nat := 64

/-- `SK_CONFIG_VALUE_MAXLEN`. -/
def configValueMaxlen : Nat := 256

/-- `_create_workflow_cfg`. -/
def createWorkflowCfg : WorkflowCfg where
  concurrent := false
  enableStdin := false
  sockType := .tcp
  port := configNoPort
  bind := "0.0.0.0"
  idlName := none
  modules := []
  timeout := 0

/-- `_service_cfg_item_create`. -/
def serviceCfgItemCreate : ServiceCfg where
  type := none
  enable := false
  dataMode := .rwPr
  maxQsize := 0

/-- `_create_config`. -/
def createConfig : SkConfig where
  logName := "skull.log"
  diagName := "diag.log"
  threads := 1
  logLevel := .info
  workflows := []
  services := fun _ => none
  bioCnt := 0
  commandPort := 7759
  commandBind := none
  langs := []
  maxFds := 1024
  slowlogMs := 0
  txnLogging := false

/-! ### Workflows -/

/-- The pieces of a text between the colons. -/
def splitColon : List Char → List (List Char)
  | [] => [[]]
  | c :: cs =>
    if c = ':' then [] :: splitColon cs
    else
      match splitColon cs with
      | [] => [[c]]
      | piece :: pieces => (c :: piece) :: pieces

/-- The tokens that `strsep` finds in a text at the colons. -/
def colonTokens (text : String) : List String := (splitColon text.toList).map String.ofList

/-- One turn of the loop of `_load_modules`.  A text that fills `tmp` has no end there. -/
def loadModule (child : CfgNode) : Except CfgFault ModuleCfg :=
  match child with
  | .value v =>
    if configValueMaxlen ≤ v.text.length then .error .module
    else
      match colonTokens v.text with
      | name :: type :: _ => .ok { name, type }
      | _ => .error .module
  | .array _ | .mapping _ => .error .type

/-- `_load_modules`. -/
def loadModules (node : CfgNode) (workflow : WorkflowCfg) : Except CfgFault WorkflowCfg :=
  match node with
  | .array items =>
    (items.mapM loadModule).map fun ms => { workflow with modules := workflow.modules ++ ms }
  | .value _ | .mapping _ => .ok workflow

/-- The ports of the source. -/
def portOk (port : Int) : Bool := 0 < port ∧ port ≤ 65535

/-- One turn of the inner loop of `_load_workflow`: the workflow and `enabled_stdin` after. -/
def loadWorkflowItem (key : String) (child : CfgNode) (r : WorkflowCfg × Bool) :
    Except CfgFault (WorkflowCfg × Bool) := do
  let (workflow, enabledStdin) := r
  if key = "modules" then
    let workflow ← loadModules child workflow
    .ok (workflow, enabledStdin)
  else if key = "idl" then
    let idl ← child.getstring
    .ok ({ workflow with idlName := some idl }, enabledStdin)
  else if key = "concurrency" ∨ key = "concurrent" then
    let n ← child.getint
    .ok ({ workflow with concurrent := lowBit n }, enabledStdin)
  else if key = "port" then
    let port ← child.getint
    -- A port that is not positive is skipped: the workflow keeps the one it has.
    if port ≤ 0 then .ok (workflow, enabledStdin)
    else if ¬ portOk port then .error .port
    else .ok ({ workflow with port }, enabledStdin)
  else if key = "stdin" then
    let n ← child.getint
    let workflow := { workflow with enableStdin := lowBit n }
    -- The assertion also fails for a later `stdin` that is off.
    if enabledStdin then .error .stdin
    else .ok (workflow, workflow.enableStdin)
  else if key = "bind" then
    let bind ← child.getstring
    .ok ({ workflow with bind }, enabledStdin)
  else if key = "timeout" then
    let timeout ← child.getint
    .ok ({ workflow with timeout }, enabledStdin)
  else if key = "sock_type" then
    let sock ← child.getstring
    if sock.toLower = "tcp" then .ok ({ workflow with sockType := .tcp }, enabledStdin)
    else if sock.toLower = "udp" then .ok ({ workflow with sockType := .udp }, enabledStdin)
    else .error .sockType
  else .ok (workflow, enabledStdin)

/-- The inner loop of `_load_workflow`. -/
def loadWorkflowItems (entries : List (String × CfgNode)) (r : WorkflowCfg × Bool) :
    Except CfgFault (WorkflowCfg × Bool) :=
  entries.foldlM (fun r e => loadWorkflowItem e.1 e.2 r) r

/-- The outer loop of `_load_workflow`: the workflows from here on. -/
def loadWorkflowLoop : List CfgNode → (enabledStdin : Bool) → Except CfgFault (List WorkflowCfg)
  | [], _ => .ok []
  | .mapping entries :: children, enabledStdin => do
    let (workflow, enabledStdin) ← loadWorkflowItems entries (createWorkflowCfg, enabledStdin)
    let workflows ← loadWorkflowLoop children enabledStdin
    .ok (workflow :: workflows)
  | .value _ :: _, _ | .array _ :: _, _ => .error .type

/-- The workflows that `_load_workflow` adds. -/
def workflowsOf : CfgNode → Except CfgFault (List WorkflowCfg)
  | .array children => loadWorkflowLoop children false
  | .value _ | .mapping _ => .ok []

/-! ### Services -/

/-- `_load_service_data_mode`. -/
def loadServiceDataMode (child : CfgNode) : Except CfgFault SrvDataMode := do
  let mode ← child.getstring
  if mode = "rw-pr" then .ok .rwPr
  else if mode = "rw-pw" then .ok .rwPw
  else .error .dataMode

/-- One turn of the loop of `_load_service`: the service and `data_mode_exist` after. -/
def loadServiceItem (key : String) (child : CfgNode) (r : ServiceCfg × Bool) :
    Except CfgFault (ServiceCfg × Bool) := do
  let (service, dataModeExist) := r
  if key = "enable" then
    let enable ← child.getbool
    .ok ({ service with enable }, dataModeExist)
  else if key = "data_mode" then
    let dataMode ← loadServiceDataMode child
    -- This key is the one a service must have.
    .ok ({ service with dataMode }, true)
  else if key = "type" then
    let type ← child.getstring
    .ok ({ service with type := some type }, dataModeExist)
  else if key = "max_qsize" then
    let maxQsize ← child.getint
    .ok ({ service with maxQsize }, dataModeExist)
  else .ok (service, dataModeExist)

/-- `_load_service`: the item of the service. -/
def loadService (node : CfgNode) : Except CfgFault ServiceCfg :=
  match node with
  | .mapping entries => do
    let (service, dataModeExist) ←
      entries.foldlM (fun r e => loadServiceItem e.1 e.2 r) (serviceCfgItemCreate, false)
    if ¬ dataModeExist then .error .noDataMode else .ok service
  | .value _ | .array _ => .error .type

/-- The loop of `_load_services` over the table. -/
def loadServiceLoop (entries : List (String × CfgNode)) (services : String → Option ServiceCfg) :
    Except CfgFault (String → Option ServiceCfg) :=
  entries.foldlM (fun services e => do
    let service ← loadService e.2
    .ok fun name => if name = e.1 then some service else services name) services

/-! ### The other settings -/

/-- `worker_threads`. -/
def threadsOf (child : CfgNode) : Except CfgFault Int := do
  let n ← child.getint
  if 0 < n then .ok n else .error .threads

/-- `_load_log_name` and `_load_diaglog_name`: what `strncpy` leaves in the array.  A name that fills
    the array has no end there. -/
def logNameOf (fault : CfgFault) (child : CfgNode) : Except CfgFault String := do
  let name ← child.getstring
  if name = "" then .error fault else .ok (String.ofList (name.toList.take configLognameLen))

/-- `_load_log_level`. -/
def logLevelOf (child : CfgNode) : Except CfgFault LogLevel := do
  let level ← child.getstring
  if level = "trace" then .ok .trace
  else if level = "debug" then .ok .debug
  else if level = "info" then .ok .info
  else if level = "warn" then .ok .warn
  else if level = "error" then .ok .error
  else if level = "fatal" then .ok .fatal
  else .error .logLevel

/-- `command_port`. -/
def commandPortOf (child : CfgNode) : Except CfgFault Int := do
  let port ← child.getint
  if portOk port then .ok port else .error .commandPort

/-- `command_bind`. -/
def commandBindOf (child : CfgNode) : Except CfgFault (Option String) := child.getstring.map some

namespace SkConfig

/-- `_load_workflow`. -/
def loadWorkflow (node : CfgNode) (config : SkConfig) : Except CfgFault SkConfig :=
  (workflowsOf node).map fun ws => { config with workflows := config.workflows ++ ws }

/-- `_load_services`. -/
def loadServices (node : CfgNode) (config : SkConfig) : Except CfgFault SkConfig :=
  match node with
  | .mapping entries =>
    (loadServiceLoop entries config.services).map fun services => { config with services }
  | .value _ | .array _ => .ok config

/-- `_load_bios`. -/
def loadBios (node : CfgNode) (config : SkConfig) : Except CfgFault SkConfig :=
  match node with
  | .value _ => do
    let bioCnt ← node.getint
    if 0 ≤ bioCnt then .ok { config with bioCnt } else .error .bios
  | .array _ | .mapping _ => .ok config

/-- One turn of the loop of `_load_langs`. -/
def loadLang (langs : List String) (child : CfgNode) : Except CfgFault (List String) := do
  let lang ← child.getstring
  .ok (if lang ∈ langs then langs else langs ++ [lang])

/-- `_load_langs`. -/
def loadLangs (node : CfgNode) (config : SkConfig) : Except CfgFault SkConfig :=
  match node with
  | .array items => (items.foldlM loadLang config.langs).map fun langs => { config with langs }
  | .value _ | .mapping _ => .ok config

/-- One turn of the loop of `_load_config`. -/
def loadEntry (config : SkConfig) (key : String) (child : CfgNode) : Except CfgFault SkConfig :=
  if key = "worker_threads" then (threadsOf child).map fun threads => { config with threads }
  else if key = "workflows" then loadWorkflow child config
  else if key = "log_name" then
    (logNameOf .logName child).map fun logName => { config with logName }
  else if key = "diag_log" then
    (logNameOf .diagName child).map fun diagName => { config with diagName }
  else if key = "log_level" then (logLevelOf child).map fun logLevel => { config with logLevel }
  else if key = "services" then loadServices child config
  else if key = "bg_iothreads" then loadBios child config
  else if key = "languages" then loadLangs child config
  else if key = "command_port" then
    (commandPortOf child).map fun commandPort => { config with commandPort }
  else if key = "command_bind" then
    (commandBindOf child).map fun commandBind => { config with commandBind }
  else if key = "max_fds" then child.getint.map fun maxFds => { config with maxFds }
  else if key = "txn_logging" then child.getbool.map fun txnLogging => { config with txnLogging }
  else if key = "slowlog_ms" then child.getint.map fun slowlogMs => { config with slowlogMs }
  else .ok config

/-- `_load_config`. -/
def loadConfig (root : CfgNode) (config : SkConfig) : Except CfgFault SkConfig :=
  match root with
  | .mapping entries => entries.foldlM (fun config e => config.loadEntry e.1 e.2) config
  | .value _ | .array _ => .error .type

/-- An array of a name: its bytes and the zeros behind them. -/
def nameArray (name : String) : List Char :=
  name.toList ++ List.replicate (configLognameLen - name.length) (Char.ofNat 0)

/-- The bytes of an `int`, the lowest one first. -/
def intBytes (n : Int) : List Char :=
  (List.range 4).map fun i => Char.ofNat ((n % 2 ^ 32).toNat / 256 ^ i % 256)

/-- The text that begins a list of bytes: what is before the first zero. -/
def cString (bytes : List Char) : String := String.ofList (bytes.takeWhile fun c => c ≠ Char.ofNat 0)

/-- The bytes of the structure from `diag_name` on.  The log level is less than 256, so no text goes
    beyond it. -/
def diagBytes (config : SkConfig) : List Char :=
  nameArray config.diagName ++ intBytes config.threads ++ intBytes config.logLevel.toInt

/-- `config->diag_name`, as it is read. -/
def diagNameText (config : SkConfig) : String := cString config.diagBytes

/-- `config->log_name`, as it is read: when the array has no end, `diag_name` is read on. -/
def logNameText (config : SkConfig) : String :=
  cString (nameArray config.logName ++ config.diagBytes)

/-- `_validate_logname`. -/
def validateLogname (name : String) : Bool :=
  match name.toList with
  | [] => false
  | c :: cs => if '/' ∈ c :: cs then c = '/' ∧ cs ≠ [] else true

/-- `_post_load`. -/
def postLoad (config : SkConfig) : Except CfgFault Unit :=
  if validateLogname config.logNameText ∧ validateLogname config.diagNameText then .ok ()
  else .error .validate

end SkConfig

/-- `sk_config_create`, from the tree of its file. -/
def skConfigCreate (root : CfgNode) : Except CfgFault SkConfig := do
  let config ← SkConfig.loadConfig root createConfig
  config.postLoad
  .ok config

end Skull
