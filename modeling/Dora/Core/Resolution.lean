import Dora.Lib.Fallible
import Dora.Message.Config

/-!
# Resolution of a descriptor (`libraries/core/src/descriptor/{mod,classify}.rs`)

Every node is classified, its inputs from single-operator nodes are renamed, and it becomes a custom or a
runtime node with the environment of the dataflow. `resolveSingleNode` of the coordinator
(`topology.rs`) resolves one node that joins a running dataflow, or takes the place of a node of it.

A field that no function here looks into is one value of type `ν`, absent when it is unset or has its
default.
-/

namespace Dora.Resolve

open Std Lib

variable {ν : Type}

/-! ## Nodes -/

structure OperatorConfig (ν : Type) where
  inputs : List (DataId × Input)
  rest : ν

structure OperatorDefinition (ν : Type) where
  id : String
  config : OperatorConfig ν

structure SingleOperatorDefinition (ν : Type) where
  id : Option String
  config : OperatorConfig ν

inductive Ros2Direction where
  | subscribe
  | publish

structure Ros2TopicConfig (ν : Type) where
  topic : String
  messageType : String
  direction : Ros2Direction
  output : Option String
  input : Option String
  qos : Option ν

structure Ros2BridgeConfig (ν : Type) where
  topic : Option String
  messageType : Option String
  direction : Ros2Direction
  topics : Option (List (Ros2TopicConfig ν))
  rest : ν

structure Node (ν : Type) where
  id : NodeId
  path : Option String := none
  hub : Option String := none
  git : Option String := none
  branch : Option String := none
  tag : Option String := none
  rev : Option String := none
  operators : Option (List (OperatorDefinition ν)) := none
  operator : Option (SingleOperatorDefinition ν) := none
  ros2 : Option (Ros2BridgeConfig ν) := none
  /-- `module` -/
  modulePath : Option String := none
  inputs : List (DataId × Input) := []
  outputs : List DataId := []
  env : Option (TreeMap String ν) := none
  /-- The other fields, by name. -/
  fields : String → Option ν := fun _ => none

inductive NodeSource where
  | local
  | gitBranch (repo : String) (branch tag rev : Option String)

structure CustomNode (ν : Type) where
  path : String
  source : NodeSource
  envs : Option (List (String × String))
  inputs : List (DataId × Input)
  outputs : List DataId
  fields : String → Option ν

inductive CoreNodeKind (ν : Type) where
  | runtime (operators : List (OperatorDefinition ν))
  | custom (node : CustomNode ν)

structure ResolvedNode (ν : Type) where
  id : NodeId
  env : Option (TreeMap String ν)
  fields : String → Option ν
  kind : CoreNodeKind ν

structure Descriptor (ν : Type) where
  nodes : List (Node ν)
  env : Option (TreeMap String ν) := none

/-! ## Classification -/

inductive NodeClass where
  | standard (source : NodeSource)
  | runtime
  | operator
  | ros2Bridge

def ALL_CHECKABLE_FIELDS : List String :=
  ["path", "path_sha256", "args", "build", "git", "hub", "branch", "tag", "rev", "outputs",
    "output_types", "output_framing", "inputs", "input_types", "output_metadata", "pattern",
    "send_stdout_as", "send_logs_as", "min_log_level", "max_log_size", "max_rotated_files",
    "shared_memory_pool_size", "restart_policy", "max_restarts", "restart_delay", "max_restart_delay",
    "restart_window", "health_check_timeout", "startup_timeout", "finish_grace_secs", "cpu_affinity",
    "params"]

def Node.isSet (node : Node ν) : String → Bool
  | "path" => node.path.isSome
  | "hub" => node.hub.isSome
  | "git" => node.git.isSome
  | "branch" => node.branch.isSome
  | "tag" => node.tag.isSome
  | "rev" => node.rev.isSome
  | "inputs" => !node.inputs.isEmpty
  | "outputs" => !node.outputs.isEmpty
  | name => (node.fields name).isSome

def validateAgainstWhitelist (node : Node ν) (allowed : List String) (kindName hint : String) :
    Except String Unit :=
  let unknown := ALL_CHECKABLE_FIELDS.filter fun name => node.isSet name && !allowed.contains name
  if unknown.isEmpty then .ok ()
  else .error (s!"node `{node.id.name}` has fields that are not allowed on {kindName} nodes: " ++
    ", ".intercalate unknown ++ "\nhint: " ++ hint)

/-- What a `path:` and a `ros2:` node may both have. -/
def CUSTOM_ALLOWED : List String :=
  ["args", "inputs", "outputs", "output_types", "input_types", "output_framing",
    "shared_memory_pool_size", "restart_policy", "max_restarts", "restart_delay", "max_restart_delay",
    "restart_window", "health_check_timeout", "startup_timeout", "finish_grace_secs", "send_stdout_as",
    "send_logs_as", "min_log_level", "max_log_size", "max_rotated_files", "output_metadata", "pattern",
    "cpu_affinity"]

def STANDARD_ALLOWED : List String :=
  ["path", "git", "branch", "tag", "rev", "hub", "build", "path_sha256"] ++ CUSTOM_ALLOWED

def notConsumed : String := "these fields are not consumed by this node kind; remove them from the node"

def checkStandard (node : Node ν) : Except String Unit :=
  validateAgainstWhitelist node STANDARD_ALLOWED "Standard" notConsumed

def checkRuntime (node : Node ν) : Except String Unit :=
  validateAgainstWhitelist node ["cpu_affinity"] "Runtime" <|
    "these fields belong inside the matching entry under `operators:`, not at the node level -- " ++
      "move them there"

def checkOperator (node : Node ν) : Except String Unit :=
  validateAgainstWhitelist node ["cpu_affinity"] "Operator" <|
    "these fields belong inside the node's `operator:` block, not at the node level -- move them there"

def checkRos2 (node : Node ν) : Except String Unit :=
  validateAgainstWhitelist node CUSTOM_ALLOWED "ROS2 bridge" notConsumed

def standardSource (node : Node ν) : Except String NodeSource :=
  match node.git, node.branch, node.tag, node.rev with
  | none, none, none, none => .ok .local
  | some repo, branch, tag, rev =>
    if branch.toList.length + tag.toList.length + rev.toList.length ≤ 1 then
      .ok (.gitBranch repo branch tag rev)
    else .error "only one of `branch`, `tag`, and `rev` are allowed"
  | none, _, _, _ => .error "`git` source required when using branch, tag, or rev"

/-- A module node is an error in either way: its own fields are wrong, or it is not expanded. -/
def classify (node : Node ν) : Except String NodeClass :=
  if node.hub.isSome && node.path.isNone then
    .error (s!"node `{node.id.name}` uses an unresolved `hub:` reference — run `dora build` " ++
      "first (`dora start` requires a prior build for hub nodes)")
  else
    match node.path, node.operators, node.operator, node.ros2, node.modulePath with
    | none, none, some _, none, none => do
      checkOperator node
      return .operator
    | none, some _, none, none, none => do
      checkRuntime node
      return .runtime
    | some _, none, none, none, none => do
      checkStandard node
      return .standard (← standardSource node)
    | none, none, none, some _, none => do
      checkRos2 node
      return .ros2Bridge
    | none, none, none, none, some _ => do
      validateAgainstWhitelist node ["inputs", "params", "build"] "Module" <|
        "a module node only configures the sub-dataflow it references; set per-node options on the " ++
          "module's inner nodes instead"
      .error (s!"module node `{node.id.name}` must be expanded before resolution — " ++
        "call expand_modules() first")
    | none, none, none, none, none =>
      .error (s!"node `{node.id.name}` requires a `path`, `operators`, `operator`, `ros2`, or " ++
        "`module` field")
    | _, _, _, _, _ =>
      .error (s!"node `{node.id.name}` has multiple exclusive fields set, only one of `path`, " ++
        "`operators`, `operator`, `ros2`, and `module` is allowed")

/-! ## Input mappings -/

def SINGLE_OPERATOR_DEFAULT_ID : String := "op"

/-- The operator of each single-operator node; of two entries for one id the later one counts. -/
def singleOperatorNodes (nodes : List (Node ν)) (id : NodeId) : Option String :=
  nodes.reverse.findSome? fun node =>
    if node.id = id then node.operator.map fun op => op.id.getD SINGLE_OPERATOR_DEFAULT_ID else none

def prefixOutputWithOperatorId (opName : String) (output : DataId) : Except String DataId :=
  match DataId.fromStr (opName ++ "/" ++ output.name) with
  | .ok id => .ok id
  | .error e => .error (s!"operator id `{opName}` produces an invalid output id " ++
      s!"`{opName}/{output.name}`: {e}")

def adjustInput (operatorOf : NodeId → Option String) (input : Input) : Except String Input :=
  match input.mapping with
  | .user mapping =>
    match operatorOf mapping.source with
    | some opName => do
      let output ← prefixOutputWithOperatorId opName mapping.output
      return { input with mapping := .user { mapping with output } }
    | none => .ok input
  | .timer _ | .logs _ => .ok input

def adjustInputs (operatorOf : NodeId → Option String) (inputs : List (DataId × Input)) :
    Except String (List (DataId × Input)) :=
  inputs.mapM fun entry => do return (entry.1, ← adjustInput operatorOf entry.2)

def adjustConfig (operatorOf : NodeId → Option String) (config : OperatorConfig ν) :
    Except String (OperatorConfig ν) := do
  return { config with inputs := ← adjustInputs operatorOf config.inputs }

def adjustBridge (operatorOf : NodeId → Option String) (node : Node ν) : Except String (Node ν) :=
  match node.ros2 with
  | some _ => return { node with inputs := ← adjustInputs operatorOf node.inputs }
  | none => .ok node

def adjustOperator (operatorOf : NodeId → Option String) (op : OperatorDefinition ν) :
    Except String (OperatorDefinition ν) :=
  return { op with config := ← adjustConfig operatorOf op.config }

def adjustClass (operatorOf : NodeId → Option String) (nodeClass : NodeClass) (node : Node ν) :
    Except String (Node ν) :=
  match nodeClass with
  | .standard _ => return { node with inputs := ← adjustInputs operatorOf node.inputs }
  | .runtime =>
    match node.operators with
    | some operators => return { node with operators := ← operators.mapM (adjustOperator operatorOf) }
    | none => .error "no operators"
  | .operator =>
    match node.operator with
    | some op => do
      let config ← adjustConfig operatorOf op.config
      return { node with operator := some { op with config } }
    | none => .error "no operator"
  | .ros2Bridge => .ok node

def adjustNode (operatorOf : NodeId → Option String) (nodeClass : NodeClass) (node : Node ν) :
    Except String (Node ν) := do
  let node ← adjustBridge operatorOf node
  adjustClass operatorOf nodeClass node

/-! ## ROS2 bridges -/

def derivePortId (topic : String) : String :=
  String.ofList ((topic.toList.dropWhile (· = '/')).map fun c => if c = '/' then '_' else c)

def singleTopicPortId (topic : String) (declaredPorts : List String) : Option String :=
  if declaredPorts.contains (derivePortId topic) then some (derivePortId topic)
  else
    match declaredPorts with
    | [solePort] => some solePort
    | _ => none

def resolveRos2SingleTopic (nodeId : NodeId) (config : Ros2BridgeConfig ν) (inputs outputs : List DataId) :
    Except String (Ros2BridgeConfig ν) :=
  match config.topic, config.messageType, config.topics with
  | some topic, some messageType, none =>
    let (direction, portKind, declared) := match config.direction with
      | .subscribe => ("subscribe", "output", outputs.map DataId.name)
      | .publish => ("publish", "input", inputs.map DataId.name)
    match singleTopicPortId topic declared with
    | none =>
      if declared.isEmpty then
        .error s!"node `{nodeId.name}`: ros2 {direction} bridge requires at least one {portKind}"
      else
        .error (s!"node `{nodeId.name}`: ros2 {direction} topic `{topic}` has no unambiguous {portKind} " ++
          s!"— single-topic mode binds to the node's declared {portKind}, but it declares several: " ++
          ", ".intercalate (declared.map fun port => s!"`{port}`") ++
          s!". Declare a single {portKind}, name one of them after the topic (`{derivePortId topic}`), " ++
          s!"or use `topics:` with an explicit `{portKind}:`")
    | some port =>
      let (output, input) := match config.direction with
        | .subscribe => (some port, none)
        | .publish => (none, some port)
      .ok { config with
        topic := none
        messageType := none
        topics := some [{ topic, messageType, direction := config.direction, output, input, qos := none }] }
  | _, _, _ => .ok config

def validateRos2TopicPorts (nodeId : NodeId) (topics : List (Ros2TopicConfig ν))
    (inputs outputs : List DataId) : Except String Unit :=
  topics.forM fun t =>
    match t.direction with
    | .subscribe =>
      let output := t.output.getD (derivePortId t.topic)
      if (outputs.map DataId.name).contains output then .ok ()
      else .error (s!"node `{nodeId.name}`: ros2 subscribe topic `{t.topic}` maps to output `{output}`, " ++
        "which is not declared in the node's `outputs`")
    | .publish =>
      let input := t.input.getD (derivePortId t.topic)
      if (inputs.map DataId.name).contains input then .ok ()
      else .error (s!"node `{nodeId.name}`: ros2 publish topic `{t.topic}` maps to input `{input}`, " ++
        "which is not declared in the node's `inputs`")

/-! ## Resolved nodes -/

/-- The fields that `CustomNode::from_node` moves. -/
def CUSTOM_FIELDS : List String :=
  ["path_sha256", "args", "build", "send_stdout_as", "send_logs_as", "min_log_level", "max_log_size",
    "max_rotated_files", "restart_policy", "max_restarts", "restart_delay", "max_restart_delay",
    "restart_window", "health_check_timeout", "finish_grace_secs", "output_types", "output_framing",
    "input_types", "shared_memory_pool_size", "startup_timeout"]

def CustomNode.fromNode (node : Node ν) (path : String) : CustomNode ν where
  path := path
  source := .local
  envs := none
  inputs := node.inputs
  outputs := node.outputs
  fields name := if CUSTOM_FIELDS.contains name then node.fields name else none

def ResolvedNode.fromNode (node : Node ν) (kind : CoreNodeKind ν) : ResolvedNode ν where
  id := node.id
  env := node.env
  fields name :=
    if ["name", "description", "cpu_affinity", "deploy"].contains name then node.fields name else none
  kind := kind

def mergeEnv (dataflow node : Option (TreeMap String ν)) : Option (TreeMap String ν) :=
  let merged := (dataflow.getD ∅).insertMany (node.getD ∅)
  if merged.isEmpty then none else some merged

-- the text of a bridge's config is left to the serializer
variable (toJson : Ros2BridgeConfig ν → Except String String)

def resolveKind (nodeClass : NodeClass) (node : Node ν) : Except String (CoreNodeKind ν) :=
  match nodeClass with
  | .standard source =>
    match node.path with
    | some path => .ok (.custom { CustomNode.fromNode node path with source })
    | none => .error "missing `path` attribute"
  | .runtime =>
    match node.operators with
    | some operators => .ok (.runtime operators)
    | none => .error "no operators"
  | .operator =>
    match node.operator with
    | some op => .ok (.runtime [{ id := op.id.getD SINGLE_OPERATOR_DEFAULT_ID, config := op.config }])
    | none => .error "no operator"
  | .ros2Bridge =>
    match node.ros2 with
    | some config => do
      let config ← resolveRos2SingleTopic node.id config (node.inputs.map Prod.fst) node.outputs
      validateRos2TopicPorts node.id (config.topics.getD []) (node.inputs.map Prod.fst) node.outputs
      let json ← toJson config
      return .custom { CustomNode.fromNode node "dora-ros2-bridge-node" with
        envs := some [("DORA_ROS2_BRIDGE_CONFIG", json)] }
    | none => .error "no ros2"

def resolveNode (operatorOf : NodeId → Option String) (env : Option (TreeMap String ν)) (node : Node ν) :
    Except String (ResolvedNode ν) := do
  let nodeClass ← classify node
  let node ← adjustNode operatorOf nodeClass node
  let kind ← resolveKind toJson nodeClass node
  let resolved := ResolvedNode.fromNode node kind
  return { resolved with env := mergeEnv env resolved.env }

def resolveInto (operatorOf : NodeId → Option String) (env : Option (TreeMap String ν))
    (resolved : TreeMap NodeId (ResolvedNode ν)) (node : Node ν) :
    Except String (TreeMap NodeId (ResolvedNode ν)) := do
  let entry ← resolveNode toJson operatorOf env node
  if resolved.contains entry.id then
    .error s!"duplicate node ID `{entry.id.name}` — each node must have a unique `id`"
  else return resolved.insert entry.id entry

def resolveAliasesAndSetDefaultsInTopology (desc : Descriptor ν) (topologyNodes : List (Node ν)) :
    Except String (TreeMap NodeId (ResolvedNode ν)) :=
  desc.nodes.foldlM (resolveInto toJson (singleOperatorNodes (topologyNodes ++ desc.nodes)) desc.env) ∅

def resolveAliasesAndSetDefaults (desc : Descriptor ν) : Except String (TreeMap NodeId (ResolvedNode ν)) :=
  resolveAliasesAndSetDefaultsInTopology toJson desc []

/-- `resolve_single_node` of the coordinator. -/
def resolveSingleNode (node : Node ν) (running : Descriptor ν) : Except String (NodeId × ResolvedNode ν) :=
  let tmpDesc : Descriptor ν := { nodes := [node], env := running.env }
  match resolveAliasesAndSetDefaultsInTopology toJson tmpDesc running.nodes with
  | .error e => .error s!"failed to resolve node: {e}"
  | .ok resolved =>
    match resolved.toList.head? with
    | some entry => .ok entry
    | none => .error "node descriptor resolved to empty map"

/-- The running descriptor with the node in it: in place of the node with its id, or at the end. -/
def Descriptor.join (running : Descriptor ν) (node : Node ν) : Descriptor ν :=
  if running.nodes.any (·.id = node.id) then
    { running with nodes := running.nodes.map fun old => if old.id = node.id then node else old }
  else { running with nodes := running.nodes ++ [node] }

/-! ## The inputs of a node -/

def OperatorConfig.wired (config : OperatorConfig ν) : List Input := config.inputs.map Prod.snd

def Node.wired (node : Node ν) : List Input :=
  node.inputs.map Prod.snd ++ (node.operators.getD []).flatMap (·.config.wired) ++
    node.operator.toList.flatMap (·.config.wired)

def CoreNodeKind.wired : CoreNodeKind ν → List Input
  | .runtime operators => operators.flatMap (·.config.wired)
  | .custom node => node.inputs.map Prod.snd

def Node.Fits (node : Node ν) : NodeClass → Prop
  | .standard _ => node.operators = none ∧ node.operator = none ∧ node.ros2 = none
  | .runtime => node.inputs = [] ∧ node.operator = none ∧ node.ros2 = none
  | .operator => node.inputs = [] ∧ node.operators = none ∧ node.ros2 = none
  | .ros2Bridge => node.operators = none ∧ node.operator = none ∧ node.ros2.isSome

theorem inputs_nil_of_whitelist {node : Node ν} {allowed : List String} {kindName hint : String}
    (h : validateAgainstWhitelist node allowed kindName hint = .ok ()) (hallowed : "inputs" ∉ allowed) :
    node.inputs = [] := by
  simp only [validateAgainstWhitelist] at h
  split at h
  · next hunknown =>
    have hnone := List.filter_eq_nil_iff.mp (List.isEmpty_iff.mp hunknown) "inputs" (by decide)
    simpa [Node.isSet, hallowed] using hnone
  · cases h

theorem fits_of_classify {node : Node ν} {nodeClass : NodeClass} (h : classify node = .ok nodeClass) :
    node.Fits nodeClass := by
  unfold classify at h
  split at h
  · cases h
  split at h
  · next hoperators hoperator hros2 _ =>
    obtain ⟨_, hcheck, h⟩ := bind_eq_ok.mp h
    cases h
    exact ⟨inputs_nil_of_whitelist hcheck (by decide), hoperators, hros2⟩
  · next hoperators hoperator hros2 _ =>
    obtain ⟨_, hcheck, h⟩ := bind_eq_ok.mp h
    cases h
    exact ⟨inputs_nil_of_whitelist hcheck (by decide), hoperator, hros2⟩
  · next hoperators hoperator hros2 _ =>
    obtain ⟨_, hcheck, h⟩ := bind_eq_ok.mp h
    obtain ⟨_, _, h⟩ := bind_eq_ok.mp h
    cases h
    exact ⟨hoperators, hoperator, hros2⟩
  · next hoperators hoperator hros2 _ =>
    obtain ⟨_, hcheck, h⟩ := bind_eq_ok.mp h
    cases h
    exact ⟨hoperators, hoperator, by rw [hros2]; rfl⟩
  · obtain ⟨_, _, h⟩ := bind_eq_ok.mp h
    cases h
  · cases h
  · cases h

variable {operatorOf operatorOf' : NodeId → Option String} {nodeClass : NodeClass} {node node' : Node ν}

theorem adjustInputs_wired {inputs inputs' : List (DataId × Input)}
    (h : adjustInputs operatorOf inputs = .ok inputs') :
    List.Forall₂ (fun i j => adjustInput operatorOf i = .ok j) (inputs.map Prod.snd)
      (inputs'.map Prod.snd) := by
  rw [List.forall₂_map_left_iff, List.forall₂_map_right_iff]
  refine (mapM_eq_ok h).imp fun entry entry' hentry => ?_
  obtain ⟨input, hinput, hentry⟩ := bind_eq_ok.mp hentry
  cases hentry
  exact hinput

theorem adjustConfig_wired {config config' : OperatorConfig ν}
    (h : adjustConfig operatorOf config = .ok config') :
    List.Forall₂ (fun i j => adjustInput operatorOf i = .ok j) config.wired config'.wired := by
  obtain ⟨inputs, hinputs, h⟩ := bind_eq_ok.mp h
  cases h
  exact adjustInputs_wired hinputs

theorem adjustBridge_of_none (h : node.ros2 = none) : adjustBridge operatorOf node = .ok node := by
  rw [adjustBridge, h]

theorem adjustNode_wired (hfits : node.Fits nodeClass)
    (h : adjustNode operatorOf nodeClass node = .ok node') :
    node'.Fits nodeClass ∧ node'.id = node.id ∧
      List.Forall₂ (fun i j => adjustInput operatorOf i = .ok j) node.wired node'.wired := by
  obtain ⟨node₁, hbridge, h⟩ := bind_eq_ok.mp h
  cases nodeClass with
  | standard source =>
    obtain ⟨hoperators, hoperator, hros2⟩ := hfits
    rw [adjustBridge_of_none hros2] at hbridge
    cases hbridge
    obtain ⟨inputs, hinputs, h⟩ := bind_eq_ok.mp h
    cases h
    refine ⟨⟨hoperators, hoperator, hros2⟩, rfl, ?_⟩
    simpa [Node.wired, hoperators, hoperator] using adjustInputs_wired hinputs
  | runtime =>
    obtain ⟨hinputs, hoperator, hros2⟩ := hfits
    rw [adjustBridge_of_none hros2] at hbridge
    cases hbridge
    simp only [adjustClass] at h
    split at h
    · next operators hoperators =>
      obtain ⟨operators', hadjusted, h⟩ := bind_eq_ok.mp h
      cases h
      refine ⟨⟨hinputs, hoperator, hros2⟩, rfl, ?_⟩
      have hwired : List.Forall₂ (fun op op' => List.Forall₂ (fun i j => adjustInput operatorOf i = .ok j)
          op.config.wired op'.config.wired) operators operators' := by
        refine (mapM_eq_ok hadjusted).imp fun op op' hop => ?_
        obtain ⟨config, hconfig, hop⟩ := bind_eq_ok.mp hop
        cases hop
        exact adjustConfig_wired hconfig
      simpa [Node.wired, hinputs, hoperators, hoperator] using List.rel_flatMap hwired fun _ _ h => h
    · cases h
  | operator =>
    obtain ⟨hinputs, hoperators, hros2⟩ := hfits
    rw [adjustBridge_of_none hros2] at hbridge
    cases hbridge
    simp only [adjustClass] at h
    split at h
    · next op hoperator =>
      obtain ⟨config, hconfig, h⟩ := bind_eq_ok.mp h
      cases h
      refine ⟨⟨hinputs, hoperators, hros2⟩, rfl, ?_⟩
      simpa [Node.wired, hinputs, hoperators, hoperator] using adjustConfig_wired hconfig
    · cases h
  | ros2Bridge =>
    obtain ⟨hoperators, hoperator, hros2⟩ := hfits
    cases h
    unfold adjustBridge at hbridge
    split at hbridge
    · obtain ⟨inputs, hinputs, hbridge⟩ := bind_eq_ok.mp hbridge
      cases hbridge
      refine ⟨⟨hoperators, hoperator, hros2⟩, rfl, ?_⟩
      simpa [Node.wired, hoperators, hoperator] using adjustInputs_wired hinputs
    · next hnone => rw [hnone] at hros2; cases hros2

theorem resolveKind_wired {kind : CoreNodeKind ν} (hfits : node.Fits nodeClass)
    (h : resolveKind toJson nodeClass node = .ok kind) : kind.wired = node.wired := by
  cases nodeClass with
  | standard source =>
    obtain ⟨hoperators, hoperator, -⟩ := hfits
    simp only [resolveKind] at h
    split at h
    · cases h
      simp [CoreNodeKind.wired, Node.wired, CustomNode.fromNode, hoperators, hoperator]
    · cases h
  | runtime =>
    obtain ⟨hinputs, hoperator, -⟩ := hfits
    simp only [resolveKind] at h
    split at h
    · next operators hoperators =>
      cases h
      simp [CoreNodeKind.wired, Node.wired, hinputs, hoperators, hoperator]
    · cases h
  | operator =>
    obtain ⟨hinputs, hoperators, -⟩ := hfits
    simp only [resolveKind] at h
    split at h
    · next op hoperator =>
      cases h
      simp [CoreNodeKind.wired, Node.wired, hinputs, hoperators, hoperator]
    · cases h
  | ros2Bridge =>
    obtain ⟨hoperators, hoperator, -⟩ := hfits
    simp only [resolveKind] at h
    split at h
    · obtain ⟨config, _, h⟩ := bind_eq_ok.mp h
      obtain ⟨_, _, h⟩ := bind_eq_ok.mp h
      obtain ⟨json, _, h⟩ := bind_eq_ok.mp h
      cases h
      simp [CoreNodeKind.wired, Node.wired, CustomNode.fromNode, hoperators, hoperator]
    · cases h

theorem mapM_congr_mem {α β : Type} {f g : α → Except String β} {l : List α} (h : ∀ a ∈ l, f a = g a) :
    l.mapM f = l.mapM g := by
  induction l with
  | nil => rfl
  | cons a l ih =>
    rw [List.mapM_cons, List.mapM_cons, h a List.mem_cons_self,
      ih fun b hb => h b (List.mem_cons_of_mem a hb)]

theorem adjustInputs_congr {inputs : List (DataId × Input)}
    (h : ∀ i ∈ inputs.map Prod.snd, adjustInput operatorOf i = adjustInput operatorOf' i) :
    adjustInputs operatorOf inputs = adjustInputs operatorOf' inputs :=
  mapM_congr_mem fun entry hentry => by rw [h entry.2 (List.mem_map_of_mem hentry)]

theorem adjustNode_congr (hfits : node.Fits nodeClass)
    (h : ∀ i ∈ node.wired, adjustInput operatorOf i = adjustInput operatorOf' i) :
    adjustNode operatorOf nodeClass node = adjustNode operatorOf' nodeClass node := by
  have hinputs : adjustInputs operatorOf node.inputs = adjustInputs operatorOf' node.inputs :=
    adjustInputs_congr fun i hi => h i (by simp [Node.wired, hi])
  have hbridge : adjustBridge operatorOf node = adjustBridge operatorOf' node := by
    simp only [adjustBridge, hinputs]
  unfold adjustNode
  rw [hbridge]
  cases nodeClass with
  | standard source =>
    rw [adjustBridge_of_none hfits.2.2]
    show adjustClass operatorOf (.standard source) node = adjustClass operatorOf' (.standard source) node
    simp only [adjustClass, hinputs]
  | runtime =>
    rw [adjustBridge_of_none hfits.2.2]
    show adjustClass operatorOf .runtime node = adjustClass operatorOf' .runtime node
    cases hoperators : node.operators with
    | none => simp only [adjustClass, hoperators]
    | some operators =>
      have hops :
          operators.mapM (adjustOperator operatorOf) = operators.mapM (adjustOperator operatorOf') := by
        refine mapM_congr_mem fun op hop => ?_
        unfold adjustOperator adjustConfig
        rw [adjustInputs_congr fun i hi => h i ?_]
        simp only [Node.wired, hoperators, List.mem_append, List.mem_flatMap]
        exact .inl (.inr ⟨op, hop, hi⟩)
      simp only [adjustClass, hoperators, hops]
  | operator =>
    rw [adjustBridge_of_none hfits.2.2]
    show adjustClass operatorOf .operator node = adjustClass operatorOf' .operator node
    cases hoperator : node.operator with
    | none => simp only [adjustClass, hoperator]
    | some op =>
      have hconfig : adjustConfig operatorOf op.config = adjustConfig operatorOf' op.config := by
        unfold adjustConfig
        rw [adjustInputs_congr fun i hi => h i ?_]
        simp only [Node.wired, hoperator, List.mem_append, List.mem_flatMap]
        exact .inr ⟨op, List.mem_singleton_self op, hi⟩
      simp only [adjustClass, hoperator, hconfig]
  | ros2Bridge => rfl

/-! ## One node -/

variable {env : Option (TreeMap String ν)} {entry : ResolvedNode ν}

theorem resolveNode_eq_ok (h : resolveNode toJson operatorOf env node = .ok entry) :
    entry.id = node.id ∧
      List.Forall₂ (fun i j => adjustInput operatorOf i = .ok j) node.wired entry.kind.wired := by
  obtain ⟨nodeClass, hclass, h⟩ := bind_eq_ok.mp h
  obtain ⟨node', hadjust, h⟩ := bind_eq_ok.mp h
  obtain ⟨kind, hkind, h⟩ := bind_eq_ok.mp h
  cases h
  obtain ⟨hfits, hid, hwired⟩ := adjustNode_wired (fits_of_classify hclass) hadjust
  rw [← resolveKind_wired toJson hfits hkind] at hwired
  exact ⟨hid, hwired⟩

theorem resolveNode_congr (h : ∀ i ∈ node.wired, adjustInput operatorOf i = adjustInput operatorOf' i) :
    resolveNode toJson operatorOf env node = resolveNode toJson operatorOf' env node := by
  unfold resolveNode
  cases hclass : classify node with
  | error => rfl
  | ok nodeClass =>
    show (adjustNode operatorOf nodeClass node >>= _) = (adjustNode operatorOf' nodeClass node >>= _)
    rw [adjustNode_congr (fits_of_classify hclass) h]

/-! ## All nodes -/

theorem resolveInto_loop {nodes : List (Node ν)} {resolved table : TreeMap NodeId (ResolvedNode ν)}
    (h : nodes.foldlM (resolveInto toJson operatorOf env) resolved = .ok table) :
    (∀ (id : NodeId) entry, resolved[id]? = some entry → table[id]? = some entry) ∧
      ∀ node ∈ nodes, ∃ entry, resolveNode toJson operatorOf env node = .ok entry ∧
        table[node.id]? = some entry := by
  induction nodes generalizing resolved with
  | nil =>
    obtain rfl : resolved = table := Except.ok.inj h
    exact ⟨fun _ _ h => h, fun _ hn => absurd hn List.not_mem_nil⟩
  | cons node nodes ih =>
    rw [List.foldlM_cons, bind_eq_ok] at h
    obtain ⟨next, hnext, h⟩ := h
    obtain ⟨entry, hentry, hnext⟩ := bind_eq_ok.mp hnext
    split at hnext
    · cases hnext
    · next hfresh =>
      cases hnext
      obtain ⟨hkept, hnodes⟩ := ih h
      have hid := (resolveNode_eq_ok toJson hentry).1
      refine ⟨fun id other hother => hkept id other ?_, fun n hn => ?_⟩
      · have hne : id ≠ entry.id := by
          rintro rfl
          exact hfresh (by rw [TreeMap.contains_eq_isSome_getElem?, hother]; rfl)
        simpa [TreeMap.getElem?_insert, hne.symm] using hother
      · rcases List.mem_cons.mp hn with rfl | hn
        · exact ⟨entry, hentry, hid ▸ hkept entry.id entry (by simp)⟩
        · exact hnodes n hn

theorem resolveSingleNode_eq_ok {running : Descriptor ν} :
    resolveSingleNode toJson node running = .ok (node.id, entry) ↔
      resolveNode toJson (singleOperatorNodes (running.nodes ++ [node])) running.env node = .ok entry := by
  simp only [resolveSingleNode, resolveAliasesAndSetDefaultsInTopology, List.foldlM_cons, List.foldlM_nil,
    resolveInto]
  cases hnode : resolveNode toJson (singleOperatorNodes (running.nodes ++ [node])) running.env node with
  | error e => exact ⟨nofun, nofun⟩
  | ok resolved =>
    have hid := (resolveNode_eq_ok toJson hnode).1
    have hlist : ((∅ : TreeMap NodeId (ResolvedNode ν)).insert node.id resolved).toList =
        [(node.id, resolved)] := rfl
    simp [bind, Except.bind, pure, Except.pure, hlist, hid]

/-! ## The lookup of operators -/

section Lookup

variable (running : Descriptor ν) (node : Node ν)

/-- The node takes the place of a single-operator node, is none itself, and has an input from itself. -/
def TakesOverOperator : Prop :=
  node.operator = none ∧ (∃ old ∈ running.nodes, old.id = node.id ∧ old.operator ≠ none) ∧
    ∃ input ∈ node.wired, ∃ mapping, input.mapping = .user mapping ∧ mapping.source = node.id

theorem findSome?_ite {α β : Type} {p : α → Prop} [DecidablePred p] {found : Option β} {l : List α}
    (h : ∃ a ∈ l, p a) : l.findSome? (fun a => if p a then found else none) = found := by
  induction l with
  | nil =>
    obtain ⟨a, ha, -⟩ := h
    cases ha
  | cons a l ih =>
    rw [List.findSome?_cons]
    by_cases hp : p a
    · rw [if_pos hp]
      cases found <;> simp
    · rw [if_neg hp]
      obtain ⟨b, hb, hpb⟩ := h
      exact ih ⟨b, (List.mem_cons.mp hb).resolve_left (fun heq => hp (heq ▸ hpb)), hpb⟩

theorem singleOperatorNodes_eq_none {nodes : List (Node ν)} {id : NodeId} :
    singleOperatorNodes nodes id = none ↔ ∀ old ∈ nodes, old.id = id → old.operator = none := by
  simp [singleOperatorNodes]

theorem singleOperatorNodes_concat (id : NodeId) :
    singleOperatorNodes (running.nodes ++ [node]) id =
      if node.id = id ∧ node.operator ≠ none then singleOperatorNodes [node] id
      else singleOperatorNodes running.nodes id := by
  unfold singleOperatorNodes
  rw [List.reverse_append, List.reverse_singleton, List.singleton_append, List.findSome?_cons]
  cases hop : node.operator <;> by_cases hid : node.id = id <;> simp [hid, hop]

theorem singleOperatorNodes_concat_of (id : NodeId)
    (h : node.operator ≠ none ∨ ∀ old ∈ running.nodes, old.id = node.id → old.operator = none) :
    singleOperatorNodes (running.nodes ++ [node]) id =
      if node.id = id then singleOperatorNodes [node] id else singleOperatorNodes running.nodes id := by
  rw [singleOperatorNodes_concat]
  by_cases hid : node.id = id
  · subst hid
    cases hop : node.operator with
    | some op => simp
    | none =>
      have hnode : singleOperatorNodes [node] node.id = none :=
        singleOperatorNodes_eq_none.mpr (by simp [hop])
      have hrunning : singleOperatorNodes running.nodes node.id = none :=
        singleOperatorNodes_eq_none.mpr (h.resolve_left (not_not.mpr hop))
      simp [hnode, hrunning]
  · simp [hid]

theorem singleOperatorNodes_join (id : NodeId) :
    singleOperatorNodes (running.join node).nodes id =
      if node.id = id then singleOperatorNodes [node] id else singleOperatorNodes running.nodes id := by
  unfold Descriptor.join
  split
  · next hany =>
    simp only [singleOperatorNodes, ← List.map_reverse, List.findSome?_map]
    split
    · next hid =>
      subst hid
      have hnow : ∃ old ∈ running.nodes.reverse, old.id = node.id := by simpa using hany
      refine Eq.trans ?_ (findSome?_ite hnow)
      congr 1
      funext old
      by_cases hold : old.id = node.id <;> simp [hold]
    · next hid =>
      congr 1
      funext old
      by_cases hold : old.id = node.id <;> simp [hold, hid]
  · next hnone =>
    refine singleOperatorNodes_concat_of running node id (.inr fun old hold heq => ?_)
    exact absurd (List.any_eq_true.mpr ⟨old, hold, by simp [heq]⟩) hnone

theorem mem_join_nodes : node ∈ (running.join node).nodes := by
  unfold Descriptor.join
  split
  · next hany =>
    obtain ⟨old, hold, heq⟩ := List.any_eq_true.mp hany
    exact List.mem_map.mpr ⟨old, hold, if_pos (by simpa using heq)⟩
  · simp

theorem join_env : (running.join node).env = running.env := by
  unfold Descriptor.join
  split <;> rfl

end Lookup

theorem adjustInput_congr {input : Input}
    (h : ∀ mapping, input.mapping = .user mapping → operatorOf mapping.source = operatorOf' mapping.source) :
    adjustInput operatorOf input = adjustInput operatorOf' input := by
  unfold adjustInput
  split
  · next mapping hmapping => rw [h mapping hmapping]
  · rfl
  · rfl

theorem adjustInput_ne {input : Input} {mapping : UserInputMapping} {opName : String}
    (hmapping : input.mapping = .user mapping) (hop : operatorOf mapping.source = some opName) :
    adjustInput operatorOf input ≠ .ok input := by
  intro h
  simp only [adjustInput, hmapping, hop] at h
  obtain ⟨output, houtput, h⟩ := bind_eq_ok.mp h
  have hsame : { mapping with output } = mapping := by
    simpa [hmapping] using congrArg Input.mapping (Except.ok.inj h)
  have hname : output.name = opName ++ "/" ++ output.name := by
    rw [← congrArg UserInputMapping.output hsame] at houtput
    simp only [prefixOutputWithOperatorId] at houtput
    split at houtput
    · next id hid =>
      cases houtput
      obtain ⟨_, _, hid⟩ := bind_eq_ok.mp hid
      exact congrArg DataId.name (Except.ok.inj hid).symm
    · cases houtput
  have hlength := congrArg String.length hname
  simp only [String.length_append] at hlength
  have hslash : "/".length = 1 := rfl
  omega

theorem forall₂_common {α β : Type} {R R' : α → β → Prop} {l : List α} {l' : List β}
    (h : List.Forall₂ R l l') (h' : List.Forall₂ R' l l') : ∀ a ∈ l, ∃ b, R a b ∧ R' a b := by
  induction h with
  | nil => exact fun _ ha => absurd ha List.not_mem_nil
  | cons hab _ ih =>
    cases h' with
    | cons hab' h' =>
      intro c hc
      rcases List.mem_cons.mp hc with rfl | hc
      · exact ⟨_, hab, hab'⟩
      · exact ih h' c hc

/-- Where the descriptor with the node resolves, the node alone resolves to the same entry, unless it takes
over from a single-operator node and refers to itself. -/
theorem single_node_resolves_as_whole_iff {running : Descriptor ν} {node : Node ν}
    {table : TreeMap NodeId (ResolvedNode ν)}
    (h : resolveAliasesAndSetDefaults toJson (running.join node) = .ok table) :
    (∃ entry, table[node.id]? = some entry ∧
        resolveSingleNode toJson node running = .ok (node.id, entry)) ↔
      ¬ TakesOverOperator running node := by
  obtain ⟨entry, hentry, htable⟩ :=
    (resolveInto_loop toJson h).2 node (mem_join_nodes running node)
  rw [List.nil_append, join_env] at hentry
  simp only [htable, Option.some.injEq, exists_eq_left', resolveSingleNode_eq_ok]
  constructor
  · rintro hsingle ⟨hop, ⟨old, hold, hid, holdOp⟩, input, hinput, mapping, hmapping, hsource⟩
    obtain ⟨renamed, hrenamed, hwhole⟩ := forall₂_common (resolveNode_eq_ok toJson hsingle).2
      (resolveNode_eq_ok toJson hentry).2 input hinput
    -- the whole descriptor has no operator under the id any more, the running one still has
    have hnode : singleOperatorNodes [node] node.id = none :=
      singleOperatorNodes_eq_none.mpr (by simp [hop])
    have hrunning : singleOperatorNodes running.nodes node.id ≠ none := fun hnone =>
      holdOp (singleOperatorNodes_eq_none.mp hnone old hold hid)
    obtain ⟨opName, hopName⟩ := Option.ne_none_iff_exists'.mp hrunning
    have hkept : renamed = input := by
      simpa [adjustInput, hmapping, hsource, singleOperatorNodes_join, hnode] using hwhole.symm
    have hstale : singleOperatorNodes (running.nodes ++ [node]) mapping.source = some opName := by
      rw [hsource, singleOperatorNodes_concat, if_neg (by simp [hop]), hopName]
    exact adjustInput_ne hmapping hstale (hkept ▸ hrenamed)
  · intro hnot
    rw [← hentry]
    refine resolveNode_congr toJson fun input hinput => adjustInput_congr fun mapping hmapping => ?_
    rw [singleOperatorNodes_join]
    by_cases hself : node.id = mapping.source
    · refine singleOperatorNodes_concat_of running node _ ?_
      by_contra! hstale
      refine hnot ⟨hstale.1, ?_, input, hinput, mapping, hmapping, hself.symm⟩
      obtain ⟨old, hold, hid, hop⟩ := hstale.2
      exact ⟨old, hold, hid, hop⟩
    · rw [singleOperatorNodes_concat, if_neg (fun h => hself h.1), if_neg hself]

/-- A dataflow with one single-operator node, `camera`. -/
def exampleRunning : Descriptor Unit :=
  { nodes := [{ id := ⟨"camera"⟩, operator := some ⟨none, [], ()⟩ }] }

def exampleInput (output : String) : Input := ⟨.user ⟨⟨"camera"⟩, ⟨output⟩⟩, none, none, none⟩

def exampleNode (id : String) : Node Unit :=
  { id := ⟨id⟩, path := some "node.py", inputs := [(⟨"image"⟩, exampleInput "image")] }

def noBridge : Ros2BridgeConfig Unit → Except String String := fun _ => .ok ""

theorem viewer_resolves_as_whole :
    ∃ table entry, resolveAliasesAndSetDefaults noBridge (exampleRunning.join (exampleNode "viewer")) =
        .ok table ∧ table[(⟨"viewer"⟩ : NodeId)]? = some entry ∧
      resolveSingleNode noBridge (exampleNode "viewer") exampleRunning = .ok (⟨"viewer"⟩, entry) := by
  cases h : resolveAliasesAndSetDefaults noBridge (exampleRunning.join (exampleNode "viewer")) with
  | error e =>
    have hok : (resolveAliasesAndSetDefaults noBridge
      (exampleRunning.join (exampleNode "viewer"))).isOk = true := by decide +kernel
    rw [h] at hok
    cases hok
  | ok table =>
    have hself : ¬ TakesOverOperator exampleRunning (exampleNode "viewer") := by
      rintro ⟨-, ⟨old, hold, hid, -⟩, -⟩
      rw [List.mem_singleton.mp hold] at hid
      exact absurd hid (by decide)
    obtain ⟨entry, htable, hsingle⟩ := (single_node_resolves_as_whole_iff noBridge h).mpr hself
    exact ⟨table, entry, rfl, htable, hsingle⟩

/-- A custom node that takes the place of the operator and refers to itself: the whole descriptor leaves its
input as it is, the single node still gets the name of the operator that is gone. -/
theorem replacement_keeps_operator_name :
    ((resolveAliasesAndSetDefaults noBridge (exampleRunning.join (exampleNode "camera"))).toOption.bind
        (·[(⟨"camera"⟩ : NodeId)]?)).map (·.kind.wired) = some [exampleInput "image"] ∧
      (resolveSingleNode noBridge (exampleNode "camera") exampleRunning).toOption.map
        (·.2.kind.wired) = some [exampleInput "op/image"] := by
  decide +kernel

end Dora.Resolve
