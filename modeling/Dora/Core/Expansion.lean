import Dora.Core.ParamSubstitution
import Dora.Message.InputMapping

/-!
# Module expansion (`libraries/core/src/descriptor/expand.rs`)

Expansion replaces a module node by the nodes of the module file, with the module node's id in front of
theirs, rewires what they read and what reads them, and does the same for the module nodes among them. The
file system, and the lexical rules that keep a path inside the project, are parameters.
-/

namespace Dora.Expand

open Std Lib

inductive EnvValue where
  | bool (value : Bool)
  | integer (value : Int)
  | float (value : F64)
  | string (value : String)

structure OperatorConfig where
  inputs : TreeMap DataId Input := ∅
  outputs : TreeSet DataId := ∅
  source : String
  build : Option String := none

structure Deploy where
  machine : Option String
  workingDir : Option String
  labels : TreeMap String String

structure Node where
  id : NodeId
  /-- `module` -/
  modulePath : Option String := none
  path : Option String := none
  args : Option String := none
  env : Option (TreeMap String EnvValue) := none
  build : Option String := none
  deploy : Option Deploy := none
  params : TreeMap String String := ∅
  inputs : TreeMap DataId Input := ∅
  outputs : TreeSet DataId := ∅
  operators : Option (List (String × OperatorConfig)) := none
  operator : Option OperatorConfig := none
  ros2 : Bool := false
  /-- The other fields that are set and that a module node may not have. -/
  unlisted : List String := []

structure ModuleFile where
  name : String
  inputs : List DataId := []
  inputsOptional : List DataId := []
  outputs : List DataId := []
  nodes : List Node
  build : Option String := none

structure Project (Path Dir : Type) where
  /-- Whether the project's root could be resolved. -/
  root : Except String Unit
  /-- The canonical file that a module's path names in a directory, and the directory it is in. -/
  locate : Dir → String → Except (NodeId → String) (Path × Dir)
  /-- How a module's path in a directory is shown. -/
  display : Dir → String → String
  loadModuleFile : Path → Except String ModuleFile
  /-- `resolve_module_relative_path`, with the node that has the path. -/
  resolvePath : Dir → NodeId → String → Except String String

abbrev ModuleOutputMap := TreeMap String UserInputMapping

def maxModuleDepth : Nat := 8

/-! ## Checks -/

/-- The checks of `check_module`: no second kind of node, and no field outside the whitelist. -/
def checkModule (node : Node) : Except String Unit := do
  let conflicts := (if node.operators.isSome then ["operators"] else []) ++
    (if node.operator.isSome then ["operator"] else []) ++ (if node.ros2 then ["ros2"] else [])
  if !conflicts.isEmpty then
    throw (s!"node `{node.id.name}` has fields that are not allowed on Module nodes: " ++
      ", ".intercalate conflicts ++ "\nhint: a module node references a sub-dataflow and cannot also " ++
      "be an operator or ros2 node -- remove these fields, or drop `module:` if this was meant to be a " ++
      "regular node")
  if !node.unlisted.isEmpty then
    throw (s!"node `{node.id.name}` has fields that are not allowed on Module nodes: " ++
      ", ".intercalate node.unlisted ++ "\nhint: a module node only configures the sub-dataflow it " ++
      "references; set per-node options on the module's inner nodes instead")

def rejectDuplicatePorts (moduleName field : String) : (seen : TreeSet DataId) → List DataId →
    Except String Unit
  | _, [] => .ok ()
  | seen, port :: ports =>
    if port ∈ seen then .error s!"module `{moduleName}` has duplicate `{field}` entry `{port.name}`"
    else rejectDuplicatePorts moduleName field (seen.insert port) ports

def validateModuleHeader (file : ModuleFile) : Except String Unit := do
  rejectDuplicatePorts file.name "inputs" ∅ file.inputs
  rejectDuplicatePorts file.name "inputs_optional" ∅ file.inputsOptional
  rejectDuplicatePorts file.name "outputs" ∅ file.outputs
  match file.inputsOptional.find? (· ∈ file.inputs) with
  | some overlap =>
    throw s!"module `{file.name}` input `{overlap.name}` is declared as both required and optional"
  | none => return

def checkInputs (file : ModuleFile) (node : Node) : Except String Unit := do
  match file.inputs.find? (· ∉ node.inputs) with
  | some declared =>
    throw (s!"module `{file.name}` declares required input `{declared.name}` but node " ++
      s!"`{node.id.name}` does not provide it\nhint: add `{declared.name}: <source_node>/<output>` to " ++
      "the node's inputs")
  | none =>
    let declared := file.inputs ++ file.inputsOptional
    match node.inputs.keys.find? (· ∉ declared) with
    | some provided =>
      throw (s!"module `{file.name}` does not declare input `{provided.name}` provided by node " ++
        s!"`{node.id.name}`\nhint: declared inputs are: " ++
        ", ".intercalate (TreeSet.ofList (declared.map DataId.name)).toList)
    | none => return

section Params

variable (toUppercase : String → String)

def checkParamKeys (nodeId : NodeId) : TreeMap String String → List String → Except String Unit
  | _, [] => .ok ()
  | seenUpper, key :: keys => do
    if !key.toList.all isKeyChar || key.isEmpty then
      throw (s!"invalid param key `{key}` in node `{nodeId.name}`: must be non-empty and contain only " ++
        "[A-Za-z0-9_]")
    let upper := toUppercase key
    match seenUpper[upper]? with
    | some existing =>
      throw (s!"param keys `{existing}` and `{key}` in node `{nodeId.name}` collide: both map to the " ++
        s!"env var `PARAM_{upper}`. Param keys must be unique case-insensitively.")
    | none => checkParamKeys nodeId (seenUpper.insert upper key) keys

end Params

/-! ## Rewriting inputs -/

def Node.rewriteInputs (f : TreeMap DataId Input → Except String (TreeMap DataId Input)) (node : Node) :
    Except String Node := do
  let inputs ← f node.inputs
  let operators ← node.operators.mapM fun operators => operators.mapM fun (id, config) => do
    return (id, { config with inputs := ← f config.inputs })
  let operator ← node.operator.mapM fun config => do
    return { config with inputs := ← f config.inputs }
  return { node with inputs, operators, operator }

/-- The inputs that `rewrite` keeps, as it rewrites them. -/
def rewriteMap (rewrite : Input → Except String (Option Input)) (inputs : TreeMap DataId Input) :
    Except String (TreeMap DataId Input) :=
  inputs.toList.foldlM (fun newInputs entry => do
    match ← rewrite entry.2 with
    | some input => return newInputs.insert entry.1 input
    | none => return newInputs) ∅

def rewriteModuleInput (node : Node) (innerNodeIds : List NodeId) (optionalInputs : List DataId)
    (input : Input) : Except String (Option Input) :=
  match input.mapping with
  | .timer _ | .logs _ => .ok (some input)
  | .user mapping =>
    if mapping.source.name = "_mod" then
      match node.inputs[mapping.output]? with
      | some bound => .ok (some
          { mapping := bound.mapping
            queueSize := input.queueSize <|> bound.queueSize
            inputTimeout := input.inputTimeout <|> bound.inputTimeout
            queuePolicy := input.queuePolicy <|> bound.queuePolicy })
      | none =>
        if mapping.output ∈ optionalInputs then .ok none
        else .error s!"module input reference `_mod/{mapping.output.name}` not found in module node inputs"
    else if mapping.source ∈ innerNodeIds then
      .ok (some { input with
        mapping := .user { mapping with source := ⟨node.id.name ++ "." ++ mapping.source.name⟩ } })
    -- a reference to any other node is passed through
    else .ok (some input)

/-- What `rewrite_inputs_map` makes of one input of a node. -/
def rewriteExternalRef (outputMaps : TreeMap String ModuleOutputMap) (nodeId : NodeId) (input : Input) :
    Except String (Option Input) :=
  match input.mapping with
  | .timer _ | .logs _ => .ok (some input)
  | .user mapping =>
    match outputMaps[mapping.source.name]? with
    | none => .ok (some input)
    | some outputMap =>
      match outputMap[mapping.output.name]? with
      | some target => .ok (some { input with mapping := .user target })
      | none =>
        .error (s!"node `{nodeId.name}` references `{mapping.source.name}/{mapping.output.name}` but " ++
          s!"module `{mapping.source.name}` does not declare output `{mapping.output.name}`")

def rewriteExternalRefs (outputMaps : TreeMap String ModuleOutputMap) (nodes : List Node) :
    Except String (List Node) :=
  if outputMaps.isEmpty then .ok nodes
  else nodes.mapM fun node => node.rewriteInputs (rewriteMap (rewriteExternalRef outputMaps node.id))

/-! ## What inner nodes take over -/

def prependBuild (moduleBuild : String) : Option String → Option String
  | some existing => some (moduleBuild ++ "\n" ++ existing)
  | none => some moduleBuild

/-- The node's own build unless it is a runtime, operator or ROS2 node, and that of its operators. -/
def prependModuleBuildToNode (moduleBuild : String) (node : Node) : Node :=
  { node with
    build :=
      if node.modulePath.isSome || node.operators.isNone && node.operator.isNone && !node.ros2 then
        prependBuild moduleBuild node.build
      else node.build
    operators := node.operators.map fun operators => operators.map fun (id, config) =>
      (id, { config with build := prependBuild moduleBuild config.build })
    operator := node.operator.map fun config =>
      { config with build := prependBuild moduleBuild config.build } }

def prependBuildIfSet (moduleBuild : Option String) (nodes : List Node) : List Node :=
  match moduleBuild with
  | some build => nodes.map (prependModuleBuildToNode build)
  | none => nodes

def propagateModuleNodeEnv (moduleEnv : Option (TreeMap String EnvValue)) (node : Node) : Node :=
  match moduleEnv with
  | none => node
  | some moduleEnv =>
    if moduleEnv.isEmpty then node
    else { node with env := some (moduleEnv.foldl TreeMap.insertIfNew (node.env.getD ∅)) }

def substituteParamsInNode (toUppercase : String → String) (params : TreeMap String String) (node : Node) :
    Node :=
  if params.isEmpty then node
  else
    { node with
      args := node.args.map (substituteParamsInStr toUppercase params)
      env := some (params.foldl (fun env key value =>
        env.insert ("PARAM_" ++ toUppercase key) (.string value)) (node.env.getD ∅)) }

def nodeOutputRefs (node : Node) : List (String × String) :=
  let bare (outputs : TreeSet DataId) := outputs.toList.map fun o => (o.name, o.name)
  bare node.outputs ++
    ((node.operators.getD []).flatMap fun (id, config) =>
      config.outputs.toList.map fun o => (o.name, id ++ "/" ++ o.name)) ++
    (node.operator.elim [] fun config => bare config.outputs)

/-! ## Expansion -/

section Expand

variable {Path Dir : Type} (project : Project Path Dir) (toUppercase : String → String)

def resolveInnerNodePaths (moduleDir : Dir) (node : Node) : Except String Node := do
  let resolve := project.resolvePath moduleDir node.id
  let path ← node.path.mapM resolve
  let operators ← node.operators.mapM fun operators => operators.mapM fun (id, config) => do
    return (id, { config with source := ← resolve config.source })
  let operator ← node.operator.mapM fun config => do
    return { config with source := ← resolve config.source }
  return { node with path, operators, operator }

/-- Phase 1 for one inner node of the module node `node`. -/
def prefixNode (node : Node) (file : ModuleFile) (moduleDir : Dir) (inner : Node) : Except String Node := do
  let inner := { inner with id := ⟨node.id.name ++ "." ++ inner.id.name⟩ }
  let inner ← inner.rewriteInputs
    (rewriteMap (rewriteModuleInput node (file.nodes.map Node.id) file.inputsOptional))
  let inner ← resolveInnerNodePaths project moduleDir inner
  let inner := { inner with deploy := inner.deploy <|> node.deploy }
  let inner := substituteParamsInNode toUppercase node.params (propagateModuleNodeEnv node.env inner)
  return (file.build.elim inner (prependModuleBuildToNode · inner))

structure Collected where
  nestedOutputMaps : TreeMap String ModuleOutputMap := ∅
  /-- Under each output's name its producers, with the text that names them. -/
  directOutputTargets : TreeMap String (List (String × UserInputMapping)) := ∅
  finalNodes : List Node := []

def Collected.pushTarget (acc : Collected) (name producer : String) (target : UserInputMapping) : Collected :=
  { acc with
    directOutputTargets := acc.directOutputTargets.alter name fun targets =>
      some (targets.getD [] ++ [(producer, target)]) }

/-- Phase 2 for one inner node; `expand` expands a module node. -/
def Collected.add (expand : Node → Except String (List Node × ModuleOutputMap)) (acc : Collected)
    (inner : Node) : Except String Collected := do
  if inner.modulePath.isSome then
    let (nested, nestedOmap) ← expand inner
    let acc := nestedOmap.foldl (fun (acc : Collected) output target =>
      acc.pushTarget output (inner.id.name ++ "/" ++ output) target) acc
    return { acc with
      nestedOutputMaps := acc.nestedOutputMaps.insert inner.id.name nestedOmap
      finalNodes := acc.finalNodes ++ prependBuildIfSet inner.build nested }
  else
    let acc ← (nodeOutputRefs inner).foldlM (fun (acc : Collected) (name, outputRef) =>
      match DataId.fromStr outputRef with
      | .ok output =>
        return acc.pushTarget name (inner.id.name ++ "/" ++ output.name) { source := inner.id, output }
      | .error e =>
        throw s!"node `{inner.id.name}` produces an invalid output id `{outputRef}`: {e}") acc
    return { acc with finalNodes := acc.finalNodes ++ [inner] }

def exportOutputs (file : ModuleFile) (targets : TreeMap String (List (String × UserInputMapping))) :
    Except String ModuleOutputMap :=
  file.outputs.foldlM (fun outputMap declared =>
    match targets[declared.name]?.getD [] with
    | [] => .error s!"module `{file.name}` declares output `{declared.name}` but no inner node produces it"
    | [(_, target)] => .ok (outputMap.insert declared.name target)
    | producers =>
      .error (s!"module `{file.name}` declares output `{declared.name}` but multiple inner nodes " ++
        "produce it: " ++ ", ".intercalate (producers.map Prod.fst))) ∅

variable [DecidableEq Path]

def openModule (seen : List Path) (baseDir : Dir) (node : Node) :
    Except String (Path × Dir × ModuleFile) := do
  (checkModule node).mapError fun e => s!"invalid module node `{node.id.name}`: {e}"
  let (canonical, moduleDir) ← (project.locate baseDir (node.modulePath.getD "")).mapError (· node.id)
  if canonical ∈ seen then
    throw ("circular module reference detected: " ++ project.display baseDir (node.modulePath.getD "") ++
      s!" (node `{node.id.name}`)\nhint: check that module files do not reference each other in a cycle")
  let file ← project.loadModuleFile canonical
  validateModuleHeader file
  return (canonical, moduleDir, file)

/-- `remaining` nesting levels are left. A file leaves `seen` when its expansion is done, so `seen` are
the files around the node. -/
def expandModuleNode : (remaining : Nat) → (seen : List Path) → Dir → Node →
    Except String (List Node × ModuleOutputMap)
  | 0, _, _, node =>
    .error s!"module nesting exceeds depth limit of {maxModuleDepth} (node `{node.id.name}`)"
  | remaining + 1, seen, baseDir, node => do
    let (canonical, moduleDir, file) ← openModule project seen baseDir node
    checkInputs file node
    checkParamKeys toUppercase node.id ∅ node.params.keys
    let prefixed ← file.nodes.mapM (prefixNode project toUppercase node file moduleDir)
    let collected ← prefixed.foldlM
      (Collected.add (expandModuleNode remaining (canonical :: seen) moduleDir)) {}
    let finalNodes ← rewriteExternalRefs collected.nestedOutputMaps collected.finalNodes
    let outputMap ← exportOutputs file collected.directOutputTargets
    return (finalNodes, outputMap)

structure Flattened where
  flatNodes : List Node := []
  outputMaps : TreeMap String ModuleOutputMap := ∅
  boundaries : TreeMap String (List String) := ∅

def Flattened.add (expand : Node → Except String (List Node × ModuleOutputMap)) (acc : Flattened)
    (node : Node) : Except String Flattened := do
  if node.modulePath.isSome then
    let (expanded, omap) ← expand node
    let expanded := prependBuildIfSet node.build expanded
    return {
      flatNodes := acc.flatNodes ++ expanded
      outputMaps := acc.outputMaps.insert node.id.name omap
      boundaries := acc.boundaries.insert node.id.name (expanded.map (·.id.name)) }
  else return { acc with flatNodes := acc.flatNodes ++ [node] }

def checkUniqueIds : (idSet : TreeSet String) → List Node → Except String Unit
  | _, [] => .ok ()
  | idSet, node :: nodes =>
    if node.id.name ∈ idSet then
      .error (s!"duplicate node ID `{node.id.name}` after module expansion — check for conflicting node " ++
        "names across modules and top-level nodes")
    else checkUniqueIds (idSet.insert node.id.name) nodes

def expandModulesWithBoundaries (baseDir : Dir) (nodes : List Node) :
    Except String (List Node × TreeMap String (List String)) := do
  if !nodes.any (·.modulePath.isSome) then return (nodes, ∅)
  project.root
  let flat ← nodes.foldlM
    (Flattened.add (expandModuleNode project toUppercase maxModuleDepth [] baseDir)) {}
  let flatNodes ← rewriteExternalRefs flat.outputMaps flat.flatNodes
  checkUniqueIds ∅ flatNodes
  return (flatNodes, flat.boundaries)

end Expand

end Dora.Expand
