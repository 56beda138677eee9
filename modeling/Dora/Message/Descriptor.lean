import Dora.Message.Config

/-!
# Resolved nodes (`libraries/message/src/descriptor.rs`, `binaries/daemon/src/lib.rs`)

The part of a resolved node that the daemon's routing and input bookkeeping look at: its id, its
kind, its inputs and its outputs. A runtime node has the inputs and outputs of its operators, each
under `operator/id`.
-/

namespace Dora

open Std

inductive NodeSource where
  | «local»
  | gitBranch (repo : String)
deriving DecidableEq

structure NodeRunConfig where
  inputs : TreeMap DataId Input
  outputs : TreeSet DataId

structure CustomNode where
  path : String
  source : NodeSource
  runConfig : NodeRunConfig

structure OperatorDefinition where
  id : String
  inputs : TreeMap DataId Input
  outputs : TreeSet DataId

inductive CoreNodeKind where
  | runtime (operators : List OperatorDefinition)
  | custom (node : CustomNode)

structure ResolvedNode where
  id : NodeId
  kind : CoreNodeKind

def DYNAMIC_SOURCE : String := "dynamic"

/-- `DataId::from(format!("{}/{id}", operator.id))` -/
def OperatorDefinition.qualify (operator : OperatorDefinition) (id : DataId) : DataId :=
  ⟨operator.id ++ "/" ++ id.name⟩

def runtimeNodeInputs (operators : List OperatorDefinition) : TreeMap DataId Input :=
  .ofList (operators.flatMap fun operator =>
    operator.inputs.toList.map fun entry => (operator.qualify entry.1, entry.2))

def runtimeNodeOutputs (operators : List OperatorDefinition) : TreeSet DataId :=
  .ofList (operators.flatMap fun operator => operator.outputs.toList.map operator.qualify)

def CoreNodeKind.runConfig : CoreNodeKind → NodeRunConfig
  | .runtime operators =>
    { inputs := runtimeNodeInputs operators, outputs := runtimeNodeOutputs operators }
  | .custom node => node.runConfig

def CoreNodeKind.dynamic : CoreNodeKind → Bool
  | .runtime _ => false
  | .custom node => node.source == .local && node.path == DYNAMIC_SOURCE

def nodeInputs (node : ResolvedNode) : TreeMap DataId Input :=
  match node.kind with
  | .custom custom => custom.runConfig.inputs
  | .runtime operators => runtimeNodeInputs operators

structure ResolvedNodes where
  byId : TreeMap NodeId ResolvedNode
  keyed : ∀ (id : NodeId) (node : ResolvedNode), byId[id]? = some node → node.id = id

namespace ResolvedNodes

def values (nodes : ResolvedNodes) : List ResolvedNode := nodes.byId.toList.map Prod.snd

theorem mem_values {nodes : ResolvedNodes} {node : ResolvedNode} :
    node ∈ nodes.values ↔ nodes.byId[node.id]? = some node := by
  unfold values
  rw [List.mem_map]
  constructor
  · rintro ⟨⟨id, node'⟩, hmem, rfl⟩
    have hget := TreeMap.mem_toList_iff_getElem?_eq_some.mp hmem
    rwa [nodes.keyed id node' hget]
  · intro h
    exact ⟨(node.id, node), TreeMap.mem_toList_iff_getElem?_eq_some.mpr h, rfl⟩

/-- A dataflow that starts without nodes. -/
instance : EmptyCollection ResolvedNodes := ⟨⟨∅, by simp⟩⟩

end ResolvedNodes

end Dora
