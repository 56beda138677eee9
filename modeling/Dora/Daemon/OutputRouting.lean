import Dora.Message.Descriptor

/-!
# Output routing (`binaries/daemon/src/output_routing.rs`)

Which consumers must acknowledge a producer's startup markers before an output may leave the daemon
path, and which outputs may never leave it: `computeOutputRouting` decides it for the nodes a daemon
spawns, `addedNodeOutputRouting` for a node that enters a running dataflow.
-/

namespace Dora

open Std

/-! ## 1. The functions -/

structure RequiredAcker where
  nodeId : NodeId
  inputId : DataId
deriving DecidableEq, Repr

def RequiredAcker.key (acker : RequiredAcker) : NodeId × DataId := (acker.nodeId, acker.inputId)

theorem RequiredAcker.key_injective : Function.Injective RequiredAcker.key := by
  rintro ⟨n, i⟩ ⟨n', i'⟩ h
  simpa [RequiredAcker.key] using h

instance : Ord RequiredAcker := ⟨compareOn RequiredAcker.key⟩
instance : TransOrd RequiredAcker := inferInstanceAs (TransCmp (compareOn RequiredAcker.key))
instance : LawfulEqOrd RequiredAcker := Lib.lawfulEqOn _ RequiredAcker.key_injective

structure OutputRouting where
  daemonOnly : Bool := false
  requiredAckers : TreeSet RequiredAcker := ∅

abbrev RoutingTable := TreeMap NodeId (TreeMap DataId OutputRouting)

abbrev Mappings := TreeMap OutputId (TreeSet (NodeId × DataId))

def inputIsBackpressure (input : Input) : Bool := input.queuePolicy == some .backpressure

def noteBackpressured (outputs : TreeMap NodeId (TreeSet DataId)) (input : Input) :
    TreeMap NodeId (TreeSet DataId) :=
  if inputIsBackpressure input then
    match input.mapping with
    | .user mapping =>
      outputs.insert mapping.source ((outputs.getD mapping.source ∅).insert mapping.output)
    | _ => outputs
  else outputs

def backpressuredOutputs (nodes : ResolvedNodes) (consumers : NodeId → Bool) :
    TreeMap NodeId (TreeSet DataId) :=
  (nodes.values.filter fun consumer => consumers consumer.id).foldl
    (fun outputs consumer => (nodeInputs consumer).toList.foldl
      (fun outputs entry => noteBackpressured outputs entry.2) outputs) ∅

def initialRouting (nodes : ResolvedNodes) (localNodes : TreeSet NodeId) : RoutingTable :=
  TreeMap.ofList ((localNodes.toList.filterMap fun id => nodes.byId[id]?).map fun producer =>
    (producer.id, TreeMap.ofList (producer.kind.runConfig.outputs.toList.map fun outputId =>
      (outputId, ({} : OutputRouting)))))

def routeEntry (localNodes routableProducers : TreeSet NodeId) (consumer : ResolvedNode)
    (inputId : DataId) (input : Input) (source : NodeId) (entry : OutputRouting) :
    OutputRouting :=
  let consumerLocal := localNodes.contains consumer.id
  let watchesLiveness := input.inputTimeout.isSome
  if inputIsBackpressure input then { entry with daemonOnly := true }
  else if consumer.kind.dynamic then
    if !consumerLocal then { entry with daemonOnly := true } else entry
  else if consumerLocal || (routableProducers.contains source && !watchesLiveness) then
    { entry with requiredAckers := entry.requiredAckers.insert ⟨consumer.id, inputId⟩ }
  else { entry with daemonOnly := true }

def routeInput (localNodes routableProducers : TreeSet NodeId) (consumer : ResolvedNode)
    (routing : RoutingTable) (entry : DataId × Input) : RoutingTable :=
  match entry.2.mapping with
  | .user mapping =>
    routing.modify mapping.source fun outputs =>
      outputs.modify mapping.output
        (routeEntry localNodes routableProducers consumer entry.1 entry.2 mapping.source)
  | _ => routing

def routeConsumers (localNodes routableProducers : TreeSet NodeId)
    (consumers : List ResolvedNode) (routing : RoutingTable) : RoutingTable :=
  consumers.foldl (fun routing consumer =>
    (nodeInputs consumer).toList.foldl (routeInput localNodes routableProducers consumer) routing)
    routing

def computeOutputRouting (nodes : ResolvedNodes) (localNodes routableProducers : TreeSet NodeId) :
    RoutingTable :=
  routeConsumers localNodes routableProducers nodes.values (initialRouting nodes localNodes)

def addedNodeOutputRouting (nodeId : NodeId) (outputs : TreeSet DataId) (mappings : Mappings)
    (openExternalMappings : TreeSet OutputId) (dynamicNodes : TreeSet NodeId)
    (requiresBackpressure : NodeId → DataId → Bool) : TreeMap DataId OutputRouting :=
  TreeMap.ofList (outputs.toList.map fun outputId =>
    let output : OutputId := ⟨nodeId, outputId⟩
    let routing : OutputRouting := { daemonOnly := openExternalMappings.contains output }
    match mappings[output]?.filter fun receivers => !receivers.isEmpty with
    | some receivers =>
      (outputId, receivers.toList.foldl (fun routing receiver =>
        if requiresBackpressure receiver.1 receiver.2 then { routing with daemonOnly := true }
        else if !dynamicNodes.contains receiver.1 then
          { routing with
            requiredAckers := routing.requiredAckers.insert ⟨receiver.1, receiver.2⟩ }
        else routing) routing)
    | none => (outputId, { routing with daemonOnly := true }))

def pinBackpressureSelfLoops (nodeId : NodeId) (inputs : TreeMap DataId Input)
    (routing : TreeMap DataId OutputRouting) : TreeMap DataId OutputRouting :=
  ((inputs.toList.map Prod.snd).filter inputIsBackpressure).foldl
    (fun routing input =>
      match input.mapping with
      | .user mapping =>
        if mapping.source ≠ nodeId then routing
        else routing.modify mapping.output fun entry => { entry with daemonOnly := true }
      | _ => routing) routing

/-! ## 2. One output at a time

The pass touches the entry of one output only through the inputs that read it, so what it does to
that entry is a fold over those inputs. -/

def entryOf (routing : RoutingTable) (producer : NodeId) (output : DataId) :
    Option OutputRouting :=
  routing[producer]?.bind fun outputs => outputs[output]?

def consumerInputs (consumers : List ResolvedNode) : List (ResolvedNode × DataId × Input) :=
  consumers.flatMap fun consumer => (nodeInputs consumer).toList.map fun entry => (consumer, entry)

/-- The pass, seen from the entry of `output` of `producer`. -/
def routeFrom (localNodes routableProducers : TreeSet NodeId) (producer : NodeId)
    (output : DataId) (entry : OutputRouting) (read : ResolvedNode × DataId × Input) :
    OutputRouting :=
  if read.2.2.mapping = .user ⟨producer, output⟩ then
    routeEntry localNodes routableProducers read.1 read.2.1 read.2.2 producer entry
  else entry

section

variable (localNodes routableProducers : TreeSet NodeId)

theorem entryOf_routeInput (consumer : ResolvedNode) (routing : RoutingTable)
    (read : DataId × Input) (producer : NodeId) (output : DataId) :
    entryOf (routeInput localNodes routableProducers consumer routing read) producer output =
      (entryOf routing producer output).map fun entry =>
        routeFrom localNodes routableProducers producer output entry (consumer, read) := by
  unfold entryOf routeInput routeFrom
  cases hmapping : read.2.mapping with
  | timer | logs => simp
  | user mapping =>
    obtain ⟨source, out⟩ := mapping
    simp only [TreeMap.getElem?_modify, LawfulEqCmp.compare_eq_iff_eq]
    by_cases hsource : source = producer
    · subst hsource
      cases hrow : routing[source]? with
      | none => simp
      | some =>
        by_cases hout : out = output
        · subst hout
          simp
        · simp [TreeMap.getElem?_modify, hout]
    · simp [hsource]

theorem entryOf_routeConsumers (consumers : List ResolvedNode) (routing : RoutingTable)
    (producer : NodeId) (output : DataId) :
    entryOf (routeConsumers localNodes routableProducers consumers routing) producer output =
      (entryOf routing producer output).map fun entry =>
        (consumerInputs consumers).foldl
          (routeFrom localNodes routableProducers producer output) entry := by
  -- flatten the nested loops, then push `entryOf` through one input at a time
  have hflat : routeConsumers localNodes routableProducers consumers routing =
      (consumerInputs consumers).foldl
        (fun routing read => routeInput localNodes routableProducers read.1 routing read.2)
        routing := by
    unfold routeConsumers consumerInputs
    rw [List.foldl_flatMap]
    simp only [List.foldl_map]
  rw [hflat]
  clear hflat
  generalize consumerInputs consumers = reads
  induction reads generalizing routing with
  | nil => simp
  | cons read reads ih =>
    rw [List.foldl_cons, ih, entryOf_routeInput, Option.map_map]
    rfl

def pins (producer : NodeId) (consumer : ResolvedNode) (input : Input) : Bool :=
  inputIsBackpressure input
    || (consumer.kind.dynamic && !localNodes.contains consumer.id)
    || (!consumer.kind.dynamic && !localNodes.contains consumer.id
        && (!routableProducers.contains producer || input.inputTimeout.isSome))

theorem routeEntry_daemonOnly (consumer : ResolvedNode) (inputId : DataId) (input : Input)
    (producer : NodeId) (entry : OutputRouting) :
    (routeEntry localNodes routableProducers consumer inputId input producer entry).daemonOnly =
      (entry.daemonOnly || pins localNodes routableProducers producer consumer input) := by
  unfold routeEntry pins
  cases inputIsBackpressure input <;> cases consumer.kind.dynamic <;>
    cases localNodes.contains consumer.id <;> cases routableProducers.contains producer <;>
    cases input.inputTimeout.isSome <;> simp

theorem mem_routeEntry_requiredAckers (consumer : ResolvedNode) (inputId : DataId) (input : Input)
    (producer : NodeId) (entry : OutputRouting) (acker : RequiredAcker) :
    acker ∈ (routeEntry localNodes routableProducers consumer inputId input producer
        entry).requiredAckers ↔
      acker ∈ entry.requiredAckers ∨ pins localNodes routableProducers producer consumer input = false
        ∧ consumer.kind.dynamic = false ∧ ⟨consumer.id, inputId⟩ = acker := by
  unfold routeEntry pins
  cases inputIsBackpressure input <;> cases consumer.kind.dynamic <;>
    cases localNodes.contains consumer.id <;> cases routableProducers.contains producer <;>
    cases input.inputTimeout.isSome <;>
    simp [TreeSet.mem_insert, or_comm]

theorem foldl_routeFrom_daemonOnly (producer : NodeId) (output : DataId)
    (reads : List (ResolvedNode × DataId × Input)) (entry : OutputRouting) :
    (reads.foldl (routeFrom localNodes routableProducers producer output) entry).daemonOnly = true ↔
      entry.daemonOnly = true ∨ ∃ read ∈ reads, read.2.2.mapping = .user ⟨producer, output⟩ ∧
        pins localNodes routableProducers producer read.1 read.2.2 = true := by
  induction reads generalizing entry with
  | nil => simp
  | cons read reads ih =>
    rw [List.foldl_cons, ih]
    by_cases hmapping : read.2.2.mapping = .user ⟨producer, output⟩
    · simp [routeFrom, hmapping, routeEntry_daemonOnly, or_assoc]
    · simp [routeFrom, hmapping]

theorem mem_foldl_routeFrom_requiredAckers (producer : NodeId) (output : DataId)
    (reads : List (ResolvedNode × DataId × Input)) (entry : OutputRouting)
    (acker : RequiredAcker) :
    acker ∈ (reads.foldl (routeFrom localNodes routableProducers producer output)
        entry).requiredAckers ↔
      acker ∈ entry.requiredAckers ∨ ∃ read ∈ reads,
        read.2.2.mapping = .user ⟨producer, output⟩ ∧
        pins localNodes routableProducers producer read.1 read.2.2 = false ∧
        read.1.kind.dynamic = false ∧ ⟨read.1.id, read.2.1⟩ = acker := by
  induction reads generalizing entry with
  | nil => simp
  | cons read reads ih =>
    rw [List.foldl_cons, ih]
    by_cases hmapping : read.2.2.mapping = .user ⟨producer, output⟩
    · simp [routeFrom, hmapping, mem_routeEntry_requiredAckers, or_assoc]
    · simp [routeFrom, hmapping]

end

/-! ## 3. The policy -/

/-- `input` is input `inputId` of a node of the dataflow and reads `output` of `producer`. -/
structure Consumes (nodes : ResolvedNodes) (producer : NodeId) (output : DataId)
    (consumer : ResolvedNode) (inputId : DataId) (input : Input) : Prop where
  hnode : nodes.byId[consumer.id]? = some consumer
  hinput : (nodeInputs consumer)[inputId]? = some input
  hmapping : input.mapping = .user ⟨producer, output⟩

/-- The documented reasons to keep an output on the daemon path: a consumer with backpressure, a
remote dynamic consumer, or a remote static consumer that cannot dial the producer or that watches
its input's liveness. -/
def PinnedBy (localNodes routableProducers : TreeSet NodeId) (producer : NodeId)
    (consumer : ResolvedNode) (input : Input) : Prop :=
  input.queuePolicy = some .backpressure
    ∨ (consumer.id ∉ localNodes ∧ consumer.kind.dynamic = true)
    ∨ (consumer.id ∉ localNodes ∧ consumer.kind.dynamic = false
        ∧ (producer ∉ routableProducers ∨ input.inputTimeout ≠ none))

theorem pins_iff {localNodes routableProducers : TreeSet NodeId} {producer : NodeId}
    {consumer : ResolvedNode} {input : Input} :
    pins localNodes routableProducers producer consumer input = true ↔
      PinnedBy localNodes routableProducers producer consumer input := by
  have hlocal : localNodes.contains consumer.id = false ↔ consumer.id ∉ localNodes := by
    rw [← Bool.not_eq_true, TreeSet.contains_iff_mem]
  have hroutable : routableProducers.contains producer = false ↔ producer ∉ routableProducers := by
    rw [← Bool.not_eq_true, TreeSet.contains_iff_mem]
  simp only [pins, PinnedBy, inputIsBackpressure, Bool.or_eq_true, Bool.and_eq_true, beq_iff_eq,
    Bool.not_eq_true', hlocal, hroutable, Option.isSome_iff_ne_none]
  tauto

theorem mem_consumerInputs {nodes : ResolvedNodes} {consumers : List ResolvedNode}
    (hperm : consumers.Perm nodes.values) {producer : NodeId} {output : DataId}
    {consumer : ResolvedNode} {inputId : DataId} {input : Input} :
    (consumer, inputId, input) ∈ consumerInputs consumers ∧
        input.mapping = .user ⟨producer, output⟩ ↔
      Consumes nodes producer output consumer inputId input := by
  have hmem : (consumer, inputId, input) ∈ consumerInputs consumers ↔
      nodes.byId[consumer.id]? = some consumer ∧ (nodeInputs consumer)[inputId]? = some input := by
    rw [← ResolvedNodes.mem_values, ← hperm.mem_iff, ← TreeMap.mem_toList_iff_getElem?_eq_some]
    simp [consumerInputs]
  rw [hmem]
  exact ⟨fun h => ⟨h.1.1, h.1.2, h.2⟩, fun h => ⟨⟨h.hnode, h.hinput⟩, h.hmapping⟩⟩

theorem exists_consumerInputs {nodes : ResolvedNodes} {consumers : List ResolvedNode}
    (hperm : consumers.Perm nodes.values) {producer : NodeId} {output : DataId}
    {P : ResolvedNode → DataId → Input → Prop} :
    (∃ read ∈ consumerInputs consumers, read.2.2.mapping = .user ⟨producer, output⟩ ∧
        P read.1 read.2.1 read.2.2) ↔
      ∃ consumer inputId input, Consumes nodes producer output consumer inputId input ∧
        P consumer inputId input := by
  simp only [Prod.exists, ← mem_consumerInputs hperm, and_assoc]

theorem getElem?_initialRouting (nodes : ResolvedNodes) (localNodes : TreeSet NodeId)
    (producer : NodeId) :
    (initialRouting nodes localNodes)[producer]? =
      if producer ∈ localNodes then
        nodes.byId[producer]?.map fun node =>
          TreeMap.ofList (node.kind.runConfig.outputs.toList.map fun outputId =>
            (outputId, ({} : OutputRouting)))
      else none := by
  have hdistinct : (localNodes.toList.filterMap fun id => nodes.byId[id]?).Pairwise
      fun a b => ¬compare a.id b.id = .eq := by
    rw [List.pairwise_filterMap]
    apply localNodes.distinct_toList.imp
    intro a b hab node hnode node' hnode'
    rwa [nodes.keyed a node hnode, nodes.keyed b node' hnode']
  by_cases hentry : producer ∈ localNodes ∧ ∃ node, nodes.byId[producer]? = some node
  · obtain ⟨hlocal, node, hnode⟩ := hentry
    rw [if_pos hlocal, hnode, Option.map_some]
    apply TreeMap.getElem?_ofList_of_mem (ReflCmp.compare_self) (List.pairwise_map.mpr hdistinct)
    rw [List.mem_map]
    refine ⟨node, List.mem_filterMap.mpr ⟨producer, TreeSet.mem_toList.mpr hlocal, hnode⟩, ?_⟩
    rw [nodes.keyed producer node hnode]
  · have hnone : (if producer ∈ localNodes then
        nodes.byId[producer]?.map fun node =>
          TreeMap.ofList (node.kind.runConfig.outputs.toList.map fun outputId =>
            (outputId, ({} : OutputRouting)))
      else none) = none := by
      by_cases hlocal : producer ∈ localNodes
      · rw [if_pos hlocal, Option.map_eq_none_iff, Option.eq_none_iff_forall_ne_some]
        exact fun node hnode => hentry ⟨hlocal, node, hnode⟩
      · rw [if_neg hlocal]
    rw [hnone]
    apply TreeMap.getElem?_ofList_of_contains_eq_false
    rw [List.contains_eq_mem, decide_eq_false_iff_not]
    intro hmem
    simp only [List.map_map, List.mem_map, List.mem_filterMap, TreeSet.mem_toList,
      Function.comp_apply] at hmem
    obtain ⟨node, ⟨id, hid, hnode⟩, rfl⟩ := hmem
    rw [nodes.keyed id node hnode] at hentry
    exact hentry ⟨hid, node, hnode⟩

theorem getElem?_unrouted (outputs : TreeSet DataId) (output : DataId) :
    (TreeMap.ofList (outputs.toList.map fun outputId => (outputId, ({} : OutputRouting))))[output]?
      = if output ∈ outputs then some {} else none := by
  have hdistinct : (outputs.toList.map fun outputId => (outputId, ({} : OutputRouting))).Pairwise
      fun a b => ¬compare a.1 b.1 = .eq :=
    List.pairwise_map.mpr outputs.distinct_toList
  by_cases hmem : output ∈ outputs
  · rw [if_pos hmem]
    apply TreeMap.getElem?_ofList_of_mem (ReflCmp.compare_self) hdistinct
    exact List.mem_map.mpr ⟨output, TreeSet.mem_toList.mpr hmem, rfl⟩
  · rw [if_neg hmem]
    apply TreeMap.getElem?_ofList_of_contains_eq_false
    simpa [List.contains_eq_mem] using hmem

/-- Before the pass an entry says nothing yet, and exists for each declared output of each local
producer. -/
theorem entryOf_initialRouting (nodes : ResolvedNodes) (localNodes : TreeSet NodeId)
    (producer : NodeId) (output : DataId) (entry : OutputRouting) :
    entryOf (initialRouting nodes localNodes) producer output = some entry ↔
      entry = {} ∧ producer ∈ localNodes ∧
        ∃ node, nodes.byId[producer]? = some node ∧ output ∈ node.kind.runConfig.outputs := by
  unfold entryOf
  rw [getElem?_initialRouting]
  by_cases hlocal : producer ∈ localNodes
  · cases hnode : nodes.byId[producer]? with
    | none => simp [hlocal]
    | some node =>
      rw [if_pos hlocal, Option.map_some, Option.bind_some, getElem?_unrouted]
      by_cases hout : output ∈ node.kind.runConfig.outputs
      · simp [hlocal, hout, eq_comm]
      · simp [hout]
  · simp [hlocal]

/-- An entry after the pass is the fold over the inputs that read it, from an entry that says
nothing. -/
theorem entryOf_routed (nodes : ResolvedNodes) (localNodes routableProducers : TreeSet NodeId)
    (order : List ResolvedNode) (producer : NodeId) (output : DataId) (entry : OutputRouting) :
    entryOf (routeConsumers localNodes routableProducers order (initialRouting nodes localNodes))
        producer output = some entry ↔
      (producer ∈ localNodes ∧
        ∃ node, nodes.byId[producer]? = some node ∧ output ∈ node.kind.runConfig.outputs) ∧
      entry = (consumerInputs order).foldl
        (routeFrom localNodes routableProducers producer output) {} := by
  rw [entryOf_routeConsumers, Option.map_eq_some_iff]
  constructor
  · rintro ⟨e, he, rfl⟩
    obtain ⟨rfl, hdeclared⟩ := (entryOf_initialRouting ..).mp he
    exact ⟨hdeclared, rfl⟩
  · rintro ⟨hdeclared, rfl⟩
    exact ⟨{}, (entryOf_initialRouting ..).mpr ⟨rfl, hdeclared⟩, rfl⟩

theorem mem_routeConsumers (localNodes routableProducers : TreeSet NodeId)
    (order : List ResolvedNode) (routing : RoutingTable) (producer : NodeId) :
    producer ∈ routeConsumers localNodes routableProducers order routing ↔ producer ∈ routing := by
  have hinput : ∀ consumer (reads : List (DataId × Input)) (routing : RoutingTable),
      producer ∈ reads.foldl (routeInput localNodes routableProducers consumer) routing ↔
        producer ∈ routing := by
    intro consumer reads
    induction reads with
    | nil => exact fun _ => Iff.rfl
    | cons read reads ih =>
      intro routing
      rw [List.foldl_cons, ih]
      unfold routeInput
      split
      · exact TreeMap.mem_modify
      · exact Iff.rfl
  unfold routeConsumers
  induction order generalizing routing with
  | nil => exact Iff.rfl
  | cons consumer order ih => exact (ih _).trans (hinput consumer _ routing)

/-- The routing table of a daemon is the documented policy: one entry for each declared output of a
local producer, pinned exactly for the documented reasons, and otherwise waiting for exactly the
static consumers. -/
structure FollowsPolicy (nodes : ResolvedNodes) (localNodes routableProducers : TreeSet NodeId)
    (routing : RoutingTable) : Prop where
  producers : ∀ producer, producer ∈ routing ↔ producer ∈ localNodes ∧ producer ∈ nodes.byId
  outputs : ∀ producer output, (entryOf routing producer output).isSome ↔
    producer ∈ localNodes ∧
      ∃ node, nodes.byId[producer]? = some node ∧ output ∈ node.kind.runConfig.outputs
  pinned : ∀ producer output entry, entryOf routing producer output = some entry →
    (entry.daemonOnly = true ↔ ∃ consumer inputId input,
      Consumes nodes producer output consumer inputId input ∧
        PinnedBy localNodes routableProducers producer consumer input)
  ackers : ∀ producer output entry, entryOf routing producer output = some entry →
    entry.daemonOnly = false → ∀ acker, acker ∈ entry.requiredAckers ↔
      ∃ consumer inputId input, Consumes nodes producer output consumer inputId input ∧
        consumer.kind.dynamic = false ∧ ⟨consumer.id, inputId⟩ = acker

def SameRouting (routing routing' : RoutingTable) : Prop :=
  ∀ producer output, Option.Rel
    (fun entry entry' => entry.daemonOnly = entry'.daemonOnly ∧
      ∀ acker, acker ∈ entry.requiredAckers ↔ acker ∈ entry'.requiredAckers)
    (entryOf routing producer output) (entryOf routing' producer output)

section

variable (nodes : ResolvedNodes) (localNodes routableProducers : TreeSet NodeId)
variable {order : List ResolvedNode}

theorem daemonOnly_routed (hperm : order.Perm nodes.values) (producer : NodeId)
    (output : DataId) :
    ((consumerInputs order).foldl (routeFrom localNodes routableProducers producer output)
        {}).daemonOnly = true ↔
      ∃ consumer inputId input, Consumes nodes producer output consumer inputId input ∧
        PinnedBy localNodes routableProducers producer consumer input := by
  rw [foldl_routeFrom_daemonOnly, or_iff_right (by simp), exists_consumerInputs hperm
    (P := fun consumer _ input => pins localNodes routableProducers producer consumer input = true)]
  simp only [pins_iff]

theorem requiredAckers_routed (hperm : order.Perm nodes.values) (producer : NodeId)
    (output : DataId) (acker : RequiredAcker) :
    acker ∈ ((consumerInputs order).foldl (routeFrom localNodes routableProducers producer output)
        {}).requiredAckers ↔
      ∃ consumer inputId input, Consumes nodes producer output consumer inputId input ∧
        ¬PinnedBy localNodes routableProducers producer consumer input ∧
        consumer.kind.dynamic = false ∧ ⟨consumer.id, inputId⟩ = acker := by
  rw [mem_foldl_routeFrom_requiredAckers, or_iff_right (by simp), exists_consumerInputs hperm
    (P := fun consumer inputId input => pins localNodes routableProducers producer consumer input = false ∧
      consumer.kind.dynamic = false ∧ ⟨consumer.id, inputId⟩ = acker)]
  simp only [← pins_iff, Bool.not_eq_true]

theorem routeConsumers_followsPolicy (hperm : order.Perm nodes.values) :
    FollowsPolicy nodes localNodes routableProducers
      (routeConsumers localNodes routableProducers order (initialRouting nodes localNodes)) where
  producers producer := by
    rw [mem_routeConsumers, TreeMap.mem_iff_isSome_getElem?, getElem?_initialRouting,
      TreeMap.mem_iff_isSome_getElem?]
    by_cases hlocal : producer ∈ localNodes <;> simp [hlocal]
  outputs producer output := by
    rw [Option.isSome_iff_exists]
    constructor
    · rintro ⟨entry, hentry⟩
      exact ((entryOf_routed ..).mp hentry).1
    · intro hdeclared
      exact ⟨_, (entryOf_routed ..).mpr ⟨hdeclared, rfl⟩⟩
  pinned producer output entry hentry := by
    rw [((entryOf_routed ..).mp hentry).2]
    exact daemonOnly_routed nodes localNodes routableProducers hperm producer output
  ackers producer output entry hentry hfree acker := by
    rw [((entryOf_routed ..).mp hentry).2] at hfree ⊢
    have hnone : ∀ consumer inputId input, Consumes nodes producer output consumer inputId input →
        ¬PinnedBy localNodes routableProducers producer consumer input := by
      intro consumer inputId input hconsumes hpinned
      have hpin := (daemonOnly_routed nodes localNodes routableProducers hperm producer output).mpr
        ⟨consumer, inputId, input, hconsumes, hpinned⟩
      rw [hfree] at hpin
      cases hpin
    rw [requiredAckers_routed nodes localNodes routableProducers hperm]
    constructor
    · rintro ⟨consumer, inputId, input, hconsumes, -, hrest⟩
      exact ⟨consumer, inputId, input, hconsumes, hrest⟩
    · rintro ⟨consumer, inputId, input, hconsumes, hrest⟩
      exact ⟨consumer, inputId, input, hconsumes, hnone consumer inputId input hconsumes, hrest⟩

theorem routeConsumers_sameRouting (hperm : order.Perm nodes.values) :
    SameRouting
      (routeConsumers localNodes routableProducers order (initialRouting nodes localNodes))
      (computeOutputRouting nodes localNodes routableProducers) := by
  intro producer output
  have hself : nodes.values.Perm nodes.values := List.Perm.refl _
  unfold computeOutputRouting
  rw [entryOf_routeConsumers, entryOf_routeConsumers]
  cases hinit : entryOf (initialRouting nodes localNodes) producer output with
  | none => exact .none
  | some =>
    obtain ⟨rfl, -⟩ := (entryOf_initialRouting ..).mp hinit
    refine .some ⟨?_, fun acker => ?_⟩
    · rw [Bool.eq_iff_iff, daemonOnly_routed nodes localNodes routableProducers hperm,
        daemonOnly_routed nodes localNodes routableProducers hself]
    · rw [requiredAckers_routed nodes localNodes routableProducers hperm,
        requiredAckers_routed nodes localNodes routableProducers hself]

end

/-! ## 4. Backpressured outputs -/

theorem mem_noteBackpressured {outputs : TreeMap NodeId (TreeSet DataId)} {input : Input}
    {producer : NodeId} {output : DataId}
    (h : output ∈ (noteBackpressured outputs input).getD producer ∅) :
    output ∈ outputs.getD producer ∅ ∨
      input.queuePolicy = some .backpressure ∧ input.mapping = .user ⟨producer, output⟩ := by
  unfold noteBackpressured at h
  split at h
  · rename_i hback
    split at h
    · rename_i mapping hmapping
      rw [TreeMap.getD_insert] at h
      split at h
      · rename_i hsource
        rw [LawfulEqCmp.compare_eq_iff_eq] at hsource
        subst hsource
        rw [TreeSet.mem_insert, LawfulEqCmp.compare_eq_iff_eq] at h
        rcases h with rfl | h
        · exact .inr ⟨beq_iff_eq.mp hback, hmapping⟩
        · exact .inl h
      · exact .inl h
    · exact .inl h
  · exact .inl h

theorem mem_backpressuredOutputs {nodes : ResolvedNodes} {consumers : NodeId → Bool}
    {producer : NodeId} {output : DataId}
    (h : output ∈ (backpressuredOutputs nodes consumers).getD producer ∅) :
    ∃ consumer inputId input, Consumes nodes producer output consumer inputId input ∧
      input.queuePolicy = some .backpressure := by
  have hfold : ∀ (reads : List (ResolvedNode × DataId × Input))
      (outputs : TreeMap NodeId (TreeSet DataId)),
      output ∈ (reads.foldl (fun outputs read => noteBackpressured outputs read.2.2)
          outputs).getD producer ∅ →
        output ∈ outputs.getD producer ∅ ∨ ∃ read ∈ reads,
          read.2.2.queuePolicy = some .backpressure ∧
          read.2.2.mapping = .user ⟨producer, output⟩ := by
    intro reads
    induction reads with
    | nil => exact fun _ hmem => .inl hmem
    | cons read reads ih =>
      intro outputs hmem
      rcases ih _ hmem with hmem | ⟨read', hread', hrest⟩
      · rcases mem_noteBackpressured hmem with hmem | hrest
        · exact .inl hmem
        · exact .inr ⟨read, List.mem_cons_self, hrest⟩
      · exact .inr ⟨read', List.mem_cons_of_mem _ hread', hrest⟩
  have hflat : backpressuredOutputs nodes consumers =
      (consumerInputs (nodes.values.filter fun consumer => consumers consumer.id)).foldl
        (fun outputs read => noteBackpressured outputs read.2.2) ∅ := by
    unfold backpressuredOutputs consumerInputs
    rw [List.foldl_flatMap]
    simp only [List.foldl_map]
  rw [hflat] at h
  rcases hfold _ _ h with hmem | ⟨⟨consumer, inputId, input⟩, hmem, hback, hmapping⟩
  · simp at hmem
  · have hall : (consumer, inputId, input) ∈ consumerInputs nodes.values := by
      simp only [consumerInputs, List.mem_flatMap, List.mem_filter] at hmem ⊢
      obtain ⟨node, ⟨hnode, -⟩, hread⟩ := hmem
      exact ⟨node, hnode, hread⟩
    exact ⟨consumer, inputId, input, (mem_consumerInputs (List.Perm.refl _)).mp ⟨hall, hmapping⟩,
      hback⟩

/-- For every dataflow, placement and set of routable producers, the computed routing is the
documented policy, does not depend on the order in which the consumers are visited, and pins every
backpressured output. -/
theorem computeOutputRouting_policy (nodes : ResolvedNodes)
    (localNodes routableProducers : TreeSet NodeId) :
    FollowsPolicy nodes localNodes routableProducers
        (computeOutputRouting nodes localNodes routableProducers) ∧
      (∀ order : List ResolvedNode, order.Perm nodes.values →
        SameRouting
          (routeConsumers localNodes routableProducers order (initialRouting nodes localNodes))
          (computeOutputRouting nodes localNodes routableProducers)) ∧
      (∀ (consumers : NodeId → Bool) producer output entry,
        output ∈ (backpressuredOutputs nodes consumers).getD producer ∅ →
        entryOf (computeOutputRouting nodes localNodes routableProducers) producer output =
          some entry →
        entry.daemonOnly = true) := by
  have hpolicy : FollowsPolicy nodes localNodes routableProducers
      (computeOutputRouting nodes localNodes routableProducers) :=
    routeConsumers_followsPolicy nodes localNodes routableProducers (List.Perm.refl _)
  refine ⟨hpolicy, fun order hperm => ?_, fun consumers producer output entry hmem hentry => ?_⟩
  · exact routeConsumers_sameRouting nodes localNodes routableProducers hperm
  · obtain ⟨consumer, inputId, input, hconsumes, hback⟩ := mem_backpressuredOutputs hmem
    rw [hpolicy.pinned producer output entry hentry]
    exact ⟨consumer, inputId, input, hconsumes, .inl hback⟩

end Dora
