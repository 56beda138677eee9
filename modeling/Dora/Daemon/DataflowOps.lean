import Dora.Daemon.LocalDelivery
import Dora.Lib.Machine

/-!
# The operations on a running dataflow

The handlers of the daemon's event loop that touch one dataflow: its spawn
(`dataflow_lifecycle.rs`), the coordinator's edits (`coordinator_events.rs`), the requests of its nodes
(`node_events.rs`), timers and exits (`dora_events.rs`, `lib.rs`), and what the listeners do in between.
-/

namespace Dora

open Std

namespace RunningDataflow

variable (d : RunningDataflow)

/-! ## 1. Spawning and editing the graph -/

def registerInput (nodeId : NodeId) (d : RunningDataflow) (entry : DataId × Input) :
    RunningDataflow :=
  let d : RunningDataflow := { d with openInputs := d.openInputs.add nodeId entry.1 }
  match entry.2.mapping with
  | .user mapping =>
    { d with
      dataInputs := d.dataInputs.add nodeId entry.1
      inputDeadlines := match entry.2.inputTimeout with
        | some timeout =>
          d.inputDeadlines.insert (nodeId, entry.1) { timeout, lastReceived := none }
        | none => d.inputDeadlines
      mappings := d.mappings.add ⟨mapping.source, mapping.output⟩ (nodeId, entry.1) }
  | .timer interval => { d with timers := d.timers.add interval (nodeId, entry.1) }
  | .logs filter =>
    { d with logSubscribers := d.logSubscribers ++ [⟨nodeId, entry.1, filter⟩] }

def registerInputs (nodeId : NodeId) (inputs : TreeMap DataId Input) : RunningDataflow :=
  inputs.toList.foldl (registerInput nodeId) d

/-- One node of the descriptor: a local one is registered and enrolled in the startup cohort unless
it is dynamic; of any other only the outputs it consumes are noted. -/
def spawnNode (spawnNodes : TreeSet NodeId) (d : RunningDataflow) (node : ResolvedNode) :
    RunningDataflow :=
  if spawnNodes.contains node.id then
    let d := d.registerInputs node.id (nodeInputs node)
    if node.kind.dynamic then { d with dynamicNodes := d.dynamicNodes.insert node.id }
    else { d with pendingNodes := d.pendingNodes.insert node.id }
  else
    { d with openExternalMappings := (nodeInputs node).toList.foldl (fun outputs entry =>
        match entry.2.mapping with
        | .user mapping => outputs.insert ⟨mapping.source, mapping.output⟩
        | _ => outputs) d.openExternalMappings }

def spawnDataflow (dataflowId : String) (nodes : ResolvedNodes) (spawnNodes : TreeSet NodeId)
    (exitWhenNodesFinish : Bool) : RunningDataflow :=
  nodes.values.foldl (spawnNode spawnNodes)
    (.new dataflowId (nodes.values.any fun node => !spawnNodes.contains node.id)
      (!exitWhenNodesFinish))

def enteringRouting (node : ResolvedNode) : TreeMap DataId OutputRouting :=
  pinBackpressureSelfLoops node.id (nodeInputs node)
    (addedNodeOutputRouting node.id node.kind.runConfig.outputs d.mappings d.openExternalMappings
      d.dynamicNodes d.inputRequiresBackpressure)

def enteringNode (node : ResolvedNode) (restartPolicy : RestartPolicy) : RunningNode where
  process := !node.kind.dynamic
  dynamic := node.kind.dynamic
  inputs := node.kind.runConfig.inputs
  outputRouting := some (d.enteringRouting node)
  restartPolicy := restartPolicy

/-- `spawned` is the result of preparing and spawning the process. -/
def addNode (node : ResolvedNode) (restartPolicy : RestartPolicy) (spawned : Except String Unit) :
    Except String RunningDataflow :=
  match d.rejectUnpinnableBackpressureInputs node.id (nodeInputs node) with
  | .error err => .error err
  | .ok () =>
    match spawned with
    | .error err => .error err
    | .ok () =>
      let entering := d.enteringNode node restartPolicy
      let d := d.registerInputs node.id (nodeInputs node)
      .ok { d with
        dynamicNodes :=
          if node.kind.dynamic then d.dynamicNodes.insert node.id else d.dynamicNodes
        runningNodes := d.runningNodes.insert node.id entering }

def removeOutput (now : Nat) (d : RunningDataflow) (output : OutputId) : RunningDataflow :=
  { d with mappings := d.mappings.erase output }.closeInputs now (d.mappings.members output).toList

def purgeNode (nodeId : NodeId) : RunningDataflow :=
  forgetNodeBookkeeping (unsubscribeNodeFromTimers { d with
    mappings := d.mappings.retain fun key => key.1 != nodeId
    logSubscribers := d.logSubscribers.filter fun subscriber => subscriber.nodeId != nodeId
    runningNodes := d.runningNodes.erase nodeId
    openInputs := d.openInputs.erase nodeId
    dataInputs := d.dataInputs.erase nodeId
    subscribeChannels := d.subscribeChannels.erase nodeId
    pendingMessages := d.pendingMessages.erase nodeId
    drainSignals := d.drainSignals.erase nodeId
    allInputsClosedAt := d.allInputsClosedAt.erase nodeId
    connectedNodes := d.connectedNodes.erase nodeId
    finishEscalated := d.finishEscalated.erase nodeId } nodeId) nodeId

/-- `RemoveNode` up to the startup barrier: stop the node, close what it feeds, and purge it. -/
def withdrawNode (now : Nat) (nodeId : NodeId) (order : List OutputId) : Except String RunningDataflow :=
  (d.stopSingleNode nodeId).map fun d =>
    let outputs := (Lib.inOrder order d.mappings.keys).filter fun output => output.node == nodeId
    (outputs.foldl (removeOutput now) d).purgeNode nodeId

def removeNode (now : Nat) (nodeId : NodeId) (order : List OutputId) (sender : CoordinatorSender) :
    RunningDataflow × Except String Unit :=
  match d.withdrawNode now nodeId order with
  | .error err => (d, .error err)
  | .ok d =>
    let (pendingNodes, outcome) := d.pendingNodes.handleNodeRemoval nodeId sender
    ({ d with pendingNodes := pendingNodes }, outcome.status.map fun _ => ())

/-- The live input edges of a node; a timer or log subscription overrides a mapping of the same
name. -/
def currentEdges (nodeId : NodeId) (order : List OutputId) : TreeMap DataId InputMapping :=
  let edges := (Lib.inOrder order d.mappings.keys).foldl (fun edges output =>
    ((d.mappings.members output).toList.filter fun key => key.1 == nodeId).foldl (fun edges key =>
      edges.insert key.2 (.user ⟨output.node, output.output⟩)) edges) (∅ : TreeMap DataId InputMapping)
  let edges := d.timers.toList.foldl (fun edges entry =>
    (entry.2.toList.filter fun key => key.1 == nodeId).foldl (fun edges key =>
      edges.insert key.2 (.timer entry.1)) edges) edges
  (d.logSubscribers.filter fun subscriber => subscriber.nodeId == nodeId).foldl
    (fun edges subscriber => edges.insert subscriber.inputId (.logs subscriber.filter)) edges

def EDGE_HINT : String :=
  "`dora node replace` keeps the node's edges — use `dora node remove`/`add` or " ++
    "`dora node connect`/`disconnect` for topology changes"

def checkEdges (newInputs : TreeMap DataId Input) (edges : TreeMap DataId InputMapping) :
    Except String Unit :=
  match newInputs.toList.find? fun entry => edges[entry.1]? != some entry.2.mapping with
  | some entry =>
    if edges.contains entry.1 then
      .error ("replacement remaps input `" ++ entry.1.name ++ "`; " ++ EDGE_HINT)
    else .error ("replacement adds input `" ++ entry.1.name ++ "`; " ++ EDGE_HINT)
  | none =>
    match edges.keys.find? fun inputId => !newInputs.contains inputId with
    | some inputId =>
      .error ("replacement drops input `" ++ inputId.name ++ "`; " ++ EDGE_HINT)
    | none => .ok ()

def checkReplacement (node : ResolvedNode) (order : List OutputId) : Except String Unit :=
  if d.pendingNodes.isPending node.id then
    .error ("node `" ++ node.id.name ++ "` is still starting (startup barrier); " ++
      "retry once the dataflow is ready")
  else if !d.runningNodes.contains node.id then
    .error ("no running node `" ++ node.id.name ++ "` to replace; use `dora node add`")
  else if node.kind.dynamic || (match node.kind with | .custom _ => false | .runtime _ => true) then
    .error ("`dora node replace` currently supports spawned custom nodes only; the replacement " ++
      "definition for `" ++ node.id.name ++ "` is a " ++
      (if node.kind.dynamic then "dynamic" else "runtime/operator") ++
      " node — use `dora node remove` + `dora node add` instead")
  else if d.dynamicNodes.contains node.id then
    .error ("node `" ++ node.id.name ++ "` is a dynamic node; `dora node replace` currently " ++
      "supports spawned custom nodes only — use `dora node remove` + `dora node add` instead")
  else match d.rejectUnpinnableBackpressureInputs node.id (nodeInputs node) with
    | .error err => .error err
    | .ok () =>
      match checkEdges (nodeInputs node) (d.currentEdges node.id order) with
      | .error err => .error err
      | .ok () =>
        match (d.nodeOutputIds node.id).toList.find? fun output =>
          !node.kind.runConfig.outputs.contains output with
        | some output =>
          .error ("replacement does not declare output `" ++ output.name ++
            "`, which downstream nodes consume")
        | none => .ok ()

def rearmDeadlines (nodeId : NodeId) (inputs : TreeMap DataId Input) : RunningDataflow :=
  let stillOpen := d.openInputs.members nodeId
  { d with inputDeadlines := inputs.toList.foldl (fun deadlines entry =>
      match entry.2.mapping, entry.2.inputTimeout with
      | .user _, some timeout =>
        if stillOpen.contains entry.1 then
          deadlines.insert (nodeId, entry.1) { timeout, lastReceived := none }
        else deadlines
      | _, _ => deadlines) d.inputDeadlines }

/-- The commit of a replacement: stop the outgoing incarnation, drop what belonged to it, register
the new one. -/
def commitReplacement (node : ResolvedNode) (entering : RunningNode) : RunningDataflow :=
  let d := (d.send node.id .stop).1
  let d := forgetNodeBookkeeping { d with
    subscribeChannels := d.subscribeChannels.erase node.id
    pendingMessages := d.pendingMessages.erase node.id
    drainSignals := d.drainSignals.erase node.id
    allInputsClosedAt := d.allInputsClosedAt.erase node.id
    connectedNodes := d.connectedNodes.erase node.id
    finishEscalated := d.finishEscalated.erase node.id } node.id
  let d := d.rearmDeadlines node.id (nodeInputs node)
  { d with runningNodes := d.runningNodes.insert node.id entering }

def replaceNode (node : ResolvedNode) (restartPolicy : RestartPolicy) (order : List OutputId)
    (spawned : Except String Unit) : Except String RunningDataflow :=
  match d.checkReplacement node order with
  | .error err => .error err
  | .ok () =>
    match spawned with
    | .error err => .error err
    | .ok () => .ok (d.commitReplacement node (d.enteringNode node restartPolicy))

def removeMapping (now : Nat) (output : OutputId) (key : InputKey) : Except String RunningDataflow :=
  if (d.mappings.members output).contains key then
    .ok (closeInput now { d with mappings := d.mappings.remove output key } key)
  else
    .error ("mapping `" ++ output.node.name ++ "/" ++ output.output.name ++ "` -> `" ++
      key.1.name ++ "/" ++ key.2.name ++ "` not found")

/-! ## 2. Closing outputs -/

def localReceivers (nodeId : NodeId) (outputs : List DataId) : TreeSet InputKey :=
  .ofList (outputs.flatMap fun output => (d.mappings.members ⟨nodeId, output⟩).toList)

/-- `remote` is the result of forwarding the event to other daemons, which is only done for outputs
they consume. -/
def sendOutputClosedEvents (now : Nat) (nodeId : NodeId) (outputs : List DataId)
    (remote : Except String Unit) : RunningDataflow × Except String Unit :=
  let d := d.closeInputs now (d.localReceivers nodeId outputs).toList
  if d.openExternalMappings.toList.any fun output =>
      output.node == nodeId && outputs.contains output.output then (d, remote)
  else (d, .ok ())

def forgetStopped (nodeId : NodeId) : RunningDataflow :=
  { d with
    finishEscalated := d.finishEscalated.erase nodeId
    allInputsClosedAt := d.allInputsClosedAt.erase nodeId
    runningNodes := d.runningNodes.erase nodeId }

def closeStopped (now : Nat) (nodeId : NodeId) (remote : Except String Unit) :
    RunningDataflow × Except String Unit × List DataId :=
  let outputs := (d.nodeOutputIds nodeId).toList
  let sent := d.sendOutputClosedEvents now nodeId outputs remote
  (match sent.2 with
    | .error _ => sent.1
    | .ok () => sent.1.forgetStopped nodeId, sent.2, outputs)

def handleNodeStop (now : Nat) (nodeId : NodeId) (sender : CoordinatorSender)
    (remote : Except String Unit) : RunningDataflow × Except String Unit × List DataId :=
  let stopped := d.pendingNodes.handleNodeStop nodeId sender
  match stopped.2.status with
  | .error err => ({ d with pendingNodes := stopped.1 }, .error err, [])
  | .ok _ => { d with pendingNodes := stopped.1 }.closeStopped now nodeId remote

/-! ## 3. Notices to nodes -/

def affectedInputs (nodeId : NodeId) (order : List OutputId) : List InputKey :=
  ((Lib.inOrder order d.mappings.keys).filter fun output => output.node == nodeId).flatMap
    fun output => (d.mappings.members output).toList

def downstream (nodeId : NodeId) : TreeSet NodeId :=
  .ofList ((d.affectedInputs nodeId []).map Prod.fst)

def notifyRestarted (nodeId : NodeId) : RunningDataflow :=
  d.sendEach (d.downstream nodeId).toList fun _ => .nodeRestarted nodeId

def propagateNodeFailed (nodeId : NodeId) (error : String) (order : List OutputId) :
    RunningDataflow :=
  d.sendEach (d.downstream nodeId).toList fun receiver =>
    .nodeFailed (((d.affectedInputs nodeId order).filter fun key => key.1 == receiver).map Prod.snd)
      error nodeId

def sendReload (nodeId : NodeId) (operatorId : Option String) : RunningDataflow :=
  let sent := d.send nodeId (.reload operatorId)
  if sent.2 = some .closed then sent.1.removeChannels [nodeId] else sent.1

def completeSend (nodeId : NodeId) (event : NodeEvent) : RunningDataflow :=
  match d.subscribeChannels[nodeId]? with
  | none => d
  | some channel =>
    let sent := channel.trySend event
    let d : RunningDataflow := { d with
      subscribeChannels := d.subscribeChannels.insert nodeId sent.1 }
    if sent.2 = .delivered then
      { d.incPending nodeId with outbox := d.outbox ++ [(nodeId, event)] }
    else d

end RunningDataflow

/-! ## 4. Runs -/

/-- One event handled by the daemon's loop, or one move of a task that shares a channel with it.
`now` is the clock, `order` the iteration order of a hash map, `sender` and `remote` the result of
sending to the coordinator or to other daemons, `spawned` the result of starting a process. -/
inductive DataflowOp where
  | addNode (node : ResolvedNode) (restartPolicy : RestartPolicy) (spawned : Except String Unit)
  | removeNode (now : Nat) (nodeId : NodeId) (order : List OutputId) (sender : CoordinatorSender)
  | replaceNode (node : ResolvedNode) (restartPolicy : RestartPolicy) (order : List OutputId)
      (spawned : Except String Unit)
  | addMapping (output : OutputId) (key : InputKey)
  | removeMapping (now : Nat) (output : OutputId) (key : InputKey)
  | stopAll (sender : CoordinatorSender)
  | stopNode (nodeId : NodeId)
  | restartNode (nodeId : NodeId)
  | allNodesReady (exitedBeforeSubscribe : List NodeId)
  | subscribe (now : Nat) (nodeId : NodeId) (order : List OutputId) (reply : Nat)
      (sender : CoordinatorSender)
  | closeOutputs (now : Nat) (nodeId : NodeId) (outputs : List DataId) (remote : Except String Unit)
  | outputsDone (now : Nat) (nodeId : NodeId) (remote : Except String Unit)
  | sendOut (now : Nat) (output : OutputId) (metadata : Metadata) (data : Option DataMessage)
      (mayHold : Bool)
  | outputSent (now : Nat) (output : OutputId)
  | eventStreamDropped (nodeId : NodeId)
  | nodeSpawned (nodeId : NodeId) (node : RunningNode)
  | nodeRestarts (nodeId : NodeId)
  | nodeFailed (nodeId : NodeId) (error : String) (order : List OutputId)
  | nodeStop (now : Nat) (nodeId : NodeId) (sender : CoordinatorSender)
      (remote : Except String Unit)
  | outputClosed (now : Nat) (output : OutputId)
  | checkInputTimeouts (now : Nat) (order : List InputKey)
  | timer (interval : Duration) (metadata : Metadata)
  | logs (output : OutputId) (message : DataMessage) (metadata : Metadata)
  | logBroadcast (level : LogLevelOrStdout) (source : Option NodeId) (metadata : Metadata)
      (sample : DataMessage)
  | reload (nodeId : NodeId) (operatorId : Option String)
  | setParam (nodeId : NodeId) (key : String) (valueJson : List UInt8)
  | deleteParam (nodeId : NodeId) (key : String)
  | extensionDropped (touchedBy : TreeSet NodeId) («namespace» key : String)
  | heldDelivery (key : InputKey) (metadata : Metadata) (data : Option DataMessage)
  | lateRestartNotice (receiver restarted : NodeId)
  | gaveUp (nodeId : NodeId) (flag : Bool)
  | listenerTakes (nodeId : NodeId) (count : Nat)
  | listenerGone (nodeId : NodeId)

abbrev Edge := OutputId × InputKey

instance edgeLawfulBEq : LawfulBEq Edge := inferInstance

structure OpOutcome where
  reply : Except String Unit := .ok ()
  linked : List Edge := []
  closed : List OutputId := []

def inputEdge (nodeId : NodeId) (entry : DataId × Input) : Option Edge :=
  match entry.2.mapping with
  | .user mapping => some (⟨mapping.source, mapping.output⟩, (nodeId, entry.1))
  | _ => none

def inputEdges (nodeId : NodeId) (inputs : TreeMap DataId Input) : List Edge :=
  inputs.toList.filterMap (inputEdge nodeId)

def inputKeys (nodeId : NodeId) (inputs : TreeMap DataId Input) : List InputKey :=
  inputs.toList.map fun entry => (nodeId, entry.1)

namespace RunningDataflow

def orUnchanged (d : RunningDataflow) (result : Except String RunningDataflow)
    (linked : List Edge) : RunningDataflow × OpOutcome :=
  match result with
  | .ok d' => (d', { linked })
  | .error err => (d, { reply := .error err })

def outputsOf (nodeId : NodeId) (outputs : List DataId) : List OutputId :=
  outputs.map fun output => ⟨nodeId, output⟩

def apply (d : RunningDataflow) : DataflowOp → RunningDataflow × OpOutcome
  | .addNode node restartPolicy spawned =>
    d.orUnchanged (d.addNode node restartPolicy spawned) (inputEdges node.id (nodeInputs node))
  | .removeNode now nodeId order sender =>
    let (d, reply) := d.removeNode now nodeId order sender
    (d, { reply })
  | .replaceNode node restartPolicy order spawned =>
    d.orUnchanged (d.replaceNode node restartPolicy order spawned) []
  | .addMapping output key =>
    (d.addMapping output.node output.output key.1 key.2, { linked := [(output, key)] })
  | .removeMapping now output key => d.orUnchanged (d.removeMapping now output key) []
  | .stopAll sender =>
    let (d, reply) := d.stopAll sender
    (d, { reply })
  | .stopNode nodeId => d.orUnchanged (d.stopSingleNode nodeId) []
  | .restartNode nodeId => d.orUnchanged (d.restartSingleNode nodeId) []
  | .allNodesReady exited =>
    let (pendingNodes, _) := d.pendingNodes.handleExternalAllNodesReady exited
    ({ d with pendingNodes }, {})
  | .subscribe now nodeId order reply sender =>
    let d := { d with
      pendingMessages := d.pendingMessages.insert nodeId 0
      drainSignals := d.drainSignals.insert nodeId {} }.subscribe now nodeId order
    let (pendingNodes, outcome) := d.pendingNodes.handleNodeSubscription nodeId reply sender
    ({ d with pendingNodes }, { reply := outcome.status.map fun _ => () })
  | .closeOutputs now nodeId outputs remote =>
    if d.mightRestart nodeId then (d, {})
    else
      let (d, reply) := d.sendOutputClosedEvents now nodeId outputs remote
      (d, { reply, closed := outputsOf nodeId outputs })
  | .outputsDone now nodeId remote =>
    if d.mightRestart nodeId then (d, {})
    else
      let outputs := (d.nodeOutputIds nodeId).toList
      let (d, reply) := d.sendOutputClosedEvents now nodeId outputs remote
      (d, { reply, closed := outputsOf nodeId outputs })
  | .sendOut now output metadata data mayHold =>
    (d.sendOutputToLocalReceivers now output metadata data mayHold, {})
  | .outputSent now output => (d.noteOutputSentToLocalReceivers now output, {})
  | .eventStreamDropped nodeId => (d.markEventStreamDropped nodeId, {})
  | .nodeSpawned nodeId node => ({ d with runningNodes := d.runningNodes.insert nodeId node }, {})
  | .nodeRestarts nodeId => ((d.resetIncarnationState nodeId).notifyRestarted nodeId, {})
  | .nodeFailed nodeId error order =>
    ((d.resetIncarnationState nodeId).propagateNodeFailed nodeId error order, {})
  | .nodeStop now nodeId sender remote =>
    let stopped := d.handleNodeStop now nodeId sender remote
    (stopped.1, { reply := stopped.2.1, closed := outputsOf nodeId stopped.2.2 })
  | .outputClosed now output =>
    (d.closeInputs now (d.mappings.members output).toList, { closed := [output] })
  | .checkInputTimeouts now order => (d.checkInputTimeouts now order, {})
  | .timer interval metadata => (d.timerEvent interval metadata, {})
  | .logs output message metadata => (d.logsEvent output message metadata, {})
  | .logBroadcast level source metadata sample => (d.logBroadcast level source metadata sample, {})
  | .reload nodeId operatorId => (d.sendReload nodeId operatorId, {})
  | .setParam nodeId key valueJson => ((d.send nodeId (.paramUpdate key valueJson)).1, {})
  | .deleteParam nodeId key => ((d.send nodeId (.paramDeleted key)).1, {})
  | .extensionDropped touchedBy «namespace» key =>
    (d.sendEach touchedBy.toList fun _ => .extensionDropped «namespace» key, {})
  | .heldDelivery key metadata data => (d.completeSend key.1 (.input key.2 metadata data), {})
  | .lateRestartNotice receiver restarted => (d.completeSend receiver (.nodeRestarted restarted), {})
  | .gaveUp nodeId flag =>
    ({ d with drainSignals := d.drainSignals.modify nodeId ({ · with gaveUp := flag }) }, {})
  | .listenerTakes nodeId count =>
    ({ d with subscribeChannels := d.subscribeChannels.modify nodeId (·.take count) }, {})
  | .listenerGone nodeId =>
    ({ d with subscribeChannels := d.subscribeChannels.modify nodeId Channel.dropReceiver }, {})

end RunningDataflow

structure TrackedDataflow where
  dataflow : RunningDataflow
  closedEdges : List Edge

namespace TrackedDataflow

def spawn (dataflowId : String) (nodes : ResolvedNodes) (spawnNodes : TreeSet NodeId)
    (exitWhenNodesFinish : Bool) : TrackedDataflow where
  dataflow := .spawnDataflow dataflowId nodes spawnNodes exitWhenNodesFinish
  closedEdges := []

def closing (d : RunningDataflow) (outcome : OpOutcome) : List Edge :=
  outcome.closed.flatMap fun output => (d.mappings.members output).toList.map fun key => (output, key)

def cleared (s : TrackedDataflow) : RunningDataflow := { s.dataflow with outbox := [] }

def step (s : TrackedDataflow) (op : DataflowOp) : TrackedDataflow × OpOutcome :=
  let (dataflow, outcome) := s.cleared.apply op
  ({ dataflow
     closedEdges := (s.closedEdges ++ closing s.dataflow outcome).filter (· ∉ outcome.linked) },
    outcome)

end TrackedDataflow

end Dora
