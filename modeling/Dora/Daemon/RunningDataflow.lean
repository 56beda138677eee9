import Dora.Daemon.Channel
import Dora.Daemon.OutputRouting
import Dora.Daemon.Pending
import Dora.Lib.MultiMap

/-!
# The state of a running dataflow (`binaries/daemon/src/running_dataflow.rs`)

What the daemon keeps for one dataflow: the edges between its nodes, which inputs are open, which
are circuit-broken and which have a deadline, and the event channel of every node that has
subscribed. `Instant::now()` is an argument of the functions that read the clock.
-/

namespace Dora

open Std

abbrev InputKey := NodeId × DataId

structure InputDeadline where
  timeout : Duration
  /-- `none` until the first message arrives. -/
  lastReceived : Option Nat
deriving DecidableEq

def InputDeadline.isTimedOut (deadline : InputDeadline) (now : Nat) : Bool :=
  match deadline.lastReceived with
  | some received => deadline.timeout < now - received
  | none => false

inductive RestartPolicy where
  | never
  | onFailure
  | always
deriving DecidableEq, Repr

structure RunningNode where
  /-- Whether the process slot holds a handle. -/
  process : Bool
  dynamic : Bool
  inputs : TreeMap DataId Input
  outputRouting : Option (TreeMap DataId OutputRouting)
  restartPolicy : RestartPolicy
  disableRestart : Bool := false

structure LogSubscriber where
  nodeId : NodeId
  inputId : DataId
  filter : LogSubscriptionFilter

structure DrainSignal where
  gaveUp : Bool := false
  streamDropped : Bool := false

structure RunningDataflow where
  pendingNodes : PendingNodes
  subscribeChannels : TreeMap NodeId Channel
  pendingMessages : TreeMap NodeId Nat
  drainSignals : TreeMap NodeId DrainSignal
  mappings : Lib.MultiMap OutputId InputKey
  missingChannelWarned : TreeSet InputKey
  droppedEventStreams : TreeSet NodeId
  timers : Lib.MultiMap Duration InputKey
  logSubscribers : List LogSubscriber
  openInputs : Lib.MultiMap NodeId DataId
  inputDeadlines : TreeMap InputKey InputDeadline
  brokenInputs : TreeMap InputKey Duration
  runningNodes : TreeMap NodeId RunningNode
  dynamicNodes : TreeSet NodeId
  openExternalMappings : TreeSet OutputId
  allInputsClosedAt : TreeMap NodeId Nat
  connectedNodes : TreeSet NodeId
  finishEscalated : TreeSet NodeId
  dataInputs : Lib.MultiMap NodeId DataId
  timersGateDrain : Bool
  stopSent : Bool
  /-- Not in the source: the events the current operation has put on event channels. -/
  outbox : List (NodeId × NodeEvent)

namespace RunningDataflow

def new (dataflowId : String) (externalNodes timersGateDrain : Bool) : RunningDataflow where
  pendingNodes := .new dataflowId externalNodes
  subscribeChannels := ∅
  pendingMessages := ∅
  drainSignals := ∅
  mappings := ∅
  missingChannelWarned := ∅
  droppedEventStreams := ∅
  timers := ∅
  logSubscribers := []
  openInputs := ∅
  inputDeadlines := ∅
  brokenInputs := ∅
  runningNodes := ∅
  dynamicNodes := ∅
  openExternalMappings := ∅
  allInputsClosedAt := ∅
  connectedNodes := ∅
  finishEscalated := ∅
  dataInputs := ∅
  timersGateDrain := timersGateDrain
  stopSent := false
  outbox := []

variable (d : RunningDataflow)

def hasBrokenInput (nodeId : NodeId) : Bool := d.brokenInputs.keys.any fun key => key.1 == nodeId

def hasDataInput (nodeId : NodeId) : Bool := !(d.dataInputs.members nodeId).isEmpty

/-- No open input left; or, where timers do not count, no open data input of at least one. -/
def isDrained (nodeId : NodeId) : Bool :=
  let «open» := d.openInputs.members nodeId
  if d.timersGateDrain then «open».isEmpty
  else
    d.hasDataInput nodeId &&
      (d.dataInputs.members nodeId).toList.all fun inputId => !«open».contains inputId

def isFinished (nodeId : NodeId) : Bool := d.isDrained nodeId && !d.hasBrokenInput nodeId

def isFinishedNonSource (nodeId : NodeId) : Bool := d.isFinished nodeId && d.hasDataInput nodeId

def inputRequiresBackpressure (receiver : NodeId) (inputId : DataId) : Bool :=
  d.runningNodes[receiver]?.any fun node => node.inputs[inputId]?.any inputIsBackpressure

/-- The first backpressure input of an entering node whose producer already runs here with that
output off the daemon path. -/
def unpinnableBackpressureInput (nodeId : NodeId) (inputs : TreeMap DataId Input) :
    Option (DataId × OutputId) :=
  inputs.toList.findSome? fun entry =>
    match entry.2.mapping with
    | .user mapping =>
      if inputIsBackpressure entry.2 && mapping.source != nodeId then
        match d.runningNodes[mapping.source]? with
        | none => none
        | some producer =>
          let pinned := match producer.outputRouting with
            | none => true
            | some routing => routing[mapping.output]?.any OutputRouting.daemonOnly
          if pinned then none else some (entry.1, ⟨mapping.source, mapping.output⟩)
      else none
    | _ => none

def nodeOutputIds (nodeId : NodeId) : TreeSet DataId :=
  .ofList (((d.mappings.keys ++ d.openExternalMappings.toList).filter fun output =>
    output.node == nodeId).map OutputId.output)

def mightRestart (nodeId : NodeId) : Bool :=
  d.runningNodes[nodeId]?.any fun node =>
    match node.restartPolicy with
    | .never => false
    | .onFailure | .always => !node.disableRestart

def incPending (nodeId : NodeId) : RunningDataflow :=
  { d with pendingMessages := d.pendingMessages.modify nodeId (· + 1) }

def sendOn (channel : Channel) (nodeId : NodeId) (event : NodeEvent) :
    RunningDataflow × Channel × SendResult :=
  let sent := channel.sendWithTimestamp event
  if sent.2 = .delivered then
    ({ d.incPending nodeId with outbox := d.outbox ++ [(nodeId, event)] }, sent.1, sent.2)
  else (d, sent.1, sent.2)

def send (nodeId : NodeId) (event : NodeEvent) : RunningDataflow × Option SendResult :=
  match d.subscribeChannels[nodeId]? with
  | none => (d, none)
  | some channel =>
    let sent := d.sendOn channel nodeId event
    ({ sent.1 with subscribeChannels := sent.1.subscribeChannels.insert nodeId sent.2.1 },
      some sent.2.2)

def disableRestart (nodeId : NodeId) : RunningDataflow :=
  { d with runningNodes := d.runningNodes.modify nodeId ({ · with disableRestart := true }) }

def addMapping (sourceNode : NodeId) (sourceOutput : DataId) (targetNode : NodeId)
    (targetInput : DataId) : RunningDataflow :=
  { d with
    mappings := d.mappings.add ⟨sourceNode, sourceOutput⟩ (targetNode, targetInput)
    allInputsClosedAt := d.allInputsClosedAt.erase targetNode
    openInputs := d.openInputs.add targetNode targetInput
    dataInputs := d.dataInputs.add targetNode targetInput }

def forgetNodeBookkeeping (nodeId : NodeId) : RunningDataflow :=
  { d with
    inputDeadlines := d.inputDeadlines.filter fun key _ => key.1 != nodeId
    brokenInputs := d.brokenInputs.filter fun key _ => key.1 != nodeId
    missingChannelWarned := d.missingChannelWarned.filter fun key => key.1 != nodeId
    droppedEventStreams := d.droppedEventStreams.erase nodeId }

def markEventStreamDropped (nodeId : NodeId) : RunningDataflow :=
  { d with
    subscribeChannels := d.subscribeChannels.erase nodeId
    droppedEventStreams := d.droppedEventStreams.insert nodeId
    drainSignals := d.drainSignals.modify nodeId ({ · with streamDropped := true }) }

def resetIncarnationState (nodeId : NodeId) : RunningDataflow :=
  { d with
    allInputsClosedAt := d.allInputsClosedAt.erase nodeId
    connectedNodes := d.connectedNodes.erase nodeId
    droppedEventStreams := d.droppedEventStreams.erase nodeId }

def unsubscribeNodeFromTimers (nodeId : NodeId) : RunningDataflow :=
  { d with
    timers := (d.timers.retain fun key => key.1 != nodeId).filter fun _ keys => !keys.isEmpty }

def disableAllRestarts : RunningDataflow :=
  { d with runningNodes := d.runningNodes.map fun _ node =>
      { node with disableRestart := true, process := false } }

/-- Send to several nodes what `event` says. -/
def sendEach (receivers : List NodeId) (event : NodeId → NodeEvent) : RunningDataflow :=
  receivers.foldl (fun d receiver => (d.send receiver (event receiver)).1) d

/-- Every installed channel gets a `Stop` and is dropped. -/
def drainChannels : RunningDataflow :=
  { d.sendEach d.subscribeChannels.keys (fun _ => .stop) with subscribeChannels := ∅ }

def stopAll (sender : CoordinatorSender) : RunningDataflow × Except String Unit :=
  let (pendingNodes, outcome) := d.pendingNodes.handleDataflowStop d.dynamicNodes sender
  let d : RunningDataflow := { d with pendingNodes := pendingNodes }
  match outcome.status with
  | .error err => (d, .error err)
  | .ok _ => ({ d.disableAllRestarts.drainChannels with stopSent := true }, .ok ())

def stopSingleNode (nodeId : NodeId) : Except String RunningDataflow :=
  match d.runningNodes[nodeId]? with
  | none => .error ("node `" ++ nodeId.name ++ "` not found in running dataflow")
  | some _ =>
    let d : RunningDataflow := { d with
      runningNodes := d.runningNodes.modify nodeId
        ({ · with disableRestart := true, process := false }) }
    .ok (d.send nodeId .stop).1

def restartSingleNode (nodeId : NodeId) : Except String RunningDataflow :=
  match d.runningNodes[nodeId]? with
  | none => .error ("node `" ++ nodeId.name ++ "` not found in running dataflow")
  | some node =>
    if node.process then
      let d : RunningDataflow := { d with
        runningNodes := d.runningNodes.modify nodeId
          ({ · with disableRestart := false, process := false })
        allInputsClosedAt := d.allInputsClosedAt.erase nodeId
        connectedNodes := d.connectedNodes.erase nodeId
        finishEscalated := d.finishEscalated.erase nodeId }
      .ok (d.send nodeId .stop).1
    else
      .error ("node `" ++ nodeId.name ++ "` is not in a restartable state (process slot is empty;" ++
        " the node is between restarts or has already exited terminally)")

end RunningDataflow

end Dora
