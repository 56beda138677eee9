import Dora.Daemon.RunningDataflow

/-!
# Local delivery (`binaries/daemon/src/local_delivery.rs`, `dora_events.rs`, `node_events.rs`)

Delivering an output to its local receivers, and closing or breaking an input when its producer goes
away or falls silent. A broken input leaves `openInputs` but keeps an entry in `brokenInputs`, and
the next delivery re-opens it.
-/

namespace Dora

open Std

/-- What becomes of an event offered to a receiver; `held` means that the producer's listener keeps
it until there is room. -/
inductive Offer where
  | sent
  | held
  | refused
  | closed
deriving DecidableEq

def LogSubscriber.wants (subscriber : LogSubscriber) (level : LogLevelOrStdout)
    (source : Option NodeId) : Bool :=
  subscriber.filter.minLevel.all (fun min => level.passes min) &&
    subscriber.filter.nodeFilter.all (fun node => source == some node) &&
    source != some subscriber.nodeId

namespace RunningDataflow

variable (d : RunningDataflow)

def announceIfFinished (now : Nat) (receiverId : NodeId) : RunningDataflow :=
  if d.isFinished receiverId then
    let sent := d.send receiverId .allInputsClosed
    if sent.2 = some .delivered then
      { sent.1 with allInputsClosedAt := sent.1.allInputsClosedAt.insert receiverId now }
    else sent.1
  else d

def disableRestartIfDrained (nodeId : NodeId) : RunningDataflow :=
  if ((d.openInputs.members nodeId).isEmpty || d.isDrained nodeId) && !d.hasBrokenInput nodeId then
    d.disableRestart nodeId
  else d

def signalAllInputsClosedIfDrained (now : Nat) (receiverId : NodeId) : RunningDataflow :=
  match d.subscribeChannels[receiverId]? with
  | none => d
  | some _ => (d.disableRestartIfDrained receiverId).announceIfFinished now receiverId

def dropInput (key : InputKey) : RunningDataflow :=
  { d with
    brokenInputs := d.brokenInputs.erase key
    inputDeadlines := d.inputDeadlines.erase key
    openInputs := d.openInputs.remove key.1 key.2 }

/-- Nothing is announced for an input that was neither open nor broken, and `InputClosed` only for
one that was open. -/
def closeInput (now : Nat) (d : RunningDataflow) (key : InputKey) : RunningDataflow :=
  let wasBroken := d.brokenInputs.contains key
  let wasOpen := (d.openInputs.members key.1).contains key.2
  let dropped := d.dropInput key
  if !wasOpen && !wasBroken then dropped
  else
    (if wasOpen then (dropped.send key.1 (.inputClosed key.2)).1 else dropped
      ).signalAllInputsClosedIfDrained now key.1

def closeInputs (now : Nat) (keys : List InputKey) : RunningDataflow :=
  keys.foldl (closeInput now) d

/-- The caller has put `key` into `brokenInputs`; an input that is already closed is taken out
again. -/
def breakInput (now : Nat) (key : InputKey) : RunningDataflow :=
  if d.openInputs.contains key.1 && !(d.openInputs.members key.1).contains key.2 then
    { d with brokenInputs := d.brokenInputs.erase key }
  else
    ({ d with openInputs := d.openInputs.remove key.1 key.2 }.send key.1 (.inputClosed key.2)
      ).1.signalAllInputsClosedIfDrained now key.1

/-- The inputs whose deadline has passed and which are not broken yet, with their timeouts. -/
def timedOut (now : Nat) (order : List InputKey) : List (InputKey × Duration) :=
  (Lib.inOrder order d.inputDeadlines.keys).filterMap fun key =>
    if d.brokenInputs.contains key then none
    else match d.inputDeadlines[key]? with
      | some deadline => if deadline.isTimedOut now then some (key, deadline.timeout) else none
      | none => none

def expireInput (now : Nat) (d : RunningDataflow) (entry : InputKey × Duration) : RunningDataflow :=
  { d with brokenInputs := d.brokenInputs.insert entry.1 entry.2 }.breakInput now entry.1

def checkInputTimeouts (now : Nat) (order : List InputKey) : RunningDataflow :=
  let expired := d.timedOut now order
  let d := expired.foldl (expireInput now) d
  { d with
    inputDeadlines :=
      expired.foldl (fun deadlines entry => deadlines.erase entry.1) d.inputDeadlines }

def refreshDeadline (now : Nat) (key : InputKey) : RunningDataflow :=
  { d with inputDeadlines := d.inputDeadlines.modify key ({ · with lastReceived := some now }) }

def recoverInput (now : Nat) (key : InputKey) : RunningDataflow :=
  match d.brokenInputs[key]? with
  | none => d
  | some timeout =>
    let d : RunningDataflow := { d with
      brokenInputs := d.brokenInputs.erase key
      openInputs := d.openInputs.add key.1 key.2
      inputDeadlines := d.inputDeadlines.insert key { timeout, lastReceived := some now } }
    (d.send key.1 (.inputRecovered key.2)).1

/-- One receiver of an `OutputSent` notification; a receiver without a channel or behind its headroom
is not keeping up. -/
def noteOutputSentTo (now : Nat) (d : RunningDataflow) (key : InputKey) : RunningDataflow :=
  match d.subscribeChannels[key.1]? with
  | none => d
  | some channel =>
    if CONTROL_EVENT_HEADROOM ≤ channel.capacity then
      (d.refreshDeadline now key).recoverInput now key
    else d

def noteOutputSentToLocalReceivers (now : Nat) (output : OutputId) : RunningDataflow :=
  if d.inputDeadlines.isEmpty && d.brokenInputs.isEmpty then d
  else (d.mappings.members output).toList.foldl (noteOutputSentTo now) d

/-- Offer a data event; `mayHold` is whether the caller has a place for held deliveries. -/
def offerEvent (channel : Channel) (key : InputKey) (event : NodeEvent) (mayHold : Bool) :
    RunningDataflow × Offer :=
  let whenFull : Offer :=
    if mayHold && d.inputRequiresBackpressure key.1 key.2 &&
        d.drainSignals[key.1]?.any (fun signal => !signal.gaveUp) then .held
    else .refused
  if channel.capacity < CONTROL_EVENT_HEADROOM then (d, whenFull)
  else
    let sent := channel.trySend event
    match sent.2 with
    | .delivered =>
      ({ d.incPending key.1 with
          subscribeChannels := d.subscribeChannels.insert key.1 sent.1
          outbox := d.outbox ++ [(key.1, event)] }, .sent)
    | .closed => (d, .closed)
    | .dropped => (d, whenFull)

def deliverTo (now : Nat) (metadata : Metadata) (data : Option DataMessage) (mayHold : Bool)
    (state : RunningDataflow × List NodeId) (key : InputKey) : RunningDataflow × List NodeId :=
  let d := state.1
  match d.subscribeChannels[key.1]? with
  | some channel =>
    let offered := d.offerEvent channel key (.input key.2 metadata data) mayHold
    match offered.2 with
    | .sent | .held => ((offered.1.refreshDeadline now key).recoverInput now key, state.2)
    | .refused => (offered.1, state.2)
    | .closed => (offered.1, state.2 ++ [key.1])
  | none =>
    if d.runningNodes.contains key.1 && !d.droppedEventStreams.contains key.1 then
      ({ d with missingChannelWarned := d.missingChannelWarned.insert key }, state.2)
    else state

def removeChannels (closed : List NodeId) : RunningDataflow :=
  { d with
    subscribeChannels :=
      closed.foldl (fun channels nodeId => channels.erase nodeId) d.subscribeChannels }

def sendOutputToLocalReceivers (now : Nat) (output : OutputId) (metadata : Metadata)
    (data : Option DataMessage) (mayHold : Bool) : RunningDataflow :=
  let delivered := (d.mappings.members output).toList.foldl
    (deliverTo now metadata data mayHold) (d, [])
  delivered.1.removeChannels delivered.2

def rejectUnpinnableBackpressureInputs (nodeId : NodeId) (inputs : TreeMap DataId Input) :
    Except String Unit :=
  match d.unpinnableBackpressureInput nodeId inputs with
  | some (inputId, output) =>
    .error ("input `" ++ inputId.name ++ "` declares `queue_policy: backpressure`, but its " ++
      "producer `" ++ output.node.name ++ "` is already running with output `" ++
      output.output.name ++ "` on the direct zenoh path, which cannot honor that policy (a " ++
      "producer learns its routing only when it starts); start or `dora node replace` the " ++
      "producer after this consumer is in the dataflow, or use `queue_policy: drop_oldest`")
  | none => .ok ()

def broadcastTo (event : DataId → NodeEvent) (state : RunningDataflow × List NodeId)
    (key : InputKey) : RunningDataflow × List NodeId :=
  let sent := state.1.send key.1 (event key.2)
  (sent.1, if sent.2 = some .closed then state.2 ++ [key.1] else state.2)

/-- Send one data event to each of the given inputs and forget the channels found closed. Timers,
log lines and log broadcasts go out this way. -/
def broadcast (receivers : List InputKey) (event : DataId → NodeEvent) :
    RunningDataflow × List NodeId :=
  let sent := receivers.foldl (broadcastTo event) (d, [])
  (sent.1.removeChannels sent.2, sent.2)

def timerEvent (interval : Duration) (metadata : Metadata) : RunningDataflow :=
  (d.broadcast (d.timers.members interval).toList fun inputId => .input inputId metadata none).1

def logsEvent (output : OutputId) (message : DataMessage) (metadata : Metadata) : RunningDataflow :=
  (d.broadcast (d.mappings.members output).toList
    fun inputId => .input inputId metadata (some message)).1

def logBroadcast (level : LogLevelOrStdout) (source : Option NodeId) (metadata : Metadata)
    (sample : DataMessage) : RunningDataflow :=
  let wanted := d.logSubscribers.filter fun subscriber =>
    subscriber.wants level source
  let sent := d.broadcast (wanted.map fun subscriber => (subscriber.nodeId, subscriber.inputId))
    fun inputId => .input inputId metadata (some sample)
  { sent.1 with logSubscribers := sent.1.logSubscribers.filter fun subscriber =>
    !sent.2.contains subscriber.nodeId }

def closedInputs (nodeId : NodeId) (order : List OutputId) : List DataId :=
  (((Lib.inOrder order d.mappings.keys).flatMap fun output =>
    (d.mappings.members output).toList).filter fun key =>
      key.1 == nodeId && !(d.openInputs.members nodeId).contains key.2).map Prod.snd

def replayClosed (nodeId : NodeId) (inputs : List DataId) : RunningDataflow × Channel :=
  inputs.foldl (fun state inputId =>
    let sent := RunningDataflow.sendOn state.1 state.2 nodeId (.inputClosed inputId)
    (sent.1, sent.2.1)) (d, Channel.fresh)

def greetFinished (now : Nat) (nodeId : NodeId) (channel : Channel) : RunningDataflow × Channel :=
  if d.isFinishedNonSource nodeId then
    let sent := d.sendOn channel nodeId .allInputsClosed
    if sent.2.2 = .delivered then
      ({ sent.1 with allInputsClosedAt := sent.1.allInputsClosedAt.insert nodeId now }, sent.2.1)
    else (sent.1, sent.2.1)
  else (d, channel)

def greet (now : Nat) (nodeId : NodeId) (channel : Channel) : RunningDataflow × Channel :=
  let state := (d.disableRestartIfDrained nodeId).greetFinished now nodeId channel
  if state.1.stopSent then
    let sent := (state.1.disableRestart nodeId).sendOn state.2 nodeId .stop
    (sent.1, sent.2.1)
  else state

/-- Make `channel` the node's event channel. -/
def install (nodeId : NodeId) (channel : Channel) : RunningDataflow :=
  { d with
    missingChannelWarned := d.missingChannelWarned.filter fun key => key.1 != nodeId
    droppedEventStreams := d.droppedEventStreams.erase nodeId
    subscribeChannels := d.subscribeChannels.insert nodeId channel }

def subscribe (now : Nat) (nodeId : NodeId) (order : List OutputId) : RunningDataflow :=
  let d : RunningDataflow := { d with connectedNodes := d.connectedNodes.insert nodeId }
  let replayed := d.replayClosed nodeId (d.closedInputs nodeId order)
  let greeted := replayed.1.greet now nodeId replayed.2
  greeted.1.install nodeId greeted.2

end RunningDataflow

end Dora
