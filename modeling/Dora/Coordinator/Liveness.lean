import Dora.Coordinator.Lifecycle

/-!
# The start barrier, lost daemons and returning ones (`ready_barrier.rs`, `daemon_liveness.rs`)

A dataflow on several daemons starts when `AllNodesReady` is broadcast to them. A daemon that is lost
leaves the member sets of its dataflows; a dataflow that has lost all of them leaves the map until a
daemon reports it again.
-/

namespace Dora.Coord

open Std Lib

namespace Coordinator

/-! ## The ready barrier -/

def allNodesReadyMessage (uuid : DataflowId) (df : RunningDataflow) : Command :=
  .allNodesReady uuid df.exitedBeforeSubscribe

/-- The status with which `persist_ready_barrier_release` writes the record: a failed barrier never
promotes it. -/
def releaseStatus (s : Coordinator) (uuid : DataflowId) (df : RunningDataflow) : DataflowStatus :=
  if df.exitedBeforeSubscribe.isEmpty then .running
  else
    match s.getDataflow uuid with
    | some existing => existing.status
    | none => .pending

/-- `release_barrier_message` and `persist_ready_barrier_release` -/
def releaseBarrier (s : Coordinator) (uuid : DataflowId) (df : RunningDataflow) : Coordinator :=
  s.persist uuid { df with readyBarrierReleased := true } (s.releaseStatus uuid df)

def sendAll (s : Coordinator) (daemons : List DaemonId) (command : Command) : Coordinator :=
  daemons.foldl (fun s daemonId => s.send daemonId command) s

def broadcastAllNodesReady (s : Coordinator) (uuid : DataflowId) (df : RunningDataflow) :
    Coordinator :=
  ((s.releaseBarrier uuid df).emit (.broadcast uuid df.daemons)).sendAll df.daemons.toList
    (allNodesReadyMessage uuid df)

/-- `DataflowEvent::ReadyOnDaemon` -/
def handleReadyOnDaemon (s : Coordinator) (uuid : DataflowId) (daemonId : DaemonId)
    (exitedBeforeSubscribe : List NodeId) : Coordinator :=
  match s.runningDataflows[uuid]? with
  | none => s
  | some df =>
    let df := df.ready daemonId exitedBeforeSubscribe
    if df.pendingDaemons.isEmpty then s.broadcastAllNodesReady uuid df
    else s.setDataflow uuid df

/-! ## Lost daemons -/

inductive DisconnectAction where
  | releaseReadyBarrier (uuid : DataflowId)
  | reclaimOrphaned (uuid : DataflowId)

end Coordinator

def RunningDataflow.dropDaemons (df : RunningDataflow) (gone : List DaemonId) : RunningDataflow :=
  { df with
    daemons := df.daemons.filter (· ∉ gone)
    pendingDaemons := df.pendingDaemons.filter (· ∉ gone)
    pendingSpawnResults := df.pendingSpawnResults.filter (· ∉ gone) }

def RunningDataflow.affectedBy (df : RunningDataflow) (gone : List DaemonId) : Bool :=
  gone.any fun d => d ∈ df.daemons || d ∈ df.pendingDaemons || d ∈ df.pendingSpawnResults

namespace Coordinator

/-- What the caller has to do for an affected entry, which still has the daemons that are gone. -/
def disconnectAction (uuid : DataflowId) (df : RunningDataflow) (gone : List DaemonId) :
    Option DisconnectAction :=
  let left := df.dropDaemons gone
  if left.daemons.isEmpty then
    if df.spawnResult.isCachedOk then some (.reclaimOrphaned uuid) else none
  else if df.spawnResult.isCachedOk && !df.pendingDaemons.isEmpty && left.pendingDaemons.isEmpty then
    some (.releaseReadyBarrier uuid)
  else none

def affectedDataflows (s : Coordinator) (gone : List DaemonId) (order : List DataflowId) :
    List DataflowId :=
  (inOrder order s.runningDataflows.keys).filter fun uuid =>
    match s.runningDataflows[uuid]? with
    | some df => df.affectedBy gone
    | none => false

def disconnectActions (s : Coordinator) (gone : List DaemonId) (affected : List DataflowId) :
    List DisconnectAction :=
  affected.filterMap fun uuid =>
    match s.runningDataflows[uuid]? with
    | some df => disconnectAction uuid df gone
    | none => none

def pruneDaemons (s : Coordinator) (gone : List DaemonId) : Coordinator :=
  { s with
    runningDataflows := s.runningDataflows.map fun _ df =>
      if df.affectedBy gone then df.dropDaemons gone else df }

def cancelRestarts (s : Coordinator) (affected : List DataflowId) : Coordinator :=
  affected.foldl (fun s uuid => s.cancelPendingRestart uuid
    s!"daemon disconnected while restart was pending for dataflow `{uuidText uuid}`") s

def beginOrphanedDataflowReclaim (s : Coordinator) (uuid : DataflowId) : Coordinator :=
  match s.runningDataflows[uuid]? with
  | none => s
  | some df =>
    let s := s.removeDataflow uuid
    let s := s.putDataflow uuid (df.makeRecord .recovering s.now)
    s.answerStops uuid df.stopReplySenders (.okEmpty uuid)

/-- One round of `apply_disconnect_actions`. -/
def applyDisconnectAction (s : Coordinator) : DisconnectAction → Coordinator
  | .releaseReadyBarrier uuid =>
    match s.runningDataflows[uuid]? with
    | some df => s.broadcastAllNodesReady uuid df
    | none => s
  | .reclaimOrphaned uuid => s.beginOrphanedDataflowReclaim uuid

/-- `cleanup_disconnected_daemons_from_running_dataflows` and `apply_disconnect_actions` -/
def cleanupDisconnectedDaemons (s : Coordinator) (gone : List DaemonId) (order : List DataflowId) :
    Coordinator :=
  let affected := s.affectedDataflows gone order
  let actions := s.disconnectActions gone affected
  actions.foldl applyDisconnectAction ((s.pruneDaemons gone).cancelRestarts affected)

def notifyDaemonsAboutDisconnectedPeers (s : Coordinator) (gone : List DaemonId) : Coordinator :=
  gone.foldl (fun s daemonId =>
    s.sendAll s.daemonConnections.keys (.peerDaemonDisconnected daemonId)) s

def disconnect (s : Coordinator) (gone : List DaemonId) (order : List DataflowId) : Coordinator :=
  let s := { s with daemonConnections := s.daemonConnections.filter fun d _ => d ∉ gone }
  (s.cleanupDisconnectedDaemons gone order).notifyDaemonsAboutDisconnectedPeers gone

/-- `DaemonExit`; one from a connection that has been replaced is ignored. -/
def handleDaemonExit (s : Coordinator) (daemonId : DaemonId) (connectionId : ConnectionId)
    (order : List DataflowId) : Coordinator :=
  if s.daemonConnections[daemonId]?.map (·.connectionId) = some connectionId then
    s.disconnect [daemonId] order
  else s

/-! ## Heartbeats -/

def maxConsecutiveHeartbeatSendTimeouts : Nat := 10

inductive HeartbeatSendOutcome where
  | delivered
  | sendFailed
  | timedOut

def heartbeatDisconnectDecision (outcome : HeartbeatSendOutcome) (consecutiveTimeouts : Nat) :
    Nat × Bool :=
  match outcome with
  | .delivered => (0, false)
  | .sendFailed => (0, true)
  | .timedOut =>
    (consecutiveTimeouts + 1, consecutiveTimeouts + 1 ≥ maxConsecutiveHeartbeatSendTimeouts)

def sendOutcome (connection : DaemonConnection) (full : Bool) : HeartbeatSendOutcome :=
  if connection.channelClosed then .sendFailed
  else if full then .timedOut
  else .delivered

def isStale (now : Nat) (connection : DaemonConnection) : Bool := now - connection.lastHeartbeat > 30000

/-- `send_heartbeat_with_timeout`: the connection afterwards and whether to drop it. -/
def heartbeatTo (connection : DaemonConnection) (full : Bool) : DaemonConnection × Bool :=
  let outcome := sendOutcome connection full
  let decision := heartbeatDisconnectDecision outcome connection.consecutiveHeartbeatSendTimeouts
  let frames :=
    match outcome with
    | .delivered => connection.frames ++ [.heartbeat]
    | _ => connection.frames
  ({ connection with consecutiveHeartbeatSendTimeouts := decision.1, frames := frames }, decision.2)

def sendHeartbeats (s : Coordinator) (full : List DaemonId) : Coordinator :=
  { s with
    daemonConnections := s.daemonConnections.map fun daemonId connection =>
      if isStale s.now connection then connection
      else (heartbeatTo connection (daemonId ∈ full)).1 }

def failedWatchdog (s : Coordinator) (full : List DaemonId) : List DaemonId :=
  (s.daemonConnections.toList.filter fun entry =>
    isStale s.now entry.2 || (heartbeatTo entry.2 (entry.1 ∈ full)).2).map Prod.fst

def recoveryTimeoutMillis : Nat := 60000

def expireRecovery (s : Coordinator) (entry : DataflowId × DataflowRecord) : Coordinator :=
  if entry.2.status = .recovering ∧ s.now - entry.2.updatedAt > recoveryTimeoutMillis then
    s.putDataflow entry.1
      { entry.2 with
        status := .failed "recovery timeout (60s): no daemon reconnected" true
        generation := entry.2.generation + 1
        updatedAt := s.now }
  else s

/-- `DaemonHeartbeatInterval`; `full` are the daemons whose command channel stays full. -/
def handleHeartbeatInterval (s : Coordinator) (full : List DaemonId) (order : List DataflowId) :
    Coordinator :=
  let gone := s.failedWatchdog full
  let s := s.sendHeartbeats full
  let s := if gone.isEmpty then s else s.disconnect gone order
  let s := s.checkSpawnTimeouts order
  s.listDataflows.foldl expireRecovery s

def handleDaemonHeartbeat (s : Coordinator) (daemonId : DaemonId) : Coordinator :=
  { s with
    daemonConnections := s.daemonConnections.modify daemonId ({ · with lastHeartbeat := s.now }) }

/-! ## Registration -/

/-- `DaemonRequest::Register`. A daemon is recognised by its machine id while an earlier connection of
it is registered; otherwise it gets a new id. -/
def handleRegister (s : Coordinator) (machineId : Option String) (labels : List (String × String))
    (versionOk : Bool) : Coordinator :=
  if versionOk then
    let existing :=
      match machineId with
      | some id => s.getMatchingDaemonId id
      | none => s.firstUnnamed
    let daemonId := existing.getD ⟨machineId, s.nextUuid⟩
    { s with
      daemonConnections := s.daemonConnections.insert daemonId
        { connectionId := s.nextUuid, labels := labels, lastHeartbeat := s.now } }
  else s

/-! ## Status reports -/

end Coordinator

def RunningDataflow.relink (df : RunningDataflow) (daemonId : DaemonId) (reportedNodes : List NodeId) :
    RunningDataflow :=
  { df with
    daemons := df.daemons.insert daemonId
    pendingDaemons := df.pendingDaemons.erase daemonId
    pendingSpawnResults := df.pendingSpawnResults.erase daemonId
    nodeToDaemon := df.nodeToDaemon.insertMany (reportedNodes.map fun node => (node, daemonId)) }

namespace Coordinator

/-- The new state, and whether a release has to be replayed. -/
def reestablishRunningDataflow (s : Coordinator) (uuid : DataflowId) (record : DataflowRecord)
    (daemonId : DaemonId) (reportedNodes : List NodeId) : Coordinator × Bool :=
  match s.runningDataflows[uuid]? with
  | some df => (s.setDataflow uuid (df.relink daemonId reportedNodes), df.readyBarrierReleased)
  | none =>
    match record.descriptor.resolve with
    | none => (s, false)
    | some nodes =>
      (s.setDataflow uuid (.recovered record nodes daemonId reportedNodes uuid s.now),
        record.readyBarrierReleased)

def replayAllNodesReady (s : Coordinator) (uuid : DataflowId) (daemonId : DaemonId) : Coordinator :=
  match s.runningDataflows[uuid]? with
  | none => s
  | some df => (s.emit (.replay uuid daemonId)).send daemonId (allNodesReadyMessage uuid df)

def readopt (s : Coordinator) (uuid : DataflowId) (record : DataflowRecord) (daemonId : DaemonId)
    (reportedNodes : List NodeId) : Coordinator :=
  let (s, replay) := s.reestablishRunningDataflow uuid record daemonId reportedNodes
  if replay then s.replayAllNodesReady uuid daemonId else s

def stopOrphanedDataflowOnDaemon (s : Coordinator) (uuid : DataflowId) (daemonId : DaemonId) :
    Coordinator :=
  s.send daemonId (.stopDataflow uuid none false)

def promoted (s : Coordinator) (record : DataflowRecord) : DataflowRecord :=
  { record with status := .running, generation := record.generation + 1, updatedAt := s.now }

def reconcile (s : Coordinator) (daemonId : DaemonId) (uuid : DataflowId)
    (reportedNodes : List NodeId) : Coordinator :=
  if s.archivedDataflows.contains uuid then s.stopOrphanedDataflowOnDaemon uuid daemonId
  else
    match s.getDataflow uuid with
    | none => s
    | some record =>
      match record.status with
      | .failed _ false | .pending | .recovering =>
        (s.putDataflow uuid (s.promoted record)).readopt uuid (s.promoted record) daemonId
          reportedNodes
      | .running => s.readopt uuid record daemonId reportedNodes
      | .failed _ true | .succeeded => s.stopOrphanedDataflowOnDaemon uuid daemonId
      | .stopping => s

def recoveryBackoffMillis : Nat := 30000

end Coordinator

def RunningDataflow.backoffOver (df : RunningDataflow) (daemonId : DaemonId) (now : Nat) : Bool :=
  match df.lastRecoveryAttempt[daemonId]? with
  | some last => now - last ≥ Coordinator.recoveryBackoffMillis
  | none => true

namespace Coordinator

/-- Auto-recovery of one dataflow on a daemon whose report is `reported`. -/
def autoRecover (daemonId : DaemonId) (reported : List DataflowId) (s : Coordinator)
    (uuid : DataflowId) : Coordinator :=
  match s.runningDataflows[uuid]? with
  | none => s
  | some df =>
    if daemonId ∉ df.daemons then s
    else if uuid ∈ reported then
      s.setDataflow uuid { df with lastRecoveryAttempt := df.lastRecoveryAttempt.erase daemonId }
    else if !df.backoffOver daemonId s.now then s
    else if daemonId ∈ df.pendingSpawnResults then s
    else if df.spawnResult.isTerminalError then s
    else if (df.nodesOnDaemon daemonId).isEmpty then s
    else
      (s.setDataflow uuid
        { df with lastRecoveryAttempt := df.lastRecoveryAttempt.insert daemonId s.now }).send
          daemonId (.spawn uuid (df.nodesOnDaemon daemonId) df.uv)

/-- `DaemonStatusReport`: reconciliation of what is reported, then auto-recovery of what is missing. -/
def handleDaemonStatusReport (s : Coordinator) (daemonId : DaemonId)
    (reported : List (DataflowId × List NodeId)) (order : List DataflowId) : Coordinator :=
  let s := reported.foldl (fun s entry => s.reconcile daemonId entry.1 entry.2) s
  (inOrder order s.runningDataflows.keys).foldl (autoRecover daemonId (reported.map Prod.fst)) s

end Coordinator

end Dora.Coord
