import Dora.Coordinator.Liveness
import Dora.Lib.Machine

/-!
# The coordinator's event loop (`coordinator/src/lib.rs`, `control_requests.rs`)

The coordinator handles one event at a time. An event carries what the outside decides meanwhile: which
daemons accept a request (`accepting`), which command channels are full, in which order a hash map is
visited.
-/

namespace Dora.Coord

open Std Lib

inductive Event where
  | register (machineId : Option String) (labels : List (String × String)) (versionOk : Bool)
  | daemonHeartbeat (daemonId : DaemonId)
  | heartbeatInterval (full : List DaemonId) (order : List DataflowId)
  | daemonExit (daemonId : DaemonId) (connectionId : ConnectionId) (order : List DataflowId)
  | readyOnDaemon (uuid : DataflowId) (daemonId : DaemonId) (exitedBeforeSubscribe : List NodeId)
  | finishedOnDaemon (uuid : DataflowId) (daemonId : DaemonId) (result : DaemonResult)
      (accepting : List DaemonId)
  | spawnResult (uuid : DataflowId) (daemonId : DaemonId) (result : Except String Unit)
  | statusReport (daemonId : DaemonId) (reported : List (DataflowId × List NodeId))
      (order : List DataflowId)
  | start (name : Option String) (descriptor : Descriptor) (uv : Bool) (accepting : List DaemonId)
  | stop (uuid : DataflowId) (graceDuration : Option Nat) (force : Bool) (accepting : List DaemonId)
  | stopByName (name : String) (graceDuration : Option Nat) (force : Bool) (accepting : List DaemonId)
  | restart (uuid : DataflowId) (graceDuration : Option Nat) (force : Bool) (accepting : List DaemonId)
  | restartByName (name : String) (graceDuration : Option Nat) (force : Bool)
      (accepting : List DaemonId)
  | waitForSpawn (uuid : DataflowId)
  | clean
  | addNode (uuid : DataflowId) (node : Node) (accepting : List DaemonId)
  | removeNode (uuid : DataflowId) (node : NodeId) (graceDuration : Option Nat)
      (accepting : List DaemonId)
  /-- The task that writes to the daemon's current connection ends. -/
  | channelClosed (daemonId : DaemonId)
  /-- Time passes. -/
  | elapse (millis : Nat)
  /-- The store begins or ceases to answer reads. -/
  | storeReads (readable : Bool)
  /-- The coordinator process ends, after `dora down` or abruptly, and is started again. -/
  | coordinatorRestart (graceful : Bool)

namespace Coordinator

/-! ## Stopping and restarting -/

/-- `resolve_name` -/
def resolveName (s : Coordinator) (name : String) : Except String DataflowId :=
  match (s.runningDataflows.toList.filter fun entry => entry.2.name = some name).map Prod.fst with
  | [uuid] => .ok uuid
  | [] =>
    match (s.archivedDataflows.filter fun entry => entry.2.name = some name).map Prod.fst with
    | [] => .error s!"no dataflow with name `{name}`"
    | [uuid] => .ok uuid
    | _ =>
      .error
        s!"multiple archived dataflows found with name `{name}`, Please provide the UUID instead."
  | _ => .error s!"multiple dataflows found with name `{name}`"

def unreachable (s : Coordinator) (df : RunningDataflow) (accepting : List DaemonId) : List DaemonId :=
  df.daemons.toList.filter fun daemonId => !s.answersRequest daemonId accepting

/-- Tell every daemon, and fail if one of them does not confirm. -/
def stopDataflow (s : Coordinator) (uuid : DataflowId) (graceDuration : Option Nat) (force : Bool)
    (accepting : List DaemonId) : Coordinator × Except String RunningDataflow :=
  match s.runningDataflows[uuid]? with
  | none => (s, .error s!"no known running dataflow found with UUID `{uuidText uuid}`")
  | some df =>
    let told := s.sendAll df.daemons.toList (.stopDataflow uuid graceDuration force)
    let failed := s.unreachable df accepting
    if failed.isEmpty then (told, .ok df)
    else
      (told, .error
        (s!"failed to stop dataflow `{uuidText uuid}` on {failed.length} of {df.daemons.size} daemon(s): " ++
          "; ".intercalate (failed.map fun daemonId => daemonId.display ++ ": no confirmation")))

/-- Answer with the result of a dataflow that is over, or stop it and park the caller on it. -/
def reportOrStop (s : Coordinator) (sender : ReplySender) (uuid : DataflowId)
    (graceDuration : Option Nat) (force : Bool) (accepting : List DaemonId) : Coordinator :=
  if !s.runningDataflows.contains uuid && s.dataflowResults.contains uuid then
    s.reply sender (.ok (.dataflowStopped uuid (s.stopResult uuid)))
  else
    match s.stopDataflow uuid graceDuration force accepting with
    | (s, .ok df) =>
      (s.persist uuid df .stopping).setDataflow uuid
        { df.bumpGeneration with stopReplySenders := df.stopReplySenders ++ [sender] }
    | (s, .error e) => s.reply sender (.error e)

def stoppedBeforeRestart (uuid : DataflowId) : String :=
  s!"dataflow `{uuidText uuid}` was stopped before the restart could complete"

/-- The part that `handle_stop` and `handle_stop_by_name` share. -/
def handleStop (s : Coordinator) (sender : ReplySender) (uuid : DataflowId)
    (graceDuration : Option Nat) (force : Bool) (accepting : List DaemonId) : Coordinator :=
  (s.cancelPendingRestart uuid (stoppedBeforeRestart uuid)).reportOrStop sender uuid graceDuration force
    accepting

def handleStopByName (s : Coordinator) (sender : ReplySender) (name : String)
    (graceDuration : Option Nat) (force : Bool) (accepting : List DaemonId) : Coordinator :=
  match s.resolveName name with
  | .ok uuid => s.handleStop sender uuid graceDuration force accepting
  | .error e => s.reply sender (.error e)

def initiateRestart (s : Coordinator) (sender : ReplySender) (uuid : DataflowId)
    (graceDuration : Option Nat) (force : Bool) (accepting : List DaemonId) : Coordinator :=
  if s.pendingRestarts.contains uuid then
    s.reply sender
      (.error s!"dataflow `{uuidText uuid}` is already being restarted – wait for it to finish")
  else
    match s.runningDataflows[uuid]? with
    | none => s.reply sender (.error s!"no running dataflow with UUID `{uuidText uuid}`")
    | some entry =>
      match s.stopDataflow uuid graceDuration force accepting with
      | (s, .ok df) =>
        { s.persist uuid df .stopping with
          pendingRestarts := s.pendingRestarts.insert uuid
            ⟨entry.descriptor, entry.name, entry.uv, sender⟩ }
      | (s, .error e) => s.reply sender (.error e)

def handleRestartByName (s : Coordinator) (sender : ReplySender) (name : String)
    (graceDuration : Option Nat) (force : Bool) (accepting : List DaemonId) : Coordinator :=
  match s.resolveName name with
  | .ok uuid => s.initiateRestart sender uuid graceDuration force accepting
  | .error e => s.reply sender (.error e)

/-- `ControlRequest::WaitForSpawn` and `CachedResult::register` -/
def handleWaitForSpawn (s : Coordinator) (sender : ReplySender) (uuid : DataflowId) : Coordinator :=
  match s.runningDataflows[uuid]? with
  | none => s.reply sender (.error s!"unknown dataflow {uuidText uuid}")
  | some df =>
    match df.spawnResult with
    | .pending senders => s.setDataflow uuid { df with spawnResult := .pending (senders ++ [sender]) }
    | .cached result => s.reply sender result

/-! ## Clean -/

/-- The dataflows that `clean` may remove: what is in memory and not running, then what only the store
has, if it is over. -/
def cleanCandidates (s : Coordinator) : List ListEntry :=
  let inMemory := s.dataflowResults.filterMap fun entry =>
    if s.runningDataflows.contains entry.1 then none
    else
      some ⟨entry.1, (s.archivedDataflows.get? entry.1).bind (·.name), entry.2.toList.all (·.2.isOk)⟩
  let onDisk := s.store.toList.filterMap fun entry =>
    if s.runningDataflows.contains entry.1 || s.dataflowResults.contains entry.1 then none
    else
      match entry.2.status with
      | .succeeded => some ⟨entry.1, entry.2.name, true⟩
      | .failed _ _ => some ⟨entry.1, entry.2.name, false⟩
      | _ => none
  inMemory ++ onDisk

def cleanOne (s : Coordinator) (entry : ListEntry) : Coordinator :=
  { s with
    store := s.store.erase entry.uuid
    dataflowResults := s.dataflowResults.shiftRemove entry.uuid
    archivedDataflows := s.archivedDataflows.shiftRemove entry.uuid }.emit (.deleted entry.uuid)

def ListEntry.le (a b : ListEntry) : Bool :=
  match compare a.name b.name with
  | .lt => true
  | .eq => a.uuid ≤ b.uuid
  | .gt => false

def handleClean (s : Coordinator) (sender : ReplySender) : Coordinator :=
  if s.storeReadable then
    let candidates := s.cleanCandidates
    (candidates.foldl cleanOne s).reply sender
      (.ok (.cleanResult (candidates.mergeSort ListEntry.le)))
  else
    s.reply sender
      (.error ("dora clean: failed to enumerate persisted dataflows. No state was modified; the " ++
        "next `dora clean` will retry once the coordinator's store is healthy again."))

/-! ## Adding and removing nodes -/

def dispatchError (s : Coordinator) (daemonId : DaemonId) : String :=
  if s.daemonConnections.contains daemonId then "daemon dispatch failed"
  else s!"no connection for daemon {daemonId.display}"

def handleAddNode (s : Coordinator) (sender : ReplySender) (uuid : DataflowId) (node : Node)
    (accepting : List DaemonId) : Coordinator :=
  match s.runningDataflows[uuid]? with
  | none => s.reply sender (.error s!"no running dataflow with ID {uuidText uuid}")
  | some df =>
    if df.nodeToDaemon.contains node.id then
      s.reply sender
        (.error s!"node '{node.id.name}' already exists in dataflow {uuidText uuid}")
    else if !node.wellFormed then s.reply sender (.error "failed to resolve node")
    else
      match df.daemons.toList with
      | [] => s.reply sender (.error s!"no daemons registered for dataflow {uuidText uuid}")
      | daemonId :: _ =>
        let asked := s.send daemonId (.addNode uuid node.id)
        if s.answersRequest daemonId accepting then
          (asked.setDataflow uuid
            { df with
              nodeToDaemon := df.nodeToDaemon.insert node.id daemonId
              descriptor := ⟨df.descriptor.nodes ++ [node]⟩
              nodes := df.nodes.insert node.id node }).reply sender (.ok (.nodeAdded uuid node.id))
        else asked.reply sender (.error (s.dispatchError daemonId))

def handleRemoveNode (s : Coordinator) (sender : ReplySender) (uuid : DataflowId) (nodeId : NodeId)
    (graceDuration : Option Nat) (accepting : List DaemonId) : Coordinator :=
  match s.runningDataflows[uuid]? with
  | none => s.reply sender (.error s!"no running dataflow with ID {uuidText uuid}")
  | some df =>
    match df.nodeToDaemon[nodeId]? with
    | none =>
      s.reply sender (.error s!"node '{nodeId.name}' not found in dataflow {uuidText uuid}")
    | some daemonId =>
      let asked := s.send daemonId (.removeNode uuid nodeId graceDuration)
      if s.answersRequest daemonId accepting then
        (asked.setDataflow uuid
          { df with
            nodeToDaemon := df.nodeToDaemon.erase nodeId
            descriptor := ⟨df.descriptor.nodes.filter (·.id ≠ nodeId)⟩
            nodes := df.nodes.erase nodeId }).reply sender (.ok (.nodeRemoved uuid nodeId))
      else asked.reply sender (.error (s.dispatchError daemonId))

/-! ## The end of the process and its next start -/

/-- `handle_destroy`, as far as it outlives the process: every running dataflow is marked as
stopping. -/
def markStopping (s : Coordinator) : Coordinator :=
  s.runningDataflows.toList.foldl (fun s entry => s.persist entry.1 entry.2 .stopping) s

/-- What `start_inner` does with one record it finds. -/
def recoverRecord (s : Coordinator) (entry : DataflowId × DataflowRecord) : Coordinator :=
  match entry.2.status with
  | .pending | .running | .stopping | .recovering =>
    s.putDataflow entry.1
      { entry.2 with
        status := .recovering
        generation := entry.2.generation + 1
        updatedAt := s.now }
  | .succeeded | .failed _ _ => s

def handleCoordinatorRestart (s : Coordinator) (graceful : Bool) : Coordinator :=
  let s := if graceful then s.markStopping else s
  let s := { s with
    runningDataflows := ∅
    pendingRestarts := ∅
    dataflowResults := []
    archivedDataflows := []
    daemonConnections := ∅ }
  s.listDataflows.foldl recoverRecord s

/-! ## One event -/

def handle (s : Coordinator) : Event → Coordinator
  | .register machineId labels versionOk => s.handleRegister machineId labels versionOk
  | .daemonHeartbeat daemonId => s.handleDaemonHeartbeat daemonId
  | .heartbeatInterval full order => s.handleHeartbeatInterval full order
  | .daemonExit daemonId connectionId order => s.handleDaemonExit daemonId connectionId order
  | .readyOnDaemon uuid daemonId exited => s.handleReadyOnDaemon uuid daemonId exited
  | .finishedOnDaemon uuid daemonId result accepting =>
    s.handleFinishedOnDaemon uuid daemonId result accepting
  | .spawnResult uuid daemonId result => s.handleDataflowSpawnResult uuid daemonId result
  | .statusReport daemonId reported order => s.handleDaemonStatusReport daemonId reported order
  | .start name descriptor uv accepting =>
    s.handleStart s.nextSender name descriptor uv accepting
  | .stop uuid grace force accepting =>
    s.handleStop s.nextSender uuid grace force accepting
  | .stopByName name grace force accepting =>
    s.handleStopByName s.nextSender name grace force accepting
  | .restart uuid grace force accepting =>
    s.initiateRestart s.nextSender uuid grace force accepting
  | .restartByName name grace force accepting =>
    s.handleRestartByName s.nextSender name grace force accepting
  | .waitForSpawn uuid => s.handleWaitForSpawn s.nextSender uuid
  | .clean => s.handleClean s.nextSender
  | .addNode uuid node accepting =>
    s.handleAddNode s.nextSender uuid node accepting
  | .removeNode uuid node grace accepting =>
    s.handleRemoveNode s.nextSender uuid node grace accepting
  | .channelClosed daemonId =>
    { s with
      daemonConnections := s.daemonConnections.modify daemonId ({ · with channelClosed := true }) }
  | .elapse millis => { s with now := s.now + millis }
  | .storeReads readable => { s with storeReadable := readable }
  | .coordinatorRestart graceful => s.handleCoordinatorRestart graceful

def cleared (s : Coordinator) : Coordinator := { s with emitted := [] }

/-- One round of the event loop, with what it sent, answered and wrote; no event generates more than one
UUID or brings more than one reply sender. -/
def step (s : Coordinator) (event : Event) : Coordinator × List Effect :=
  let after := s.cleared.handle event
  ({ after with nextUuid := s.nextUuid + 1, nextSender := s.nextSender + 1 }, after.emitted)

def reached (events : List Event) : Coordinator := (run step {} events).1

end Coordinator

/-! ## A dataflow on two machines -/

def daemonA : DaemonId := ⟨some "a", 0⟩
def daemonB : DaemonId := ⟨some "b", 1⟩

def nodeOn (machine name : String) : Node := { id := ⟨name⟩, deploy := some ⟨some machine, []⟩ }

/-- Two daemons register, and a dataflow starts on both of them; its UUID is `2`. -/
def startedOnTwo : List Event :=
  [.register (some "a") [] true, .register (some "b") [] true,
    .start none ⟨[nodeOn "a" "camera", nodeOn "b" "plot"]⟩ false [daemonA, daemonB]]

end Dora.Coord
