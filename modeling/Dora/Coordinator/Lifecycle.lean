import Dora.Coordinator.State

/-!
# Starting, failing and finishing a dataflow (`run/mod.rs`, `spawn_build.rs`, `dataflow_events.rs`)

A start places every node on a connected daemon, and each daemon spawns its share. The first failure that
is reported, or the watchdog, tears the dataflow down. A dataflow that runs to its end leaves when the
last of its daemons has reported that it finished.
-/

namespace Dora.Coord

open Std Lib

/-! ## Placing and spawning nodes -/

namespace Coordinator

def getMatchingDaemonId (s : Coordinator) (machine : String) : Option DaemonId :=
  s.daemonConnections.keys.find? (·.matchesMachineId machine)

/-- `unnamed().next()` -/
def firstUnnamed (s : Coordinator) : Option DaemonId :=
  s.daemonConnections.keys.find? (·.machineId.isNone)

def getMatchingDaemonByLabels (s : Coordinator) (required : List (String × String)) :
    Option DaemonId :=
  (s.daemonConnections.toList.find? fun entry =>
    required.all fun label => entry.2.labels.lookup label.1 = some label.2).map Prod.fst

/-- The `Debug` form of a label map. -/
def labelsText (labels : List (String × String)) : String :=
  String.singleton '{' ++ ", ".intercalate (labels.map fun label =>
    "\"" ++ label.1 ++ "\": \"" ++ label.2 ++ "\"") ++ String.singleton '}'

def resolveDaemon (s : Coordinator) (deploy : Option Deploy) : Except String DaemonId :=
  match deploy with
  | some ⟨some machine, _⟩ =>
    match s.getMatchingDaemonId machine with
    | some id => .ok id
    | none => .error s!"no matching daemon for machine id `{machine}`"
  | some ⟨none, label :: labels⟩ =>
    match s.getMatchingDaemonByLabels (label :: labels) with
    | some id => .ok id
    | none => .error ("no daemon matches labels " ++ labelsText (label :: labels))
  | _ =>
    match s.firstUnnamed with
    | some id => .ok id
    | none => .error "no unnamed daemon connections"

def placeNodes (s : Coordinator) : List (NodeId × Node) → Except String (TreeMap NodeId DaemonId)
  | [] => .ok ∅
  | (id, node) :: nodes =>
    match s.resolveDaemon node.deploy with
    | .error e => .error e
    | .ok daemonId =>
      match s.placeNodes nodes with
      | .error e => .error e
      | .ok placed => .ok (placed.insert id daemonId)

/-- `StopDataflow` with `force` to each of the daemons. -/
def rollback (s : Coordinator) (uuid : DataflowId) (daemons : List DaemonId) : Coordinator :=
  daemons.foldl (fun s daemonId => s.send daemonId (.stopDataflow uuid none true)) s

def nodesPlacedOn (placed : TreeMap NodeId DaemonId) (daemonId : DaemonId) : List NodeId :=
  (placed.toList.filter fun entry => entry.2 = daemonId).map Prod.fst

/-- Ask the daemons for their shares one after the other; when one of them refuses, stop those that
have `spawned`. -/
def spawnOn (s : Coordinator) (uuid : DataflowId) (placed : TreeMap NodeId DaemonId) (uv : Bool)
    (accepting spawned : List DaemonId) : List DaemonId → Coordinator × Except String Unit
  | [] => (s, .ok ())
  | daemonId :: rest =>
    let asked := s.send daemonId (.spawn uuid (nodesPlacedOn placed daemonId) uv)
    if s.answersRequest daemonId accepting then
      spawnOn asked uuid placed uv accepting (spawned ++ [daemonId]) rest
    else
      (asked.rollback uuid spawned,
        .error s!"spawn failed on daemon `{daemonId.display}`; rolled back {spawned.length} previously-started daemon(s)")

def daemonsOf (placed : TreeMap NodeId DaemonId) : TreeSet DaemonId :=
  TreeSet.ofList (placed.toList.map Prod.snd)

def freshDataflow (descriptor : Descriptor) (name : Option String) (nodes : TreeMap NodeId Node)
    (placed : TreeMap NodeId DaemonId) (uv : Bool) (now : Nat) : RunningDataflow :=
  let daemons := daemonsOf placed
  { name := name
    descriptor := descriptor
    daemons := daemons
    -- a single daemon is its own barrier
    pendingDaemons := if daemons.size > 1 then daemons else ∅
    exitedBeforeSubscribe := []
    readyBarrierReleased := false
    nodes := nodes
    nodeToDaemon := placed
    spawnResult := .pending []
    stopReplySenders := []
    pendingSpawnResults := daemons
    spawnStartedAt := now
    createdAt := now
    storeGeneration := 0
    lastRecoveryAttempt := ∅
    uv := uv }

/-- The UUID and the entry of the new dataflow, which is not in the map yet. -/
def startDataflow (s : Coordinator) (descriptor : Descriptor) (name : Option String) (uv : Bool)
    (accepting : List DaemonId) : Coordinator × Except String (DataflowId × RunningDataflow) :=
  match descriptor.resolve with
  | none => (s, .error "failed to resolve the nodes of the dataflow")
  | some nodes =>
    let uuid := s.nextUuid
    match s.placeNodes nodes.toList with
    | .error e => (s, .error e)
    | .ok placed =>
      match s.spawnOn uuid placed uv accepting [] (daemonsOf placed).toList with
      | (s, .error e) => (s, .error e)
      | (s, .ok ()) => (s, .ok (uuid, freshDataflow descriptor name nodes placed uv s.now))

def admitStarted (s : Coordinator) (uuid : DataflowId) (df : RunningDataflow) : Coordinator :=
  s.persist uuid df .pending

def handleStart (s : Coordinator) (sender : ReplySender) (name : Option String)
    (descriptor : Descriptor) (uv : Bool) (accepting : List DaemonId) : Coordinator :=
  if name.isSome && s.runningDataflows.toList.any (fun entry => entry.2.name = name) then
    let taken := name.getD ""
    s.reply sender (.error s!"there is already a running dataflow with name `{taken}`")
  else
    match s.startDataflow descriptor name uv accepting with
    | (s, .error e) => s.reply sender (.error e)
    | (s, .ok (uuid, df)) =>
      (s.admitStarted uuid df).reply sender (.ok (.dataflowStartTriggered uuid))

/-! ## Restarts that wait -/

def cancelPendingRestart (s : Coordinator) (uuid : DataflowId) (reason : String) : Coordinator :=
  match s.pendingRestarts[uuid]? with
  | none => s
  | some restart =>
    (s.removeRestart uuid).answerAll uuid [restart.replySender] (.error reason)

/-! ## Results and archive of dataflows that are gone -/

def maxArchivedDataflows : Nat := 200
def maxDataflowResults : Nat := 200

def archive (s : Coordinator) (uuid : DataflowId) (df : RunningDataflow) : Coordinator :=
  { s with
    archivedDataflows :=
      (s.archivedDataflows.orInsert uuid df.archived).cap maxArchivedDataflows }

/-- The oldest results are dropped, but not those of a running dataflow. -/
def capDataflowResults (s : Coordinator) : Coordinator :=
  { s with
    dataflowResults := IndexMap.evict (fun uuid => !s.runningDataflows.contains uuid)
      (s.dataflowResults.length - maxDataflowResults) s.dataflowResults }

/-- `dataflow_results.entry(uuid).or_default()` and an update of the results. -/
def updateResults (s : Coordinator) (uuid : DataflowId)
    (f : TreeMap DaemonId DaemonResult → TreeMap DaemonId DaemonResult) : Coordinator :=
  { s with dataflowResults := s.dataflowResults.upsert uuid ∅ f }

def stopResult (s : Coordinator) (uuid : DataflowId) : DataflowResult :=
  match s.dataflowResults.get? uuid with
  | some results => dataflowResult results uuid
  | none => .okEmpty uuid

/-! ## Failed spawns -/

def failedToSpawn (errMsg : String) : NodeResult := .error ("failed to spawn node: " ++ errMsg)

/-- Every node of the original assignment has failed; without
nodes, a node `watchdog` on a daemon of that name has. -/
def synthesizeFailedDataflowResults (df : RunningDataflow) (errMsg : String) (sentinel : Nat) :
    TreeMap DaemonId DaemonResult :=
  if df.nodeToDaemon.isEmpty then
    (∅ : TreeMap DaemonId DaemonResult).insert ⟨some "watchdog", sentinel⟩
      ⟨(∅ : TreeMap NodeId NodeResult).insert ⟨"watchdog"⟩ (failedToSpawn errMsg)⟩
  else
    TreeMap.ofList ((daemonsOf df.nodeToDaemon).toList.map fun daemonId =>
      (daemonId, DaemonResult.mk (TreeMap.ofList ((df.nodesOnDaemon daemonId).map fun node =>
        (node, failedToSpawn errMsg)))))

def restartOfFailedSpawn (uuid : DataflowId) (errMsg : String) : String :=
  s!"dataflow `{uuidText uuid}`'s spawn failed while a restart was pending: {errMsg}"

def teardownFailedSpawn (s : Coordinator) (uuid : DataflowId) (errMsg : String)
    (rollbackDaemons : List DaemonId) : Coordinator :=
  let rolledBack := s.rollback uuid rollbackDaemons
  match rolledBack.runningDataflows[uuid]? with
  | none => rolledBack
  | some df =>
    let synth := synthesizeFailedDataflowResults df errMsg s.nextUuid
    let s := ((rolledBack.removeDataflow uuid).cancelPendingRestart uuid
      (restartOfFailedSpawn uuid errMsg)).updateResults uuid (·.insertMany synth.toList)
    let s := s.answerStops uuid df.stopReplySenders (s.stopResult uuid)
    (s.archive uuid df).capDataflowResults

/-- The entry is written back in any case, since the caller has changed it. -/
def handleSpawnResultOk (s : Coordinator) (uuid : DataflowId) (df : RunningDataflow) : Coordinator :=
  if df.spawnResult.isPending && df.pendingSpawnResults.isEmpty then
    let (s, df) := s.setSpawnResult uuid df (.ok (.dataflowSpawned uuid))
    s.persist uuid df .running
  else s.setDataflow uuid df

def handleSpawnResultErr (s : Coordinator) (uuid : DataflowId) (df : RunningDataflow)
    (err : String) : Coordinator :=
  if df.spawnResult.isPending then
    let s := s.putDataflow uuid (df.makeRecord (.failed ("spawn failed: " ++ err) true) s.now)
    let (s, df) := s.setSpawnResult uuid df.bumpGeneration (.error err)
    s.setDataflow uuid df
  else s.setDataflow uuid df

def startedDaemons (df : RunningDataflow) : List DaemonId :=
  df.daemons.toList.filter (· ∉ df.pendingSpawnResults)

def handleDataflowSpawnResult (s : Coordinator) (uuid : DataflowId) (daemonId : DaemonId)
    (result : Except String Unit) : Coordinator :=
  match s.runningDataflows[uuid]? with
  | some df =>
    let df := df.spawnReported daemonId
    match result with
    | .ok () => s.handleSpawnResultOk uuid df
    | .error err =>
      let failed := s.handleSpawnResultErr uuid df err
      -- only the transition to the failure owns the rollback
      if df.spawnResult.isPending then
        failed.teardownFailedSpawn uuid s!"spawn failed on daemon `{daemonId.display}`: {err}"
          (startedDaemons df)
      else failed
  | none =>
    match result with
    | .ok () =>
      if s.archivedDataflows.contains uuid then s.rollback uuid [daemonId] else s
    | .error _ => s

def spawnStuck (s : Coordinator) (df : RunningDataflow) : Bool :=
  df.spawnResult.isPending && s.now - df.spawnStartedAt > s.spawnResultTimeout

def spawnTimeoutMessage (s : Coordinator) (df : RunningDataflow) : String :=
  s!"spawn timed out after {s.spawnResultTimeout / 1000}s; {df.pendingSpawnResults.size} daemon(s) never reported spawn_result; rolled back {(startedDaemons df).length} previously-started daemon(s)"

/-- Resolve one stuck spawn, given the message and the daemons to roll back as they were found. -/
def failStuckSpawn (s : Coordinator) (uuid : DataflowId) (errMsg : String)
    (succeeded : List DaemonId) : Coordinator :=
  let failed :=
    match s.runningDataflows[uuid]? with
    | none => s
    | some df =>
      let (s, df) := s.setSpawnResult uuid df (.error errMsg)
      s.persist uuid df (.failed errMsg true)
  failed.teardownFailedSpawn uuid errMsg succeeded

/-- The map is visited in the order `order`. -/
def checkSpawnTimeouts (s : Coordinator) (order : List DataflowId) : Coordinator :=
  let stuck := (inOrder order s.runningDataflows.keys).filterMap fun uuid =>
    match s.runningDataflows[uuid]? with
    | some df =>
      if s.spawnStuck df then some (uuid, s.spawnTimeoutMessage df, startedDaemons df) else none
    | none => none
  stuck.foldl (fun s entry => s.failStuckSpawn entry.1 entry.2.1 entry.2.2) s

/-! ## Finishing -/

def completeRestart (s : Coordinator) (uuid : DataflowId) (accepting : List DaemonId) : Coordinator :=
  match s.pendingRestarts[uuid]? with
  | none => s
  | some restart =>
    match (s.removeRestart uuid).startDataflow restart.descriptor restart.name restart.uv accepting with
    | (s, .ok (newUuid, df)) =>
      ((s.admitStarted newUuid df).answerAll uuid [restart.replySender]
        (.ok (.dataflowRestarted uuid newUuid))).emit
          (.incarnation restart.replySender uuid newUuid)
    | (s, .error e) =>
      s.answerAll uuid [restart.replySender]
        (.error ("failed to start restarted dataflow: " ++ e))

def finalStatus (results : Option (TreeMap DaemonId DaemonResult)) : DataflowStatus :=
  match nodeErrors (results.getD ∅) with
  | [] => .succeeded
  | errors => .failed ("; ".intercalate errors) false

def spawnNeverCompleted (results : Option (TreeMap DaemonId DaemonResult)) : String :=
  match nodeErrors (results.getD ∅) with
  | [] => "dataflow exited before spawn completed"
  | errors => "dataflow failed to start:\n  " ++ "\n  ".intercalate errors

/-- The last daemon has finished: `df` is the entry without it. -/
def concludeDataflow (s : Coordinator) (uuid : DataflowId) (df : RunningDataflow)
    (accepting : List DaemonId) : Coordinator :=
  let s := ((s.archive uuid df).removeDataflow uuid).completeRestart uuid accepting
  let results := s.dataflowResults.get? uuid
  let stopped := s.stopResult uuid
  let s := s.putDataflow uuid (df.makeRecord (finalStatus results) s.now)
  let s := s.answerStops uuid df.stopReplySenders stopped
  s.answerAll uuid df.spawnResult.waiters (.error (spawnNeverCompleted results))

def mergeResult (known : Option DaemonResult) (result : DaemonResult) : DaemonResult :=
  match known with
  | none => result
  | some known => ⟨known.nodeResults.insertMany result.nodeResults.toList⟩

/-- `DataflowEvent::DataflowFinishedOnDaemon` -/
def handleFinishedOnDaemon (s : Coordinator) (uuid : DataflowId) (daemonId : DaemonId)
    (result : DaemonResult) (accepting : List DaemonId) : Coordinator :=
  match s.runningDataflows[uuid]? with
  | some df =>
    let df := df.finished daemonId
    let s := s.updateResults uuid (·.insert daemonId result)
    if df.daemons.isEmpty then (s.concludeDataflow uuid df accepting).capDataflowResults
    else (s.setDataflow uuid df).capDataflowResults
  | none =>
    if s.archivedDataflows.contains uuid then
      (s.updateResults uuid fun results =>
        results.insert daemonId (mergeResult results[daemonId]? result)).capDataflowResults
    else s.capDataflowResults

end Coordinator

end Dora.Coord
