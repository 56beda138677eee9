import Dora.Lib.IndexMap
import Dora.Lib.MultiMap
import Dora.Message.Id

/-!
# The coordinator's state (`coordinator/src/state.rs`, `coordinator-store/src/lib.rs`)

The coordinator keeps an entry for every running dataflow, the connections of the daemons, the results
and the archive of finished dataflows, and restarts that wait for a dataflow to stop. Everything but
the connections and the entries' waiting callers is mirrored in records of a persistent store.

`nextUuid` is the UUID that the present event may generate. A reply sender, the oneshot channel of one
control request, is a number. `emitted` collects what an event sends, answers and writes.
-/

namespace Dora.Coord

open Std Lib

/-! ## Names -/

abbrev DataflowId := Nat
abbrev ConnectionId := Nat
abbrev ReplySender := Nat

structure DaemonId where
  machineId : Option String
  uuid : Nat
deriving DecidableEq, Repr

def DaemonId.matchesMachineId (d : DaemonId) (machineId : String) : Bool :=
  d.machineId = some machineId

def DaemonId.toPair (d : DaemonId) : Option String × Nat := (d.machineId, d.uuid)

theorem DaemonId.toPair_injective : Function.Injective DaemonId.toPair := by
  rintro ⟨m, u⟩ ⟨m', u'⟩ h
  cases h
  rfl

instance : Ord DaemonId := ⟨compareOn DaemonId.toPair⟩
instance : TransOrd DaemonId := inferInstanceAs (TransCmp (compareOn DaemonId.toPair))
instance : LawfulEqOrd DaemonId := Lib.lawfulEqOn _ DaemonId.toPair_injective

def DaemonId.display (d : DaemonId) : String :=
  match d.machineId with
  | some id => id ++ "-" ++ uuidText d.uuid
  | none => uuidText d.uuid

/-! ## Descriptors and results -/

structure Deploy where
  machine : Option String
  labels : List (String × String)

/-- A node of a descriptor, as far as placing it needs it. `wellFormed` is what `classify` and the
other checks of `resolve_aliases_and_set_defaults` decide about it. -/
structure Node where
  id : NodeId
  deploy : Option Deploy
  wellFormed : Bool := true

structure Descriptor where
  nodes : List Node

/-- `resolve_aliases_and_set_defaults` -/
def Descriptor.resolve (descriptor : Descriptor) : Option (TreeMap NodeId Node) :=
  if descriptor.nodes.all (·.wellFormed) then
    some (TreeMap.ofList (descriptor.nodes.map fun node => (node.id, node)))
  else none

/-- A `NodeError` is kept as the text it displays. -/
abbrev NodeResult := Except String Unit

/-- `DataflowDaemonResult`: how the nodes of one daemon ended. -/
structure DaemonResult where
  nodeResults : TreeMap NodeId NodeResult

def NodeResult.isOk : NodeResult → Bool
  | .ok _ => true
  | .error _ => false

def DaemonResult.isOk (result : DaemonResult) : Bool :=
  result.nodeResults.toList.all fun entry => NodeResult.isOk entry.2

/-- `DataflowResult` as it is sent to a caller. -/
structure DataflowResult where
  uuid : DataflowId
  nodeResults : TreeMap NodeId NodeResult

def DataflowResult.isOk (result : DataflowResult) : Bool :=
  result.nodeResults.toList.all fun entry => NodeResult.isOk entry.2

def DataflowResult.okEmpty (uuid : DataflowId) : DataflowResult := ⟨uuid, ∅⟩

/-- The results of all daemons in one map. -/
def dataflowResult (results : TreeMap DaemonId DaemonResult) (uuid : DataflowId) : DataflowResult :=
  ⟨uuid, results.toList.foldl (fun all entry => all.insertMany entry.2.nodeResults.toList) ∅⟩

/-- The lines `node: error` of the nodes that failed. -/
def nodeErrors (results : TreeMap DaemonId DaemonResult) : List String :=
  results.toList.flatMap fun daemon =>
    daemon.2.nodeResults.toList.filterMap fun entry =>
      match entry.2 with
      | .ok _ => none
      | .error e => some (entry.1.name ++ ": " ++ e)

/-! ## Replies -/

structure ListEntry where
  uuid : DataflowId
  name : Option String
  finished : Bool

/-- The `ControlRequestReply` variants of the requests modelled here. -/
inductive ControlRequestReply where
  | dataflowStartTriggered (uuid : DataflowId)
  | dataflowSpawned (uuid : DataflowId)
  | dataflowStopped (uuid : DataflowId) (result : DataflowResult)
  | dataflowRestarted (oldUuid newUuid : DataflowId)
  | nodeAdded (uuid : DataflowId) (node : NodeId)
  | nodeRemoved (uuid : DataflowId) (node : NodeId)
  | cleanResult (cleaned : List ListEntry)

abbrev Reply := Except String ControlRequestReply

def Reply.isOk : Reply → Bool
  | .ok _ => true
  | .error _ => false

inductive CachedResult where
  | pending (resultSenders : List ReplySender)
  | cached (result : Reply)

namespace CachedResult

def isPending : CachedResult → Bool
  | .pending _ => true
  | .cached _ => false

def isTerminalError : CachedResult → Bool
  | .pending _ => false
  | .cached result => !Reply.isOk result

def isCachedOk : CachedResult → Bool
  | .pending _ => false
  | .cached result => Reply.isOk result

def waiters : CachedResult → List ReplySender
  | .pending senders => senders
  | .cached _ => []

theorem exists_of_isPending {result : CachedResult} (h : result.isPending = true) :
    ∃ senders, result = .pending senders := by
  cases result with
  | pending senders => exact ⟨senders, rfl⟩
  | cached => cases h

end CachedResult

/-! ## Entries and records -/

inductive DataflowStatus where
  | pending
  | running
  | recovering
  | stopping
  | succeeded
  | failed (error : String) (terminal : Bool)
deriving DecidableEq, Repr

structure RunningDataflow where
  name : Option String
  descriptor : Descriptor
  daemons : TreeSet DaemonId
  pendingDaemons : TreeSet DaemonId
  exitedBeforeSubscribe : List NodeId
  readyBarrierReleased : Bool
  nodes : TreeMap NodeId Node
  nodeToDaemon : TreeMap NodeId DaemonId
  spawnResult : CachedResult
  stopReplySenders : List ReplySender
  pendingSpawnResults : TreeSet DaemonId
  spawnStartedAt : Nat
  createdAt : Nat
  storeGeneration : Nat
  lastRecoveryAttempt : TreeMap DaemonId Nat
  uv : Bool

structure DataflowRecord where
  name : Option String
  descriptor : Descriptor
  status : DataflowStatus
  daemonIds : List DaemonId
  nodeToDaemon : TreeMap NodeId DaemonId
  uv : Bool
  readyBarrierReleased : Bool
  barrierExitedBeforeSubscribe : List NodeId
  generation : Nat
  createdAt : Nat
  updatedAt : Nat

def maxErrorBytes : Nat := 4096

/-- The longest start of the text that fits in `maxBytes` bytes. -/
def takeBytes : Nat → List Char → List Char
  | _, [] => []
  | maxBytes, c :: cs => if c.utf8Size ≤ maxBytes then c :: takeBytes (maxBytes - c.utf8Size) cs else []

def truncateStr (s : String) (maxBytes : Nat) : String := String.ofList (takeBytes maxBytes s.toList)

/-- The status as `make_record` stores it, with the error text cut to `MAX_ERROR_BYTES`. -/
def DataflowStatus.truncated : DataflowStatus → DataflowStatus
  | .failed error terminal => .failed (truncateStr error maxErrorBytes) terminal
  | status => status

namespace RunningDataflow

/-- The record that `make_record` builds. -/
def makeRecord (df : RunningDataflow) (status : DataflowStatus) (now : Nat) : DataflowRecord :=
  { name := df.name
    descriptor := df.descriptor
    status := status.truncated
    daemonIds := df.daemons.toList
    nodeToDaemon := df.nodeToDaemon
    uv := df.uv
    readyBarrierReleased := df.readyBarrierReleased
    barrierExitedBeforeSubscribe := df.exitedBeforeSubscribe
    generation := df.storeGeneration + 1
    createdAt := df.createdAt
    updatedAt := now }

/-- What `make_record` does to the entry itself. -/
def bumpGeneration (df : RunningDataflow) : RunningDataflow :=
  { df with storeGeneration := df.storeGeneration + 1 }

/-- `RunningDataflow::recovered` -/
def recovered (record : DataflowRecord) (nodes : TreeMap NodeId Node) (daemonId : DaemonId)
    (reportedNodes : List NodeId) (uuid : DataflowId) (now : Nat) : RunningDataflow :=
  { name := record.name
    descriptor := record.descriptor
    daemons := (∅ : TreeSet DaemonId).insert daemonId
    pendingDaemons := ∅
    exitedBeforeSubscribe := record.barrierExitedBeforeSubscribe
    readyBarrierReleased := record.readyBarrierReleased
    nodes := nodes
    nodeToDaemon := TreeMap.ofList (reportedNodes.map fun node => (node, daemonId))
    spawnResult := .cached (.ok (.dataflowSpawned uuid))
    stopReplySenders := []
    pendingSpawnResults := ∅
    spawnStartedAt := now
    createdAt := record.createdAt
    storeGeneration := record.generation
    lastRecoveryAttempt := ∅
    uv := record.uv }

def nodesOnDaemon (df : RunningDataflow) (daemonId : DaemonId) : List NodeId :=
  (df.nodeToDaemon.toList.filter fun entry => entry.2 = daemonId).map Prod.fst

def parked (df : RunningDataflow) : List ReplySender := df.stopReplySenders ++ df.spawnResult.waiters

def ready (df : RunningDataflow) (d : DaemonId) (exited : List NodeId) :
    RunningDataflow :=
  { df with
    pendingDaemons := df.pendingDaemons.erase d
    exitedBeforeSubscribe := df.exitedBeforeSubscribe ++ exited }

def spawnReported (df : RunningDataflow) (d : DaemonId) : RunningDataflow :=
  { df with pendingSpawnResults := df.pendingSpawnResults.erase d }

def finished (df : RunningDataflow) (d : DaemonId) : RunningDataflow :=
  { df with daemons := df.daemons.erase d }

end RunningDataflow

structure ArchivedDataflow where
  name : Option String
  nodes : TreeMap NodeId Node

def RunningDataflow.archived (df : RunningDataflow) : ArchivedDataflow := ⟨df.name, df.nodes⟩

structure PendingRestart where
  descriptor : Descriptor
  name : Option String
  uv : Bool
  replySender : ReplySender

/-! ## Connections -/

/-- The `DaemonCoordinatorEvent`s that the functions modelled here send. -/
inductive Command where
  | heartbeat
  | spawn (dataflowId : DataflowId) (spawnNodes : List NodeId) (uv : Bool)
  | allNodesReady (dataflowId : DataflowId) (exitedBeforeSubscribe : List NodeId)
  | stopDataflow (dataflowId : DataflowId) (graceDuration : Option Nat) (force : Bool)
  | peerDaemonDisconnected (daemonId : DaemonId)
  | addNode (dataflowId : DataflowId) (node : NodeId)
  | removeNode (dataflowId : DataflowId) (node : NodeId) (graceDuration : Option Nat)
deriving DecidableEq, Repr

structure DaemonConnection where
  connectionId : ConnectionId
  labels : List (String × String)
  lastHeartbeat : Nat
  consecutiveHeartbeatSendTimeouts : Nat := 0
  /-- The task that writes to the daemon is gone, so that every send fails. -/
  channelClosed : Bool := false
  /-- What has been put on the connection, oldest first. -/
  frames : List Command := []

/-! ## The coordinator -/

inductive Effect where
  /-- A caller is answered. `parkedOn` is the dataflow whose entry it waited on, if it had to wait. -/
  | reply (parkedOn : Option DataflowId) (sender : ReplySender) (result : Reply)
  | put (daemonId : DaemonId) (connectionId : ConnectionId) (command : Command)
  /-- `broadcast_all_nodes_ready` ran, with these members. -/
  | broadcast (uuid : DataflowId) (members : TreeSet DaemonId)
  /-- `replay_all_nodes_ready` ran, for this daemon. -/
  | replay (uuid : DataflowId) (daemonId : DaemonId)
  | persisted (uuid : DataflowId) (status : DataflowStatus)
  | deleted (uuid : DataflowId)
  /-- A deferred restart started a new dataflow. -/
  | incarnation (sender : ReplySender) (oldUuid newUuid : DataflowId)

structure Coordinator where
  runningDataflows : TreeMap DataflowId RunningDataflow := ∅
  pendingRestarts : TreeMap DataflowId PendingRestart := ∅
  dataflowResults : IndexMap DataflowId (TreeMap DaemonId DaemonResult) := []
  archivedDataflows : IndexMap DataflowId ArchivedDataflow := []
  daemonConnections : TreeMap DaemonId DaemonConnection := ∅
  store : TreeMap DataflowId DataflowRecord := ∅
  /-- Whether the store answers reads at the moment. -/
  storeReadable : Bool := true
  /-- Milliseconds. -/
  now : Nat := 0
  /-- `spawn_result_timeout()`, in milliseconds. -/
  spawnResultTimeout : Nat := 60000
  nextUuid : Nat := 0
  nextSender : ReplySender := 0
  emitted : List Effect := []

namespace Coordinator

def emit (s : Coordinator) (effect : Effect) : Coordinator :=
  { s with emitted := s.emitted ++ [effect] }

/-- `reply_sender.send(result)` to the caller of the request that is handled now. -/
def reply (s : Coordinator) (sender : ReplySender) (result : Reply) : Coordinator :=
  s.emit (.reply none sender result)

def answerAll (s : Coordinator) (uuid : DataflowId) (senders : List ReplySender) (result : Reply) :
    Coordinator :=
  { s with emitted := s.emitted ++ senders.map fun sender => .reply (some uuid) sender result }

def answerStops (s : Coordinator) (uuid : DataflowId) (senders : List ReplySender)
    (result : DataflowResult) : Coordinator :=
  s.answerAll uuid senders (.ok (.dataflowStopped uuid result))

/-- `connection.send` to the daemon's connection, if there is one; a failure is only logged. -/
def send (s : Coordinator) (daemonId : DaemonId) (command : Command) : Coordinator :=
  match s.daemonConnections[daemonId]? with
  | none => s
  | some connection =>
    if connection.channelClosed then s
    else
      { s with
        daemonConnections := s.daemonConnections.insert daemonId
          { connection with frames := connection.frames ++ [command] } }.emit
        (.put daemonId connection.connectionId command)

/-- Whether `connection.send_and_receive` gets the reply that the caller expects: the daemon is
connected and is among those that accept. -/
def answersRequest (s : Coordinator) (daemonId : DaemonId) (accepting : List DaemonId) : Bool :=
  match s.daemonConnections[daemonId]? with
  | none => false
  | some connection => !connection.channelClosed && daemonId ∈ accepting

def setDataflow (s : Coordinator) (uuid : DataflowId) (df : RunningDataflow) : Coordinator :=
  { s with runningDataflows := s.runningDataflows.insert uuid df }

def removeDataflow (s : Coordinator) (uuid : DataflowId) : Coordinator :=
  { s with runningDataflows := s.runningDataflows.erase uuid }

def removeRestart (s : Coordinator) (uuid : DataflowId) : Coordinator :=
  { s with pendingRestarts := s.pendingRestarts.erase uuid }

/-- `store.put_dataflow` -/
def putDataflow (s : Coordinator) (uuid : DataflowId) (record : DataflowRecord) : Coordinator :=
  { s with store := s.store.insert uuid record }.emit (.persisted uuid record.status)

/-- `dataflow.make_record(status).and_then(|r| store.put_dataflow(&r))` on a live entry. -/
def persist (s : Coordinator) (uuid : DataflowId) (df : RunningDataflow) (status : DataflowStatus) :
    Coordinator :=
  (s.putDataflow uuid (df.makeRecord status s.now)).setDataflow uuid df.bumpGeneration

/-- `store.get_dataflow`; an error reads as `none`. -/
def getDataflow (s : Coordinator) (uuid : DataflowId) : Option DataflowRecord :=
  if s.storeReadable then s.store[uuid]? else none

/-- `store.list_dataflows`, in the order of the UUIDs; an error reads as no records. -/
def listDataflows (s : Coordinator) : List (DataflowId × DataflowRecord) :=
  if s.storeReadable then s.store.toList else []

/-- `CachedResult::set_result` on the spawn result of an entry, together with the answers it sends. -/
def setSpawnResult (s : Coordinator) (uuid : DataflowId) (df : RunningDataflow) (result : Reply) :
    Coordinator × RunningDataflow :=
  match df.spawnResult with
  | .pending senders => (s.answerAll uuid senders result, { df with spawnResult := .cached result })
  | .cached _ => (s, df)

end Coordinator

end Dora.Coord
