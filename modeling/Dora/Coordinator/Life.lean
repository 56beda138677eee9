import Dora.Coordinator.Events
import Dora.Lib.Loop

/-!
# The life of one dataflow

The *view* of a dataflow is what the coordinator holds about it: its entry, its record, a restart that
waits for it, its results, whether it is archived, and what the present event has answered and written for
it. `LifeStep` lists the changes of a view: every event takes every view through a sequence of them
(`LifeRefinement`), so that a property of all runs is checked for the steps only.
-/

namespace Dora.Coord

open Std Lib

/-- Whether an effect is part of the view of `u`. The answer to the request that is handled now is part
of every view, what is put on a connection of none. -/
def Effect.concerns (u : DataflowId) : Effect → Bool
  | .reply none _ _ => true
  | .reply (some uuid) _ _ => uuid = u
  | .put _ _ _ => false
  | .broadcast uuid _ => uuid = u
  | .replay uuid _ => uuid = u
  | .persisted uuid _ => uuid = u
  | .deleted uuid => uuid = u
  | .incarnation _ oldUuid _ => oldUuid = u

def Effect.repliesTo (sender : ReplySender) : Effect → Bool
  | .reply _ caller _ => caller = sender
  | _ => false

@[ext] structure View where
  entry : Option RunningDataflow
  record : Option DataflowRecord
  restart : Option PendingRestart
  results : Option (TreeMap DaemonId DaemonResult)
  archived : Bool
  effects : List Effect

def Coordinator.view (s : Coordinator) (u : DataflowId) : View where
  entry := s.runningDataflows[u]?
  record := s.store[u]?
  restart := s.pendingRestarts[u]?
  results := s.dataflowResults.get? u
  archived := s.archivedDataflows.contains u
  effects := s.emitted.filter (·.concerns u)

namespace View

variable (u : DataflowId) (v : View)

def put (record : DataflowRecord) : View :=
  { v with record := some record, effects := v.effects ++ [.persisted u record.status] }

def persist (df : RunningDataflow) (status : DataflowStatus) (now : Nat) : View :=
  { v.put u (df.makeRecord status now) with entry := some df.bumpGeneration }

def answer (senders : List ReplySender) (result : Reply) : View :=
  { v with effects := v.effects ++ senders.map fun sender => .reply (some u) sender result }

def cancelRestart (reason : String) : View :=
  match v.restart with
  | none => v
  | some restart => { v with restart := none }.answer u [restart.replySender] (.error reason)

def release (df : RunningDataflow) (status : DataflowStatus) (now : Nat) : View :=
  let v := v.persist u { df with readyBarrierReleased := true } status now
  { v with effects := v.effects ++ [.broadcast u df.daemons] }

def replay (released : Bool) (d : DaemonId) : View :=
  if released then { v with effects := v.effects ++ [.replay u d] } else v

def failedResults (df : RunningDataflow) (errMsg : String) (sentinel : Nat) :
    TreeMap DaemonId DaemonResult :=
  (v.results.getD ∅).insertMany
    (Coordinator.synthesizeFailedDataflowResults df errMsg sentinel).toList

def teardown (df : RunningDataflow) (errMsg : String) (sentinel : Nat) : View :=
  { { v with entry := none }.cancelRestart u (Coordinator.restartOfFailedSpawn u errMsg) with
    results := some (v.failedResults df errMsg sentinel)
    archived := true }.answer u df.stopReplySenders
      (.ok (.dataflowStopped u (dataflowResult (v.failedResults df errMsg sentinel) u)))

def parked : List ReplySender :=
  v.entry.elim [] RunningDataflow.parked ++ v.restart.toList.map (·.replySender)

def custody (sender : ReplySender) : Nat :=
  v.parked.count sender + v.effects.countP (·.repliesTo sender)

def Blank : Prop :=
  v.entry = none ∧ v.record = none ∧ v.restart = none ∧ v.results = none ∧ v.archived = false

def conclude (df : RunningDataflow) (results : TreeMap DaemonId DaemonResult) (answers : List Effect)
    (now : Nat) : View :=
  (({ v with entry := none, restart := none, effects := v.effects ++ answers }.put u
    (df.makeRecord (Coordinator.finalStatus (some results)) now)).answer u df.stopReplySenders
      (.ok (.dataflowStopped u (dataflowResult results u)))).answer u df.spawnResult.waiters
        (.error (Coordinator.spawnNeverCompleted (some results)))

end View

def Coordinator.lostBy (s : Coordinator) : Event → List DaemonId
  | .daemonExit d c _ => if s.daemonConnections[d]?.map (·.connectionId) = some c then [d] else []
  | .heartbeatInterval full _ => s.failedWatchdog full
  | _ => []

/-- A start, or the report that a dataflow is over for which a restart waits, may start `u`. -/
def Event.mayStart (s : Coordinator) (u : DataflowId) : Event → Prop
  | .start _ _ _ _ => True
  | .finishedOnDaemon uuid _ _ _ => uuid ≠ u ∧ s.pendingRestarts[uuid]? ≠ none
  | _ => False

def Event.isReport : Event → Bool
  | .statusReport _ _ _ => true
  | _ => false

def Coordinator.stopTarget (s : Coordinator) : Event → Option DataflowId
  | .stop uuid _ _ _ => some uuid
  | .stopByName name _ _ _ => (s.resolveName name).toOption
  | _ => none

def Coordinator.restartTarget (s : Coordinator) : Event → Option DataflowId
  | .restart uuid _ _ _ => some uuid
  | .restartByName name _ _ _ => (s.resolveName name).toOption
  | _ => none

def Coordinator.parkTarget (s : Coordinator) : Event → Option DataflowId
  | .waitForSpawn uuid => some uuid
  | e => (s.stopTarget e).or (s.restartTarget e)

/-- How the caller of a restart that waits for `u` is answered when `u` is over. -/
def RestartAnswer (u : DataflowId) (answers : List Effect) : Option PendingRestart → Prop
  | none => answers = []
  | some restart =>
    (∃ error, answers = [.reply (some u) restart.replySender (.error error)]) ∨
    ∃ new, answers =
      [.reply (some u) restart.replySender (.ok (.dataflowRestarted u new)),
        .incarnation restart.replySender u new]

def releaseStatusOf (v : View) (status : DataflowStatus) : Prop :=
  status = .running ∨ status = .pending ∨ ∃ record, v.record = some record ∧ status = record.status

def DataflowStatus.revivable : DataflowStatus → Bool
  | .failed _ terminal => !terminal
  | .pending | .recovering => true
  | _ => false

/-- A record that the next start of the coordinator takes for one of a dataflow that was running. -/
def DataflowStatus.unsettled : DataflowStatus → Bool
  | .pending | .running | .stopping | .recovering => true
  | _ => false

/-- The ways in which the view of `u` changes while the coordinator handles `e` in the state `s`. -/
inductive LifeStep (s : Coordinator) (e : Event) (u : DataflowId) : View → View → Prop
  | started {v : View} (descriptor : Descriptor) (name : Option String) (nodes : TreeMap NodeId Node)
      (placed : TreeMap NodeId DaemonId) (uv : Bool) (now : Nat) (he : e.mayStart s u)
      (hu : u = s.nextUuid)
      (hblank : v.Blank) (hplaced : ∀ d ∈ Coordinator.daemonsOf placed, d ∈ s.daemonConnections) :
      LifeStep s e u v
        (v.persist u (Coordinator.freshDataflow descriptor name nodes placed uv now) .pending now)
  | ready {v : View} {df : RunningDataflow} (d : DaemonId) (exited : List NodeId)
      (he : e = .readyOnDaemon u d exited) (hv : v.entry = some df)
      (hleft : (df.ready d exited).pendingDaemons.isEmpty = false) :
      LifeStep s e u v { v with entry := some (df.ready d exited) }
  | allReady {v : View} {df : RunningDataflow} (d : DaemonId) (exited : List NodeId)
      (status : DataflowStatus) (now : Nat) (he : e = .readyOnDaemon u d exited)
      (hv : v.entry = some df) (hleft : (df.ready d exited).pendingDaemons.isEmpty = true)
      (hstatus : releaseStatusOf v status) :
      LifeStep s e u v (v.release u (df.ready d exited) status now)
  | lost {v : View} {df : RunningDataflow} (reason : String) (hv : v.entry = some df)
      (haffected : df.affectedBy (s.lostBy e) = true)
      (haction : Coordinator.disconnectAction u df (s.lostBy e) = none) :
      LifeStep s e u v
        ({ v with entry := some (df.dropDaemons (s.lostBy e)) }.cancelRestart u reason)
  | lostLastPending {v : View} {df : RunningDataflow} (reason : String) (status : DataflowStatus)
      (now : Nat) (hv : v.entry = some df) (haffected : df.affectedBy (s.lostBy e) = true)
      (haction : Coordinator.disconnectAction u df (s.lostBy e) = some (.releaseReadyBarrier u))
      (hstatus : releaseStatusOf v status) :
      LifeStep s e u v
        (({ v with entry := some (df.dropDaemons (s.lostBy e)) }.cancelRestart u reason).release u
          (df.dropDaemons (s.lostBy e)) status now)
  | orphaned {v : View} {df : RunningDataflow} (reason : String) (now : Nat) (hv : v.entry = some df)
      (haffected : df.affectedBy (s.lostBy e) = true)
      (haction : Coordinator.disconnectAction u df (s.lostBy e) = some (.reclaimOrphaned u)) :
      LifeStep s e u v
        ((({ v with entry := none }.cancelRestart u reason).put u
          ((df.dropDaemons (s.lostBy e)).makeRecord .recovering now)).answer u df.stopReplySenders
            (.ok (.dataflowStopped u (.okEmpty u))))
  | spawnReported {v : View} {df : RunningDataflow} (d : DaemonId) (result : Except String Unit)
      (he : e = .spawnResult u d result) (hv : v.entry = some df) :
      LifeStep s e u v { v with entry := some (df.spawnReported d) }
  | spawned {v : View} {df : RunningDataflow} (d : DaemonId) (senders : List ReplySender) (now : Nat)
      (he : e = .spawnResult u d (.ok ())) (hv : v.entry = some df)
      (hpending : df.spawnResult = .pending senders) :
      LifeStep s e u v
        ((v.answer u senders (.ok (.dataflowSpawned u))).persist u
          { df.spawnReported d with spawnResult := .cached (.ok (.dataflowSpawned u)) } .running now)
  | spawnFailed {v : View} {df : RunningDataflow} (d : DaemonId) (err errMsg : String) (now : Nat)
      (senders : List ReplySender) (sentinel : Nat)
      (he : e = .spawnResult u d (.error err)) (hv : v.entry = some df)
      (hpending : df.spawnResult = .pending senders) :
      LifeStep s e u v
        (((v.put u ((df.spawnReported d).makeRecord (.failed ("spawn failed: " ++ err) true) now)).answer
          u senders (.error err)).teardown u df errMsg sentinel)
  | spawnTimedOut {v : View} {df : RunningDataflow} (full : List DaemonId) (order : List DataflowId)
      (errMsg : String) (now : Nat) (senders : List ReplySender) (sentinel : Nat)
      (he : e = .heartbeatInterval full order) (hv : v.entry = some df)
      (hpending : df.spawnResult = .pending senders) :
      LifeStep s e u v
        (((v.answer u senders (.error errMsg)).put u (df.makeRecord (.failed errMsg true) now)).teardown
          u df errMsg sentinel)
  | partFinished {v : View} {df : RunningDataflow} (d : DaemonId) (result : DaemonResult)
      (accepting : List DaemonId) (he : e = .finishedOnDaemon u d result accepting)
      (hv : v.entry = some df) (hleft : (df.finished d).daemons.isEmpty = false) :
      LifeStep s e u v
        { v with
          entry := some (df.finished d)
          results := some ((v.results.getD ∅).insert d result) }
  | concluded {v : View} {df : RunningDataflow} (d : DaemonId) (result : DaemonResult)
      (accepting : List DaemonId) (now : Nat) (answers : List Effect)
      (he : e = .finishedOnDaemon u d result accepting) (hv : v.entry = some df)
      (hleft : (df.finished d).daemons.isEmpty = true) (hrestart : RestartAnswer u answers v.restart) :
      LifeStep s e u v
        ({ v with
            archived := true
            results := some ((v.results.getD ∅).insert d result) }.conclude u (df.finished d)
          ((v.results.getD ∅).insert d result) answers now)
  | promoted {v : View} {record : DataflowRecord} (d : DaemonId)
      (reported : List (DataflowId × List NodeId)) (order : List DataflowId) (nodes : List NodeId)
      (he : e = .statusReport d reported order) (hreported : (u, nodes) ∈ reported)
      (hv : v.record = some record) (hstatus : record.status.revivable = true)
      (harchived : v.archived = false) (now : Nat) :
      LifeStep s e u v
        (v.put u
          { record with status := .running, generation := record.generation + 1, updatedAt := now })
  | relinked {v : View} {df : RunningDataflow} (d : DaemonId)
      (reported : List (DataflowId × List NodeId)) (order : List DataflowId) (nodes : List NodeId)
      (he : e = .statusReport d reported order) (hreported : (u, nodes) ∈ reported)
      (hv : v.entry = some df) :
      LifeStep s e u v
        ({ v with entry := some (df.relink d nodes) }.replay u df.readyBarrierReleased d)
  | recovered {v : View} {record : DataflowRecord} (d : DaemonId)
      (reported : List (DataflowId × List NodeId)) (order : List DataflowId) (nodes : List NodeId)
      (resolved : TreeMap NodeId Node) (now : Nat)
      (he : e = .statusReport d reported order) (hreported : (u, nodes) ∈ reported)
      (hv : v.entry = none) (hrecord : v.record = some record) (hstatus : record.status = .running) :
      LifeStep s e u v
        ({ v with entry := some (.recovered record resolved d nodes u now) }.replay u
          record.readyBarrierReleased d)
  | recoveryAttempted {v : View} {df : RunningDataflow} (d : DaemonId)
      (reported : List (DataflowId × List NodeId)) (order : List DataflowId)
      (attempts : TreeMap DaemonId Nat) (he : e = .statusReport d reported order)
      (hv : v.entry = some df) :
      LifeStep s e u v { v with entry := some { df with lastRecoveryAttempt := attempts } }
  | stopping {v : View} {df : RunningDataflow} (now : Nat) (he : s.stopTarget e = some u)
      (hv : v.entry = some df) (hfree : v.custody s.nextSender = 0) :
      LifeStep s e u v
        { v.persist u df .stopping now with
          entry := some { df.bumpGeneration with
            stopReplySenders := df.stopReplySenders ++ [s.nextSender] } }
  | restartCancelled {v : View} (reason : String) (he : s.stopTarget e = some u) :
      LifeStep s e u v (v.cancelRestart u reason)
  | restartParked {v : View} {df : RunningDataflow} (now : Nat) (he : s.restartTarget e = some u)
      (hv : v.entry = some df) (hrestart : v.restart = none) (hfree : v.custody s.nextSender = 0) :
      LifeStep s e u v
        { v.persist u df .stopping now with
          restart := some ⟨df.descriptor, df.name, df.uv, s.nextSender⟩ }
  | waiting {v : View} {df : RunningDataflow} (senders : List ReplySender)
      (he : e = .waitForSpawn u) (hv : v.entry = some df) (hpending : df.spawnResult = .pending senders)
      (hfree : v.custody s.nextSender = 0) :
      LifeStep s e u v
        { v with entry := some { df with spawnResult := .pending (senders ++ [s.nextSender]) } }
  | answered {v : View} (result : Reply) (hfree : v.custody s.nextSender = 0) :
      LifeStep s e u v { v with effects := v.effects ++ [.reply none s.nextSender result] }
  | nodeAdded {v : View} {df : RunningDataflow} (node : Node) (d : DaemonId)
      (accepting : List DaemonId) (he : e = .addNode u node accepting) (hv : v.entry = some df)
      (hd : d ∈ df.daemons) :
      LifeStep s e u v
        { v with
          entry := some { df with
            nodeToDaemon := df.nodeToDaemon.insert node.id d
            descriptor := ⟨df.descriptor.nodes ++ [node]⟩
            nodes := df.nodes.insert node.id node } }
  | nodeRemoved {v : View} {df : RunningDataflow} (node : NodeId) (grace : Option Nat)
      (accepting : List DaemonId) (he : e = .removeNode u node grace accepting)
      (hv : v.entry = some df) :
      LifeStep s e u v
        { v with
          entry := some { df with
            nodeToDaemon := df.nodeToDaemon.erase node
            descriptor := ⟨df.descriptor.nodes.filter (·.id ≠ node)⟩
            nodes := df.nodes.erase node } }
  | recoveryExpired {v : View} {record : DataflowRecord} (full : List DaemonId)
      (order : List DataflowId) (now : Nat) (he : e = .heartbeatInterval full order)
      (hv : v.record = some record) (hstatus : record.status = .recovering)
      (hage : now - record.updatedAt > Coordinator.recoveryTimeoutMillis) :
      LifeStep s e u v
        (v.put u
          { record with
            status := .failed "recovery timeout (60s): no daemon reconnected" true
            generation := record.generation + 1
            updatedAt := now })
  | cleaned {v : View} (he : e = .clean) (hv : v.entry = none) :
      LifeStep s e u v
        { v with
          record := none
          results := none
          archived := false
          effects := v.effects ++ [.deleted u] }
  | resultsMerged {v : View} (d : DaemonId) (result : DaemonResult) (accepting : List DaemonId)
      (results : TreeMap DaemonId DaemonResult) (he : e = .finishedOnDaemon u d result accepting)
      (hv : v.entry = none) (harchived : v.archived = true) :
      LifeStep s e u v { v with results := some results }
  | resultsCapped {v : View} (results : Option (TreeMap DaemonId DaemonResult)) (hv : v.entry = none)
      (hnone : v.results = none → results = none) :
      LifeStep s e u v { v with results := results }
  | archiveDropped {v : View} (he : e.isReport = false) : LifeStep s e u v { v with archived := false }
  | markedStopping {v : View} {df : RunningDataflow} (now : Nat)
      (he : e = .coordinatorRestart true) (hv : v.entry = some df) :
      LifeStep s e u v (v.persist u df .stopping now)
  | forgotten {v : View} (graceful : Bool) (he : e = .coordinatorRestart graceful) :
      LifeStep s e u v
        { v with entry := none, restart := none, results := none, archived := false }
  | recoveredRecord {v : View} {record : DataflowRecord} (graceful : Bool) (now : Nat)
      (he : e = .coordinatorRestart graceful) (hv : v.entry = none) (hrecord : v.record = some record)
      (hstatus : record.status.unsettled = true) :
      LifeStep s e u v
        (v.put u
          { record with
            status := .recovering
            generation := record.generation + 1
            updatedAt := now })

abbrev Lives (s : Coordinator) (e : Event) (u : DataflowId) : View → View → Prop :=
  Relation.ReflTransGen (LifeStep s e u)

end Dora.Coord
