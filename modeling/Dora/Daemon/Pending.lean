import Dora.Message.Id

/-!
# The startup barrier (`binaries/daemon/src/pending.rs`)

A dataflow starts when every node of its startup cohort has subscribed. Until then the subscribe
requests are parked; they are answered all at once, with an error if a member of the cohort exited
before it subscribed. If some nodes run under other daemons the answer also waits for the
coordinator's verdict, which is latched in `externalReady`.
-/

namespace Dora

open Std

inductive DataflowStatus where
  | allNodesReady
  | pending
deriving DecidableEq, Repr

structure PendingNodes where
  dataflowId : String
  /-- The cohort members that have not subscribed yet. -/
  localNodes : TreeSet NodeId
  externalNodes : Bool
  /-- The reply channel of each parked subscribe request. -/
  waitingSubscribers : TreeMap NodeId Nat
  cohort : TreeSet NodeId
  exitedBeforeSubscribe : List NodeId
  reportedInitToCoordinator : Bool
  /-- The coordinator's verdict, once it has arrived: the nodes that died before subscribing. -/
  externalReady : Option (List NodeId)

structure SubscribeAnswer where
  nodeId : NodeId
  reply : Nat
  result : Except String Unit

/-- What one call does to the outside: the replies it sends, the cascading errors it records
(causing node, affected node), the report it sends to the coordinator, and its return value. -/
structure BarrierOutcome where
  answers : List SubscribeAnswer := []
  cascading : List (NodeId × NodeId) := []
  reported : Option (List NodeId) := none
  status : Except String (Option DataflowStatus)

def BarrierOutcome.append (first second : BarrierOutcome) : BarrierOutcome where
  answers := first.answers ++ second.answers
  cascading := first.cascading ++ second.cascading
  reported := first.reported.or second.reported
  status := second.status

abbrev CoordinatorSender := Option (Except String Unit)

namespace PendingNodes

def new (dataflowId : String) (externalNodes : Bool) : PendingNodes where
  dataflowId := dataflowId
  localNodes := ∅
  externalNodes := externalNodes
  waitingSubscribers := ∅
  cohort := ∅
  exitedBeforeSubscribe := []
  reportedInitToCoordinator := false
  externalReady := none

def insert (p : PendingNodes) (nodeId : NodeId) : PendingNodes :=
  { p with localNodes := p.localNodes.insert nodeId, cohort := p.cohort.insert nodeId }

def isPending (p : PendingNodes) (nodeId : NodeId) : Bool := p.localNodes.contains nodeId

def startupFailure (p : PendingNodes) (causingNode : NodeId) : String :=
  "Node " ++ causingNode.name ++ " exited before initializing dora. For more information, run " ++
    "`dora logs " ++ p.dataflowId ++ " --node " ++ causingNode.name ++ "`."

def causingNode (p : PendingNodes) (exitedExternal : List NodeId) : Option NodeId :=
  p.exitedBeforeSubscribe.head?.or exitedExternal.head?

def answerFor (p : PendingNodes) (exitedExternal : List NodeId) (entry : NodeId × Nat) :
    SubscribeAnswer where
  nodeId := entry.1
  reply := entry.2
  result :=
    match p.causingNode exitedExternal with
    | some causing => if p.cohort.contains entry.1 then .error (p.startupFailure causing) else .ok ()
    | none => .ok ()

def answerSubscribeRequests (p : PendingNodes) (exitedExternal : List NodeId) :
    PendingNodes × List SubscribeAnswer × List (NodeId × NodeId) :=
  let entries := p.waitingSubscribers.toList
  ({ p with waitingSubscribers := ∅ },
    entries.map (p.answerFor exitedExternal),
    match p.causingNode exitedExternal with
    | some causing =>
      (entries.filter fun entry => p.cohort.contains entry.1).map fun entry => (causing, entry.1)
    | none => [])

def reportNodesReady (sender : CoordinatorSender) : Except String Unit :=
  match sender with
  | none => .error "no coordinator sender to send AllNodesReady"
  | some result => result

def release (p : PendingNodes) (exitedExternal : List NodeId) : PendingNodes × BarrierOutcome :=
  let barrierSucceeded := exitedExternal.isEmpty && p.exitedBeforeSubscribe.isEmpty
  let answered := p.answerSubscribeRequests exitedExternal
  (answered.1,
    { answers := answered.2.1
      cascading := answered.2.2
      status := .ok (some (if barrierSucceeded then .allNodesReady else .pending)) })

def followVerdict (p : PendingNodes) : PendingNodes × BarrierOutcome :=
  match p.externalReady with
  | some exitedExternal => p.release exitedExternal
  | none => (p, { status := .ok (some .pending) })

def updateDataflowStatus (p : PendingNodes) (sender : CoordinatorSender) :
    PendingNodes × BarrierOutcome :=
  if p.localNodes.isEmpty then
    if p.externalNodes then
      if p.reportedInitToCoordinator then p.followVerdict
      else
        match reportNodesReady sender with
        | .error err => (p, { status := .error err })
        | .ok () =>
          let (p', outcome) := { p with reportedInitToCoordinator := true }.followVerdict
          (p', { outcome with reported := some p.exitedBeforeSubscribe })
    else
      let answered := p.answerSubscribeRequests []
      (answered.1,
        { answers := answered.2.1
          cascading := answered.2.2
          status := .ok (some .allNodesReady) })
  else (p, { status := .ok (some .pending) })

def handleNodeRemoval (p : PendingNodes) (nodeId : NodeId) (sender : CoordinatorSender) :
    PendingNodes × BarrierOutcome :=
  { p with
    localNodes := p.localNodes.erase nodeId
    cohort := p.cohort.erase nodeId
    waitingSubscribers := p.waitingSubscribers.erase nodeId
    exitedBeforeSubscribe := p.exitedBeforeSubscribe.filter (· ≠ nodeId) }.updateDataflowStatus
      sender

def handleNodeSubscription (p : PendingNodes) (nodeId : NodeId) (reply : Nat)
    (sender : CoordinatorSender) : PendingNodes × BarrierOutcome :=
  { p with
    waitingSubscribers := p.waitingSubscribers.insert nodeId reply
    localNodes := p.localNodes.erase nodeId }.updateDataflowStatus sender

def handleNodeStop (p : PendingNodes) (nodeId : NodeId) (sender : CoordinatorSender) :
    PendingNodes × BarrierOutcome :=
  if p.localNodes.contains nodeId then
    { p with
      localNodes := p.localNodes.erase nodeId
      exitedBeforeSubscribe := p.exitedBeforeSubscribe ++ [nodeId] }.updateDataflowStatus sender
  else (p, { status := .ok (some .pending) })

def dropPendingNodes (p : PendingNodes) (sender : CoordinatorSender) :
    List NodeId → PendingNodes × BarrierOutcome
  | [] => (p, { status := .ok none })
  | nodeId :: rest =>
    if p.localNodes.contains nodeId then
      let (p', outcome) :=
        { p with localNodes := p.localNodes.erase nodeId }.updateDataflowStatus sender
      match outcome.status with
      | .error _ => (p', outcome)
      | .ok _ =>
        let (p'', outcome') := p'.dropPendingNodes sender rest
        (p'', outcome.append outcome')
    else p.dropPendingNodes sender rest

def handleDataflowStop (p : PendingNodes) (dynamicNodes : TreeSet NodeId)
    (sender : CoordinatorSender) : PendingNodes × BarrierOutcome :=
  p.dropPendingNodes sender dynamicNodes.toList

def handleExternalAllNodesReady (p : PendingNodes) (exitedBeforeSubscribe : List NodeId) :
    PendingNodes × BarrierOutcome :=
  { p with externalReady := some exitedBeforeSubscribe }.release exitedBeforeSubscribe

end PendingNodes

inductive PendingOp where
  | insert (nodeId : NodeId)
  | nodeSubscription (nodeId : NodeId) (sender : CoordinatorSender)
  | nodeStop (nodeId : NodeId) (sender : CoordinatorSender)
  | nodeRemoval (nodeId : NodeId) (sender : CoordinatorSender)
  | dataflowStop (dynamicNodes : TreeSet NodeId) (sender : CoordinatorSender)
  | externalAllNodesReady (exitedBeforeSubscribe : List NodeId)

/-- The barrier and the number of calls so far, which numbers the reply channels: each subscribe
request brings a channel of its own. -/
structure Barrier where
  pending : PendingNodes
  calls : Nat := 0

def PendingNodes.apply (p : PendingNodes) (reply : Nat) : PendingOp → PendingNodes × BarrierOutcome
  | .insert nodeId => (p.insert nodeId, { status := .ok none })
  | .nodeSubscription nodeId sender => p.handleNodeSubscription nodeId reply sender
  | .nodeStop nodeId sender => p.handleNodeStop nodeId sender
  | .nodeRemoval nodeId sender => p.handleNodeRemoval nodeId sender
  | .dataflowStop dynamicNodes sender => p.handleDataflowStop dynamicNodes sender
  | .externalAllNodesReady exited => p.handleExternalAllNodesReady exited

def Barrier.step (b : Barrier) (op : PendingOp) : Barrier × BarrierOutcome :=
  ({ pending := (b.pending.apply b.calls op).1, calls := b.calls + 1 },
    (b.pending.apply b.calls op).2)

def Barrier.new (dataflowId : String) (externalNodes : Bool) : Barrier where
  pending := .new dataflowId externalNodes

end Dora
