import Dora.Coordinator.State
import Dora.Lib.ChangeLog
import Dora.Lib.Machine

/-!
# Runtime parameters (`coordinator/src/params.rs`, `state.rs`, `control_requests.rs`,
# `daemon_events.rs`, `daemon/src/coordinator_events.rs`)

A `SetParam` or `DeleteParam` request writes the row of the store, appends to the replication log of the
dataflow's entry and is forwarded to the daemon of the node. A daemon that reports the dataflow after a
reconnect is sent the log entries after its last ack, or all rows of its nodes when the log was pruned past
it; once the ready barrier has been released, a task replays the rows as well.

The world is one running dataflow with its coordinator, its connections and the events handed to the nodes.
Where the event loop waits for a daemon, and between two steps of a replay task, other parties move.
-/

namespace Dora.Coord

open Std Lib

abbrev ParamKey := NodeId × String

abbrev ParamValue := String

/-- `SetParam` and `DeleteParam`: as requests, log operations, messages and node events alike. -/
abbrev ParamChange := Change ParamKey ParamValue

def setParam (node : NodeId) (key : String) (value : ParamValue) : ParamChange :=
  { key := (node, key), image := some value }

def deleteParam (node : NodeId) (key : String) : ParamChange :=
  { key := (node, key), image := none }

structure StateCatchUpEntry where
  sequence : Nat
  operation : ParamChange
deriving DecidableEq, Repr

/-! ## The entry's replication log -/

/-- The fields of a `RunningDataflow` that the parameters use. -/
structure ParamDataflow where
  daemons : TreeSet DaemonId
  nodeToDaemon : TreeMap NodeId DaemonId
  lastReplayAttempt : TreeMap DaemonId Nat := ∅
  stateLogSequence : Nat := 0
  stateLog : List StateCatchUpEntry := []
  daemonAckSequence : TreeMap DaemonId Nat

def maxStateLogEntries : Nat := 10000

def fallbackReplayBackoff : Nat := 5

namespace ParamDataflow

def appendStateLog (df : ParamDataflow) (operation : ParamChange) : ParamDataflow :=
  let entry : StateCatchUpEntry := { sequence := df.stateLogSequence + 1, operation }
  let log := df.stateLog ++ [entry]
  { df with
    stateLogSequence := df.stateLogSequence + 1
    stateLog := log.drop (log.length - maxStateLogEntries) }

def lastAck (df : ParamDataflow) (daemon : DaemonId) : Nat := df.daemonAckSequence[daemon]?.getD 0

def pruneStateLog (df : ParamDataflow) : ParamDataflow :=
  let minAck := (df.daemons.toList.map df.lastAck).min?.getD 0
  { df with stateLog := df.stateLog.filter fun e => minAck < e.sequence }

def stateLogDelta (df : ParamDataflow) (lastAck : Nat) : Option (List StateCatchUpEntry) :=
  match df.stateLog with
  | [] => if lastAck < df.stateLogSequence then none else some []
  | oldest :: _ =>
    if lastAck + 1 < oldest.sequence then none
    else some (df.stateLog.filter fun e => lastAck < e.sequence)

def recovered (daemon : DaemonId) (reported : List NodeId) : ParamDataflow :=
  { daemons := (∅ : TreeSet DaemonId).insert daemon
    nodeToDaemon := reported.foldl (fun m n => m.insert n daemon) ∅
    daemonAckSequence := (∅ : TreeMap DaemonId Nat).insert daemon 0 }

def relink (df : ParamDataflow) (daemon : DaemonId) (reported : List NodeId) : ParamDataflow :=
  { df with
    daemons := df.daemons.insert daemon
    nodeToDaemon := reported.foldl (fun m n => m.insert n daemon) df.nodeToDaemon }

def nodesOnDaemon (df : ParamDataflow) (daemon : DaemonId) : List NodeId :=
  df.nodeToDaemon.keys.filter fun n => df.nodeToDaemon[n]? = some daemon

theorem mem_nodesOnDaemon {df : ParamDataflow} {d : DaemonId} {n : NodeId} :
    n ∈ df.nodesOnDaemon d ↔ df.nodeToDaemon[n]? = some d := by
  rw [nodesOnDaemon, List.mem_filter, TreeMap.mem_keys, decide_eq_true_eq]
  refine ⟨And.right, fun h => ⟨?_, h⟩⟩
  rw [TreeMap.mem_iff_isSome_getElem?, h]
  rfl

def setAck (df : ParamDataflow) (daemon : DaemonId) (ack : Nat) : ParamDataflow :=
  { df with daemonAckSequence := df.daemonAckSequence.insert daemon ack }

/-- The daemon registers under a fresh id when it comes back, for which nothing is recorded yet. -/
def leave (df : ParamDataflow) (daemon : DaemonId) : ParamDataflow :=
  { df with
    daemons := df.daemons.erase daemon
    lastReplayAttempt := df.lastReplayAttempt.erase daemon
    daemonAckSequence := df.daemonAckSequence.erase daemon }

def stateCatchUpAck (df : ParamDataflow) (daemon : DaemonId) (ack : Nat) : ParamDataflow :=
  if daemon ∈ df.daemons then
    (df.setAck daemon (max (min ack df.stateLogSequence) (df.lastAck daemon))).pruneStateLog
  else df

end ParamDataflow

/-! ## The world -/

inductive ParamMessage where
  | param (change : ParamChange)
  | stateCatchUp (entries : List StateCatchUpEntry)
deriving DecidableEq

inductive EventLoop where
  | idle
  /-- The row is written and logged, the message is not yet on the connection. -/
  | forwarding (daemon : DaemonId) (change : ParamChange)
  /-- The fallback replay: the items still to be sent, and how many failed. -/
  | replaying (daemon : DaemonId) (items : List ParamChange) (failed : Nat)
deriving DecidableEq

/-- A spawned `replay_persisted_params_for_daemon`: it reads the rows of its nodes, then it sends them. -/
structure ReplayTask where
  daemon : DaemonId
  nodes : List NodeId
  items : List ParamChange := []
deriving DecidableEq

structure ParamWorld where
  /-- The nodes of the descriptor, and the daemon that each runs on. -/
  nodes : List NodeId
  home : NodeId → DaemonId
  rows : NodeId → TreeMap String ParamValue := fun _ => ∅
  readyBarrierReleased : Bool := false
  entry : Option ParamDataflow
  loop : EventLoop := .idle
  tasks : List ReplayTask := []
  /-- What was put on each connection and not yet handled; `none` where there is no connection. -/
  links : DaemonId → Option (List ParamMessage)
  /-- The `StateCatchUpAck`s that each daemon has sent and that were not yet handled. -/
  acks : DaemonId → List Nat := fun _ => []
  /-- The mutations that were logged since the entry was built, the first under number 1. -/
  mutations : List ParamChange := []
  /-- The `ParamUpdate` and `ParamDeleted` events handed to node channels. -/
  handed : List ParamChange := []

/-- How the loop's `send_and_receive` of one replay item ends. -/
inductive ReplayOutcome where
  | delivered
  /-- Corrupt, not sent, or refused by the daemon. -/
  | failed
  /-- No reply in time; the daemon handles the message later. -/
  | late
deriving DecidableEq

inductive ParamEvent where
  | request (change : ParamChange)
  | forward (sent : Bool)
  | broadcastAllNodesReady
  | taskRead (task : Nat) (readable : Bool)
  | taskSend (task : Nat) (sent : Bool)
  /-- The daemon handles its next message; the channels take at most `room` events of it. -/
  | handle (daemon : DaemonId) (room : Nat)
  | ackArrives (daemon : DaemonId)
  | ackLost (daemon : DaemonId)
  | statusReport (daemon : DaemonId) (runningNodes : List NodeId) (now : Nat) (unreadable : List NodeId)
  | replayItem (outcome : ReplayOutcome)
  | connectionLost (daemon : DaemonId)
  | daemonExit (daemon : DaemonId)
  | connect (daemon : DaemonId)

namespace ParamWorld

def row (w : ParamWorld) (k : ParamKey) : Option ParamValue := (w.rows k.1)[k.2]?

def writeRow (w : ParamWorld) (c : ParamChange) : ParamWorld :=
  let params := match c.image with
    | some value => (w.rows c.key.1).insert c.key.2 value
    | none => (w.rows c.key.1).erase c.key.2
  { w with rows := Function.update w.rows c.key.1 params }

/-- `list_node_params`, as the messages that replay the rows. -/
def nodeParams (w : ParamWorld) (node : NodeId) : List ParamChange :=
  (w.rows node).toList.map fun p => setParam node p.1 p.2

def collectParamReplayItems (w : ParamWorld) (nodes unreadable : List NodeId) : List ParamChange :=
  (nodes.filter fun n => n ∉ unreadable).flatMap w.nodeParams

def put (w : ParamWorld) (daemon : DaemonId) (m : ParamMessage) : ParamWorld :=
  { w with links := Function.update w.links daemon ((w.links daemon).map (· ++ [m])) }

/-! ### Requests -/

/-- `handle_set_param` and `handle_delete_param` up to the message to the daemon. -/
def handleParamRequest (w : ParamWorld) (c : ParamChange) : ParamWorld :=
  match w.entry with
  | none => if c.key.1 ∈ w.nodes then w.writeRow c else w
  | some df =>
    match df.nodeToDaemon[c.key.1]? with
    | none => w
    | some daemon =>
      { w.writeRow c with
        entry := some (df.appendStateLog c)
        mutations := w.mutations ++ [c]
        loop := .forwarding daemon c }

/-! ### Replay tasks -/

def startReplay (w : ParamWorld) (df : ParamDataflow) (daemon : DaemonId) : ParamWorld :=
  { w with tasks := w.tasks ++ [{ daemon, nodes := df.nodesOnDaemon daemon }] }

def dropTasks (w : ParamWorld) (daemon : DaemonId) : ParamWorld :=
  { w with tasks := w.tasks.filter fun t => t.daemon ≠ daemon }

def broadcastAllNodesReady (w : ParamWorld) (df : ParamDataflow) : ParamWorld :=
  (df.daemons.toList.filter fun d => (w.links d).isSome).foldl (fun w d => w.startReplay df d)
    { w with readyBarrierReleased := true }

def taskRead (w : ParamWorld) (i : Nat) (readable : Bool) : ParamWorld :=
  match w.tasks[i]? with
  | some { daemon, nodes := node :: nodes, items } =>
    let read := if readable then w.nodeParams node else []
    { w with tasks := w.tasks.set i { daemon, nodes, items := items ++ read } }
  | _ => w

def taskSend (w : ParamWorld) (i : Nat) (sent : Bool) : ParamWorld :=
  match w.tasks[i]? with
  | some { daemon, nodes := [], items := item :: items } =>
    let w' := if sent then w.put daemon (.param item) else w
    { w' with tasks := w.tasks.set i { daemon, nodes := [], items } }
  | _ => w

/-! ### The daemon -/

/-- Stops at the first entry whose node has no channel on this daemon, or whose channel takes nothing. -/
def applyStateCatchUpEntries (w : ParamWorld) (daemon : DaemonId) (entries : List StateCatchUpEntry)
    (room : Nat) : List StateCatchUpEntry :=
  (entries.takeWhile fun e => w.home e.operation.key.1 = daemon).take room

def handleMessage (w : ParamWorld) (daemon : DaemonId) (room : Nat) : ParamMessage → ParamWorld
  | .param c =>
    if w.home c.key.1 = daemon ∧ 0 < room then { w with handed := w.handed ++ [c] } else w
  | .stateCatchUp entries =>
    let applied := w.applyStateCatchUpEntries daemon entries room
    { w with
      handed := w.handed ++ applied.map StateCatchUpEntry.operation
      -- nothing is acked when nothing was applied
      acks := Function.update w.acks daemon
        (w.acks daemon ++ (applied.getLast?.map StateCatchUpEntry.sequence).toList) }

def handle (w : ParamWorld) (daemon : DaemonId) (room : Nat) : ParamWorld :=
  match w.links daemon with
  | some (m :: rest) =>
    ({ w with links := Function.update w.links daemon (some rest) } : ParamWorld).handleMessage
      daemon room m
  | _ => w

def ackLost (w : ParamWorld) (daemon : DaemonId) : ParamWorld :=
  { w with acks := Function.update w.acks daemon (w.acks daemon).tail }

def ackArrives (w : ParamWorld) (daemon : DaemonId) : ParamWorld :=
  match w.acks daemon with
  | [] => w
  | ack :: _ =>
    { w.ackLost daemon with entry := w.entry.map fun df => df.stateCatchUpAck daemon ack }

/-! ### Status reports -/

/-- `reestablish_running_dataflow`: a rebuilt entry numbers its mutations from 1 again. -/
def reestablish (w : ParamWorld) (daemon : DaemonId) (reported : List NodeId) : ParamWorld :=
  match w.entry with
  | some df => { w with entry := some (df.relink daemon reported) }
  | none => { w with entry := some (.recovered daemon reported), mutations := [] }

def replayAllNodesReady (w : ParamWorld) (daemon : DaemonId) : ParamWorld :=
  match w.entry with
  | some df => if w.readyBarrierReleased then w.startReplay df daemon else w
  | none => w

def finishReplay (w : ParamWorld) (daemon : DaemonId) (failed : Nat) : ParamWorld :=
  { w with
    loop := .idle
    entry := if failed = 0 then w.entry.map fun df => df.setAck daemon df.stateLogSequence else w.entry }

def continueReplay (w : ParamWorld) (daemon : DaemonId) (items : List ParamChange) (failed : Nat) :
    ParamWorld :=
  match items with
  | [] => w.finishReplay daemon failed
  | _ :: _ => { w with loop := .replaying daemon items failed }

def inBackoff (df : ParamDataflow) (daemon : DaemonId) (now : Nat) : Bool :=
  match df.lastReplayAttempt[daemon]? with
  | some last => now - last < fallbackReplayBackoff
  | none => false

def handlePrunedStateCatchupFallback (w : ParamWorld) (df : ParamDataflow) (daemon : DaemonId) (now : Nat)
    (unreadable : List NodeId) : ParamWorld :=
  if inBackoff df daemon now then w
  else
    let df' := { df with lastReplayAttempt := df.lastReplayAttempt.insert daemon now }
    ({ w with entry := some df' } : ParamWorld).continueReplay daemon
      (w.collectParamReplayItems (df.nodesOnDaemon daemon) unreadable) 0

def stateCatchUp (w : ParamWorld) (daemon : DaemonId) (now : Nat) (unreadable : List NodeId) :
    ParamWorld :=
  match w.entry with
  | none => w
  | some df =>
    if df.stateLogSequence ≤ df.lastAck daemon then w
    else
      match df.stateLogDelta (df.lastAck daemon) with
      | some [] => w
      | some entries => w.put daemon (.stateCatchUp entries)
      | none => w.handlePrunedStateCatchupFallback df daemon now unreadable

def handleDaemonStatusReport (w : ParamWorld) (daemon : DaemonId) (runningNodes : List NodeId) (now : Nat)
    (unreadable : List NodeId) : ParamWorld :=
  let reported := runningNodes.filter fun n => w.home n = daemon
  ((w.reestablish daemon reported).replayAllNodesReady daemon).stateCatchUp daemon now unreadable

def replayItem (w : ParamWorld) (daemon : DaemonId) (item : ParamChange) (items : List ParamChange)
    (failed : Nat) : ReplayOutcome → ParamWorld
  | .delivered =>
    -- the reply follows what was on the connection before
    match w.links daemon with
    | some [] => ({ w with handed := w.handed ++ [item] } : ParamWorld).continueReplay daemon items failed
    | _ => w
  | .failed => w.continueReplay daemon items (failed + 1)
  | .late => (w.put daemon (.param item)).continueReplay daemon items (failed + 1)

/-! ### Connections -/

def dropConnection (w : ParamWorld) (daemon : DaemonId) (link : Option (List ParamMessage)) : ParamWorld :=
  { w.dropTasks daemon with links := Function.update w.links daemon link }

/-- The daemon leaves the entry; an entry without daemons is dropped and only the record remains. Acks
that are still on the way carry the old id and are ignored. -/
def daemonExit (w : ParamWorld) (daemon : DaemonId) : ParamWorld :=
  { w with
    acks := Function.update w.acks daemon []
    entry := w.entry.bind fun df =>
      if (df.daemons.erase daemon).isEmpty then none else some (df.leave daemon) }

def step (w : ParamWorld) : ParamEvent → ParamWorld
  | .request c =>
    match w.loop with
    | .idle => w.handleParamRequest c
    | _ => w
  | .forward sent =>
    match w.loop with
    | .forwarding daemon c =>
      { (if sent then w.put daemon (.param c) else w) with loop := .idle }
    | _ => w
  | .broadcastAllNodesReady =>
    match w.loop, w.entry with
    | .idle, some df => w.broadcastAllNodesReady df
    | _, _ => w
  | .taskRead i readable => w.taskRead i readable
  | .taskSend i sent => w.taskSend i sent
  | .handle daemon room => w.handle daemon room
  | .ackArrives daemon =>
    match w.loop with
    | .idle => w.ackArrives daemon
    | _ => w
  | .ackLost daemon => w.ackLost daemon
  | .statusReport daemon runningNodes now unreadable =>
    match w.loop, w.links daemon with
    | .idle, some _ => w.handleDaemonStatusReport daemon runningNodes now unreadable
    | _, _ => w
  | .replayItem outcome =>
    match w.loop with
    | .replaying daemon (item :: items) failed => w.replayItem daemon item items failed outcome
    | _ => w
  | .connectionLost daemon => w.dropConnection daemon none
  | .daemonExit daemon =>
    match w.loop, w.links daemon with
    | .idle, none => w.daemonExit daemon
    | _, _ => w
  | .connect daemon =>
    match w.loop with
    | .idle => w.dropConnection daemon (some [])
    | _ => w

def turn (w : ParamWorld) (e : ParamEvent) : ParamWorld × Unit := (w.step e, ())

/-- A dataflow whose daemons have just been told to spawn it: nobody has set a parameter. -/
def started (nodes : List NodeId) (home : NodeId → DaemonId) : ParamWorld :=
  let daemons := TreeSet.ofList (nodes.map home)
  { nodes, home
    entry := some {
      daemons
      nodeToDaemon := nodes.foldl (fun m n => m.insert n (home n)) ∅
      daemonAckSequence := daemons.toList.foldl (fun m d => m.insert d 0) ∅ }
    links := fun d => if d ∈ daemons then some [] else none }

end ParamWorld

end Dora.Coord
