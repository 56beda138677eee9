import Dora.Lib.Machine

/-!
# Cross-machine writes (`libraries/extensions/tensor-pool/src/daemon/control.rs`, `handlers.rs`)

A node writes a pool that is mirrored on another machine. The origin daemon holds the node's reply back
in `CROSS_WRITE_PENDING` under a sequence number, a task sends the bytes over direct TCP, or under a fresh
number over the zenoh relay, and the mirror's ack for the number answers the node. A timeout task and the
cleanup of the dataflow answer what no ack answers.

The world is one pool with its origin, its mirror and what is on the way between them. Frames and acks
stay on the way: each may arrive at any time, more than once, or never. The bytes of a frame come one
after the other, and each of the two planes has a lock of its own for the mirror.
-/

namespace Dora.TensorPool

open Std Lib

abbrev Payload := List UInt8

inductive WriteTask where
  | reading
  | sending (data : Payload)
  | relaying (data : Payload) (seq : Nat)
  | done

/-- One `NodeRequest::Write` on a cross-machine pool. -/
structure CrossWrite where
  size : Nat
  seq : Nat
  effectiveSeq : Nat
  hasSegment : Bool
  hasEndpoint : Bool
  task : WriteTask := .reading
  data : Option Payload := none
  replies : List (Except String Unit) := []

structure Origin where
  sharedMemoryId : String
  isCross : Bool := true
  writeSeq : Nat := 0
  pending : TreeMap Nat Nat := ∅
  writes : List CrossWrite := []
  localReplies : List (Except String Unit) := []

/-- The tensor data of a direct frame or of a relayed `PeerMessage::Write`. -/
structure Frame where
  seq : Nat
  data : Payload
  direct : Bool
deriving DecidableEq

structure WriteAck where
  seq : Nat
  ok : Bool
  error : Option String := none

structure FrameWriter where
  frame : Frame
  written : Nat

structure World where
  origin : Origin
  registeredSize : Nat
  region : Payload
  frames : List Frame := []
  writers : List FrameWriter := []
  acks : List WriteAck := []

inductive WorldEvent where
  | write (size : Nat) (hasSegment hasEndpoint : Bool)
  | segmentRead (write : Nat) (result : Except String Payload)
  | directSent (write : Nat) (error : Option String)
  | relayPublished (write : Nat) (error : Option String)
  | frameArrives (frame : Frame) (opens : Bool)
  | bytesArrive (writer count : Nat)
  | frameCut (writer : Nat) (acked : Bool)
  | frameWritten (writer : Nat) (acked : Bool)
  | ackArrives (ack : Nat)
  | timeout (write : Nat)
  | cleanupDataflow

namespace Origin

/-- The pending reply under `seq`, if there is one, is taken out and sent. -/
def answer (origin : Origin) (seq : Nat) (reply : Except String Unit) : Origin :=
  match origin.pending[seq]? with
  | none => origin
  | some i =>
    { origin with
      pending := origin.pending.erase seq
      writes := origin.writes.modify i fun w => { w with replies := w.replies ++ [reply] } }

def resolveCrossWriteAck (origin : Origin) (ack : WriteAck) : Origin :=
  origin.answer ack.seq
    (if ack.ok then .ok () else .error (ack.error.getD "remote mirror write failed"))

def fireCrossWriteTimeout (origin : Origin) (i : Nat) : Origin :=
  match origin.writes[i]? with
  | none => origin
  | some w =>
    origin.answer w.effectiveSeq
      (.error "cross-machine write timed out waiting for the remote commit ack")

def rekeyCrossWriteToRelay (origin : Origin) (i seq : Nat) : Option (Nat × Origin) :=
  match origin.pending[seq]? with
  | none => none
  | some reply =>
    let relaySeq := origin.writeSeq + 1
    some (relaySeq, { origin with
      writeSeq := relaySeq
      pending := (origin.pending.erase seq).insert relaySeq reply
      writes := origin.writes.modify i fun w => { w with effectiveSeq := relaySeq } })

def drainCrossWritePending (origin : Origin) : Origin :=
  origin.pending.keys.foldl (fun origin seq => origin.answer seq
    (.error "dataflow finished before the cross-machine write was acknowledged")) origin

def cleanupDataflow (origin : Origin) : Origin :=
  { origin.drainCrossWritePending with writeSeq := 0, isCross := false }

/-- The handler of `NodeRequest::Write`. A pool without an entry is local: the node is told `Ok` at once
and nothing is forwarded. -/
def handleWrite (origin : Origin) (size : Nat) (hasSegment hasEndpoint : Bool) : Origin :=
  if !origin.isCross then { origin with localReplies := origin.localReplies ++ [.ok ()] }
  else
    let seq := origin.writeSeq + 1
    { origin with
      writeSeq := seq
      pending := origin.pending.insert seq origin.writes.length
      writes := origin.writes ++ [{ size, seq, effectiveSeq := seq, hasSegment, hasEndpoint }] }

def setTask (origin : Origin) (i : Nat) (task : WriteTask) : Origin :=
  { origin with writes := origin.writes.modify i fun w => { w with task } }

end Origin

namespace World

/-- The task has read the bytes and hands them to the direct connection or to the relay. -/
def handOver (world : World) (i : Nat) (w : CrossWrite) (data : Payload) : World :=
  let task := if w.hasEndpoint then .sending data else .relaying data w.seq
  { world with
    origin := { world.origin with
      writes := world.origin.writes.modify i fun w => { w with task, data := some data } }
    frames := world.frames ++ [{ seq := w.seq, data, direct := w.hasEndpoint }] }

def onSegmentRead (world : World) (i : Nat) (w : CrossWrite) (result : Except String Payload) : World :=
  let refuse (error : String) : World :=
    let ack : WriteAck := { seq := w.seq, ok := false, error := some error }
    { world with origin := (world.origin.setTask i .done).resolveCrossWriteAck ack }
  if !w.hasSegment then
    refuse ("pool " ++ world.origin.sharedMemoryId ++ " has no local segment to read the write from")
  else
    match result with
    | .error e => refuse ("cross-machine write: failed to read sender segment: " ++ e)
    -- `read_pool_segment_data` returns as many bytes as were asked for
    | .ok data => if data.length = w.size then world.handOver i w data else world

def onDirectSent (world : World) (i : Nat) (w : CrossWrite) (data : Payload) (error : Option String) :
    World :=
  match error with
  | none => { world with origin := world.origin.setTask i .done }
  | some _ =>
    match world.origin.rekeyCrossWriteToRelay i w.seq with
    -- already resolved: nothing is relayed
    | none => { world with origin := world.origin.setTask i .done }
    | some (relaySeq, origin) =>
      { world with
        origin := origin.setTask i (.relaying data relaySeq)
        frames := world.frames ++ [{ seq := relaySeq, data, direct := false }] }

def onRelayPublished (world : World) (i relaySeq : Nat) (error : Option String) : World :=
  match error with
  | none => { world with origin := world.origin.setTask i .done }
  | some e =>
    let reply := .error ("cross-machine write failed to reach the remote daemon: " ++ e)
    { world with origin := (world.origin.setTask i .done).answer relaySeq reply }

/-- `CROSS_POOL_WRITE_LOCKS_ASYNC` for the direct plane, `CROSS_POOL_WRITE_LOCKS` for the relay. -/
def locked (world : World) (direct : Bool) : Bool :=
  world.writers.any fun writer => writer.frame.direct == direct

/-- The mirror takes a frame of the registered size if it can open the segment, else it sends `ok: false`. -/
def onFrameArrives (world : World) (frame : Frame) (opens : Bool) : World :=
  if opens && frame.data.length == world.registeredSize then
    { world with writers := world.writers ++ [{ frame, written := 0 }] }
  else
    { world with acks := world.acks ++
        [{ seq := frame.seq, ok := false, error := some "remote mirror write failed" }] }

/-- The region after `count` bytes of the frame, from `start` on, were put at their places. -/
def copyInto (region data : Payload) (start count : Nat) : Payload :=
  region.mapIdx fun p byte => if start ≤ p ∧ p < start + count then data.getD p byte else byte

def onBytesArrive (world : World) (h : Nat) (writer : FrameWriter) (count : Nat) : World :=
  { world with
    writers := world.writers.set h
      { writer with written := min (writer.written + count) writer.frame.data.length }
    region := copyInto world.region writer.frame.data writer.written count }

/-- A frame that was cut is answered with `ok: false`, one that stalled until the read timeout not
at all. -/
def onFrameCut (world : World) (h : Nat) (writer : FrameWriter) (acked : Bool) : World :=
  let acks := if acked then [{ seq := writer.frame.seq, ok := false, error := some "read payload" }] else []
  { world with writers := world.writers.eraseIdx h, acks := world.acks ++ acks }

def onFrameWritten (world : World) (h : Nat) (writer : FrameWriter) (acked : Bool) : World :=
  if writer.written = writer.frame.data.length then
    let acks := if acked then [{ seq := writer.frame.seq, ok := true }] else []
    { world with writers := world.writers.eraseIdx h, acks := world.acks ++ acks }
  else world

def step (world : World) : WorldEvent → World
  | .write size hasSegment hasEndpoint =>
    { world with origin := world.origin.handleWrite size hasSegment hasEndpoint }
  | .segmentRead i result =>
    match world.origin.writes[i]? with
    | some w => match w.task with
      | .reading => world.onSegmentRead i w result
      | _ => world
    | none => world
  | .directSent i error =>
    match world.origin.writes[i]? with
    | some w => match w.task with
      | .sending data => world.onDirectSent i w data error
      | _ => world
    | none => world
  | .relayPublished i error =>
    match world.origin.writes[i]? with
    | some w => match w.task with
      | .relaying _ relaySeq => world.onRelayPublished i relaySeq error
      | _ => world
    | none => world
  | .frameArrives frame opens =>
    -- it waits until the lock of its plane is free
    if frame ∈ world.frames ∧ world.locked frame.direct = false then world.onFrameArrives frame opens
    else world
  | .bytesArrive h count =>
    match world.writers[h]? with
    | some writer => world.onBytesArrive h writer count
    | none => world
  | .frameCut h acked =>
    match world.writers[h]? with
    | some writer => world.onFrameCut h writer acked
    | none => world
  | .frameWritten h acked =>
    match world.writers[h]? with
    | some writer => world.onFrameWritten h writer acked
    | none => world
  | .ackArrives a =>
    match world.acks[a]? with
    | some ack => { world with origin := world.origin.resolveCrossWriteAck ack }
    | none => world
  | .timeout i => { world with origin := world.origin.fireCrossWriteTimeout i }
  | .cleanupDataflow => { world with origin := world.origin.cleanupDataflow }

def registered (sharedMemoryId : String) (registeredSize : Nat) : World :=
  { origin := { sharedMemoryId }, registeredSize, region := List.replicate registeredSize 0 }

def reached (sharedMemoryId : String) (registeredSize : Nat) (events : List WorldEvent) : World :=
  events.foldl step (registered sharedMemoryId registeredSize)

end World

end Dora.TensorPool
