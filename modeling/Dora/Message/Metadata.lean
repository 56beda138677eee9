import Dora.Message.Id

/-!
# Messages (`message/src/metadata.rs`, `daemon_to_node.rs`, `event_stream/thread.rs`)

The typed parameters that travel with a message, the keys the runtime itself looks at, and the
accessors that read them. A key whose stored variant differs from the requested type reads as
absent.

`NodeEvent` is what the daemon sends over the event channel; `EventItem` is what the node's event
stream thread hands to the scheduler: a daemon event, an input that arrived directly over zenoh
with its decoded Arrow array, or an error of the stream itself.
-/

namespace Dora

open Std

inductive Parameter where
  | bool (b : Bool)
  | integer (n : Int64)
  | string (s : String)
  | listInt (l : List Int64)
  | float (bits : UInt64)
  | listFloat (l : List UInt64)
  | listString (l : List String)
  | timestamp (nanos : Int)
deriving DecidableEq, Repr

abbrev MetadataParameters := TreeMap String Parameter

structure Metadata where
  parameters : MetadataParameters

def getStringParam (params : MetadataParameters) (key : String) : Option String :=
  params[key]?.bind fun
    | .string s => some s
    | _ => none

def getBoolParam (params : MetadataParameters) (key : String) : Option Bool :=
  params[key]?.bind fun
    | .bool b => some b
    | _ => none

def REQUEST_ID : String := "request_id"
def GOAL_ID : String := "goal_id"
def GOAL_STATUS : String := "goal_status"
def FLUSH : String := "flush"
def FRAMING : String := "_framing"
def SCHEMA_HASH : String := "_schema_hash"

def GOAL_STATUS_SUCCEEDED : String := "succeeded"
def GOAL_STATUS_ABORTED : String := "aborted"
def GOAL_STATUS_CANCELED : String := "canceled"

def carriesPatternCorrelation (params : MetadataParameters) : Bool :=
  params.contains REQUEST_ID || params.contains GOAL_ID || params.contains GOAL_STATUS

def stripInternalParameters (params : MetadataParameters) : MetadataParameters :=
  (params.erase SCHEMA_HASH).erase FRAMING

def fnv1a (bytes : List UInt8) : UInt64 :=
  bytes.foldl (fun hash byte => (hash ^^^ byte.toUInt64) * 0x100000001b3) 0xcbf29ce484222325

/-! ## Events a node receives -/

abbrev DataMessage := List UInt8

inductive NodeEvent where
  | stop
  | reload (operatorId : Option String)
  | input (id : DataId) (metadata : Metadata) (data : Option DataMessage)
  | inputClosed (id : DataId)
  | inputRecovered (id : DataId)
  | nodeRestarted (id : NodeId)
  | allInputsClosed
  | paramUpdate (key : String) (valueJson : List UInt8)
  | paramDeleted (key : String)
  | nodeFailed (affectedInputIds : List DataId) (error : String) (sourceNodeId : NodeId)
  | extensionDropped («namespace» key : String)

/-- The Arrow array of a zenoh input is decoded before it gets here and is never inspected, so its
type is a parameter. -/
inductive EventItem (ArrayData : Type) where
  | nodeEvent (event : NodeEvent)
  | zenohInput (id : DataId) (metadata : Metadata) (data : ArrayData)
  | fatalError (report : String)
  | timeoutError (report : String)

end Dora
