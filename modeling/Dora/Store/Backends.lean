import Dora.Lib.KeyScan
import Dora.Lib.LittleEndian
import Dora.Lib.Machine
import Dora.Message.Id

/-!
# The two backends of the coordinator's store (`libraries/coordinator-store/src`)

Dataflow records and node parameters, in memory under typed keys and in redb as byte strings, with the
parts of a parameter's key joined by a null character. A redb table is an ordered map and every call
is one transaction on it.
-/

namespace Dora.Store

open Std Lib

/-- How the `uuid` crate writes an id. -/
structure UuidText (Uuid : Type) where
  display : Uuid → String
  injective : Function.Injective display
  plain : ∀ u, '\x00' ∉ (display u).toList

/-- The record type with its serialisation (`dora_message::encode` and `decode`). -/
structure RecordCodec (Uuid Record : Type) where
  uuid : Record → Uuid
  encode : Record → Bytes
  decode : Bytes → Option Record
  round_trip : ∀ record, decode (encode record) = some record

def maxParamKeyBytes : Nat := 256
def maxParamValueBytes : Nat := 65536
def maxRecordBytes : Nat := 64 * 1024 * 1024

def validateParamLimits (key : String) (value : Bytes) : Except String Unit :=
  if key.utf8ByteSize > maxParamKeyBytes then
    .error s!"param key too long (max {maxParamKeyBytes} bytes)"
  else if '\x00' ∈ key.toList then .error "param key must not contain null bytes"
  else if value.length > maxParamValueBytes then
    .error s!"param value too large (max {maxParamValueBytes} bytes)"
  else .ok ()

abbrev ValidNode := { node : NodeId // validateNodeId node.name = .ok () }

variable {Uuid Record : Type}

abbrev Storable (codec : RecordCodec Uuid Record) :=
  { record : Record // (codec.encode record).length ≤ maxRecordBytes }

/-- The calls of `CoordinatorStore` on dataflow records and node parameters. -/
inductive StoreCall (codec : RecordCodec Uuid Record) where
  | putDataflow (record : Storable codec)
  | getDataflow (uuid : Uuid)
  | listDataflows
  | deleteDataflow (uuid : Uuid)
  | putNodeParam (dataflowId : Uuid) (nodeId : ValidNode) (key : String) (value : Bytes)
  | getNodeParam (dataflowId : Uuid) (nodeId : ValidNode) (key : String)
  | listNodeParams (dataflowId : Uuid) (nodeId : ValidNode)
  | deleteNodeParam (dataflowId : Uuid) (nodeId : ValidNode) (key : String)

inductive StoreAnswer (Record : Type) where
  | done
  | dataflow (record : Option Record)
  | dataflows (records : List Record)
  | param (value : Option Bytes)
  | params (entries : List (String × Bytes))

variable [Ord Uuid] {codec : RecordCodec Uuid Record}

structure InMemoryStore (Uuid Record : Type) [Ord Uuid] where
  dataflows : TreeMap Uuid Record := ∅
  params : TreeMap (Uuid × NodeId × String) Bytes := ∅

namespace InMemoryStore

variable (store : InMemoryStore Uuid Record)

def putNodeParam (dataflowId : Uuid) (nodeId : NodeId) (key : String) (value : Bytes) :
    InMemoryStore Uuid Record × Except String (StoreAnswer Record) :=
  match validateParamLimits key value with
  | .error e => (store, .error e)
  | .ok _ => ({ store with params := store.params.insert (dataflowId, nodeId, key) value }, .ok .done)

def listNodeParams [DecidableEq Uuid] (dataflowId : Uuid) (nodeId : NodeId) : List (String × Bytes) :=
  ((store.params.toList.dropWhile fun entry => compare entry.1 (dataflowId, nodeId, "") == .lt).takeWhile
    fun entry => decide (entry.1.1 = dataflowId ∧ entry.1.2.1 = nodeId)).map
      fun entry => (entry.1.2.2, entry.2)

def deleteDataflow [DecidableEq Uuid] (uuid : Uuid) : InMemoryStore Uuid Record where
  dataflows := store.dataflows.erase uuid
  params := store.params.filter fun key _ => key.1 ≠ uuid

def call [DecidableEq Uuid] (store : InMemoryStore Uuid Record) :
    StoreCall codec → InMemoryStore Uuid Record × Except String (StoreAnswer Record)
  | .putDataflow record =>
    ({ store with dataflows := store.dataflows.insert (codec.uuid record) record.1 }, .ok .done)
  | .getDataflow uuid => (store, .ok (.dataflow store.dataflows[uuid]?))
  | .listDataflows => (store, .ok (.dataflows (store.dataflows.toList.map Prod.snd)))
  | .deleteDataflow uuid => (store.deleteDataflow uuid, .ok .done)
  | .putNodeParam dataflowId nodeId key value => store.putNodeParam dataflowId nodeId key value
  | .getNodeParam dataflowId nodeId key =>
    (store, .ok (.param store.params[(dataflowId, nodeId.1, key)]?))
  | .listNodeParams dataflowId nodeId => (store, .ok (.params (store.listNodeParams dataflowId nodeId)))
  | .deleteNodeParam dataflowId nodeId key =>
    ({ store with params := store.params.erase (dataflowId, nodeId.1, key) }, .ok .done)

end InMemoryStore

/-- The tables `DATAFLOWS`, under the bytes of the uuid, by which uuids are ordered, and `NODE_PARAMS`. -/
structure RedbStore (Uuid : Type) [Ord Uuid] where
  dataflows : TreeMap Uuid Bytes := ∅
  nodeParams : TreeMap String Bytes := ∅

def checkNoSeparator (s label : String) : Except String Unit :=
  if '\x00' ∈ s.toList then .error (label ++ " must not contain null bytes") else .ok ()

section Keys

variable (text : UuidText Uuid)

def dataflowStart (dataflowId : Uuid) : String := text.display dataflowId ++ "\x00"

def nodeStart (dataflowId : Uuid) (nodeId : NodeId) : String :=
  dataflowStart text dataflowId ++ (nodeId.name ++ "\x00")

def makeParamKey (dataflowId : Uuid) (nodeId : NodeId) (key : String) : Except String String := do
  checkNoSeparator nodeId.name "node_id"
  checkNoSeparator key "param key"
  return nodeStart text dataflowId nodeId ++ key

/-- `make_param_prefix` -/
def makeParamStart (dataflowId : Uuid) (nodeId : NodeId) : Except String String := do
  checkNoSeparator nodeId.name "node_id"
  return nodeStart text dataflowId nodeId

end Keys

def encodeRecord (codec : RecordCodec Uuid Record) (record : Record) : Except String Bytes :=
  let bytes := codec.encode record
  if bytes.length > maxRecordBytes then
    .error s!"record too large to store: {bytes.length} bytes exceeds the {maxRecordBytes}-byte limit"
  else .ok bytes

def decodeRecord (codec : RecordCodec Uuid Record) (bytes : Bytes) : Except String Record :=
  if bytes.length > maxRecordBytes then
    .error (s!"decode error: record too large to read: {bytes.length} bytes exceeds the " ++
      s!"{maxRecordBytes}-byte limit")
  else
    match codec.decode bytes with
    | some record => .ok record
    | none => .error "decode error"

/-- The entries of a range scan whose keys begin with `start`, up to the first that does not. -/
def scanParams (start : String) : List (String × Bytes) → List (String × Bytes)
  | [] => []
  | entry :: rest =>
    match stripStart start entry.1 with
    | some paramKey => (paramKey, entry.2) :: scanParams start rest
    | none => []

namespace RedbStore

variable (text : UuidText Uuid) (store : RedbStore Uuid)

def listNodeParams (start : String) : List (String × Bytes) :=
  scanParams start (store.nodeParams.toList.dropWhile fun entry => compare entry.1 start == .lt)

/-- `retain_in` keeps what is below the range, and in it what does not begin with `start`. -/
def deleteDataflow (uuid : Uuid) : RedbStore Uuid where
  dataflows := store.dataflows.erase uuid
  nodeParams := store.nodeParams.filter fun key _ =>
    compare key (dataflowStart text uuid) == .lt || !startsWith key (dataflowStart text uuid)

def call : StoreCall codec → RedbStore Uuid × Except String (StoreAnswer Record)
  | .putDataflow record =>
    match encodeRecord codec record with
    | .error e => (store, .error e)
    | .ok bytes => ({ store with dataflows := store.dataflows.insert (codec.uuid record) bytes }, .ok .done)
  | .getDataflow uuid =>
    match store.dataflows[uuid]? with
    | none => (store, .ok (.dataflow none))
    | some bytes => (store, (decodeRecord codec bytes).map (.dataflow ∘ some))
  | .listDataflows =>
    (store, .ok (.dataflows (store.dataflows.toList.filterMap fun entry =>
      (decodeRecord codec entry.2).toOption)))
  | .deleteDataflow uuid => (store.deleteDataflow text uuid, .ok .done)
  | .putNodeParam dataflowId nodeId key value =>
    match validateParamLimits key value with
    | .error e => (store, .error e)
    | .ok _ =>
      match makeParamKey text dataflowId nodeId key with
      | .error e => (store, .error e)
      | .ok paramKey => ({ store with nodeParams := store.nodeParams.insert paramKey value }, .ok .done)
  | .getNodeParam dataflowId nodeId key =>
    (store, (makeParamKey text dataflowId nodeId key).map fun paramKey =>
      .param store.nodeParams[paramKey]?)
  | .listNodeParams dataflowId nodeId =>
    (store, (makeParamStart text dataflowId nodeId).map fun start => .params (store.listNodeParams start))
  | .deleteNodeParam dataflowId nodeId key =>
    match makeParamKey text dataflowId nodeId key with
    | .error e => (store, .error e)
    | .ok paramKey => ({ store with nodeParams := store.nodeParams.erase paramKey }, .ok .done)

end RedbStore

end Dora.Store
