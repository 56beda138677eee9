import Dora.Node.IpcLayout

/-!
# Sending an output (`node/mod.rs`: `send_output_sample_unchecked`, `zenoh_publish`)

A sample goes out on the direct zenoh path if the output is ready for it, through the daemon's control
channel otherwise, and `zenoh_publish` hands back what it could not put. Small messages without
correlation parameters take the schema-once path of `publish_schema_once`.

The state is that of one output. What the surroundings answer during one send (the clock, the
shared-memory pool, the metadata encoder, the puts and the control channel) is an argument, so every
pattern of failures is a sequence of such answers.
-/

namespace Dora

open Lib

inductive FinalizedSample where
  | vec (bytes : Bytes)
  | shm (bytes : Bytes)
deriving DecidableEq

def FinalizedSample.intoDataMessage : FinalizedSample → DataMessage
  | .vec bytes => bytes
  | .shm bytes => bytes

structure SampleAllocator where
  zeroCopyThreshold : Nat
  /-- Whether the node has a shared-memory provider. -/
  shmProvider : Bool

structure SchemaOnceState where
  publishedHash : UInt64
  lastFullStream : Nat
deriving DecidableEq

structure DirectOutput where
  ready : Bool
deriving DecidableEq

structure OutputState where
  /-- The output's entry of `zenoh_publishers`. -/
  direct : Option DirectOutput
  /-- The output's entry of `zenoh_schema_state`. -/
  schemaState : Option SchemaOnceState := none
deriving DecidableEq

structure Answers where
  now : Nat
  /-- The length of the buffer the shared-memory pool hands out, if it hands one out. -/
  shmAlloc : Option Nat
  /-- Whether the metadata, and the metadata tagged with a schema hash, can be encoded. -/
  encodesMetadata : Bool
  encodesTagged : Bool
  /-- Whether the `@schema` publisher exists and its put succeeds. -/
  schemaPut : Bool
  dataPut : Bool
  /-- Whether the daemon accepts the request on the control channel. -/
  controlChannel : Bool

def SCHEMA_ONCE_REFRESH_INTERVAL : Nat := 5 * 1000000000

inductive SchemaOnceDecision where
  | publishSchemaAndSendFullStream
  | sendFullStreamRefresh
  | sendSchemaLessBatch
deriving DecidableEq

def schemaOnceDecision (state : Option SchemaOnceState) (hash : UInt64) (now : Nat) :
    SchemaOnceDecision :=
  match state with
  | some state =>
    if state.publishedHash = hash then
      if now - state.lastFullStream ≥ SCHEMA_ONCE_REFRESH_INTERVAL then .sendFullStreamRefresh
      else .sendSchemaLessBatch
    else .publishSchemaAndSendFullStream
  | none => .publishSchemaAndSendFullStream

/-- The metadata of a schema-less batch: `hash as i64` under the internal key. -/
def Metadata.tagged (metadata : Metadata) (hash : UInt64) : Metadata :=
  { metadata with parameters := metadata.parameters.insert SCHEMA_HASH (.integer hash.toInt64) }

/-- What `publish_schema_once` leaves behind: the output's state, the schema it put on the `@schema`
topic, and the attachment of the schema-less batch. -/
structure SchemaOnceResult where
  state : Option SchemaOnceState
  schemaPut : Option Bytes := none
  attachment : Option Metadata := none

def publishSchemaOnce (state : Option SchemaOnceState) (fullStream : Bytes)
    (baseMetadata : Metadata) (env : Answers) : SchemaOnceResult :=
  match schemaBlockAndHash fullStream with
  | none => { state }
  | some (hash, schema) =>
    match schemaOnceDecision state hash env.now with
    | .publishSchemaAndSendFullStream =>
      if env.schemaPut then
        { state := some { publishedHash := hash, lastFullStream := env.now },
          schemaPut := some schema }
      else { state }
    | .sendFullStreamRefresh =>
      { state := state.map fun s => { s with lastFullStream := env.now } }
    | .sendSchemaLessBatch =>
      { state, attachment := if env.encodesTagged then some (baseMetadata.tagged hash) else none }

def schemaOnceEligible (payloadLen zeroCopyThreshold : Nat) (params : MetadataParameters) : Bool :=
  payloadLen < zeroCopyThreshold && !carriesPatternCorrelation params

inductive ZenohPutChoice where
  | schemaOnce (payload : Bytes) (attachment : Metadata)
  | fullStream

def selectZenohPut : Option Metadata → Option Bytes → ZenohPutChoice
  | some attachment, some payload => .schemaOnce payload attachment
  | _, _ => .fullStream

inductive PublishOutcome where
  | published
  | notPublished (sample : FinalizedSample)
deriving DecidableEq

structure ZenohSample where
  attachment : Metadata
  payload : Bytes

/-- What `zenoh_publish` leaves behind: the schema-once state, the successful puts on the two
topics, and its result. -/
structure PublishResult where
  schemaState : Option SchemaOnceState
  schemaPut : Option Bytes := none
  dataPut : Option ZenohSample := none
  outcome : Except String PublishOutcome

/-- A put of the whole payload with the plain metadata; `onError` is the result if the put fails. -/
def putWhole (schemaState : Option SchemaOnceState) (metadata : Metadata) (payload : Bytes)
    (sample : FinalizedSample) (env : Answers) (onError : Except String PublishOutcome) :
    PublishResult :=
  if env.encodesMetadata then
    if env.dataPut then
      { schemaState, dataPut := some ⟨metadata, payload⟩, outcome := .ok .published }
    else { schemaState, outcome := onError }
  else { schemaState, outcome := .ok (.notPublished sample) }

def publishSmall (schemaState : Option SchemaOnceState) (threshold : Nat) (metadata : Metadata)
    (avec : Bytes) (env : Answers) : PublishResult :=
  let once : SchemaOnceResult :=
    if schemaOnceEligible avec.length threshold metadata.parameters then
      publishSchemaOnce schemaState avec metadata env
    else { state := schemaState }
  let put (payload : Bytes) (attachment : Metadata) : PublishResult :=
    if env.dataPut then
      { schemaState := once.state, schemaPut := once.schemaPut,
        dataPut := some ⟨attachment, payload⟩, outcome := .ok .published }
    else
      -- the stream that was to prime receivers was not delivered: forget the schema-once state
      { schemaState := none, schemaPut := once.schemaPut,
        outcome := .ok (.notPublished (.vec avec)) }
  match selectZenohPut once.attachment (batchSlice avec) with
  | .schemaOnce payload attachment => put payload attachment
  | .fullStream =>
    if env.encodesMetadata then put avec metadata
    else
      { schemaState := once.state, schemaPut := once.schemaPut,
        outcome := .ok (.notPublished (.vec avec)) }

def zenohPublish (self : OutputState) (allocator : SampleAllocator) (metadata : Metadata)
    (finalized : FinalizedSample) (env : Answers) : PublishResult :=
  match self.direct with
  | none => { schemaState := self.schemaState, outcome := .ok (.notPublished finalized) }
  | some _ =>
    match finalized with
    | .shm sbuf =>
      -- the put consumes the buffer, so a failed one cannot fall back
      putWhole self.schemaState metadata sbuf (.shm sbuf) env
        (.error "zenoh SHM publish failed")
    | .vec avec =>
      if allocator.zeroCopyThreshold ≤ avec.length then
        if allocator.shmProvider ∧ env.shmAlloc = some avec.length then
          putWhole self.schemaState metadata avec (.vec avec) env
            (.ok (.notPublished (.vec avec)))
        else
          -- a large payload outside shared memory would be fragmented and dropped
          { schemaState := self.schemaState, outcome := .ok (.notPublished (.vec avec)) }
      else publishSmall self.schemaState allocator.zeroCopyThreshold metadata avec env

def outputDirectReady (self : OutputState) : Bool :=
  match self.direct with
  | some output => output.ready
  | none => false

inductive Delivery where
  | zenoh
  | daemon (data : Option DataMessage)
deriving DecidableEq

/-- One call of `send_output_sample_unchecked` on the output. -/
structure OutputSend where
  parameters : MetadataParameters
  sample : Option FinalizedSample
  env : Answers

structure SendEffect where
  delivery : Delivery
  schemaPut : Option Bytes := none
  dataPut : Option ZenohSample := none
  result : Except String Unit

def MAX_MESSAGE_BYTES : Nat := 64 * 1024 * 1024

def finishSend (outputId : DataId) (delivery : Delivery) (controlChannel : Bool) :
    Except String Unit :=
  match delivery with
  | .zenoh =>
    if controlChannel then .ok () else .error s!"failed to report output {outputId.name}"
  | .daemon data =>
    match data with
    | some v =>
      if v.length > MAX_MESSAGE_BYTES then
        .error (s!"output \"{outputId.name}\": IPC-encoded message is {v.length} bytes, exceeding "
          ++ s!"the {MAX_MESSAGE_BYTES}-byte daemon transport limit (the output is on the daemon "
          ++ "path: pinned for a consumer only forwarding can reach or one "
          ++ "declaring `queue_policy: backpressure`, its startup handshake "
          ++ "did not complete, or no zenoh route is available)")
      else if controlChannel then .ok ()
      else .error s!"failed to send output {outputId.name}"
    | none =>
      if controlChannel then .ok () else .error s!"failed to send output {outputId.name}"

/-- How `zenoh_publish`'s result decides the delivery. -/
def Delivery.ofOutcome : Except String PublishOutcome → Delivery
  | .ok .published => .zenoh
  | .ok (.notPublished sample) => .daemon (some sample.intoDataMessage)
  -- the payload was consumed by the failed put and is dropped
  | .error _ => .zenoh

def sendOutputSampleUnchecked (outputId : DataId) (allocator : SampleAllocator)
    (self : OutputState) (request : OutputSend) : OutputState × SendEffect :=
  let metadata : Metadata := { parameters := request.parameters.erase SCHEMA_HASH }
  match request.sample with
  | some finalized =>
    if outputDirectReady self then
      let publish := zenohPublish self allocator metadata finalized request.env
      let delivery := Delivery.ofOutcome publish.outcome
      ({ self with schemaState := publish.schemaState },
        { delivery, schemaPut := publish.schemaPut, dataPut := publish.dataPut,
          result := finishSend outputId delivery request.env.controlChannel })
    else
      let delivery := Delivery.daemon (some finalized.intoDataMessage)
      (self, { delivery, result := finishSend outputId delivery request.env.controlChannel })
  | none =>
    (self, { delivery := .daemon none,
             result := finishSend outputId (.daemon none) request.env.controlChannel })

end Dora
