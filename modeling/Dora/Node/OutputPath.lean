import Dora.Lib.Machine
import Dora.Node.Handshake

/-!
# Which transport a message of an output takes

The readiness of an output is settled before the first send. An output that is not ready sends every
payload through the daemon. On a ready output the path is chosen per message: `fallsBack` says, from the
request and the schema-once state it meets, when `zenoh_publish` hands a message back.
-/

namespace Dora

open Lib

inductive TransportPath where
  | direct
  | daemon
deriving DecidableEq

def SendEffect.path (effect : SendEffect) : Option TransportPath :=
  match effect.delivery with
  | .zenoh => some .direct
  | .daemon (some _) => some .daemon
  | .daemon none => none

def OnePath (paths : List TransportPath) : Prop := .daemon ∉ paths ∨ .direct ∉ paths

/-- The messages, each with its path and its number, may arrive in this order: either transport keeps the
order of its own messages. -/
def MayArrive (sent arrived : List (TransportPath × Nat)) : Prop :=
  ∀ path, arrived.filter (·.1 = path) = sent.filter (·.1 = path)

/-- In whatever order they arrive, it is the one they were sent in. -/
def NoOvertaking (paths : List TransportPath) : Prop :=
  ∀ arrived, MayArrive paths.zipIdx arrived → arrived = paths.zipIdx

theorem eq_of_mayArrive {sent arrived : List (TransportPath × Nat)} (h : MayArrive sent arrived)
    (path : TransportPath) (hsent : ∀ message ∈ sent, message.1 = path) : arrived = sent := by
  have harrived : ∀ message ∈ arrived, message.1 = path := by
    intro message hmessage
    have hmem : message ∈ arrived.filter (·.1 = message.1) := by simpa using hmessage
    rw [h] at hmem
    exact hsent message (List.mem_of_mem_filter hmem)
  have heq := h path
  rwa [List.filter_eq_self.mpr (by simpa using harrived), List.filter_eq_self.mpr (by simpa using hsent)] at heq

theorem mayArrive_grouped (sent : List (TransportPath × Nat)) (first last : TransportPath) (h : first ≠ last)
    (hboth : ∀ path, path = first ∨ path = last) :
    MayArrive sent (sent.filter (·.1 = first) ++ sent.filter (·.1 = last)) := by
  intro path
  rw [List.filter_append, List.filter_filter, List.filter_filter]
  have hnone {a b : TransportPath} (hab : a ≠ b) :
      sent.filter (fun message => message.1 = a && message.1 = b) = [] :=
    List.filter_eq_nil_iff.mpr fun message _ => by simpa using fun ha hb => hab (ha.symm.trans hb)
  rcases hboth path with rfl | rfl
  · rw [hnone h, List.append_nil]
    simp
  · rw [hnone h.symm, List.nil_append]
    simp

theorem onePath_iff_noOvertaking (paths : List TransportPath) : OnePath paths ↔ NoOvertaking paths := by
  have hmem {path : TransportPath} : path ∈ paths ↔ ∃ message ∈ paths.zipIdx, message.1 = path := by
    rw [← List.mem_map, List.zipIdx_map_fst]
  have hboth (path : TransportPath) : path = .direct ∨ path = .daemon := by cases path <;> simp
  constructor
  · intro hone arrived harrived
    rcases hone with hnone | hnone
    · refine eq_of_mayArrive harrived .direct fun message hmessage => ?_
      exact (hboth message.1).resolve_right fun hpath => hnone (hmem.mpr ⟨message, hmessage, hpath⟩)
    · refine eq_of_mayArrive harrived .daemon fun message hmessage => ?_
      exact (hboth message.1).resolve_left fun hpath => hnone (hmem.mpr ⟨message, hmessage, hpath⟩)
  · intro hno
    by_contra hmixed
    obtain ⟨hdaemon, hdirect⟩ := not_or.mp hmixed
    have hsome {path : TransportPath} (hpath : path ∈ paths) :
        ∃ message rest, paths.zipIdx.filter (·.1 = path) = message :: rest ∧ message.1 = path := by
      obtain ⟨message, hmessage, hfst⟩ := hmem.mp hpath
      have hfiltered : message ∈ paths.zipIdx.filter (·.1 = path) := by simpa [hfst] using hmessage
      obtain ⟨head, rest, hcons⟩ := List.exists_cons_of_ne_nil (List.ne_nil_of_mem hfiltered)
      have hhead : head ∈ paths.zipIdx.filter (·.1 = path) := hcons ▸ List.mem_cons_self
      exact ⟨head, rest, hcons, by simpa using (List.mem_filter.mp hhead).2⟩
    obtain ⟨x, xs, hx, hxpath⟩ := hsome (not_not.mp hdaemon)
    obtain ⟨y, ys, hy, hypath⟩ := hsome (not_not.mp hdirect)
    -- the messages of either transport may come before all of the other
    have hdirectFirst := hno _ (mayArrive_grouped paths.zipIdx .direct .daemon nofun hboth)
    have hdaemonFirst := hno _ (mayArrive_grouped paths.zipIdx .daemon .direct nofun fun path => (hboth path).symm)
    have hswap := hdirectFirst.trans hdaemonFirst.symm
    rw [hx, hy] at hswap
    have hsame : y = x := (List.cons.inj hswap).1
    rw [← hsame, hypath] at hxpath
    cases hxpath

/-- A small message is sent without its schema: it is eligible, its schema is the published one and
no refresh is due, and the tagged metadata and the batch slice can be made. -/
def goesSchemaLess (state : Option SchemaOnceState) (threshold : Nat) (params : MetadataParameters)
    (avec : Bytes) (env : Answers) : Bool :=
  schemaOnceEligible avec.length threshold params && env.encodesTagged &&
    (batchSlice avec).isSome &&
    match schemaBlockAndHash avec with
    | some (hash, _) => schemaOnceDecision state hash env.now == .sendSchemaLessBatch
    | none => false

/-- A message of a ready output that takes the daemon path: a large payload that does not get into
shared memory, metadata that cannot be encoded where it is needed, or a put that fails while the
payload is still at hand. -/
def fallsBack (allocator : SampleAllocator) (self : OutputState) (request : OutputSend) : Bool :=
  match request.sample with
  | none => false
  | some (.shm _) => !request.env.encodesMetadata
  | some (.vec avec) =>
    if allocator.zeroCopyThreshold ≤ avec.length then
      !(allocator.shmProvider && request.env.shmAlloc == some avec.length &&
        request.env.encodesMetadata && request.env.dataPut)
    else
      !request.env.dataPut ||
        !(request.env.encodesMetadata ||
          goesSchemaLess self.schemaState allocator.zeroCopyThreshold
            (request.parameters.erase SCHEMA_HASH) avec request.env)

theorem attachment_isSome (state : Option SchemaOnceState) (stream : Bytes) (metadata : Metadata)
    (env : Answers) :
    (publishSchemaOnce state stream metadata env).attachment.isSome =
      (env.encodesTagged &&
        match schemaBlockAndHash stream with
        | some (hash, _) => schemaOnceDecision state hash env.now == .sendSchemaLessBatch
        | none => false) := by
  unfold publishSchemaOnce
  cases schemaBlockAndHash stream with
  | none => simp
  | some block =>
    cases hdec : schemaOnceDecision state block.1 env.now with
    | publishSchemaAndSendFullStream => cases hput : env.schemaPut <;> simp [hdec]
    | sendFullStreamRefresh => simp [hdec]
    | sendSchemaLessBatch => cases htag : env.encodesTagged <;> simp [hdec]

theorem selectZenohPut_eq_fullStream (attachment : Option Metadata) (slice : Option Bytes) :
    (∃ payload tagged, selectZenohPut attachment slice = .schemaOnce payload tagged ∧
        (attachment.isSome && slice.isSome) = true) ∨
      (selectZenohPut attachment slice = .fullStream ∧
        (attachment.isSome && slice.isSome) = false) := by
  cases attachment with
  | none => exact Or.inr ⟨rfl, rfl⟩
  | some tagged =>
    cases slice with
    | none => exact Or.inr ⟨rfl, rfl⟩
    | some payload => exact Or.inl ⟨payload, tagged, rfl, rfl⟩

theorem publishSmall_delivery (state : Option SchemaOnceState) (threshold : Nat)
    (metadata : Metadata) (avec : Bytes) (env : Answers) :
    Delivery.ofOutcome (publishSmall state threshold metadata avec env).outcome =
      if env.dataPut && (env.encodesMetadata ||
          goesSchemaLess state threshold metadata.parameters avec env) then .zenoh
      else .daemon (some avec) := by
  -- whether the fast path is chosen is what `goesSchemaLess` says
  have hless : goesSchemaLess state threshold metadata.parameters avec env =
      ((if schemaOnceEligible avec.length threshold metadata.parameters then
          publishSchemaOnce state avec metadata env
        else { state }).attachment.isSome && (batchSlice avec).isSome) := by
    unfold goesSchemaLess
    by_cases helig : schemaOnceEligible avec.length threshold metadata.parameters = true
    · rw [if_pos helig, attachment_isSome, helig, Bool.true_and]
      rw [Bool.and_assoc, Bool.and_assoc, Bool.and_comm (batchSlice avec).isSome]
    · rw [if_neg helig, Bool.not_eq_true _ |>.mp helig]
      rfl
  unfold publishSmall
  rw [hless]
  dsimp only
  obtain ⟨payload, tagged, hsel, hsome⟩ | ⟨hsel, hsome⟩ :=
    selectZenohPut_eq_fullStream
      (if schemaOnceEligible avec.length threshold metadata.parameters then
          publishSchemaOnce state avec metadata env
        else { state }).attachment (batchSlice avec)
  · rw [hsel, hsome]
    cases hput : env.dataPut <;> simp [Delivery.ofOutcome, FinalizedSample.intoDataMessage]
  · rw [hsel, hsome]
    cases hput : env.dataPut <;> cases henc : env.encodesMetadata <;>
      simp [Delivery.ofOutcome, FinalizedSample.intoDataMessage]

theorem zenohPublish_delivery (allocator : SampleAllocator) (self : OutputState)
    (request : OutputSend) (sample : FinalizedSample) (hsample : request.sample = some sample)
    (hready : outputDirectReady self = true) :
    Delivery.ofOutcome (zenohPublish self allocator
        ⟨request.parameters.erase SCHEMA_HASH⟩ sample request.env).outcome =
      if fallsBack allocator self request then .daemon (some sample.intoDataMessage)
      else .zenoh := by
  obtain ⟨output, hdirect⟩ : ∃ output, self.direct = some output := by
    cases hdirect : self.direct with
    | none => simp [outputDirectReady, hdirect] at hready
    | some output => exact ⟨output, rfl⟩
  unfold zenohPublish fallsBack
  rw [hdirect, hsample]
  cases sample with
  | shm =>
    cases henc : request.env.encodesMetadata <;> cases hput : request.env.dataPut <;>
      simp [putWhole, henc, hput, Delivery.ofOutcome, FinalizedSample.intoDataMessage]
  | vec avec =>
    by_cases hlarge : allocator.zeroCopyThreshold ≤ avec.length
    · simp only [hlarge, if_true]
      by_cases hshm : allocator.shmProvider = true ∧ request.env.shmAlloc = some avec.length
      · rw [if_pos hshm, hshm.1, hshm.2]
        cases henc : request.env.encodesMetadata <;> cases hput : request.env.dataPut <;>
          simp [putWhole, henc, hput, Delivery.ofOutcome, FinalizedSample.intoDataMessage]
      · rw [if_neg hshm]
        have hnot : (allocator.shmProvider && request.env.shmAlloc == some avec.length) = false := by
          simpa using hshm
        simp [hnot, Delivery.ofOutcome, FinalizedSample.intoDataMessage]
    · simp only [hlarge, if_false]
      rw [publishSmall_delivery]
      cases hput : request.env.dataPut <;> cases henc : request.env.encodesMetadata <;>
        cases hless : goesSchemaLess self.schemaState allocator.zeroCopyThreshold
          (request.parameters.erase SCHEMA_HASH) avec request.env <;>
        simp [FinalizedSample.intoDataMessage]

section Runs

variable (outputId : DataId) (allocator : SampleAllocator)

theorem send_path (self : OutputState) (request : OutputSend) :
    (sendOutputSampleUnchecked outputId allocator self request).2.path =
      if request.sample.isNone then none
      else if outputDirectReady self && !fallsBack allocator self request then some .direct
      else some .daemon := by
  unfold sendOutputSampleUnchecked
  cases hsample : request.sample with
  | none => rfl
  | some sample =>
    by_cases hready : outputDirectReady self = true
    · have hdelivery := zenohPublish_delivery allocator self request sample hsample hready
      simp only [hready, if_true, SendEffect.path, hdelivery]
      cases fallsBack allocator self request <;> rfl
    · simp only [hready]
      rfl

theorem send_ready (self : OutputState) (request : OutputSend) :
    outputDirectReady (sendOutputSampleUnchecked outputId allocator self request).1 =
      outputDirectReady self := by
  unfold sendOutputSampleUnchecked
  cases request.sample with
  | none => rfl
  | some =>
    dsimp only
    split <;> rfl

/-- What happens to an output once `init` has returned: the node sends, and acknowledgements that
come too late still arrive. -/
inductive OutputOp where
  | send (request : OutputSend)
  | ack (identity : RequiredAcker)

def NodeOutput.step (self : NodeOutput) : OutputOp → NodeOutput × Option SendEffect
  | .send request =>
    let sent := sendOutputSampleUnchecked outputId allocator self.state request
    ({ self with state := sent.1 }, some sent.2)
  | .ack identity => (self.record identity, none)

def OutputOp.fallsBack (self : NodeOutput) : OutputOp → Bool
  | .send request => Dora.fallsBack allocator self.state request
  | .ack _ => false

def OutputOp.hasPayload : OutputOp → Bool
  | .send request => request.sample.isSome
  | .ack _ => false

def NodeOutput.pathOf (self : NodeOutput) (op : OutputOp) : Option TransportPath :=
  (self.step outputId allocator op).2.bind SendEffect.path

def pathsOf (effects : List (Option SendEffect)) : List TransportPath :=
  effects.filterMap fun effect => effect.bind SendEffect.path

theorem step_settled (ready : Bool) (self : NodeOutput) (op : OutputOp)
    (hself : self.Settled ∧ outputDirectReady self.state = ready) :
    (self.step outputId allocator op).1.Settled ∧
      outputDirectReady (self.step outputId allocator op).1.state = ready := by
  cases op with
  | send request =>
    have hready := send_ready outputId allocator self.state request
    refine ⟨fun ack hack => ?_, hready.trans hself.2⟩
    exact (hself.1 ack hack).imp_left fun h => hready.trans h
  | ack identity =>
    have hrecord := self.record_settled identity hself.1
    exact ⟨hrecord.1, hrecord.2.trans hself.2⟩

theorem pathOf_eq (self : NodeOutput) (op : OutputOp) :
    self.pathOf outputId allocator op =
      if !op.hasPayload then none
      else if outputDirectReady self.state && !op.fallsBack allocator self then some .direct
      else some .daemon := by
  cases op with
  | send request =>
    refine (send_path outputId allocator self.state request).trans ?_
    cases hsample : request.sample <;> simp [OutputOp.hasPayload, OutputOp.fallsBack, hsample]
  | ack => rfl

theorem run_avoids (avoided : TransportPath) (self : NodeOutput) (ops : List OutputOp) :
    avoided ∉ pathsOf (run (NodeOutput.step outputId allocator) self ops).2 ↔
      Meets (NodeOutput.step outputId allocator)
        (fun s op => s.pathOf outputId allocator op ≠ some avoided) self ops := by
  induction ops generalizing self with
  | nil => simp [Meets, pathsOf]
  | cons op ops ih =>
    rw [run, Meets, ← ih]
    unfold pathsOf NodeOutput.pathOf
    simp only [List.mem_filterMap, List.mem_cons, not_exists, not_and]
    constructor
    · intro h
      exact ⟨h _ (Or.inl rfl), fun effect heffect => h effect (Or.inr heffect)⟩
    · intro h effect heffect
      cases heffect with
      | inl heq => rw [heq]; exact h.1
      | inr hmem => exact h.2 effect hmem

theorem avoids_iff (back : Bool) (self : NodeOutput) (op : OutputOp)
    (hready : outputDirectReady self.state = true) :
    self.pathOf outputId allocator op ≠ some (if back then .daemon else .direct) ↔
      (op.hasPayload → op.fallsBack allocator self = !back) := by
  rw [pathOf_eq, hready]
  cases back <;> cases op.hasPayload <;> cases op.fallsBack allocator self <;> simp

theorem avoids_direct_of_not_ready (self : NodeOutput) (op : OutputOp)
    (hready : outputDirectReady self.state = false) :
    self.pathOf outputId allocator op ≠ some .direct := by
  rw [pathOf_eq, hready]
  cases op.hasPayload <;> simp

theorem run_settled (routing : Option OutputRouting) (declared : Declared)
    (acks : List RequiredAcker) (ops : List OutputOp) :
    outputDirectReady (run (NodeOutput.step outputId allocator)
        (NodeOutput.init routing declared acks) ops).1.state =
      outputDirectReady (NodeOutput.init routing declared acks).state := by
  have hrun := run_induction (NodeOutput.step outputId allocator)
    (P := fun _ _ s => s.Settled ∧ outputDirectReady s.state =
      outputDirectReady (NodeOutput.init routing declared acks).state)
    ⟨NodeOutput.settled_freeze _, rfl⟩
    (fun _ _ s op _ hs => step_settled outputId allocator _ s op hs) ops
  exact hrun.2

/-- Once `init` has returned, a payload goes out directly if `init` left the output ready and the
message does not fall back, and through the daemon otherwise. So all payloads of a run take one
transport, and none can overtake another, exactly if the output was not left ready, no payload falls
back, or every one does. -/
theorem output_takes_one_path_iff (routing : Option OutputRouting) (declared : Declared)
    (acks : List RequiredAcker) (ops : List OutputOp) :
    let start := NodeOutput.init routing declared acks
    (∀ before op,
      (run (NodeOutput.step outputId allocator) start before).1.pathOf outputId allocator op =
        if !op.hasPayload then none
        else if outputDirectReady start.state && !op.fallsBack allocator
            (run (NodeOutput.step outputId allocator) start before).1 then some .direct
        else some .daemon) ∧
    (OnePath (pathsOf (run (NodeOutput.step outputId allocator) start ops).2) ↔
      NoOvertaking (pathsOf (run (NodeOutput.step outputId allocator) start ops).2)) ∧
    (OnePath (pathsOf (run (NodeOutput.step outputId allocator) start ops).2) ↔
      outputDirectReady start.state = false ∨
      Meets (NodeOutput.step outputId allocator)
        (fun s op => op.hasPayload → op.fallsBack allocator s = false) start ops ∨
      Meets (NodeOutput.step outputId allocator)
        (fun s op => op.hasPayload → op.fallsBack allocator s = true) start ops) := by
  intro start
  refine ⟨fun before op => ?_, onePath_iff_noOvertaking _, ?_⟩
  · rw [pathOf_eq, run_settled]
  · unfold OnePath
    rw [run_avoids, run_avoids]
    have hstart : start.Settled := NodeOutput.settled_freeze _
    cases hready : outputDirectReady start.state with
    | false =>
      refine iff_of_true (Or.inr ?_) (Or.inl rfl)
      exact meets_of_invariant _ (step_settled outputId allocator false)
        (fun s op hs => avoids_direct_of_not_ready outputId allocator s op hs.2) start ops
        ⟨hstart, hready⟩
    | true =>
      have havoids (back : Bool) := meets_congr _ (step_settled outputId allocator true)
        (fun s op hs => avoids_iff outputId allocator back s op hs.2) start ops ⟨hstart, hready⟩
      exact (or_congr (havoids true) (havoids false)).trans (by simp)

end Runs

/-- A ready output without a shared-memory provider, with a threshold of four bytes, sends a small message
directly and the large one after it through the daemon. -/
theorem small_direct_large_by_daemon :
    let env : Answers := ⟨0, none, true, true, true, true, true⟩
    let ops : List OutputOp :=
      [.send ⟨∅, some (.vec [1]), env⟩, .send ⟨∅, some (.vec [1, 2, 3, 4]), env⟩]
    pathsOf (run (NodeOutput.step ⟨"image"⟩ ⟨4, false⟩) (NodeOutput.init (some {}) ⟨true, true⟩ []) ops).2 =
      [.direct, .daemon] := by
  decide

end Dora
