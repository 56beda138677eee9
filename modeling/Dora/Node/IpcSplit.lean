import Dora.Node.IpcTiling

/-!
# Splitting an IPC stream into schema and batch

The schema-once path sends the schema block once and the batches without it. The receiver splits a
full stream by the length in the first message's frame; the two parts are what the separate encoders
write. The splitters also run on bytes from peers: they index only what they have checked to be there.
-/

namespace Dora

open Lib

def framedBytes (flatbuffer : Bytes) : Bytes :=
  CONTINUATION_MARKER ++ leBytes 4 (framedBlock flatbuffer - PREFIX_LEN) ++ flatbuffer ++
    zeros (framedBlock flatbuffer - (PREFIX_LEN + flatbuffer.length))

theorem contents_writeFramedMessage (pos : Nat) (flatbuffer : Bytes) :
    (writeFramedMessage pos flatbuffer).flatMap Write.contents = framedBytes flatbuffer := by
  have hpad : pos + framedBlock flatbuffer - (pos + 8 + flatbuffer.length) =
      framedBlock flatbuffer - (PREFIX_LEN + flatbuffer.length) := by
    unfold PREFIX_LEN
    omega
  simp only [writeFramedMessage, hpad, List.flatMap_cons, List.flatMap_nil, List.append_nil,
    framedBytes, List.append_assoc]

theorem length_framedBytes (flatbuffer : Bytes) :
    (framedBytes flatbuffer).length = framedBlock flatbuffer := by
  have hlen := Write.length_flatMap_contents (tiles_writeFramedMessage 0 flatbuffer)
  rw [contents_writeFramedMessage] at hlen
  omega

theorem contents_writeBody (bodyStart : Nat) (layout : Layout) :
    (writeBody bodyStart layout).flatMap Write.contents =
      layout.descs.flatMap fun desc => desc.contents ++ zeros (roundUp desc.len ALIGN - desc.len) := by
  have hdesc (desc : Desc) : (Desc.writes bodyStart desc).flatMap Write.contents =
      desc.contents ++ zeros (roundUp desc.len ALIGN - desc.len) := by
    have hpad : bodyStart + desc.offset + roundUp desc.len ALIGN -
        (bodyStart + desc.offset + desc.len) = roundUp desc.len ALIGN - desc.len := by
      omega
    simp only [Desc.writes, hpad, List.flatMap_cons, List.flatMap_nil, List.append_nil]
  unfold writeBody
  rw [List.flatMap_assoc]
  exact List.flatMap_congr fun desc _ => hdesc desc

theorem contents_writes (prepared : Prepared) :
    prepared.writes.flatMap Write.contents =
      framedBytes prepared.schemaMessage ++ prepared.batchWrites.flatMap Write.contents := by
  simp only [Prepared.writes, Prepared.batchWrites, List.flatMap_append, contents_writeFramedMessage,
    contents_writeBody, writeEndOfStream, List.flatMap_cons, List.append_assoc]

theorem schemaBlockLen_framedBytes (flatbuffer rest : Bytes)
    (hbound : framedBlock flatbuffer ≤ MAX_IPC_BYTES) :
    schemaBlockLen (framedBytes flatbuffer ++ rest) = some (framedBlock flatbuffer) := by
  have hlen := length_framedBytes flatbuffer
  have hprefix : PREFIX_LEN + flatbuffer.length ≤ framedBlock flatbuffer := le_roundUp _
  have hmarker : (framedBytes flatbuffer ++ rest).take 4 = CONTINUATION_MARKER := by
    simp [framedBytes, CONTINUATION_MARKER]
  have hmetadata : ((framedBytes flatbuffer ++ rest).drop 4).take 4 =
      leBytes 4 (framedBlock flatbuffer - PREFIX_LEN) := by
    simp [framedBytes, CONTINUATION_MARKER]
  unfold PREFIX_LEN at *
  unfold MAX_IPC_BYTES at hbound
  have hread : i32FromLeBytes (leBytes 4 (framedBlock flatbuffer - 8)) =
      (framedBlock flatbuffer - 8 : Nat) := by
    unfold i32FromLeBytes
    rw [ofLeBytes_leBytes _ _ (by omega), if_pos (by omega)]
  unfold schemaBlockLen PREFIX_LEN
  rw [hmarker, hmetadata, hread, if_neg]
  · simp only [Int.toNat_natCast]
    rw [if_neg (by omega), if_pos (by rw [List.length_append]; omega),
      Nat.add_sub_cancel' (by omega)]
  · rw [List.length_append]
    simp only [ne_eq, not_true_eq_false, or_false]
    omega

/-- `bytes[start..stop]`, which panics, here `none`, when the range is not inside. -/
def indexRange (bytes : Bytes) (start stop : Nat) : Option Bytes :=
  if start ≤ stop ∧ stop ≤ bytes.length then some ((bytes.drop start).take (stop - start)) else none

/-- `schema_block_len` with its indexing. -/
def schemaBlockLenIndexed (stream : Bytes) : Option (Option Nat) :=
  if stream.length < PREFIX_LEN then some none
  else do
    let marker ← indexRange stream 0 4
    if marker ≠ CONTINUATION_MARKER then return none
    let metadataLen := i32FromLeBytes (← indexRange stream 4 8)
    if metadataLen < 0 then return none
    let block := PREFIX_LEN + metadataLen.toNat
    return if block ≤ stream.length then some block else none

/-- `batch_slice` with its indexing. -/
def batchSliceIndexed (stream : Bytes) : Option (Option Bytes) := do
  match ← schemaBlockLenIndexed stream with
  | none => return none
  | some block =>
    if block + PREFIX_LEN ≤ stream.length then
      (indexRange stream block stream.length).map some
    else return none

theorem schemaBlockLenIndexed_eq (stream : Bytes) :
    schemaBlockLenIndexed stream = some (schemaBlockLen stream) := by
  unfold schemaBlockLenIndexed schemaBlockLen
  by_cases hshort : stream.length < PREFIX_LEN
  · rw [if_pos hshort, if_pos (.inl hshort)]
  · have hlen : 8 ≤ stream.length := Nat.le_of_not_lt hshort
    have hmarker : indexRange stream 0 4 = some (stream.take 4) := by
      unfold indexRange
      rw [if_pos (by omega)]
      rfl
    have hmetadata : indexRange stream 4 8 = some ((stream.drop 4).take 4) := by
      unfold indexRange
      rw [if_pos (by omega)]
    rw [if_neg hshort, hmarker, hmetadata]
    by_cases heq : stream.take 4 = CONTINUATION_MARKER
    · simp only [heq, hshort, ne_eq, not_true_eq_false, or_false, if_false, Option.bind_eq_bind,
        Option.bind_some]
      split <;> rfl
    · simp only [heq, ne_eq, not_false_eq_true, or_true, if_true, Option.bind_eq_bind,
        Option.bind_some]
      rfl

theorem schemaBlockLen_le {stream : Bytes} {block : Nat} (h : schemaBlockLen stream = some block) :
    block ≤ stream.length := by
  unfold schemaBlockLen at h
  split at h
  · cases h
  · simp only at h
    split at h
    · cases h
    · split at h
      · rename_i hle
        cases h
        exact hle
      · cases h

theorem batchSliceIndexed_eq (stream : Bytes) :
    batchSliceIndexed stream = some (batchSlice stream) := by
  unfold batchSliceIndexed batchSlice
  rw [schemaBlockLenIndexed_eq]
  cases hblock : schemaBlockLen stream with
  | none => rfl
  | some block =>
    have hle := schemaBlockLen_le hblock
    have hslice : indexRange stream block stream.length = some (stream.drop block) := by
      unfold indexRange
      rw [if_pos ⟨hle, Nat.le_refl _⟩, List.take_of_length_le (by rw [List.length_drop])]
    simp only [Option.bind_eq_bind, Option.bind_some, hslice]
    split <;> rfl

/-- A full stream splits after its schema message into what the schema encoder and the batch encoder
write for the array; on any bytes the splitters stay in bounds. -/
theorem ipc_stream_splits (builder : IpcBuilder) :
    (∀ (array : ArrayData) (prepared : Prepared) (dst batchDst : Bytes),
      prepare builder array = some prepared → dst.length = prepared.total →
      batchDst.length = prepared.batchLen →
      ∃ stream schema batch : Bytes, encodeIpcIntoData builder array dst = .ok stream ∧
        encodeSchemaMessageFor builder array.dataType = .ok schema ∧
        encodeBatchIntoData builder array batchDst = .ok batch ∧
        schemaBlockLen stream = some prepared.schemaBlock ∧
        stream.take prepared.schemaBlock = schema ∧ batchSlice stream = some batch ∧
        schema ++ batch = stream) ∧
      ∀ bytes : Bytes,
        (schemaBlockLenIndexed bytes = some (schemaBlockLen bytes) ∧
          ∀ block, schemaBlockLen bytes = some block → block ≤ bytes.length) ∧
        batchSliceIndexed bytes = some (batchSlice bytes) ∧
          ∀ batch, batchSlice bytes = some batch →
            ∃ block ≤ bytes.length, schemaBlockLen bytes = some block ∧ batch = bytes.drop block := by
  refine ⟨fun array prepared dst batchDst hprepare hdst hbatchDst => ?_, fun bytes => ⟨⟨?_, ?_⟩, ?_, ?_⟩⟩
  · have h := preparedFrom hprepare
    have hstream := contents_writes prepared
    have hbatchLen : (prepared.batchWrites.flatMap Write.contents).length = prepared.batchLen := by
      have hlen := Write.length_flatMap_contents h.tiles_batchWrites
      omega
    have hblock : framedBlock prepared.schemaMessage ≤ MAX_IPC_BYTES := by
      have htotal := h.total
      have hbounded := h.bounded
      omega
    have hsplit := schemaBlockLen_framedBytes prepared.schemaMessage
      (prepared.batchWrites.flatMap Write.contents) hblock
    rw [← hstream, ← h.schemaBlock] at hsplit
    have hlen : (framedBytes prepared.schemaMessage).length = prepared.schemaBlock := by
      rw [length_framedBytes, h.schemaBlock]
    refine ⟨prepared.writes.flatMap Write.contents, framedBytes prepared.schemaMessage,
      prepared.batchWrites.flatMap Write.contents, ?_, ?_, ?_, hsplit, ?_, ?_, hstream.symm⟩
    · unfold encodeIpcIntoData
      rw [hprepare]
      exact h.encode hdst
    · unfold encodeSchemaMessageFor
      rw [h.schema]
      have htiles := tiles_writeFramedMessage 0 prepared.schemaMessage
      rw [← contents_writeFramedMessage 0]
      apply fill_of_tiles
      simpa [zeros] using htiles
    · unfold encodeBatchIntoData
      rw [hprepare]
      simp only
      rw [if_neg (not_not.mpr hbatchDst)]
      exact fill_of_tiles (hbatchDst ▸ h.tiles_batchWrites)
    · rw [hstream, List.take_left' hlen]
    · unfold batchSlice
      rw [hsplit, Option.bind_some, if_pos, hstream, List.drop_left' hlen]
      rw [hstream, List.length_append, hlen, hbatchLen, Prepared.batchLen]
      omega
  · exact schemaBlockLenIndexed_eq bytes
  · exact fun block => schemaBlockLen_le
  · exact batchSliceIndexed_eq bytes
  · intro batch hbatch
    obtain ⟨block, hblock, hslice⟩ := Option.bind_eq_some_iff.mp hbatch
    refine ⟨block, schemaBlockLen_le hblock, hblock, ?_⟩
    split at hslice
    · exact (Option.some.inj hslice).symm
    · cases hslice

theorem ipc_stream_splits_of_two_rows :
    ∃ prepared, prepare shortHeaders twoRows = some prepared ∧
      ∃ stream schema batch : Bytes,
        encodeIpcIntoData shortHeaders twoRows (zeros prepared.total) = .ok stream ∧
        encodeSchemaMessageFor shortHeaders twoRows.dataType = .ok schema ∧
        batchSlice stream = some batch ∧ schema ++ batch = stream := by
  have ⟨prepared, hprepare⟩ : ∃ prepared, prepare shortHeaders twoRows = some prepared := ⟨_, rfl⟩
  have ⟨stream, schema, batch, hstream, hschema, _, _, _, hbatch, hsplit⟩ :=
    (ipc_stream_splits shortHeaders).1 twoRows prepared (zeros prepared.total)
      (zeros prepared.batchLen) hprepare List.length_replicate List.length_replicate
  exact ⟨prepared, hprepare, stream, schema, batch, hstream, hschema, hbatch, hsplit⟩

end Dora
