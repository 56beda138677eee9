import Dora.Node.IpcLayout

/-!
# The IPC stream fills its buffer

The layout places the body buffers one after the other, each padded to the alignment, and the encoder
writes the two framed messages, the body and the end marker next to each other. So the writes tile the
destination, and what they leave there does not depend on what was there before.
-/

namespace Dora

open Lib Layout

theorem le_roundUp (n : Nat) : n ≤ roundUp n ALIGN := by
  unfold roundUp ALIGN
  omega

theorem dvd_roundUp (n : Nat) : ALIGN ∣ roundUp n ALIGN := Nat.dvd_mul_left _ _

def Desc.extent (desc : Desc) : Nat × Nat := (desc.offset, roundUp desc.len ALIGN)

structure Laid (cursor : Cursor) : Prop where
  tiles : Tiles 0 (cursor.1.descs.map Desc.extent) cursor.2
  aligned : ALIGN ∣ cursor.2
  offsets : ∀ desc ∈ cursor.1.descs, ALIGN ∣ desc.offset
  bounded : cursor.2 ≤ MAX_IPC_BYTES
  /-- the source of each buffer has the bytes it announces -/
  whole : ∀ desc ∈ cursor.1.descs, desc.contents.length = desc.len

section Laid

variable {cursor cursor' : Cursor}

theorem pushBuffer_eq_some {len : Nat} {src : BufferSrc}
    (h : pushBuffer cursor len src = some cursor') :
    cursor'.2 = cursor.2 + roundUp len ALIGN ∧ cursor'.2 ≤ MAX_IPC_BYTES ∧
      cursor'.1.descs = cursor.1.descs ++ [⟨cursor.2, len, src⟩] := by
  simp only [pushBuffer, checkedAdd, bind, Option.bind_eq_some_iff, Option.map_eq_some_iff] at h
  obtain ⟨padded, ⟨n, hn, hpadded⟩, next, hnext, h⟩ := h
  split at hn
  · split at hnext
    · cases hn
      cases hnext
      split at h
      · cases h
      · rename_i hbound
        cases h
        refine ⟨?_, Nat.le_of_not_gt hbound, rfl⟩
        rw [← hpadded]
        rfl
    · cases hnext
  · cases hn

theorem Laid.pushBuffer {len : Nat} {src : BufferSrc} (h : Laid cursor)
    (hpush : Layout.pushBuffer cursor len src = some cursor')
    (hsrc : (Desc.mk cursor.2 len src).contents.length = len) : Laid cursor' := by
  have ⟨hoff, hbound, hdescs⟩ := pushBuffer_eq_some hpush
  refine ⟨?_, ?_, ?_, hbound, ?_⟩
  · rw [hdescs, hoff, List.map_append]
    exact h.tiles.concat
  · rw [hoff]
    exact Nat.dvd_add h.aligned (dvd_roundUp len)
  · intro desc hdesc
    rw [hdescs] at hdesc
    rcases List.mem_append.mp hdesc with hold | hnew
    · exact h.offsets desc hold
    · rw [List.mem_singleton.mp hnew]
      exact h.aligned
  · intro desc hdesc
    rw [hdescs] at hdesc
    rcases List.mem_append.mp hdesc with hold | hnew
    · exact h.whole desc hold
    · rw [List.mem_singleton.mp hnew]
      exact hsrc

theorem Laid.pushBytes {buffer : Bytes} (h : Laid cursor)
    (hpush : Layout.pushBuffer cursor buffer.length (.bytes buffer 0) = some cursor') :
    Laid cursor' := by
  apply h.pushBuffer hpush
  simp only [Desc.contents, List.drop_zero, List.take_length]

theorem Laid.pushArray {dataType : DataType} {len : Nat} {nulls : Option NullBuffer}
    {buffers : List Bytes} (h : Laid cursor)
    (hpush : Layout.pushArray cursor dataType len nulls buffers = some cursor') : Laid cursor' := by
  simp only [Layout.pushArray, bind, Option.bind_eq_some_iff] at hpush
  obtain ⟨mid, hvalidity, hbuffers⟩ := hpush
  have hnode (node : FieldNode) : Laid (pushNode cursor node) :=
    ⟨h.tiles, h.aligned, h.offsets, h.bounded, h.whole⟩
  have hmid : Laid mid := by
    unfold pushValidity at hvalidity
    split at hvalidity
    · cases hvalidity
      exact hnode _
    · split at hvalidity
      · split at hvalidity
        · cases hvalidity
        · exact (hnode _).pushBytes hvalidity
      · apply (hnode _).pushBuffer hvalidity
        simp only [Desc.contents, List.length_replicate]
  clear hvalidity hnode h
  unfold pushBuffers at hbuffers
  induction buffers generalizing mid with
  | nil =>
    cases hbuffers
    exact hmid
  | cons buffer buffers ih =>
    rw [List.foldlM_cons] at hbuffers
    obtain ⟨next, hfirst, hrest⟩ := Option.bind_eq_some_iff.mp hbuffers
    exact ih next hrest (hmid.pushBytes hfirst)

end Laid

mutual
theorem Laid.buildLayoutRec {cursor cursor' : Cursor} (h : Laid cursor) :
    ∀ (array : ArrayData) (len : Nat),
      Layout.buildLayoutRec cursor array len = some cursor' → Laid cursor'
  | .mk dataType _ offset nulls buffers childData, len, hbuild => by
    rw [Layout.buildLayoutRec] at hbuild
    split at hbuild
    · cases hbuild
    · split at hbuild
      · cases hbuild
      · rename_i mid hpush
        have hmid := h.pushArray hpush
        split at hbuild
        · split at hbuild
          · cases hbuild
          · exact hmid.buildFirst childData _ hbuild
        · exact hmid.buildFields childData len hbuild
        · exact hmid.buildChildren childData hbuild

theorem Laid.buildFirst {cursor cursor' : Cursor} (h : Laid cursor) :
    ∀ (children : List ArrayData) (n : Nat),
      Layout.buildFirst cursor children n = some cursor' → Laid cursor'
  | [], _, hbuild => by
    rw [Layout.buildFirst] at hbuild
    cases hbuild
  | child :: _, n, hbuild => by
    rw [Layout.buildFirst] at hbuild
    split at hbuild
    · cases hbuild
    · exact h.buildLayoutRec child n hbuild

theorem Laid.buildFields {cursor cursor' : Cursor} (h : Laid cursor) :
    ∀ (children : List ArrayData) (len : Nat),
      Layout.buildFields cursor children len = some cursor' → Laid cursor'
  | [], _, hbuild => by
    rw [Layout.buildFields] at hbuild
    cases hbuild
    exact h
  | child :: rest, len, hbuild => by
    rw [Layout.buildFields] at hbuild
    split at hbuild
    · cases hbuild
    · split at hbuild
      · cases hbuild
      · rename_i mid hchild
        exact (h.buildLayoutRec child len hchild).buildFields rest len hbuild

theorem Laid.buildChildren {cursor cursor' : Cursor} (h : Laid cursor) :
    ∀ children : List ArrayData, Layout.buildChildren cursor children = some cursor' → Laid cursor'
  | [], hbuild => by
    rw [Layout.buildChildren] at hbuild
    cases hbuild
    exact h
  | child :: rest, hbuild => by
    rw [Layout.buildChildren] at hbuild
    split at hbuild
    · cases hbuild
    · rename_i mid hchild
      exact (h.buildLayoutRec child child.len hchild).buildChildren rest hbuild
end

theorem laid_of_buildLayout {array : ArrayData} {layout : Layout}
    (h : buildLayout array = some layout) : Laid (layout, layout.bodyLen) := by
  obtain ⟨cursor, hbuild, hlayout⟩ := Option.map_eq_some_iff.mp h
  have hempty : Laid ({}, 0) := ⟨rfl, Nat.dvd_zero _, nofun, Nat.zero_le _, nofun⟩
  have hcursor := hempty.buildLayoutRec array array.len hbuild
  subst hlayout
  exact ⟨hcursor.tiles, hcursor.aligned, hcursor.offsets, hcursor.bounded, hcursor.whole⟩

theorem tiles_writeFramedMessage (pos : Nat) (flatbuffer : Bytes) :
    Tiles pos ((writeFramedMessage pos flatbuffer).map Write.extent)
      (pos + framedBlock flatbuffer) := by
  have hroom : PREFIX_LEN + flatbuffer.length ≤ framedBlock flatbuffer := le_roundUp _
  unfold PREFIX_LEN at hroom
  refine ⟨rfl, rfl, ?_, ?_, ?_⟩
  · simp [Write.extent, CONTINUATION_MARKER]
  · simp [Write.extent, CONTINUATION_MARKER]
  · change _ = _
    simp only [Write.extent, CONTINUATION_MARKER, zeros, length_leBytes, List.length_replicate,
      List.length_cons, List.length_nil]
    omega

theorem tiles_writeEndOfStream (pos : Nat) :
    Tiles pos ((writeEndOfStream pos).map Write.extent) (pos + PREFIX_LEN) :=
  ⟨rfl, rfl, by simp [Write.extent, CONTINUATION_MARKER, PREFIX_LEN, Tiles]⟩

theorem tiles_writeBody {layout : Layout} (h : Laid (layout, layout.bodyLen)) (bodyStart : Nat) :
    Tiles bodyStart ((writeBody bodyStart layout).map Write.extent) (bodyStart + layout.bodyLen) := by
  have hshifted := h.tiles.shift bodyStart
  rw [List.map_map] at hshifted
  unfold writeBody
  rw [List.map_flatMap]
  refine Tiles.refine (fun desc hdesc => ?_) hshifted
  have hroom := le_roundUp desc.len
  have hwhole := h.whole desc hdesc
  refine ⟨rfl, ?_, ?_⟩
  · simp only [Write.extent, Function.comp_apply, Desc.extent, hwhole]
  · change _ = _
    simp only [Write.extent, Function.comp_apply, Desc.extent, hwhole, zeros, List.length_replicate]
    omega

section Prepared

variable {builder : IpcBuilder} {array : ArrayData} {prepared : Prepared}

structure PreparedFrom (builder : IpcBuilder) (array : ArrayData) (prepared : Prepared) : Prop where
  layout : buildLayout array = some prepared.layout
  schema : builder.buildSchemaMessage array.dataType = .ok prepared.schemaMessage
  batch : prepared.recordBatchMessage = builder.buildRecordBatchMessage array.len
    prepared.layout.nodes prepared.layout.ipcBuffers prepared.layout.bodyLen
  schemaBlock : prepared.schemaBlock = framedBlock prepared.schemaMessage
  recordBatchBlock : prepared.recordBatchBlock = framedBlock prepared.recordBatchMessage
  total : prepared.total = framedBlock prepared.schemaMessage +
    framedBlock prepared.recordBatchMessage + prepared.layout.bodyLen + PREFIX_LEN
  bounded : prepared.total ≤ MAX_IPC_BYTES

theorem preparedFrom (h : prepare builder array = some prepared) :
    PreparedFrom builder array prepared := by
  simp only [prepare, bind, Option.bind_eq_some_iff] at h
  obtain ⟨layout, hlayout, schemaMessage, hschema, h⟩ := h
  split at h
  · cases h
  · rename_i hbound
    cases h
    refine ⟨hlayout, ?_, rfl, rfl, rfl, rfl, Nat.le_of_not_gt hbound⟩
    cases hbuilt : builder.buildSchemaMessage array.dataType with
    | ok =>
      rw [hbuilt] at hschema
      cases hschema
      rfl
    | error =>
      rw [hbuilt] at hschema
      cases hschema

theorem PreparedFrom.laid (h : PreparedFrom builder array prepared) :
    Laid (prepared.layout, prepared.layout.bodyLen) := laid_of_buildLayout h.layout

theorem PreparedFrom.tiles_writes (h : PreparedFrom builder array prepared) :
    Tiles 0 (prepared.writes.map Write.extent) prepared.total := by
  have hschema := tiles_writeFramedMessage 0 prepared.schemaMessage
  rw [Nat.zero_add] at hschema
  have hbatch := tiles_writeFramedMessage (framedBlock prepared.schemaMessage)
    prepared.recordBatchMessage
  have hbody := tiles_writeBody h.laid
    (framedBlock prepared.schemaMessage + framedBlock prepared.recordBatchMessage)
  rw [h.total]
  simp only [Prepared.writes, List.map_append]
  exact ((hschema.append hbatch).append hbody).append (tiles_writeEndOfStream _)

theorem PreparedFrom.tiles_batchWrites (h : PreparedFrom builder array prepared) :
    Tiles 0 (prepared.batchWrites.map Write.extent) prepared.batchLen := by
  have hbatch := tiles_writeFramedMessage 0 prepared.recordBatchMessage
  rw [Nat.zero_add] at hbatch
  have hbody := tiles_writeBody h.laid (framedBlock prepared.recordBatchMessage)
  rw [Prepared.batchLen, h.recordBatchBlock]
  simp only [Prepared.batchWrites, List.map_append]
  exact (hbatch.append hbody).append (tiles_writeEndOfStream _)

theorem fill_of_tiles {writes : List (Write UInt8)} {dst : Bytes}
    (h : Tiles 0 (writes.map Write.extent) dst.length) :
    fill dst writes = .ok (writes.flatMap Write.contents) := by
  unfold fill
  rw [Write.applyAll_of_tiles h (Nat.le_refl _)]
  simp only [List.take_zero, List.nil_append, List.drop_length, List.append_nil]

theorem PreparedFrom.encode (h : PreparedFrom builder array prepared) {dst : Bytes}
    (hdst : dst.length = prepared.total) :
    encodePreparedInto prepared dst = .ok (prepared.writes.flatMap Write.contents) := by
  unfold encodePreparedInto
  rw [if_neg (not_not.mpr hdst)]
  exact fill_of_tiles (hdst ▸ h.tiles_writes)

theorem PreparedFrom.length_stream (h : PreparedFrom builder array prepared) :
    (prepared.writes.flatMap Write.contents).length = prepared.total := by
  have hlen := Write.length_flatMap_contents h.tiles_writes
  rwa [Nat.zero_add] at hlen

end Prepared

def covers (i : Nat) (write : Write UInt8) : Bool :=
  decide (write.start ≤ i ∧ i < write.start + write.contents.length)

/-- For every accepted array the padded body buffers tile the body in order, the stream stays within
the limit, and the encoder writes each byte of its destination once, so that what it leaves there
depends on the array alone. -/
theorem ipc_layout_tiles (builder : IpcBuilder) (array : ArrayData) (prepared : Prepared)
    (h : prepare builder array = some prepared) :
    (∀ desc ∈ prepared.layout.descs, ALIGN ∣ desc.offset) ∧
      prepared.layout.descs.Pairwise (fun desc desc' =>
        desc.offset + roundUp desc.len ALIGN ≤ desc'.offset ∧
          (0 < desc.len → desc.offset < desc'.offset)) ∧
      Tiles 0 (prepared.layout.descs.map Desc.extent) prepared.layout.bodyLen ∧
      prepared.total ≤ MAX_IPC_BYTES ∧
      (∀ i, prepared.writes.countP (covers i) = if i < prepared.total then 1 else 0) ∧
      ∃ stream : Bytes, stream.length = prepared.total ∧
        ∀ dst : Bytes, dst.length = prepared.total →
          encodePreparedInto prepared dst = .ok stream := by
  have hprepared := preparedFrom h
  have hlaid := hprepared.laid
  refine ⟨hlaid.offsets, ?_, hlaid.tiles, hprepared.bounded, fun i => ?_,
    _, hprepared.length_stream, fun dst hdst => hprepared.encode hdst⟩
  · refine (List.pairwise_map.mp hlaid.tiles.pairwise).imp fun {desc desc'} hle => ⟨hle, fun hpos => ?_⟩
    have hroom := le_roundUp desc.len
    change desc.offset + roundUp desc.len ALIGN ≤ desc'.offset at hle
    omega
  · have hcount := hprepared.tiles_writes.countP_covers i
    rw [List.countP_map] at hcount
    simp only [Nat.zero_le, true_and] at hcount
    exact hcount

def shortHeaders : IpcBuilder := ⟨fun _ => .ok [1, 2, 3], fun _ _ _ _ => [4, 5]⟩

def twoRows : ArrayData :=
  .mk (.struct [.mk "a" .int8 true, .mk "b" .null true]) 2 0 none []
    [.mk .int8 3 0 (some ⟨0, [0b101]⟩) [[7, 8, 9]] [], .mk .null 2 0 none [] []]

theorem ipc_layout_tiles_of_two_rows :
    ∃ prepared, prepare shortHeaders twoRows = some prepared ∧
      prepared.layout.descs.map Desc.extent = [(0, 64), (64, 64), (128, 64)] ∧
      prepared.total = 328 ∧
      ∃ stream : Bytes, stream.length = prepared.total ∧
        ∀ dst : Bytes, dst.length = prepared.total → encodePreparedInto prepared dst = .ok stream :=
  ⟨_, rfl, rfl, rfl, (ipc_layout_tiles shortHeaders twoRows _ rfl).2.2.2.2.2⟩

/-- An array without elements has two buffers without bytes, at the same offset. -/
theorem empty_buffers_share_offset :
    ∃ prepared, prepare shortHeaders (.mk .uint8 0 0 none [[]] []) = some prepared ∧
      prepared.layout.descs.map Desc.offset = [0, 0] ∧
      ¬ (prepared.layout.descs.map Desc.offset).Pairwise (· < ·) :=
  ⟨_, rfl, rfl, by decide⟩

end Dora
