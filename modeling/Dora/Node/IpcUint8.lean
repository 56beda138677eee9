import Dora.Node.IpcSplit

/-!
# Bytes constructed in place

For a plain byte payload the sender writes everything around the data first and lets the caller put
the data where it belongs. The offsets are computed from the length alone; they agree with the layout
of the array of those bytes, and so do the stream and the limit at which it is refused.
-/

namespace Dora

open Lib Layout

def uint8Array (data : Bytes) : ArrayData := .mk .uint8 data.length 0 none [data] []

theorem pushBuffer_eq (cursor : Cursor) (len : Nat) (src : BufferSrc) :
    pushBuffer cursor len src =
      if cursor.2 + roundUp len ALIGN ≤ MAX_IPC_BYTES then
        some ({ cursor.1 with
          ipcBuffers := cursor.1.ipcBuffers ++ [⟨asI64 cursor.2, asI64 len⟩]
          descs := cursor.1.descs ++ [⟨cursor.2, len, src⟩] }, cursor.2 + roundUp len ALIGN)
      else none := by
  have hlimit : MAX_IPC_BYTES + ALIGN ≤ USIZE_MAX := by decide
  have hround := le_roundUp len
  have hpadded : (len + (ALIGN - 1)) / ALIGN * ALIGN = roundUp len ALIGN := rfl
  unfold pushBuffer checkedAdd
  by_cases hfits : cursor.2 + roundUp len ALIGN ≤ MAX_IPC_BYTES
  · rw [if_pos hfits, if_pos (show len + (ALIGN - 1) ≤ USIZE_MAX by omega)]
    simp only [Option.map_some, Option.bind_eq_bind, Option.bind_some, hpadded]
    rw [if_pos (show cursor.2 + roundUp len ALIGN ≤ USIZE_MAX by omega), Option.bind_some,
      if_neg (by omega)]
  · rw [if_neg hfits]
    by_cases hlen : len + (ALIGN - 1) ≤ USIZE_MAX
    · rw [if_pos hlen]
      simp only [Option.map_some, Option.bind_eq_bind, Option.bind_some, hpadded]
      by_cases hnext : cursor.2 + roundUp len ALIGN ≤ USIZE_MAX
      · rw [if_pos hnext, Option.bind_some, if_pos (by omega)]
      · rw [if_neg hnext]
        rfl
    · rw [if_neg hlen]
      rfl

def uint8BodyLen (dataLen : Nat) : Nat :=
  roundUp ((dataLen + 7) / 8) ALIGN + roundUp dataLen ALIGN

theorem buildLayout_uint8Array (data : Bytes) :
    buildLayout (uint8Array data) =
      if uint8BodyLen data.length ≤ MAX_IPC_BYTES then
        some {
          nodes := [⟨asI64 data.length, 0⟩]
          ipcBuffers := [⟨0, asI64 ((data.length + 7) / 8)⟩,
            ⟨asI64 (roundUp ((data.length + 7) / 8) ALIGN), asI64 data.length⟩]
          descs := [⟨0, (data.length + 7) / 8, .allOnes⟩,
            ⟨roundUp ((data.length + 7) / 8) ALIGN, data.length, .bytes data 0⟩]
          bodyLen := uint8BodyLen data.length }
      else none := by
  have hbuild : buildLayoutRec ({}, 0) (uint8Array data) data.length =
      pushArray ({}, 0) .uint8 data.length none [data] := by
    rw [uint8Array, buildLayoutRec, if_neg (by decide)]
    cases pushArray ({}, 0) .uint8 data.length none [data] with
    | none | some => rfl
  have hpush : pushArray ({}, 0) .uint8 data.length none [data] =
      (pushBuffer (pushNode ({}, 0) ⟨asI64 data.length, 0⟩) ((data.length + 7) / 8) .allOnes).bind
        fun cursor => pushBuffer cursor data.length (.bytes data 0) := by
    unfold pushArray pushValidity pushBuffers
    simp only [isNull, Bool.false_eq_true, if_false, Option.elim_none, List.foldlM_cons,
      List.foldlM_nil, Option.bind_eq_bind, Option.pure_def, Option.bind_fun_some]
    rfl
  unfold buildLayout uint8BodyLen
  rw [show (uint8Array data).len = data.length from rfl, hbuild, hpush, pushBuffer_eq]
  simp only [pushNode, Nat.zero_add]
  by_cases hbitmap : roundUp ((data.length + 7) / 8) ALIGN ≤ MAX_IPC_BYTES
  · rw [if_pos hbitmap, Option.bind_some, pushBuffer_eq]
    by_cases hbody : roundUp ((data.length + 7) / 8) ALIGN + roundUp data.length ALIGN ≤ MAX_IPC_BYTES
    · rw [if_pos hbody, if_pos hbody]
      rfl
    · rw [if_neg hbody, if_neg hbody]
      rfl
  · rw [if_neg hbitmap, if_neg (by omega)]
    rfl

variable (builder : IpcBuilder)

def uint8BatchMessage (dataLen : Nat) : Bytes :=
  builder.buildRecordBatchMessage dataLen [⟨asI64 dataLen, 0⟩]
    [⟨0, asI64 ((dataLen + 7) / 8)⟩,
      ⟨asI64 (roundUp ((dataLen + 7) / 8) ALIGN), asI64 dataLen⟩] (uint8BodyLen dataLen)

def uint8Total (schemaMessage : Bytes) (dataLen : Nat) : Nat :=
  framedBlock schemaMessage + framedBlock (uint8BatchMessage builder dataLen) +
    uint8BodyLen dataLen + PREFIX_LEN

theorem le_uint8Total (schemaMessage : Bytes) (dataLen : Nat) :
    dataLen ≤ uint8BodyLen dataLen ∧ uint8BodyLen dataLen ≤ uint8Total builder schemaMessage dataLen := by
  have hround := le_roundUp dataLen
  unfold uint8Total uint8BodyLen
  omega

def uint8LayoutOf (schemaMessage : Bytes) (dataLen : Nat) : Uint8Layout where
  schemaMessage := schemaMessage
  recordBatchMessage := uint8BatchMessage builder dataLen
  validityLen := (dataLen + 7) / 8
  validityPadded := roundUp ((dataLen + 7) / 8) ALIGN
  bodyLen := uint8BodyLen dataLen
  total := uint8Total builder schemaMessage dataLen
  dataOffset := framedBlock schemaMessage + framedBlock (uint8BatchMessage builder dataLen) +
    roundUp ((dataLen + 7) / 8) ALIGN

theorem uint8Layout_toOption (dataLen : Nat) :
    (uint8Layout builder dataLen).toOption =
      (builder.buildSchemaMessage .uint8).toOption.bind fun schemaMessage =>
        if uint8Total builder schemaMessage dataLen ≤ MAX_IPC_BYTES then
          some (uint8LayoutOf builder schemaMessage dataLen)
        else none := by
  unfold uint8Layout
  cases hschema : builder.buildSchemaMessage .uint8 with
  | error =>
    by_cases hlen : dataLen > MAX_IPC_BYTES
    · simp only [hlen, if_true]
      rfl
    · simp only [hlen, if_false]
      rfl
  | ok schemaMessage =>
    have hle := le_uint8Total builder schemaMessage dataLen
    by_cases hlen : dataLen > MAX_IPC_BYTES
    · simp only [hlen, if_true, Except.toOption, Option.bind_some]
      rw [if_neg (by omega)]
      rfl
    · simp only [hlen, if_false]
      change (Except.toOption (if uint8Total builder schemaMessage dataLen > MAX_IPC_BYTES then _
        else Except.ok (uint8LayoutOf builder schemaMessage dataLen))) = _
      by_cases htotal : uint8Total builder schemaMessage dataLen > MAX_IPC_BYTES
      · simp only [Except.toOption, Option.bind_some]
        rw [if_pos htotal, if_neg (by omega)]
        rfl
      · simp only [Except.toOption, Option.bind_some]
        rw [if_neg htotal, if_pos (by omega)]

def uint8PreparedOf (schemaMessage data : Bytes) : Prepared where
  layout := {
    nodes := [⟨asI64 data.length, 0⟩]
    ipcBuffers := [⟨0, asI64 ((data.length + 7) / 8)⟩,
      ⟨asI64 (roundUp ((data.length + 7) / 8) ALIGN), asI64 data.length⟩]
    descs := [⟨0, (data.length + 7) / 8, .allOnes⟩,
      ⟨roundUp ((data.length + 7) / 8) ALIGN, data.length, .bytes data 0⟩]
    bodyLen := uint8BodyLen data.length }
  schemaMessage := schemaMessage
  recordBatchMessage := uint8BatchMessage builder data.length
  schemaBlock := framedBlock schemaMessage
  recordBatchBlock := framedBlock (uint8BatchMessage builder data.length)
  total := uint8Total builder schemaMessage data.length

theorem prepare_uint8Array (data : Bytes) :
    prepare builder (uint8Array data) =
      (builder.buildSchemaMessage .uint8).toOption.bind fun schemaMessage =>
        if uint8Total builder schemaMessage data.length ≤ MAX_IPC_BYTES then
          some (uint8PreparedOf builder schemaMessage data)
        else none := by
  unfold prepare
  rw [buildLayout_uint8Array, show (uint8Array data).dataType = .uint8 from rfl]
  by_cases hbody : uint8BodyLen data.length ≤ MAX_IPC_BYTES
  · rw [if_pos hbody, Option.bind_eq_bind, Option.bind_some]
    congr 1
    funext schemaMessage
    change (if uint8Total builder schemaMessage data.length > MAX_IPC_BYTES then none
      else some (uint8PreparedOf builder schemaMessage data)) = _
    by_cases htotal : uint8Total builder schemaMessage data.length > MAX_IPC_BYTES
    · rw [if_pos htotal, if_neg (by omega)]
    · rw [if_neg htotal, if_pos (by omega)]
  · rw [if_neg hbody]
    symm
    apply Option.bind_eq_none_iff.mpr
    intro schemaMessage _
    have hle := le_uint8Total builder schemaMessage data.length
    rw [if_neg (by omega)]

theorem fill_uint8 (schemaMessage data : Bytes) {dst : Bytes}
    (hdst : dst.length = uint8Total builder schemaMessage data.length) :
    ∃ header,
      encodeUint8PreparedInto (uint8LayoutOf builder schemaMessage data.length) data.length dst =
        .ok (header, (uint8LayoutOf builder schemaMessage data.length).dataOffset) ∧
      (Write.mk (uint8LayoutOf builder schemaMessage data.length).dataOffset data).apply header =
        some ((uint8PreparedOf builder schemaMessage data).writes.flatMap Write.contents) := by
  let bitmap := (data.length + 7) / 8
  let bodyStart := framedBlock schemaMessage + framedBlock (uint8BatchMessage builder data.length)
  let dataEnd := bodyStart + roundUp bitmap ALIGN + data.length
  let bodyEnd := bodyStart + uint8BodyLen data.length
  let before := writeFramedMessage 0 schemaMessage ++
    writeFramedMessage (framedBlock schemaMessage) (uint8BatchMessage builder data.length) ++
    [⟨bodyStart, List.replicate bitmap 0xff⟩,
      ⟨bodyStart + bitmap, zeros (roundUp bitmap ALIGN - bitmap)⟩]
  let behind := ⟨dataEnd, zeros (bodyEnd - dataEnd)⟩ :: writeEndOfStream bodyEnd
  have hwrites : (uint8LayoutOf builder schemaMessage data.length).writes data.length =
      before ++ behind := by
    simp only [Uint8Layout.writes, uint8LayoutOf, before, behind, List.append_assoc,
      List.cons_append, List.nil_append, bodyStart, bodyEnd, dataEnd, bitmap]
  have hbitmap := le_roundUp bitmap
  have hdata := le_roundUp data.length
  have hbefore : Tiles 0 (before.map Write.extent) (bodyStart + roundUp bitmap ALIGN) := by
    have hschema := tiles_writeFramedMessage 0 schemaMessage
    rw [Nat.zero_add] at hschema
    have hbatch := tiles_writeFramedMessage (framedBlock schemaMessage)
      (uint8BatchMessage builder data.length)
    simp only [before, List.map_append]
    refine (hschema.append hbatch).append ⟨rfl, ?_, ?_⟩
    · simp only [Write.extent, List.length_replicate, bodyStart]
    · change _ = _
      simp only [Write.extent, zeros, List.length_replicate, bodyStart]
      omega
  have hbehind : Tiles (bodyStart + roundUp bitmap ALIGN + data.length) (behind.map Write.extent)
      dst.length := by
    refine ⟨rfl, ?_⟩
    have hstop : dataEnd + (zeros (bodyEnd - dataEnd)).length = bodyEnd := by
      simp only [zeros, List.length_replicate, bodyEnd, dataEnd, uint8BodyLen, bitmap]
      omega
    change Tiles (dataEnd + (zeros (bodyEnd - dataEnd)).length) _ _
    rw [hstop, hdst]
    exact tiles_writeEndOfStream bodyEnd
  obtain ⟨header, hheader, hfilled⟩ := Write.apply_gap hbefore hbehind
  refine ⟨header, ?_, ?_⟩
  · unfold encodeUint8PreparedInto fill
    rw [hwrites, hheader]
    simp only
    have hsize : dst.length = (uint8LayoutOf builder schemaMessage data.length).total := hdst
    rw [if_neg (not_not.mpr hsize)]
    rfl
  · change (Write.mk (bodyStart + roundUp bitmap ALIGN) data).apply header = _
    have htail : bodyEnd - dataEnd = roundUp data.length ALIGN - data.length := by
      simp only [bodyEnd, dataEnd, uint8BodyLen, bitmap]
      omega
    rw [hfilled]
    simp only [before, behind, htail, contents_writes, Prepared.batchWrites, uint8PreparedOf,
      contents_writeFramedMessage, contents_writeBody, writeEndOfStream, Desc.contents,
      List.drop_zero, List.take_length, List.flatMap_append, List.flatMap_cons, List.flatMap_nil,
      List.append_assoc, List.append_nil, bitmap]

/-- Filling the data region of the in-place stream gives the stream of the array of those bytes; the
two paths announce the same length and accept the same payloads. -/
theorem uint8_in_place_eq_generic (data : Bytes) :
    ((∃ layout, uint8Layout builder data.length = .ok layout) ↔
        ∃ prepared, prepare builder (uint8Array data) = some prepared) ∧
      ∀ layout prepared, uint8Layout builder data.length = .ok layout →
        prepare builder (uint8Array data) = some prepared →
        layout.total = prepared.total ∧
          ∀ dst : Bytes, dst.length = layout.total → ∃ header stream,
            encodeUint8PreparedInto layout data.length dst = .ok (header, layout.dataOffset) ∧
            (Write.mk layout.dataOffset data).apply header = some stream ∧
            ∀ dst' : Bytes, dst'.length = prepared.total →
              encodePreparedInto prepared dst' = .ok stream := by
  have hlayout := uint8Layout_toOption builder data.length
  have hgeneric := prepare_uint8Array builder data
  have hok (layout : Uint8Layout) : uint8Layout builder data.length = .ok layout ↔
      (uint8Layout builder data.length).toOption = some layout := by
    cases uint8Layout builder data.length with
    | ok | error => simp [Except.toOption]
  simp only [hok]
  rw [hlayout, hgeneric]
  cases hschema : (builder.buildSchemaMessage .uint8).toOption with
  | none => simp
  | some schemaMessage =>
    simp only [Option.bind_some]
    by_cases htotal : uint8Total builder schemaMessage data.length ≤ MAX_IPC_BYTES
    · rw [if_pos htotal, if_pos htotal]
      refine ⟨⟨fun _ => ⟨_, rfl⟩, fun _ => ⟨_, rfl⟩⟩, fun layout prepared hl hp => ?_⟩
      cases hl
      cases hp
      refine ⟨rfl, fun dst hdst => ?_⟩
      obtain ⟨header, hheader, hfilled⟩ := fill_uint8 builder schemaMessage data hdst
      refine ⟨header, _, hheader, hfilled, fun dst' hdst' => ?_⟩
      rw [hschema, Option.bind_some, if_pos htotal] at hgeneric
      exact (preparedFrom hgeneric).encode hdst'
    · rw [if_neg htotal, if_neg htotal]
      simp

theorem uint8_in_place_eq_generic_of_three_bytes :
    ∃ layout prepared, uint8Layout shortHeaders 3 = .ok layout ∧
      prepare shortHeaders (uint8Array [7, 8, 9]) = some prepared ∧ layout.total = prepared.total := by
  have ⟨layout, hlayout⟩ : ∃ layout, uint8Layout shortHeaders 3 = .ok layout := ⟨_, rfl⟩
  have ⟨prepared, hprepared⟩ :
      ∃ prepared, prepare shortHeaders (uint8Array [7, 8, 9]) = some prepared := ⟨_, rfl⟩
  exact ⟨layout, prepared, hlayout, hprepared,
    ((uint8_in_place_eq_generic shortHeaders [7, 8, 9]).2 layout prepared hlayout hprepared).1⟩

end Dora
