import Dora.Lib.LittleEndian
import Dora.Lib.Writes
import Dora.Message.Config
import Dora.Message.Metadata

/-!
# The Arrow IPC encoder (`arrow_utils/ipc_encode.rs`)

A full stream is `[schema block][record batch][body][end-of-stream marker]`. The leading schema block
and its hash are the identity of a schema on the schema-once path; the rest of the stream is the
schema-less batch.

The fast path walks the array once for the layout of the body, lets the Arrow library build the two
message headers and then writes the whole stream into a buffer of exactly the announced length. The
bytes a function writes are given as the list of its writes, in order. The builders of the messages
belong to the Arrow library and are a parameter.
-/

namespace Dora

open Lib

/-! ## Streams on the wire -/

def PREFIX_LEN : Nat := 8
def CONTINUATION_MARKER : Bytes := [0xff, 0xff, 0xff, 0xff]

/-- `i32::from_le_bytes`. -/
def i32FromLeBytes (bytes : Bytes) : Int :=
  if ofLeBytes bytes < 2 ^ 31 then ofLeBytes bytes else ofLeBytes bytes - 2 ^ 32

/-- The length of the leading schema message, or `none` if the bytes are not a framed IPC message. -/
def schemaBlockLen (stream : Bytes) : Option Nat :=
  if stream.length < PREFIX_LEN ∨ stream.take 4 ≠ CONTINUATION_MARKER then none
  else
    let metadataLen := i32FromLeBytes ((stream.drop 4).take 4)
    -- `usize::try_from` refuses a negative length
    if metadataLen < 0 then none
    else
      let block := PREFIX_LEN + metadataLen.toNat
      if block ≤ stream.length then some block else none

def schemaBlockAndHash (stream : Bytes) : Option (UInt64 × Bytes) :=
  (schemaBlockLen stream).map fun block => (fnv1a (stream.take block), stream.take block)

def batchSlice (stream : Bytes) : Option Bytes :=
  (schemaBlockLen stream).bind fun block =>
    if block + PREFIX_LEN ≤ stream.length then some (stream.drop block) else none

def MAX_IPC_BYTES : Nat := 256 * 1024 * 1024

/-! ## Arrays -/

inductive TimeUnit where
  | second
  | millisecond
  | microsecond
  | nanosecond

inductive IntervalUnit where
  | yearMonth
  | dayTime
  | monthDayNano

mutual
inductive DataType where
  | null
  | boolean
  | int8
  | int16
  | int32
  | int64
  | uint8
  | uint16
  | uint32
  | uint64
  | float16
  | float32
  | float64
  | timestamp (unit : TimeUnit) (timezone : Option String)
  | date32
  | date64
  | time32 (unit : TimeUnit)
  | time64 (unit : TimeUnit)
  | duration (unit : TimeUnit)
  | interval (unit : IntervalUnit)
  | binary
  | fixedSizeBinary (size : Int)
  | largeBinary
  | binaryView
  | utf8
  | largeUtf8
  | utf8View
  | list (field : Field)
  | listView (field : Field)
  | fixedSizeList (field : Field) (size : Int)
  | largeList (field : Field)
  | largeListView (field : Field)
  | struct (fields : List Field)
  | union (fields : List Field)
  | dictionary (key value : DataType)
  | decimal32 (precision : Nat) (scale : Int)
  | decimal64 (precision : Nat) (scale : Int)
  | decimal128 (precision : Nat) (scale : Int)
  | decimal256 (precision : Nat) (scale : Int)
  | map (field : Field) (keysSorted : Bool)
  | runEndEncoded (runEnds values : Field)

inductive Field where
  | mk (name : String) (dataType : DataType) (nullable : Bool)
end

structure NullBuffer where
  offset : Nat
  buffer : Bytes

inductive ArrayData where
  | mk (dataType : DataType) (len offset : Nat) (nulls : Option NullBuffer) (buffers : List Bytes)
      (childData : List ArrayData)

namespace ArrayData

def dataType : ArrayData → DataType
  | .mk dataType .. => dataType

def len : ArrayData → Nat
  | .mk _ len .. => len

end ArrayData

namespace NullBuffer

/-- The bytes of the first `len` bits of a bitmap that starts at bit 0. -/
def sliced (nulls : NullBuffer) (len : Nat) : Bytes := nulls.buffer.take ((len + 7) / 8)

/-- The unset bits among the first `len`. -/
def nullCount (nulls : NullBuffer) (len : Nat) : Nat :=
  (List.range len).countP fun i =>
    !((nulls.buffer[(nulls.offset + i) / 8]?).getD 0).toNat.testBit ((nulls.offset + i) % 8)

end NullBuffer

/-- `ARROW_BUFFER_ALIGNMENT`. -/
def ALIGN : Nat := 64

/-- For a power of two this is `(n + align - 1) & !(align - 1)`. -/
def roundUp (n align : Nat) : Nat := (n + align - 1) / align * align

def isFastPathType : DataType → Bool
  | .null | .boolean | .int8 | .int16 | .int32 | .int64 | .uint8 | .uint16 | .uint32 | .uint64
  | .float16 | .float32 | .float64 | .timestamp _ _ | .date32 | .date64 | .time32 _ | .time64 _
  | .duration _ | .interval _ | .decimal128 _ _ | .decimal256 _ _ | .fixedSizeBinary _ | .binary
  | .largeBinary | .utf8 | .largeUtf8 | .list _ | .largeList _ | .fixedSizeList _ _ | .struct _ => true
  | _ => false

inductive BufferSrc where
  /-- Bytes of a buffer from the given position on. -/
  | bytes (buffer : Bytes) (srcOff : Nat)
  /-- An all-valid bitmap. -/
  | allOnes

structure Desc where
  offset : Nat
  len : Nat
  src : BufferSrc

/-- `n as i64`. -/
def asI64 (n : Nat) : Int := if n % 2 ^ 64 < 2 ^ 63 then n % 2 ^ 64 else n % 2 ^ 64 - 2 ^ 64

structure FieldNode where
  length : Int
  nullCount : Int
deriving DecidableEq

structure IpcBuffer where
  offset : Int
  length : Int
deriving DecidableEq

structure Layout where
  nodes : List FieldNode := []
  ipcBuffers : List IpcBuffer := []
  descs : List Desc := []
  bodyLen : Nat := 0

def checkedAdd (a b : Nat) : Option Nat := if a + b ≤ USIZE_MAX then some (a + b) else none

def checkedMul (a b : Nat) : Option Nat := if a * b ≤ USIZE_MAX then some (a * b) else none

/-- `size as usize` of an `i32`. -/
def i32AsUsize (size : Int) : Nat := if 0 ≤ size then size.toNat else 2 ^ 64 - (-size).toNat

namespace Layout

abbrev Cursor := Layout × Nat

def pushBuffer (cursor : Cursor) (len : Nat) (src : BufferSrc) : Option Cursor := do
  let (layout, off) := cursor
  let padded ← (checkedAdd len (ALIGN - 1)).map fun n => n / ALIGN * ALIGN
  let next ← checkedAdd off padded
  if next > MAX_IPC_BYTES then none
  else
    some ({ layout with
      ipcBuffers := layout.ipcBuffers ++ [⟨asI64 off, asI64 len⟩]
      descs := layout.descs ++ [⟨off, len, src⟩] }, next)

def pushNode (cursor : Cursor) (node : FieldNode) : Cursor :=
  ({ cursor.1 with nodes := cursor.1.nodes ++ [node] }, cursor.2)

def isNull : DataType → Bool
  | .null => true
  | _ => false

/-- The validity bitmap; only `Null` has none. -/
def pushValidity (cursor : Cursor) (dataType : DataType) (len : Nat) (nulls : Option NullBuffer) :
    Option Cursor :=
  if isNull dataType then some cursor
  else
    match nulls with
    | some nulls =>
      if nulls.offset ≠ 0 then none
      else pushBuffer cursor (nulls.sliced len).length (.bytes (nulls.sliced len) 0)
    | none => pushBuffer cursor ((len + 7) / 8) .allOnes

def pushBuffers (cursor : Cursor) (buffers : List Bytes) : Option Cursor :=
  buffers.foldlM (fun cursor buffer => pushBuffer cursor buffer.length (.bytes buffer 0)) cursor

/-- The part of `build_layout_rec` before the children. -/
def pushArray (cursor : Cursor) (dataType : DataType) (len : Nat) (nulls : Option NullBuffer)
    (buffers : List Bytes) : Option Cursor := do
  let nullCount := if isNull dataType then len else nulls.elim 0 (·.nullCount len)
  let cursor ← pushValidity (pushNode cursor ⟨asI64 len, asI64 nullCount⟩) dataType len nulls
  pushBuffers cursor buffers

mutual
/-- `build_layout_rec(array.slice(0, len))`. Cutting an array to its first `len` elements cuts its
bitmap, and the children of a struct, to the same length and leaves the rest of it alone. -/
def buildLayoutRec (cursor : Cursor) : ArrayData → Nat → Option Cursor
  | .mk dataType _ offset nulls buffers childData, len =>
    if !isFastPathType dataType || offset != 0 then none
    else
      match pushArray cursor dataType len nulls buffers with
      | none => none
      | some cursor =>
        match dataType with
        | .fixedSizeList _ valueSize =>
          match checkedMul len (i32AsUsize valueSize) with
          | none => none
          | some n => buildFirst cursor childData n
        | .struct _ => buildFields cursor childData len
        | _ => buildChildren cursor childData

def buildFirst (cursor : Cursor) : List ArrayData → Nat → Option Cursor
  | [], _ => none
  | child :: _, n => if child.len < n then none else buildLayoutRec cursor child n

def buildFields (cursor : Cursor) : List ArrayData → Nat → Option Cursor
  | [], _ => some cursor
  | child :: rest, len =>
    if child.len < len then none
    else
      match buildLayoutRec cursor child len with
      | none => none
      | some cursor => buildFields cursor rest len

def buildChildren (cursor : Cursor) : List ArrayData → Option Cursor
  | [] => some cursor
  | child :: rest =>
    match buildLayoutRec cursor child child.len with
    | none => none
    | some cursor => buildChildren cursor rest
end

end Layout

def buildLayout (array : ArrayData) : Option Layout :=
  (Layout.buildLayoutRec ({}, 0) array array.len).map fun cursor =>
    { cursor.1 with bodyLen := cursor.2 }

structure IpcBuilder where
  buildSchemaMessage : DataType → Except String Bytes
  buildRecordBatchMessage : Nat → List FieldNode → List IpcBuffer → Nat → Bytes

structure Prepared where
  layout : Layout
  schemaMessage : Bytes
  recordBatchMessage : Bytes
  schemaBlock : Nat
  recordBatchBlock : Nat
  total : Nat

section Encode

variable (builder : IpcBuilder)

def prepare (array : ArrayData) : Option Prepared := do
  let layout ← buildLayout array
  let schemaMessage ← (builder.buildSchemaMessage array.dataType).toOption
  let recordBatchMessage :=
    builder.buildRecordBatchMessage array.len layout.nodes layout.ipcBuffers layout.bodyLen
  let schemaBlock := roundUp (PREFIX_LEN + schemaMessage.length) ALIGN
  let recordBatchBlock := roundUp (PREFIX_LEN + recordBatchMessage.length) ALIGN
  let total := schemaBlock + recordBatchBlock + layout.bodyLen + PREFIX_LEN
  if total > MAX_IPC_BYTES then none
  else some ⟨layout, schemaMessage, recordBatchMessage, schemaBlock, recordBatchBlock, total⟩

def zeros (n : Nat) : Bytes := List.replicate n 0

def framedBlock (flatbuffer : Bytes) : Nat := roundUp (PREFIX_LEN + flatbuffer.length) ALIGN

/-- Marker, little-endian metadata length, flatbuffer and zero padding, at `pos`. -/
def writeFramedMessage (pos : Nat) (flatbuffer : Bytes) : List (Write UInt8) :=
  let block := framedBlock flatbuffer
  [⟨pos, CONTINUATION_MARKER⟩, ⟨pos + 4, leBytes 4 (block - PREFIX_LEN)⟩, ⟨pos + 8, flatbuffer⟩,
    ⟨pos + 8 + flatbuffer.length, zeros (pos + block - (pos + 8 + flatbuffer.length))⟩]

def Desc.contents (desc : Desc) : Bytes :=
  match desc.src with
  | .bytes buffer srcOff => (buffer.drop srcOff).take desc.len
  | .allOnes => List.replicate desc.len 0xff

def Desc.writes (bodyStart : Nat) (desc : Desc) : List (Write UInt8) :=
  let stop := bodyStart + desc.offset + desc.len
  let paddedEnd := bodyStart + desc.offset + roundUp desc.len ALIGN
  [⟨bodyStart + desc.offset, desc.contents⟩, ⟨stop, zeros (paddedEnd - stop)⟩]

def writeBody (bodyStart : Nat) (layout : Layout) : List (Write UInt8) :=
  layout.descs.flatMap (Desc.writes bodyStart)

def writeEndOfStream (pos : Nat) : List (Write UInt8) :=
  [⟨pos, CONTINUATION_MARKER⟩, ⟨pos + 4, leBytes 4 0⟩]

inductive EncodeError where
  | message (text : String)
  | panic
deriving DecidableEq

def fill (dst : Bytes) (writes : List (Write UInt8)) : Except EncodeError Bytes :=
  match Write.applyAll writes dst with
  | some filled => .ok filled
  | none => .error .panic

def Prepared.writes (prepared : Prepared) : List (Write UInt8) :=
  let bodyStart := framedBlock prepared.schemaMessage + framedBlock prepared.recordBatchMessage
  writeFramedMessage 0 prepared.schemaMessage ++
    writeFramedMessage (framedBlock prepared.schemaMessage) prepared.recordBatchMessage ++
    writeBody bodyStart prepared.layout ++
    writeEndOfStream (bodyStart + prepared.layout.bodyLen)

def encodePreparedInto (prepared : Prepared) (dst : Bytes) : Except EncodeError Bytes :=
  let size := dst.length
  let required := prepared.total
  if size ≠ required then
    .error (.message s!"destination size {size} does not match required IPC length {required}")
  else fill dst prepared.writes

def encodeIpcIntoData (array : ArrayData) (dst : Bytes) : Except EncodeError Bytes :=
  match prepare builder array with
  | none => .error (.message "array is not Arrow IPC fast-path eligible")
  | some prepared => encodePreparedInto prepared dst

def encodeSchemaMessageFor (dataType : DataType) : Except EncodeError Bytes :=
  match builder.buildSchemaMessage dataType with
  | .error text => .error (.message text)
  | .ok schemaMessage =>
    fill (zeros (framedBlock schemaMessage)) (writeFramedMessage 0 schemaMessage)

def Prepared.batchLen (prepared : Prepared) : Nat :=
  prepared.recordBatchBlock + prepared.layout.bodyLen + PREFIX_LEN

def Prepared.batchWrites (prepared : Prepared) : List (Write UInt8) :=
  let bodyStart := framedBlock prepared.recordBatchMessage
  writeFramedMessage 0 prepared.recordBatchMessage ++ writeBody bodyStart prepared.layout ++
    writeEndOfStream (bodyStart + prepared.layout.bodyLen)

def encodeBatchIntoData (array : ArrayData) (dst : Bytes) : Except EncodeError Bytes :=
  match prepare builder array with
  | none => .error (.message "array is not Arrow IPC fast-path eligible")
  | some prepared =>
    let size := dst.length
    let expected := prepared.batchLen
    if size ≠ expected then
      .error (.message s!"destination size {size} does not match required batch length {expected}")
    else fill dst prepared.batchWrites

structure Uint8Layout where
  schemaMessage : Bytes
  recordBatchMessage : Bytes
  validityLen : Nat
  validityPadded : Nat
  bodyLen : Nat
  total : Nat
  dataOffset : Nat

/-- The layout of a `UInt8` array without nulls, computed without the array. -/
def uint8Layout (dataLen : Nat) : Except String Uint8Layout := do
  if dataLen > MAX_IPC_BYTES then
    .error s!"UInt8 payload too large: {dataLen} bytes (max {MAX_IPC_BYTES})"
  let validityLen := (dataLen + 7) / 8
  let validityPadded := roundUp validityLen ALIGN
  let bodyLen := validityPadded + roundUp dataLen ALIGN
  let nodes := [FieldNode.mk (asI64 dataLen) 0]
  let buffers := [IpcBuffer.mk 0 (asI64 validityLen), ⟨asI64 validityPadded, asI64 dataLen⟩]
  let recordBatchMessage := builder.buildRecordBatchMessage dataLen nodes buffers bodyLen
  let schemaMessage ← builder.buildSchemaMessage .uint8
  let schemaBlock := roundUp (PREFIX_LEN + schemaMessage.length) ALIGN
  let recordBatchBlock := roundUp (PREFIX_LEN + recordBatchMessage.length) ALIGN
  let total := schemaBlock + recordBatchBlock + bodyLen + PREFIX_LEN
  if total > MAX_IPC_BYTES then
    .error (s!"UInt8 payload too large: {dataLen} bytes encodes to a {total}-byte " ++
      s!"Arrow IPC stream (max {MAX_IPC_BYTES})")
  return ⟨schemaMessage, recordBatchMessage, validityLen, validityPadded, bodyLen, total,
    schemaBlock + recordBatchBlock + validityPadded⟩

def Uint8Layout.writes (layout : Uint8Layout) (dataLen : Nat) : List (Write UInt8) :=
  let bodyStart := framedBlock layout.schemaMessage + framedBlock layout.recordBatchMessage
  let dataEnd := layout.dataOffset + dataLen
  let bodyEnd := bodyStart + layout.bodyLen
  writeFramedMessage 0 layout.schemaMessage ++
    writeFramedMessage (framedBlock layout.schemaMessage) layout.recordBatchMessage ++
    [⟨bodyStart, List.replicate layout.validityLen 0xff⟩,
      ⟨bodyStart + layout.validityLen, zeros (layout.validityPadded - layout.validityLen)⟩,
      ⟨dataEnd, zeros (bodyEnd - dataEnd)⟩] ++
    writeEndOfStream bodyEnd

def encodeUint8PreparedInto (layout : Uint8Layout) (dataLen : Nat) (dst : Bytes) :
    Except EncodeError (Bytes × Nat) :=
  let size := dst.length
  let required := layout.total
  if size ≠ required then
    .error
      (.message s!"destination size {size} does not match required UInt8 IPC length {required}")
  else (fill dst (layout.writes dataLen)).map fun filled => (filled, layout.dataOffset)

end Encode

end Dora
