import Dora.Lib.LittleEndian
import Dora.Lib.Machine

/-!
# The recording format (`libraries/recording/src/lib.rs`)

A `.drec` file is a header, a sequence of length-prefixed records and an optional footer. The writer
appends to a byte string; the reader consumes one, and treats a record that is cut off as the end of
the file. The two are independent codecs, each with its own size caps.
-/

namespace Dora.Recording

open Lib

/-- `b"DORAREC\x00"`. -/
def MAGIC : Bytes := [0x44, 0x4f, 0x52, 0x41, 0x52, 0x45, 0x43, 0x00]
/-- `b"DORAEND\x00"`. -/
def FOOTER_MAGIC : Bytes := [0x44, 0x4f, 0x52, 0x41, 0x45, 0x4e, 0x44, 0x00]
def FORMAT_VERSION : UInt16 := 2
def MIN_SUPPORTED_FORMAT_VERSION : UInt16 := 2
def MAX_RECORD_BYTES : Nat := 64 * 1024 * 1024

structure Uuid where
  bytes : Bytes
  length_bytes : bytes.length = 16
deriving DecidableEq

structure RecordingHeader where
  version : UInt16
  startNanos : UInt64
  dataflowId : Uuid
  descriptorYaml : Bytes
deriving DecidableEq

structure RecordEntry where
  nodeId : String
  outputId : String
  timestampOffsetNanos : UInt64
  eventBytes : Bytes
deriving DecidableEq

structure RecordingFooter where
  totalMessages : Nat
  totalBytes : Nat
deriving DecidableEq

def asBytes (s : String) : Bytes := s.toUTF8.data.toList

def RecordEntry.encodedLen (entry : RecordEntry) : Nat :=
  2 + (asBytes entry.nodeId).length + 2 + (asBytes entry.outputId).length + 8 + 4 +
    entry.eventBytes.length

structure RecordingWriter where
  written : Bytes
  totalMessages : Nat := 0
  totalBytes : Nat := 0

def writeHeader (header : RecordingHeader) : Except String Bytes :=
  if header.descriptorYaml.length > MAX_RECORD_BYTES then
    .error (s!"descriptor YAML too large to write: {header.descriptorYaml.length} bytes "
      ++ s!"(max {MAX_RECORD_BYTES})")
  else
    .ok (MAGIC ++ (leBytes 2 header.version.toNat ++ (leBytes 8 header.startNanos.toNat ++
      (header.dataflowId.bytes ++ (leBytes 4 header.descriptorYaml.length ++
        header.descriptorYaml)))))

def RecordEntry.body (entry : RecordEntry) : Bytes :=
  leBytes 2 (asBytes entry.nodeId).length ++ (asBytes entry.nodeId ++
    (leBytes 2 (asBytes entry.outputId).length ++ (asBytes entry.outputId ++
      (leBytes 8 entry.timestampOffsetNanos.toNat ++
        (leBytes 4 entry.eventBytes.length ++ entry.eventBytes)))))

namespace RecordingWriter

def new (header : RecordingHeader) : Except String RecordingWriter := do
  return { written := ← writeHeader header }

def writeEntry (self : RecordingWriter) (entry : RecordEntry) : Except String RecordingWriter :=
  let recordLen := entry.encodedLen
  if recordLen > MAX_RECORD_BYTES then
    .error s!"record too large to write: {recordLen} bytes (max {MAX_RECORD_BYTES})"
  else if recordLen > 4294967295 then
    .error s!"record length {recordLen} exceeds u32::MAX"
  else if (asBytes entry.nodeId).length > 65535 then
    .error s!"node_id too long: {(asBytes entry.nodeId).length} bytes (max {65535})"
  else if (asBytes entry.outputId).length > 65535 then
    .error s!"output_id too long: {(asBytes entry.outputId).length} bytes (max {65535})"
  else
    .ok { written := self.written ++ (leBytes 4 recordLen ++ entry.body),
          totalMessages := self.totalMessages + 1,
          totalBytes := self.totalBytes + (recordLen + 4) }

/-- `Ok(Some(len))`: the entry was too large and has been skipped. -/
def writeEntrySkipOversized (self : RecordingWriter) (entry : RecordEntry) :
    Except String (RecordingWriter × Option Nat) :=
  if entry.encodedLen > MAX_RECORD_BYTES then .ok (self, some entry.encodedLen)
  else (self.writeEntry entry).map fun writer => (writer, none)

def finish (self : RecordingWriter) : Bytes × RecordingFooter :=
  (self.written ++
      (FOOTER_MAGIC ++ (leBytes 8 self.totalMessages ++ leBytes 8 self.totalBytes)),
    { totalMessages := self.totalMessages, totalBytes := self.totalBytes })

inductive WriteCall where
  | entry (entry : RecordEntry)
  | entrySkipOversized (entry : RecordEntry)

/-- One call on the writer, with the entry if it was written; a call that fails leaves the writer as
it was. -/
def step (self : RecordingWriter) : WriteCall → RecordingWriter × Option RecordEntry
  | .entry entry =>
    match self.writeEntry entry with
    | .ok writer => (writer, some entry)
    | .error _ => (self, none)
  | .entrySkipOversized entry =>
    match self.writeEntrySkipOversized entry with
    | .ok (writer, none) => (writer, some entry)
    | .ok (writer, some _) => (writer, none)
    | .error _ => (self, none)

end RecordingWriter

/-- `Read::read_exact`; `none` is `UnexpectedEof`. -/
def readExact (n : Nat) (input : Bytes) : Option (Bytes × Bytes) :=
  if n ≤ input.length then some (input.take n, input.drop n) else none

/-- `read_exact` where the end of the file is an error. -/
def expectExact (n : Nat) (report : String) (input : Bytes) : Except String (Bytes × Bytes) :=
  match readExact n input with
  | some read => .ok read
  | none => .error report

def UNEXPECTED_EOF : String := "failed to fill whole buffer"

def readHeader (input : Bytes) : Except String (RecordingHeader × Bytes) := do
  let (magic, input) ← expectExact 8 "failed to read magic bytes" input
  if magic ≠ MAGIC then throw "not an dora recording file (invalid magic)"
  let (versionBuf, input) ← expectExact 2 UNEXPECTED_EOF input
  let version := UInt16.ofNat (ofLeBytes versionBuf)
  if version > FORMAT_VERSION then
    throw s!"unsupported recording format version {version} (max supported: {FORMAT_VERSION})"
  if version < MIN_SUPPORTED_FORMAT_VERSION then
    throw (s!"recording format version {version} is no longer supported (min supported: "
      ++ s!"{MIN_SUPPORTED_FORMAT_VERSION}); it was written by a dora release that encoded "
      ++ "events with bincode. Re-record with this version of dora.")
  let (nanosBuf, input) ← expectExact 8 UNEXPECTED_EOF input
  let startNanos := UInt64.ofNat (ofLeBytes nanosBuf)
  let (uuidBuf, input) ← expectExact 16 UNEXPECTED_EOF input
  let (yamlLenBuf, input) ← expectExact 4 UNEXPECTED_EOF input
  let yamlLen := ofLeBytes yamlLenBuf
  if yamlLen > MAX_RECORD_BYTES then
    throw s!"descriptor YAML too large: {yamlLen} bytes (max {MAX_RECORD_BYTES})"
  let (descriptorYaml, input) ← expectExact yamlLen UNEXPECTED_EOF input
  -- `Uuid::from_bytes` takes any sixteen bytes, and that many were read
  if hlen : uuidBuf.length = 16 then
    return ({ version, startNanos, dataflowId := ⟨uuidBuf, hlen⟩, descriptorYaml }, input)
  else throw UNEXPECTED_EOF

/-- The next record body, or `none` at the end of the file, the footer or a torn record. -/
def readNextRecord (input : Bytes) : Except String (Option Bytes × Bytes) :=
  match readExact 4 input with
  | none => .ok (none, [])
  | some (lenBuf, input) =>
    if lenBuf = FOOTER_MAGIC.take 4 then .ok (none, input)
    else
      let recordLen := ofLeBytes lenBuf
      if recordLen > MAX_RECORD_BYTES then
        .error s!"record too large: {recordLen} bytes (max {MAX_RECORD_BYTES})"
      else
        match readExact recordLen input with
        | some (recordBuf, input) => .ok (some recordBuf, input)
        | none => .ok (none, [])

def readAt (report : String) (buf : Bytes) (pos len : Nat) : Except String (Bytes × Nat) :=
  if pos + len > buf.length then .error report else .ok ((buf.drop pos).take len, pos + len)

def readArray (n : Nat) (buf : Bytes) (pos : Nat) : Except String (Bytes × Nat) :=
  readAt s!"buffer too short at offset {pos}" buf pos n

def readSlice (buf : Bytes) (pos len : Nat) : Except String (Bytes × Nat) :=
  readAt s!"buffer too short at offset {pos}: need {len} bytes, have {buf.length - pos}" buf pos len

def fromUtf8 (bytes : Bytes) (report : String) : Except String String :=
  match String.fromUTF8? bytes.toByteArray with
  | some s => .ok s
  | none => .error report

def parseRecord (buf : Bytes) : Except String RecordEntry := do
  let (nodeIdLen, pos) ← readArray 2 buf 0
  let (nodeIdBytes, pos) ← readSlice buf pos (ofLeBytes nodeIdLen)
  let nodeId ← fromUtf8 nodeIdBytes "invalid node_id utf8"
  let (outputIdLen, pos) ← readArray 2 buf pos
  let (outputIdBytes, pos) ← readSlice buf pos (ofLeBytes outputIdLen)
  let outputId ← fromUtf8 outputIdBytes "invalid output_id utf8"
  let (timestamp, pos) ← readArray 8 buf pos
  let (eventBytesLen, pos) ← readArray 4 buf pos
  let (eventBytes, _) ← readSlice buf pos (ofLeBytes eventBytesLen)
  return { nodeId, outputId, timestampOffsetNanos := UInt64.ofNat (ofLeBytes timestamp), eventBytes }

def nextEntry (input : Bytes) : Except String (Option RecordEntry × Bytes) := do
  match ← readNextRecord input with
  | (none, input) => return (none, input)
  | (some recordBuf, input) => return (some (← parseRecord recordBuf), input)

/-- Reading entry after entry from `input` gives exactly `entries` and then `None`. -/
def Yields : Bytes → List RecordEntry → Prop
  | input, [] => ∃ rest, nextEntry input = .ok (none, rest)
  | input, entry :: entries =>
    ∃ rest, nextEntry input = .ok (some entry, rest) ∧ Yields rest entries

end Dora.Recording
