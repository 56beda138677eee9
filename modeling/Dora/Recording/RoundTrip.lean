import Dora.Recording.Format

/-!
# Reading back a recording, whole or cut off

What the reader makes of the bytes the writer produced: the header, then every record that is there
completely, then `None`. The argument goes record by record: a complete record is read back and
leaves the rest of the input, an incomplete one and the footer end the file.
-/

namespace Dora.Recording

open Lib

variable {after buf bytes input rest : Bytes} {n pos : Nat}

theorem readExact_append (rest : Bytes) (hlen : bytes.length = n) :
    readExact n (bytes ++ rest) = some (bytes, rest) := by
  unfold readExact
  rw [if_pos (by simp [← hlen]), ← hlen, List.take_left, List.drop_left]

theorem readExact_short (hlen : input.length < n) :
    readExact n input = none := if_neg (Nat.not_le.mpr hlen)

theorem expectExact_append (report : String) (rest : Bytes)
    (hlen : bytes.length = n) : expectExact n report (bytes ++ rest) = .ok (bytes, rest) := by
  unfold expectExact
  rw [readExact_append rest hlen]

structure At (buf : Bytes) (pos : Nat) (rest : Bytes) : Prop where
  le : pos ≤ buf.length
  drop_eq : buf.drop pos = rest

theorem At.start (buf : Bytes) : At buf 0 buf := ⟨Nat.zero_le _, rfl⟩

theorem At.length_eq (h : At buf pos rest) :
    buf.length = pos + rest.length := by
  have hlen := congrArg List.length h.drop_eq
  rw [List.length_drop] at hlen
  have := h.le
  omega

theorem At.next (h : At buf pos (bytes ++ after)) (hlen : bytes.length = n) : At buf (pos + n) after where
  le := by
    have := h.length_eq
    rw [List.length_append] at this
    omega
  drop_eq := by rw [← List.drop_drop, h.drop_eq, ← hlen, List.drop_left]

theorem At.readAt {report : String} (h : At buf pos (bytes ++ after)) (hlen : bytes.length = n) :
    readAt report buf pos n = .ok (bytes, pos + n) := by
  unfold Recording.readAt
  rw [if_neg (Nat.not_lt.mpr (h.next hlen).le), h.drop_eq, ← hlen, List.take_left]

theorem At.readArray (h : At buf pos (bytes ++ after)) (hlen : bytes.length = n) :
    readArray n buf pos = .ok (bytes, pos + n) := h.readAt hlen

theorem At.readSlice (h : At buf pos (bytes ++ after)) (hlen : bytes.length = n) :
    readSlice buf pos n = .ok (bytes, pos + n) := h.readAt hlen

theorem fromUtf8_asBytes (s : String) (report : String) : fromUtf8 (asBytes s) report = .ok s := by
  have hbytes : (asBytes s).toByteArray = s.toUTF8 := by
    apply ByteArray.ext
    rw [List.data_toByteArray]
    exact Array.toArray_toList
  have hvalid : String.fromUTF8? s.toUTF8 = some s := dif_pos s.isValidUTF8
  unfold fromUtf8
  rw [hbytes, hvalid]

theorem readHeader_writeHeader {header : RecordingHeader} {written : Bytes} (rest : Bytes)
    (hversion : header.version = FORMAT_VERSION) (hwrite : writeHeader header = .ok written) :
    readHeader (written ++ rest) = .ok (header, rest) := by
  unfold writeHeader at hwrite
  by_cases hlarge : header.descriptorYaml.length > MAX_RECORD_BYTES
  · rw [if_pos hlarge] at hwrite
    cases hwrite
  rw [if_neg hlarge] at hwrite
  have hwritten := Except.ok.inj hwrite
  have hyaml : ofLeBytes (leBytes 4 header.descriptorYaml.length) =
      header.descriptorYaml.length := by
    apply ofLeBytes_leBytes
    dsimp only [MAX_RECORD_BYTES] at hlarge
    omega
  have hvers : UInt16.ofNat (ofLeBytes (leBytes 2 header.version.toNat)) = header.version := by
    rw [ofLeBytes_leBytes 2 _ header.version.toNat_lt, UInt16.ofNat_toNat]
  have hnanos : UInt64.ofNat (ofLeBytes (leBytes 8 header.startNanos.toNat)) =
      header.startNanos := by
    rw [ofLeBytes_leBytes 8 _ header.startNanos.toNat_lt, UInt64.ofNat_toNat]
  unfold readHeader
  simp only [← hwritten, List.append_assoc]
  -- each `read_exact` takes the piece the writer put there
  rw [expectExact_append _ _ (show MAGIC.length = 8 from rfl)]
  simp only [bind, Except.bind, ne_eq, not_true_eq_false, if_false]
  rw [expectExact_append _ _ (length_leBytes 2 _)]
  simp only [hvers]
  rw [if_neg (by rw [hversion]; decide), if_neg (by rw [hversion]; decide),
    expectExact_append _ _ (length_leBytes 8 _)]
  simp only []
  rw [expectExact_append _ _ header.dataflowId.length_bytes]
  simp only []
  rw [expectExact_append _ _ (length_leBytes 4 _)]
  simp only [hyaml, hlarge, if_false]
  rw [expectExact_append _ _ rfl]
  simp only [header.dataflowId.length_bytes, dif_pos, hnanos]
  rfl

/-- The entries `write_entry` accepts. -/
structure RecordEntry.Accepted (entry : RecordEntry) : Prop where
  size : entry.encodedLen ≤ MAX_RECORD_BYTES
  nodeId : (asBytes entry.nodeId).length ≤ 65535
  outputId : (asBytes entry.outputId).length ≤ 65535

def RecordEntry.record (entry : RecordEntry) : Bytes := leBytes 4 entry.encodedLen ++ entry.body

theorem RecordEntry.length_body (entry : RecordEntry) : entry.body.length = entry.encodedLen := by
  simp only [RecordEntry.body, RecordEntry.encodedLen, List.length_append, length_leBytes]
  omega

theorem RecordEntry.length_record (entry : RecordEntry) :
    entry.record.length = 4 + entry.encodedLen := by
  rw [RecordEntry.record, List.length_append, length_leBytes, RecordEntry.length_body]

variable {entry : RecordEntry}

theorem parseRecord_body (hentry : entry.Accepted) :
    parseRecord entry.body = .ok entry := by
  have hsize := hentry.size
  dsimp only [RecordEntry.encodedLen, MAX_RECORD_BYTES] at hsize
  have hnode : ofLeBytes (leBytes 2 (asBytes entry.nodeId).length) =
      (asBytes entry.nodeId).length :=
    ofLeBytes_leBytes 2 _ (by have := hentry.nodeId; omega)
  have houtput : ofLeBytes (leBytes 2 (asBytes entry.outputId).length) =
      (asBytes entry.outputId).length :=
    ofLeBytes_leBytes 2 _ (by have := hentry.outputId; omega)
  have hevent : ofLeBytes (leBytes 4 entry.eventBytes.length) = entry.eventBytes.length :=
    ofLeBytes_leBytes 4 _ (by omega)
  have hnanos : UInt64.ofNat (ofLeBytes (leBytes 8 entry.timestampOffsetNanos.toNat)) =
      entry.timestampOffsetNanos := by
    rw [ofLeBytes_leBytes 8 _ entry.timestampOffsetNanos.toNat_lt, UInt64.ofNat_toNat]
  -- the parser walks over the pieces in the order in which the writer put them
  have hat := At.start entry.body
  have hat₁ := hat.next (length_leBytes 2 _)
  have hat₂ := hat₁.next rfl
  have hat₃ := hat₂.next (length_leBytes 2 _)
  have hat₄ := hat₃.next rfl
  have hat₅ := hat₄.next (length_leBytes 8 _)
  have hat₆ := hat₅.next (length_leBytes 4 _)
  rw [← List.append_nil entry.eventBytes] at hat₆
  unfold parseRecord
  rw [hat.readArray (length_leBytes 2 _)]
  simp only [bind, Except.bind, hnode]
  rw [hat₁.readSlice rfl]
  simp only [fromUtf8_asBytes]
  rw [hat₂.readArray (length_leBytes 2 _)]
  simp only [houtput]
  rw [hat₃.readSlice rfl]
  simp only [fromUtf8_asBytes]
  rw [hat₄.readArray (length_leBytes 8 _)]
  simp only []
  rw [hat₅.readArray (length_leBytes 4 _)]
  simp only [hevent]
  rw [hat₆.readSlice rfl]
  simp only [hnanos]
  rfl

theorem ofLeBytes_encodedLen (hentry : entry.Accepted) :
    ofLeBytes (leBytes 4 entry.encodedLen) = entry.encodedLen := by
  apply ofLeBytes_leBytes
  have := hentry.size
  dsimp only [MAX_RECORD_BYTES] at this
  omega

theorem leBytes_ne_footer (hentry : entry.Accepted) :
    leBytes 4 entry.encodedLen ≠ FOOTER_MAGIC.take 4 := by
  intro heq
  have hlen := ofLeBytes_encodedLen hentry
  rw [heq, show ofLeBytes (FOOTER_MAGIC.take 4) = 1095913284 by decide] at hlen
  have := hentry.size
  dsimp only [MAX_RECORD_BYTES] at this
  omega

theorem nextEntry_record (hentry : entry.Accepted) (rest : Bytes) :
    nextEntry (entry.record ++ rest) = .ok (some entry, rest) := by
  have hrecord : readNextRecord (entry.record ++ rest) = .ok (some entry.body, rest) := by
    unfold readNextRecord RecordEntry.record
    rw [List.append_assoc, readExact_append _ (length_leBytes 4 _)]
    dsimp only
    rw [if_neg (leBytes_ne_footer hentry), ofLeBytes_encodedLen hentry,
      if_neg (Nat.not_lt.mpr hentry.size), readExact_append _ entry.length_body]
  unfold nextEntry
  rw [hrecord]
  simp only [bind, Except.bind, parseRecord_body hentry]
  rfl

theorem nextEntry_of_readNextRecord
    (h : readNextRecord input = .ok (none, rest)) : nextEntry input = .ok (none, rest) := by
  unfold nextEntry
  rw [h]
  rfl

theorem nextEntry_torn (hentry : entry.Accepted) {k : Nat}
    (hk : k < 4 + entry.encodedLen) : nextEntry (entry.record.take k) = .ok (none, []) := by
  apply nextEntry_of_readNextRecord
  unfold readNextRecord
  by_cases hprefix : k < 4
  · rw [readExact_short (lt_of_le_of_lt (List.length_take_le k _) hprefix)]
  · -- the length prefix is there, the body is not
    have hsplit : entry.record.take k =
        leBytes 4 entry.encodedLen ++ entry.body.take (k - 4) := by
      rw [RecordEntry.record, List.take_append, length_leBytes,
        List.take_of_length_le (by rw [length_leBytes]; omega)]
    rw [hsplit, readExact_append _ (length_leBytes 4 _)]
    dsimp only
    rw [if_neg (leBytes_ne_footer hentry), ofLeBytes_encodedLen hentry,
      if_neg (Nat.not_lt.mpr hentry.size), readExact_short]
    rw [List.length_take, entry.length_body]
    omega

theorem nextEntry_footer (totals : Bytes) (k : Nat) :
    ∃ rest, nextEntry ((FOOTER_MAGIC ++ totals).take k) = .ok (none, rest) := by
  by_cases hprefix : k < 4
  · refine ⟨[], nextEntry_of_readNextRecord ?_⟩
    unfold readNextRecord
    rw [readExact_short (lt_of_le_of_lt (List.length_take_le k _) hprefix)]
  · have hsplit : (FOOTER_MAGIC ++ totals).take k =
        FOOTER_MAGIC.take 4 ++ (FOOTER_MAGIC.drop 4 ++ totals).take (k - 4) := by
      rw [← List.take_append_drop 4 FOOTER_MAGIC, List.append_assoc, List.take_append]
      rw [List.take_of_length_le (by simp; omega)]
      simp [FOOTER_MAGIC]
    refine ⟨(FOOTER_MAGIC.drop 4 ++ totals).take (k - 4), nextEntry_of_readNextRecord ?_⟩
    unfold readNextRecord
    rw [hsplit, readExact_append _ (by rfl)]
    rfl

def records (entries : List RecordEntry) : Bytes := entries.flatMap RecordEntry.record

theorem records_cons (entry : RecordEntry) (entries : List RecordEntry) :
    records (entry :: entries) = entry.record ++ records entries := rfl

theorem yields_take (entries : List RecordEntry) (haccepted : ∀ entry ∈ entries, entry.Accepted)
    (totals : Bytes) (k : Nat) :
    ∃ n ≤ entries.length,
      Yields ((records entries ++ (FOOTER_MAGIC ++ totals)).take k) (entries.take n) ∧
        ∀ m ≤ entries.length, m ≤ n ↔ (records (entries.take m)).length ≤ k := by
  induction entries generalizing k with
  | nil =>
    refine ⟨0, Nat.le_refl _, nextEntry_footer totals k, ?_⟩
    intro m hm
    have hzero : m = 0 := Nat.le_zero.mp hm
    rw [hzero]
    simp [records]
  | cons entry entries ih =>
    have hentry := haccepted entry List.mem_cons_self
    have hlen := entry.length_record
    by_cases hk : 4 + entry.encodedLen ≤ k
    · obtain ⟨n, hn, hyields, hinside⟩ :=
        ih (fun other hother => haccepted other (List.mem_cons_of_mem _ hother))
          (k - (4 + entry.encodedLen))
      refine ⟨n + 1, Nat.succ_le_succ hn, ?_, ?_⟩
      · rw [records_cons, List.append_assoc, List.take_append,
          List.take_of_length_le (by omega), hlen, List.take_succ_cons]
        exact ⟨_, nextEntry_record hentry _, hyields⟩
      · intro m hm
        cases m with
        | zero => simp [records]
        | succ m =>
          have hsame := hinside m (Nat.le_of_succ_le_succ hm)
          rw [List.take_succ_cons, records_cons, List.length_append, hlen]
          omega
    · refine ⟨0, Nat.zero_le _, ⟨[], ?_⟩, ?_⟩
      · rw [records_cons, List.append_assoc, List.take_append_of_le_length (by omega)]
        exact nextEntry_torn hentry (by omega)
      · intro m _
        cases m with
        | zero => simp [records]
        | succ =>
          rw [List.take_succ_cons, records_cons, List.length_append, hlen]
          omega

/-- What `write_entry` does with an entry: it refuses it, or appends its record and counts it. -/
theorem writeEntry_cases (writer : RecordingWriter) (entry : RecordEntry) :
    (∃ report, writer.writeEntry entry = .error report) ∨
      entry.Accepted ∧ writer.writeEntry entry =
        .ok { written := writer.written ++ entry.record,
              totalMessages := writer.totalMessages + 1,
              totalBytes := writer.totalBytes + entry.record.length } := by
  unfold RecordingWriter.writeEntry
  dsimp only
  by_cases hsize : entry.encodedLen > MAX_RECORD_BYTES
  · exact Or.inl ⟨_, if_pos hsize⟩
  rw [if_neg hsize]
  by_cases hu32 : entry.encodedLen > 4294967295
  · exact Or.inl ⟨_, if_pos hu32⟩
  rw [if_neg hu32]
  by_cases hnode : (asBytes entry.nodeId).length > 65535
  · exact Or.inl ⟨_, if_pos hnode⟩
  rw [if_neg hnode]
  by_cases houtput : (asBytes entry.outputId).length > 65535
  · exact Or.inl ⟨_, if_pos houtput⟩
  rw [if_neg houtput]
  refine Or.inr ⟨⟨by omega, by omega, by omega⟩, ?_⟩
  rw [entry.length_record, Nat.add_comm 4]
  rfl

theorem step_cases (writer : RecordingWriter) (call : RecordingWriter.WriteCall) :
    writer.step call = (writer, none) ∨
      ∃ entry, entry.Accepted ∧ writer.step call =
        ({ written := writer.written ++ entry.record,
           totalMessages := writer.totalMessages + 1,
           totalBytes := writer.totalBytes + entry.record.length }, some entry) := by
  cases call with
  | entry entry =>
    unfold RecordingWriter.step
    cases writeEntry_cases writer entry with
    | inl hrefused =>
      obtain ⟨report, hreport⟩ := hrefused
      exact Or.inl (by simp only [hreport])
    | inr hwritten => exact Or.inr ⟨entry, hwritten.1, by simp only [hwritten.2]⟩
  | entrySkipOversized entry =>
    unfold RecordingWriter.step RecordingWriter.writeEntrySkipOversized
    by_cases hsize : entry.encodedLen > MAX_RECORD_BYTES
    · exact Or.inl (by simp only [hsize, if_true])
    · cases writeEntry_cases writer entry with
      | inl hrefused =>
        obtain ⟨report, hreport⟩ := hrefused
        exact Or.inl (by simp only [hsize, if_false, hreport, Except.map])
      | inr hwritten =>
        exact Or.inr ⟨entry, hwritten.1, by simp only [hsize, if_false, hwritten.2, Except.map]⟩

def accepted (outcomes : List (Option RecordEntry)) : List RecordEntry := outcomes.reduceOption

/-- After a run of calls the file holds the records of the accepted entries after what it held, and
the totals count them. -/
structure Holds (start : RecordingWriter) (entries : List RecordEntry) (writer : RecordingWriter) :
    Prop where
  written : writer.written = start.written ++ records entries
  accepted : ∀ entry ∈ entries, entry.Accepted
  totalMessages : writer.totalMessages = start.totalMessages + entries.length
  totalBytes : writer.totalBytes = start.totalBytes + (records entries).length

theorem run_holds (start : RecordingWriter) (calls : List RecordingWriter.WriteCall) :
    Holds start (accepted (run RecordingWriter.step start calls).2)
      (run RecordingWriter.step start calls).1 := by
  apply run_induction RecordingWriter.step
    (P := fun _ outcomes writer => Holds start (accepted outcomes) writer)
  · exact ⟨by simp [accepted, records], by simp [accepted], rfl, rfl⟩
  · intro _ outcomes writer call _ hholds
    cases step_cases writer call with
    | inl hsame =>
      rw [hsame, accepted, List.reduceOption_append]
      change Holds start (accepted outcomes ++ []) writer
      rw [List.append_nil]
      exact hholds
    | inr hwrote =>
      obtain ⟨entry, hentry, hstep⟩ := hwrote
      have hrecords : records (accepted outcomes ++ [entry]) =
          records (accepted outcomes) ++ entry.record := by
        simp [records]
      rw [hstep, accepted, List.reduceOption_append]
      change Holds start (accepted outcomes ++ [entry]) _
      refine ⟨?_, ?_, ?_, ?_⟩
      · rw [hrecords, hholds.written, List.append_assoc]
      · intro other hother
        cases List.mem_append.mp hother with
        | inl hold => exact hholds.accepted other hold
        | inr hnew => exact List.mem_singleton.mp hnew ▸ hentry
      · rw [hholds.totalMessages, List.length_append]
        rfl
      · rw [hrecords, hholds.totalBytes, List.length_append, Nat.add_assoc]

/-- Reading back what a recorder wrote, whole or cut off anywhere after the header: the header, the
entries whose records are complete, in order, and then `None`. The footer counts the accepted entries
and their bytes. -/
theorem recording_round_trip (header : RecordingHeader) (writer : RecordingWriter)
    (calls : List RecordingWriter.WriteCall) (hversion : header.version = FORMAT_VERSION)
    (hnew : RecordingWriter.new header = .ok writer) :
    let entries := accepted (run RecordingWriter.step writer calls).2
    let file := (run RecordingWriter.step writer calls).1.finish.1
    let footer := (run RecordingWriter.step writer calls).1.finish.2
    (∃ body, readHeader file = .ok (header, body) ∧ Yields body entries) ∧
    (∀ k, writer.written.length ≤ k → ∃ body n, readHeader (file.take k) = .ok (header, body) ∧
      n ≤ entries.length ∧ Yields body (entries.take n) ∧
      ∀ m ≤ entries.length,
        m ≤ n ↔ writer.written.length + (records (entries.take m)).length ≤ k) ∧
    footer.totalMessages = entries.length ∧
    footer.totalBytes = (entries.map fun entry => 4 + entry.encodedLen).sum := by
  intro entries file footer
  obtain ⟨written, hwrite, hwriter⟩ : ∃ written, writeHeader header = .ok written ∧
      writer = { written } := by
    unfold RecordingWriter.new at hnew
    cases hwrite : writeHeader header with
    | error => simp [hwrite, bind, Except.bind] at hnew
    | ok written =>
      simp only [hwrite, bind, Except.bind, pure, Except.pure, Except.ok.injEq] at hnew
      exact ⟨written, rfl, hnew.symm⟩
  have hheld : writer.written = written := by rw [hwriter]
  have hnoMessages : writer.totalMessages = 0 := by rw [hwriter]
  have hnoBytes : writer.totalBytes = 0 := by rw [hwriter]
  have hholds := run_holds writer calls
  let totals := leBytes 8 (run RecordingWriter.step writer calls).1.totalMessages ++
    leBytes 8 (run RecordingWriter.step writer calls).1.totalBytes
  have hfile : file = written ++ (records entries ++ (FOOTER_MAGIC ++ totals)) := by
    change (run RecordingWriter.step writer calls).1.written ++ _ = _
    rw [hholds.written, hheld, List.append_assoc]
  have hcut : ∀ k, writer.written.length ≤ k → ∃ body n,
      readHeader (file.take k) = .ok (header, body) ∧ n ≤ entries.length ∧
      Yields body (entries.take n) ∧ ∀ m ≤ entries.length,
        m ≤ n ↔ writer.written.length + (records (entries.take m)).length ≤ k := by
    intro k hk
    rw [hheld] at hk ⊢
    obtain ⟨n, hn, hyields, hinside⟩ :=
      yields_take entries hholds.accepted totals (k - written.length)
    refine ⟨_, n, ?_, hn, hyields, ?_⟩
    · rw [hfile, List.take_append, List.take_of_length_le hk]
      exact readHeader_writeHeader _ hversion hwrite
    · intro m hm
      rw [hinside m hm]
      omega
  refine ⟨?_, hcut, ?_, ?_⟩
  · -- the whole file is the cut after its last byte
    obtain ⟨body, n, hread, hn, hyields, hinside⟩ := hcut file.length (by
      rw [hfile, hheld, List.length_append]
      omega)
    rw [List.take_length] at hread
    have hall : entries.length ≤ n := by
      rw [hinside entries.length (Nat.le_refl _), List.take_length, hfile, hheld]
      simp only [List.length_append]
      omega
    rw [List.take_of_length_le hall] at hyields
    exact ⟨body, hread, hyields⟩
  · change (run RecordingWriter.step writer calls).1.totalMessages = _
    rw [hholds.totalMessages, hnoMessages, Nat.zero_add]
  · change (run RecordingWriter.step writer calls).1.totalBytes = _
    rw [hholds.totalBytes, hnoBytes, Nat.zero_add, records, List.length_flatMap]
    simp only [RecordEntry.length_record, entries]

def sampleHeader (version : UInt16) : RecordingHeader :=
  { version, startNanos := 1000000000, dataflowId := ⟨List.replicate 16 0, rfl⟩,
    descriptorYaml := [] }

def sampleWriter (version : UInt16) : RecordingWriter :=
  { written := MAGIC ++ (leBytes 2 version.toNat ++ (leBytes 8 1000000000 ++
      (List.replicate 16 0 ++ (leBytes 4 0 ++ [])))) }

def sampleCalls : List RecordingWriter.WriteCall := [.entry ⟨"cam", "frame", 42, [1, 2, 3]⟩]

theorem recording_round_trip_sample :
    ∃ body, readHeader (run RecordingWriter.step (sampleWriter 2) sampleCalls).1.finish.1 =
        .ok (sampleHeader 2, body) ∧
      Yields body (accepted (run RecordingWriter.step (sampleWriter 2) sampleCalls).2) :=
  (recording_round_trip (sampleHeader 2) (sampleWriter 2) sampleCalls rfl rfl).1

/-- The writer stamps any version it is given; a file of an older version is refused when it is read
back. -/
theorem old_version_not_read_back :
    ¬ ∀ (header : RecordingHeader) (writer : RecordingWriter)
        (calls : List RecordingWriter.WriteCall), RecordingWriter.new header = .ok writer →
      ∃ body, readHeader (run RecordingWriter.step writer calls).1.finish.1 =
          .ok (header, body) ∧
        Yields body (accepted (run RecordingWriter.step writer calls).2) := by
  intro h
  obtain ⟨body, hread, -⟩ := h (sampleHeader 1) (sampleWriter 1) [] rfl
  have hrefused : (readHeader (sampleWriter 1).finish.1).isOk = false := by decide
  rw [show readHeader (sampleWriter 1).finish.1 = .ok (sampleHeader 1, body) from hread] at hrefused
  cases hrefused

end Dora.Recording
