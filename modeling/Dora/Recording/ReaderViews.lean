import Dora.Lib.Fallible
import Dora.Recording.RoundTrip

/-!
# The three views of a recording's reader

`next_entry`, `next_entry_header` and `next_entry_for_node` share the framing of the records and their
parser, and differ in what they keep. On any bytes, damaged ones included, the three return the same
entries as far as each keeps them, and stop at the same place for the same reason.
-/

namespace Dora.Recording

open Lib

structure RecordEntryHeader where
  nodeId : String
  outputId : String
  timestampOffsetNanos : UInt64
deriving DecidableEq

def RecordEntry.header (entry : RecordEntry) : RecordEntryHeader where
  nodeId := entry.nodeId
  outputId := entry.outputId
  timestampOffsetNanos := entry.timestampOffsetNanos

def nextEntryHeader (input : Bytes) : Except String (Option RecordEntryHeader × Bytes) :=
  match readNextRecord input with
  | .error report => .error report
  | .ok (none, input) => .ok (none, input)
  | .ok (some recordBuf, input) => (parseRecord recordBuf).map fun entry => (some entry.header, input)

/-- The size of the buffer that `read_next_record` allocates for the record. -/
def recordAlloc (input : Bytes) : Option Nat :=
  match readExact 4 input with
  | none => none
  | some (lenBuf, _) =>
    if lenBuf = FOOTER_MAGIC.take 4 then none
    else if ofLeBytes lenBuf > MAX_RECORD_BYTES then none
    else some (ofLeBytes lenBuf)

/-- `lenBuf` is the length prefix of the record `recordBuf`. -/
structure Announces (lenBuf recordBuf : Bytes) : Prop where
  width : lenBuf.length = 4
  notFooter : lenBuf ≠ FOOTER_MAGIC.take 4
  announced : ofLeBytes lenBuf = recordBuf.length
  bounded : recordBuf.length ≤ MAX_RECORD_BYTES

theorem readExact_eq_some_iff {n : Nat} {input bytes rest : Bytes} :
    readExact n input = some (bytes, rest) ↔ bytes.length = n ∧ input = bytes ++ rest := by
  constructor
  · intro h
    unfold readExact at h
    split at h
    next hle =>
      cases h
      exact ⟨List.length_take_of_le hle, (List.take_append_drop n input).symm⟩
    next => cases h
  · rintro ⟨hlen, rfl⟩
    exact readExact_append rest hlen

theorem readNextRecord_eq_some_iff {input recordBuf rest : Bytes} :
    readNextRecord input = .ok (some recordBuf, rest) ↔
      ∃ lenBuf, Announces lenBuf recordBuf ∧ input = lenBuf ++ (recordBuf ++ rest) := by
  constructor
  · intro h
    unfold readNextRecord at h
    split at h
    next => cases h
    next lenBuf after hlen =>
      obtain ⟨hwidth, rfl⟩ := readExact_eq_some_iff.mp hlen
      split at h
      next => cases h
      next hfooter =>
        dsimp only at h
        split at h
        next => cases h
        next hmax =>
          split at h
          next buf rest' hbuf =>
            cases h
            obtain ⟨hlength, rfl⟩ := readExact_eq_some_iff.mp hbuf
            exact ⟨lenBuf, ⟨hwidth, hfooter, hlength.symm, by omega⟩, rfl⟩
          next => cases h
  · rintro ⟨lenBuf, hannounces, rfl⟩
    have hmax := hannounces.bounded
    unfold readNextRecord
    rw [readExact_append _ hannounces.width]
    dsimp only
    rw [if_neg hannounces.notFooter, hannounces.announced, if_neg (Nat.not_lt.mpr hmax),
      readExact_append _ rfl]

theorem length_lt_of_readNextRecord {input recordBuf rest : Bytes}
    (h : readNextRecord input = .ok (some recordBuf, rest)) : rest.length < input.length := by
  obtain ⟨lenBuf, hannounces, rfl⟩ := readNextRecord_eq_some_iff.mp h
  have hwidth := hannounces.width
  simp only [List.length_append]
  omega

theorem recordAlloc_le {input : Bytes} {n : Nat} (h : recordAlloc input = some n) :
    n ≤ MAX_RECORD_BYTES := by
  unfold recordAlloc at h
  split at h
  next => cases h
  next =>
    split at h
    next => cases h
    next =>
      split at h
      next => cases h
      next hmax =>
        cases h
        omega

theorem recordAlloc_record {lenBuf recordBuf : Bytes} (h : Announces lenBuf recordBuf)
    (rest : Bytes) : recordAlloc (lenBuf ++ rest) = some recordBuf.length := by
  have hmax := h.bounded
  unfold recordAlloc
  rw [readExact_append _ h.width]
  dsimp only
  rw [if_neg h.notFooter, h.announced, if_neg (Nat.not_lt.mpr hmax)]

theorem readAt_ok {report : String} {pos len pos' : Nat} {buf bytes : Bytes}
    (h : readAt report buf pos len = .ok (bytes, pos')) :
    bytes.length = len ∧ buf.take pos' = buf.take pos ++ bytes := by
  unfold readAt at h
  split at h
  next => cases h
  next hle =>
    cases h
    refine ⟨?_, List.take_add⟩
    rw [List.length_take, List.length_drop]
    omega

theorem asBytes_of_fromUtf8 {bytes : Bytes} {report s : String}
    (h : fromUtf8 bytes report = .ok s) : asBytes s = bytes := by
  unfold fromUtf8 String.fromUTF8? at h
  split at h
  next s' hs =>
    cases h
    split at hs
    next hvalid =>
      cases hs
      exact congrArg Array.toList List.data_toByteArray
    next => cases hs
  next => cases h

theorem parseRecord_within {recordBuf : Bytes} {entry : RecordEntry}
    (h : parseRecord recordBuf = .ok entry) : entry.body <+: recordBuf := by
  unfold parseRecord at h
  simp only [bind_eq_ok, Prod.exists] at h
  obtain ⟨nodeIdLen, p₁, h₁, nodeIdBytes, p₂, h₂, nodeId, hnode, outputIdLen, p₃, h₃, outputIdBytes,
    p₄, h₄, outputId, houtput, timestamp, p₅, h₅, eventBytesLen, p₆, h₆, eventBytes, p₇, h₇, hentry⟩ := h
  obtain ⟨hlen₁, htake₁⟩ := readAt_ok h₁
  obtain ⟨hlen₂, htake₂⟩ := readAt_ok h₂
  obtain ⟨hlen₃, htake₃⟩ := readAt_ok h₃
  obtain ⟨hlen₄, htake₄⟩ := readAt_ok h₄
  obtain ⟨hlen₅, htake₅⟩ := readAt_ok h₅
  obtain ⟨hlen₆, htake₆⟩ := readAt_ok h₆
  obtain ⟨hlen₇, htake₇⟩ := readAt_ok h₇
  have hstamp : (UInt64.ofNat (ofLeBytes timestamp)).toNat = ofLeBytes timestamp := by
    have hlt := ofLeBytes_lt timestamp
    rw [hlen₅] at hlt
    exact UInt64.toNat_ofNat_of_lt' hlt
  cases hentry
  -- the fields, one after the other, are what the parser has passed over
  have hbody : recordBuf.take p₇ = nodeIdLen ++ (nodeIdBytes ++ (outputIdLen ++ (outputIdBytes ++
      (timestamp ++ (eventBytesLen ++ eventBytes))))) := by
    rw [htake₇, htake₆, htake₅, htake₄, htake₃, htake₂, htake₁]
    simp only [List.take_zero, List.nil_append, List.append_assoc]
  unfold RecordEntry.body
  dsimp only
  rw [asBytes_of_fromUtf8 hnode, asBytes_of_fromUtf8 houtput, hlen₂, hlen₄, hlen₇, hstamp,
    leBytes_ofLeBytes hlen₁, leBytes_ofLeBytes hlen₃, leBytes_ofLeBytes hlen₅, leBytes_ofLeBytes hlen₆,
    ← hbody]
  exact List.take_prefix _ _

/-- Entries of other nodes are parsed and skipped. -/
def nextEntryForNode (node : String) (input : Bytes) : Except String (Option RecordEntry × Bytes) :=
  match _hread : readNextRecord input with
  | .error report => .error report
  | .ok (none, rest) => .ok (none, rest)
  | .ok (some recordBuf, rest) =>
    match parseRecord recordBuf with
    | .error report => .error report
    | .ok entry =>
      if entry.nodeId ≠ node then nextEntryForNode node rest else .ok (some entry, rest)
termination_by input.length
decreasing_by exact length_lt_of_readNextRecord _hread

/-- `Results next input results ending`: calls of `next` return `results` one by one, and then `None` or
an error. -/
inductive Results {α : Type} (next : Bytes → Except String (Option α × Bytes)) :
    Bytes → List α → Except String Unit → Prop where
  | eof {input} (rest : Bytes) (hnext : next input = .ok (none, rest)) : Results next input [] (.ok ())
  | error {input report} (hnext : next input = .error report) : Results next input [] (.error report)
  | entry {input rest result results ending} (hnext : next input = .ok (some result, rest))
      (hrest : Results next rest results ending) : Results next input (result :: results) ending

theorem Results.unique {α : Type} {next : Bytes → Except String (Option α × Bytes)} {input : Bytes}
    {results results' : List α} {ending ending' : Except String Unit}
    (h : Results next input results ending) (h' : Results next input results' ending') :
    results' = results ∧ ending' = ending := by
  induction h generalizing results' ending' with
  | eof => cases h' <;> simp_all
  | error => cases h' <;> simp_all
  | entry hnext hrest ih =>
    cases h' with
    | eof rest hnext' | error hnext' => simp [hnext] at hnext'
    | entry hnext' hrest' =>
      rw [hnext] at hnext'
      cases hnext'
      obtain ⟨hresults, hending⟩ := ih hrest'
      exact ⟨by rw [hresults], hending⟩

inductive Scan (input : Bytes) : Prop where
  | eof (rest : Bytes) (hread : readNextRecord input = .ok (none, rest))
  | unread (report : String) (hread : readNextRecord input = .error report)
  | unparsed (recordBuf rest : Bytes) (report : String)
      (hread : readNextRecord input = .ok (some recordBuf, rest))
      (hparse : parseRecord recordBuf = .error report)
  | entry (recordBuf rest : Bytes) (entry : RecordEntry)
      (hread : readNextRecord input = .ok (some recordBuf, rest))
      (hparse : parseRecord recordBuf = .ok entry)

theorem scan (input : Bytes) : Scan input := by
  cases hread : readNextRecord input with
  | error report => exact .unread report hread
  | ok read =>
    obtain ⟨_ | recordBuf, rest⟩ := read
    · exact .eof rest hread
    · cases hparse : parseRecord recordBuf with
      | error report => exact .unparsed recordBuf rest report hread hparse
      | ok entry => exact .entry recordBuf rest entry hread hparse

/-- The bytes of `input` seen by the three views. -/
structure ViewsAgree (input : Bytes) (entries : List RecordEntry) (ending : Except String Unit) :
    Prop where
  full : Results nextEntry input entries ending
  header : Results nextEntryHeader input (entries.map RecordEntry.header) ending
  forNode : ∀ node, Results (nextEntryForNode node) input (entries.filter (·.nodeId = node)) ending

/-- An entry of another node does not show in the view of `node`. -/
theorem Results.skip {node : String} {input recordBuf rest : Bytes} {entry : RecordEntry}
    {entries : List RecordEntry} {ending : Except String Unit}
    (hread : readNextRecord input = .ok (some recordBuf, rest)) (hparse : parseRecord recordBuf = .ok entry)
    (hnode : entry.nodeId ≠ node) (h : Results (nextEntryForNode node) rest entries ending) :
    Results (nextEntryForNode node) input entries ending := by
  have hskip : nextEntryForNode node input = nextEntryForNode node rest := by
    rw [nextEntryForNode]
    split <;> simp_all
  cases h with
  | eof rest hnext => exact .eof rest (hskip.trans hnext)
  | error hnext => exact .error (hskip.trans hnext)
  | entry hnext hrest => exact .entry (hskip.trans hnext) hrest

theorem viewsAgree_scan (input : Bytes) : ∃ entries ending, ViewsAgree input entries ending := by
  -- every entry shortens what is left to read
  induction hlen : input.length using Nat.strongRecOn generalizing input with
  | ind n ih =>
    subst hlen
    cases scan input with
    | eof rest hread =>
      refine ⟨[], .ok (), .eof rest ?_, .eof rest ?_, fun node => .eof rest ?_⟩
      · simp only [nextEntry, hread]
        rfl
      · simp only [nextEntryHeader, hread]
      · rw [nextEntryForNode]
        split <;> simp_all
    | unread report hread =>
      refine ⟨[], .error report, .error ?_, .error ?_, fun node => .error ?_⟩
      · simp only [nextEntry, hread]
        rfl
      · simp only [nextEntryHeader, hread]
      · rw [nextEntryForNode]
        split <;> simp_all
    | unparsed recordBuf rest report hread hparse =>
      refine ⟨[], .error report, .error ?_, .error ?_, fun node => .error ?_⟩
      · simp [nextEntry, hread, hparse, bind, Except.bind]
      · simp only [nextEntryHeader, hread, hparse]
        rfl
      · rw [nextEntryForNode]
        split <;> simp_all
    | entry recordBuf rest entry hread hparse =>
      obtain ⟨entries, ending, hfull, hheader, hforNode⟩ :=
        ih rest.length (length_lt_of_readNextRecord hread) rest rfl
      refine ⟨entry :: entries, ending, .entry ?_ hfull, .entry ?_ hheader, fun node => ?_⟩
      · simp [nextEntry, hread, hparse, bind, Except.bind, pure, Except.pure]
      · simp only [nextEntryHeader, hread, hparse]
        rfl
      · by_cases hnode : entry.nodeId = node
        · rw [List.filter_cons_of_pos (by simpa using hnode)]
          refine .entry ?_ (hforNode node)
          rw [nextEntryForNode]
          split <;> simp_all
        · rw [List.filter_cons_of_neg (by simpa using hnode)]
          exact (hforNode node).skip hread hparse hnode

/-- The views of the bytes after a header agree; each record is read from the bytes that its prefix
announces and from no others, and no buffer is allocated beyond the limit. -/
theorem reader_views_agree (input : Bytes) :
    (∃ entries ending,
      (∀ results ending', Results nextEntry input results ending' ↔
        results = entries ∧ ending' = ending) ∧
      (∀ results ending', Results nextEntryHeader input results ending' ↔
        results = entries.map RecordEntry.header ∧ ending' = ending) ∧
      ∀ node results ending', Results (nextEntryForNode node) input results ending' ↔
        results = entries.filter (·.nodeId = node) ∧ ending' = ending) ∧
    (∀ recordBuf rest, readNextRecord input = .ok (some recordBuf, rest) →
      ∃ lenBuf, Announces lenBuf recordBuf ∧ recordAlloc input = some recordBuf.length ∧
        input = lenBuf ++ (recordBuf ++ rest) ∧
        (∀ rest', readNextRecord (lenBuf ++ (recordBuf ++ rest')) = .ok (some recordBuf, rest')) ∧
        ∀ entry, parseRecord recordBuf = .ok entry → entry.body <+: recordBuf) ∧
    ∀ n, recordAlloc input = some n → n ≤ MAX_RECORD_BYTES := by
  have honly : ∀ {α : Type} {next : Bytes → Except String (Option α × Bytes)} {results : List α}
      {ending : Except String Unit}, Results next input results ending → ∀ results' ending',
      Results next input results' ending' ↔ results' = results ∧ ending' = ending := by
    intro α next results ending h results' ending'
    constructor
    · exact h.unique
    · rintro ⟨rfl, rfl⟩
      exact h
  refine ⟨?_, ?_, fun n => recordAlloc_le⟩
  · obtain ⟨entries, ending, hfull, hheader, hforNode⟩ := viewsAgree_scan input
    exact ⟨entries, ending, honly hfull, honly hheader, fun node => honly (hforNode node)⟩
  · intro recordBuf rest hread
    obtain ⟨lenBuf, hannounces, rfl⟩ := readNextRecord_eq_some_iff.mp hread
    refine ⟨lenBuf, hannounces, recordAlloc_record hannounces _, rfl, fun rest' => ?_, fun entry =>
      parseRecord_within⟩
    exact readNextRecord_eq_some_iff.mpr ⟨lenBuf, hannounces, rfl⟩

end Dora.Recording
