import Dora.Store.Backends

/-!
# The backends are interchangeable

The joined keys of redb determine their parts, and keep the parameters of one node together in the order
of their names, so both backends hold the same rows and list them alike. They differ where a key with a
null character is looked up or deleted: redb rejects it, the memory has no such row.
-/

namespace Dora.Store

open Std Lib

variable {Uuid Record : Type} {codec : RecordCodec Uuid Record} {text : UuidText Uuid}
variable {u u' : Uuid} {node node' : ValidNode} {key key' : String}

theorem ValidNode.plain (node : ValidNode) : '\x00' ∉ node.1.name.toList :=
  fun hmem => absurd (char_of_validateNodeId node.2 hmem) (by decide)

theorem checkNoSeparator_node (node : ValidNode) (label : String) :
    checkNoSeparator node.1.name label = .ok () :=
  if_neg node.plain

theorem makeParamKey_of_plain (u : Uuid) (node : ValidNode) (hkey : '\x00' ∉ key.toList) :
    makeParamKey text u node key = .ok (nodeStart text u node ++ key) := by
  rw [makeParamKey, checkNoSeparator_node, checkNoSeparator, if_neg hkey]
  rfl

theorem toList_joined (u : Uuid) (node : NodeId) (key : String) :
    (nodeStart text u node ++ key).toList =
      (text.display u).toList ++ '\x00' :: (node.name.toList ++ '\x00' :: key.toList) := by
  simp [nodeStart, dataflowStart]

theorem joined_inj (h : nodeStart text u node ++ key = nodeStart text u' node' ++ key') :
    u = u' ∧ node = node' ∧ key = key' := by
  have hlist := congrArg String.toList h
  rw [toList_joined, toList_joined] at hlist
  obtain ⟨hu, hrest⟩ := append_sep_inj (text.plain u) (text.plain u') hlist
  obtain ⟨hnode, hkey⟩ := append_sep_inj node.plain node'.plain hrest
  exact ⟨text.injective (String.toList_injective hu),
    Subtype.ext (NodeId.name_injective (String.toList_injective hnode)), String.toList_injective hkey⟩

theorem startsWith_dataflow :
    startsWith (nodeStart text u node ++ key) (dataflowStart text u') = true ↔ u' = u := by
  rw [startsWith_iff, toList_joined]
  constructor
  · rintro ⟨rest, hrest⟩
    rw [dataflowStart, String.toList_append, List.append_assoc] at hrest
    exact text.injective (String.toList_injective
      (append_sep_inj (text.plain u') (text.plain u) hrest).1)
  · rintro rfl
    exact ⟨node.1.name.toList ++ '\x00' :: key.toList, by simp [dataflowStart]⟩

theorem decodeRecord_encode {record : Record} (hsmall : (codec.encode record).length ≤ maxRecordBytes) :
    decodeRecord codec (codec.encode record) = .ok record := by
  rw [decodeRecord, if_neg (Nat.not_lt.mpr hsmall), codec.round_trip]

section Redb

variable [Ord Uuid] {db : RedbStore Uuid}

def strip (start : String) (entry : String × Bytes) : String × Bytes :=
  (String.ofList (entry.1.toList.drop start.length), entry.2)

theorem scanParams_eq (start : String) (entries : List (String × Bytes)) :
    scanParams start entries =
      (entries.takeWhile fun entry => startsWith entry.1 start).map (strip start) := by
  induction entries with
  | nil => rfl
  | cons entry rest ih =>
    cases hstart : startsWith entry.1 start with
    | true =>
      simp only [List.takeWhile_cons, hstart, if_true, List.map_cons, ← ih]
      simp only [scanParams, stripStart, hstart, if_true]
      rfl
    | false => simp [scanParams, stripStart, hstart]

theorem strip_append (start : String) {entry : String × Bytes} (h : startsWith entry.1 start = true) :
    start ++ (strip start entry).1 = entry.1 := by
  obtain ⟨rest, hrest⟩ := startsWith_iff.mp h
  apply String.toList_injective
  rw [String.toList_append, strip, String.toList_ofList, ← hrest, ← String.length_toList, List.drop_left]

theorem listNodeParams_redb (start : String) : db.listNodeParams start =
    (db.nodeParams.toList.filter fun entry => startsWith entry.1 start).map (strip start) := by
  rw [RedbStore.listNodeParams, scanParams_eq, range_eq_filter]
  · exact fun a ha => not_lt_of_startsWith ha
  · exact fun a b hab hbelow => startsWith_of_between hbelow hab

theorem mem_listNodeParams_redb {start : String} {entry : String × Bytes} :
    entry ∈ db.listNodeParams start ↔ db.nodeParams[start ++ entry.1]? = some entry.2 := by
  rw [listNodeParams_redb, ← TreeMap.mem_toList_iff_getElem?_eq_some]
  constructor
  · intro hmem
    obtain ⟨joined, hin, rfl⟩ := List.mem_map.mp hmem
    obtain ⟨hlisted, hstart⟩ := List.mem_filter.mp hin
    rw [strip_append start hstart]
    exact hlisted
  · intro hmem
    have hstart : startsWith (start ++ entry.1) start = true := by simp [startsWith_iff]
    refine List.mem_map.mpr ⟨_, List.mem_filter.mpr ⟨hmem, hstart⟩, ?_⟩
    simp only [strip, String.toList_append, ← String.length_toList, List.drop_left, String.ofList_toList]

theorem ordered_listNodeParams_redb {start : String} :
    (db.listNodeParams start).Pairwise fun a b => compare a.1 b.1 = .lt := by
  rw [listNodeParams_redb, List.pairwise_map]
  refine (db.nodeParams.ordered_keys_toList.filter _).imp_of_mem fun ha hb hab => ?_
  rw [← strip_append start (List.mem_filter.mp ha).2, ← strip_append start (List.mem_filter.mp hb).2]
    at hab
  exact compare_append_left_lt.mp hab

end Redb

theorem compare_triple [Ord Uuid] (u u' : Uuid) (n n' : NodeId) (k k' : String) :
    compare (u, n, k) (u', n', k') = ((compare u u').then ((compare n n').then (compare k k'))) := rfl

variable [Ord Uuid] [TransOrd Uuid] [LawfulEqOrd Uuid]
variable {mem : InMemoryStore Uuid Record} {db : RedbStore Uuid}

theorem compare_joined : compare (nodeStart text u node ++ key) (nodeStart text u' node' ++ key') = .eq ↔
    compare (u, node.1, key) (u', node'.1, key') = .eq := by
  rw [Std.compare_eq_iff_eq, Std.compare_eq_iff_eq, Prod.mk.injEq, Prod.mk.injEq, ← Subtype.ext_iff]
  constructor
  · exact joined_inj
  · rintro ⟨rfl, rfl, rfl⟩
    rfl

structure Same (codec : RecordCodec Uuid Record) (text : UuidText Uuid) (mem : InMemoryStore Uuid Record)
    (db : RedbStore Uuid) : Prop where
  dataflows : ∀ u : Uuid, db.dataflows[u]? = mem.dataflows[u]?.map codec.encode
  small : ∀ (u : Uuid) record, mem.dataflows[u]? = some record →
    (codec.encode record).length ≤ maxRecordBytes
  params : ∀ (u : Uuid) (node : ValidNode) (key : String), '\x00' ∉ key.toList →
    db.nodeParams[nodeStart text u node ++ key]? = mem.params[(u, node.1, key)]?
  joined : ∀ k ∈ db.nodeParams, ∃ u, ∃ node : ValidNode, ∃ key : String,
    '\x00' ∉ key.toList ∧ k = nodeStart text u node ++ key
  plain : ∀ k ∈ mem.params, '\x00' ∉ k.2.2.toList

theorem listNodeParams_memory [DecidableEq Uuid] : mem.listNodeParams u node =
    (mem.params.toList.filter fun entry => decide (entry.1.1 = u ∧ entry.1.2.1 = node.1)).map
      fun entry => (entry.1.2.2, entry.2) := by
  rw [InMemoryStore.listNodeParams, range_eq_filter]
  · rintro ⟨⟨u', n', k⟩, value⟩ hgroup
    obtain ⟨rfl, rfl⟩ := of_decide_eq_true hgroup
    simp only [compare_triple, ReflOrd.compare_self, Ordering.then]
    rw [Ne, compare_eq_lt_iff]
    exact List.not_lt_nil _
  · rintro ⟨⟨ua, na, ka⟩, va⟩ ⟨⟨ub, nb, kb⟩, vb⟩ hab hbelow hgroup
    obtain ⟨rfl, rfl⟩ := of_decide_eq_true hgroup
    simp only [compare_triple] at hab hbelow
    -- an entry below the group's would be below its first key already
    cases hu : compare ua ub with
    | lt => simp [hu] at hbelow
    | gt => simp [hu] at hab
    | eq =>
      cases hn : compare na node.1 with
      | lt => simp [hu, hn] at hbelow
      | gt => simp [hu, hn] at hab
      | eq => simp [Std.compare_eq_iff_eq.mp hu, Std.compare_eq_iff_eq.mp hn]

theorem mem_listNodeParams_memory [DecidableEq Uuid] {entry : String × Bytes} :
    entry ∈ mem.listNodeParams u node ↔ mem.params[(u, node.1, entry.1)]? = some entry.2 := by
  rw [listNodeParams_memory, ← TreeMap.mem_toList_iff_getElem?_eq_some]
  constructor
  · intro hmem
    obtain ⟨⟨⟨u', n', k⟩, value⟩, hin, rfl⟩ := List.mem_map.mp hmem
    obtain ⟨hlisted, hgroup⟩ := List.mem_filter.mp hin
    obtain ⟨rfl, rfl⟩ := of_decide_eq_true hgroup
    exact hlisted
  · intro hmem
    exact List.mem_map.mpr ⟨_, List.mem_filter.mpr ⟨hmem, decide_eq_true ⟨rfl, rfl⟩⟩, rfl⟩

theorem ordered_listNodeParams_memory [DecidableEq Uuid] :
    (mem.listNodeParams u node).Pairwise fun a b => compare a.1 b.1 = .lt := by
  rw [listNodeParams_memory, List.pairwise_map]
  refine (mem.params.ordered_keys_toList.filter _).imp_of_mem ?_
  rintro ⟨⟨ua, na, ka⟩, va⟩ ⟨⟨ub, nb, kb⟩, vb⟩ ha hb hab
  obtain ⟨rfl, rfl⟩ := of_decide_eq_true (List.mem_filter.mp ha).2
  obtain ⟨rfl, rfl⟩ := of_decide_eq_true (List.mem_filter.mp hb).2
  simpa [compare_triple, ReflOrd.compare_self] using hab

theorem Same.listNodeParams [DecidableEq Uuid] (h : Same codec text mem db) (u : Uuid) (node : ValidNode) :
    db.listNodeParams (nodeStart text u node) = mem.listNodeParams u node := by
  refine eq_of_ordered ordered_listNodeParams_redb ordered_listNodeParams_memory fun entry => ?_
  rw [mem_listNodeParams_redb, mem_listNodeParams_memory]
  by_cases hkey : '\x00' ∈ entry.1.toList
  · constructor
    · intro hsome
      obtain ⟨u', node', key', hplain, heq⟩ :=
        h.joined _ (TreeMap.mem_iff_isSome_getElem?.mpr (by rw [hsome]; rfl))
      obtain ⟨-, -, rfl⟩ := joined_inj heq
      exact absurd hkey hplain
    · intro hsome
      exact absurd hkey (h.plain _ (TreeMap.mem_iff_isSome_getElem?.mpr (by rw [hsome]; rfl)))
  · rw [h.params u node entry.1 hkey]

theorem Same.toList_dataflows (h : Same codec text mem db) :
    db.dataflows.toList = mem.dataflows.toList.map (Prod.map id codec.encode) := by
  refine eq_of_ordered db.dataflows.ordered_keys_toList
    (List.pairwise_map.mpr mem.dataflows.ordered_keys_toList) fun entry => ?_
  rw [TreeMap.mem_toList_iff_getElem?_eq_some, h.dataflows, Option.map_eq_some_iff, List.mem_map]
  constructor
  · rintro ⟨record, hrecord, heq⟩
    exact ⟨(entry.1, record), TreeMap.mem_toList_iff_getElem?_eq_some.mpr hrecord, Prod.ext rfl heq⟩
  · rintro ⟨⟨u, record⟩, hmem, rfl⟩
    exact ⟨record, TreeMap.mem_toList_iff_getElem?_eq_some.mp hmem, rfl⟩

theorem Same.listDataflows (h : Same codec text mem db) :
    (db.dataflows.toList.filterMap fun entry => (decodeRecord codec entry.2).toOption) =
      mem.dataflows.toList.map Prod.snd := by
  rw [h.toList_dataflows, List.filterMap_map, ← List.filterMap_eq_map]
  refine List.filterMap_congr fun entry hmem => ?_
  have hsmall := h.small _ _ (TreeMap.mem_toList_iff_getElem?_eq_some.mp hmem)
  simp only [Function.comp_apply, Prod.map_snd, decodeRecord_encode hsmall, Except.toOption]

theorem Same.deleteDataflow [DecidableEq Uuid] (h : Same codec text mem db) (uuid : Uuid) :
    Same codec text (mem.deleteDataflow uuid) (db.deleteDataflow text uuid) where
  dataflows u := by
    simp only [InMemoryStore.deleteDataflow, RedbStore.deleteDataflow, TreeMap.getElem?_erase]
    split
    · rfl
    · exact h.dataflows u
  small u record hrecord := by
    simp only [InMemoryStore.deleteDataflow, TreeMap.getElem?_erase] at hrecord
    split at hrecord
    · cases hrecord
    · exact h.small u record hrecord
  params u node key hkey := by
    simp only [InMemoryStore.deleteDataflow, RedbStore.deleteDataflow, TreeMap.getElem?_filter']
    rw [h.params u node key hkey]
    congr 1
    funext value
    have hiff : startsWith (nodeStart text u node ++ key) (dataflowStart text uuid) = true ↔ uuid = u :=
      startsWith_dataflow
    by_cases heq : uuid = u
    · have hstart := hiff.mpr heq
      rw [hstart, beq_false_of_ne (not_lt_of_startsWith hstart)]
      simp [heq]
    · simp [mt hiff.mp heq, Ne.symm heq]
  joined k hk := h.joined k (TreeMap.mem_of_mem_filter hk)
  plain k hk := h.plain k (TreeMap.mem_of_mem_filter hk)

omit [LawfulEqOrd Uuid] in
theorem Same.putDataflow (h : Same codec text mem db) (record : Storable codec) :
    Same codec text { mem with dataflows := mem.dataflows.insert (codec.uuid record) record.1 }
      { db with dataflows := db.dataflows.insert (codec.uuid record) (codec.encode record) } where
  dataflows u := by
    simp only [TreeMap.getElem?_insert]
    split
    · rfl
    · exact h.dataflows u
  small u stored hstored := by
    simp only [TreeMap.getElem?_insert] at hstored
    split at hstored
    · cases hstored
      exact record.2
    · exact h.small u stored hstored
  params := h.params
  joined := h.joined
  plain := h.plain

theorem Same.putParam (h : Same codec text mem db) (u : Uuid) (node : ValidNode)
    (hkey : '\x00' ∉ key.toList) (value : Bytes) :
    Same codec text { mem with params := mem.params.insert (u, node.1, key) value }
      { db with nodeParams := db.nodeParams.insert (nodeStart text u node ++ key) value } where
  dataflows := h.dataflows
  small := h.small
  params u' node' key' hkey' := by
    simp only [TreeMap.getElem?_insert, compare_joined, h.params u' node' key' hkey']
  joined k hk := by
    rcases TreeMap.mem_insert.mp hk with heq | hmem
    · exact ⟨u, node, key, hkey, (Std.compare_eq_iff_eq.mp heq).symm⟩
    · exact h.joined k hmem
  plain k hk := by
    rcases TreeMap.mem_insert.mp hk with heq | hmem
    · rw [← Std.compare_eq_iff_eq.mp heq]
      exact hkey
    · exact h.plain k hmem

theorem Same.deleteParam (h : Same codec text mem db) (u : Uuid) (node : ValidNode)
    (key : String) :
    Same codec text { mem with params := mem.params.erase (u, node.1, key) }
      { db with nodeParams := db.nodeParams.erase (nodeStart text u node ++ key) } where
  dataflows := h.dataflows
  small := h.small
  params u' node' key' hkey' := by
    simp only [TreeMap.getElem?_erase, compare_joined, h.params u' node' key' hkey']
  joined k hk := h.joined k (TreeMap.mem_of_mem_erase hk)
  plain k hk := h.plain k (TreeMap.mem_of_mem_erase hk)

def StoreCall.Plain : StoreCall codec → Prop
  | .getNodeParam _ _ key | .deleteNodeParam _ _ key => '\x00' ∉ key.toList
  | _ => True

instance (call : StoreCall codec) : Decidable call.Plain := by
  unfold StoreCall.Plain
  split <;> infer_instance

theorem plain_of_validateParamLimits {value : Bytes} (h : validateParamLimits key value = .ok ()) :
    '\x00' ∉ key.toList := by
  unfold validateParamLimits at h
  intro hmem
  repeat' split at h
  all_goals cases h

variable [DecidableEq Uuid]

theorem Same.call (h : Same codec text mem db) {call : StoreCall codec} (hcall : call.Plain) :
    (db.call text call).2.toOption = (mem.call call).2.toOption ∧
      Same codec text (mem.call call).1 (db.call text call).1 := by
  cases call with
  | putDataflow record =>
    have hencode : encodeRecord codec record = .ok (codec.encode record) :=
      if_neg (Nat.not_lt.mpr record.2)
    simp only [RedbStore.call, InMemoryStore.call, hencode, true_and]
    exact h.putDataflow record
  | getDataflow uuid =>
    simp only [RedbStore.call, InMemoryStore.call, h.dataflows]
    cases hrecord : mem.dataflows[uuid]? with
    | none => exact ⟨rfl, h⟩
    | some record =>
      simp only [Option.map_some, decodeRecord_encode (h.small uuid record hrecord)]
      exact ⟨rfl, h⟩
  | listDataflows =>
    simp only [RedbStore.call, InMemoryStore.call, h.listDataflows, true_and]
    exact h
  | deleteDataflow uuid => exact ⟨rfl, h.deleteDataflow uuid⟩
  | putNodeParam u node key value =>
    simp only [RedbStore.call, InMemoryStore.call, InMemoryStore.putNodeParam]
    cases hlimits : validateParamLimits key value with
    | error e => exact ⟨rfl, h⟩
    | ok =>
      have hkey := plain_of_validateParamLimits hlimits
      simp only [makeParamKey_of_plain u node hkey, true_and]
      exact h.putParam u node hkey value
  | getNodeParam u node key =>
    simp only [RedbStore.call, InMemoryStore.call, makeParamKey_of_plain u node hcall, Except.map,
      h.params u node key hcall, true_and]
    exact h
  | listNodeParams u node =>
    have hstart : makeParamStart text u node = .ok (nodeStart text u node) := by
      rw [makeParamStart, checkNoSeparator_node]
      rfl
    simp only [RedbStore.call, InMemoryStore.call, hstart, Except.map, h.listNodeParams, true_and]
    exact h
  | deleteNodeParam u node key =>
    simp only [RedbStore.call, InMemoryStore.call, makeParamKey_of_plain u node hcall, true_and]
    exact h.deleteParam u node key

omit [TransOrd Uuid] [LawfulEqOrd Uuid] in
theorem call_ne_of_not_plain (mem : InMemoryStore Uuid Record) (db : RedbStore Uuid)
    {call : StoreCall codec} (hcall : ¬ call.Plain) :
    (db.call text call).2.toOption ≠ (mem.call call).2.toOption := by
  have hreject {u : Uuid} {node : ValidNode} {key : String} (hkey : '\x00' ∈ key.toList) :
      makeParamKey text u node key = .error "param key must not contain null bytes" := by
    rw [makeParamKey, checkNoSeparator_node, checkNoSeparator, if_pos hkey]
    rfl
  cases call with
  | getNodeParam u node key | deleteNodeParam u node key =>
    rw [RedbStore.call, hreject (Decidable.not_not.mp hcall)]
    exact nofun
  | _ => exact absurd trivial hcall

theorem Same.run (h : Same codec text mem db) (calls : List (StoreCall codec)) :
    ((run (RedbStore.call text) db calls).2.map Except.toOption =
        (run InMemoryStore.call mem calls).2.map Except.toOption ↔ ∀ call ∈ calls, call.Plain) ∧
      ((∀ call ∈ calls, call.Plain) →
        Same codec text (run InMemoryStore.call mem calls).1 (run (RedbStore.call text) db calls).1) := by
  induction calls generalizing mem db with
  | nil => exact ⟨by simp [run], fun _ => h⟩
  | cons call calls ih =>
    simp only [run, List.map_cons, List.cons.injEq, List.forall_mem_cons]
    by_cases hcall : call.Plain
    · obtain ⟨hanswer, hnext⟩ := h.call hcall
      obtain ⟨hrest, hsame⟩ := ih hnext
      exact ⟨and_congr (iff_of_true hanswer hcall) hrest, fun hplain => hsame hplain.2⟩
    · exact ⟨iff_of_false (fun heq => call_ne_of_not_plain mem db hcall heq.1) fun hplain => hcall hplain.1,
        fun hplain => absurd hplain.1 hcall⟩

/-- A sequence of calls on two empty stores gets the same answers, an error counting as a rejection, if
and only if it looks up and deletes no key with a null character; the rows are then the same too. -/
theorem backends_interchangeable_iff (text : UuidText Uuid) (codec : RecordCodec Uuid Record)
    (calls : List (StoreCall codec)) :
    ((run (RedbStore.call text) {} calls).2.map Except.toOption =
        (run InMemoryStore.call {} calls).2.map Except.toOption ↔ ∀ call ∈ calls, call.Plain) ∧
      ((∀ call ∈ calls, call.Plain) →
        Same codec text (run InMemoryStore.call {} calls).1 (run (RedbStore.call text) {} calls).1) :=
  Same.run
    { dataflows := by simp, small := by simp, params := by simp, joined := by simp, plain := by simp } calls

def twoUuids : UuidText (Fin 2) where
  display u := uuidText (0x67e5504410b1426f9247bb680e5fe0c8 + u)
  injective := by decide +kernel
  plain := by decide +kernel

def byteRecords : RecordCodec (Fin 2) UInt8 where
  uuid record := if record = 1 then 1 else 0
  encode record := [record]
  decode
    | [record] => some record
    | _ => none
  round_trip _ := rfl

def camera : ValidNode := ⟨⟨"camera"⟩, by decide⟩

def storedAndListed : List (StoreCall byteRecords) :=
  [.putDataflow ⟨1, by decide⟩, .putNodeParam 1 camera "rate" [30], .listNodeParams 1 camera,
    .deleteDataflow 1, .getNodeParam 1 camera "rate"]

theorem backends_agree_on_storedAndListed :
    (run (RedbStore.call twoUuids) {} storedAndListed).2.map Except.toOption =
      (run InMemoryStore.call {} storedAndListed).2.map Except.toOption :=
  (backends_interchangeable_iff twoUuids byteRecords storedAndListed).1.mpr (by decide)

def lookupNull : StoreCall byteRecords := .getNodeParam 1 camera "a\x00b"

/-- The memory has no row under the key, redb rejects the call. -/
theorem lookup_null_differs :
    (run InMemoryStore.call {} [lookupNull]).2 = [.ok (.param none)] ∧
      (run (RedbStore.call twoUuids) {} [lookupNull]).2 =
        [.error "param key must not contain null bytes"] :=
  ⟨rfl, rfl⟩

end Dora.Store
