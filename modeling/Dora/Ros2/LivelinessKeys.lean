import Dora.Lib.Fallible
import Dora.Lib.Text

/-!
# Liveliness keys (`ros2-bridge/src/transport/zenoh/keyexpr.rs`)

A node or an endpoint announces itself by a key of 9 or 13 parts. The slashes in its names become
percent signs, so that the parts can be told apart again.
-/

namespace Dora.Liveliness

open Lib

inductive KeyError where
  | invalid
  | malformed
deriving DecidableEq

inductive EntityKind where
  | node
  | publisher
  | subscription
  | service
  | client
deriving DecidableEq

def EntityKind.code : EntityKind → String
  | node => "NN"
  | publisher => "MP"
  | subscription => "MS"
  | service => "SS"
  | client => "SC"

def EntityKind.parse (value : String) : Option EntityKind :=
  if value = "NN" then some node
  else if value = "MP" then some publisher
  else if value = "MS" then some subscription
  else if value = "SS" then some service
  else if value = "SC" then some client
  else none

structure TopicToken where
  name : String
  typeName : String
  typeHash : String
  qos : String
deriving DecidableEq

/-- What a key is made of. -/
structure Entity where
  domain : UInt64
  zid : String
  nid : String
  id : String
  kind : EntityKind
  enclave : String
  «namespace» : String
  nodeName : String
  topic : Option TopicToken
deriving DecidableEq

structure LivelinessKey extends Entity where
  key : String
deriving DecidableEq

def replaceChar (c d : Char) (value : String) : String :=
  String.ofList (value.toList.map fun x => if x = c then d else x)

def mangle (value : String) : Except KeyError String :=
  if ['%', '%'] <:+: value.toList then .error .invalid else .ok (replaceChar '/' '%' value)

def demangle (value : String) : String := replaceChar '%' '/' value

def join (parts : List String) : String :=
  String.ofList (['/'].intercalate (parts.map String.toList))

def split (value : String) : List String := (value.toList.splitOn '/').map String.ofList

def TopicToken.parts (topic : TopicToken) : Except KeyError (List String) := do
  let names ← [topic.name, topic.typeName, topic.typeHash].mapM mangle
  return names ++ [topic.qos]

def Entity.parts (e : Entity) : Except KeyError (List String) := do
  let names ← [e.enclave, e.namespace, e.nodeName].mapM mangle
  let topic ← e.topic.elim (pure []) TopicToken.parts
  return ["@ros2_lv", e.domain.toNat.repr, e.zid, e.nid, e.id, e.kind.code] ++ names ++ topic

/-- The parts after the node's name. -/
def TopicToken.ofParts : List String → Option (Option TopicToken)
  | [] => some none
  | [name, typeName, typeHash, qos] =>
    some (some ⟨demangle name, demangle typeName, demangle typeHash, qos⟩)
  | _ => none

namespace LivelinessKey

-- whether a text is a key expression (`OwnedKeyExpr::try_from`)
variable (valid : String → Bool)

def new (e : Entity) : Except KeyError LivelinessKey := do
  let key := join (← e.parts)
  if valid key then return { e with key } else throw .invalid

def node (domain : UInt64) (zid nid id enclave «namespace» nodeName : String) :
    Except KeyError LivelinessKey :=
  new valid { domain, zid, nid, id, kind := .node, enclave, «namespace», nodeName, topic := none }

def endpoint (domain : UInt64) (zid nid id : String) (kind : EntityKind)
    (enclave «namespace» nodeName : String) (topic : TopicToken) : Except KeyError LivelinessKey :=
  if kind = .node then .error .invalid
  else new valid { domain, zid, nid, id, kind, enclave, «namespace», nodeName, topic := some topic }

def parse (value : String) : Except KeyError LivelinessKey :=
  if !valid value || value.toList.count '/' > 12 then .error .malformed
  else
    match split value with
    | root :: domain :: zid :: nid :: id :: kind :: enclave :: «namespace» :: nodeName :: topic =>
      if root ≠ "@ros2_lv" then .error .malformed
      else
        match TopicToken.ofParts topic, parseUnsigned (2 ^ 64) domain, EntityKind.parse kind with
        | some topic, some domain, some kind =>
          new valid { domain := .ofNat domain, zid, nid, id, kind, enclave := demangle enclave,
                      «namespace» := demangle «namespace», nodeName := demangle nodeName, topic }
        | _, _, _ => .error .malformed
    | _ => .error .malformed

/-- A key that `node` or `endpoint` has accepted. -/
inductive Accepted : LivelinessKey → Prop
  | node {domain zid nid id enclave ns nodeName key} (hzid : '/' ∉ zid.toList) (hnid : '/' ∉ nid.toList)
      (hid : '/' ∉ id.toList) (h : node valid domain zid nid id enclave ns nodeName = .ok key) : Accepted key
  | endpoint {domain zid nid id kind enclave ns nodeName topic key} (hzid : '/' ∉ zid.toList)
      (hnid : '/' ∉ nid.toList) (hid : '/' ∉ id.toList) (hqos : '/' ∉ topic.qos.toList)
      (h : endpoint valid domain zid nid id kind enclave ns nodeName topic = .ok key) : Accepted key

end LivelinessKey

theorem notMem_of_mem_splitOn {sep : Char} {text piece : List Char} (h : piece ∈ text.splitOn sep) :
    sep ∉ piece := by
  by_cases hsep : sep ∈ text
  · obtain ⟨first, rest, rfl, hfirst⟩ := List.eq_append_cons_of_mem hsep
    rw [List.splitOn_append_cons_self_of_not_mem hfirst] at h
    obtain rfl | h := List.mem_cons.mp h
    · exact hfirst
    · exact notMem_of_mem_splitOn h
  · rw [List.splitOn_eq_singleton hsep, List.mem_singleton] at h
    exact h ▸ hsep
termination_by text.length

theorem notMem_of_mem_split {value part : String} (h : part ∈ split value) : '/' ∉ part.toList := by
  obtain ⟨piece, hpiece, rfl⟩ := List.mem_map.mp h
  rw [String.toList_ofList]
  exact notMem_of_mem_splitOn hpiece

theorem join_split (value : String) : join (split value) = value := by
  simp [join, split, Function.comp_def, List.intercalate_splitOn]

theorem split_join {parts : List String} (hne : parts ≠ []) (h : ∀ part ∈ parts, '/' ∉ part.toList) :
    split (join parts) = parts := by
  rw [split, join, String.toList_ofList, List.splitOn_intercalate '/' (by simpa using h) (by simpa using hne)]
  simp [Function.comp_def]

theorem count_join {parts : List String} (h : ∀ part ∈ parts, '/' ∉ part.toList) :
    (join parts).toList.count '/' = parts.length - 1 := by
  rw [join, String.toList_ofList]
  induction parts with
  | nil => rfl
  | cons part parts ih =>
    have hpart := List.count_eq_zero.mpr (h part List.mem_cons_self)
    cases parts with
    | nil => simpa using hpart
    | cons part' parts =>
      have hrest := ih fun p hp => h p (List.mem_cons_of_mem _ hp)
      rw [List.map_cons, List.map_cons, List.intercalate_cons_cons, ← List.map_cons, List.count_append,
        List.count_append, hrest, hpart]
      simp
      omega

theorem notMem_replaceChar {c d : Char} (hne : c ≠ d) (value : String) :
    c ∉ (replaceChar c d value).toList := by
  rw [replaceChar, String.toList_ofList, List.mem_map]
  rintro ⟨x, -, hx⟩
  split at hx
  · exact hne hx.symm
  · exact absurd hx ‹_›

theorem replaceChar_eq_self {c d : Char} (hne : c ≠ d) {value : String} :
    replaceChar c d value = value ↔ c ∉ value.toList := by
  constructor
  · intro h
    exact h ▸ notMem_replaceChar hne value
  · intro h
    have hsame : ∀ x ∈ value.toList, (if x = c then d else x) = id x := by
      intro x hx
      rw [if_neg fun heq : x = c => h (heq ▸ hx), id]
    rw [replaceChar, List.map_congr_left hsame, List.map_id, String.ofList_toList]

theorem replaceChar_replaceChar {c d : Char} (value : String) :
    replaceChar c d (replaceChar d c value) = replaceChar c d value := by
  simp only [replaceChar, String.toList_ofList, List.map_map]
  congr 2
  funext x
  simp only [Function.comp_apply]
  split <;> split <;> simp_all

theorem mangle_of_notMem {value : String} (h : '%' ∉ value.toList) :
    mangle value = .ok (replaceChar '/' '%' value) :=
  if_neg fun hsub => h (hsub.subset List.mem_cons_self)

theorem mapM_mangle {values texts : List String} (h : values.mapM mangle = .ok texts) :
    texts = values.map (replaceChar '/' '%') := by
  have hall := mapM_eq_ok h
  clear h
  induction hall with
  | nil => rfl
  | cons hvalue _ ih =>
    unfold mangle at hvalue
    split at hvalue
    · cases hvalue
    · rw [List.map_cons, ih, Except.ok.inj hvalue]

theorem mapM_mangle_demangle (values : List String) :
    (values.map demangle).mapM mangle = .ok (values.map (replaceChar '/' '%')) := by
  induction values with
  | nil => rfl
  | cons value values ih =>
    have hfree : '%' ∉ (demangle value).toList := notMem_replaceChar (by decide) value
    have hvalue : mangle (demangle value) = .ok (replaceChar '/' '%' value) := by
      rw [mangle_of_notMem hfree, demangle, replaceChar_replaceChar]
    rw [List.map_cons, List.mapM_cons, hvalue, ih]
    rfl

theorem demangle_replaceChar (value : String) : demangle (replaceChar '/' '%' value) = demangle value :=
  replaceChar_replaceChar value

theorem replaceChar_demangle {value : String} (h : '/' ∉ value.toList) :
    replaceChar '/' '%' (demangle value) = value :=
  (replaceChar_replaceChar value).trans ((replaceChar_eq_self (by decide)).mpr h)

theorem EntityKind.parse_code (kind : EntityKind) : EntityKind.parse kind.code = some kind := by
  cases kind <;> decide

theorem EntityKind.code_of_parse {value : String} {kind : EntityKind}
    (h : EntityKind.parse value = some kind) : kind.code = value := by
  unfold EntityKind.parse at h
  split_ifs at h with hvalue hvalue hvalue hvalue hvalue
  all_goals
    cases h
    exact hvalue.symm

def TopicToken.rendered (topic : TopicToken) : List String :=
  [topic.name, topic.typeName, topic.typeHash].map (replaceChar '/' '%') ++ [topic.qos]

theorem TopicToken.rendered_of_ofParts {parts : List String} {topic : Option TopicToken}
    (h : TopicToken.ofParts parts = some topic) (hparts : ∀ part ∈ parts, '/' ∉ part.toList) :
    topic.elim [] TopicToken.rendered = parts := by
  unfold TopicToken.ofParts at h
  split at h
  · cases h
    rfl
  · cases h
    simp only [List.forall_mem_cons] at hparts
    simp [TopicToken.rendered, replaceChar_demangle hparts.1, replaceChar_demangle hparts.2.1,
      replaceChar_demangle hparts.2.2.1]
  · cases h

namespace Entity

def names (e : Entity) : List String :=
  [e.enclave, e.namespace, e.nodeName] ++
    match e.topic with
    | some topic => [topic.name, topic.typeName, topic.typeHash]
    | none => []

def PercentFree (e : Entity) : Prop := ∀ name ∈ e.names, '%' ∉ name.toList

/-- The parts of its key. -/
def rendered (e : Entity) : List String :=
  ["@ros2_lv", e.domain.toNat.repr, e.zid, e.nid, e.id, e.kind.code] ++
    [e.enclave, e.namespace, e.nodeName].map (replaceChar '/' '%') ++
    e.topic.elim [] TopicToken.rendered

/-- What is read back. -/
def demangled (e : Entity) : Entity :=
  { e with
    enclave := demangle e.enclave
    «namespace» := demangle e.namespace
    nodeName := demangle e.nodeName
    topic := e.topic.map fun topic =>
      { topic with
        name := demangle topic.name
        typeName := demangle topic.typeName
        typeHash := demangle topic.typeHash } }

structure SlashFree (e : Entity) : Prop where
  zid : '/' ∉ e.zid.toList
  nid : '/' ∉ e.nid.toList
  id : '/' ∉ e.id.toList
  qos : ∀ topic ∈ e.topic, '/' ∉ topic.qos.toList

variable {e : Entity}

theorem demangled_eq_self : e.demangled = e ↔ e.PercentFree := by
  have hname {value : String} : demangle value = value ↔ '%' ∉ value.toList :=
    replaceChar_eq_self (by decide)
  obtain ⟨domain, zid, nid, id, kind, enclave, ns, nodeName, _ | ⟨name, typeName, typeHash, qos⟩⟩ := e
  · simp [demangled, PercentFree, names, hname]
  · simp [demangled, PercentFree, names, hname]

theorem rendered_of_parts {texts : List String} (h : e.parts = .ok texts) : texts = e.rendered := by
  obtain ⟨names, hnames, h⟩ := bind_eq_ok.mp h
  obtain ⟨topic, htopic, h⟩ := bind_eq_ok.mp h
  cases h
  rw [mapM_mangle hnames, rendered]
  congr 1
  cases ht : e.topic with
  | none =>
    rw [ht] at htopic
    exact (Except.ok.inj htopic).symm
  | some token =>
    rw [ht] at htopic
    obtain ⟨names, hnames, h⟩ := bind_eq_ok.mp htopic
    cases h
    rw [mapM_mangle hnames]
    rfl

theorem parts_demangled (e : Entity) : e.demangled.parts = .ok e.rendered := by
  have hnames := mapM_mangle_demangle [e.enclave, e.namespace, e.nodeName]
  have htopic : e.demangled.topic.elim (pure []) TopicToken.parts =
      .ok (e.topic.elim [] TopicToken.rendered) := by
    rw [demangled]
    cases e.topic with
    | none => rfl
    | some topic =>
      exact bind_eq_ok.mpr ⟨_, mapM_mangle_demangle [topic.name, topic.typeName, topic.typeHash], rfl⟩
  exact bind_eq_ok.mpr ⟨_, hnames, bind_eq_ok.mpr ⟨_, htopic, rfl⟩⟩

theorem SlashFree.rendered (h : e.SlashFree) : ∀ part ∈ e.rendered, '/' ∉ part.toList := by
  have hmapped {names : List String} {part : String} (hpart : part ∈ names.map (replaceChar '/' '%')) :
      '/' ∉ part.toList := by
    obtain ⟨name, -, rfl⟩ := List.mem_map.mp hpart
    exact notMem_replaceChar (by decide) name
  intro part hpart
  rw [Entity.rendered, List.mem_append, List.mem_append] at hpart
  obtain (hpart | hpart) | hpart := hpart
  · simp only [List.mem_cons, List.not_mem_nil, or_false] at hpart
    obtain rfl | rfl | rfl | rfl | rfl | rfl := hpart
    · decide
    · exact not_mem_natRepr rfl _
    · exact h.zid
    · exact h.nid
    · exact h.id
    · cases e.kind <;> decide
  · exact hmapped hpart
  · cases htopic : e.topic with
    | none =>
      rw [htopic] at hpart
      cases hpart
    | some topic =>
      rw [htopic] at hpart
      obtain hpart | hpart := List.mem_append.mp hpart
      · exact hmapped hpart
      · rw [List.mem_singleton.mp hpart]
        exact h.qos topic htopic

end Entity

namespace LivelinessKey

variable {valid} {e : Entity} {key : LivelinessKey}

theorem new_eq_ok : new valid e = .ok key ↔
    ∃ texts, e.parts = .ok texts ∧ valid (join texts) = true ∧ key = ⟨e, join texts⟩ := by
  have hcheck (texts : List String) :
      (if valid (join texts) then Except.ok ⟨e, join texts⟩ else Except.error KeyError.invalid) = .ok key ↔
        valid (join texts) = true ∧ key = ⟨e, join texts⟩ := by
    split
    · rename_i h
      simp [h, eq_comm]
    · rename_i h
      simp [h]
  exact bind_eq_ok.trans (exists_congr fun texts => and_congr_right fun _ => hcheck texts)

theorem rendered_of_new (h : new valid e = .ok key) :
    valid (join e.rendered) = true ∧ key = ⟨e, join e.rendered⟩ := by
  obtain ⟨texts, htexts, h⟩ := new_eq_ok.mp h
  cases Entity.rendered_of_parts htexts
  exact h

theorem parse_rendered (h : e.SlashFree) (hvalid : valid (join e.rendered) = true) :
    parse valid (join e.rendered) = .ok ⟨e.demangled, join e.rendered⟩ := by
  have hsplit : split (join e.rendered) = "@ros2_lv" :: e.domain.toNat.repr :: e.zid :: e.nid :: e.id ::
      e.kind.code :: replaceChar '/' '%' e.enclave :: replaceChar '/' '%' e.namespace ::
      replaceChar '/' '%' e.nodeName :: e.topic.elim [] TopicToken.rendered :=
    split_join (List.cons_ne_nil _ _) h.rendered
  have hcount : (join e.rendered).toList.count '/' ≤ 12 := by
    rw [count_join h.rendered, Entity.rendered]
    cases e.topic <;> simp [TopicToken.rendered]
  have htopic : TopicToken.ofParts (e.topic.elim [] TopicToken.rendered) = some e.demangled.topic := by
    rw [Entity.demangled]
    cases e.topic <;> simp [TopicToken.ofParts, TopicToken.rendered, demangle_replaceChar]
  unfold parse
  rw [if_neg (by simp [hvalid, hcount]), hsplit]
  dsimp only
  rw [if_neg (not_not.mpr rfl), htopic, parseUnsigned_repr, if_pos e.domain.toNat_lt, EntityKind.parse_code]
  dsimp only
  rw [UInt64.ofNat_toNat, demangle_replaceChar, demangle_replaceChar, demangle_replaceChar]
  exact new_eq_ok.mpr ⟨_, e.parts_demangled, hvalid, rfl⟩

theorem rendered_of_parse {value : String} (h : parse valid value = .ok key) :
    ∃ domain n rest, split value = "@ros2_lv" :: domain :: rest ∧
      parseUnsigned (2 ^ 64) domain = some n ∧ key.domain = .ofNat n ∧
      key.key = join ("@ros2_lv" :: key.domain.toNat.repr :: rest) := by
  have hslash : ∀ part ∈ split value, '/' ∉ part.toList := fun _ => notMem_of_mem_split
  unfold parse at h
  split at h
  · cases h
  split at h
  · rename_i root domain zid nid id kind enclave ns nodeName topic hsplit
    split at h
    · cases h
    · rename_i hroot
      split at h
      · rename_i topic' domain' kind' htopic hdomain hkind
        obtain ⟨-, rfl⟩ := rendered_of_new h
        rw [hsplit] at hslash ⊢
        simp only [List.mem_cons, forall_eq_or_imp] at hslash
        obtain ⟨-, -, -, -, -, -, henclave, hns, hname, hrest⟩ := hslash
        rw [not_not.mp hroot]
        refine ⟨_, _, _, rfl, hdomain, rfl, ?_⟩
        rw [Entity.rendered, TopicToken.rendered_of_ofParts htopic hrest, EntityKind.code_of_parse hkind]
        simp [replaceChar_demangle henclave, replaceChar_demangle hns, replaceChar_demangle hname]
      · cases h
  · cases h

theorem Accepted.entity (h : Accepted valid key) :
    key.SlashFree ∧ valid (join key.rendered) = true ∧ key.key = join key.rendered := by
  cases h with
  | node hzid hnid hid h =>
    obtain ⟨hvalid, rfl⟩ := rendered_of_new h
    exact ⟨⟨hzid, hnid, hid, by simp⟩, hvalid, rfl⟩
  | endpoint hzid hnid hid hqos h =>
    unfold LivelinessKey.endpoint at h
    split at h
    · cases h
    · obtain ⟨hvalid, rfl⟩ := rendered_of_new h
      exact ⟨⟨hzid, hnid, hid, by simpa using hqos⟩, hvalid, rfl⟩

theorem parse_key_iff (h : Accepted valid key) : parse valid key.key = .ok key ↔ key.PercentFree := by
  obtain ⟨hslash, hvalid, hkey⟩ := h.entity
  obtain ⟨e, text⟩ := key
  obtain rfl : text = join e.rendered := hkey
  rw [parse_rendered hslash hvalid, ← Entity.demangled_eq_self]
  simp

/-- A key is read back from its text unless one of its names has a percent sign, so that two keys without
have two texts. The text of a key that was read is the text it was read from unless the domain was not
written as its decimal digits. -/
theorem liveliness_keys_round_trip_iff (valid : String → Bool) :
    (∀ key, Accepted valid key → (parse valid key.key = .ok key ↔ key.PercentFree)) ∧
    (∀ key key', Accepted valid key → Accepted valid key' → key.PercentFree → key'.PercentFree →
      key.key = key'.key → key = key') ∧
    ∀ value key, parse valid value = .ok key →
      (key.key = value ↔ ∃ n : Nat, (split value)[1]? = some n.repr) := by
  refine ⟨fun key => parse_key_iff, fun key key' h h' hfree hfree' heq => ?_, fun value key h => ?_⟩
  · have hkey := (parse_key_iff h).mpr hfree
    rw [heq, (parse_key_iff h').mpr hfree'] at hkey
    exact (Except.ok.inj hkey).symm
  · obtain ⟨domain, read, rest, hsplit, hread, hdomain, hkey⟩ := rendered_of_parse h
    have hvalue := join_split value
    rw [hsplit] at hvalue ⊢
    constructor
    · intro heq
      have hparts : ∀ part ∈ "@ros2_lv" :: key.domain.toNat.repr :: rest, '/' ∉ part.toList := by
        intro part hpart
        obtain rfl | rfl | hpart := List.mem_cons.mp hpart |>.imp_right List.mem_cons.mp
        · decide
        · exact not_mem_natRepr rfl _
        · have hmem : part ∈ split value := by rw [hsplit]; simp [hpart]
          exact notMem_of_mem_split hmem
      have hagain := congrArg split (hkey.symm.trans heq)
      rw [split_join (List.cons_ne_nil _ _) hparts, hsplit] at hagain
      exact ⟨key.domain.toNat, by rw [← hagain]; rfl⟩
    · rintro ⟨n, hn⟩
      cases Option.some.inj hn
      rw [parseUnsigned_repr] at hread
      split at hread
      · rename_i hbound
        cases hread
        rw [hkey, hdomain, UInt64.toNat_ofNat_of_lt' hbound, hvalue]
      · cases hread

/-- A percent sign in a name is read as a slash, and a domain may be written with leading zeros. -/
theorem percent_sign_read_as_slash :
    let made (name : String) := (LivelinessKey.node (fun _ => true) 0 "z" "n" "1" "/" "/" name).toOption
    (made "a%b").map (·.key) = some "@ros2_lv/0/z/n/1/NN/%/%/a%b" ∧
      (made "a/b").map (·.key) = some "@ros2_lv/0/z/n/1/NN/%/%/a%b" ∧
      (parse (fun _ => true) "@ros2_lv/0/z/n/1/NN/%/%/a%b").toOption = made "a/b" ∧
      (parse (fun _ => true) "@ros2_lv/007/z/n/1/NN/%/%/a").toOption.map (·.key) =
        some "@ros2_lv/7/z/n/1/NN/%/%/a" := by
  decide +kernel

end LivelinessKey

end Dora.Liveliness
