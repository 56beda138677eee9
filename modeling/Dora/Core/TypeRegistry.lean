import Dora.Lib.Admission
import Dora.Lib.Text
import Dora.Node.IpcLayout

/-!
# Type registry (`libraries/core/src/types.rs`)

Types are registered under URNs such as `std/math/v1/Vector3`. A field of a struct type names its
type as a primitive of Arrow, as `List<…>` of another type, by a URN that may carry parameters, or by
the last segments of a URN when only one registered URN ends so.
-/

namespace Dora

open Std Lib

structure FieldDef where
  name : String
  type : String
  nullable : Bool := true
deriving DecidableEq

structure TypeDef where
  arrow : String
  fields : List FieldDef := []
deriving DecidableEq

def arrowTypeFromName (name : String) : Option DataType :=
  match name with
  | "Float32" => some .float32
  | "Float64" => some .float64
  | "Int8" => some .int8
  | "Int16" => some .int16
  | "Int32" => some .int32
  | "Int64" => some .int64
  | "UInt8" => some .uint8
  | "UInt16" => some .uint16
  | "UInt32" => some .uint32
  | "UInt64" => some .uint64
  | "Utf8" => some .utf8
  | "LargeBinary" => some .largeBinary
  | "Boolean" => some .boolean
  | _ => none

def isKnownArrowType (name : String) : Bool := (arrowTypeFromName name).isSome || name == "Struct"

def MAX_TYPE_DEPTH : Nat := 8

structure ParsedUrn where
  base : String
  params : TreeMap String String

/-- One `key=value` of a parameter list. -/
def parseUrnParam (params : TreeMap String String) (part : String) :
    Option (TreeMap String String) := do
  let (k, v) ← splitOnce '=' (trim part)
  let k := trim k
  let v := trim v
  if k.isEmpty || v.isEmpty then none else some (params.insert k v)

def parseUrn (urn : String) : Option ParsedUrn :=
  if urn.isEmpty then none
  else if !urn.toList.contains '[' then some { base := urn, params := ∅ }
  else if !endsWith urn "]" then none
  else
    let base := urn.toList.takeWhile (· != '[')
    if base.isEmpty then none
    else
      let paramsStr := ((urn.toList.dropWhile (· != '[')).drop 1).dropLast
      if paramsStr.isEmpty then none
      else do
        let params ← ((paramsStr.splitOn ',').map String.ofList).foldlM parseUrnParam ∅
        some { base := String.ofList base, params }

structure TypeRegistry where
  types : TreeMap String TypeDef

namespace TypeRegistry

def insertType (registry : TypeRegistry) (urn : String) (typeDef : TypeDef) : TypeRegistry :=
  { types := registry.types.insert urn typeDef }

def resolve (registry : TypeRegistry) (urn : String) : Option TypeDef :=
  match registry.types[urn]? with
  | some typeDef => some typeDef
  | none =>
    match parseUrn urn with
    | some parsed => if parsed.base != urn then registry.types[parsed.base]? else none
    | none => none

/-- The loop of `resolve_short_name`: a second match ends it without a result. -/
def findUnique (suffix : String) : List (String × TypeDef) → Option TypeDef → Option TypeDef
  | [], found => found
  | (urn, typeDef) :: rest, found =>
    if endsWith urn suffix then
      if found.isSome then none else findUnique suffix rest (some typeDef)
    else findUnique suffix rest found

def resolveShortName (registry : TypeRegistry) (name : String) : Option TypeDef :=
  findUnique ("/" ++ name) registry.types.toList none

/-- `levels` is `MAX_TYPE_DEPTH + 1 - depth`. -/
def fieldTypeResolvesDepth (registry : TypeRegistry) : Nat → String → Bool
  | 0, _ => false
  | levels + 1, typeStr =>
    let t := trim typeStr
    if (arrowTypeFromName t).isSome then true
    else
      match (stripStart "List<" t).bind (stripEnd ">") with
      | some inner => fieldTypeResolvesDepth registry levels inner
      | none => (registry.resolve t).isSome || (registry.resolveShortName t).isSome

def fieldTypeResolves (registry : TypeRegistry) (typeStr : String) : Bool :=
  registry.fieldTypeResolvesDepth (MAX_TYPE_DEPTH + 1) typeStr

/-- `valid_char` of `add_user_type` and of `check_shipped_type_urn` -/
def validChar (c : Char) : Bool :=
  c.isAlphanum || c == '_' || c == '-' || c == '.' || c == '/'

/-- `char::is_control` -/
def isControl (c : Char) : Bool := c.toNat ≤ 0x1F || (0x7F ≤ c.toNat && c.toNat ≤ 0x9F)

def addUserType (registry : TypeRegistry) (urn : String) (typeDef : TypeDef) :
    Except String TypeRegistry :=
  if startsWith urn "std/" || urn == "std" then
    .error ("user types cannot use the \"std/\" prefix: " ++ urn)
  else if urn.isEmpty || !urn.toList.all validChar then
    .error ("invalid type URN `" ++ String.ofList (urn.toList.filter (!isControl ·)) ++ "`")
  else .ok (registry.insertType urn typeDef)

def urns (registry : TypeRegistry) : Set String := {urn | urn ∈ registry.types}

end TypeRegistry

/-- What a field type comes down to below its `List<…>`s. -/
inductive Referent where
  | primitive
  | named (name : String)

def referent : Nat → String → Option Referent
  | 0, _ => none
  | levels + 1, typeStr =>
    let t := trim typeStr
    if (arrowTypeFromName t).isSome then some .primitive
    else
      match (stripStart "List<" t).bind (stripEnd ">") with
      | some inner => referent levels inner
      | none => some (.named t)

def strippedUrn (name : String) : Option String :=
  (parseUrn name).bind fun parsed => if parsed.base != name then some parsed.base else none

def abbreviates (typeStr urn : String) : Bool :=
  match referent (MAX_TYPE_DEPTH + 1) typeStr with
  | some (.named name) => endsWith urn ("/" ++ name)
  | _ => false

def typeLookup : Lookup String String where
  always typeStr := referent (MAX_TYPE_DEPTH + 1) typeStr = some .primitive
  full typeStr urn := ∃ name, referent (MAX_TYPE_DEPTH + 1) typeStr = some (.named name) ∧
    (urn = name ∨ strippedUrn name = some urn)
  short typeStr urn := abbreviates typeStr urn = true

namespace TypeRegistry

variable {registry : TypeRegistry}

theorem mem_urns {urn : String} : urn ∈ registry.urns ↔ urn ∈ registry.types := Iff.rfl

theorem urns_insertType (urn : String) (typeDef : TypeDef) :
    (registry.insertType urn typeDef).urns = insert urn registry.urns := by
  ext urn'
  show urn' ∈ registry.types.insert urn typeDef ↔ _
  rw [TreeMap.mem_insert, Std.compare_eq_iff_eq, Set.mem_insert_iff, mem_urns, eq_comm]

theorem resolve_isSome_iff {name : String} : (registry.resolve name).isSome = true ↔
    name ∈ registry.types ∨ ∃ urn, strippedUrn name = some urn ∧ urn ∈ registry.types := by
  unfold resolve strippedUrn
  cases hexact : registry.types[name]? with
  | some =>
    have hmem : name ∈ registry.types := by
      rw [TreeMap.mem_iff_isSome_getElem?, hexact]
      rfl
    simp [hmem]
  | none =>
    have hnot : name ∉ registry.types := by
      rw [TreeMap.mem_iff_isSome_getElem?, hexact]
      exact Bool.false_ne_true
    cases parseUrn name with
    | none => simp [hnot]
    | some parsed =>
      by_cases hbase : parsed.base = name
      · simp [hnot, hbase]
      · simp [hnot, hbase]

theorem findUnique_isSome_iff (suffix : String) (entries : List (String × TypeDef))
    (found : Option TypeDef) : (findUnique suffix entries found).isSome = true ↔
      entries.countP (fun entry => endsWith entry.1 suffix) + found.toList.length = 1 := by
  induction entries generalizing found with
  | nil => cases found <;> simp [findUnique]
  | cons entry entries ih =>
    obtain ⟨urn, typeDef⟩ := entry
    by_cases hmatch : endsWith urn suffix = true
    · cases found with
      | none => simp [findUnique, hmatch, ih]
      | some => simp [findUnique, hmatch]
    · simp [findUnique, hmatch, ih]

theorem countP_eq_one_iff {keys : List String} (hnodup : keys.Nodup) (p : String → Bool) :
    keys.countP p = 1 ↔ ∃! key, key ∈ keys ∧ p key = true := by
  rw [List.countP_eq_length_filter, List.length_eq_one_iff]
  constructor
  · rintro ⟨key, hfilter⟩
    have hmem : ∀ other, other ∈ keys ∧ p other = true ↔ other = key := by
      intro other
      rw [← List.mem_filter, hfilter, List.mem_singleton]
    exact ⟨key, (hmem key).mpr rfl, fun other hother => (hmem other).mp hother⟩
  · rintro ⟨key, hkey, hunique⟩
    have hall : ∀ other ∈ keys.filter p, other = key := fun other hother =>
      hunique other (List.mem_filter.mp hother)
    have hrep := List.eq_replicate_of_mem hall
    have hone : (keys.filter p).length ≤ 1 := by
      have hkeep := hnodup.filter p
      rw [hrep, List.nodup_replicate] at hkeep
      exact hkeep
    have hpos : 0 < (keys.filter p).length :=
      List.length_pos_of_mem (List.mem_filter.mpr hkey)
    refine ⟨key, ?_⟩
    rw [hrep, show (keys.filter p).length = 1 by omega]
    rfl

theorem resolveShortName_isSome_iff {name : String} :
    (registry.resolveShortName name).isSome = true ↔
      ∃! urn, urn ∈ registry.urns ∧ endsWith urn ("/" ++ name) = true := by
  have hcount : registry.types.toList.countP (fun entry => endsWith entry.1 ("/" ++ name)) =
      registry.types.keys.countP (fun urn => endsWith urn ("/" ++ name)) := by
    rw [← TreeMap.map_fst_toList_eq_keys, List.countP_map]
    rfl
  rw [resolveShortName, findUnique_isSome_iff, hcount]
  show _ + 0 = 1 ↔ _
  rw [Nat.add_zero, countP_eq_one_iff TreeMap.nodup_keys]
  simp only [TreeMap.mem_keys, mem_urns]

theorem fieldTypeResolvesDepth_eq (levels : Nat) (typeStr : String) :
    registry.fieldTypeResolvesDepth levels typeStr =
      match referent levels typeStr with
      | none => false
      | some .primitive => true
      | some (.named name) => (registry.resolve name).isSome || (registry.resolveShortName name).isSome := by
  induction levels generalizing typeStr with
  | zero => rfl
  | succ levels ih =>
    simp only [fieldTypeResolvesDepth, referent]
    by_cases hprim : (arrowTypeFromName (trim typeStr)).isSome = true
    · simp only [hprim, if_true]
    · simp only [hprim]
      cases (stripStart "List<" (trim typeStr)).bind (stripEnd ">") with
      | none => rfl
      | some inner => exact ih inner

theorem fieldTypeResolves_iff {typeStr : String} :
    registry.fieldTypeResolves typeStr = true ↔ typeLookup.Resolves registry.urns typeStr := by
  simp only [Lookup.Resolves, typeLookup, abbreviates]
  rw [fieldTypeResolves, fieldTypeResolvesDepth_eq]
  cases href : referent (MAX_TYPE_DEPTH + 1) typeStr with
  | none => simp [ExistsUnique]
  | some target =>
    cases target with
    | primitive => simp
    | named name =>
      rw [Bool.or_eq_true, resolve_isSome_iff, resolveShortName_isSome_iff]
      simp only [Option.some.injEq, Referent.named.injEq, reduceCtorEq, false_or, exists_eq_left',
        mem_urns]
      apply or_congr_left
      constructor
      · rintro (hname | ⟨urn, hurn, hmem⟩)
        · exact ⟨name, hname, .inl rfl⟩
        · exact ⟨urn, hmem, .inr hurn⟩
      · rintro ⟨urn, hmem, rfl | hurn⟩
        · exact .inl hmem
        · exact .inr ⟨urn, hurn, hmem⟩

end TypeRegistry

end Dora
