import Dora.Lib.KeyOrder

/-!
# Identifiers (`libraries/message/src/id.rs`)

`NodeId` and `DataId` are newtypes over a string that is validated when it is parsed; an `OutputId`
names one output of one node. They are compared as their strings are, so they can key the ordered maps
of the model.
-/

namespace Dora

open Std

/-- A UUID, given as a number, in its text form. -/
def uuidText (uuid : Nat) : String :=
  let digits := Nat.toDigits 16 uuid
  let padded := List.replicate (32 - digits.length) '0' ++ digits
  let part (start len : Nat) : String := String.ofList ((padded.drop start).take len)
  "-".intercalate [part 0 8, part 8 4, part 12 4, part 16 4, part 20 12]

structure NodeId where
  name : String
deriving DecidableEq, Repr

structure DataId where
  name : String
deriving DecidableEq, Repr

theorem NodeId.name_injective : Function.Injective NodeId.name := by
  rintro ⟨a⟩ ⟨b⟩ h
  exact congrArg NodeId.mk h

theorem DataId.name_injective : Function.Injective DataId.name := by
  rintro ⟨a⟩ ⟨b⟩ h
  exact congrArg DataId.mk h

/-- What a node may be called: `[a-zA-Z0-9_.-]`, no leading dot, and not `dora`. -/
def validateNodeId (id : String) : Except String Unit :=
  if id.isEmpty then .error "identifier must not be empty"
  else if id = "dora" then
    .error ("identifier 'dora' is reserved for built-in inputs (dora/timer/..., dora/logs) " ++
      "and cannot be used as a node id")
  else if id.toList.head? = some '.' then
    .error (s!"identifier '{id}' must not start with '.' " ++
      "(dot-segments such as '.' and '..' can traverse parent directories)")
  else
    match id.toList.find? fun c => !c.isAlphanum && c != '_' && c != '-' && c != '.' with
    | some ch =>
      .error s!"identifier contains invalid character '{ch}' -- only [a-zA-Z0-9_.-] are allowed"
    | none => .ok ()

/-- What an output or an input may be called: as a node, but with `/` between nonempty segments. -/
def validateDataId (id : String) : Except String Unit :=
  if id.isEmpty then .error "identifier must not be empty"
  else
    match id.toList.find? fun c => !c.isAlphanum && c != '_' && c != '-' && c != '.' && c != '/' with
    | some ch =>
      .error s!"identifier contains invalid character '{ch}' -- only [a-zA-Z0-9_./-] are allowed"
    | none =>
      if id.toList.head? = some '/' ∨ id.toList.getLast? = some '/' ∨ ['/', '/'] <:+: id.toList then
        .error (s!"identifier '{id}' has empty path segment -- " ++
          "leading, trailing, or consecutive '/' are not allowed")
      else .ok ()

theorem char_of_validateNodeId {id : String} (h : validateNodeId id = .ok ()) {c : Char}
    (hc : c ∈ id.toList) : c.isAlphanum = true ∨ c = '_' ∨ c = '-' ∨ c = '.' := by
  unfold validateNodeId at h
  repeat' split at h
  all_goals try cases h
  rename_i hfind
  have hchar := List.find?_eq_none.mp hfind c hc
  simpa only [Bool.and_eq_true, Bool.not_eq_true', bne_iff_ne, ne_eq, not_and, Decidable.not_not,
    Bool.not_eq_true, or_iff_not_imp_left, and_imp] using hchar

theorem char_of_validateDataId {id : String} (h : validateDataId id = .ok ()) {c : Char}
    (hc : c ∈ id.toList) : c.isAlphanum = true ∨ c = '_' ∨ c = '-' ∨ c = '.' ∨ c = '/' := by
  unfold validateDataId at h
  split at h
  · cases h
  · split at h
    · cases h
    · rename_i hfind
      have hchar := List.find?_eq_none.mp hfind c hc
      simpa only [Bool.and_eq_true, Bool.not_eq_true', bne_iff_ne, ne_eq, not_and, Decidable.not_not,
        Bool.not_eq_true, or_iff_not_imp_left, and_imp] using hchar

def NodeId.fromStr (s : String) : Except String NodeId := do
  validateNodeId s
  return ⟨s⟩

def DataId.fromStr (s : String) : Except String DataId := do
  validateDataId s
  return ⟨s⟩

instance : Ord NodeId := ⟨compareOn NodeId.name⟩
instance : TransOrd NodeId := inferInstanceAs (TransCmp (compareOn NodeId.name))
instance : LawfulEqOrd NodeId := Lib.lawfulEqOn _ NodeId.name_injective

instance : Ord DataId := ⟨compareOn DataId.name⟩
instance : TransOrd DataId := inferInstanceAs (TransCmp (compareOn DataId.name))
instance : LawfulEqOrd DataId := Lib.lawfulEqOn _ DataId.name_injective

/-- `OutputId(node, output)` of `event_types.rs`: the routing key of one output. -/
structure OutputId where
  node : NodeId
  output : DataId
deriving DecidableEq, Repr

def OutputId.key (id : OutputId) : NodeId × DataId := (id.node, id.output)

theorem OutputId.key_injective : Function.Injective OutputId.key := by
  rintro ⟨n, o⟩ ⟨n', o'⟩ h
  simpa [OutputId.key] using h

instance : Ord OutputId := ⟨compareOn OutputId.key⟩
instance : TransOrd OutputId := inferInstanceAs (TransCmp (compareOn OutputId.key))
instance : LawfulEqOrd OutputId := Lib.lawfulEqOn _ OutputId.key_injective

end Dora
