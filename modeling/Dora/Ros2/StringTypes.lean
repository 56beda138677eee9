import Dora.Ros2.MessageParser

/-!
# String types in interface files

A string type as it is written at the start of a line, with its bound and its brackets, is read back as the
type of the member or of the constant.
-/

namespace Dora.MsgGen

open Lib Parser

inductive Shape where
  | single
  | array (size : Fin (2 ^ 64))
  | sequence
  | boundedSequence (maxSize : Fin (2 ^ 64))
deriving DecidableEq

structure StringType where
  wide : Bool
  bound : Option (Fin (2 ^ 64))
  shape : Shape
deriving DecidableEq

def digits (n : Fin (2 ^ 64)) : List Char := Nat.toDigits 10 n

def Shape.text : Shape → List Char
  | single => []
  | array size => '[' :: (digits size ++ [']'])
  | sequence => ['[', ']']
  | boundedSequence maxSize => '[' :: '<' :: '=' :: (digits maxSize ++ [']'])

namespace StringType

variable (t : StringType)

def keyword : List Char := if t.wide then "wstring".toList else "string".toList

def boundText : List Char := t.bound.elim [] fun n => '<' :: '=' :: digits n

def text : List Char := t.keyword ++ (t.boundText ++ t.shape.text)

def genericString : GenericString :=
  match t.bound with
  | none => if t.wide then .wstring else .string
  | some n => if t.wide then .boundedWString n else .boundedString n

def memberType : MemberType :=
  match t.shape with
  | .single => .nestableType (.genericString t.genericString)
  | .array size => .array (.genericString t.genericString) size
  | .sequence => .sequence (.genericString t.genericString)
  | .boundedSequence maxSize => .boundedSequence (.genericString t.genericString) maxSize

/-- Constants have neither bounded strings nor sequences. -/
def constantType : Option ConstantType :=
  let valueType := PrimitiveType.genericUnboundedString (if t.wide then .wstring else .string)
  match t.bound, t.shape with
  | none, .single => some (.primitiveType valueType)
  | none, .array size => some (.primitiveArray valueType size)
  | _, _ => none

end StringType

theorem isDigit_of_mem_digits {n : Fin (2 ^ 64)} {c : Char} (hc : c ∈ digits n) : c.isDigit = true :=
  Nat.isDigit_of_mem_toDigits (by decide) (by decide) hc

theorem digits_ne_nil (n : Fin (2 ^ 64)) : digits n ≠ [] := Nat.toDigits_ne_nil

theorem usizeLiteral_digits (n : Fin (2 ^ 64)) {rest : List Char}
    (hrest : ∀ c ∈ rest.head?, c.isDigit = false ∧ c ≠ '_') :
    usizeLiteral (digits n ++ rest) = some ((n : Nat), rest) := by
  have hflag : opt (satisfy fun c => c == '+' || c == '-') (digits n ++ rest) =
      some (none, digits n ++ rest) := by
    refine opt_none ?_
    obtain ⟨c, s, hd⟩ := List.exists_cons_of_ne_nil (digits_ne_nil n)
    have hc : c.isDigit = true := isDigit_of_mem_digits (n := n) (hd ▸ List.mem_cons_self)
    have hplus : c ≠ '+' := fun heq => absurd (heq ▸ hc) (by decide)
    have hminus : c ≠ '-' := fun heq => absurd (heq ▸ hc) (by decide)
    simp [hd, satisfy, hplus, hminus]
  have hrun := run1_append (digits_ne_nil n) (fun _ => isDigit_of_mem_digits) fun c hc => (hrest c hc).1
  have hsep : char '_' rest = none := by
    cases rest with
    | nil => rfl
    | cons c s => simp [char, satisfy, (hrest c rfl).2]
  have hlist : separatedList1 (char '_') (run1 Char.isDigit) (digits n ++ rest) =
      some ([digits n], rest) := by
    rw [separatedList1, hrun, Option.bind_some]
    dsimp only
    rw [separatedMore_none (bind_none hsep)]
    rfl
  have hvalue : Nat.ofDigitChars 10 [digits n].flatten 0 = n := by
    rw [List.flatten_singleton, digits, Nat.ofDigitChars_ten_toDigits]
  have hdec : decLiteral (digits n ++ rest) = some (((n : Nat) : Int), rest) := by
    rw [decLiteral, bind_some hflag, bind_some hlist, hvalue]
    simp only [reduceCtorEq, if_false]
    rw [if_pos (by omega)]
    rfl
  rw [usizeLiteral, bind_some hdec, if_pos (by omega)]
  rfl

theorem stringKeyword_keyword (t : StringType) (rest : List Char) :
    stringKeyword (t.keyword ++ rest) = some (t.wide, rest) := by
  unfold stringKeyword StringType.keyword
  cases t.wide with
  | false => exact orElse_some (bind_some (tag_append _ _))
  | true =>
    refine (orElse_none (bind_none ?_)).trans (bind_some (tag_append _ _))
    rfl

theorem basicType_keyword (t : StringType) (rest : List Char) : basicType (t.keyword ++ rest) = none := by
  unfold StringType.keyword
  cases t.wide <;> rfl

theorem genericString_text (t : StringType) {c : Char} {rest : List Char} (hc : c = '[' ∨ c = ' ') :
    genericString (t.keyword ++ (t.boundText ++ c :: rest)) = some (t.genericString, c :: rest) := by
  rw [genericString, bind_some (stringKeyword_keyword t _), StringType.boundText, StringType.genericString]
  cases t.bound with
  | none =>
    have hbound : opt (do tag "<=".toList; usizeLiteral) (c :: rest) = some (none, c :: rest) := by
      refine opt_none (bind_none ?_)
      obtain rfl | rfl := hc <;> rfl
    exact bind_some hbound
  | some n =>
    have hend : usizeLiteral (digits n ++ c :: rest) = some ((n : Nat), c :: rest) := by
      refine usizeLiteral_digits n ?_
      obtain rfl | rfl := hc <;> simp
    exact bind_some (opt_some ((bind_some (tag_append _ _)).trans hend))

theorem head_shape_text (shape : Shape) (rest : List Char) :
    ∃ c s, shape.text ++ ' ' :: rest = c :: s ∧ (c = '[' ∨ c = ' ') := by
  cases shape with
  | single => exact ⟨_, _, rfl, .inr rfl⟩
  | array | sequence | boundedSequence => exact ⟨_, _, rfl, .inl rfl⟩

theorem nestableType_text (t : StringType) (rest : List Char) :
    nestableType (t.text ++ ' ' :: rest) =
      some (.genericString t.genericString, t.shape.text ++ ' ' :: rest) := by
  obtain ⟨c, s, hshape, hc⟩ := head_shape_text t.shape rest
  rw [StringType.text, List.append_assoc, List.append_assoc, hshape, nestableType,
    orElse_none (bind_none (basicType_keyword t _))]
  exact orElse_some (bind_some (genericString_text t hc))

theorem typeEnd_blank (rest : List Char) : typeEnd (' ' :: rest) = some ((), ' ' :: rest) := by
  rw [typeEnd, peek, orElse_some (bind_some (run1_cons rfl rest))]
  rfl

theorem usizeLiteral_bracket (n : Fin (2 ^ 64)) (rest : List Char) :
    usizeLiteral (digits n ++ ']' :: rest) = some ((n : Nat), ']' :: rest) :=
  usizeLiteral_digits n (by simp)

theorem sequenceInfo_array (n : Fin (2 ^ 64)) (rest : List Char) :
    sequenceInfo ('[' :: (digits n ++ ']' :: rest)) = some ((none, some (n : Nat)), rest) := by
  have hbound : tag "<=".toList (digits n ++ ']' :: rest) = none := by
    obtain ⟨c, s, hd⟩ := List.exists_cons_of_ne_nil (digits_ne_nil n)
    have hc : c.isDigit = true := isDigit_of_mem_digits (n := n) (hd ▸ List.mem_cons_self)
    have hne : '<' ≠ c := fun heq => absurd (heq ▸ hc) (by decide)
    simp [hd, tag, List.isPrefixOf, hne]
  refine (bind_some (char_cons _ _)).trans ?_
  refine (bind_some (opt_none hbound)).trans ?_
  exact bind_some (opt_some (usizeLiteral_bracket n rest))

theorem parseMemberType_text (t : StringType) (rest : List Char) :
    parseMemberType (t.text ++ ' ' :: rest) = some (t.memberType, ' ' :: rest) := by
  rw [parseMemberType, bind_some (nestableType_text t rest), StringType.memberType]
  cases t.shape with
  | single =>
    have hinfo : sequenceInfo (' ' :: rest) = none := rfl
    exact (bind_some (opt_none hinfo)).trans (bind_some (typeEnd_blank rest))
  | array size =>
    have hinfo := sequenceInfo_array size (' ' :: rest)
    rw [Shape.text, List.cons_append, List.append_assoc, List.singleton_append, bind_some (opt_some hinfo),
      bind_some (typeEnd_blank rest)]
    rfl
  | sequence =>
    have hinfo : sequenceInfo ('[' :: ']' :: ' ' :: rest) = some ((none, none), ' ' :: rest) := rfl
    exact (bind_some (opt_some hinfo)).trans (bind_some (typeEnd_blank rest))
  | boundedSequence maxSize =>
    have hinfo : sequenceInfo ('[' :: '<' :: '=' :: (digits maxSize ++ ']' :: ' ' :: rest)) =
        some ((some (), some (maxSize : Nat)), ' ' :: rest) := by
      refine (bind_some (char_cons _ _)).trans ?_
      refine (bind_some (opt_some (tag_append _ _))).trans ?_
      exact bind_some (opt_some (usizeLiteral_bracket maxSize _))
    rw [Shape.text, List.cons_append, List.cons_append, List.cons_append, List.append_assoc,
      List.singleton_append, bind_some (opt_some hinfo), bind_some (typeEnd_blank rest)]
    rfl

theorem parseConstantType_text {t : StringType} {c : ConstantType} (h : t.constantType = some c)
    (rest : List Char) : parseConstantType (t.text ++ ' ' :: rest) = some (c, ' ' :: rest) := by
  obtain ⟨wide, bound, shape⟩ := t
  have hvalue (s : List Char) : primitiveType (StringType.keyword ⟨wide, bound, shape⟩ ++ s) =
      some (.genericUnboundedString (if wide then .wstring else .string), s) := by
    rw [primitiveType, orElse_none (bind_none (basicType_keyword _ s)), genericUnboundedString]
    exact bind_some (bind_some (stringKeyword_keyword _ s))
  rw [StringType.text, List.append_assoc, parseConstantType, bind_some (hvalue _)]
  -- the other types are none of a constant
  cases bound with
  | some n => cases h
  | none =>
    cases shape with
    | sequence | boundedSequence => cases h
    | single =>
      cases h
      have hsize : arraySize (' ' :: rest) = none := rfl
      exact (bind_some (opt_none hsize)).trans (bind_some (typeEnd_blank rest))
    | array size =>
      cases h
      have hsize : arraySize ('[' :: (digits size ++ ']' :: ' ' :: rest)) =
          some ((size : Nat), ' ' :: rest) :=
        (bind_some (char_cons _ _)).trans
          (bind_some (usizeLiteral_bracket size _))
      rw [StringType.boundText, Option.elim_none, List.nil_append, Shape.text, List.cons_append,
        List.append_assoc, List.singleton_append, bind_some (opt_some hsize), bind_some (typeEnd_blank rest)]
      rfl

end Dora.MsgGen
