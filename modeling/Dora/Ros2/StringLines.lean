import Dora.Ros2.StringValues

/-!
# Lines with string values

A declaration gives the default of a string member or the value of a string constant. The parser reads the
start of its line back; what becomes of the value depends on what is left of its text when the comment has
been cut off.
-/

namespace Dora.MsgGen

open Lib Parser

inductive Use where
  | default
  /-- With the numbers of blanks around the sign. -/
  | constant (type : ConstantType) (before after : Nat)

namespace Use

def sign : Use → List Char
  | default => [' ']
  | constant _ before after => List.replicate before ' ' ++ '=' :: List.replicate after ' '

def name : Use → Parser (List Char)
  | default => memberName
  | constant .. => constantName

def typed : Use → StringType → Prop
  | default, _ => True
  | constant type .., t => t.constantType = some type

end Use

def Shape.admits : Shape → Nat → Prop
  | .single, n => n = 1
  | .array size, n => n = size
  | .sequence, _ => True
  | .boundedSequence maxSize, n => n ≤ maxSize

structure Declaration where
  use : Use
  type : StringType
  name : String
  values : List String
  typed : use.typed type
  named : use.name name.toList = some (name.toList, [])
  written : ∀ v ∈ values, Writable v
  nonempty : values ≠ []
  counted : type.shape.admits values.length
  fits : ∀ v ∈ values, type.genericString.fits v = true

namespace Declaration

variable (d : Declaration)

/-- The line up to the value. -/
def start : List Char := d.type.text ++ ' ' :: (d.name.toList ++ d.use.sign)

def message (package name : String) : Message :=
  match d.use with
  | .default => ⟨package, name, [⟨d.name, d.type.memberType, some d.values⟩], []⟩
  | .constant type _ _ => ⟨package, name, [], [⟨d.name, type, d.values⟩]⟩

end Declaration

def isWord (c : Char) : Bool := c.isAlphanum || c == '_'

theorem stops_name (use : Use) : Stops use.name isWord := by
  have hsign : Stops (char '_') isWord := .satisfy fun c hc => by simp [isWord, hc]
  cases use with
  | default =>
    have hlower : Stops (satisfy Char.isLower) isWord :=
      .satisfy fun c hc => by simp [isWord, Char.isAlphanum, Char.isAlpha, hc]
    have hrun : Stops (run1 isLowerOrDigit) isWord := .run1 fun c hc => by
      obtain hc | hc := Bool.or_eq_true_iff.mp hc <;> simp [isWord, Char.isAlphanum, Char.isAlpha, hc]
    exact .recognize (hlower.bind fun _ => hsign.opt.bind fun _ => hsign.separatedList0 hrun)
  | constant =>
    have hrun : Stops (run1 fun c => c.isUpper || c.isDigit) isWord := .run1 fun c hc => by
      obtain hc | hc := Bool.or_eq_true_iff.mp hc <;> simp [isWord, Char.isAlphanum, Char.isAlpha, hc]
    exact .recognize (hsign.separatedList1 hrun)

/-- Neither white space nor a sign that ends or starts something. -/
def isInner (c : Char) : Bool := !isWhitespace c && c != '#' && c != '"' && c != '\''

theorem toNat_of_isWord {c : Char} (hc : isWord c = true) :
    48 ≤ c.toNat ∧ c.toNat ≤ 57 ∨ 65 ≤ c.toNat ∧ c.toNat ≤ 90 ∨ c.toNat = 95 ∨
      97 ≤ c.toNat ∧ c.toNat ≤ 122 := by
  simp only [isWord, Char.isAlphanum, Char.isAlpha, Char.isUpper, Char.isLower, Char.isDigit, Bool.or_eq_true,
    Bool.and_eq_true, decide_eq_true_eq, beq_iff_eq, ge_iff_le, UInt32.le_iff_toNat_le] at hc
  obtain ((hc | hc) | hc) | rfl := hc
  · exact .inr (.inl hc)
  · exact .inr (.inr (.inr hc))
  · exact .inl hc
  · decide

theorem isInner_of_isWord {c : Char} (hc : isWord c = true) : isInner c = true ∧ c ≠ '=' := by
  have hn := toNat_of_isWord hc
  have hwhite : isWhitespace c = false := by
    simp [isWhitespace]
    omega
  have hne (d : Char) (hd : isWord d = false) : c ≠ d := fun heq => by simp [heq ▸ hc] at hd
  simp [isInner, hwhite, hne '#' rfl, hne '"' rfl, hne '\'' rfl, hne '=' rfl]

theorem isInner_digits (n : Fin (2 ^ 64)) : (digits n).all isInner = true :=
  List.all_eq_true.mpr fun c hc =>
    (isInner_of_isWord (by simp [isWord, Char.isAlphanum, isDigit_of_mem_digits hc])).1

theorem isInner_text {t : StringType} {c : Char} (hc : c ∈ t.text) : isInner c = true := by
  have hkey : t.keyword.all isInner = true := by
    unfold StringType.keyword
    cases t.wide <;> rfl
  have hbound : t.boundText.all isInner = true := by
    unfold StringType.boundText
    cases t.bound with
    | none => rfl
    | some n => exact isInner_digits n
  have hbracket : [']'].all isInner = true := rfl
  have hshape : t.shape.text.all isInner = true := by
    cases t.shape with
    | single | sequence => rfl
    | array n | boundedSequence n => exact List.all_append.trans (by rw [isInner_digits, hbracket]; rfl)
  refine List.all_eq_true.mp ?_ c hc
  rw [StringType.text, List.all_append, List.all_append, hkey, hbound, hshape]
  rfl

theorem isWhitespace_of_isInner {c : Char} (hc : isInner c = true) : isWhitespace c = false := by
  simp only [isInner, Bool.and_eq_true, Bool.not_eq_true'] at hc
  exact hc.1.1.1

/-- A character that neither starts a comment nor ends something. -/
def isClean (c : Char) : Bool := c != '#' && c != '"' && c != '\'' && c != '\n'

theorem isClean_of_isInner {c : Char} (hc : isInner c = true) : isClean c = true := by
  have hline : c ≠ '\n' := fun heq => absurd (isWhitespace_of_isInner (heq ▸ hc)) (by decide)
  simp only [isInner, Bool.and_eq_true] at hc
  simp only [isClean, hc.1.1.2, hc.1.2, hc.2, Bool.and_self, Bool.true_and, bne_iff_ne]
  exact hline

theorem Declaration.start_clean (d : Declaration) {c : Char} (hc : c ∈ d.start) : isClean c = true := by
  have hsign : d.use.sign.all isClean = true := by
    cases d.use with
    | default => rfl
    | constant type before after =>
      have hblanks (n : Nat) : (List.replicate n ' ').all isClean = true := by
        rw [List.all_replicate]
        split <;> rfl
      rw [Use.sign, List.all_append, List.all_cons, hblanks, hblanks]
      rfl
  obtain hc | hc := List.mem_append.mp hc
  · exact isClean_of_isInner (isInner_text hc)
  obtain rfl | hc := List.mem_cons.mp hc
  · rfl
  obtain hc | hc := List.mem_append.mp hc
  · exact isClean_of_isInner (isInner_of_isWord ((stops_name d.use).forall_mem d.named c hc)).1
  · exact List.all_eq_true.mp hsign c hc

theorem space1_blank {rest : List Char} (h : ∀ c ∈ rest.head?, isBlank c = false) :
    space1 (' ' :: rest) = some ([' '], rest) :=
  run1_append (List.cons_ne_nil ' ' []) (by simp [isBlank]) h

theorem space0_replicate {rest : List Char} (n : Nat) (h : ∀ c ∈ rest.head?, isBlank c = false) :
    space0 (List.replicate n ' ' ++ rest) = some (List.replicate n ' ', rest) :=
  run0_append (fun c hc => by simp [List.eq_of_mem_replicate hc, isBlank]) h

theorem blank_after_word {s : List Char} : ∀ c ∈ (s.dropWhile (!isBlank ·)).head?, isBlank c = true :=
  fun c hc => by simpa using head_dropWhile c hc

theorem mem_getLast?_append {c : Char} {s rest : List Char} (hc : c ∈ rest.getLast?) :
    c ∈ (s ++ rest).getLast? := by
  rw [List.getLast?_append, Option.mem_def.mp hc]
  rfl

theorem separatedMore_words {s : List Char} {n : Nat} (hhead : ∀ c ∈ s.head?, isBlank c = true)
    (hlast : ∀ c ∈ s.getLast?, isBlank c = false) (hn : s.length < n) :
    ∃ words, separatedMore space1 (run1 (!isBlank ·)) n s = some (words, []) := by
  induction n generalizing s with
  | zero => omega
  | succ n ih =>
    cases s with
    | nil => exact ⟨[], separatedMore_none rfl⟩
    | cons c s =>
      have hc : isBlank c = true := hhead c rfl
      -- the blanks end before the last character, and a word starts there
      obtain ⟨d, r, hr⟩ : ∃ d r, s.dropWhile isBlank = d :: r := by
        refine List.exists_cons_of_ne_nil fun hnil => ?_
        have hall : ∀ d ∈ c :: s, isBlank d = true :=
          List.dropWhile_eq_nil_iff.mp (by rw [List.dropWhile_cons_of_pos hc, hnil])
        have hend := List.getLast?_eq_some_getLast (List.cons_ne_nil c s)
        exact absurd (hall _ (List.getLast_mem (List.cons_ne_nil c s))) (by simp [hlast _ hend])
      have hd : isBlank d = false := head_dropWhile d (by rw [hr]; rfl)
      have hspace : space1 (c :: s) = some (c :: s.takeWhile isBlank, d :: r) := hr ▸ run1_cons hc s
      have hstep := (bind_some (f := fun _ => run1 (!isBlank ·)) hspace).trans (run1_cons (by simp [hd]) r)
      have htext : c :: s = (c :: s.takeWhile isBlank) ++ (d :: r.takeWhile (!isBlank ·)) ++
          r.dropWhile (!isBlank ·) := by
        simp only [List.append_assoc, List.cons_append, List.takeWhile_append_dropWhile, ← hr]
      have hshorter : (r.dropWhile (!isBlank ·)).length < (c :: s).length := by
        rw [htext]
        simp only [List.length_append, List.length_cons]
        omega
      have hend : ∀ e ∈ (r.dropWhile (!isBlank ·)).getLast?, isBlank e = false := fun e he =>
        hlast e (htext ▸ mem_getLast?_append he)
      obtain ⟨words, hwords⟩ := ih blank_after_word hend (by omega)
      rw [separatedMore, hstep]
      dsimp only
      rw [if_pos hshorter, hwords]
      exact ⟨_, rfl⟩

theorem valueText_eq {s : List Char} (hne : s ≠ []) (hhead : ∀ c ∈ s.head?, isBlank c = false)
    (hlast : ∀ c ∈ s.getLast?, isBlank c = false) : valueText s = some (s, []) := by
  obtain ⟨c, s, rfl⟩ := List.exists_cons_of_ne_nil hne
  have hword : run1 (!isBlank ·) (c :: s) =
      some (c :: s.takeWhile (!isBlank ·), s.dropWhile (!isBlank ·)) := run1_cons (by simp [hhead c rfl]) s
  have htext : c :: s = (c :: s.takeWhile (!isBlank ·)) ++ s.dropWhile (!isBlank ·) := by
    rw [List.cons_append, List.takeWhile_append_dropWhile]
  have hend : ∀ e ∈ (s.dropWhile (!isBlank ·)).getLast?, isBlank e = false := fun e he =>
    hlast e (htext ▸ mem_getLast?_append he)
  obtain ⟨words, hwords⟩ := separatedMore_words blank_after_word hend (Nat.lt_succ_self _)
  have hlist : separatedList1 space1 (run1 (!isBlank ·)) (c :: s) =
      some ((c :: s.takeWhile (!isBlank ·)) :: words, []) := by
    rw [separatedList1, hword, Option.bind_some]
    dsimp only
    rw [hwords]
    rfl
  rw [valueText, recognize, hlist]
  simp

/-- What may be left of a value: it starts like one and was trimmed. -/
structure Remains (text : List Char) : Prop where
  head : ∃ c rest, text = c :: rest ∧ (c = '"' ∨ c = '[')
  last : ∀ c ∈ text.getLast?, isWhitespace c = false

theorem isWhitespace_of_isBlank {c : Char} (hc : isBlank c = true) : isWhitespace c = true := by
  obtain hc | hc := Bool.or_eq_true_iff.mp hc <;> rw [beq_iff_eq.mp hc] <;> rfl

namespace Remains

variable {text : List Char} (h : Remains text)
include h

theorem head_not_blank : ∀ c ∈ text.head?, isBlank c = false := by
  obtain ⟨c, rest, rfl, rfl | rfl⟩ := h.head <;> simp [isBlank]

theorem valueText_eq : valueText text = some (text, []) := by
  refine MsgGen.valueText_eq ?_ h.head_not_blank fun c hc => ?_
  · obtain ⟨c, rest, rfl, -⟩ := h.head
    exact List.cons_ne_nil c rest
  · by_contra hblank
    simpa [isWhitespace_of_isBlank (Bool.not_eq_false _ ▸ hblank)] using h.last c hc

end Remains

namespace Declaration

section

variable (d : Declaration) (text : List Char)

theorem start_append : d.start ++ text = d.type.text ++ ' ' :: (d.name.toList ++ (d.use.sign ++ text)) := by
  simp [start]

theorem head_name : ∃ c s, d.name.toList = c :: s ∧ isWord c = true := by
  cases hname : d.name.toList with
  | nil =>
    have hread := hname ▸ d.named
    cases huse : d.use <;> rw [huse] at hread <;> cases hread
  | cons c s =>
    exact ⟨c, s, rfl, (stops_name d.use).forall_mem d.named c (hname ▸ List.mem_cons_self)⟩

theorem head_sign : ∃ c s, d.use.sign ++ text = c :: s ∧ (c = ' ' ∨ c = '=') := by
  cases d.use with
  | default => exact ⟨_, _, rfl, .inl rfl⟩
  | constant type before after =>
    cases before with
    | zero => exact ⟨_, _, rfl, .inr rfl⟩
    | succ before => exact ⟨_, _, rfl, .inl rfl⟩

/-- The name is read up to the sign. -/
theorem name_append : d.use.name (d.name.toList ++ (d.use.sign ++ text)) =
    some (d.name.toList, d.use.sign ++ text) := by
  refine (stops_name d.use).append d.named ?_
  obtain ⟨c, s, hsign, rfl | rfl⟩ := head_sign d text <;> simp [hsign, isWord]

theorem space1_name : space1 (' ' :: (d.name.toList ++ (d.use.sign ++ text))) =
    some ([' '], d.name.toList ++ (d.use.sign ++ text)) := by
  refine space1_blank ?_
  obtain ⟨c, s, hname, hc⟩ := head_name d
  have hblank : isBlank c = false := by
    by_contra hblank
    have hwhite := isWhitespace_of_isBlank (Bool.not_eq_false _ ▸ hblank)
    simp [isWhitespace_of_isInner (isInner_of_isWord hc).1] at hwhite
  simp [hname, hblank]

end

variable {d : Declaration} {text : List Char}

theorem memberParts_eq (huse : d.use = .default) (h : Remains text) :
    memberParts (d.start ++ text) = some ((d.type.memberType, d.name.toList, some text), []) := by
  have hname := name_append d text
  have hdefault : (do let _ ← space1; valueText : Parser (List Char)) (' ' :: text) = some (text, []) := by
    rw [bind_some (space1_blank h.head_not_blank), h.valueText_eq]
  rw [start_append, memberParts, bind_some (parseMemberType_text _ _), bind_some (space1_name d text)]
  rw [huse] at hname ⊢
  exact (bind_some hname).trans (bind_some (opt_some hdefault))

theorem constantParts_eq {type : ConstantType} {before after : Nat}
    (huse : d.use = .constant type before after) (h : Remains text) :
    constantParts (d.start ++ text) = some ((type, d.name.toList, text), []) := by
  have hname := name_append d text
  have htype := d.typed
  have hsign : space0 ((Use.constant type before after).sign ++ text) =
      some (List.replicate before ' ', '=' :: (List.replicate after ' ' ++ text)) := by
    rw [Use.sign, List.append_assoc, List.cons_append]
    exact space0_replicate before (by simp [isBlank])
  rw [huse] at hname htype
  rw [start_append, constantParts, bind_some (parseConstantType_text htype _),
    bind_some (space1_name d text), huse]
  refine (bind_some hname).trans ?_
  rw [bind_some hsign, bind_some (char_cons _ _), bind_some (space0_replicate after h.head_not_blank),
    bind_some h.valueText_eq]
  rfl

/-- Whether a line gives a constant is decided by what follows the name. -/
theorem isConstant_eq :
    isConstant (d.start ++ text) = (((d.use.sign ++ text).dropWhile isWhitespace).head? == some '=') := by
  have htype : ∀ c ∈ d.type.text, (c != ' ') = true := fun c hc => by
    have hwhite := isWhitespace_of_isInner (isInner_text hc)
    refine bne_iff_ne.mpr fun heq => ?_
    rw [heq] at hwhite
    exact absurd hwhite (by decide)
  have hword : ∀ c ∈ d.name.toList, (!isWhitespace c && c != '=') = true := fun c hc => by
    have hinner := isInner_of_isWord ((stops_name d.use).forall_mem d.named c hc)
    simp [isWhitespace_of_isInner hinner.1, hinner.2]
  obtain ⟨c, s, hname, hc⟩ := head_name d
  obtain ⟨e, r, hsign, he⟩ := head_sign d text
  have hstart : (d.name.toList ++ (d.use.sign ++ text)).dropWhile isWhitespace =
      d.name.toList ++ (d.use.sign ++ text) := by
    simp [hname, isWhitespace_of_isInner (isInner_of_isWord hc).1]
  have hend : (d.use.sign ++ text).dropWhile (fun c => !isWhitespace c && c != '=') = d.use.sign ++ text := by
    obtain rfl | rfl := he
    · have hwhite : isWhitespace ' ' = true := rfl
      simp [hsign, hwhite]
    · simp [hsign]
  rw [start_append, isConstant, List.dropWhile_append_of_pos htype]
  simp only [List.dropWhile_cons_of_neg, bne_self_eq_false, Bool.false_eq_true, not_false_eq_true]
  rw [hstart, List.dropWhile_append_of_pos hword, hend]

theorem isConstant_default (huse : d.use = .default) (h : Remains text) :
    isConstant (d.start ++ text) = false := by
  rw [isConstant_eq, huse]
  obtain ⟨c, rest, rfl, rfl | rfl⟩ := h.head <;> rfl

theorem isConstant_constant {type : ConstantType} {before after : Nat}
    (huse : d.use = .constant type before after) : isConstant (d.start ++ text) = true := by
  have hblanks : ∀ c ∈ List.replicate before ' ', isWhitespace c = true := fun c hc => by
    rw [List.eq_of_mem_replicate hc]
    rfl
  rw [isConstant_eq, huse, Use.sign, List.append_assoc, List.dropWhile_append_of_pos hblanks]
  rfl

end Declaration

theorem verify_eq_some {α : Type} {p : Parser α} {q : α → Bool} {s rest : List Char} {a : α} :
    verify p q s = some (a, rest) ↔ p s = some (a, rest) ∧ q a = true := by
  cases hp : p s with
  | none =>
    rw [verify, bind_none hp]
    simp
  | some x =>
    rw [verify, bind_some hp]
    constructor
    · intro h
      split at h
      · cases h
        exact ⟨rfl, by assumption⟩
      · cases h
    · rintro ⟨h, hq⟩
      cases h
      exact congrFun (if_pos hq) rest

theorem whole_eq_ok {α : Type} {p : Parser α} {e : String → RclMsgError} {text : List Char} {a : α} :
    whole p e text = .ok a ↔ p text = some (a, []) := by
  rw [whole]
  cases hp : p text with
  | none => exact ⟨nofun, nofun⟩
  | some x =>
    obtain ⟨b, rest⟩ := x
    dsimp only
    split
    · rename_i hrest
      subst hrest
      simp
    · rename_i hrest
      simp [hrest]

theorem ensure_eq_ok {condition : Bool} {u : Unit} : ensure condition = .ok u ↔ condition = true := by
  cases condition with
  | true => exact ⟨fun _ => rfl, fun _ => rfl⟩
  | false => exact ⟨nofun, nofun⟩

/-- The values that a text is read as. -/
def Shape.read : Shape → List Char → Option (List String × List Char)
  | .single, text => (stringLiteral text).map fun (value, rest) => ([value], rest)
  | _, text => stringLiteralSequence text

variable (basicLiteral : BasicType → Parser String)

namespace Declaration

variable {d : Declaration} {text : List Char}

theorem stringLiteral_iff {values : List String} :
    (∃ value, stringLiteral text = some (value, []) ∧ [value] = values) ↔
      Shape.single.read text = some (values, []) := by
  rw [Shape.read, Option.map_eq_some_iff]
  constructor
  · rintro ⟨value, hread, rfl⟩
    exact ⟨(value, []), hread, rfl⟩
  · rintro ⟨⟨value, rest⟩, hread, h⟩
    obtain ⟨hvalue, rfl⟩ := Prod.mk.inj h
    exact ⟨value, hread, hvalue⟩

theorem ensured_iff {x : Except RclMsgError (List String)} {values : List String} {p : List String → Bool}
    (hp : p values = true) :
    (do let v ← x; ensure (p v); return v) = .ok values ↔ x = .ok values := by
  simp only [bind_eq_ok, ensure_eq_ok]
  constructor
  · rintro ⟨v, hx, u, -, h⟩
    cases h
    exact hx
  · exact fun hx => ⟨values, hx, (), hp, rfl⟩

theorem arrayTypeDefault_iff :
    arrayTypeDefault basicLiteral (.genericString d.type.genericString) text = .ok d.values ↔
      stringLiteralSequence text = some (d.values, []) :=
  (ensured_iff (List.all_eq_true.mpr d.fits)).trans whole_eq_ok

theorem validateDefault_iff : validateDefault basicLiteral d.type.memberType text = .ok d.values ↔
    d.type.shape.read text = some (d.values, []) := by
  have hcounted := d.counted
  unfold StringType.memberType
  cases hshape : d.type.shape with
  | single =>
    rw [← stringLiteral_iff]
    simp only [validateDefault, nestableTypeDefault, getStringLiteralParser, bind_eq_ok, whole_eq_ok,
      verify_eq_some]
    constructor
    · exact fun ⟨value, hread, h⟩ => ⟨value, hread.1, Except.ok.inj h⟩
    · intro ⟨value, hread, h⟩
      have hmem : value ∈ d.values := h ▸ List.mem_cons_self
      exact ⟨value, ⟨hread, d.fits value hmem⟩, congrArg Except.ok h⟩
  | sequence => exact arrayTypeDefault_iff basicLiteral
  | array size | boundedSequence maxSize =>
    simp only [hshape, Shape.admits] at hcounted
    exact (ensured_iff (decide_eq_true hcounted)).trans (arrayTypeDefault_iff basicLiteral)

theorem validateValue_iff {type : ConstantType} (htype : d.type.constantType = some type) :
    validateValue basicLiteral type text = .ok d.values ↔ d.type.shape.read text = some (d.values, []) := by
  have hcounted := d.counted
  unfold StringType.constantType at htype
  cases hbound : d.type.bound with
  | some n => simp [hbound] at htype
  | none =>
    cases hshape : d.type.shape with
    | sequence | boundedSequence => simp [hbound, hshape] at htype
    | single =>
      simp only [hbound, hshape, Option.some.injEq] at htype
      subst htype
      rw [← stringLiteral_iff]
      simp only [validateValue, bind_eq_ok, whole_eq_ok]
      constructor
      · exact fun ⟨value, hread, h⟩ => ⟨value, hread, Except.ok.inj h⟩
      · exact fun ⟨value, hread, h⟩ => ⟨value, hread, congrArg Except.ok h⟩
    | array size =>
      simp only [hbound, hshape, Option.some.injEq] at htype
      subst htype
      simp only [hshape, Shape.admits] at hcounted
      exact (ensured_iff (decide_eq_true hcounted)).trans whole_eq_ok

theorem parseLine_iff {line : List Char} {package name : String} (h : Remains text)
    (hline : trim (.ofList (stripComment line)) = .ofList (d.start ++ text)) :
    parseLine basicLiteral ⟨package, name, [], []⟩ line = .ok (d.message package name) ↔
      d.type.shape.read text = some (d.values, []) := by
  have hne : d.start ++ text ≠ [] := by
    obtain ⟨c, rest, rfl, -⟩ := h.head
    simp
  rw [parseLine, hline, String.toList_ofList, if_neg hne, message]
  cases huse : d.use with
  | default =>
    rw [if_neg (by simp [isConstant_default huse h]), memberDef, memberParts_eq huse h]
    simp only [bind_eq_ok]
    rw [← validateDefault_iff basicLiteral]
    constructor
    · rintro ⟨member, ⟨values, hvalid, hmember⟩, h⟩
      cases hmember
      have hvalues : values = d.values := by simpa [pure, Except.pure] using h
      exact hvalues ▸ hvalid
    · exact fun hvalid => ⟨_, ⟨_, hvalid, rfl⟩, by rw [String.ofList_toList]; rfl⟩
  | constant type before after =>
    rw [if_pos (isConstant_constant huse), constantDef, constantParts_eq huse h]
    have htype := d.typed
    rw [huse] at htype
    simp only [bind_eq_ok]
    rw [← validateValue_iff basicLiteral htype]
    constructor
    · rintro ⟨constant, ⟨values, hvalid, hconstant⟩, h⟩
      cases hconstant
      have hvalues : values = d.values := by simpa [pure, Except.pure] using h
      exact hvalues ▸ hvalid
    · exact fun hvalid => ⟨_, ⟨_, hvalid, rfl⟩, by rw [String.ofList_toList]; rfl⟩

end Declaration

end Dora.MsgGen
