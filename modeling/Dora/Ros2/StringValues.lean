import Dora.Ros2.StringTypes

/-!
# String values in interface files

A value stands in double quotes, with a backslash before each double quote of its own; several stand in
brackets. The literal parsers read them back, and they read nothing of a text that ends inside a value.
-/

namespace Dora.MsgGen

open Lib Parser

def escaped (value : List Char) : List Char := value.flatMap fun c => if c = '"' then ['\\', '"'] else [c]

def quoteText (value : String) : List Char := '"' :: (escaped value.toList ++ ['"'])

def furtherItems (values : List String) : List Char := values.flatMap fun v => ',' :: ' ' :: quoteText v

def items : List String → List Char
  | [] => []
  | value :: values => quoteText value ++ furtherItems values

def Shape.literal : Shape → List String → List Char
  | .single, values => items values
  | _, values => '[' :: (items values ++ [']'])

/-- A backslash would be read as one or as an escape, and what is read is trimmed. -/
structure Writable (value : String) : Prop where
  backslash : '\\' ∉ value.toList
  line : '\n' ∉ value.toList
  trimmed : trim value = value

theorem escaped_cons (c : Char) (value : List Char) :
    escaped (c :: value) = (if c = '"' then ['\\', '"'] else [c]) ++ escaped value :=
  List.flatMap_cons

theorem unescape_cons {c : Char} (hquote : c ≠ '"') (hback : c ≠ '\\') (s : List Char) :
    unescape '"' (c :: s) = (c :: (unescape '"' s).1, (unescape '"' s).2) := by
  cases s with
  | nil => simp [unescape, hquote]
  | cons d s => simp [unescape, hquote, hback]

theorem unescape_escaped {value rest : List Char} (hback : '\\' ∉ value)
    (hrest : ∀ c ∈ rest.head?, c = '"') : unescape '"' (escaped value ++ rest) = (value, rest) := by
  induction value with
  | nil =>
    cases rest with
    | nil => rfl
    | cons c rest => cases rest <;> simp [escaped, unescape, hrest c rfl]
  | cons c value ih =>
    have hvalue := ih fun hmem => hback (List.mem_cons_of_mem c hmem)
    rw [escaped_cons]
    by_cases hc : c = '"'
    · subst hc
      simp [unescape, hvalue]
    · have hne : c ≠ '\\' := fun heq => hback (heq ▸ List.mem_cons_self)
      rw [if_neg hc, List.singleton_append, List.cons_append, unescape_cons hc hne, hvalue]

theorem quoted_quoteText {value : String} (h : Writable value) (rest : List Char) :
    quoted '"' (quoteText value ++ rest) = some (value, rest) := by
  have hbody : unescape '"' (escaped value.toList ++ '"' :: rest) = (value.toList, '"' :: rest) :=
    unescape_escaped h.backslash (by simp)
  rw [quoteText, List.cons_append, List.append_assoc, List.singleton_append, quoted,
    bind_some (char_cons _ _), bind_some (congrArg some hbody), bind_some (char_cons _ _),
    String.ofList_toList, h.trimmed]
  rfl

theorem quoted_unclosed {text : List Char} (hback : '\\' ∉ text) :
    quoted '"' ('"' :: escaped text) = none := by
  have hbody : unescape '"' (escaped text ++ []) = (text, []) := unescape_escaped hback (by simp)
  rw [List.append_nil] at hbody
  rw [quoted, bind_some (char_cons _ _), bind_some (congrArg some hbody)]
  rfl

theorem stringLiteral_quoteText {value : String} (h : Writable value) (rest : List Char) :
    stringLiteral (quoteText value ++ rest) = some (value, rest) :=
  orElse_some (quoted_quoteText h rest)

/-- The opening quote alone is an empty string. -/
theorem stringLiteral_unclosed {text : List Char} (hback : '\\' ∉ text) :
    stringLiteral ('"' :: escaped text) = some ("", escaped text) := by
  have hsingle : quoted '\'' ('"' :: escaped text) = none := rfl
  rw [stringLiteral, orElse_none (quoted_unclosed hback), orElse_none hsingle]
  exact orElse_some rfl

theorem space0_of_head {s : List Char} (h : ∀ c ∈ s.head?, isBlank c = false) : space0 s = some ([], s) := by
  have hrun : run0 isBlank ([] ++ s) = some ([], s) := run0_append (by simp) h
  exact hrun

theorem spaced_quoteText {value : String} (h : Writable value) {s rest : List Char} {blanks : List Char}
    (hblanks : space0 s = some (blanks, quoteText value ++ rest))
    (hrest : ∀ c ∈ rest.head?, isBlank c = false) :
    spaced sequenceElement s = some (value, rest) := by
  have hend := space0_of_head hrest
  have helem : sequenceElement (quoteText value ++ rest) = some (value, rest) :=
    orElse_some (quoted_quoteText h rest)
  rw [spaced, bind_some hblanks, bind_some helem, bind_some hend]
  rfl

theorem spaced_unclosed {text s blanks : List Char} (hback : '\\' ∉ text)
    (hblanks : space0 s = some (blanks, '"' :: escaped text)) : spaced sequenceElement s = none := by
  have helem : sequenceElement ('"' :: escaped text) = none := by
    rw [sequenceElement, orElse_none (quoted_unclosed hback)]
    rfl
  rw [spaced, bind_some hblanks, bind_none helem]

theorem head_furtherItems {values : List String} {rest : List Char}
    (hrest : ∀ c ∈ rest.head?, isBlank c = false) :
    ∀ c ∈ (furtherItems values ++ rest).head?, isBlank c = false := by
  cases values with
  | nil => exact hrest
  | cons value values => simp [furtherItems, isBlank]

theorem separatedMore_furtherItems {values : List String} {rest : List Char} {n : Nat}
    (hvalues : ∀ v ∈ values, Writable v) (hrest : ∀ c ∈ rest.head?, isBlank c = false)
    (hend : (do let _ ← char ','; spaced sequenceElement : Parser String) rest = none)
    (hn : (furtherItems values ++ rest).length < n) :
    separatedMore (char ',') (spaced sequenceElement) n (furtherItems values ++ rest) =
      some (values, rest) := by
  induction values generalizing n with
  | nil => exact separatedMore_none hend
  | cons value values ih =>
    have htext : furtherItems (value :: values) ++ rest =
        ',' :: ' ' :: (quoteText value ++ (furtherItems values ++ rest)) := by
      simp [furtherItems]
    have hmore := ih (fun v hv => hvalues v (List.mem_cons_of_mem value hv)) (Nat.lt_succ_self _)
    have hstep : (do let _ ← char ','; spaced sequenceElement : Parser String)
        (furtherItems (value :: values) ++ rest) = some (value, furtherItems values ++ rest) := by
      rw [htext, bind_some (char_cons _ _)]
      exact spaced_quoteText (hvalues value List.mem_cons_self) rfl (head_furtherItems hrest)
    have hshorter : (furtherItems values ++ rest).length <
        (furtherItems (value :: values) ++ rest).length := by
      simp only [htext, List.length_cons, List.length_append]
      omega
    rw [separatedMore_some hstep hshorter hn, hmore]
    rfl

theorem separatedList1_items {value : String} {values : List String} {rest : List Char}
    (hvalues : ∀ v ∈ value :: values, Writable v) (hrest : ∀ c ∈ rest.head?, isBlank c = false)
    (hend : (do let _ ← char ','; spaced sequenceElement : Parser String) rest = none) :
    separatedList1 (char ',') (spaced sequenceElement) (items (value :: values) ++ rest) =
      some (value :: values, rest) := by
  have hfirst : spaced sequenceElement (quoteText value ++ (furtherItems values ++ rest)) =
      some (value, furtherItems values ++ rest) :=
    spaced_quoteText (hvalues value List.mem_cons_self) rfl (head_furtherItems hrest)
  have hmore := separatedMore_furtherItems (fun v hv => hvalues v (List.mem_cons_of_mem value hv)) hrest hend
    (Nat.lt_succ_self _)
  rw [items, List.append_assoc, separatedList1, hfirst, Option.bind_some]
  dsimp only
  rw [hmore]
  rfl

theorem sequenceItems_items {values : List String} (hne : values ≠ []) (hvalues : ∀ v ∈ values, Writable v) :
    sequenceItems (items values) = some (values, []) := by
  obtain ⟨value, values, rfl⟩ := List.exists_cons_of_ne_nil hne
  have hblanks : space0 (items (value :: values)) = some ([], items (value :: values)) := rfl
  have hlist : separatedList1 (char ',') (spaced sequenceElement) (items (value :: values) ++ []) =
      some (value :: values, []) := separatedList1_items hvalues (by simp) rfl
  rw [List.append_nil] at hlist
  rw [sequenceItems, bind_some hblanks]
  exact bind_some hlist

/-- Values of which the last has no closing quote. -/
def unclosedItems (before : List String) (text : List Char) : List Char :=
  items before ++ ((if before = [] then [] else [',', ' ']) ++ '"' :: escaped text)

theorem sequenceItems_unclosed {before : List String} {text : List Char} (hbefore : ∀ v ∈ before, Writable v)
    (hback : '\\' ∉ text) : sequenceItems (unclosedItems before text) = none := by
  cases before with
  | nil =>
    have hblanks : space0 ('"' :: escaped text) = some ([], '"' :: escaped text) := rfl
    have hlist : separatedList1 (char ',') (spaced sequenceElement) ('"' :: escaped text) = none := by
      rw [separatedList1, spaced_unclosed hback hblanks]
      rfl
    exact (bind_some hblanks).trans (bind_none hlist)
  | cons value values =>
    have hblanks : space0 (unclosedItems (value :: values) text) =
        some ([], unclosedItems (value :: values) text) := rfl
    have hend : (do let _ ← char ','; spaced sequenceElement : Parser String)
        (',' :: ' ' :: '"' :: escaped text) = none := by
      rw [bind_some (char_cons _ _)]
      exact spaced_unclosed hback rfl
    have hlist := separatedList1_items hbefore (by simp [isBlank]) hend
    rw [sequenceItems, bind_some hblanks]
    exact bind_some hlist

end Dora.MsgGen
