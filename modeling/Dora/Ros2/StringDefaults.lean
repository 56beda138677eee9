import Dora.Ros2.StringLines

/-!
# String values and comments (`parse_message_string`)

Comments are cut off before a line is parsed. For the types `string` and `wstring` the scan follows the
quotes, though not the backslashes before them; for all others a line ends at the first hash sign. A value is
read as it was written when the scan does not cut it and does find the end of its quotes.
-/

namespace Dora.MsgGen

open Lib Parser

structure Comment where
  text : String
  line : '\n' ∉ text.toList

def commentText (comment : Option Comment) : List Char :=
  comment.elim [] fun comment => ' ' :: '#' :: comment.text.toList

def StringType.plain (t : StringType) : Prop := t.bound = none ∧ t.shape = .single

instance StringType.decidablePlain (t : StringType) : Decidable t.plain :=
  inferInstanceAs (Decidable (t.bound = none ∧ t.shape = .single))

/-- Whether there is a hash sign where the scan is outside quotes. -/
def hashOutside (inQuotes : Option Char) : List Char → Bool
  | [] => false
  | c :: s => c == '#' && inQuotes.isNone || hashOutside (nextQuote inQuotes c) s

namespace Declaration

variable (d : Declaration) (comment : Option Comment)

def line : List Char := d.start ++ (d.type.shape.literal d.values ++ commentText comment)

def Survives : Prop :=
  if d.type.plain then
    ∀ v ∈ d.values, hashOutside (some '"') v.toList = false ∧
      (comment.isSome = true → v.toList.foldl nextQuote (some '"') = some '"')
  else ∀ v ∈ d.values, '#' ∉ v.toList

end Declaration

theorem nextQuote_of_clean {c : Char} (hc : isClean c = true) (inQuotes : Option Char) :
    nextQuote inQuotes c = inQuotes := by
  simp only [isClean, Bool.and_eq_true, bne_iff_ne] at hc
  simp [nextQuote, hc.1.1.2, hc.1.2]

theorem stripQuoted_clean {s : List Char} (hs : ∀ c ∈ s, isClean c = true) (inQuotes : Option Char)
    (haveQuotes : Bool) (before : Char) (rest : List Char) :
    ∃ last, stripQuoted inQuotes haveQuotes before (s ++ rest) =
      s ++ stripQuoted inQuotes haveQuotes last rest := by
  induction s generalizing before with
  | nil => exact ⟨before, rfl⟩
  | cons c s ih =>
    have hc := hs c List.mem_cons_self
    obtain ⟨last, hlast⟩ := ih (fun e he => hs e (List.mem_cons_of_mem c he)) c
    refine ⟨last, ?_⟩
    rw [List.cons_append, stripQuoted, nextQuote_of_clean hc]
    simp only [isClean, Bool.and_eq_true, bne_iff_ne] at hc
    rw [if_neg fun h => hc.1.1.1 h.1, beq_false_of_ne hc.1.1.2, beq_false_of_ne hc.1.2, Bool.or_false,
      Bool.or_false, hlast]
    rfl

theorem stripQuoted_inside {c : Char} {inQuotes : Option Char} (h : c = '#' → inQuotes ≠ none) (before : Char)
    (s : List Char) : stripQuoted inQuotes true before (c :: s) =
      c :: stripQuoted (nextQuote inQuotes c) true c s := by
  have hnot : ¬(c = '#' ∧ nextQuote inQuotes c = none) := by
    rintro ⟨rfl, hnone⟩
    exact h rfl hnone
  simp [stripQuoted, hnot]

theorem stripQuoted_cut (before : Char) (s : List Char) : stripQuoted none true before ('#' :: s) = [] := by
  simp [stripQuoted, nextQuote]

/-- The scan of a value is that of its characters; it is cut at the first hash sign outside quotes. -/
theorem stripQuoted_escaped (value : List Char) (inQuotes : Option Char) (before : Char) (rest : List Char) :
    (hashOutside inQuotes value = true → ∃ u w, value = u ++ '#' :: w ∧
      stripQuoted inQuotes true before (escaped value ++ rest) = escaped u) ∧
    (hashOutside inQuotes value = false → ∃ last,
      stripQuoted inQuotes true before (escaped value ++ rest) =
        escaped value ++ stripQuoted (value.foldl nextQuote inQuotes) true last rest) := by
  induction value generalizing inQuotes before with
  | nil => exact ⟨nofun, fun _ => ⟨before, rfl⟩⟩
  | cons c value ih =>
    by_cases hcut : c = '#' ∧ inQuotes = none
    · obtain ⟨rfl, rfl⟩ := hcut
      refine ⟨fun _ => ⟨[], value, rfl, ?_⟩, fun h => by simp [hashOutside] at h⟩
      rw [escaped_cons, if_neg (by decide), List.singleton_append, List.cons_append, stripQuoted_cut]
      rfl
    have hstep : ∃ last, stripQuoted inQuotes true before (escaped (c :: value) ++ rest) =
        (if c = '"' then ['\\', '"'] else [c]) ++
          stripQuoted (nextQuote inQuotes c) true last (escaped value ++ rest) := by
      rw [escaped_cons]
      by_cases hc : c = '"'
      · subst hc
        rw [if_pos rfl, List.append_assoc, List.cons_append, List.singleton_append,
          stripQuoted_inside fun h => absurd h (by decide), stripQuoted_inside fun h => absurd h (by decide)]
        exact ⟨_, rfl⟩
      · rw [if_neg hc, List.append_assoc, List.singleton_append,
          stripQuoted_inside fun heq hnone => hcut ⟨heq, hnone⟩]
        exact ⟨_, rfl⟩
    have hhash : hashOutside inQuotes (c :: value) = hashOutside (nextQuote inQuotes c) value := by
      rw [hashOutside]
      by_cases hc : c = '#'
      · have hsome : inQuotes.isNone = false := by
          cases inQuotes with
          | none => exact absurd ⟨hc, rfl⟩ hcut
          | some quote => rfl
        simp [hsome]
      · simp [hc]
    obtain ⟨last, hstep⟩ := hstep
    rw [hhash, hstep, List.foldl_cons]
    obtain ⟨hin, hout⟩ := ih (nextQuote inQuotes c) last
    constructor
    · intro h
      obtain ⟨u, w, rfl, hu⟩ := hin h
      exact ⟨c :: u, w, rfl, by rw [hu, escaped_cons]⟩
    · intro h
      obtain ⟨last, hlast⟩ := hout h
      exact ⟨last, by rw [hlast, escaped_cons, List.append_assoc]⟩

theorem text_eq_keyword {t : StringType} :
    (t.text = "string".toList ∨ t.text = "wstring".toList) ↔ t.plain := by
  have hkeyword (rest : List Char) : (t.keyword ++ rest = "string".toList ∨
      t.keyword ++ rest = "wstring".toList) ↔ rest = [] := by
    unfold StringType.keyword
    cases t.wide <;> simp
  have hbound : t.boundText = [] ↔ t.bound = none := by
    unfold StringType.boundText
    cases t.bound <;> simp
  have hshape : t.shape.text = [] ↔ t.shape = .single := by
    cases t.shape <;> simp [Shape.text]
  rw [StringType.text, hkeyword, List.append_eq_nil_iff, hbound, hshape, StringType.plain]

namespace Declaration

variable (d : Declaration)

theorem head_start : ∃ c s, d.start = c :: s ∧ isWhitespace c = false := by
  unfold start StringType.text StringType.keyword
  cases d.type.wide <;> exact ⟨_, _, rfl, rfl⟩

theorem typeString_eq (rest : List Char) :
    ((d.start ++ rest).dropWhile isWhitespace).takeWhile (!isWhitespace ·) = d.type.text := by
  obtain ⟨c, s, hstart, hc⟩ := head_start d
  have hdrop : (d.start ++ rest).dropWhile isWhitespace = d.start ++ rest := by
    simp [hstart, hc]
  have hinner : ∀ c ∈ d.type.text, (!isWhitespace c) = true := fun c hc => by
    simp [isWhitespace_of_isInner (isInner_text hc)]
  rw [hdrop, start_append]
  exact takeWhile_run hinner (by simp; rfl)

theorem stripComment_plain (h : d.type.plain) (rest : List Char) :
    stripComment (d.start ++ '"' :: rest) = d.start ++ '"' :: stripQuoted (some '"') true '"' rest := by
  obtain ⟨last, hlast⟩ := stripQuoted_clean (fun c hc => d.start_clean hc) none false ' ' ('"' :: rest)
  rw [stripComment, typeString_eq, if_pos (text_eq_keyword.mpr h), hlast]
  rfl

theorem stripComment_other (h : ¬d.type.plain) (rest : List Char) :
    stripComment (d.start ++ rest) = d.start ++ rest.takeWhile (· != '#') := by
  have hstart : ∀ c ∈ d.start, (c != '#') = true := fun c hc => by
    have hclean := d.start_clean hc
    simp only [isClean, Bool.and_eq_true] at hclean
    exact hclean.1.1.1
  rw [stripComment, typeString_eq, if_neg (mt text_eq_keyword.mp h), List.takeWhile_append_of_pos hstart]

end Declaration

theorem rdropWhile_append_cons {c : Char} (hc : isWhitespace c = false) (s rest : List Char) :
    (s ++ c :: rest).rdropWhile isWhitespace = s ++ c :: rest.rdropWhile isWhitespace := by
  induction rest using List.reverseRecOn with
  | nil => rw [List.rdropWhile_concat_neg _ _ _ (by simp [hc]), List.rdropWhile_nil]
  | append_singleton rest e ih =>
    rw [← List.cons_append, ← List.append_assoc, List.rdropWhile_concat, List.rdropWhile_concat, ih]
    split <;> simp

theorem escaped_append (text rest : List Char) : escaped (text ++ rest) = escaped text ++ escaped rest :=
  List.flatMap_append

theorem rdropWhile_escaped (text : List Char) :
    (escaped text).rdropWhile isWhitespace = escaped (text.rdropWhile isWhitespace) := by
  induction text using List.reverseRecOn with
  | nil => rfl
  | append_singleton text c ih =>
    rw [escaped_append, List.rdropWhile_concat]
    by_cases hquote : c = '"'
    · subst hquote
      have hend : escaped ['"'] = ['\\', '"'] := rfl
      rw [hend, if_neg (by decide), rdropWhile_append_cons rfl, escaped_append, hend]
      rfl
    · have hsingle : escaped [c] = [c] := by simp [escaped, hquote]
      rw [hsingle, List.rdropWhile_concat, ih]
      split
      · rfl
      · rw [escaped_append, hsingle]

theorem not_isWhitespace_opening {c : Char} (hc : c = '"' ∨ c = '[') : isWhitespace c = false := by
  obtain rfl | rfl := hc <;> rfl

theorem remains_rdropWhile {c : Char} (hc : c = '"' ∨ c = '[') (rest : List Char) :
    Remains ((c :: rest).rdropWhile isWhitespace) := by
  refine ⟨⟨c, _, rdropWhile_append_cons (not_isWhitespace_opening hc) [] rest, hc⟩, fun e he => ?_⟩
  obtain ⟨hne, rfl⟩ := List.mem_getLast?_eq_getLast he
  simpa using List.rdropWhile_last_not _ _ hne

theorem Declaration.trim_start (d : Declaration) {c : Char} (hc : c = '"' ∨ c = '[') (rest : List Char) :
    trim (.ofList (d.start ++ c :: rest)) = .ofList (d.start ++ (c :: rest).rdropWhile isWhitespace) := by
  obtain ⟨e, s, hstart, he⟩ := head_start d
  have hdrop : (d.start ++ c :: rest).dropWhile isWhitespace = d.start ++ c :: rest := by
    simp [hstart, he]
  have hwhite := not_isWhitespace_opening hc
  have hhead := rdropWhile_append_cons hwhite [] rest
  rw [trim, String.toList_ofList, hdrop]
  rw [List.nil_append, List.nil_append] at hhead
  rw [hhead, ← rdropWhile_append_cons hwhite]
  rfl

theorem notMem_escaped {c : Char} (hback : c ≠ '\\') {text : List Char} (h : c ∉ text) :
    c ∉ escaped text := by
  intro hmem
  obtain ⟨e, he, hmem⟩ := List.mem_flatMap.mp hmem
  by_cases hquote : e = '"'
  · simp only [hquote, if_true, List.mem_cons, List.not_mem_nil, or_false] at hmem
    obtain rfl | rfl := hmem
    · exact hback rfl
    · exact h (hquote ▸ he)
  · rw [if_neg hquote, List.mem_singleton] at hmem
    exact h (hmem ▸ he)

section

variable {c : Char} (hc : c ∉ ['\\', '"', ',', ' ', '[', ']']) {values : List String}
include hc

theorem notMem_items (h : ∀ v ∈ values, c ∉ v.toList) : c ∉ items values := by
  simp only [List.mem_cons, List.not_mem_nil, or_false, not_or] at hc
  have hquote : ∀ v ∈ values, c ∉ quoteText v := fun v hv => by
    simp [quoteText, hc, notMem_escaped hc.1 (h v hv)]
  cases values with
  | nil => simp [items]
  | cons value values =>
    rw [List.forall_mem_cons] at hquote
    simpa [items, furtherItems, hc, hquote.1] using hquote.2

theorem notMem_literal (shape : Shape) (h : ∀ v ∈ values, c ∉ v.toList) : c ∉ shape.literal values := by
  have hitems := notMem_items hc h
  simp only [List.mem_cons, List.not_mem_nil, or_false, not_or] at hc
  cases shape <;> simp [Shape.literal, hc, hitems]

theorem notMem_unclosedItems {text : List Char} (h : ∀ v ∈ values, c ∉ v.toList) (htext : c ∉ text) :
    c ∉ unclosedItems values text := by
  have hitems := notMem_items hc h
  simp only [List.mem_cons, List.not_mem_nil, or_false, not_or] at hc
  unfold unclosedItems
  split <;> simp [hc, hitems, notMem_escaped hc.1 htext]

end

theorem items_append {before after : List String} {v : String} {u w : List Char}
    (hv : v.toList = u ++ '#' :: w) :
    items (before ++ v :: after) =
      unclosedItems before u ++ '#' :: (escaped w ++ '"' :: furtherItems after) := by
  have hquote : quoteText v = '"' :: (escaped u ++ '#' :: (escaped w ++ ['"'])) := by
    rw [quoteText, hv, escaped_append, escaped_cons, if_neg (by decide)]
    simp
  cases before with
  | nil => simp [items, unclosedItems, hquote]
  | cons value before => simp [items, unclosedItems, furtherItems, hquote]

theorem rdropWhile_unclosedItems (before : List String) (text : List Char) :
    (unclosedItems before text).rdropWhile isWhitespace =
      unclosedItems before (text.rdropWhile isWhitespace) := by
  rw [unclosedItems, ← List.append_assoc, rdropWhile_append_cons rfl, rdropWhile_escaped, List.append_assoc,
    unclosedItems]

theorem stringLiteralSequence_literal {values : List String} (hne : values ≠ [])
    (hvalues : ∀ v ∈ values, Writable v) :
    stringLiteralSequence ('[' :: (items values ++ [']'])) = some (values, []) := by
  have hends : ('[' :: (items values ++ [']'])).head? = some '[' ∧
      ('[' :: (items values ++ [']'])).getLast? = some ']' :=
    ⟨rfl, by rw [← List.cons_append, List.getLast?_concat]⟩
  rw [stringLiteralSequence, if_pos hends, List.tail_cons, List.dropLast_concat,
    sequenceItems_items hne hvalues]

/-- Even when the text ends in a bracket, the list is not closed. -/
theorem stringLiteralSequence_unclosed {before : List String} {text : List Char}
    (hbefore : ∀ v ∈ before, Writable v) (hback : '\\' ∉ text) :
    stringLiteralSequence ('[' :: unclosedItems before text) = none := by
  have hform (text : List Char) : '[' :: unclosedItems before text =
      '[' :: (items before ++ if before = [] then [] else [',', ' ']) ++ ['"'] ++ escaped text := by
    simp [unclosedItems]
  unfold stringLiteralSequence
  split
  · rename_i hends
    obtain rfl | ⟨text, c, rfl⟩ := List.eq_nil_or_concat' text
    · rw [hform, escaped, List.flatMap_nil, List.append_nil, List.getLast?_concat] at hends
      exact absurd hends.2 (by decide)
    by_cases hc : c = ']'
    · -- without the bracket the last quote is still open
      subst hc
      have hend : escaped [']'] = [']'] := rfl
      have htext : '\\' ∉ text := fun hmem => hback (List.mem_append_left _ hmem)
      rw [hform, escaped_append, hend, ← List.append_assoc, ← hform, List.cons_append, List.tail_cons,
        List.dropLast_concat, sequenceItems_unclosed hbefore htext]
    · obtain ⟨s, hs⟩ : ∃ s, escaped [c] = s ++ [c] := by
        by_cases hquote : c = '"'
        · exact ⟨['\\'], by rw [hquote]; rfl⟩
        · exact ⟨[], by simp [escaped, hquote]⟩
      rw [hform, escaped_append, hs, ← List.append_assoc, ← List.append_assoc, List.getLast?_concat] at hends
      exact absurd (Option.some.inj hends.2) hc
  · rfl

theorem notMem_of_append {u w : List Char} {v : String} (h : Writable v) (hv : v.toList = u ++ '#' :: w) :
    '\\' ∉ u.rdropWhile isWhitespace := fun hmem =>
  h.backslash (hv ▸ List.mem_append_left _ ((List.rdropWhile_prefix _ _).subset hmem))

theorem read_single_quoteText {v : String} (h : Writable v) (rest : List Char) :
    Shape.single.read (quoteText v ++ rest) = some ([v], rest) := by
  rw [Shape.read, stringLiteral_quoteText h]
  rfl

/-- Of a value that is cut, at most the opening quote is read. -/
theorem read_single_unclosed {u w : List Char} {v : String} (h : Writable v) (hv : v.toList = u ++ '#' :: w) :
    Shape.single.read (('"' :: escaped u).rdropWhile isWhitespace) ≠ some ([v], []) := by
  have htrim : ('"' :: escaped u).rdropWhile isWhitespace = '"' :: escaped (u.rdropWhile isWhitespace) := by
    rw [← rdropWhile_escaped]
    exact rdropWhile_append_cons rfl [] _
  rw [htrim, Shape.read, stringLiteral_unclosed (notMem_of_append h hv)]
  intro heq
  have hempty : "" = v := by
    simp only [Option.map_some, Option.some.injEq, Prod.mk.injEq, List.cons.injEq, and_true] at heq
    exact heq.1
  rw [← hempty] at hv
  simp at hv

theorem rdropWhile_closed {text blanks : List Char} {c : Char} (hc : isWhitespace c = false)
    (hblanks : ∀ e ∈ blanks, isWhitespace e = true) :
    (text ++ [c] ++ blanks).rdropWhile isWhitespace = text ++ [c] := by
  rw [List.append_assoc, List.singleton_append, rdropWhile_append_cons hc,
    List.rdropWhile_eq_nil_iff.mpr hblanks]

theorem nextQuote_eq_none {inQuotes : Option Char} : nextQuote inQuotes '"' = none ↔ inQuotes = some '"' := by
  cases inQuotes with
  | none => simp [nextQuote]
  | some quote =>
    by_cases hquote : quote = '"' <;> simp [nextQuote, hquote]

/-- After the value: the comment is cut off where the scan is outside quotes. -/
theorem read_single_comment {v : String} (h : Writable v) (inQuotes : Option Char)
    (comment : Option Comment) :
    Shape.single.read ((quoteText v ++
        stripQuoted inQuotes true '"' (commentText comment)).rdropWhile isWhitespace) = some ([v], []) ↔
      (comment.isSome = true → inQuotes = none) := by
  have hclosed (blanks : List Char) (hblanks : ∀ e ∈ blanks, isWhitespace e = true) :
      Shape.single.read ((quoteText v ++ blanks).rdropWhile isWhitespace) = some ([v], []) := by
    rw [quoteText, ← List.cons_append, rdropWhile_closed rfl hblanks]
    have hread := read_single_quoteText h []
    rwa [List.append_nil] at hread
  cases comment with
  | none => exact ⟨fun _ hsome => absurd hsome Bool.false_ne_true, fun _ => hclosed [] (by simp)⟩
  | some comment =>
    rw [commentText, Option.elim_some, stripQuoted_inside fun heq => absurd heq (by decide),
      nextQuote_of_clean rfl]
    by_cases hnone : inQuotes = none
    · subst hnone
      rw [stripQuoted_cut]
      exact ⟨fun _ _ => rfl, fun _ => hclosed [' '] (by simp; rfl)⟩
    · rw [stripQuoted_inside fun _ => hnone, List.append_cons, rdropWhile_append_cons rfl, ← List.append_cons,
        read_single_quoteText h]
      simp [hnone]

theorem exists_first_hash {values : List String} (h : ∃ v ∈ values, '#' ∈ v.toList) :
    ∃ before v after u w, values = before ++ v :: after ∧ (∀ x ∈ before, '#' ∉ x.toList) ∧
      v.toList = u ++ '#' :: w ∧ '#' ∉ u := by
  have hsome : (values.find? fun v => decide ('#' ∈ v.toList)).isSome = true :=
    List.find?_isSome.mpr (by simpa using h)
  obtain ⟨v, hfind⟩ := Option.isSome_iff_exists.mp hsome
  obtain ⟨hv, before, after, hvalues, hbefore⟩ := List.find?_eq_some_iff_append.mp hfind
  obtain ⟨u, w, hsplit, hu⟩ := List.eq_append_cons_of_mem (of_decide_eq_true hv)
  exact ⟨before, v, after, u, w, hvalues, by simpa using hbefore, hsplit, hu⟩

theorem Shape.cases (shape : Shape) : shape = .single ∨
    (∀ values, shape.literal values = '[' :: (items values ++ [']'])) ∧
      ∀ text, shape.read text = stringLiteralSequence text := by
  cases shape with
  | single => exact .inl rfl
  | array | sequence | boundedSequence => exact .inr ⟨fun _ => rfl, fun _ => rfl⟩

namespace Declaration

variable (d : Declaration) (comment : Option Comment)

/-- What the scan leaves of the line is read as the values exactly when they survive. -/
def Decided : Prop :=
  ∃ c rest, (c = '"' ∨ c = '[') ∧ stripComment (d.line comment) = d.start ++ c :: rest ∧
    (d.type.shape.read ((c :: rest).rdropWhile isWhitespace) = some (d.values, []) ↔ d.Survives comment)

theorem exists_single (h : d.type.shape = .single) : ∃ v, d.values = [v] := by
  have hcounted := d.counted
  rw [h] at hcounted
  exact List.length_eq_one_iff.mp hcounted

theorem literal_read : ∃ c rest text e, (c = '"' ∨ c = '[') ∧ d.type.shape.literal d.values = c :: rest ∧
    d.type.shape.literal d.values = text ++ [e] ∧ isWhitespace e = false ∧
      d.type.shape.read (d.type.shape.literal d.values) = some (d.values, []) := by
  obtain hshape | ⟨hliteral, hread⟩ := d.type.shape.cases
  · obtain ⟨v, hvalues⟩ := d.exists_single hshape
    have hwritable : Writable v := d.written v (hvalues ▸ List.mem_cons_self)
    have hitems : items [v] = quoteText v ++ [] := rfl
    have hone := read_single_quoteText hwritable []
    rw [hshape, hvalues, Shape.literal, hitems, hone, List.append_nil]
    exact ⟨'"', _, '"' :: escaped v.toList, '"', .inl rfl, rfl, rfl, rfl, rfl⟩
  · rw [hread, hliteral, stringLiteralSequence_literal d.nonempty d.written]
    exact ⟨'[', _, '[' :: items d.values, ']', .inr rfl, rfl, rfl, rfl, rfl⟩

theorem literal_cut (h : ∃ v ∈ d.values, '#' ∈ v.toList) : ∃ c rest tail, (c = '"' ∨ c = '[') ∧
    d.type.shape.literal d.values = c :: rest ++ '#' :: tail ∧ '#' ∉ c :: rest ∧
      d.type.shape.read ((c :: rest).rdropWhile isWhitespace) ≠ some (d.values, []) := by
  obtain ⟨before, v, after, u, w, hvalues, hbefore, hv, hu⟩ := exists_first_hash h
  have hwritable : ∀ x ∈ before ++ v :: after, Writable x := hvalues ▸ d.written
  have hone : Writable v := hwritable v (by simp)
  have hnot : '#' ∉ unclosedItems before u := notMem_unclosedItems (by decide) hbefore hu
  obtain hshape | ⟨hliteral, hread⟩ := d.type.shape.cases
  · obtain ⟨x, hx⟩ := d.exists_single hshape
    have hnil : before = [] ∧ v :: after = [x] := by
      rw [hvalues, List.append_eq_singleton_iff] at hx
      simpa using hx
    obtain ⟨rfl, hnil⟩ := hnil
    cases hnil
    refine ⟨'"', escaped u, escaped w ++ ['"'], .inl rfl, ?_, hnot, ?_⟩
    · rw [hshape, hvalues, Shape.literal, items_append hv]
      rfl
    · rw [hshape, hvalues]
      exact read_single_unclosed hone hv
  · refine ⟨'[', unclosedItems before u, escaped w ++ '"' :: furtherItems after ++ [']'], .inr rfl,
      ?_, ?_, ?_⟩
    · rw [hliteral, hvalues, items_append hv]
      simp
    · simpa using hnot
    · have htrim : ('[' :: unclosedItems before u).rdropWhile isWhitespace =
          '[' :: unclosedItems before (u.rdropWhile isWhitespace) := by
        rw [← rdropWhile_unclosedItems]
        exact rdropWhile_append_cons rfl [] _
      have hwritten : ∀ x ∈ before, Writable x := fun x hx => hwritable x (List.mem_append_left _ hx)
      rw [htrim, hread, stringLiteralSequence_unclosed hwritten (notMem_of_append hone hv)]
      nofun

theorem decided_plain (h : d.type.plain) : d.Decided comment := by
  obtain ⟨v, hvalues⟩ := d.exists_single h.2
  have hwritable : Writable v := d.written v (hvalues ▸ List.mem_cons_self)
  have hline : d.line comment = d.start ++ '"' :: (escaped v.toList ++ '"' :: commentText comment) := by
    simp [line, h.2, hvalues, Shape.literal, items, furtherItems, quoteText]
  have hsurvives : d.Survives comment ↔ hashOutside (some '"') v.toList = false ∧
      (comment.isSome = true → v.toList.foldl nextQuote (some '"') = some '"') := by
    simp [Survives, h, hvalues]
  obtain ⟨hcut, hkept⟩ := stripQuoted_escaped v.toList (some '"') '"' ('"' :: commentText comment)
  refine ⟨'"', _, .inl rfl, hline ▸ stripComment_plain d h _, ?_⟩
  rw [h.2, hvalues, hsurvives]
  cases hhash : hashOutside (some '"') v.toList with
  | true =>
    -- only the front of the value is left
    obtain ⟨u, w, hv, hstrip⟩ := hcut hhash
    rw [hstrip]
    simp [read_single_unclosed hwritable hv]
  | false =>
    -- the closing quote changes the scan once more before it meets the comment
    obtain ⟨last, hstrip⟩ := hkept hhash
    have hread := read_single_comment hwritable (nextQuote (v.toList.foldl nextQuote (some '"')) '"') comment
    rw [hstrip, stripQuoted_inside fun heq => absurd heq (by decide)]
    rw [nextQuote_eq_none] at hread
    simpa [quoteText] using hread

theorem decided_other (h : ¬d.type.plain) : d.Decided comment := by
  have hsurvives : d.Survives comment ↔ ∀ v ∈ d.values, '#' ∉ v.toList := by
    simp [Survives, h]
  have hstrip : stripComment (d.line comment) =
      d.start ++ (d.type.shape.literal d.values ++ commentText comment).takeWhile (· != '#') :=
    stripComment_other d h _
  have hpass {s : List Char} (hs : '#' ∉ s) : ∀ e ∈ s, (e != '#') = true := fun e he =>
    bne_iff_ne.mpr fun heq => hs (heq ▸ he)
  by_cases hhash : ∀ v ∈ d.values, '#' ∉ v.toList
  · -- nothing but the comment is cut off
    obtain ⟨c, rest, text, e, hc, hhead, hlast, he, hread⟩ := d.literal_read
    have hblanks : ∀ e ∈ (commentText comment).takeWhile (· != '#'), isWhitespace e = true := by
      cases comment with
      | none => simp [commentText]
      | some comment => simp [commentText]; rfl
    rw [List.takeWhile_append_of_pos (hpass (notMem_literal (by decide) _ hhash))] at hstrip
    refine ⟨c, rest ++ (commentText comment).takeWhile (· != '#'), hc, ?_, ?_⟩
    · rw [hstrip, hhead, List.cons_append]
    · rw [← List.cons_append, ← hhead, hlast, rdropWhile_closed he hblanks, ← hlast, hread, hsurvives]
      exact ⟨fun _ => hhash, fun _ => rfl⟩
  · push Not at hhash
    obtain ⟨c, rest, tail, hc, htext, hnot, hread⟩ := d.literal_cut hhash
    have hcut : (c :: rest ++ '#' :: tail ++ commentText comment).takeWhile (· != '#') = c :: rest := by
      rw [List.append_assoc]
      exact takeWhile_run (hpass hnot) (by simp)
    rw [htext, hcut] at hstrip
    refine ⟨c, rest, hc, hstrip, ?_⟩
    rw [hsurvives]
    refine ⟨fun heq => absurd heq hread, fun hall => ?_⟩
    obtain ⟨v, hv, hmem⟩ := hhash
    exact absurd hmem (hall v hv)

theorem decided : d.Decided comment := by
  by_cases h : d.type.plain
  · exact d.decided_plain comment h
  · exact d.decided_other comment h

theorem notMem_line : '\n' ∉ d.line comment := by
  have hstart : '\n' ∉ d.start := fun hmem => absurd (d.start_clean hmem) (by decide)
  have hliteral : '\n' ∉ d.type.shape.literal d.values :=
    notMem_literal (by decide) _ fun v hv => (d.written v hv).line
  have hcomment : '\n' ∉ commentText comment := by
    cases comment with
    | none => exact List.not_mem_nil
    | some comment => simp [commentText, comment.line]
  simp [line, hstart, hliteral, hcomment]

theorem lines_line : lines (d.line comment) = [d.line comment] := by
  have hne : d.line comment ≠ [] := by
    obtain ⟨c, s, hstart, -⟩ := head_start d
    simp [line, hstart]
  simp [lines, List.splitOn_eq_singleton (d.notMem_line comment), hne]

/-- A line with string values is parsed to exactly these values when the scan for comments does not cut them
and finds the end of their quotes before a comment. -/
theorem string_values_survive_iff (basicLiteral : BasicType → Parser String) (package name : String) :
    parseMessageString basicLiteral package name (.ofList (d.line comment)) = .ok (d.message package name) ↔
      d.Survives comment := by
  obtain ⟨c, rest, hc, hstrip, hread⟩ := d.decided comment
  have hline : trim (.ofList (stripComment (d.line comment))) =
      .ofList (d.start ++ (c :: rest).rdropWhile isWhitespace) := by
    rw [hstrip, d.trim_start hc]
  rw [parseMessageString, String.toList_ofList, lines_line, ← hread]
  simp only [List.foldlM_cons, List.foldlM_nil, bind_pure]
  exact parseLine_iff basicLiteral (remains_rdropWhile hc rest) hline

end Declaration

def colorDefault : Declaration where
  use := .default
  type := ⟨false, some 10, .single⟩
  name := "color"
  values := ["#ff0000"]
  typed := trivial
  named := by decide +kernel
  written := by
    intro v hv
    cases List.mem_singleton.mp hv
    exact ⟨by decide, by decide, by decide +kernel⟩
  nonempty := by decide
  counted := rfl
  fits := by decide +kernel

/-- The default that is written as a color is read as the empty string; a line with a comment after a value
with a quote of its own is rejected. -/
theorem color_read_as_empty :
    colorDefault.line none = "string<=10 color \"#ff0000\"".toList ∧
      parseMessageString (fun _ => failure) "rendering_msgs" "Marker" "string<=10 color \"#ff0000\"" =
        .ok ⟨"rendering_msgs", "Marker",
          [⟨"color", .nestableType (.genericString (.boundedString 10)), some [""]⟩], []⟩ ∧
      parseMessageString (fun _ => failure) "rendering_msgs" "Marker" "string size \"5\\\" disk\" # inches" =
        .error .conditionFailed := by
  decide +kernel

end Dora.MsgGen
