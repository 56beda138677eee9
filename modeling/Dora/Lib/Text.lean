import Mathlib.Data.List.TakeWhile

/-!
# Splitting texts and reading numbers

A text is trimmed, tested and stripped at its ends and split at the first separator, and a number is
read from its decimal digits; splitting and reading undo how the text was put together.
-/

namespace Dora.Lib

/-- A text is cut at the first `sep`. -/
theorem eq_of_dropWhile_ne {sep c : Char} {text after : List Char}
    (h : text.dropWhile (· != sep) = c :: after) :
    c = sep ∧ text = text.takeWhile (· != sep) ++ sep :: after := by
  have hhead := List.head_dropWhile_not (· != sep) (l := text) (by rw [h]; exact List.cons_ne_nil _ _)
  have hc : c = sep := by simpa [h] using hhead
  subst hc
  exact ⟨rfl, by rw [← h, List.takeWhile_append_dropWhile]⟩

theorem notMem_takeWhile_ne (sep : Char) (text : List Char) : sep ∉ text.takeWhile (· != sep) := by
  intro hmem
  simpa using List.mem_takeWhile_imp hmem

/-- The longest run of characters with a property, in front of a text that does not continue it. -/
theorem takeWhile_run {p : Char → Bool} {start rest : List Char} (hstart : ∀ c ∈ start, p c = true)
    (hrest : ∀ c ∈ rest.head?, p c = false) : (start ++ rest).takeWhile p = start := by
  rw [List.takeWhile_append_of_pos hstart]
  cases rest with
  | nil => simp
  | cons c => simp [hrest c rfl]

theorem head_dropWhile {p : Char → Bool} {text : List Char} :
    ∀ c ∈ (text.dropWhile p).head?, p c = false := by
  intro c hc
  have hnot := List.head?_dropWhile_not p text
  rwa [Option.mem_def.mp hc] at hnot

theorem append_sep_inj {sep : Char} {a a' r r' : List Char} (ha : sep ∉ a) (ha' : sep ∉ a')
    (h : a ++ sep :: r = a' ++ sep :: r') : a = a' ∧ r = r' := by
  have hrun {l t : List Char} (hl : sep ∉ l) : (l ++ sep :: t).takeWhile (· != sep) = l :=
    takeWhile_run (fun c hc => bne_iff_ne.mpr fun heq => hl (heq ▸ hc)) (by simp)
  have hstart := congrArg (List.takeWhile (· != sep)) h
  rw [hrun ha, hrun ha'] at hstart
  subst hstart
  exact ⟨rfl, (List.cons.inj (List.append_cancel_left h)).2⟩

/-- What stands before and after the first `sep`. -/
def splitOnce (sep : Char) (text : String) : Option (String × String) :=
  match text.toList.dropWhile (· != sep) with
  | [] => none
  | _ :: after => some (String.ofList (text.toList.takeWhile (· != sep)), String.ofList after)

theorem splitOnce_eq_some {sep : Char} {text before after : String}
    (htext : text.toList = before.toList ++ sep :: after.toList) (hsep : sep ∉ before.toList) :
    splitOnce sep text = some (before, after) := by
  have hall : ∀ c ∈ before.toList, (c != sep) = true := by
    intro c hc
    rw [bne_iff_ne]
    intro heq
    exact hsep (heq ▸ hc)
  unfold splitOnce
  rw [htext, List.dropWhile_append_of_pos hall, List.takeWhile_append_of_pos hall]
  simp

theorem splitOnce_eq_none {sep : Char} {text : String} (hsep : sep ∉ text.toList) :
    splitOnce sep text = none := by
  have hall : ∀ c ∈ text.toList, (c != sep) = true := by
    intro c hc
    rw [bne_iff_ne]
    intro heq
    exact hsep (heq ▸ hc)
  unfold splitOnce
  rw [List.dropWhile_eq_nil_iff.mpr hall]

/-- A character with the Unicode property `White_Space`. -/
def isWhitespace (c : Char) : Bool :=
  let code := c.toNat
  (9 ≤ code && code ≤ 13) || code == 0x20 || code == 0x85 || code == 0xA0 || code == 0x1680 ||
    (0x2000 ≤ code && code ≤ 0x200A) || code == 0x2028 || code == 0x2029 || code == 0x202F ||
    code == 0x205F || code == 0x3000

def trim (text : String) : String :=
  String.ofList ((text.toList.dropWhile isWhitespace).reverse.dropWhile isWhitespace).reverse

def startsWith (text start : String) : Bool := start.toList.isPrefixOf text.toList

def endsWith (text ending : String) : Bool := ending.toList.isSuffixOf text.toList

/-- The text before and after the last `sep`. -/
def rsplitOnce (sep : Char) (text : String) : Option (String × String) :=
  match text.toList.reverse.dropWhile (· != sep) with
  | [] => none
  | _ :: before => some (String.ofList before.reverse,
      String.ofList (text.toList.reverse.takeWhile (· != sep)).reverse)

theorem rsplitOnce_eq_some {sep : Char} {text before after : String} :
    rsplitOnce sep text = some (before, after) ↔
      text.toList = before.toList ++ sep :: after.toList ∧ sep ∉ after.toList := by
  unfold rsplitOnce
  constructor
  · intro h
    split at h
    · cases h
    · rename_i c rest hrest
      cases h
      have hrev := congrArg List.reverse (eq_of_dropWhile_ne hrest).2
      rw [List.reverse_reverse, List.reverse_append, List.reverse_cons, List.append_assoc] at hrev
      rw [String.toList_ofList, String.toList_ofList, List.mem_reverse]
      exact ⟨hrev, notMem_takeWhile_ne sep _⟩
  · rintro ⟨htext, hsep⟩
    have hall : ∀ c ∈ after.toList.reverse, (c != sep) = true := fun c hc =>
      bne_iff_ne.mpr fun heq => hsep (heq ▸ List.mem_reverse.mp hc)
    rw [htext, List.reverse_append, List.reverse_cons, List.append_assoc, List.dropWhile_append_of_pos hall,
      List.takeWhile_append_of_pos hall]
    simp

/-- What follows `start`, if the text starts so. -/
def stripStart (start text : String) : Option String :=
  if startsWith text start then some (String.ofList (text.toList.drop start.length)) else none

theorem stripStart_eq_some {start text rest : String} :
    stripStart start text = some rest ↔ text = start ++ rest := by
  unfold stripStart startsWith
  constructor
  · intro h
    split at h
    · rename_i hstart
      cases h
      obtain ⟨tail, htail⟩ := List.isPrefixOf_iff_prefix.mp hstart
      rw [← String.toList_inj, String.toList_append, String.toList_ofList, ← htail, ← String.length_toList,
        List.drop_left]
    · cases h
  · rintro rfl
    rw [if_pos (List.isPrefixOf_iff_prefix.mpr (by simp)), String.toList_append, ← String.length_toList,
      List.drop_left, String.ofList_toList]

/-- What precedes `ending`, if the text ends so. -/
def stripEnd (ending text : String) : Option String :=
  if endsWith text ending then
    some (String.ofList (text.toList.take (text.length - ending.length)))
  else none

/-- A decimal number below `bound`, with an optional `+` in front. -/
def parseUnsigned (bound : Nat) (text : String) : Option Nat :=
  let digits := match text.toList with
    | '+' :: digits => digits
    | digits => digits
  if digits.isEmpty || digits.any (!·.isDigit) then none
  else
    let value := Nat.ofDigitChars 10 digits 0
    if value < bound then some value else none

theorem not_mem_natRepr {c : Char} (hc : c.isDigit = false) (n : Nat) : c ∉ n.repr.toList := by
  rw [Nat.repr_eq_ofList_toDigits, String.toList_ofList]
  exact fun hmem => absurd (Nat.isDigit_of_mem_toDigits (by decide) (by decide) hmem) (by simp [hc])

theorem parseUnsigned_repr (bound n : Nat) :
    parseUnsigned bound n.repr = if n < bound then some n else none := by
  have hdigits : ∀ c ∈ Nat.toDigits 10 n, c.isDigit = true := fun c hc =>
    Nat.isDigit_of_mem_toDigits (by decide) (by decide) hc
  have hlist : n.repr.toList = Nat.toDigits 10 n := by
    rw [Nat.repr_eq_ofList_toDigits, String.toList_ofList]
  have hplus : (match n.repr.toList with
      | '+' :: digits => digits
      | digits => digits) = Nat.toDigits 10 n := by
    rw [hlist]
    split
    · rename_i digits heq
      have hplus := hdigits '+' (heq ▸ List.mem_cons_self)
      exact absurd hplus (by decide)
    · rfl
  unfold parseUnsigned
  rw [hplus]
  dsimp only
  have hgood : ((Nat.toDigits 10 n).isEmpty || (Nat.toDigits 10 n).any (!·.isDigit)) = false := by
    rw [Bool.or_eq_false_iff]
    constructor
    · rw [List.isEmpty_eq_false_iff]
      exact Nat.toDigits_ne_nil
    · rw [List.any_eq_false]
      intro c hc
      rw [hdigits c hc]
      decide
  rw [hgood]
  show (if Nat.ofDigitChars 10 (Nat.toDigits 10 n) 0 < bound then _ else _) = _
  rw [Nat.ofDigitChars_ten_toDigits]

end Dora.Lib
