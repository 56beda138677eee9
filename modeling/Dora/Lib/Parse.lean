import Dora.Lib.Text

/-!
# Parse — parsers over texts

A parser reads a value from the start of a text and returns it with what is left. Where it reads a word
up to a character that it would not read itself, it reads the same word in front of every such
character.
-/

namespace Dora.Lib

abbrev Parser := StateT (List Char) Option

namespace Parser

variable {α β γ : Type}

def satisfy (p : Char → Bool) : Parser Char
  | c :: s => if p c then some (c, s) else none
  | [] => none

def char (c : Char) : Parser Char := satisfy (· == c)

def tag (text : List Char) : Parser Unit := fun s =>
  if text.isPrefixOf s then some ((), s.drop text.length) else none

/-- The longest run of characters with a property. -/
def run0 (p : Char → Bool) : Parser (List Char) := fun s => some (s.takeWhile p, s.dropWhile p)

def run1 (p : Char → Bool) : Parser (List Char) := fun s =>
  if s.takeWhile p = [] then none else run0 p s

def opt (p : Parser α) : Parser (Option α) := fun s =>
  match p s with
  | some (a, rest) => some (some a, rest)
  | none => some (none, s)

def peek (p : Parser α) : Parser Unit := fun s => (p s).map fun _ => ((), s)

def eof : Parser Unit := fun s => if s = [] then some ((), []) else none

/-- The text that a parser reads. -/
def recognize (p : Parser α) : Parser (List Char) := fun s =>
  (p s).map fun (_, rest) => (s.take (s.length - rest.length), rest)

def verify (p : Parser α) (q : α → Bool) : Parser α := do
  let a ← p
  if q a then return a else failure

/-- Further elements, as long as there is a separator with an element; each must read something. -/
def separatedMore (sep : Parser β) (elem : Parser α) : Nat → Parser (List α)
  | 0, s => some ([], s)
  | fuel + 1, s =>
    match (do let _ ← sep; elem : Parser α) s with
    | some (a, rest) =>
      if rest.length < s.length then
        (separatedMore sep elem fuel rest).map fun (more, rest) => (a :: more, rest)
      else none
    | none => some ([], s)

def separatedList1 (sep : Parser β) (elem : Parser α) : Parser (List α) := fun s =>
  (elem s).bind fun (a, rest) =>
    (separatedMore sep elem (rest.length + 1) rest).map fun (more, rest) => (a :: more, rest)

def separatedList0 (sep : Parser β) (elem : Parser α) : Parser (List α) := fun s =>
  if (elem s).isNone then some ([], s) else separatedList1 sep elem s

variable {p q : Parser α} {f : α → Parser β} {s t rest : List Char} {a : α}

theorem bind_some (h : p s = some (a, rest)) : (p >>= f) s = f a rest := by
  change (p s).bind _ = _
  rw [h]
  rfl

theorem bind_none (h : p s = none) : (p >>= f) s = none := by
  change (p s).bind _ = _
  rw [h]
  rfl

theorem orElse_some {x : α × List Char} (h : p s = some x) : (p <|> q) s = some x := by
  change (p s <|> q s) = _
  rw [h]
  rfl

theorem orElse_none (h : p s = none) : (p <|> q) s = q s := by
  change (p s <|> q s) = _
  rw [h]
  rfl

theorem opt_some (h : p s = some (a, rest)) : opt p s = some (some a, rest) := by
  rw [opt, h]

theorem opt_none (h : p s = none) : opt p s = some (none, s) := by
  rw [opt, h]

theorem tag_append (text rest : List Char) : tag text (text ++ rest) = some ((), rest) := by
  rw [tag, if_pos (List.isPrefixOf_iff_prefix.mpr (List.prefix_append text rest)), List.drop_left]

theorem char_cons (c : Char) (rest : List Char) : char c (c :: rest) = some (c, rest) := by
  simp [char, satisfy]

theorem run0_append {cls : Char → Bool} {text : List Char} (htext : ∀ c ∈ text, cls c = true)
    (hrest : ∀ c ∈ rest.head?, cls c = false) : run0 cls (text ++ rest) = some (text, rest) := by
  have hrun := takeWhile_run htext hrest
  have hcut := List.takeWhile_append_dropWhile (p := cls) (l := text ++ rest)
  rw [hrun, List.append_right_inj] at hcut
  rw [run0, hrun, hcut]

theorem run1_cons {cls : Char → Bool} {c : Char} (hc : cls c = true) (s : List Char) :
    run1 cls (c :: s) = some (c :: s.takeWhile cls, s.dropWhile cls) := by
  simp [run1, run0, hc]

theorem run1_append {cls : Char → Bool} {text : List Char} (hne : text ≠ [])
    (htext : ∀ c ∈ text, cls c = true) (hrest : ∀ c ∈ rest.head?, cls c = false) :
    run1 cls (text ++ rest) = some (text, rest) := by
  rw [run1, takeWhile_run htext hrest, if_neg hne, run0_append htext hrest]

theorem separatedMore_fuel {sep : Parser β} {elem : Parser α} {n n' : Nat} (h : s.length < n)
    (h' : s.length < n') : separatedMore sep elem n s = separatedMore sep elem n' s := by
  induction n generalizing s n' with
  | zero => omega
  | succ n ih =>
    obtain _ | n' := n'
    · omega
    · rw [separatedMore, separatedMore]
      cases (do let _ ← sep; elem : Parser α) s with
      | none => rfl
      | some x =>
        dsimp only
        split
        · have hmore : separatedMore sep elem n x.2 = separatedMore sep elem n' x.2 :=
            ih (by omega) (by omega)
          rw [hmore]
        · rfl

theorem separatedMore_none {sep : Parser β} {n : Nat} (h : (do let _ ← sep; p : Parser α) s = none) :
    separatedMore sep p n s = some ([], s) := by
  cases n with
  | zero => rfl
  | succ n => rw [separatedMore, h]

theorem separatedMore_some {sep : Parser β} {n : Nat} (h : (do let _ ← sep; p : Parser α) s = some (a, rest))
    (hrest : rest.length < s.length) (hn : s.length < n) :
    separatedMore sep p n s =
      (separatedMore sep p (rest.length + 1) rest).map fun (more, rest) => (a :: more, rest) := by
  obtain _ | n := n
  · omega
  · rw [separatedMore, h]
    dsimp only
    rw [if_pos hrest, separatedMore_fuel (by omega) (Nat.lt_succ_self _)]

/-- What `p` reads of a text does not change when a character follows that is not of the class. -/
def Stops (p : Parser α) (cls : Char → Bool) : Prop :=
  ∀ s t, (∀ c ∈ t.head?, cls c = false) → p (s ++ t) = (p s).map fun x => (x.1, x.2 ++ t)

variable {cls r : Char → Bool}

theorem Stops.bind (hp : Stops p cls) (hf : ∀ a, Stops (f a) cls) : Stops (p >>= f) cls := by
  intro s t ht
  have hs := hp s t ht
  cases h : p s with
  | none =>
    rw [h] at hs
    rw [bind_none hs, bind_none h]
    rfl
  | some x =>
    rw [h] at hs
    rw [bind_some hs, bind_some h]
    exact hf x.1 x.2 t ht

theorem Stops.opt (hp : Stops p cls) : Stops (opt p) cls := by
  intro s t ht
  rw [Parser.opt, hp s t ht, Parser.opt]
  cases p s <;> rfl

theorem Stops.recognize (hp : Stops p cls) : Stops (recognize p) cls := by
  intro s t ht
  rw [Parser.recognize, hp s t ht, Parser.recognize]
  cases p s with
  | none => rfl
  | some x =>
    have hlen : (s ++ t).length - (x.2 ++ t).length = s.length - x.2.length := by
      simp only [List.length_append]
      omega
    simp only [Option.map_some, hlen, List.take_append_of_le_length (Nat.sub_le s.length x.2.length)]

theorem Stops.satisfy (h : ∀ c, r c = true → cls c = true) : Stops (satisfy r) cls := by
  intro s t ht
  cases s with
  | cons c s =>
    change (if r c then _ else _) = Option.map _ (if r c then _ else _)
    split <;> rfl
  | nil =>
    cases t with
    | nil => rfl
    | cons c t =>
      have hc : r c = false := Bool.eq_false_iff.mpr fun hr => by simp [h c hr] at ht
      simp [Parser.satisfy, hc]

theorem Stops.run1 (h : ∀ c, r c = true → cls c = true) : Stops (run1 r) cls := by
  intro s t ht
  have hhead : ∀ c ∈ t.head?, r c = false := fun c hc =>
    Bool.eq_false_iff.mpr fun hr => absurd (ht c hc) (by simp [h c hr])
  have hrun : (s ++ t).takeWhile r = s.takeWhile r ∧ (s ++ t).dropWhile r = s.dropWhile r ++ t := by
    induction s with
    | nil =>
      cases t with
      | nil => exact ⟨rfl, rfl⟩
      | cons c t => simp [hhead c rfl]
    | cons c s ih =>
      cases hc : r c with
      | false => simp [hc]
      | true => simp [hc, ih]
  simp only [Parser.run1, run0, hrun.1, hrun.2]
  split <;> rfl

theorem Stops.separatedMore {sep : Parser β} (hstep : Stops (do let _ ← sep; p : Parser α) cls)
    {n n' : Nat} (s t : List Char) (ht : ∀ c ∈ t.head?, cls c = false) (hn : (s ++ t).length < n)
    (hn' : s.length < n') :
    separatedMore sep p n (s ++ t) = (separatedMore sep p n' s).map fun x => (x.1, x.2 ++ t) := by
  -- on the first number; the two loops take the same steps
  induction n generalizing s n' with
  | zero => omega
  | succ n ih =>
    obtain _ | n' := n'
    · omega
    · rw [Parser.separatedMore, hstep s t ht, Parser.separatedMore]
      cases (do let _ ← sep; p : Parser α) s with
      | none => rfl
      | some x =>
        simp only [Option.map_some, List.length_append, Nat.add_lt_add_iff_right] at hn ⊢
        split
        · have hmore : Parser.separatedMore sep p n (x.2 ++ t) =
              (Parser.separatedMore sep p n' x.2).map fun x => (x.1, x.2 ++ t) :=
            ih x.2 (by rw [List.length_append]; omega) (by omega)
          rw [hmore, Option.map_map, Option.map_map]
          rfl
        · rfl

theorem Stops.separatedList1 {sep : Parser β} (hsep : Stops sep cls) (hp : Stops p cls) :
    Stops (separatedList1 sep p) cls := by
  intro s t ht
  rw [Parser.separatedList1, hp s t ht, Parser.separatedList1]
  cases p s with
  | none => rfl
  | some x =>
    simp only [Option.map_some, Option.bind_some]
    rw [Stops.separatedMore (hsep.bind fun _ => hp) x.2 t ht (Nat.lt_succ_self _) (Nat.lt_succ_self _),
      Option.map_map, Option.map_map]
    rfl

theorem Stops.separatedList0 {sep : Parser β} (hsep : Stops sep cls) (hp : Stops p cls) :
    Stops (separatedList0 sep p) cls := by
  intro s t ht
  rw [Parser.separatedList0, Parser.separatedList0, hp s t ht, hsep.separatedList1 hp s t ht,
    Option.isNone_map]
  split <;> rfl

/-- A text that is read to its end has no other characters. -/
theorem Stops.forall_mem {text : List Char} (hp : Stops p cls) (h : p text = some (a, [])) :
    ∀ c ∈ text, cls c = true := by
  have hread := hp (text.takeWhile cls) (text.dropWhile cls) head_dropWhile
  rw [List.takeWhile_append_dropWhile, h] at hread
  obtain ⟨x, -, hx⟩ := Option.map_eq_some_iff.mp hread.symm
  have hrest : text.dropWhile cls = [] := (List.append_eq_nil_iff.mp (Prod.mk.inj hx).2).2
  exact List.dropWhile_eq_nil_iff.mp hrest

theorem Stops.append {text : List Char} (hp : Stops p cls) (h : p text = some (a, []))
    (hrest : ∀ c ∈ rest.head?, cls c = false) : p (text ++ rest) = some (a, rest) := by
  rw [hp text rest hrest, h]
  rfl

end Parser

end Dora.Lib
