import Dora.Lib.KeyOrder
import Dora.Lib.Text

/-!
# Parameter references in the arguments of a module's nodes

The substitution (`libraries/core/src/descriptor/expand.rs`) scans a text once, from one dollar sign
to the next. Against it stands the text's own division into references and characters, which is
unique, with every reference replaced on its own.
-/

namespace Dora.Expand

open Std Lib

def bracedStart : List Char := ['$', '{', '_', 'p', 'a', 'r', 'a', 'm', '.']

def envStart : List Char := ['$', 'P', 'A', 'R', 'A', 'M', '_']

def isKeyChar (c : Char) : Bool := c.isAlphanum || c == '_'

variable (toUppercase : String → String) (params : TreeMap String String)

/-- The parameters under the names that `$PARAM_<KEY>` looks up. -/
def envStyle : TreeMap String String :=
  TreeMap.ofList (params.toList.map fun entry => (toUppercase entry.1, entry.2))

def replace (table : TreeMap String String) (key source : List Char) : List Char :=
  match table[String.ofList key]? with
  | some value => value.toList
  | none => source

def substituteFrom (result rest : List Char) : List Char :=
  match _hrest : rest.dropWhile (· != '$') with
  | [] => result ++ rest
  | dollar :: afterDollar =>
    let result := result ++ rest.takeWhile (· != '$')
    match _hbraced : bracedStart.isPrefixOf? (dollar :: afterDollar) with
    | some afterStart =>
      match _hend : afterStart.dropWhile (· != '}') with
      | close :: afterKey =>
        let key := afterStart.takeWhile (· != '}')
        substituteFrom (result ++ replace params key (bracedStart ++ key ++ [close])) afterKey
      -- without a closing brace the start is literal text
      | [] => substituteFrom (result ++ bracedStart) afterStart
    | none =>
      match _henv : envStart.isPrefixOf? (dollar :: afterDollar) with
      | some afterStart =>
        let key := afterStart.takeWhile isKeyChar
        substituteFrom (result ++ replace (envStyle toUppercase params) key (envStart ++ key))
          (afterStart.dropWhile isKeyChar)
      | none => substituteFrom (result ++ [dollar]) afterDollar
termination_by rest.length
decreasing_by
  all_goals
    have hrest := (List.dropWhile_sublist (p := (· != '$')) (l := rest)).length_le
    rw [_hrest, List.length_cons] at hrest
  · have hstart := congrArg List.length (List.isPrefixOf?_eq_some_iff_append_eq.mp _hbraced)
    have hend := (List.dropWhile_sublist (p := (· != '}')) (l := afterStart)).length_le
    rw [_hend] at hend
    simp only [List.length_append, List.length_cons] at hstart hend
    omega
  · have hstart := congrArg List.length (List.isPrefixOf?_eq_some_iff_append_eq.mp _hbraced)
    have hlen : bracedStart.length = 9 := rfl
    simp only [List.length_append, List.length_cons] at hstart
    omega
  · have hstart := congrArg List.length (List.isPrefixOf?_eq_some_iff_append_eq.mp _henv)
    have hend := (List.dropWhile_sublist (p := isKeyChar) (l := afterStart)).length_le
    have hlen : envStart.length = 7 := rfl
    simp only [List.length_append, List.length_cons] at hstart
    omega
  · omega

def substituteParamsInStr (s : String) : String :=
  String.ofList (substituteFrom toUppercase params [] s.toList)

inductive Piece where
  | char (c : Char)
  | braced (key : List Char)
  | env (key : List Char)

def Piece.source : Piece → List Char
  | char c => [c]
  | braced key => bracedStart ++ key ++ ['}']
  | env key => envStart ++ key

inductive Starts : List Char → Piece → List Char → Prop where
  | braced {key rest : List Char} (hkey : '}' ∉ key) :
    Starts ((Piece.braced key).source ++ rest) (.braced key) rest
  | env {key rest : List Char} (hkey : ∀ c ∈ key, isKeyChar c = true)
      (hrest : ∀ c ∈ rest.head?, isKeyChar c = false) :
    Starts ((Piece.env key).source ++ rest) (.env key) rest

inductive Divides : List Char → List Piece → Prop where
  | nil : Divides [] []
  | reference {text rest : List Char} {piece : Piece} {pieces : List Piece}
      (hstart : Starts text piece rest) (hrest : Divides rest pieces) :
    Divides text (piece :: pieces)
  | char {c : Char} {rest : List Char} {pieces : List Piece}
      (hno : ∀ piece after, ¬ Starts (c :: rest) piece after) (hrest : Divides rest pieces) :
    Divides (c :: rest) (.char c :: pieces)

/-- The parameter that a piece names has the value: the key as it stands between braces, the key that
upper-cases to the one of the undelimited form. -/
def Piece.Names : Piece → String → Prop
  | char _, _ => False
  | braced key, value => params[String.ofList key]? = some value
  | env key, value => ∃ k, params[k]? = some value ∧ toUppercase k = String.ofList key

def Piece.Becomes (piece : Piece) (out : List Char) : Prop :=
  (∃ value, piece.Names toUppercase params value ∧ out = value.toList) ∨
    (∀ value, ¬ piece.Names toUppercase params value) ∧ out = piece.source

def CaseDistinct : Prop :=
  ∀ k ∈ params, ∀ k' ∈ params, toUppercase k = toUppercase k' → k = k'

variable {toUppercase : String → String} {params : TreeMap String String}
variable {text rest after out : List Char} {piece : Piece} {pieces : List Piece}

theorem Starts.dollar (h : Starts text piece rest) : ∃ tail, text = '$' :: tail := by
  cases h with
  | braced | env => exact ⟨_, rfl⟩

theorem Starts.unique {other : Piece} (h : Starts text piece rest) (h' : Starts text other after) :
    piece = other ∧ rest = after := by
  cases h with
  | @braced key rest hkey =>
    generalize htext : (Piece.braced key).source ++ rest = text at h'
    cases h' with
    | braced hkey' =>
      simp only [Piece.source, List.append_assoc, List.append_cancel_left_eq,
        List.singleton_append] at htext
      obtain ⟨rfl, hrest⟩ := append_sep_inj hkey hkey' htext
      exact ⟨rfl, hrest⟩
    | env => cases htext
  | @env key rest hkey hrest =>
    generalize htext : (Piece.env key).source ++ rest = text at h'
    cases h' with
    | braced => cases htext
    | env hkey' hrest' =>
      simp only [Piece.source, List.append_assoc, List.append_cancel_left_eq] at htext
      -- both keys are the longest run of identifier characters
      have hruns := congrArg (List.takeWhile isKeyChar) htext
      rw [takeWhile_run hkey hrest, takeWhile_run hkey' hrest'] at hruns
      subst hruns
      exact ⟨rfl, List.append_cancel_left htext⟩

theorem Divides.unique {other : List Piece} (h : Divides text pieces) (h' : Divides text other) :
    pieces = other := by
  induction h generalizing other with
  | nil =>
    cases h' with
    | nil => rfl
    | reference hstart => cases hstart.dollar.choose_spec
  | reference hstart _ ih =>
    cases h' with
    | nil => cases hstart.dollar.choose_spec
    | reference hstart' hrest' =>
      obtain ⟨rfl, rfl⟩ := hstart.unique hstart'
      rw [ih hrest']
    | char hno => exact absurd hstart (hno _ _)
  | char hno _ ih =>
    cases h' with
    | reference hstart' => exact absurd hstart' (hno _ _)
    | char _ hrest' => rw [ih hrest']

theorem Piece.becomes_unique (hcase : CaseDistinct toUppercase params) :
    Relator.RightUnique (Piece.Becomes toUppercase params) := by
  have hnames : ∀ {piece : Piece} {v v' : String}, piece.Names toUppercase params v →
      piece.Names toUppercase params v' → v = v' := by
    intro piece v v' h h'
    cases piece with
    | char => cases h
    | braced => exact Option.some.inj (h.symm.trans h')
    | env =>
      obtain ⟨k, hk, hkey⟩ := h
      obtain ⟨k', hk', hkey'⟩ := h'
      have heq := hcase k (TreeMap.mem_iff_isSome_getElem?.mpr (by rw [hk]; rfl)) k'
        (TreeMap.mem_iff_isSome_getElem?.mpr (by rw [hk']; rfl)) (hkey.trans hkey'.symm)
      exact Option.some.inj (hk.symm.trans (heq ▸ hk'))
  intro piece out out' h h'
  rcases h with ⟨v, hv, rfl⟩ | ⟨hno, rfl⟩ <;> rcases h' with ⟨v', hv', rfl⟩ | ⟨hno', rfl⟩
  · rw [hnames hv hv']
  · exact absurd hv (hno' v)
  · exact absurd hv' (hno v')
  · rfl

theorem becomes_braced (key : List Char) :
    (Piece.braced key).Becomes toUppercase params
      (replace params key (bracedStart ++ key ++ ['}'])) := by
  unfold replace
  split
  · rename_i value hvalue
    exact .inl ⟨value, hvalue, rfl⟩
  · rename_i hnone
    refine .inr ⟨fun value hvalue => ?_, rfl⟩
    cases hnone.symm.trans hvalue

theorem mem_of_mem_toList {entry : String × String} (h : entry ∈ params.toList) : entry.1 ∈ params :=
  TreeMap.mem_iff_isSome_getElem?.mpr (by rw [TreeMap.mem_toList_iff_getElem?_eq_some.mp h]; rfl)

theorem getElem?_envStyle (hcase : CaseDistinct toUppercase params) (key value : String) :
    (envStyle toUppercase params)[key]? = some value ↔
      ∃ k, params[k]? = some value ∧ toUppercase k = key := by
  have hdistinct : (params.toList.map fun entry => (toUppercase entry.1, entry.2)).Pairwise
      fun a b => ¬ compare a.1 b.1 = .eq := by
    refine List.pairwise_map.mpr (params.distinct_keys_toList.imp_of_mem fun ha hb hne heq => hne ?_)
    have hkeys := hcase _ (mem_of_mem_toList ha) _ (mem_of_mem_toList hb) (Std.compare_eq_iff_eq.mp heq)
    rw [hkeys, ReflOrd.compare_self]
  constructor
  · intro h
    have hmem : key ∈ (params.toList.map fun entry => (toUppercase entry.1, entry.2)).map Prod.fst := by
      by_contra hnot
      rw [envStyle, TreeMap.getElem?_ofList_of_contains_eq_false (by simpa using hnot)] at h
      cases h
    obtain ⟨entry, hentry, rfl⟩ : ∃ entry ∈ params.toList, toUppercase entry.1 = key := by
      simpa using hmem
    have hvalue : (envStyle toUppercase params)[toUppercase entry.1]? = some entry.2 :=
      TreeMap.getElem?_ofList_of_mem ReflOrd.compare_self hdistinct
        (List.mem_map_of_mem (f := fun entry => (toUppercase entry.1, entry.2)) hentry)
    cases hvalue.symm.trans h
    exact ⟨entry.1, TreeMap.mem_toList_iff_getElem?_eq_some.mp hentry, rfl⟩
  · rintro ⟨k, hk, rfl⟩
    exact TreeMap.getElem?_ofList_of_mem ReflOrd.compare_self hdistinct
      (List.mem_map_of_mem (f := fun entry => (toUppercase entry.1, entry.2))
        (TreeMap.mem_toList_iff_getElem?_eq_some.mpr hk))

theorem becomes_env (hcase : CaseDistinct toUppercase params) (key : List Char) :
    (Piece.env key).Becomes toUppercase params
      (replace (envStyle toUppercase params) key (envStart ++ key)) := by
  unfold replace
  split
  · rename_i value hvalue
    exact .inl ⟨value, (getElem?_envStyle hcase _ value).mp hvalue, rfl⟩
  · rename_i hnone
    refine .inr ⟨fun value hvalue => ?_, rfl⟩
    cases hnone.symm.trans ((getElem?_envStyle hcase _ value).mpr hvalue)

variable (toUppercase params) in
def Renders (text out : List Char) : Prop :=
  ∃ pieces outs, Divides text pieces ∧ List.Forall₂ (Piece.Becomes toUppercase params) pieces outs ∧
    out = outs.flatten

theorem Renders.reference {new : List Char} (hstart : Starts text piece rest)
    (hnew : piece.Becomes toUppercase params new) (h : Renders toUppercase params rest out) :
    Renders toUppercase params text (new ++ out) := by
  obtain ⟨pieces, outs, hdiv, hout, rfl⟩ := h
  exact ⟨piece :: pieces, new :: outs, .reference hstart hdiv, .cons hnew hout, rfl⟩

theorem Renders.char {c : Char} (hno : ∀ piece after, ¬ Starts (c :: rest) piece after)
    (h : Renders toUppercase params rest out) : Renders toUppercase params (c :: rest) (c :: out) := by
  obtain ⟨pieces, outs, hdiv, hout, rfl⟩ := h
  have hnew : (Piece.char c).Becomes toUppercase params [c] := .inr ⟨fun _ hfalse => hfalse, rfl⟩
  exact ⟨.char c :: pieces, [c] :: outs, .char hno hdiv, .cons hnew hout, rfl⟩

theorem Renders.literal (htext : '$' ∉ text) (h : Renders toUppercase params rest out) :
    Renders toUppercase params (text ++ rest) (text ++ out) := by
  induction text with
  | nil => exact h
  | cons c tail ih =>
    refine (ih fun hmem => htext (.tail c hmem)).char fun piece after hstart => ?_
    obtain ⟨_, heq⟩ := hstart.dollar
    exact htext ((List.cons.inj heq).1 ▸ .head tail)

theorem Renders.pastText (h : Renders toUppercase params (rest.dropWhile (· != '$')) out) :
    Renders toUppercase params rest (rest.takeWhile (· != '$') ++ out) := by
  have hall := h.literal (notMem_takeWhile_ne '$' rest)
  rwa [List.takeWhile_append_dropWhile] at hall

/-- The induction is on the scan: what is already in the result stays in front of what the rest of the
text becomes. -/
theorem renders_substituteFrom (hcase : CaseDistinct toUppercase params) (result rest : List Char) :
    ∃ out, Renders toUppercase params rest out ∧
      substituteFrom toUppercase params result rest = result ++ out := by
  fun_induction substituteFrom toUppercase params result rest with
  | case1 result rest hrest =>
    have hend : Renders toUppercase params (rest.dropWhile (· != '$')) [] := by
      rw [hrest]
      exact ⟨[], [], .nil, .nil, rfl⟩
    have hall : rest.takeWhile (· != '$') = rest :=
      List.takeWhile_eq_self_iff.mpr (List.dropWhile_eq_nil_iff.mp hrest)
    exact ⟨rest, by simpa [hall] using hend.pastText, rfl⟩
  | case2 result rest _ _ hrest now afterStart hstart _ afterKey hend key ih =>
    obtain ⟨out, hout, heq⟩ := ih
    obtain ⟨rfl, hkey⟩ := eq_of_dropWhile_ne hend
    have htext := List.isPrefixOf?_eq_some_iff_append_eq.mp hstart
    have hpiece : Starts (rest.dropWhile (· != '$')) (.braced key) afterKey := by
      rw [hrest, ← htext, hkey]
      simpa [Piece.source] using Starts.braced (notMem_takeWhile_ne '}' afterStart)
    refine ⟨_, (hout.reference hpiece (becomes_braced key)).pastText, ?_⟩
    rw [heq]
    simp only [now, List.append_assoc]
  | case3 result rest _ _ hrest now afterStart hstart hend ih =>
    obtain ⟨out, hout, heq⟩ := ih
    have htext := List.isPrefixOf?_eq_some_iff_append_eq.mp hstart
    have hopen : '}' ∉ afterStart := fun hmem => by
      simpa using List.dropWhile_eq_nil_iff.mp hend _ hmem
    have hno : ∀ piece after, ¬ Starts (bracedStart ++ afterStart) piece after := by
      intro piece after h
      generalize hwhole : bracedStart ++ afterStart = text at h
      cases h with
      | braced =>
        simp only [Piece.source, List.append_assoc, List.append_cancel_left_eq] at hwhole
        exact hopen (by simp [hwhole])
      | env => cases hwhole
    have hlit : Renders toUppercase params (rest.dropWhile (· != '$')) (bracedStart ++ out) := by
      rw [hrest, ← htext]
      have hplain : '$' ∉ bracedStart.tail := by decide
      exact (hout.literal hplain).char hno
    refine ⟨_, hlit.pastText, ?_⟩
    rw [heq]
    simp only [now, List.append_assoc]
  | case4 result rest _ _ hrest now _ afterStart hstart key ih =>
    obtain ⟨out, hout, heq⟩ := ih
    have htext := List.isPrefixOf?_eq_some_iff_append_eq.mp hstart
    have hpiece : Starts (rest.dropWhile (· != '$')) (.env key) (afterStart.dropWhile isKeyChar) := by
      have hsource : envStart ++ afterStart = (Piece.env key).source ++ afterStart.dropWhile isKeyChar := by
        simp only [Piece.source, key, List.append_assoc, List.takeWhile_append_dropWhile]
      rw [hrest, ← htext, hsource]
      refine .env (fun c hc => List.mem_takeWhile_imp hc) fun c hc => ?_
      have hstop := List.head?_dropWhile_not isKeyChar afterStart
      rwa [Option.mem_def.mp hc] at hstop
    refine ⟨_, (hout.reference hpiece (becomes_env hcase key)).pastText, ?_⟩
    rw [heq]
    simp only [now, List.append_assoc]
  | case5 result rest dollar afterDollar hrest now hbraced henv ih =>
    obtain ⟨out, hout, heq⟩ := ih
    have hno : ∀ piece after, ¬ Starts (dollar :: afterDollar) piece after := by
      intro piece after h
      generalize dollar :: afterDollar = text at h hbraced henv
      cases h with
      | braced =>
        rw [Piece.source, List.append_assoc, List.append_assoc,
          List.isPrefixOf?_eq_some_iff_append_eq.mpr rfl] at hbraced
        cases hbraced
      | env =>
        rw [Piece.source, List.append_assoc, List.isPrefixOf?_eq_some_iff_append_eq.mpr rfl] at henv
        cases henv
    have hlit : Renders toUppercase params (rest.dropWhile (· != '$')) (dollar :: out) := by
      rw [hrest]
      exact hout.char hno
    refine ⟨_, hlit.pastText, ?_⟩
    rw [heq]
    simp only [now, List.append_assoc, List.singleton_append]

theorem divides_of_no_start (hno : ∀ before after, text = before ++ after →
    ∀ piece rest, ¬ Starts after piece rest) : Divides text (text.map .char) := by
  induction text with
  | nil => exact .nil
  | cons c tail ih =>
    refine .char (hno [] _ rfl) (ih fun before after heq => hno (c :: before) after ?_)
    rw [heq, List.cons_append]

/-- The substitution is the replacement of every reference of the text's division on its own, and both
the division and what its pieces become are determined; a text without a reference stays as it is. -/
theorem substitution_simultaneous (toUppercase : String → String) (params : TreeMap String String)
    (hcase : CaseDistinct toUppercase params) (s : String) :
    (∃ pieces outs, Divides s.toList pieces ∧
      List.Forall₂ (Piece.Becomes toUppercase params) pieces outs ∧
      (substituteParamsInStr toUppercase params s).toList = outs.flatten ∧
      (∀ other, Divides s.toList other → other = pieces) ∧
      ∀ other, List.Forall₂ (Piece.Becomes toUppercase params) pieces other → other = outs) ∧
    ((∀ before after, s.toList = before ++ after → ∀ piece rest, ¬ Starts after piece rest) →
      substituteParamsInStr toUppercase params s = s) := by
  obtain ⟨out, ⟨pieces, outs, hdiv, houts, rfl⟩, heq⟩ :=
    renders_substituteFrom hcase [] s.toList
  have hresult : (substituteParamsInStr toUppercase params s).toList = outs.flatten := by
    rw [substituteParamsInStr, String.toList_ofList, heq, List.nil_append]
  refine ⟨⟨pieces, outs, hdiv, houts, hresult, fun other hother => hother.unique hdiv,
    fun other hother => (Piece.becomes_unique hcase).forall₂ hother houts⟩, fun hno => ?_⟩
  have hchars := hdiv.unique (divides_of_no_start hno)
  subst hchars
  have hsame : List.Forall₂ (Piece.Becomes toUppercase params) (s.toList.map .char)
      (s.toList.map fun c => [c]) := by
    rw [List.forall₂_map_left_iff, List.forall₂_map_right_iff, List.forall₂_same]
    exact fun c _ => .inr ⟨fun _ hfalse => hfalse, rfl⟩
  rw [(Piece.becomes_unique hcase).forall₂ houts hsame] at hresult
  apply String.toList_injective
  rw [hresult]
  simp [← List.flatMap_def]

/-- The key of the longer name is not taken for that of the shorter one. -/
theorem substitution_simultaneous_two_keys :
    let params := ((∅ : TreeMap String String).insert "speed" "1").insert "speed_limit" "$PARAM_SPEED"
    ∃ pieces outs, Divides "go $PARAM_SPEED_LIMIT".toList pieces ∧
      List.Forall₂ (Piece.Becomes String.toUpper params) pieces outs ∧
      (substituteParamsInStr String.toUpper params "go $PARAM_SPEED_LIMIT").toList = outs.flatten := by
  intro params
  have hcase : CaseDistinct String.toUpper params := by
    have hkeys : ∀ k ∈ params, k = "speed_limit" ∨ k = "speed" := by
      intro k hk
      simp only [params, TreeMap.mem_insert, Std.compare_eq_iff_eq] at hk
      simpa [eq_comm] using hk
    intro k hk k' hk' heq
    rcases hkeys k hk with rfl | rfl <;> rcases hkeys k' hk' with rfl | rfl
    · rfl
    · exact absurd heq (by decide +kernel)
    · exact absurd heq (by decide +kernel)
    · rfl
  obtain ⟨⟨pieces, outs, hdiv, houts, hresult, _⟩, _⟩ :=
    substitution_simultaneous String.toUpper params hcase "go $PARAM_SPEED_LIMIT"
  exact ⟨pieces, outs, hdiv, houts, hresult⟩

end Dora.Expand
