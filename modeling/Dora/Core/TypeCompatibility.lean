import Dora.Core.TypeRegistry
import Dora.Lib.BoundedSearch

/-!
# Type compatibility (`libraries/core/src/types.rs`)

An output may feed an input of another type if rules, the built-in ones and those of the dataflow, lead
from the one to the other. A rule is stored under its source as written, while the search looks the
source up by its base.
-/

namespace Dora

open Std Lib

/-- `TypeRule`; `source` and `target` are its fields `from` and `to`. -/
structure TypeRule where
  source : String
  target : String
deriving DecidableEq

def paramsAgree (a b : TreeMap String String) : Bool :=
  if a.isEmpty || b.isEmpty then true
  else a.toList.all fun entry => b[entry.1]?.all (· == entry.2)

def typesMatch (a b : String) : Bool :=
  match parseUrn a, parseUrn b with
  | some pa, some pb => if pa.base != pb.base then false else paramsAgree pa.params pb.params
  | _, _ => a == b

structure CompatibilityGraph where
  edges : TreeMap String (List String)

namespace CompatibilityGraph

def builtins : List TypeRule :=
  [⟨"std/core/v1/UInt8", "std/core/v1/UInt32"⟩, ⟨"std/core/v1/UInt32", "std/core/v1/UInt64"⟩,
    ⟨"std/core/v1/Int32", "std/core/v1/Int64"⟩, ⟨"std/core/v1/Float32", "std/core/v1/Float64"⟩]

def addRule (edges : TreeMap String (List String)) (rule : TypeRule) : TreeMap String (List String) :=
  edges.insert rule.source (edges.getD rule.source [] ++ [rule.target])

def new (userRules : List TypeRule) : CompatibilityGraph :=
  { edges := (builtins ++ userRules).foldl addRule ∅ }

def baseOf (urn : String) : String := ((parseUrn urn).map ParsedUrn.base).getD urn

def isCompatible (graph : CompatibilityGraph) (source target : String) : Bool :=
  if target = "std/core/v1/Bytes" then true
  else if baseOf source = baseOf target then
    match parseUrn source, parseUrn target with
    | some fp, some tp => paramsAgree fp.params tp.params
    | _, _ => true
  else
    Frontier.hunt (graph.edges.getD · []) (baseOf target) 3 ((graph.edges.toList.flatMap Prod.snd).length + 1)
      { queue := [(baseOf source, 0)], visited := TreeSet.insert ∅ (baseOf source) }

/-! ## URNs and their bases -/

variable {urn a b : String}

theorem parseUrn_of_plain (hne : urn ≠ "") (hplain : '[' ∉ urn.toList) :
    parseUrn urn = some { base := urn, params := ∅ } := by
  unfold parseUrn
  rw [if_neg (by simpa using hne), if_pos (by simpa using hplain)]

theorem base_of_parseUrn {parsed : ParsedUrn} (h : parseUrn urn = some parsed) :
    parsed.base ≠ "" ∧ '[' ∉ parsed.base.toList := by
  unfold parseUrn at h
  split at h
  · cases h
  · rename_i hne
    split at h
    · rename_i hplain
      cases h
      exact ⟨by simpa using hne, by simpa using hplain⟩
    · split at h
      · cases h
      · dsimp only at h
        split at h
        · cases h
        · rename_i hbase
          split at h
          · cases h
          · obtain ⟨params, -, hparsed⟩ := Option.bind_eq_some_iff.mp h
            cases hparsed
            refine ⟨by simpa using hbase, ?_⟩
            rw [String.toList_ofList]
            exact notMem_takeWhile_ne _ _

theorem baseOf_of_some {parsed : ParsedUrn} (h : parseUrn urn = some parsed) : baseOf urn = parsed.base := by
  rw [baseOf, h]
  rfl

theorem baseOf_of_none (h : parseUrn urn = none) : baseOf urn = urn := by
  rw [baseOf, h]
  rfl

theorem eq_of_baseOf_eq (ha : parseUrn a = none) (h : baseOf a = baseOf b) : a = b := by
  rw [baseOf_of_none ha] at h
  cases hb : parseUrn b with
  | none => rwa [baseOf_of_none hb] at h
  | some parsed =>
    obtain ⟨hne, hplain⟩ := base_of_parseUrn hb
    rw [baseOf_of_some hb] at h
    rw [h, parseUrn_of_plain hne hplain] at ha
    cases ha

theorem paramsAgree_iff {a b : TreeMap String String} :
    paramsAgree a b = true ↔ ∀ (k x y : String), a[k]? = some x → b[k]? = some y → x = y := by
  unfold paramsAgree
  split
  next h =>
    refine iff_of_true rfl fun k x y hx hy => ?_
    obtain h | h := Bool.or_eq_true_iff.mp h
    · rw [TreeMap.getElem?_of_isEmpty h] at hx
      cases hx
    · rw [TreeMap.getElem?_of_isEmpty h] at hy
      cases hy
  next h =>
    rw [List.all_eq_true]
    constructor
    · intro hall k x y hx hy
      have hentry := hall (k, x) (TreeMap.mem_toList_iff_getElem?_eq_some.mpr hx)
      rw [hy] at hentry
      exact (beq_iff_eq.mp hentry).symm
    · rintro hagree ⟨k, x⟩ hmem
      have hx := TreeMap.mem_toList_iff_getElem?_eq_some.mp hmem
      cases hy : b[k]? with
      | none => rfl
      | some y => exact beq_iff_eq.mpr (hagree k x y hx hy).symm

theorem typesMatch_of_base (h : baseOf a = baseOf b)
    (hparams : ∀ pa pb, parseUrn a = some pa → parseUrn b = some pb →
      paramsAgree pa.params pb.params = true) : typesMatch a b = true := by
  unfold typesMatch
  cases ha : parseUrn a with
  | none => exact beq_iff_eq.mpr (eq_of_baseOf_eq ha h)
  | some pa =>
    cases hb : parseUrn b with
    | none => exact beq_iff_eq.mpr (eq_of_baseOf_eq hb h.symm).symm
    | some pb =>
      rw [baseOf_of_some ha, baseOf_of_some hb] at h
      simpa [h] using hparams pa pb ha hb

theorem baseOf_eq_of_typesMatch (h : typesMatch a b = true) : baseOf a = baseOf b := by
  unfold typesMatch at h
  split at h
  next pa pb ha hb =>
    rw [baseOf_of_some ha, baseOf_of_some hb]
    split at h
    · cases h
    · rename_i hbase
      simpa using hbase
  next => exact congrArg baseOf (beq_iff_eq.mp h)

theorem typesMatch_self (urn : String) : typesMatch urn urn = true := by
  refine typesMatch_of_base rfl fun pa pb ha hb => ?_
  cases ha.symm.trans hb
  exact paramsAgree_iff.mpr fun k x y hx hy => Option.some.inj (hx.symm.trans hy)

theorem typesMatch_baseOf (urn : String) :
    typesMatch urn (baseOf urn) = true ∧ typesMatch (baseOf urn) urn = true := by
  cases h : parseUrn urn with
  | none =>
    rw [baseOf_of_none h]
    exact ⟨typesMatch_self urn, typesMatch_self urn⟩
  | some parsed =>
    obtain ⟨hne, hplain⟩ := base_of_parseUrn h
    have hparse := parseUrn_of_plain hne hplain
    have hbase : baseOf urn = baseOf parsed.base := by
      rw [baseOf_of_some h, baseOf_of_some hparse]
    rw [baseOf_of_some h]
    refine ⟨typesMatch_of_base hbase fun pa pb _ hb => ?_, typesMatch_of_base hbase.symm fun pa pb ha _ => ?_⟩
    · cases hparse.symm.trans hb
      exact paramsAgree_iff.mpr fun k x y _ hy => by simp at hy
    · cases hparse.symm.trans ha
      exact paramsAgree_iff.mpr fun k x y hx => by simp at hx

/-! ## The search -/

variable {rules : List TypeRule}

def Arrow (rules : List TypeRule) (a b : String) : Prop := ⟨a, b⟩ ∈ builtins ++ rules

theorem mem_edges_foldl (rules : List TypeRule) :
    b ∈ (rules.foldl addRule ∅).getD a [] ↔ ⟨a, b⟩ ∈ rules := by
  induction rules using List.reverseRecOn with
  | nil => simp
  | append_singleton rules rule ih =>
    rw [List.foldl_append, List.foldl_cons, List.foldl_nil, addRule, TreeMap.getD_insert, List.mem_append,
      List.mem_singleton, ← ih]
    obtain ⟨source, target⟩ := rule
    by_cases hsource : source = a
    · subst hsource
      simp
    · simp [hsource, Ne.symm hsource]

theorem mem_edges (a b : String) : b ∈ (new rules).edges.getD a [] ↔ Arrow rules a b := mem_edges_foldl _

theorem mem_nodes (a b : String) (h : b ∈ (new rules).edges.getD a []) :
    b ∈ (new rules).edges.toList.flatMap Prod.snd := by
  rw [TreeMap.getD_eq_getD_getElem?] at h
  cases hedges : (new rules).edges[a]? with
  | none => simp [hedges] at h
  | some targets =>
    rw [hedges] at h
    exact List.mem_flatMap.mpr ⟨(a, targets), TreeMap.mem_toList_iff_getElem?_eq_some.mpr hedges, h⟩

theorem isCompatible_iff {source target : String} :
    (new rules).isCompatible source target = true ↔ target = "std/core/v1/Bytes" ∨
      typesMatch source target = true ∨
      baseOf source ≠ baseOf target ∧ Within (Arrow rules) 3 (baseOf source) (baseOf target) := by
  unfold isCompatible
  split
  next hbytes => exact iff_of_true rfl (.inl hbytes)
  next hbytes =>
    rw [or_iff_right hbytes]
    split
    next hbase =>
      rw [or_iff_left fun h => h.1 hbase]
      unfold typesMatch
      split
      next pa pb ha hb =>
        rw [baseOf_of_some ha, baseOf_of_some hb] at hbase
        simp [hbase]
      next hnone =>
        refine iff_of_true rfl (beq_iff_eq.mpr ?_)
        cases ha : parseUrn source with
        | none => exact eq_of_baseOf_eq ha hbase
        | some pa =>
          cases hb : parseUrn target with
          | none => exact (eq_of_baseOf_eq hb hbase.symm).symm
          | some pb => exact (hnone pa pb ha hb).elim
    next hbase =>
      have hmatch : ¬ typesMatch source target = true := fun h => hbase (baseOf_eq_of_typesMatch h)
      rw [or_iff_right hmatch, and_iff_right hbase, Frontier.hunt_iff_within mem_nodes le_rfl]
      simp only [mem_edges]

/-! ## Chains of rules -/

/-- A rule for a type that `a` matches has the target `b`. -/
def Converts (rules : List TypeRule) (a b : String) : Prop :=
  ∃ rule ∈ builtins ++ rules, typesMatch a rule.source = true ∧ rule.target = b

/-- What the rules declare: the target accepts anything, or the two types match, or they are the ends of a
rule, or a chain of at most three rules leads from the one to the other, which is of another base. -/
def Convertible (rules : List TypeRule) (source target : String) : Prop :=
  target = "std/core/v1/Bytes" ∨ typesMatch source target = true ∨ ⟨source, target⟩ ∈ builtins ++ rules ∨
    baseOf source ≠ baseOf target ∧
      ∃ urn, Within (Converts rules) 3 source urn ∧ typesMatch urn target = true

/-- Both ends are bases, as the search looks them up, or the rule adds nothing. -/
def Spelled (rule : TypeRule) : Prop :=
  typesMatch rule.source rule.target = true ∨
    baseOf rule.source = rule.source ∧ baseOf rule.target = rule.target

theorem within_converts_of_arrow {n : Nat} {source u v : String} (h : Within (Arrow rules) n u v)
    (hsource : typesMatch source u = true) : Within (Converts rules) n source v := by
  induction n generalizing source u with
  | zero => exact h.elim
  | succ n ih =>
    obtain ⟨w, harrow, hrest⟩ := h
    exact ⟨w, ⟨⟨u, w⟩, harrow, hsource, rfl⟩, hrest.imp_right fun hrest => ih hrest (typesMatch_self w)⟩

theorem convertible_of_isCompatible {source target : String}
    (h : (new rules).isCompatible source target = true) : Convertible rules source target := by
  obtain hbytes | hmatch | ⟨hbase, hwalk⟩ := isCompatible_iff.mp h
  · exact .inl hbytes
  · exact .inr (.inl hmatch)
  · exact .inr (.inr (.inr ⟨hbase, _, within_converts_of_arrow hwalk (typesMatch_baseOf source).1,
      (typesMatch_baseOf target).2⟩))

theorem spelled_builtins {rule : TypeRule} (h : rule ∈ builtins) :
    baseOf rule.source = rule.source ∧ baseOf rule.target = rule.target := by
  revert rule
  decide +kernel

section Spelled

variable (hspelled : ∀ rule ∈ rules, Spelled rule)

include hspelled

theorem spelled_of_mem {rule : TypeRule} (h : rule ∈ builtins ++ rules) : Spelled rule :=
  (List.mem_append.mp h).elim (fun hrule => .inr (spelled_builtins hrule)) (hspelled rule)

theorem arrow_of_converts {n : Nat} {u v : String} (h : Within (Converts rules) n u v) :
    baseOf u = baseOf v ∨ Within (Arrow rules) n (baseOf u) (baseOf v) := by
  induction n generalizing u with
  | zero => exact h.elim
  | succ n ih =>
    obtain ⟨_, ⟨rule, hrule, hmatch, rfl⟩, hrest⟩ := h
    have hsource := baseOf_eq_of_typesMatch hmatch
    have hrest : baseOf rule.target = baseOf v ∨ Within (Arrow rules) n (baseOf rule.target) (baseOf v) :=
      hrest.elim (fun heq => .inl (heq ▸ rfl)) ih
    rcases spelled_of_mem hspelled hrule with hsame | ⟨hfrom, hto⟩
    · -- the rule does not leave its base, so the chain without it is no longer
      rw [hsource, baseOf_eq_of_typesMatch hsame]
      exact hrest.imp_right fun hwalk => hwalk.mono (Nat.le_succ n)
    · rw [hto] at hrest
      rw [hsource, hfrom]
      exact .inr ⟨rule.target, hrule, hrest⟩

theorem isCompatible_of_convertible {source target : String} (h : Convertible rules source target) :
    (new rules).isCompatible source target = true := by
  rw [isCompatible_iff]
  obtain hbytes | hmatch | hrule | ⟨hbase, urn, hchain, htarget⟩ := h
  · exact .inl hbytes
  · exact .inr (.inl hmatch)
  · rcases spelled_of_mem hspelled hrule with hmatch | ⟨hfrom, hto⟩
    · exact .inr (.inl hmatch)
    · by_cases heq : source = target
      · exact .inr (.inl (heq ▸ typesMatch_self source))
      · dsimp only at hfrom hto
        rw [hfrom, hto]
        exact .inr (.inr ⟨heq, target, hrule, .inl rfl⟩)
  · rw [← baseOf_eq_of_typesMatch htarget] at hbase ⊢
    exact .inr (.inr ⟨hbase, (arrow_of_converts hspelled hchain).resolve_left hbase⟩)

end Spelled

theorem baseOf_baseOf (urn : String) : baseOf (baseOf urn) = baseOf urn :=
  (baseOf_eq_of_typesMatch (typesMatch_baseOf urn).1).symm

/-- A search from base to base never passes a rule with parameters at one of its ends. -/
theorem within_of_not_spelled {rule : TypeRule} (hrule : ¬ Spelled rule) {n : Nat} {u v : String}
    (hu : baseOf u = u) (hv : baseOf v = v) (h : Within (Arrow [rule]) n u v) : Within (Arrow []) n u v := by
  have harrow {a b : String} (h : Arrow [rule] a b) : ⟨a, b⟩ ∈ builtins ∨ rule = ⟨a, b⟩ :=
    (List.mem_append.mp h).imp_right fun hmem => (List.mem_singleton.mp hmem).symm
  induction n generalizing u with
  | zero => exact h.elim
  | succ n ih =>
    obtain ⟨w, hstep, hrest⟩ := h
    rcases harrow hstep with hbuiltin | rfl
    · refine ⟨w, List.mem_append_left _ hbuiltin, hrest.imp_right (ih (spelled_builtins hbuiltin).2)⟩
    · have hw : baseOf w ≠ w := fun hw => hrule (.inr ⟨hu, hw⟩)
      rcases hrest with rfl | hrest
      · exact absurd hv hw
      · -- no rule begins at a type with parameters that a rule led to
        cases n with
        | zero => exact hrest.elim
        | succ n =>
          obtain ⟨x, hnext, -⟩ := hrest
          rcases harrow hnext with hbuiltin | heq
          · exact absurd (spelled_builtins hbuiltin).1 hw
          · cases heq
            exact absurd hu hw

theorem not_compatible_of_not_spelled {rule : TypeRule} (hrule : ¬ Spelled rule)
    (hbuiltins : ¬ Within (Arrow []) 3 (baseOf rule.source) (baseOf rule.target)) :
    ∃ target, Convertible [rule] rule.source target ∧
      (new [rule]).isCompatible rule.source target = false := by
  have hmem : rule ∈ builtins ++ [rule] := by simp
  have hmatch : ¬ typesMatch rule.source rule.target = true := fun h => hrule (.inl h)
  have hwalk : ¬ Within (Arrow [rule]) 3 (baseOf rule.source) (baseOf rule.target) := fun h =>
    hbuiltins (within_of_not_spelled hrule (baseOf_baseOf _) (baseOf_baseOf _) h)
  have hno {target : String} (hbytes : target ≠ "std/core/v1/Bytes")
      (htarget : typesMatch rule.target target = true) (hother : ¬ typesMatch rule.source target = true) :
      (new [rule]).isCompatible rule.source target = false := by
    refine Bool.eq_false_iff.mpr fun h => ?_
    rcases isCompatible_iff.mp h with hcase | hcase | hcase
    · exact hbytes hcase
    · exact hother hcase
    · exact hwalk (baseOf_eq_of_typesMatch htarget ▸ hcase.2)
  by_cases hbytes : rule.target = "std/core/v1/Bytes"
  · -- raw bytes are accepted without a rule, but raw bytes with a parameter are not
    have htarget : typesMatch rule.target "std/core/v1/Bytes[k=1]" = true := hbytes ▸ by decide +kernel
    have hbase : baseOf rule.source ≠ baseOf "std/core/v1/Bytes[k=1]" := by
      intro heq
      have hsame : baseOf rule.source = rule.target := (heq.trans (by decide +kernel)).trans hbytes.symm
      exact hmatch (hsame ▸ (typesMatch_baseOf rule.source).1)
    refine ⟨_, .inr (.inr (.inr ⟨hbase, rule.target, ?_, htarget⟩)), hno (by decide) htarget fun h => ?_⟩
    · exact ⟨rule.target, ⟨rule, hmem, typesMatch_self _, rfl⟩, .inl rfl⟩
    · exact hbase (baseOf_eq_of_typesMatch h)
  · exact ⟨rule.target, .inr (.inr (.inl hmem)), hno hbytes (typesMatch_self _) hmatch⟩

/-- More rules take no compatibility away; neither their order nor a repetition matters. -/
theorem compatible_mono {rules rules' : List TypeRule} (hrules : rules ⊆ rules') {source target : String}
    (h : (new rules).isCompatible source target = true) :
    (new rules').isCompatible source target = true := by
  rw [isCompatible_iff] at h ⊢
  have harrow : ∀ a b, Arrow rules a b → Arrow rules' a b := fun a b hrule =>
    List.mem_append.mpr ((List.mem_append.mp hrule).imp_right (@hrules _))
  exact h.imp_right (Or.imp_right fun hchain => ⟨hchain.1, hchain.2.imp harrow⟩)

theorem compatible_with_more_rules :
    let toRaw : TypeRule := ⟨"cam/Rgb", "cam/Raw"⟩
    (new [⟨"cam/Raw", "cam/Grey"⟩, toRaw]).isCompatible "cam/Rgb[depth=8]" "cam/Raw" = true := by
  intro toRaw
  have halone : (new [toRaw]).isCompatible "cam/Rgb[depth=8]" "cam/Raw" = true := by decide +kernel
  exact compatible_mono (List.subset_cons_self _ _) halone

end CompatibilityGraph

end Dora
