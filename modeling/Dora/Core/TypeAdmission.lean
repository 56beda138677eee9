import Dora.Core.TypeRegistry
import Dora.Lib.Machine

/-!
# Admission of shipped types (`libraries/core/src/manifest/inject.rs`)

The manifests next to the nodes of a dataflow ship custom types. A type is registered once its arrow
kind is known and all its field types resolve, possibly to other shipped types, so the candidates
are visited again and again until a pass admits none.
-/

namespace Dora

open Std Lib

structure NodeManifest where
  «namespace» : String
  types : TreeMap String TypeDef

/-- `has_namespace_prefix` -/
def hasNamespace (urn «namespace» : String) : Bool :=
  match stripStart «namespace» urn with
  | some rest => startsWith rest "/"
  | none => false

/-- The problem, or `none` if the manifest may ship this URN. -/
def checkShippedTypeUrn (urn «namespace» : String) : Option String :=
  if !urn.toList.all TypeRegistry.validChar then
    some ("type URN `" ++ urn ++ "` may only contain alphanumerics and `_ - . /`")
  else if (urn.toList.splitOn '/').any fun seg => seg == [] || seg == ['.'] || seg == ['.', '.'] then
    some ("type URN `" ++ urn ++ "` must not contain empty or `.`/`..` path segments")
  else if startsWith urn "std/" || urn == "std" then
    some "shipped types cannot use the `std/` prefix"
  else if !hasNamespace urn «namespace» then
    some ("shipped types must live under this package's namespace (`" ++ «namespace» ++ "/…`)")
  else none

def shippedTypes (manifests : List NodeManifest) : List (String × TypeDef) :=
  manifests.flatMap fun manifest =>
    manifest.types.toList.filter fun entry =>
      (checkShippedTypeUrn entry.1 manifest.namespace).isNone

namespace TypeRegistry

def bodyValid (scratch : TypeRegistry) (typeDef : TypeDef) : Bool :=
  isKnownArrowType typeDef.arrow &&
    typeDef.fields.all fun field => scratch.fieldTypeResolves field.type

def visit (scratch : TypeRegistry) (candidate : String × TypeDef) : TypeRegistry × Bool :=
  if (scratch.resolve candidate.1).isSome then (scratch, false)
  else if scratch.bodyValid candidate.2 then (scratch.insertType candidate.1 candidate.2, true)
  else (scratch, false)

/-- The `loop`, with a bound on the number of passes. -/
def admitLoop (candidates : List (String × TypeDef)) : Nat → TypeRegistry → Option TypeRegistry
  | 0, _ => none
  | passes + 1, scratch =>
    let pass := run visit scratch candidates
    if pass.2.any id then admitLoop candidates passes pass.1 else some pass.1

def registerAdmitted (scratch : TypeRegistry) (registry : TypeRegistry)
    (candidate : String × TypeDef) : TypeRegistry :=
  match registry.resolve candidate.1, scratch.resolve candidate.1 with
  | none, some admitted =>
    match registry.addUserType candidate.1 admitted with
    | .ok registry => registry
    | .error _ => registry
  | _, _ => registry

/-- The part of `inject_adjacent_manifests` that works on the registry. -/
def injectShippedTypes (passes : Nat) (manifests : List NodeManifest) (registry : TypeRegistry) :
    Option TypeRegistry := do
  let candidates := shippedTypes manifests
  let scratch ← admitLoop candidates passes registry
  some (candidates.foldl (registerAdmitted scratch) registry)

end TypeRegistry

structure PlainUrn (urn : String) : Prop where
  chars : urn.toList.all TypeRegistry.validChar = true
  nonempty : urn ≠ ""
  user : (startsWith urn "std/" || urn == "std") = false

theorem plainUrn_of_checkShippedTypeUrn {urn ns : String}
    (h : checkShippedTypeUrn urn ns = none) : PlainUrn urn := by
  unfold checkShippedTypeUrn at h
  split at h
  · cases h
  rename_i hchars
  split at h
  · cases h
  rename_i hsegments
  split at h
  · cases h
  rename_i hstd
  refine ⟨by simpa using hchars, ?_, by simpa using hstd⟩
  rintro rfl
  exact hsegments (by decide)

theorem mem_shippedTypes {manifests : List NodeManifest} {candidate : String × TypeDef} :
    candidate ∈ shippedTypes manifests ↔ ∃ manifest ∈ manifests,
      manifest.types[candidate.1]? = some candidate.2 ∧
        checkShippedTypeUrn candidate.1 manifest.namespace = none := by
  simp only [shippedTypes, List.mem_flatMap, List.mem_filter, Option.isNone_iff_eq_none,
    ← TreeMap.mem_toList_iff_getElem?_eq_some, Prod.eta]

theorem plainUrn_of_mem_shippedTypes {manifests : List NodeManifest}
    {candidate : String × TypeDef} (h : candidate ∈ shippedTypes manifests) :
    PlainUrn candidate.1 := by
  obtain ⟨manifest, -, -, hcheck⟩ := mem_shippedTypes.mp h
  exact plainUrn_of_checkShippedTypeUrn hcheck

namespace TypeRegistry

variable {registry scratch : TypeRegistry} {urn : String} {candidate : String × TypeDef}

theorem resolve_of_plainUrn (hplain : PlainUrn urn) :
    registry.resolve urn = registry.types[urn]? := by
  have hbracket : '[' ∉ urn.toList := by
    intro hmem
    have hvalid := List.all_eq_true.mp hplain.chars '[' hmem
    exact absurd hvalid (by decide)
  have hparse : parseUrn urn = some { base := urn, params := ∅ } := by
    unfold parseUrn
    simp [hplain.nonempty, hbracket]
  unfold resolve
  rw [hparse]
  cases registry.types[urn]? <;> simp

theorem addUserType_of_plainUrn (hplain : PlainUrn urn) (typeDef : TypeDef) :
    registry.addUserType urn typeDef = .ok (registry.insertType urn typeDef) := by
  unfold addUserType
  simp [hplain.chars, hplain.nonempty, hplain.user]

theorem getElem?_insertType (typeDef : TypeDef) (urn' : String) :
    (registry.insertType urn typeDef).types[urn']? =
      if urn = urn' then some typeDef else registry.types[urn']? := by
  show (registry.types.insert urn typeDef)[urn']? = _
  rw [TreeMap.getElem?_insert]
  simp only [Std.compare_eq_iff_eq]

theorem mem_urns_iff_getElem? : urn ∈ registry.urns ↔ ∃ typeDef, registry.types[urn]? = some typeDef := by
  rw [mem_urns, TreeMap.mem_iff_isSome_getElem?, Option.isSome_iff_exists]

theorem notMem_urns_iff : urn ∉ registry.urns ↔ registry.types[urn]? = none := by
  rw [mem_urns, TreeMap.mem_iff_isSome_getElem?, Bool.not_eq_true, Option.isSome_eq_false_iff,
    Option.isNone_iff_eq_none]

theorem visit_cases (scratch : TypeRegistry) (hplain : PlainUrn candidate.1) :
    (scratch.visit candidate = (scratch.insertType candidate.1 candidate.2, true) ∧
        candidate.1 ∉ scratch.urns ∧ scratch.bodyValid candidate.2 = true) ∨
      (scratch.visit candidate = (scratch, false) ∧
        (scratch.bodyValid candidate.2 = true → candidate.1 ∈ scratch.urns)) := by
  unfold visit
  rw [resolve_of_plainUrn hplain]
  by_cases hmem : candidate.1 ∈ scratch.urns
  · have hsome : scratch.types[candidate.1]?.isSome = true := by
      rw [← TreeMap.mem_iff_isSome_getElem?]
      exact hmem
    rw [if_pos hsome]
    exact .inr ⟨rfl, fun _ => hmem⟩
  · rw [notMem_urns_iff.mp hmem]
    by_cases hvalid : scratch.bodyValid candidate.2 = true
    · exact .inl ⟨by simp [hvalid], hmem, hvalid⟩
    · exact .inr ⟨by simp [hvalid], fun h => absurd h hvalid⟩

theorem bodyValid_iff {typeDef : TypeDef} : scratch.bodyValid typeDef = true ↔
    isKnownArrowType typeDef.arrow = true ∧
      ∀ field ∈ typeDef.fields, scratch.fieldTypeResolves field.type = true := by
  rw [bodyValid, Bool.and_eq_true, List.all_eq_true]

/-- The candidates of a known kind, with the field types that they need. -/
def needs (candidates : List (String × TypeDef)) : Set (String × Set String) :=
  {entry | ∃ candidate ∈ candidates, isKnownArrowType candidate.2.arrow = true ∧
    entry = (candidate.1, {typeStr | ∃ field ∈ candidate.2.fields, field.type = typeStr})}

/-- The URNs that may come to be registered. -/
abbrev admissibleUrns (registry : TypeRegistry) (candidates : List (String × TypeDef)) : Set String :=
  typeLookup.admissible (needs candidates) registry.urns

def MayResolve (registry : TypeRegistry) (candidates : List (String × TypeDef)) (typeStr : String) : Prop :=
  typeLookup.Possible registry.urns (registry.admissibleUrns candidates) typeStr

/-- What an admission has made of the registry: it has kept what was there, and whatever is new is a
candidate that may be admitted. -/
structure Grown (candidates : List (String × TypeDef)) (registry scratch : TypeRegistry) : Prop where
  keeps : ∀ (urn : String) (typeDef : TypeDef), registry.types[urn]? = some typeDef →
    scratch.types[urn]? = some typeDef
  fresh : ∀ (urn : String) (typeDef : TypeDef), registry.types[urn]? = none →
    scratch.types[urn]? = some typeDef → (urn, typeDef) ∈ candidates ∧
      isKnownArrowType typeDef.arrow = true ∧
      ∀ field ∈ typeDef.fields, registry.MayResolve candidates field.type
  admissible : scratch.urns ⊆ registry.admissibleUrns candidates

variable {candidates : List (String × TypeDef)}

theorem Grown.urns_subset (hgrown : Grown candidates registry scratch) :
    registry.urns ⊆ scratch.urns := by
  intro urn hmem
  obtain ⟨typeDef, hget⟩ := mem_urns_iff_getElem?.mp hmem
  exact mem_urns_iff_getElem?.mpr ⟨typeDef, hgrown.keeps urn typeDef hget⟩

theorem Grown.visit (hgrown : Grown candidates registry scratch) (hmem : candidate ∈ candidates)
    (hplain : PlainUrn candidate.1) : Grown candidates registry (scratch.visit candidate).1 := by
  obtain ⟨hvisit, hnew, hvalid⟩ | ⟨hvisit, -⟩ := visit_cases scratch hplain
  · rw [hvisit]
    obtain ⟨hknown, hfields⟩ := bodyValid_iff.mp hvalid
    have hpossible : ∀ field ∈ candidate.2.fields, registry.MayResolve candidates field.type := by
      intro field hfield
      have hresolves := fieldTypeResolves_iff.mp (hfields field hfield)
      exact (hresolves.possible hgrown.urns_subset).mono hgrown.admissible
    refine ⟨?_, ?_, ?_⟩
    · intro urn typeDef hget
      have hold := hgrown.keeps urn typeDef hget
      rw [getElem?_insertType, if_neg, hold]
      rintro rfl
      exact hnew (mem_urns_iff_getElem?.mpr ⟨typeDef, hold⟩)
    · intro urn typeDef hnone hget
      rw [getElem?_insertType] at hget
      split at hget
      · rename_i heq
        cases hget
        subst heq
        exact ⟨hmem, hknown, hpossible⟩
      · exact hgrown.fresh urn typeDef hnone hget
    · rw [urns_insertType]
      have hneeds : (candidate.1, _) ∈ needs candidates := ⟨candidate, hmem, hknown, rfl⟩
      refine Set.insert_subset (Lookup.mem_admissible hneeds ?_) hgrown.admissible
      rintro typeStr ⟨field, hfield, rfl⟩
      exact hpossible field hfield
  · rw [hvisit]
    exact hgrown

theorem Grown.run (hplain : ∀ candidate ∈ candidates, PlainUrn candidate.1)
    {visits : List (String × TypeDef)} (hvisits : visits ⊆ candidates)
    (hgrown : Grown candidates registry scratch) :
    Grown candidates registry (Lib.run TypeRegistry.visit scratch visits).1 := by
  induction visits generalizing scratch with
  | nil => exact hgrown
  | cons candidate visits ih =>
    have hmem : candidate ∈ candidates := hvisits List.mem_cons_self
    have hrest : visits ⊆ candidates := fun other hother => hvisits (List.mem_cons_of_mem _ hother)
    exact ih hrest (hgrown.visit hmem (hplain candidate hmem))

theorem Grown.refl : Grown candidates registry registry :=
  ⟨fun _ _ h => h, fun _ _ hnone hsome => (nomatch hnone.symm.trans hsome), Lookup.subset_admissible⟩

theorem run_visit_quiet (hplain : ∀ candidate ∈ candidates, PlainUrn candidate.1)
    (hquiet : (run visit scratch candidates).2.any id = false) :
    (run visit scratch candidates).1 = scratch ∧ ∀ candidate ∈ candidates,
      scratch.bodyValid candidate.2 = true → candidate.1 ∈ scratch.urns := by
  induction candidates generalizing scratch with
  | nil => exact ⟨rfl, fun _ h => nomatch h⟩
  | cons candidate candidates ih =>
    have hrest : ∀ other ∈ candidates, PlainUrn other.1 := fun other hother =>
      hplain other (List.mem_cons_of_mem _ hother)
    obtain ⟨hvisit, -, -⟩ | ⟨hvisit, hready⟩ :=
      visit_cases scratch (hplain candidate List.mem_cons_self)
    · simp only [run, hvisit, List.any_cons, id, Bool.true_or, Bool.true_eq_false] at hquiet
    · simp only [run, hvisit, List.any_cons, id, Bool.false_or] at hquiet ⊢
      obtain ⟨hsame, hothers⟩ := ih hrest hquiet
      refine ⟨hsame, ?_⟩
      intro other hother
      rcases List.mem_cons.mp hother with rfl | hmem
      · exact hready
      · exact hothers other hmem

def pending (candidates : List (String × TypeDef)) (scratch : TypeRegistry) : Nat :=
  candidates.countP fun candidate => !scratch.types.contains candidate.1

theorem pending_le (candidates : List (String × TypeDef)) {scratch' : TypeRegistry}
    (h : scratch.urns ⊆ scratch'.urns) :
    pending candidates scratch' ≤ pending candidates scratch := by
  apply List.countP_mono_left
  intro candidate _ hnew
  rw [Bool.not_eq_true', ← Bool.not_eq_true, TreeMap.contains_iff_mem] at hnew ⊢
  exact fun hmem => hnew (h hmem)

theorem pending_insertType (hmem : candidate ∈ candidates) (hnew : candidate.1 ∉ scratch.urns) :
    pending candidates (scratch.insertType candidate.1 candidate.2) < pending candidates scratch := by
  obtain ⟨before, after, rfl⟩ := List.append_of_mem hmem
  have hgrows : scratch.urns ⊆ (scratch.insertType candidate.1 candidate.2).urns := by
    rw [urns_insertType]
    exact Set.subset_insert _ _
  have hhere : candidate.1 ∈ (scratch.insertType candidate.1 candidate.2).types := by
    rw [← mem_urns, urns_insertType]
    exact Set.mem_insert _ _
  have hbefore := pending_le before hgrows
  have hafter := pending_le after hgrows
  have hgone : scratch.types.contains candidate.1 = false := by
    rw [← Bool.not_eq_true, TreeMap.contains_iff_mem]
    exact hnew
  simp only [pending] at hbefore hafter ⊢
  rw [List.countP_append, List.countP_append, List.countP_cons, List.countP_cons, hgone,
    TreeMap.contains_iff_mem.mpr hhere]
  simp only [Bool.not_true, Bool.not_false, Bool.false_eq_true, if_true, if_false]
  omega

theorem pending_run (hplain : ∀ candidate ∈ candidates, PlainUrn candidate.1)
    {visits : List (String × TypeDef)} (hvisits : visits ⊆ candidates)
    (hadmits : (run visit scratch visits).2.any id = true) :
    pending candidates (run visit scratch visits).1 < pending candidates scratch := by
  induction visits generalizing scratch with
  | nil => cases hadmits
  | cons candidate visits ih =>
    have hmem : candidate ∈ candidates := hvisits List.mem_cons_self
    have hrest : visits ⊆ candidates := fun other hother => hvisits (List.mem_cons_of_mem _ hother)
    obtain ⟨hvisit, hnew, -⟩ | ⟨hvisit, -⟩ := visit_cases scratch (hplain candidate hmem)
    · simp only [run, hvisit]
      have hless := pending_insertType hmem hnew
      have hgrown : Grown candidates (scratch.insertType candidate.1 candidate.2) _ :=
        Grown.refl.run hplain hrest
      exact Nat.lt_of_le_of_lt (pending_le candidates hgrown.urns_subset) hless
    · simp only [run, hvisit, List.any_cons, id, Bool.false_or] at hadmits ⊢
      exact ih hrest hadmits

theorem admitLoop_spec (hplain : ∀ candidate ∈ candidates, PlainUrn candidate.1) (passes : Nat)
    (hgrown : Grown candidates registry scratch) (hpasses : pending candidates scratch < passes) :
    ∃ final, admitLoop candidates passes scratch = some final ∧ Grown candidates registry final ∧
      ∀ candidate ∈ candidates, final.bodyValid candidate.2 = true → candidate.1 ∈ final.urns := by
  induction passes generalizing scratch with
  | zero => omega
  | succ passes ih =>
    unfold admitLoop
    cases hany : (run visit scratch candidates).2.any id with
    | false =>
      obtain ⟨hsame, hready⟩ := run_visit_quiet hplain hany
      simp only [hany, Bool.false_eq_true, if_false, hsame]
      exact ⟨scratch, rfl, hgrown, hready⟩
    | true =>
      have hless := pending_run hplain (List.Subset.refl _) hany
      simp only [hany, if_true]
      exact ih (hgrown.run hplain (List.Subset.refl _)) (by omega)

theorem admitLoop_of_le {passes passes' : Nat} {final : TypeRegistry} (hle : passes ≤ passes')
    (h : admitLoop candidates passes scratch = some final) :
    admitLoop candidates passes' scratch = some final := by
  induction passes generalizing passes' scratch with
  | zero => cases h
  | succ passes ih =>
    obtain ⟨more, rfl⟩ : ∃ more, passes' = more + 1 := ⟨passes' - 1, by omega⟩
    unfold admitLoop at h ⊢
    dsimp only at h ⊢
    split
    · rename_i hany
      rw [if_pos hany] at h
      exact ih (by omega) h
    · rename_i hany
      rw [if_neg hany] at h
      exact h

/-- The types that the admission is about: the candidates that may be admitted, and the registered types
that their field types name, at any depth. -/
inductive Relied (registry : TypeRegistry) (candidates : List (String × TypeDef)) : TypeDef → Prop
  | shipped {urn : String} {typeDef : TypeDef} (hmem : (urn, typeDef) ∈ candidates)
      (hknown : isKnownArrowType typeDef.arrow = true)
      (hfields : ∀ field ∈ typeDef.fields, registry.MayResolve candidates field.type) :
      Relied registry candidates typeDef
  | registered {urn : String} {typeDef typeDef' : TypeDef} {field : FieldDef}
      (h : Relied registry candidates typeDef) (hfield : field ∈ typeDef.fields)
      (hnames : typeLookup.full field.type urn ∨ typeLookup.short field.type urn)
      (hget : registry.types[urn]? = some typeDef') : Relied registry candidates typeDef'

/-- Every field type of these types names something, and none of them is short for two URNs that may
come to be registered, unless it is a primitive or the full name of a registered type. -/
def Unambiguous (registry : TypeRegistry) (candidates : List (String × TypeDef)) : Prop :=
  ∀ typeDef, Relied registry candidates typeDef → ∀ field ∈ typeDef.fields,
    registry.MayResolve candidates field.type ∧
      typeLookup.Clear registry.urns (registry.admissibleUrns candidates) field.type

/-- The types that are admitted or that the field types of such a type name, at any depth. -/
inductive Reached (registry final : TypeRegistry) : TypeDef → Prop
  | admitted {urn : String} {typeDef : TypeDef} (hnew : registry.types[urn]? = none)
      (hget : final.types[urn]? = some typeDef) : Reached registry final typeDef
  | field {urn : String} {typeDef typeDef' : TypeDef} {field : FieldDef}
      (h : Reached registry final typeDef) (hfield : field ∈ typeDef.fields)
      (hnames : typeLookup.full field.type urn ∨ typeLookup.short field.type urn)
      (hget : final.types[urn]? = some typeDef') : Reached registry final typeDef'

theorem needs_perm {candidates' : List (String × TypeDef)} (hperm : candidates'.Perm candidates) :
    needs candidates' = needs candidates := by
  ext entry
  simp only [needs, Set.mem_ofPred_eq, hperm.mem_iff]

theorem Unambiguous.perm {candidates' : List (String × TypeDef)} (hperm : candidates'.Perm candidates)
    (h : Unambiguous registry candidates) : Unambiguous registry candidates' := by
  have hrelied : ∀ typeDef, Relied registry candidates' typeDef → Relied registry candidates typeDef := by
    intro typeDef hr
    induction hr with
    | shipped hmem hknown hfields =>
      unfold MayResolve admissibleUrns at hfields
      rw [needs_perm hperm] at hfields
      exact .shipped (hperm.mem_iff.mp hmem) hknown hfields
    | registered _ hfield hnames hget ih => exact .registered ih hfield hnames hget
  unfold Unambiguous MayResolve admissibleUrns at *
  rw [needs_perm hperm]
  exact fun typeDef hr => h typeDef (hrelied typeDef hr)

theorem Grown.relied (hgrown : Grown candidates registry scratch) {typeDef : TypeDef}
    (h : Reached registry scratch typeDef) : Relied registry candidates typeDef := by
  have hfresh : ∀ (urn : String) (typeDef : TypeDef), registry.types[urn]? = none →
      scratch.types[urn]? = some typeDef → Relied registry candidates typeDef := by
    intro urn typeDef hnone hget
    obtain ⟨hmem, hknown, hfields⟩ := hgrown.fresh urn typeDef hnone hget
    exact .shipped hmem hknown hfields
  induction h with
  | admitted hnone hget => exact hfresh _ _ hnone hget
  | @field urn typeDef typeDef' field _ hfield hnames hget ih =>
    cases hold : registry.types[urn]? with
    | none => exact hfresh urn typeDef' hold hget
    | some old =>
      obtain rfl := Option.some.inj ((hgrown.keeps urn old hold).symm.trans hget)
      exact .registered ih hfield hnames hold

/-- Where nothing is ambiguous, the end of the loop has all that may be admitted. -/
theorem Grown.urns_eq (hgrown : Grown candidates registry scratch)
    (hready : ∀ candidate ∈ candidates, scratch.bodyValid candidate.2 = true → candidate.1 ∈ scratch.urns)
    (h : Unambiguous registry candidates) : scratch.urns = registry.admissibleUrns candidates := by
  refine Lookup.eq_admissible_of_settled hgrown.urns_subset hgrown.admissible ?_ ?_
  · rintro _ ⟨candidate, hmem, hknown, rfl⟩ hneeds
    apply hready candidate hmem
    rw [bodyValid_iff]
    exact ⟨hknown, fun field hfield => fieldTypeResolves_iff.mpr (hneeds field.type ⟨field, hfield, rfl⟩)⟩
  · rintro _ ⟨candidate, hmem, hknown, rfl⟩ hpossible typeStr ⟨field, hfield, rfl⟩
    have hfields : ∀ field ∈ candidate.2.fields, registry.MayResolve candidates field.type :=
      fun field hfield => hpossible field.type ⟨field, hfield, rfl⟩
    exact (h candidate.2 (.shipped hmem hknown hfields) field hfield).2

theorem getElem?_registerAdmitted (hplain : PlainUrn candidate.1) (urn : String) :
    (registerAdmitted scratch registry candidate).types[urn]? =
      if candidate.1 = urn then registry.types[urn]?.or scratch.types[urn]?
      else registry.types[urn]? := by
  unfold registerAdmitted
  rw [resolve_of_plainUrn hplain, resolve_of_plainUrn hplain]
  by_cases heq : candidate.1 = urn
  · subst heq
    rw [if_pos rfl]
    cases hold : registry.types[candidate.1]? with
    | some => exact hold
    | none =>
      cases scratch.types[candidate.1]? with
      | none => exact hold
      | some => simp only [addUserType_of_plainUrn hplain, getElem?_insertType, if_true,
          Option.none_or]
  · rw [if_neg heq]
    cases registry.types[candidate.1]? with
    | some => rfl
    | none =>
      cases scratch.types[candidate.1]? with
      | none => rfl
      | some => simp only [addUserType_of_plainUrn hplain, getElem?_insertType, if_neg heq]

theorem getElem?_foldl_registerAdmitted (hplain : ∀ candidate ∈ candidates, PlainUrn candidate.1)
    (urn : String) : (candidates.foldl (registerAdmitted scratch) registry).types[urn]? =
      if urn ∈ candidates.map Prod.fst then registry.types[urn]?.or scratch.types[urn]?
      else registry.types[urn]? := by
  induction candidates generalizing registry with
  | nil => rfl
  | cons candidate candidates ih =>
    rw [List.foldl_cons, ih fun other hother => hplain other (List.mem_cons_of_mem _ hother),
      getElem?_registerAdmitted (hplain candidate List.mem_cons_self)]
    by_cases heq : candidate.1 = urn
    · have hmem : urn ∈ (candidate :: candidates).map Prod.fst :=
        List.mem_map.mpr ⟨candidate, List.mem_cons_self, heq⟩
      simp only [if_pos heq, if_pos hmem, Option.or_assoc, Option.or_self, ite_self]
    · have hmem : urn ∈ (candidate :: candidates).map Prod.fst ↔ urn ∈ candidates.map Prod.fst := by
        rw [List.map_cons, List.mem_cons]
        exact or_iff_right fun h => heq h.symm
      simp only [if_neg heq, hmem]

theorem getElem?_register (hplain : ∀ candidate ∈ candidates, PlainUrn candidate.1)
    (hgrown : Grown candidates registry scratch) (urn : String) :
    (candidates.foldl (registerAdmitted scratch) registry).types[urn]? = scratch.types[urn]? := by
  rw [getElem?_foldl_registerAdmitted hplain]
  cases hold : registry.types[urn]? with
  | some typeDef => rw [hgrown.keeps urn typeDef hold, Option.or_self, ite_self]
  | none =>
    split
    · rfl
    · rename_i hnot
      cases hnew : scratch.types[urn]? with
      | none => rfl
      | some typeDef =>
        exact absurd (List.mem_map_of_mem (hgrown.fresh urn typeDef hold hnew).1) hnot

theorem fieldTypeResolves_congr {registry' : TypeRegistry} (h : registry.urns = registry'.urns)
    (typeStr : String) : registry.fieldTypeResolves typeStr = registry'.fieldTypeResolves typeStr := by
  rw [Bool.eq_iff_iff, fieldTypeResolves_iff, fieldTypeResolves_iff, h]

/-- What holds of the registry after the shipped types were admitted, whatever they are. -/
structure Admission (registry : TypeRegistry) (manifests : List NodeManifest)
    (final : TypeRegistry) : Prop where
  keeps : ∀ (urn : String) (typeDef : TypeDef), registry.types[urn]? = some typeDef →
    final.types[urn]? = some typeDef
  known : ∀ (urn : String) (typeDef : TypeDef), registry.types[urn]? = none →
    final.types[urn]? = some typeDef →
    (urn, typeDef) ∈ shippedTypes manifests ∧ isKnownArrowType typeDef.arrow = true
  complete : ∀ (urn : String) (typeDef : TypeDef), (urn, typeDef) ∈ shippedTypes manifests →
    isKnownArrowType typeDef.arrow = true →
    (∀ field ∈ typeDef.fields, final.fieldTypeResolves field.type = true) → urn ∈ final.urns

theorem injectShippedTypes_spec (registry : TypeRegistry) (manifests : List NodeManifest) :
    ∃ final : TypeRegistry,
      (∀ passes, (shippedTypes manifests).length < passes →
        injectShippedTypes passes manifests registry = some final) ∧
      Grown (shippedTypes manifests) registry final ∧
      ∀ candidate ∈ shippedTypes manifests, final.bodyValid candidate.2 = true →
        candidate.1 ∈ final.urns := by
  have hplain : ∀ candidate ∈ shippedTypes manifests, PlainUrn candidate.1 := fun candidate hmem =>
    plainUrn_of_mem_shippedTypes hmem
  have hpending : pending (shippedTypes manifests) registry < (shippedTypes manifests).length + 1 :=
    Nat.lt_succ_of_le List.countP_le_length
  obtain ⟨scratch, hloop, hgrown, hready⟩ := admitLoop_spec hplain _ .refl hpending
  have hget := getElem?_register hplain hgrown
  have hurns : ((shippedTypes manifests).foldl (registerAdmitted scratch) registry).urns =
      scratch.urns := by
    ext urn
    rw [mem_urns_iff_getElem?, mem_urns_iff_getElem?, hget]
  refine ⟨_, ?_, ⟨?_, ?_, hurns ▸ hgrown.admissible⟩, ?_⟩
  · intro passes hpasses
    rw [injectShippedTypes, admitLoop_of_le hpasses hloop]
    rfl
  · intro urn typeDef hold
    rw [hget]
    exact hgrown.keeps urn typeDef hold
  · intro urn typeDef hnone hnew
    rw [hget] at hnew
    exact hgrown.fresh urn typeDef hnone hnew
  · intro candidate hmem hvalid
    rw [hurns]
    apply hready candidate hmem
    rw [bodyValid_iff] at hvalid ⊢
    exact ⟨hvalid.1, fun field hfield =>
      (fieldTypeResolves_congr hurns field.type).symm.trans (hvalid.2 field hfield)⟩

theorem shippedTypes_perm {manifests visited : List NodeManifest} (h : visited.Perm manifests) :
    (shippedTypes visited).Perm (shippedTypes manifests) :=
  h.flatMap_right _

/-- `std/math/v1/Vector3`, a pose that names it by its last segment, and a path of poses. -/
def vector3 : TypeDef := { arrow := "Struct", fields := [⟨"x", "Float64", true⟩, ⟨"y", "Float64", true⟩] }

def pose : TypeDef := { arrow := "Struct", fields := [⟨"position", "Vector3", true⟩] }

def path : TypeDef := { arrow := "Struct", fields := [⟨"poses", "List<acme/geo/v1/Pose>", true⟩] }

def stdMath : TypeRegistry := { types := .ofList [("std/math/v1/Vector3", vector3)] }

def shipping («namespace» urn : String) (typeDef : TypeDef) : NodeManifest :=
  { «namespace», types := .ofList [(urn, typeDef)] }

def shippedPoses : List (String × TypeDef) := [("beta/nav/v1/Path", path), ("acme/geo/v1/Pose", pose)]

def posesShipped : List NodeManifest :=
  [shipping "beta" "beta/nav/v1/Path" path, shipping "acme" "acme/geo/v1/Pose" pose]

def poseUrns : List String := ["std/math/v1/Vector3", "beta/nav/v1/Path", "acme/geo/v1/Pose"]

def poseFields : List String := ["Float64", "Vector3", "List<acme/geo/v1/Pose>"]

theorem unambiguous_posesShipped : Unambiguous stdMath (shippedTypes posesShipped) := by
  have hshipped : shippedTypes posesShipped = shippedPoses := by decide
  have hkeys : stdMath.types.keys = ["std/math/v1/Vector3"] := by decide
  rw [hshipped]
  have hstd : "std/math/v1/Vector3" ∈ stdMath.urns := by
    rw [mem_urns, ← TreeMap.mem_keys, hkeys]
    exact List.mem_cons_self
  have hstart : ∀ urn ∈ stdMath.urns, urn = "std/math/v1/Vector3" := by
    intro urn hurn
    rw [mem_urns, ← TreeMap.mem_keys, hkeys] at hurn
    exact List.mem_singleton.mp hurn
  have hnames : ∀ urn ∈ stdMath.admissibleUrns shippedPoses, urn ∈ poseUrns := by
    intro urn hurn
    refine hurn {urn | urn ∈ poseUrns} ?_ ?_
    · intro urn hold
      rw [hstart urn hold]
      exact List.mem_cons_self
    · rintro _ ⟨candidate, hmem, -, rfl⟩ -
      exact List.mem_cons_of_mem _ (List.mem_map_of_mem (f := Prod.fst) hmem)
  have hvector : stdMath.MayResolve shippedPoses "Vector3" := by
    have hshort : abbreviates "Vector3" "std/math/v1/Vector3" = true := by decide
    refine .inr (.inr ⟨⟨_, Lookup.subset_admissible hstd, hshort⟩, ?_⟩)
    exact fun urn hurn urn' hurn' _ _ => (hstart urn hurn).trans (hstart urn' hurn').symm
  have hpose : "acme/geo/v1/Pose" ∈ stdMath.admissibleUrns shippedPoses := by
    have hneeds : ("acme/geo/v1/Pose", _) ∈ needs shippedPoses :=
      ⟨("acme/geo/v1/Pose", pose), by decide, by decide, rfl⟩
    refine Lookup.mem_admissible hneeds ?_
    rintro typeStr ⟨field, hfield, rfl⟩
    rw [List.mem_singleton.mp hfield]
    exact hvector
  have hrelied : ∀ typeDef, Relied stdMath shippedPoses typeDef → typeDef ∈ [path, pose, vector3] := by
    intro typeDef hr
    cases hr with
    | shipped hmem => exact List.mem_append_left [vector3] (List.mem_map_of_mem (f := Prod.snd) hmem)
    | registered _ _ _ hget =>
      rw [hstart _ (mem_urns_iff_getElem?.mpr ⟨_, hget⟩)] at hget
      rw [← Option.some.inj hget]
      decide
  have htypes : ∀ typeDef ∈ [path, pose, vector3], ∀ field ∈ typeDef.fields, field.type ∈ poseFields := by
    decide
  have hunique : ∀ typeStr ∈ poseFields, ∀ urn ∈ poseUrns, ∀ urn' ∈ poseUrns,
      abbreviates typeStr urn = true → abbreviates typeStr urn' = true → urn = urn' := by decide
  intro typeDef hr field hfield
  have htype := htypes typeDef (hrelied typeDef hr) field hfield
  refine ⟨?_, .inr (.inr fun urn hurn urn' hurn' =>
    hunique _ htype urn (hnames urn hurn) urn' (hnames urn' hurn'))⟩
  generalize field.type = typeStr at htype
  simp only [poseFields, List.mem_cons, List.not_mem_nil, or_false] at htype
  obtain rfl | rfl | rfl := htype
  · exact .inl (by rfl)
  · exact hvector
  · exact .inr (.inl ⟨_, hpose, "acme/geo/v1/Pose", by rfl, .inl rfl⟩)

end TypeRegistry

end Dora
