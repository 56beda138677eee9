import Dora.Core.Expansion
import Dora.Lib.Fallible

/-!
# The ids of an expanded dataflow

Expansion keeps the plain nodes of every file, under ids that begin with those of the module nodes around
them, and rejects a flat result with a repeated id. So the plain nodes of one file have different ids;
nothing is known of a module node, whose own id disappears.
-/

namespace Dora.Expand

open Std Lib

variable {Path Dir : Type} {project : Project Path Dir} {toUppercase : String → String}

structure SameNode (a b : Node) : Prop where
  id : b.id = a.id
  modulePath : b.modulePath = a.modulePath

theorem SameNode.trans {a b c : Node} (hab : SameNode a b) (hbc : SameNode b c) : SameNode a c :=
  ⟨hbc.id.trans hab.id, hbc.modulePath.trans hab.modulePath⟩

variable {node node' : Node}

theorem sameNode_rewriteInputs {f : TreeMap DataId Input → Except String (TreeMap DataId Input)}
    (h : node.rewriteInputs f = .ok node') : SameNode node node' := by
  rw [Node.rewriteInputs, bind_eq_ok] at h
  obtain ⟨inputs, -, h⟩ := h
  obtain ⟨operators, -, h⟩ := bind_eq_ok.mp h
  obtain ⟨operator, -, h⟩ := bind_eq_ok.mp h
  cases h
  exact ⟨rfl, rfl⟩

variable {baseDir dir moduleDir : Dir}

theorem sameNode_resolveInnerNodePaths
    (h : resolveInnerNodePaths project moduleDir node = .ok node') : SameNode node node' := by
  rw [resolveInnerNodePaths, bind_eq_ok] at h
  obtain ⟨path, -, h⟩ := h
  obtain ⟨operators, -, h⟩ := bind_eq_ok.mp h
  obtain ⟨operator, -, h⟩ := bind_eq_ok.mp h
  cases h
  exact ⟨rfl, rfl⟩

theorem sameNode_propagateModuleNodeEnv (moduleEnv : Option (TreeMap String EnvValue)) (node : Node) :
    SameNode node (propagateModuleNodeEnv moduleEnv node) := by
  unfold propagateModuleNodeEnv
  repeat' split
  all_goals exact ⟨rfl, rfl⟩

theorem sameNode_substituteParamsInNode (toUppercase : String → String) (params : TreeMap String String)
    (node : Node) :
    SameNode node (substituteParamsInNode toUppercase params node) := by
  unfold substituteParamsInNode
  split
  all_goals exact ⟨rfl, rfl⟩

theorem prefixNode_ok {inner inner' : Node} {file : ModuleFile}
    (h : prefixNode project toUppercase node file moduleDir inner = .ok inner') :
    inner'.id = ⟨node.id.name ++ "." ++ inner.id.name⟩ ∧ inner'.modulePath = inner.modulePath := by
  simp only [prefixNode, bind_eq_ok] at h
  obtain ⟨rewired, hrewired, resolved, hresolved, h⟩ := h
  cases h
  have hresolved := (sameNode_rewriteInputs hrewired).trans (sameNode_resolveInnerNodePaths hresolved)
  have hsame := (sameNode_propagateModuleNodeEnv node.env
    { resolved with deploy := resolved.deploy <|> node.deploy }).trans
      (sameNode_substituteParamsInNode toUppercase node.params _)
  cases file.build with
  | none | some build => exact ⟨hsame.id.trans hresolved.id, hsame.modulePath.trans hresolved.modulePath⟩

variable {named nodes root : List Node}

theorem ids_rewriteExternalRefs {outputMaps : TreeMap String ModuleOutputMap} {nodes' : List Node}
    (h : rewriteExternalRefs outputMaps nodes = .ok nodes') : nodes'.map Node.id = nodes.map Node.id := by
  unfold rewriteExternalRefs at h
  split at h
  · cases h
    rfl
  · have hids := (mapM_eq_ok h).imp fun node node' hnode => (sameNode_rewriteInputs hnode).id
    clear h
    induction hids with
    | nil => rfl
    | cons hid _ ih => rw [List.map_cons, List.map_cons, hid, ih]

theorem ids_prependBuildIfSet (moduleBuild : Option String) (nodes : List Node) :
    (prependBuildIfSet moduleBuild nodes).map Node.id = nodes.map Node.id := by
  cases moduleBuild with
  | none => rfl
  | some build => simp [prependBuildIfSet, Function.comp_def, prependModuleBuildToNode]

def Node.isPlain (node : Node) : Bool := node.modulePath.isNone

section File

variable {expand : Node → Except String (List Node × ModuleOutputMap)}

def Stands (expand : Node → Except String (List Node × ModuleOutputMap)) (node : Node) (ids : List NodeId) :
    Prop :=
  (node.isPlain = true ∧ ids = [node.id]) ∨
    node.isPlain = false ∧ ∃ nested omap, expand node = .ok (nested, omap) ∧ ids = nested.map Node.id

theorem finalNodes_pushTargets (node : Node) (omap : ModuleOutputMap) (acc : Collected) :
    (omap.foldl (fun (acc : Collected) output target =>
      acc.pushTarget output (node.id.name ++ "/" ++ output) target) acc).finalNodes = acc.finalNodes := by
  rw [TreeMap.foldl_eq_foldl_toList]
  induction omap.toList generalizing acc with
  | nil => rfl
  | cons entry rest ih =>
    rw [List.foldl_cons, ih]
    rfl

theorem stands_collected {acc acc' : Collected} {node : Node} (h : acc.add expand node = .ok acc') :
    ∃ ids, Stands expand node ids ∧
      acc'.finalNodes.map Node.id = acc.finalNodes.map Node.id ++ ids := by
  unfold Collected.add at h
  split at h
  · rename_i hmodule
    obtain ⟨⟨nested, omap⟩, hnested, h⟩ := bind_eq_ok.mp h
    cases h
    have hkind : node.isPlain = false := by simp [Node.isPlain, ← Option.not_isSome, hmodule]
    refine ⟨_, .inr ⟨hkind, nested, omap, hnested, rfl⟩, ?_⟩
    simp only [List.map_append, finalNodes_pushTargets, ids_prependBuildIfSet]
  · rename_i hplain
    obtain ⟨pushed, hpushed, h⟩ := bind_eq_ok.mp h
    cases h
    have hfinal : pushed.finalNodes = acc.finalNodes := by
      refine foldlM_keeps (P := fun pushed => pushed.finalNodes = acc.finalNodes) ?_ hpushed rfl
      intro pushed output pushed' hpush hfinal
      dsimp only at hpush
      split at hpush
      · cases hpush
        exact hfinal
      · cases hpush
    exact ⟨_, .inl ⟨by simpa [Node.isPlain] using hplain, rfl⟩, by simp [hfinal]⟩

theorem stands_flattened {acc acc' : Flattened} {node : Node} (h : acc.add expand node = .ok acc') :
    ∃ ids, Stands expand node ids ∧ acc'.flatNodes.map Node.id = acc.flatNodes.map Node.id ++ ids := by
  unfold Flattened.add at h
  split at h
  · rename_i hmodule
    obtain ⟨⟨nested, omap⟩, hnested, h⟩ := bind_eq_ok.mp h
    cases h
    have hkind : node.isPlain = false := by simp [Node.isPlain, ← Option.not_isSome, hmodule]
    refine ⟨_, .inr ⟨hkind, nested, omap, hnested, rfl⟩, ?_⟩
    simp only [List.map_append, ids_prependBuildIfSet]
  · rename_i hplain
    cases h
    exact ⟨_, .inl ⟨by simpa [Node.isPlain] using hplain, rfl⟩, by simp⟩

theorem stands_foldlM {σ : Type} {add : σ → Node → Except String σ} {ids : σ → List NodeId}
    (hadd : ∀ {acc node acc'}, add acc node = .ok acc' →
      ∃ new, Stands expand node new ∧ ids acc' = ids acc ++ new)
    {nodes : List Node} {acc acc' : σ} (h : nodes.foldlM add acc = .ok acc') :
    ∃ pieces, List.Forall₂ (Stands expand) nodes pieces ∧ ids acc' = ids acc ++ pieces.flatten := by
  induction nodes generalizing acc with
  | nil =>
    cases h
    exact ⟨[], .nil, by simp⟩
  | cons node nodes ih =>
    rw [List.foldlM_cons, bind_eq_ok] at h
    obtain ⟨acc₁, hnode, h⟩ := h
    obtain ⟨new, hnew, hids⟩ := hadd hnode
    obtain ⟨pieces, hpieces, hrest⟩ := ih h
    exact ⟨new :: pieces, .cons hnew hpieces, by simp [hrest, hids]⟩

theorem plain_sublist {nodes : List Node} {pieces : List (List NodeId)}
    (h : List.Forall₂ (Stands expand) nodes pieces) :
    ((nodes.filter Node.isPlain).map Node.id).Sublist pieces.flatten := by
  induction h with
  | nil => exact .slnil
  | @cons node ids _ _ hstands _ ih =>
    rw [List.flatten_cons]
    obtain ⟨hplain, rfl⟩ | ⟨hmodule, -⟩ := hstands
    · rw [List.filter_cons_of_pos hplain]
      exact ih.cons_cons _
    · rw [List.filter_cons_of_neg (by simp [hmodule])]
      exact ih.trans (List.sublist_append_right _ _)

theorem nested_sublist {nodes : List Node} {pieces : List (List NodeId)}
    (h : List.Forall₂ (Stands expand) nodes pieces) {node : Node} (hnode : node ∈ nodes)
    (hmodule : node.isPlain = false) :
    ∃ nested omap, expand node = .ok (nested, omap) ∧ (nested.map Node.id).Sublist pieces.flatten := by
  induction h with
  | nil => cases hnode
  | @cons first ids _ _ hstands _ ih =>
    rw [List.flatten_cons]
    rcases List.mem_cons.mp hnode with rfl | hrest
    · obtain ⟨hplain, -⟩ | ⟨-, nested, omap, hexpand, rfl⟩ := hstands
      · rw [hmodule] at hplain
        cases hplain
      · exact ⟨nested, omap, hexpand, List.sublist_append_left _ _⟩
    · obtain ⟨nested, omap, hexpand, hsub⟩ := ih hrest
      exact ⟨nested, omap, hexpand, hsub.trans (List.sublist_append_right _ _)⟩

end File

inductive Level (project : Project Path Dir) (baseDir : Dir) (root : List Node) : Dir → List Node → Prop
  | root : Level project baseDir root baseDir root
  | file {dir nodes node path canonical moduleDir file} (h : Level project baseDir root dir nodes)
      (hnode : node ∈ nodes) (hpath : node.modulePath = some path)
      (hlocate : project.locate dir path = .ok (canonical, moduleDir))
      (hload : project.loadModuleFile canonical = .ok file) :
      Level project baseDir root moduleDir file.nodes

theorem Level.eq_root_of_plain
    (hplain : ∀ node ∈ root, node.isPlain = true) (h : Level project baseDir root dir nodes) :
    nodes = root := by
  induction h with
  | root => rfl
  | file _ hnode hpath _ _ ih =>
    rw [ih] at hnode
    have hmodule := hplain _ hnode
    rw [Node.isPlain, hpath] at hmodule
    cases hmodule

variable [DecidableEq Path]

/-- The plain nodes of a file are among `flat`, under ids that begin with `start`, and so is what its
module nodes expand to. -/
structure Covered (project : Project Path Dir) (toUppercase : String → String) (flat : List NodeId)
    (start : String) (dir : Dir) (nodes : List Node) : Prop where
  plain : ((nodes.filter Node.isPlain).map fun node => NodeId.mk (start ++ node.id.name)).Sublist flat
  nested : ∀ node ∈ nodes, node.isPlain = false → ∃ remaining seen node' expanded omap,
    node'.modulePath = node.modulePath ∧
      expandModuleNode project toUppercase remaining seen dir node' = .ok (expanded, omap) ∧
      (expanded.map Node.id).Sublist flat

variable {start : String}

theorem Covered.mono {flat flat' : List NodeId}
    (h : Covered project toUppercase flat start dir nodes) (hsub : flat.Sublist flat') :
    Covered project toUppercase flat' start dir nodes where
  plain := h.plain.trans hsub
  nested node hnode hmodule := by
    obtain ⟨remaining, seen, node', expanded, omap, hpath, hexpand, hflat⟩ := h.nested node hnode hmodule
    exact ⟨remaining, seen, node', expanded, omap, hpath, hexpand, hflat.trans hsub⟩

def Named (start : String) : List Node → List Node → Prop :=
  List.Forall₂ fun node named => named.id = ⟨start ++ node.id.name⟩ ∧ named.modulePath = node.modulePath

theorem Named.plain (h : Named start nodes named) :
    ((nodes.filter Node.isPlain).map fun node => NodeId.mk (start ++ node.id.name)) =
      (named.filter Node.isPlain).map Node.id := by
  induction h with
  | nil => rfl
  | @cons node named _ _ hnode _ ih =>
    have hkind : named.isPlain = node.isPlain := by rw [Node.isPlain, hnode.2, Node.isPlain]
    simp only [List.filter_cons, hkind]
    split
    · rw [List.map_cons, List.map_cons, ih, hnode.1]
    · exact ih

theorem covered_of_stands {remaining : Nat} {seen : List Path} {pieces : List (List NodeId)}
    (hnamed : Named start nodes named)
    (h : List.Forall₂ (Stands (expandModuleNode project toUppercase remaining seen dir)) named pieces) :
    Covered project toUppercase pieces.flatten start dir nodes where
  plain := hnamed.plain ▸ plain_sublist h
  nested node hnode hmodule := by
    obtain ⟨node', hmem, hnode'⟩ : ∃ node' ∈ named, node'.modulePath = node.modulePath := by
      clear h
      induction hnamed with
      | nil => cases hnode
      | cons hfirst _ ih =>
        rcases List.mem_cons.mp hnode with rfl | hrest
        · exact ⟨_, .head _, hfirst.2⟩
        · obtain ⟨node', hmem, hnode'⟩ := ih hrest
          exact ⟨node', .tail _ hmem, hnode'⟩
    obtain ⟨nested, omap, hexpand, hsub⟩ :=
      nested_sublist h hmem (by rw [Node.isPlain, hnode', ← Node.isPlain, hmodule])
    exact ⟨remaining, seen, node', nested, omap, hnode', hexpand, hsub⟩

theorem openModule_ok {seen : List Path} {canonical : Path}
    {file : ModuleFile} (h : openModule project seen baseDir node = .ok (canonical, moduleDir, file)) :
    project.locate baseDir (node.modulePath.getD "") = .ok (canonical, moduleDir) ∧
      project.loadModuleFile canonical = .ok file := by
  simp only [openModule, bind_eq_ok] at h
  obtain ⟨-, -, ⟨canonical', moduleDir'⟩, hlocate, h⟩ := h
  split at h
  · cases h
  · simp only [bind_eq_ok] at h
    obtain ⟨file', hload, -, -, h⟩ := h
    cases h
    refine ⟨?_, hload⟩
    cases hfound : project.locate baseDir (node.modulePath.getD "") with
    | error e =>
      rw [hfound] at hlocate
      cases hlocate
    | ok found =>
      rw [hfound] at hlocate
      cases hlocate
      rfl

theorem covered_of_expand {remaining : Nat} {seen : List Path}
    {expanded : List Node} {omap : ModuleOutputMap}
    (h : expandModuleNode project toUppercase remaining seen dir node = .ok (expanded, omap)) :
    ∃ canonical moduleDir file, project.locate dir (node.modulePath.getD "") = .ok (canonical, moduleDir) ∧
      project.loadModuleFile canonical = .ok file ∧
      Covered project toUppercase (expanded.map Node.id) (node.id.name ++ ".") moduleDir file.nodes := by
  cases remaining with
  | zero => cases h
  | succ remaining =>
    simp only [expandModuleNode, bind_eq_ok, Prod.exists] at h
    obtain ⟨canonical, moduleDir, file, hopen, -, -, -, -, prefixed, hprefixed, collected, hcollected, final,
      hfinal, outputMap, -, h⟩ := h
    cases h
    obtain ⟨hlocate, hload⟩ := openModule_ok hopen
    refine ⟨canonical, moduleDir, file, hlocate, hload, ?_⟩
    obtain ⟨pieces, hpieces, hids⟩ := stands_foldlM stands_collected hcollected
    rw [ids_rewriteExternalRefs hfinal, hids]
    exact covered_of_stands ((mapM_eq_ok hprefixed).imp fun _ _ => prefixNode_ok) hpieces

theorem Level.covered {flat : List NodeId}
    (hroot : Covered project toUppercase flat "" baseDir root) (h : Level project baseDir root dir nodes) :
    ∃ start, Covered project toUppercase flat start dir nodes := by
  induction h with
  | root => exact ⟨"", hroot⟩
  | @file dir nodes node path canonical moduleDir file _ hnode hpath hlocate hload ih =>
    obtain ⟨start, hcovered⟩ := ih
    obtain ⟨remaining, seen, node', expanded, omap, hsame, hexpand, hsub⟩ :=
      hcovered.nested node hnode (by simp [Node.isPlain, hpath])
    obtain ⟨canonical', moduleDir', file', hlocate', hload', hfile⟩ := covered_of_expand hexpand
    rw [hsame, hpath, Option.getD_some, hlocate] at hlocate'
    cases hlocate'
    rw [hload] at hload'
    cases hload'
    exact ⟨_, hfile.mono hsub⟩

theorem nodup_of_checkUniqueIds {idSet : TreeSet String} (h : checkUniqueIds idSet nodes = .ok ()) :
    (nodes.map Node.id).Nodup ∧ ∀ node ∈ nodes, node.id.name ∉ idSet := by
  induction nodes generalizing idSet with
  | nil => simp
  | cons node nodes ih =>
    unfold checkUniqueIds at h
    split at h
    · cases h
    · rename_i hnew
      obtain ⟨hnodup, hfresh⟩ := ih h
      simp only [TreeSet.mem_insert, Std.compare_eq_iff_eq, not_or] at hfresh
      refine ⟨List.nodup_cons.mpr ⟨fun hmem => ?_, hnodup⟩, ?_⟩
      · obtain ⟨other, hother, hid⟩ := List.mem_map.mp hmem
        exact (hfresh other hother).1 (by rw [hid])
      · exact List.forall_mem_cons.mpr ⟨hnew, fun other hother => (hfresh other hother).2⟩

def ModuleIdsUnshared (nodes : List Node) : Prop :=
  nodes.Pairwise fun a b => a.isPlain = false ∨ b.isPlain = false → a.id ≠ b.id

theorem Covered.nodup {flat : List NodeId}
    (h : Covered project toUppercase flat start dir nodes) (hflat : flat.Nodup)
    (hmodules : ModuleIdsUnshared nodes) : (nodes.map Node.id).Nodup := by
  have hplain := h.plain.nodup hflat
  rw [List.Nodup, List.pairwise_map, List.pairwise_filter] at hplain
  rw [List.Nodup, List.pairwise_map]
  refine (hplain.and hmodules).imp fun {a b} hab => ?_
  by_cases hkinds : a.isPlain = false ∨ b.isPlain = false
  · exact hab.2 hkinds
  · rw [not_or, Bool.not_eq_false, Bool.not_eq_false] at hkinds
    exact fun hid => hab.1 hkinds.1 hkinds.2 (by rw [hid])

/-- When an expansion succeeds, the ids of the root and of every file it opens are distinct exactly if no
module node has the id of another node beside it and the root's ids are distinct where it has no module
node at all. -/
theorem expanded_ids_distinct_iff {baseDir : Dir} {root : List Node}
    {result : List Node × TreeMap String (List String)}
    (h : expandModulesWithBoundaries project toUppercase baseDir root = .ok result) :
    (∀ dir nodes, Level project baseDir root dir nodes → (nodes.map Node.id).Nodup) ↔
      (∀ dir nodes, Level project baseDir root dir nodes → ModuleIdsUnshared nodes) ∧
        ((∀ node ∈ root, node.isPlain = true) → (root.map Node.id).Nodup) := by
  constructor
  · intro hdistinct
    refine ⟨fun dir nodes hlevel => ?_, fun _ => hdistinct _ _ .root⟩
    refine List.Pairwise.imp ?_ (List.pairwise_map.mp (hdistinct dir nodes hlevel))
    exact fun hne _ => hne
  · rintro ⟨hmodules, hplain⟩ dir nodes hlevel
    unfold expandModulesWithBoundaries at h
    split at h
    · rename_i hnone
      have hall : ∀ node ∈ root, node.isPlain = true := by
        simpa [Node.isPlain] using hnone
      rw [hlevel.eq_root_of_plain hall]
      exact hplain hall
    · simp only [bind_eq_ok] at h
      obtain ⟨-, -, flat, hflat, flatNodes, hfinal, _, hunique, h⟩ := h
      obtain ⟨pieces, hpieces, hids⟩ := stands_foldlM stands_flattened hflat
      have hnodup := (nodup_of_checkUniqueIds hunique).1
      rw [ids_rewriteExternalRefs hfinal, hids] at hnodup
      have hnamed : Named "" root root :=
        List.forall₂_same.mpr fun node _ => ⟨by rw [String.empty_append], rfl⟩
      obtain ⟨start, hcovered⟩ := hlevel.covered (covered_of_stands hnamed hpieces)
      exact hcovered.nodup hnodup (hmodules dir nodes hlevel)

def twoFiles : Project String Unit where
  root := .ok ()
  locate _ path := .ok (path, ())
  display _ path := path
  loadModuleFile path :=
    .ok { name := path, nodes := [{ id := ⟨if path = "left.yml" then "camera" else "plot"⟩ }] }
  resolvePath _ _ path := .ok path

def twins : List Node :=
  [{ id := ⟨"vision"⟩, modulePath := some "left.yml" },
    { id := ⟨"vision"⟩, modulePath := some "right.yml" }]

/-- Both are expanded, to nodes with different ids. -/
theorem twins_accepted :
    (expandModulesWithBoundaries twoFiles id () twins).toOption.map (·.1.map Node.id) =
        some [⟨"vision.camera"⟩, ⟨"vision.plot"⟩] ∧
      ¬ (twins.map Node.id).Nodup := by
  decide +kernel

def vision : List Node := [{ id := ⟨"vision"⟩, modulePath := some "left.yml" }, { id := ⟨"plot"⟩ }]

theorem expanded_ids_distinct_on_vision : ∃ result,
    expandModulesWithBoundaries twoFiles id () vision = .ok result ∧
      ((∀ dir nodes, Level twoFiles () vision dir nodes → (nodes.map Node.id).Nodup) ↔
        (∀ dir nodes, Level twoFiles () vision dir nodes → ModuleIdsUnshared nodes) ∧
          ((∀ node ∈ vision, node.isPlain = true) → (vision.map Node.id).Nodup)) := by
  have hok : (expandModulesWithBoundaries twoFiles id () vision).isOk = true := by decide +kernel
  cases h : expandModulesWithBoundaries twoFiles id () vision with
  | error e =>
    rw [h] at hok
    cases hok
  | ok result => exact ⟨result, rfl, expanded_ids_distinct_iff h⟩

end Dora.Expand
