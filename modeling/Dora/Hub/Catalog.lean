import Dora.Lib.FileTree
import Dora.Lib.Text

/-!
# The paths of an index catalog (`libraries/hub-client/src/index.rs`)

A catalog is a directory that a package index ships, with whatever links are in it. Every path into it
is checked by `confine` before it is read or written.
-/

namespace Dora.Hub

open Lib Lib.FileTree

/-- A piece of a path between slashes, past the first; empty pieces and `.` are skipped. -/
def component (piece : List Char) : Option Component :=
  if piece = [] ∨ piece = ['.'] then none
  else if piece = ['.', '.'] then some .parentDir
  else some (.normal (String.ofList piece))

def firstComponent (piece : List Char) (last : Bool) : Option Component :=
  if piece = [] then (if last then none else some .rootDir)
  else if piece = ['.'] then some .curDir
  else component piece

def ofPieces : List (List Char) → List Component
  | [] => []
  | first :: rest => (firstComponent first rest.isEmpty).toList ++ rest.filterMap component

/-- `Path::components`. -/
def components (path : String) : List Component := ofPieces (path.toList.splitOn '/')

/-- `Path::join`: an absolute path replaces the one it is joined to. -/
def join (base name : String) : String :=
  if name.toList.head? = some '/' then name
  else if base = "" ∨ base.toList.getLast? = some '/' then base ++ name
  else base ++ "/" ++ name

def isKeyChar (c : Char) : Bool := c.isAlphanum || c = '-' || c = '_' || c = '.'

def isValidKeyPart (part : String) : Bool :=
  part ≠ "" && part.utf8ByteSize ≤ 64 && part.toList.all isKeyChar && part.toList.head? ≠ some '.'

/-- A version of `semver`: its identifiers are of letters, digits, `-` and `.`. -/
structure Version where
  major : Nat
  minor : Nat
  patch : Nat
  pre : String
  build : String
  pre_chars : ∀ c ∈ pre.toList, isKeyChar c
  build_chars : ∀ c ∈ build.toList, isKeyChar c

def Version.display (version : Version) : String :=
  version.major.repr ++ "." ++ version.minor.repr ++ "." ++ version.patch.repr ++
    (if version.pre = "" then "" else "-" ++ version.pre) ++
    (if version.build = "" then "" else "+" ++ version.build)

variable (tree : FileTree) (links : Nat) (cwd : List String)

/-- `Path::canonicalize`; the system follows `links` links at most, and the empty path names nothing. -/
def canonicalize (path : String) : Option (List String) :=
  if path = "" then none else tree.resolve links cwd (components path)

/-- A catalog that `IndexCatalog::open` admits. -/
structure IndexCatalog where
  root : String
  canonicalRoot : List String
  resolves : canonicalize tree links cwd root = some canonicalRoot
  directory : tree.entry canonicalRoot = some .directory

variable {tree links cwd} (catalog : IndexCatalog tree links cwd)

def isControl (c : Char) : Bool := c.toNat < 32 || (127 ≤ c.toNat && c.toNat < 160)

def IndexCatalog.packageDir (ns name : String) : Except String String :=
  if isValidKeyPart ns && isValidKeyPart name then .ok (join (join catalog.root ns) name)
  else
    let shown := ((ns ++ "/" ++ name).toList.filter fun c => !isControl c).take 128
    .error ("invalid package key `" ++ String.ofList shown ++ "`")

def escapes (path : String) : String :=
  "index path `" ++ path ++ "` escapes the catalog root (symlink?)"

/-- The loop of `confine`, below the canonical root: `current` is where the components so far lead. -/
def IndexCatalog.walk (path : String) (current : List String) : List Component → Except String Unit
  | [] => .ok ()
  | .normal part :: rest =>
    match tree.entry (current ++ [part]) with
    | some (.link _) =>
      match tree.resolve links [] ((current ++ [part]).map .normal) with
      | some real => if catalog.canonicalRoot <+: real then walk path real rest else .error (escapes path)
      | none => .error (escapes path)
    | _ => walk path (current ++ [part]) rest
  | _ => .error (escapes path)

def IndexCatalog.confine (path : String) : Except String Unit :=
  match canonicalize tree links cwd path with
  | some real => if catalog.canonicalRoot <+: real then .ok () else .error (escapes path)
  | none =>
    match (components path).dropPrefix? (components catalog.root) with
    | some relative => catalog.walk path catalog.canonicalRoot relative
    | none => .error (escapes path)

def entryFile (version : Version) : String := version.display ++ ".yml"

structure IsName (name : String) : Prop where
  nonempty : name.toList ≠ []
  no_slash : '/' ∉ name.toList
  no_dot : name.toList.head? ≠ some '.'

variable {base name : String}

theorem IsName.component (h : IsName name) : component name.toList = some (.normal name) := by
  have hdot : name.toList ≠ ['.'] := fun heq => h.no_dot (by rw [heq]; rfl)
  have hdots : name.toList ≠ ['.', '.'] := fun heq => h.no_dot (by rw [heq]; rfl)
  simp [Hub.component, h.nonempty, hdot, hdots]

theorem ofPieces_concat (first piece : List Char) (rest : List (List Char)) :
    ofPieces (first :: rest ++ [piece]) =
      (firstComponent first false).toList ++ rest.filterMap component ++ (component piece).toList := by
  simp only [List.cons_append, ofPieces, List.filterMap_append, List.append_assoc]
  cases rest <;> cases h : component piece <;> simp [h]

theorem ofPieces_cons {first : List Char} {rest : List (List Char)} (h : first ≠ [] ∨ rest ≠ []) :
    ofPieces (first :: rest) = (firstComponent first false).toList ++ rest.filterMap component := by
  rcases h with hfirst | hrest
  · simp only [ofPieces, firstComponent, hfirst, if_false]
  · rw [ofPieces, List.isEmpty_eq_false_iff.mpr hrest]

theorem components_join (hbase : base ≠ "") (h : IsName name) :
    components (join base name) = components base ++ [.normal name] := by
  have hhead : name.toList.head? ≠ some '/' := fun heq => h.no_slash (List.mem_of_mem_head? heq)
  have hname := List.splitOn_eq_singleton h.no_slash
  unfold join components
  rw [if_neg hhead]
  split
  · next hend =>
    -- the base ends with a slash, after which nothing stands yet
    obtain ⟨start, hstart⟩ := List.getLast?_eq_some_iff.mp (hend.resolve_left hbase)
    obtain ⟨first, rest, hpieces⟩ := List.exists_cons_of_ne_nil (List.splitOn_ne_nil '/' start)
    rw [String.toList_append, hstart, List.append_assoc, List.singleton_append,
      List.splitOn_append_cons_self, List.splitOn_append_cons_self, hname, hpieces, ofPieces_concat,
      List.splitOn_nil, ofPieces_concat, h.component]
    simp [component]
  · obtain ⟨first, rest, hpieces⟩ := List.exists_cons_of_ne_nil (List.splitOn_ne_nil '/' base.toList)
    have hne : first ≠ [] ∨ rest ≠ [] := by
      by_contra! hnil
      have hjoined := (List.intercalate_splitOn '/' : _ = base.toList)
      rw [hpieces, hnil.1, hnil.2] at hjoined
      exact hbase (String.toList_eq_nil_iff.mp hjoined.symm)
    rw [String.toList_append, String.toList_append, List.append_assoc]
    show ofPieces ((base.toList ++ '/' :: name.toList).splitOn '/') = _
    rw [List.splitOn_append_cons_self, hname, hpieces, ofPieces_concat, ofPieces_cons hne, h.component]
    rfl

theorem join_ne_empty (h : IsName name) : join base name ≠ "" := by
  have hname : name ≠ "" := fun heq => h.nonempty (by rw [heq]; rfl)
  unfold join
  split_ifs <;> simp [hname]

theorem isName_of_isValidKeyPart {part : String} (h : isValidKeyPart part) : IsName part := by
  simp only [isValidKeyPart, Bool.and_eq_true, decide_eq_true_eq, List.all_eq_true] at h
  obtain ⟨⟨⟨hne, _⟩, hchars⟩, hdot⟩ := h
  exact ⟨fun heq => hne (String.toList_eq_nil_iff.mp heq), fun hmem => absurd (hchars _ hmem) (by decide),
    hdot⟩

theorem isName_entryFile (version : Version) : IsName (entryFile version) := by
  obtain ⟨digit, digits, hmajor⟩ := List.exists_cons_of_ne_nil
    (mt String.toList_eq_nil_iff.mp (Nat.repr_ne_empty (n := version.major)))
  have hdot : digit ≠ '.' := fun h =>
    not_mem_natRepr (c := '.') rfl version.major (by rw [hmajor, h]; exact List.mem_cons_self)
  have hslash (n : Nat) : '/' ∉ n.repr.toList := not_mem_natRepr rfl n
  have hpre : '/' ∉ version.pre.toList := fun h => absurd (version.pre_chars _ h) (by decide)
  have hbuild : '/' ∉ version.build.toList := fun h => absurd (version.build_chars _ h) (by decide)
  refine ⟨?_, ?_, ?_⟩
  · simp [entryFile]
  · simp only [entryFile, Version.display, String.toList_append, List.mem_append, not_or, hslash,
      not_false_eq_true, true_and]
    split_ifs <;> simp [hpre, hbuild]
  · simpa [entryFile, Version.display, hmajor] using hdot

theorem IndexCatalog.root_ne_empty : catalog.root ≠ "" := by
  intro heq
  have hresolves := catalog.resolves
  rw [canonicalize, if_pos heq] at hresolves
  cases hresolves

theorem IndexCatalog.components_entry {ns dir : String} (version : Version)
    (h : catalog.packageDir ns name = .ok dir) :
    components (join dir (entryFile version)) =
      components catalog.root ++ [ns, name, entryFile version].map .normal ∧
    join dir (entryFile version) ≠ "" := by
  unfold packageDir at h
  split at h
  · next hvalid =>
    cases h
    rw [Bool.and_eq_true] at hvalid
    have hns := isName_of_isValidKeyPart hvalid.1
    have hname := isName_of_isValidKeyPart hvalid.2
    have hentry := isName_entryFile version
    refine ⟨?_, join_ne_empty hentry⟩
    rw [components_join (join_ne_empty hname) hentry, components_join (join_ne_empty hns) hname,
      components_join catalog.root_ne_empty hns]
    simp
  · cases h

variable {catalog} {path : String} {current : List String} {relative : List Component}

variable {names place : List String}

theorem IndexCatalog.walk_confined (hwalk : catalog.walk path current relative = .ok ())
    (hcurrent : catalog.canonicalRoot <+: current)
    (hlands : tree.Lands current relative place) : catalog.canonicalRoot <+: place := by
  fun_induction walk catalog path current relative with
  | case1 => rwa [hlands.eq_of_nil]
  | case2 current part rest target hentry real hreal hinside ih =>
    -- the directory that holds the link is canonical, so that its own path is walked without links
    have hdir := tree.parent_directory current part (by rw [hentry]; nofun)
    rw [List.map_append, resolve_names (by rwa [List.nil_append]), List.nil_append] at hreal
    exact ih hwalk hinside (hlands.resolved hreal)
  | case3 | case4 | case6 => cases hwalk
  | case5 current part rest hlink ih =>
    have hnext : catalog.canonicalRoot <+: current ++ [part] := hcurrent.trans (List.prefix_append _ _)
    cases hentry : tree.entry (current ++ [part]) with
    | none =>
      obtain ⟨names, _, rfl⟩ := hlands.of_missing hentry
      exact hcurrent.trans (List.prefix_append _ _)
    | some e => exact ih hwalk hnext (hlands.of_entry hentry fun target he => hlink target (he ▸ hentry))

theorem IndexCatalog.confine_confined (hroot : components path = components catalog.root ++ relative)
    (hpath : path ≠ "") (hconfine : catalog.confine path = .ok ())
    (hlands : tree.Lands cwd (components path) place) : catalog.canonicalRoot <+: place := by
  have hresolves := catalog.resolves
  rw [canonicalize, if_neg catalog.root_ne_empty] at hresolves
  unfold confine at hconfine
  rw [canonicalize, if_neg hpath] at hconfine
  cases hreal : tree.resolve links cwd (components path) with
  | some real =>
    rw [hreal] at hconfine
    have hend : tree.Lands real [] place := Lands.resolved hreal (by rwa [List.append_nil])
    rw [hend.eq_of_nil]
    by_contra hout
    simp [hout] at hconfine
  | none =>
    rw [hreal, hroot, List.dropPrefix?_append_of_beq _ (beq_self_eq_true _)] at hconfine
    rw [hroot] at hlands
    exact walk_confined hconfine List.prefix_rfl (hlands.resolved hresolves)

theorem IndexCatalog.walk_of_no_links (hlinks : ∀ taken target, taken <+: names → taken ≠ [] →
      tree.entry (current ++ taken) ≠ some (.link target)) :
    catalog.walk path current (names.map .normal) = .ok () := by
  induction names generalizing current with
  | nil => rfl
  | cons name names ih =>
    have hrest : catalog.walk path (current ++ [name]) (names.map .normal) = .ok () := by
      apply ih
      intro taken target htaken _
      rw [← List.append_cons]
      exact hlinks (name :: taken) target (by simpa using htaken) (by simp)
    rw [List.map_cons, walk]
    split
    · next target hentry => exact absurd hentry (hlinks [name] target (by simp) (by simp))
    · exact hrest

theorem IndexCatalog.confine_of_no_links
    (hroot : components path = components catalog.root ++ names.map .normal) (hpath : path ≠ "")
    (hlinks : ∀ taken target, taken <+: names → taken ≠ [] →
      tree.entry (catalog.canonicalRoot ++ taken) ≠ some (.link target)) :
    catalog.confine path = .ok () := by
  have hresolves := catalog.resolves
  rw [canonicalize, if_neg catalog.root_ne_empty] at hresolves
  unfold confine
  rw [canonicalize, if_neg hpath]
  cases hreal : tree.resolve links cwd (components path) with
  | some real =>
    have hlands := lands_of_resolve hreal
    rw [hroot] at hlands
    rw [(hlands.resolved hresolves).eq_append hlinks]
    exact if_pos (List.prefix_append _ _)
  | none =>
    rw [hroot, List.dropPrefix?_append_of_beq _ (beq_self_eq_true _)]
    exact walk_of_no_links hlinks

variable (catalog)

/-- An entry path that `confine` accepts leads to a place below the canonical root, whether it exists or
its missing parts are created, and an entry path without links is accepted. -/
theorem IndexCatalog.entry_paths_confined {ns name dir : String} (version : Version)
    (hdir : catalog.packageDir ns name = .ok dir) :
    let path := join dir (entryFile version)
    (catalog.confine path = .ok () → ∀ place, tree.Lands cwd (components path) place →
        catalog.canonicalRoot <+: place) ∧
      ((∀ taken target, taken <+: [ns, name, entryFile version] → taken ≠ [] →
          tree.entry (catalog.canonicalRoot ++ taken) ≠ some (.link target)) →
        catalog.confine path = .ok ()) := by
  obtain ⟨hroot, hpath⟩ := catalog.components_entry version hdir
  exact ⟨fun hconfine _ => confine_confined hroot hpath hconfine, confine_of_no_links hroot hpath⟩

/-- A catalog `/index` with a package directory `acme/lidar` and a link `acme/radar` that leaves it. -/
def exampleTree : FileTree where
  entry
    | [] | ["index"] | ["index", "acme"] | ["index", "acme", "lidar"] => some .directory
    | ["index", "acme", "radar"] => some (.link [.rootDir])
    | _ => none
  root_directory := rfl
  parent_directory dir name h := by
    split at h
    case h_6 => exact absurd rfl h
    all_goals
      next hpath =>
      have hdir := congrArg List.dropLast hpath
      rw [List.dropLast_concat] at hdir
      rw [hdir]
      rfl

def exampleCatalog : IndexCatalog exampleTree 40 [] where
  root := "/index"
  canonicalRoot := ["index"]
  resolves := by
    have hparts : components "/index" = [.rootDir, .normal "index"] := by decide +kernel
    simp [canonicalize, hparts, resolve, exampleTree]
  directory := rfl

def exampleVersion : Version := ⟨1, 0, 0, "", "", nofun, nofun⟩

theorem entry_path_of_lidar_confined :
    exampleCatalog.packageDir "acme" "lidar" = .ok "/index/acme/lidar" ∧
      exampleCatalog.confine (join "/index/acme/lidar" (entryFile exampleVersion)) = .ok () ∧
      ∀ place, exampleTree.Lands [] (components (join "/index/acme/lidar" (entryFile exampleVersion))) place →
        ["index"] <+: place := by
  have hdir : exampleCatalog.packageDir "acme" "lidar" = .ok "/index/acme/lidar" := by decide +kernel
  have hfile : entryFile exampleVersion = "1.0.0.yml" := by decide +kernel
  have hconfined := exampleCatalog.entry_paths_confined exampleVersion hdir
  have hok := hconfined.2 (by
    intro taken target htaken hne
    simp only [hfile, List.prefix_cons_iff, List.prefix_nil] at htaken
    rcases htaken with rfl | ⟨_, rfl, rfl | ⟨_, rfl, rfl | ⟨_, rfl, rfl⟩⟩⟩
    · exact absurd rfl hne
    all_goals exact fun h => by cases h)
  exact ⟨hdir, hok, hconfined.1 hok⟩

end Dora.Hub
