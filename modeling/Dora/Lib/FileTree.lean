import Mathlib

/-!
# FileTree — directory trees with symbolic links

A tree gives the entry at each canonical path, a list of names from the root. `resolve` follows a path
as the operating system does, through at most a given number of links; `Lands` says where a path leads
without a limit, the missing parts of the path created on the way.
-/

namespace Dora.Lib

inductive Component where
  | rootDir
  | curDir
  | parentDir
  | normal (name : String)
deriving DecidableEq

inductive FileEntry where
  | directory
  | file
  | link (target : List Component)
deriving DecidableEq

structure FileTree where
  entry : List String → Option FileEntry
  root_directory : entry [] = some .directory
  parent_directory : ∀ dir name, entry (dir ++ [name]) ≠ none → entry dir = some .directory

namespace FileTree

variable (tree : FileTree)

/-- The canonical path that a path leads to from a directory; `none` where a part is missing, is not a
directory, or the links are too many. -/
def resolve (links : Nat) (dir : List String) : List Component → Option (List String)
  | [] => some dir
  | .rootDir :: rest => resolve links [] rest
  | .curDir :: rest => if tree.entry dir = some .directory then resolve links dir rest else none
  | .parentDir :: rest =>
    if tree.entry dir = some .directory then resolve links dir.dropLast rest else none
  | .normal name :: rest =>
    match tree.entry (dir ++ [name]) with
    | none => none
    | some (.link target) =>
      match links with
      | 0 => none
      | links + 1 => resolve links dir (target ++ rest)
    | some .directory | some .file => resolve links (dir ++ [name]) rest
termination_by path => (links, path.length)

/-- The place that a path leads to from a directory: what it names, or what it will name once the parts
that do not exist are created. -/
inductive Lands : List String → List Component → List String → Prop where
  | here (dir : List String) : Lands dir [] dir
  | rootDir {dir rest place} (h : Lands [] rest place) : Lands dir (.rootDir :: rest) place
  | curDir {dir rest place} (hdir : tree.entry dir = some .directory) (h : Lands dir rest place) :
      Lands dir (.curDir :: rest) place
  | parentDir {dir rest place} (hdir : tree.entry dir = some .directory)
      (h : Lands dir.dropLast rest place) : Lands dir (.parentDir :: rest) place
  | enter {dir name rest place e} (hentry : tree.entry (dir ++ [name]) = some e)
      (hlink : ∀ target, e ≠ .link target) (h : Lands (dir ++ [name]) rest place) :
      Lands dir (.normal name :: rest) place
  | follow {dir name rest place target} (hentry : tree.entry (dir ++ [name]) = some (.link target))
      (h : Lands dir (target ++ rest) place) : Lands dir (.normal name :: rest) place
  | create {dir name names} (hdir : tree.entry dir = some .directory)
      (hentry : tree.entry (dir ++ [name]) = none) :
      Lands dir (.normal name :: names.map .normal) (dir ++ name :: names)

variable {tree} {links : Nat} {dir place real : List String} {path rest : List Component}

theorem lands_of_resolve (h : tree.resolve links dir path = some real) : tree.Lands dir path real := by
  fun_induction resolve tree links dir path with
  | case1 => cases h; exact .here _
  | case2 _ _ _ ih => exact .rootDir (ih h)
  | case3 _ _ _ hdir ih => exact .curDir hdir (ih h)
  | case5 _ _ _ hdir ih => exact .parentDir hdir (ih h)
  | case4 | case6 | case7 | case8 => cases h
  | case9 _ _ _ _ hentry _ ih => exact .follow hentry (ih h)
  | case10 _ _ _ _ hentry ih | case11 _ _ _ _ hentry ih => exact .enter hentry nofun (ih h)

variable {name : String} {target : List Component} {names : List String}

theorem Lands.of_link (h : tree.Lands dir (.normal name :: rest) place)
    (hentry : tree.entry (dir ++ [name]) = some (.link target)) : tree.Lands dir (target ++ rest) place := by
  cases h with
  | enter hentry' hlink => cases hentry.symm.trans hentry'; exact absurd rfl (hlink target)
  | follow hentry' h => cases hentry.symm.trans hentry'; exact h
  | create _ hentry' => cases hentry.symm.trans hentry'

theorem Lands.of_entry {e : FileEntry} (h : tree.Lands dir (.normal name :: rest) place)
    (hentry : tree.entry (dir ++ [name]) = some e) (hlink : ∀ target, e ≠ .link target) :
    tree.Lands (dir ++ [name]) rest place := by
  cases h with
  | enter _ _ h => exact h
  | follow hentry' => cases hentry.symm.trans hentry'; exact absurd rfl (hlink _)
  | create _ hentry' => cases hentry.symm.trans hentry'

theorem Lands.of_missing (h : tree.Lands dir (.normal name :: rest) place)
    (hentry : tree.entry (dir ++ [name]) = none) :
    ∃ names : List String, rest = names.map .normal ∧ place = dir ++ name :: names := by
  cases h with
  | enter hentry' | follow hentry' => cases hentry.symm.trans hentry'
  | create => exact ⟨_, rfl, rfl⟩

/-- A path that goes on after a part that resolves goes on from there. -/
theorem Lands.resolved (h : tree.resolve links dir path = some real)
    (hlands : tree.Lands dir (path ++ rest) place) : tree.Lands real rest place := by
  fun_induction resolve tree links dir path with
  | case1 => cases h; exact hlands
  | case2 _ _ _ ih => cases hlands with | rootDir hlands => exact ih h hlands
  | case3 _ _ _ _ ih => cases hlands with | curDir _ hlands => exact ih h hlands
  | case5 _ _ _ _ ih => cases hlands with | parentDir _ hlands => exact ih h hlands
  | case4 | case6 | case7 | case8 => cases h
  | case9 _ _ _ _ hentry _ ih =>
    refine ih h ?_
    rw [List.append_assoc]
    exact hlands.of_link hentry
  | case10 _ _ _ _ hentry ih | case11 _ _ _ _ hentry ih => exact ih h (hlands.of_entry hentry nofun)

theorem Lands.eq_of_nil (h : tree.Lands dir [] place) : place = dir := by
  cases h
  rfl

theorem directory_of_append (h : tree.entry (dir ++ names) = some .directory) :
    tree.entry dir = some .directory := by
  induction names using List.reverseRecOn with
  | nil => rwa [List.append_nil] at h
  | append_singleton names name ih =>
    rw [← List.append_assoc] at h
    exact ih (tree.parent_directory _ name (by rw [h]; nofun))

/-- The path of names through the ancestors of a directory leads straight to it. -/
theorem resolve_names (h : tree.entry (dir ++ names) = some .directory) :
    tree.resolve links dir (names.map .normal ++ rest) = tree.resolve links (dir ++ names) rest := by
  induction names generalizing dir with
  | nil => rw [List.map_nil, List.nil_append, List.append_nil]
  | cons name names ih =>
    rw [List.append_cons] at h ⊢
    rw [← ih h, List.map_cons, List.cons_append, resolve, directory_of_append h]

/-- Without links a path of names leads to the place it spells. -/
theorem Lands.eq_append (h : tree.Lands dir (names.map .normal) place)
    (hlinks : ∀ taken target, taken <+: names → taken ≠ [] →
      tree.entry (dir ++ taken) ≠ some (.link target)) :
    place = dir ++ names := by
  induction names generalizing dir with
  | nil => rw [h.eq_of_nil, List.append_nil]
  | cons name names ih =>
    cases hentry : tree.entry (dir ++ [name]) with
    | none =>
      obtain ⟨created, hnames, rfl⟩ := h.of_missing hentry
      have hinj : Function.Injective Component.normal := fun _ _ h => Component.normal.inj h
      rw [List.map_injective_iff.mpr hinj hnames]
    | some e =>
      have hlink (target : List Component) : e ≠ .link target := by
        rintro rfl
        exact hlinks [name] target (by simp) (by simp) hentry
      rw [ih (h.of_entry hentry hlink) ?_, ← List.append_cons]
      intro taken target htaken _
      rw [← List.append_cons]
      exact hlinks (name :: taken) target (by simpa using htaken) (by simp)

end FileTree

end Dora.Lib
