import Dora.Lib.KeyOrder

/-!
# MultiMap — a map to sets as a finite relation, and iteration orders

A `TreeMap α (TreeSet β)` stores a relation: the pairs `(a, b)` with `b` in the set of `a`. The lemmas say
what each update does to it, so that a proof about the relation never looks at the map.

A hash map is iterated in an unspecified order. `inOrder order keys` lists `keys` in the order in
which `order` has them; a statement for all `order` covers every iteration order.
-/

namespace Dora.Lib

open Std

abbrev MultiMap (α β : Type) [Ord α] [Ord β] := TreeMap α (TreeSet β)

namespace MultiMap

variable {α β : Type} [Ord α] [Ord β]

def members (m : MultiMap α β) (a : α) : TreeSet β := m.getD a ∅

/-- `entry(a).or_default().insert(b)` -/
def add (m : MultiMap α β) (a : α) (b : β) : MultiMap α β := m.insert a ((m.members a).insert b)

/-- `get_mut(a)` and then `remove(b)` -/
def remove (m : MultiMap α β) (a : α) (b : β) : MultiMap α β := m.modify a (·.erase b)

/-- Keep the values that satisfy `p`; no key is dropped. -/
def retain (m : MultiMap α β) (p : β → Bool) : MultiMap α β := m.map fun _ values => values.filter p

def rel (m : MultiMap α β) : Set (α × β) := {pair | pair.2 ∈ m.members pair.1}

variable {m : MultiMap α β} {a a' : α} {b b' : β}

theorem mem_rel : (a, b) ∈ m.rel ↔ b ∈ m.members a := Iff.rfl

variable [TransOrd α]

theorem mem_rel_iff_getElem? : (a, b) ∈ m.rel ↔ ∃ values, m[a]? = some values ∧ b ∈ values := by
  rw [mem_rel, members, TreeMap.getD_eq_getD_getElem?]
  cases m[a]? with
  | none | some => simp

theorem mem_of_mem_rel (h : (a, b) ∈ m.rel) : a ∈ m := by
  obtain ⟨values, hvalues, -⟩ := mem_rel_iff_getElem?.mp h
  rw [TreeMap.mem_iff_isSome_getElem?, hvalues]
  rfl

@[simp] theorem rel_empty : (∅ : MultiMap α β).rel = ∅ := by
  ext ⟨a, b⟩
  rw [mem_rel_iff_getElem?]
  simp

variable [TransOrd β] [LawfulEqOrd α] [LawfulEqOrd β]

@[simp] theorem rel_add : (m.add a b).rel = insert (a, b) m.rel := by
  ext ⟨a', b'⟩
  rw [mem_rel, members, add, TreeMap.getD_insert, Set.mem_insert_iff, Prod.mk.injEq, mem_rel]
  split
  · rename_i heq
    rw [LawfulEqCmp.compare_eq_iff_eq] at heq
    subst heq
    rw [TreeSet.mem_insert, LawfulEqCmp.compare_eq_iff_eq]
    simp [eq_comm]
  · rename_i hne
    rw [LawfulEqCmp.compare_eq_iff_eq] at hne
    constructor
    · exact fun h => .inr h
    · rintro (⟨rfl, -⟩ | h)
      · exact absurd rfl hne
      · exact h

theorem rel_add_eq_union {P : α → Prop} (hP : ∀ x, P x ↔ x = a) :
    (m.add a b).rel = m.rel ∪ {pair | pair.2 = b ∧ P pair.1} := by
  ext ⟨x, y⟩
  simp [hP, and_comm, or_comm]

@[simp] theorem rel_remove : (m.remove a b).rel = m.rel \ {(a, b)} := by
  ext ⟨a', b'⟩
  rw [Set.mem_sdiff, Set.mem_singleton_iff, Prod.mk.injEq, mem_rel_iff_getElem?,
    mem_rel_iff_getElem?, remove, TreeMap.getElem?_modify]
  split
  · rename_i heq
    rw [LawfulEqCmp.compare_eq_iff_eq] at heq
    subst heq
    cases m[a]? with
    | none => simp
    | some =>
      simp only [Option.map_some, Option.some.injEq, exists_eq_left', TreeSet.mem_erase, ne_eq,
        LawfulEqCmp.compare_eq_iff_eq, true_and]
      exact ⟨fun h => ⟨h.2, fun heq => h.1 heq.symm⟩, fun h => ⟨fun heq => h.2 heq.symm, h.1⟩⟩
  · rename_i hne
    rw [LawfulEqCmp.compare_eq_iff_eq] at hne
    exact ⟨fun h => ⟨h, fun heq => hne heq.1.symm⟩, fun h => h.1⟩

omit [TransOrd β] [LawfulEqOrd β] in
theorem rel_erase : MultiMap.rel (TreeMap.erase m a) = {pair ∈ m.rel | pair.1 ≠ a} := by
  ext ⟨a', b'⟩
  rw [mem_rel_iff_getElem?, TreeMap.getElem?_erase, Set.mem_ofPred_eq, mem_rel_iff_getElem?]
  split
  · rename_i heq
    rw [LawfulEqCmp.compare_eq_iff_eq] at heq
    simp [heq]
  · rename_i hne
    rw [LawfulEqCmp.compare_eq_iff_eq] at hne
    exact ⟨fun h => ⟨h, fun heq => hne heq.symm⟩, fun h => h.1⟩

theorem rel_retain {p : β → Bool} : (m.retain p).rel = {pair ∈ m.rel | p pair.2 = true} := by
  ext ⟨a', b'⟩
  rw [mem_rel_iff_getElem?, retain, TreeMap.getElem?_map, Set.mem_ofPred_eq, mem_rel_iff_getElem?]
  cases m[a']? with
  | none => simp
  | some => simp [TreeSet.mem_filter]

omit [TransOrd β] [LawfulEqOrd α] [LawfulEqOrd β] in
theorem rel_filter_subset {p : α → TreeSet β → Bool} : MultiMap.rel (TreeMap.filter p m) ⊆ m.rel := by
  intro pair hpair
  obtain ⟨values, hvalues, hmem⟩ := mem_rel_iff_getElem?.mp hpair
  rw [TreeMap.getElem?_filter, Option.pfilter_eq_some_iff] at hvalues
  exact mem_rel_iff_getElem?.mpr ⟨values, hvalues.1, hmem⟩

end MultiMap

section Absent

variable {α β : Type} [Ord α] [TransOrd α]

theorem not_mem_erase (m : TreeMap α β) (a : α) : a ∉ m.erase a :=
  fun hmem => (TreeMap.mem_erase.mp hmem).1 ReflCmp.compare_self

theorem not_mem_eraseSet (m : TreeSet α) (a : α) : a ∉ m.erase a :=
  fun hmem => (TreeSet.mem_erase.mp hmem).1 ReflCmp.compare_self

variable [LawfulEqOrd α]

theorem of_mem_filter {m : TreeMap α β} {p : α → Bool} {a : α} (h : a ∈ m.filter fun key _ => p key) :
    p a = true := by
  obtain ⟨_, hp⟩ := TreeMap.mem_filter.mp h
  simpa using hp

theorem of_mem_filterSet {m : TreeSet α} {p : α → Bool} {a : α} (h : a ∈ m.filter p) : p a = true := by
  obtain ⟨_, hp⟩ := TreeSet.mem_filter.mp h
  simpa using hp

theorem mem_of_getElem?_insertMany {m : TreeMap α β} {entries : List (α × β)} {a : α} {b : β}
    (h : (m.insertMany entries)[a]? = some b) : (a, b) ∈ entries ∨ m[a]? = some b := by
  induction entries generalizing m with
  | nil =>
    rw [TreeMap.insertMany_nil] at h
    exact .inr h
  | cons first rest ih =>
    rw [TreeMap.insertMany_cons] at h
    rcases ih h with hrest | hfirst
    · exact .inl (List.mem_cons_of_mem _ hrest)
    · rw [TreeMap.getElem?_insert] at hfirst
      split at hfirst
      · rename_i heq
        rw [← LawfulEqCmp.compare_eq_iff_eq.mp heq, ← Option.some.inj hfirst]
        exact .inl List.mem_cons_self
      · exact .inr hfirst

theorem getElem?_insertMany_toList [DecidableEq α] {m m' : TreeMap α β} {a : α} :
    (m.insertMany m'.toList)[a]? = m'[a]?.or m[a]? := by
  cases h : m'[a]? with
  | some b =>
    exact TreeMap.getElem?_insertMany_list_of_mem ReflCmp.compare_self TreeMap.distinct_keys_toList
      (TreeMap.mem_toList_iff_getElem?_eq_some.mpr h)
  | none =>
    refine TreeMap.getElem?_insertMany_list_of_contains_eq_false ?_
    rw [TreeMap.map_fst_toList_eq_keys, List.contains_eq_mem, decide_eq_false_iff_not, TreeMap.mem_keys]
    simp [TreeMap.mem_iff_isSome_getElem?, h]

end Absent

section InOrder

variable {α : Type} [DecidableEq α] {order keys : List α}

def inOrder (order keys : List α) : List α :=
  order.dedup.filter (· ∈ keys) ++ keys.filter (· ∉ order)

theorem mem_inOrder {a : α} : a ∈ inOrder order keys ↔ a ∈ keys := by
  by_cases h : a ∈ order <;> simp [inOrder, h]

theorem inOrder_nodup (h : keys.Nodup) : (inOrder order keys).Nodup := by
  refine ((List.nodup_dedup order).filter _).append (h.filter _) fun a hleft hright => ?_
  simp only [List.mem_filter, List.mem_dedup, decide_eq_true_eq] at hleft hright
  exact hright.2 hleft.1

end InOrder

end Dora.Lib
