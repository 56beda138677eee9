import Mathlib

/-!
# KeyOrder — lawful comparisons for map keys

`Std.TreeMap` and `Std.TreeSet` need a comparison that is transitive and whose `.eq` is equality.
Pairs are compared lexicographically, and a wrapper type is compared through an injective
projection; both inherit the laws from their parts.
-/

namespace Dora.Lib

open Std

variable {α β : Type*}

instance pairOrd [Ord α] [Ord β] : Ord (α × β) := lexOrd

instance pairTransOrd [Ord α] [Ord β] [TransOrd α] [TransOrd β] : TransOrd (α × β) :=
  inferInstanceAs (TransCmp (compareLex (compareOn Prod.fst) (compareOn Prod.snd)))

instance pairLawfulEqOrd [Ord α] [Ord β] [TransOrd α] [TransOrd β] [LawfulEqOrd α] [LawfulEqOrd β] :
    LawfulEqOrd (α × β) where
  eq_of_compare {a b} h := by
    have hthen : (compare a.1 b.1).then (compare a.2 b.2) = .eq := h
    rw [Ordering.then_eq_eq] at hthen
    exact Prod.ext (LawfulEqOrd.eq_of_compare hthen.1) (LawfulEqOrd.eq_of_compare hthen.2)

theorem lawfulEqOn [Ord β] [TransOrd β] [LawfulEqOrd β] (f : α → β) (hf : Function.Injective f) :
    LawfulEqCmp (compareOn f) where
  compare_self := @ReflCmp.compare_self _ (compareOn f) _
  eq_of_compare h := hf (LawfulEqOrd.eq_of_compare h)

theorem size_eq_iff_of_subset {α : Type} [Ord α] [TransOrd α] [LawfulEqOrd α] {s t : TreeSet α}
    (hsub : ∀ a ∈ s, a ∈ t) : s.size = t.size ↔ ∀ a ∈ t, a ∈ s := by
  have hnodup : ∀ u : TreeSet α, u.toList.Nodup := fun u =>
    u.distinct_toList.imp fun hne heq => hne (Std.compare_eq_iff_eq.mpr heq)
  have hlist : s.toList ⊆ t.toList := fun a ha =>
    TreeSet.mem_toList.mpr (hsub a (TreeSet.mem_toList.mp ha))
  rw [← TreeSet.length_toList, ← TreeSet.length_toList]
  constructor
  · intro hsize a ha
    have hperm := ((hnodup s).subperm hlist).perm_of_length_le (Nat.le_of_eq hsize.symm)
    exact TreeSet.mem_toList.mp (hperm.mem_iff.mpr (TreeSet.mem_toList.mpr ha))
  · intro hall
    apply List.Perm.length_eq
    apply (List.perm_ext_iff_of_nodup (hnodup s) (hnodup t)).mpr
    intro a
    rw [TreeSet.mem_toList, TreeSet.mem_toList]
    exact ⟨hsub a, hall a⟩

end Dora.Lib
