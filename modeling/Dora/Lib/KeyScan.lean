import Dora.Lib.KeyOrder
import Dora.Lib.Text

/-!
# KeyScan — range scans of ordered tables

A table is read in the order of its keys: from the first key that is not below a bound for as long as
the keys belong to a group. If the group is an interval that starts at the bound, this gives exactly
its entries. The texts that begin with a given text are such an interval.
-/

namespace Dora.Lib

open Std

variable {α β κ : Type*}

theorem scan_eq_filter {R : α → α → Prop} {below group : α → Bool} {l : List α} (hl : l.Pairwise R)
    (hup : ∀ a b, R a b → below a = false → below b = false)
    (hgroup : ∀ a, group a = true → below a = false)
    (hconvex : ∀ a b, R a b → below a = false → group b = true → group a = true) :
    (l.dropWhile below).takeWhile group = l.filter group := by
  induction l with
  | nil => rfl
  | cons a l ih =>
    obtain ⟨hfirst, hrest⟩ := List.pairwise_cons.mp hl
    cases hbelow : below a with
    | true =>
      have hout : group a = false := by
        by_contra hin
        rw [hgroup a (Bool.eq_true_of_not_eq_false hin)] at hbelow
        cases hbelow
      rw [List.dropWhile_cons_of_pos hbelow, List.filter_cons_of_neg (by simp [hout]), ih hrest]
    | false =>
      rw [List.dropWhile_cons_of_neg (by simp [hbelow])]
      cases hin : group a with
      | true =>
        have hnone : l.dropWhile below = l := by
          cases l with
          | nil => rfl
          | cons b => exact List.dropWhile_cons_of_neg (by simp [hup a b (hfirst b (.head _)) hbelow])
        rw [List.takeWhile_cons_of_pos hin, List.filter_cons_of_pos hin, ← ih hrest, hnone]
      | false =>
        have hempty : l.filter group = [] := by
          refine List.filter_eq_nil_iff.mpr fun b hb hgroup' => ?_
          rw [hconvex a b (hfirst b hb) hbelow hgroup'] at hin
          cases hin
        rw [List.takeWhile_cons_of_neg (by simp [hin]), List.filter_cons_of_neg (by simp [hin]), hempty]

/-- The range of a map from `start` on, as long as the entries are of the group. -/
theorem range_eq_filter [Ord κ] [TransOrd κ] (m : TreeMap κ β) {start : κ} {group : κ × β → Bool}
    (hgroup : ∀ a, group a = true → compare a.1 start ≠ .lt)
    (hconvex : ∀ a b : κ × β, compare a.1 b.1 = .lt → compare a.1 start ≠ .lt → group b = true →
      group a = true) :
    (m.toList.dropWhile fun a => compare a.1 start == .lt).takeWhile group = m.toList.filter group := by
  refine scan_eq_filter m.ordered_keys_toList ?_ ?_ ?_
  · intro a b hab hbelow
    rw [beq_eq_false_iff_ne] at hbelow ⊢
    exact fun hlt => hbelow (TransCmp.lt_trans hab hlt)
  · exact fun a ha => beq_eq_false_iff_ne.mpr (hgroup a ha)
  · exact fun a b hab hbelow => hconvex a b hab (beq_eq_false_iff_ne.mp hbelow)

/-- Two tables in the order of their keys that have the same entries are the same list. -/
theorem eq_of_ordered [Ord κ] [TransOrd κ] [LawfulEqOrd κ] {l l' : List (κ × β)}
    (hl : l.Pairwise fun a b => compare a.1 b.1 = .lt) (hl' : l'.Pairwise fun a b => compare a.1 b.1 = .lt)
    (hmem : ∀ a, a ∈ l ↔ a ∈ l') : l = l' := by
  have hnodup {m : List (κ × β)} (hm : m.Pairwise fun a b => compare a.1 b.1 = .lt) : m.Nodup :=
    hm.imp fun hlt heq => by
      rw [heq, ReflOrd.compare_self] at hlt
      cases hlt
  refine ((List.perm_ext_iff_of_nodup (hnodup hl) (hnodup hl')).mpr hmem).eq_of_pairwise ?_ hl hl'
  intro a b _ _ hab hba
  rw [OrientedOrd.eq_swap, hba] at hab
  cases hab

theorem compare_eq_lt_iff {s t : String} : compare s t = .lt ↔ s.toList < t.toList :=
  compareOfLessAndEq_eq_lt

theorem startsWith_iff {start text : String} :
    startsWith text start = true ↔ start.toList <+: text.toList :=
  List.isPrefixOf_iff_prefix

theorem append_lt_append_left_iff {start s t : List Char} : start ++ s < start ++ t ↔ s < t := by
  induction start with
  | nil => rfl
  | cons c start ih => simp [ih]

theorem compare_append_left_lt {start s t : String} :
    compare (start ++ s) (start ++ t) = .lt ↔ compare s t = .lt := by
  rw [compare_eq_lt_iff, compare_eq_lt_iff, String.toList_append, String.toList_append,
    append_lt_append_left_iff]

theorem not_lt_of_startsWith {start text : String} (h : startsWith text start = true) :
    compare text start ≠ .lt := by
  obtain ⟨rest, hrest⟩ := startsWith_iff.mp h
  rw [Ne, compare_eq_lt_iff, ← hrest]
  nth_rewrite 2 [← List.append_nil start.toList]
  rw [append_lt_append_left_iff]
  exact List.not_lt_nil rest

theorem isPrefix_of_between {start s t : List Char} (hs : ¬ s < start) (hst : s < t) (ht : start <+: t) :
    start <+: s := by
  induction start generalizing s t with
  | nil => exact List.nil_prefix
  | cons c start ih =>
    obtain ⟨rest, rfl⟩ := ht
    cases s with
    | nil => exact absurd (List.nil_lt_cons c start) hs
    | cons d s =>
      rw [List.cons_append, List.cons_lt_cons_iff] at hst
      rw [List.cons_lt_cons_iff, not_or, not_and] at hs
      obtain hlt | ⟨rfl, hlt⟩ := hst
      · exact absurd hlt hs.1
      · exact List.cons_prefix_cons.mpr ⟨rfl, ih (hs.2 rfl) hlt (List.prefix_append _ _)⟩

theorem startsWith_of_between {start s t : String} (hs : compare s start ≠ .lt) (hst : compare s t = .lt)
    (ht : startsWith t start = true) : startsWith s start = true := by
  rw [Ne, compare_eq_lt_iff] at hs
  exact startsWith_iff.mpr (isPrefix_of_between hs (compare_eq_lt_iff.mp hst) (startsWith_iff.mp ht))

end Dora.Lib
