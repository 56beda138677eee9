import Mathlib

/-!
# Queue — taking an element out of the middle, and moving one to the end

A queue is a list whose oldest element comes first. The first part is about the removal of the first
element that meets a condition. The second part is about a rotation: the element that is served goes
to the end. `[x, y].Sublist l` says that `x` comes before `y` in `l`.
-/

namespace Dora.Lib

variable {α : Type*}

/-- Where `findIdx?` looks: the elements before the position do not meet the condition. -/
theorem findIdx?_split {p : α → Bool} {l : List α} {i : Nat} (h : l.findIdx? p = some i) :
    ∃ front a back, l = front ++ a :: back ∧ l.eraseIdx i = front ++ back ∧ l[i]? = some a ∧
      p a = true ∧ ∀ b ∈ front, p b = false := by
  rw [List.findIdx?_eq_some_iff_getElem] at h
  have ⟨hi, hp, hbefore⟩ := h
  refine ⟨l.take i, l[i], l.drop (i + 1), ?_, List.eraseIdx_eq_take_drop_succ l i,
    List.getElem?_eq_getElem hi, hp, ?_⟩
  · rw [List.cons_getElem_drop_succ, List.take_append_drop]
  · intro b hb
    have ⟨j, hj, hget⟩ := List.mem_take_iff_getElem.mp hb
    have hlt : j < i := by omega
    rw [← hget]
    exact Bool.eq_false_iff.mpr (hbefore j hlt)

theorem filter_remove {p : α → Bool} {a : α} (front back : List α) (ha : p a = false) :
    (front ++ back).filter p = (front ++ a :: back).filter p := by
  simp [ha]

variable {a x y : α} {front back : List α}

theorem rotate_perm (front back : List α) (a : α) :
    (front ++ back ++ [a]).Perm (front ++ a :: back) := by
  rw [List.append_assoc]
  exact (List.perm_append_singleton a back).append_left front

theorem before_served (hx : x ∈ front ++ back) : [x, a].Sublist (front ++ back ++ [a]) :=
  (List.singleton_sublist.mpr hx).append_right [a]

theorem before_rotate (h : [x, y].Sublist (front ++ a :: back)) (hx : x ≠ a) (hy : y ≠ a) :
    [x, y].Sublist (front ++ back ++ [a]) := by
  classical
  have hkept := h.filter (fun b => b ≠ a)
  simp only [List.filter_append, List.filter_cons, ne_eq, hx, hy, not_false_eq_true, decide_true,
    if_true, List.filter_nil, not_true_eq_false, decide_false, Bool.false_eq_true, if_false] at hkept
  have hsub : (List.filter (fun b => decide (¬ b = a)) front ++
      List.filter (fun b => decide (¬ b = a)) back).Sublist (front ++ back ++ [a]) :=
    (List.filter_sublist.append List.filter_sublist).trans (List.sublist_append_left _ _)
  exact hkept.trans hsub

theorem not_before_of_mem_back (hnodup : (front ++ a :: back).Nodup) (hx : x ∈ back) :
    ¬ [x, a].Sublist (front ++ a :: back) := by
  intro h
  have hdisjoint := List.disjoint_of_nodup_append hnodup
  have hback : a ∉ back := (List.nodup_cons.mp (List.Nodup.of_append_right hnodup)).1
  have ⟨before, behind, hsplit, hbefore, hbehind⟩ := List.sublist_append_iff.mp h
  cases before with
  | cons b =>
    -- `x` itself would stand in front
    have hb : b = x := by simp_all
    exact hdisjoint (hbefore.subset (by simp [hb])) (List.mem_cons_of_mem a hx)
  | nil =>
    rw [List.nil_append] at hsplit
    rw [← hsplit] at hbehind
    have ha : a ∈ back := by
      cases hbehind with
      | cons _ h => exact h.subset (by simp)
      | cons_cons => exact absurd hx hback
    exact hback ha

end Dora.Lib
