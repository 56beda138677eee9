import Mathlib

/-!
# Loop — what a loop does to one part of a state

A loop `items.foldl body s` works on a state of which we look at one part, `view s`. When an item whose
key is not `k` leaves that part alone, a loop over items with distinct keys either does not touch it or
does so in the round of one item. A loop whose rounds all make allowed moves makes allowed moves.
-/

namespace Dora.Lib

variable {σ α ν κ : Type*} {body : σ → α → σ} {items : List α} {s : σ} (view : σ → ν) (key : α → κ)
  {k : κ}

theorem foldl_view_eq (hbody : ∀ s a, view (body s a) = view s) :
    view (items.foldl body s) = view s := by
  induction items generalizing s with
  | nil => rfl
  | cons a items ih => rw [List.foldl_cons, ih, hbody]

theorem foldl_unseen (hother : ∀ s a, key a ≠ k → view (body s a) = view s)
    (hitems : ∀ a ∈ items, key a ≠ k) : view (items.foldl body s) = view s := by
  induction items generalizing s with
  | nil => rfl
  | cons a items ih =>
    have hrest : ∀ b ∈ items, key b ≠ k := fun b hb => hitems b (List.mem_cons_of_mem a hb)
    rw [List.foldl_cons, ih hrest, hother s a (hitems a List.mem_cons_self)]

/-- The round of the one item with the key `k` starts in a state with the same view. -/
theorem foldl_once (hother : ∀ s a, key a ≠ k → view (body s a) = view s)
    (hnodup : (items.map key).Nodup) {a : α} (ha : a ∈ items) (hkey : key a = k) :
    ∃ s', view s' = view s ∧ view (items.foldl body s) = view (body s' a) := by
  induction items generalizing s with
  | nil => cases ha
  | cons b items ih =>
    rw [List.map_cons, List.nodup_cons] at hnodup
    rw [List.foldl_cons]
    rcases List.mem_cons.mp ha with rfl | hmem
    · have hrest : ∀ b ∈ items, key b ≠ k := fun b hb heq =>
        hnodup.1 (by rw [hkey, ← heq]; exact List.mem_map_of_mem hb)
      exact ⟨s, rfl, foldl_unseen view key hother hrest⟩
    · have hne : key b ≠ k := fun heq =>
        hnodup.1 (by rw [heq, ← hkey]; exact List.mem_map_of_mem hmem)
      obtain ⟨s', hview, hfold⟩ := ih hnodup.2 hmem
      exact ⟨s', hview.trans (hother s b hne), hfold⟩

theorem nodup_map_filterMap {select : κ → Option α} {keys : List κ} (hkeys : keys.Nodup)
    (hselect : ∀ k a, select k = some a → key a = k) : ((keys.filterMap select).map key).Nodup := by
  have hsub : ((keys.filterMap select).map key).Sublist keys := by
    clear hkeys
    induction keys with
    | nil => exact .slnil
    | cons k keys ih =>
      cases hk : select k with
      | none => simpa [hk] using ih.cons k
      | some a => simpa [hk, hselect k a hk] using ih.cons_cons k
  exact hkeys.sublist hsub

/-- Rounds that make moves of `R` make a loop that does. -/
theorem foldl_moves {R : ν → ν → Prop} (P : σ → Prop) (hP : ∀ s, ∀ a ∈ items, P s → P (body s a))
    (hmove : ∀ s, ∀ a ∈ items, P s → Relation.ReflTransGen R (view s) (view (body s a))) (hs : P s) :
    Relation.ReflTransGen R (view s) (view (items.foldl body s)) := by
  induction items generalizing s with
  | nil => exact .refl
  | cons a items ih =>
    rw [List.foldl_cons]
    have hfirst := hmove s a List.mem_cons_self hs
    have hrest := ih (fun s b hb => hP s b (List.mem_cons_of_mem a hb))
      (fun s b hb => hmove s b (List.mem_cons_of_mem a hb)) (hP s a List.mem_cons_self hs)
    exact hfirst.trans hrest

end Dora.Lib
