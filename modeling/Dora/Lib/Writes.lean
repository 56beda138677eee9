import Mathlib

/-!
# Writes — a buffer filled by writes that lie next to each other

A write puts a list of elements at a position of a buffer and fails when it does not fit. `Tiles`
says that intervals, given by start and length, follow each other without gap or overlap; writes whose
intervals tile a range put their contents there, whatever stood there before.
-/

namespace Dora.Lib

variable {α : Type*}

/-- The intervals fill `[a, b)` from left to right. -/
def Tiles : Nat → List (Nat × Nat) → Nat → Prop
  | a, [], b => a = b
  | a, x :: xs, b => x.1 = a ∧ Tiles (a + x.2) xs b

variable {a b c : Nat} {xs ys : List (Nat × Nat)}

theorem Tiles.append (h : Tiles a xs b) (h' : Tiles b ys c) : Tiles a (xs ++ ys) c := by
  induction xs generalizing a with
  | nil => exact (show a = b from h) ▸ h'
  | cons x xs ih => exact ⟨h.1, ih h.2⟩

theorem Tiles.concat {n : Nat} (h : Tiles a xs b) : Tiles a (xs ++ [(b, n)]) (b + n) :=
  h.append ⟨rfl, rfl⟩

theorem Tiles.shift (h : Tiles a xs b) (k : Nat) :
    Tiles (k + a) (xs.map fun x => (k + x.1, x.2)) (k + b) := by
  induction xs generalizing a with
  | nil => exact congrArg (k + ·) h
  | cons x xs ih =>
    have hrest := ih h.2
    rw [← Nat.add_assoc] at hrest
    exact ⟨congrArg (k + ·) h.1, hrest⟩

theorem Tiles.le (h : Tiles a xs b) : a ≤ b := by
  induction xs generalizing a with
  | nil => exact Nat.le_of_eq h
  | cons x xs ih => exact (Nat.le_add_right a x.2).trans (ih h.2)

theorem Tiles.refine {ι : Type*} {items : List ι} {whole : ι → Nat × Nat}
    {parts : ι → List (Nat × Nat)}
    (hparts : ∀ i ∈ items, Tiles (whole i).1 (parts i) ((whole i).1 + (whole i).2))
    (h : Tiles a (items.map whole) b) : Tiles a (items.flatMap parts) b := by
  induction items generalizing a with
  | nil => exact h
  | cons i items ih =>
    have hfirst := hparts i List.mem_cons_self
    rw [h.1] at hfirst
    rw [List.flatMap_cons]
    exact hfirst.append (ih (fun j hj => hparts j (List.mem_cons_of_mem i hj)) h.2)

theorem Tiles.mem_bounds (h : Tiles a xs b) {x : Nat × Nat} (hx : x ∈ xs) :
    a ≤ x.1 ∧ x.1 + x.2 ≤ b := by
  induction xs generalizing a with
  | nil => cases hx
  | cons y ys ih =>
    have hrest := h.2.le
    cases List.mem_cons.mp hx with
    | inl heq =>
      rw [heq, h.1]
      exact ⟨Nat.le_refl a, hrest⟩
    | inr hmem =>
      have hbounds := ih h.2 hmem
      omega

theorem Tiles.pairwise (h : Tiles a xs b) : xs.Pairwise fun x y => x.1 + x.2 ≤ y.1 := by
  induction xs generalizing a with
  | nil => exact .nil
  | cons x xs ih =>
    refine .cons (fun y hy => ?_) (ih h.2)
    have hbounds := h.2.mem_bounds hy
    rw [h.1]
    exact hbounds.1

theorem Tiles.countP_covers (h : Tiles a xs b) (i : Nat) :
    xs.countP (fun x => decide (x.1 ≤ i ∧ i < x.1 + x.2)) = if a ≤ i ∧ i < b then 1 else 0 := by
  induction xs generalizing a with
  | nil =>
    have heq : a = b := h
    rw [List.countP_nil, if_neg (by omega)]
  | cons x xs ih =>
    have hrest := h.2.le
    rw [List.countP_cons, ih h.2, h.1]
    simp only [decide_eq_true_eq]
    split_ifs <;> omega

structure Write (α : Type*) where
  start : Nat
  contents : List α

namespace Write

def extent (w : Write α) : Nat × Nat := (w.start, w.contents.length)

/-- `none` if the write does not fit. -/
def apply (w : Write α) (dst : List α) : Option (List α) :=
  if w.start + w.contents.length ≤ dst.length then
    some (dst.take w.start ++ w.contents ++ dst.drop (w.start + w.contents.length))
  else none

def applyAll : List (Write α) → List α → Option (List α)
  | [], dst => some dst
  | w :: ws, dst => (w.apply dst).bind (applyAll ws)

theorem applyAll_append (ws ws' : List (Write α)) (dst : List α) :
    applyAll (ws ++ ws') dst = (applyAll ws dst).bind (applyAll ws') := by
  induction ws generalizing dst with
  | nil => rfl
  | cons w ws ih =>
    simp only [List.cons_append, applyAll, Option.bind_assoc]
    congr 1
    funext dst
    exact ih dst

theorem length_flatMap_contents {ws : List (Write α)} (h : Tiles a (ws.map extent) b) :
    a + (ws.flatMap contents).length = b := by
  induction ws generalizing a with
  | nil => exact h
  | cons w ws ih =>
    have hrest := ih h.2
    rw [List.flatMap_cons, List.length_append]
    change a + w.contents.length + (ws.flatMap contents).length = b at hrest
    omega

theorem applyAll_of_tiles {ws : List (Write α)} {dst : List α} (h : Tiles a (ws.map extent) b)
    (hfits : b ≤ dst.length) :
    applyAll ws dst = some (dst.take a ++ ws.flatMap contents ++ dst.drop b) := by
  induction ws generalizing a dst with
  | nil =>
    have heq : a = b := h
    rw [heq, List.flatMap_nil, List.append_nil, List.take_append_drop]
    rfl
  | cons w ws ih =>
    have hstart : w.start = a := h.1
    have hrest : Tiles (a + w.contents.length) (ws.map extent) b := h.2
    have hle := hrest.le
    have hput : (dst.take a ++ w.contents).length = a + w.contents.length := by
      rw [List.length_append, List.length_take]
      omega
    have hone : w.apply dst =
        some (dst.take a ++ w.contents ++ dst.drop (a + w.contents.length)) := by
      unfold apply
      rw [hstart, if_pos (by omega)]
    rw [applyAll, hone, Option.bind_some, ih hrest (by
      rw [List.length_append, hput, List.length_drop]
      omega)]
    -- the later writes keep what this one put and replace what follows it
    rw [List.take_left' hput, List.drop_append, hput, List.drop_eq_nil_of_le (by omega),
      List.drop_drop, List.flatMap_cons, List.nil_append, Nat.add_sub_cancel' hle,
      ← List.append_assoc]

theorem apply_gap {ws ws' : List (Write α)} {dst data : List α} (h : Tiles 0 (ws.map extent) a)
    (h' : Tiles (a + data.length) (ws'.map extent) dst.length) :
    ∃ gapped, applyAll (ws ++ ws') dst = some gapped ∧
      (mk a data).apply gapped = some (ws.flatMap contents ++ data ++ ws'.flatMap contents) := by
  have hbefore : (ws.flatMap contents).length = a := by
    have hlen := length_flatMap_contents h
    omega
  have hafter := length_flatMap_contents h'
  have hfirst := applyAll_of_tiles h (show a ≤ dst.length by omega)
  rw [List.take_zero, List.nil_append] at hfirst
  have hlen : (ws.flatMap contents ++ dst.drop a).length = dst.length := by
    rw [List.length_append, List.length_drop, hbefore]
    omega
  have hsecond := applyAll_of_tiles h'
    (show dst.length ≤ (ws.flatMap contents ++ dst.drop a).length by omega)
  have hend : (ws.flatMap contents ++ dst.drop a).drop dst.length = [] :=
    List.drop_eq_nil_of_le (Nat.le_of_eq hlen)
  rw [hend, List.append_nil] at hsecond
  -- up to the gap stands what the first writes put, behind it what the others did
  have htake : ((ws.flatMap contents ++ dst.drop a).take (a + data.length)).length =
      a + data.length := by
    rw [List.length_take, hlen]
    omega
  refine ⟨_, by rw [applyAll_append, hfirst, Option.bind_some, hsecond], ?_⟩
  dsimp only [apply]
  rw [if_pos (by rw [List.length_append, htake]; omega), List.drop_left' htake,
    List.take_append_of_le_length (by omega), List.take_take, Nat.min_eq_left (by omega),
    List.take_left' hbefore]

end Write

end Dora.Lib
