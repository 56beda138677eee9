import Mathlib

/-!
# Ledger — what became of every arrival

Items arrive one at a time under a key and are stored in one list per key. Time is the position in
`arrivals`, where a request that brings nothing in is recorded as `none`. A fate function says for each
time whether the item that arrived then is still stored (`none`) or why it left (`some r`). `Stocked` ties
the fates to the stored lists: each list holds exactly the items that have not left, in the order of their
arrival. `keyed key k l` is what a list holds under the key `k`, without its order, so that a balance of
several lists is an equation of multisets for every key.
-/

namespace Dora.Lib

variable {κ α ρ : Type*}

def arrivalKey (arrivals : List (Option (κ × α))) (t : Nat) : Option κ :=
  arrivals[t]?.join.map Prod.fst

def arrivalItem (arrivals : List (Option (κ × α))) (t : Nat) : Option α :=
  arrivals[t]?.join.map Prod.snd

variable {arrivals : List (Option (κ × α))}

variable {k : κ} {idx t : Nat}

theorem arrivalKey_eq_some :
    arrivalKey arrivals t = some k ↔ ∃ x, arrivals[t]? = some (some (k, x)) := by
  unfold arrivalKey
  rcases h : arrivals[t]? with _ | _ | ⟨k', x⟩ <;> simp

theorem arrivalItem_of_arrival {x : α} (h : arrivals[t]? = some (some (k, x))) :
    arrivalItem arrivals t = some x := by
  simp [arrivalItem, h]

theorem arrivalKey_concat {a : Option (κ × α)} (ht : t < arrivals.length) :
    arrivalKey (arrivals ++ [a]) t = arrivalKey arrivals t := by
  simp [arrivalKey, List.getElem?_append_left ht]

theorem arrivalItem_concat {a : Option (κ × α)} (ht : t < arrivals.length) :
    arrivalItem (arrivals ++ [a]) t = arrivalItem arrivals t := by
  simp [arrivalItem, List.getElem?_append_left ht]

variable [DecidableEq κ]

/-- The times at which the items still stored under `k` arrived, earliest first. -/
def waiting (arrivals : List (Option (κ × α))) (fate : Nat → Option ρ) (k : κ) : List Nat :=
  (List.range arrivals.length).filter fun t => (fate t).isNone && arrivalKey arrivals t == some k

/-- Each stored list is what has arrived under its key and not left, in order of arrival. -/
def Stocked (arrivals : List (Option (κ × α))) (fate : Nat → Option ρ) (stock : κ → List α) :
    Prop :=
  ∀ k, (waiting arrivals fate k).map (arrivalItem arrivals) = (stock k).map some

/-- Record that the stored items picked by `p` leave for the reason `r`. -/
def depart (fate : Nat → Option ρ) (p : Nat → Bool) (r : ρ) (t : Nat) : Option ρ :=
  if (fate t).isNone && p t then some r else fate t

variable {fate : Nat → Option ρ} {stock : κ → List α}

theorem mem_waiting :
    t ∈ waiting arrivals fate k ↔ fate t = none ∧ ∃ x, arrivals[t]? = some (some (k, x)) := by
  simp only [waiting, List.mem_filter, List.mem_range, Bool.and_eq_true, Option.isNone_iff_eq_none,
    beq_iff_eq, arrivalKey_eq_some]
  constructor
  · rintro ⟨-, h⟩
    exact h
  · rintro ⟨hfate, x, hx⟩
    exact ⟨(List.getElem?_eq_some_iff.mp hx).1, hfate, x, hx⟩

theorem waiting_sorted (k : κ) : (waiting arrivals fate k).Pairwise (· < ·) :=
  List.Pairwise.filter _ List.pairwise_lt_range

theorem waiting_nodup (k : κ) : (waiting arrivals fate k).Nodup :=
  (waiting_sorted k).imp Nat.ne_of_lt

theorem head_le_of_mem_waiting {t' : Nat} (ht : (waiting arrivals fate k)[0]? = some t)
    (ht' : t' ∈ waiting arrivals fate k) : t ≤ t' := by
  obtain ⟨rest, hrest⟩ : ∃ rest, waiting arrivals fate k = t :: rest := by
    cases hw : waiting arrivals fate k with
    | nil => simp [hw] at ht
    | cons u rest => exact ⟨rest, by simpa [hw] using ht⟩
  have hsorted : (waiting arrivals fate k).Pairwise (· < ·) := waiting_sorted k
  rw [hrest, List.pairwise_cons] at hsorted
  rw [hrest, List.mem_cons] at ht'
  rcases ht' with rfl | ht'
  · exact Nat.le_refl _
  · exact Nat.le_of_lt (hsorted.1 t' ht')

theorem waiting_concat (a : Option (κ × α)) (k : κ) :
    waiting (arrivals ++ [a]) fate k =
      waiting arrivals fate k ++
        if fate arrivals.length = none ∧ a.map Prod.fst = some k then [arrivals.length] else [] := by
  have hlast : arrivalKey (arrivals ++ [a]) arrivals.length = a.map Prod.fst := by
    simp [arrivalKey]
  have hold : ((List.range arrivals.length).filter fun t =>
      (fate t).isNone && arrivalKey (arrivals ++ [a]) t == some k) = waiting arrivals fate k := by
    apply List.filter_congr
    intro t ht
    rw [arrivalKey_concat (List.mem_range.mp ht)]
  rw [waiting, List.length_append, List.length_singleton, List.range_succ, List.filter_append, hold]
  simp only [List.filter_singleton, hlast, cond_eq_ite, Bool.and_eq_true,
    Option.isNone_iff_eq_none, beq_iff_eq]

theorem Stocked.pass (h : Stocked arrivals fate stock) (a : Option (κ × α))
    (hgone : a = none ∨ fate arrivals.length ≠ none) : Stocked (arrivals ++ [a]) fate stock := by
  intro k
  have hnone : ¬(fate arrivals.length = none ∧ a.map Prod.fst = some k) := by
    rintro ⟨hfate, hkey⟩
    rcases hgone with rfl | hgone
    · simp at hkey
    · exact hgone hfate
  rw [waiting_concat, if_neg hnone, List.append_nil, ← h k]
  apply List.map_congr_left
  intro t ht
  obtain ⟨-, x, hx⟩ := mem_waiting.mp ht
  exact arrivalItem_concat (List.getElem?_eq_some_iff.mp hx).1

theorem Stocked.arrive (h : Stocked arrivals fate stock) (k : κ) (x : α)
    (hfresh : fate arrivals.length = none) :
    Stocked (arrivals ++ [some (k, x)]) fate (Function.update stock k (stock k ++ [x])) := by
  intro k'
  have hold : (waiting arrivals fate k').map (arrivalItem (arrivals ++ [some (k, x)])) =
      (stock k').map some := by
    rw [← h k']
    apply List.map_congr_left
    intro t ht
    obtain ⟨-, y, hy⟩ := mem_waiting.mp ht
    exact arrivalItem_concat (List.getElem?_eq_some_iff.mp hy).1
  rw [waiting_concat, List.map_append, hold]
  by_cases hk : k' = k
  · subst hk
    simp [hfresh, arrivalItem]
  · simp [hfresh, hk, Ne.symm hk]

theorem depart_eq_some {p : Nat → Bool} {r r' : ρ} :
    depart fate p r t = some r' ↔ fate t = some r' ∨ fate t = none ∧ p t = true ∧ r' = r := by
  unfold depart
  cases hfate : fate t <;> cases hp : p t <;> simp [eq_comm]

theorem depart_eq_none {p : Nat → Bool} {r : ρ} :
    depart fate p r t = none ↔ fate t = none ∧ p t = false := by
  unfold depart
  cases hfate : fate t <;> cases hp : p t <;> simp

theorem waiting_depart (p : Nat → Bool) (r : ρ) (k : κ) :
    waiting arrivals (depart fate p r) k = (waiting arrivals fate k).filter fun t => !p t := by
  unfold waiting
  rw [List.filter_filter]
  apply List.filter_congr
  intro t _
  cases hfate : fate t <;> cases hp : p t <;> simp [depart, hfate, hp]

/-- A departure under `k` leaves the items of the other keys alone. -/
theorem waiting_depart_of_ne {p : Nat → Bool} (r : ρ) {k' : κ} (hk : k' ≠ k)
    (hp : ∀ t, p t = true → arrivalKey arrivals t = some k) :
    waiting arrivals (depart fate p r) k' = waiting arrivals fate k' := by
  rw [waiting_depart, List.filter_eq_self]
  intro t ht
  have hkey : arrivalKey arrivals t = some k' := arrivalKey_eq_some.mpr (mem_waiting.mp ht).2
  cases hpt : p t with
  | false => rfl
  | true => exact absurd (Option.some.inj (hkey.symm.trans (hp t hpt))) hk

/-- The stored item at position `idx` has an arrival time. -/
theorem Stocked.getElem_waiting (h : Stocked arrivals fate stock) {x : α}
    (hx : (stock k)[idx]? = some x) :
    ∃ t, (waiting arrivals fate k)[idx]? = some t ∧ arrivals[t]? = some (some (k, x)) := by
  have hget : ((waiting arrivals fate k).map (arrivalItem arrivals))[idx]? = some (some x) := by
    rw [h k, List.getElem?_map, hx, Option.map_some]
  rw [List.getElem?_map] at hget
  obtain ⟨t, ht, hitem⟩ := Option.map_eq_some_iff.mp hget
  obtain ⟨-, y, hy⟩ := mem_waiting.mp (List.mem_of_getElem? ht)
  rw [arrivalItem_of_arrival hy, Option.some.injEq] at hitem
  exact ⟨t, ht, hitem ▸ hy⟩

theorem Stocked.removeAt (h : Stocked arrivals fate stock)
    (ht : (waiting arrivals fate k)[idx]? = some t) (r : ρ) :
    Stocked arrivals (depart fate (· == t) r) (Function.update stock k ((stock k).eraseIdx idx)) := by
  intro k'
  obtain ⟨hidx, rfl⟩ := List.getElem?_eq_some_iff.mp ht
  have hmem := List.getElem_mem hidx
  by_cases hk : k' = k
  · subst hk
    have herase : ((waiting arrivals fate k').filter fun u => !(u == (waiting arrivals fate k')[idx]))
        = (waiting arrivals fate k').eraseIdx idx := by
      rw [← (waiting_nodup k').erase_getElem idx hidx, (waiting_nodup k').erase_eq_filter]
      rfl
    rw [waiting_depart, herase, Function.update_self, ← List.eraseIdx_map, ← List.eraseIdx_map, h k']
  · rw [Function.update_of_ne hk, ← h k', waiting_depart_of_ne r hk]
    intro u hu
    rw [beq_iff_eq.mp hu]
    exact arrivalKey_eq_some.mpr (mem_waiting.mp hmem).2

theorem Stocked.refuse (h : Stocked arrivals fate stock) (a : Option (κ × α)) (r : ρ) :
    Stocked (arrivals ++ [a]) (depart fate (· == arrivals.length) r) stock := by
  have hlast : depart fate (· == arrivals.length) r arrivals.length ≠ none := by
    rw [ne_eq, depart_eq_none]
    simp
  refine Stocked.pass (fun k => ?_) a (.inr hlast)
  have hsame : (waiting arrivals fate k).filter (fun t => !(t == arrivals.length)) =
      waiting arrivals fate k := by
    rw [List.filter_eq_self]
    intro t ht
    obtain ⟨-, x, hx⟩ := mem_waiting.mp ht
    simpa using (List.getElem?_eq_some_iff.mp hx).1.ne
  rw [waiting_depart, hsame, h k]

/-- Which stored items under `k` a filter on the items lets go. -/
def rejects (arrivals : List (Option (κ × α))) (k : κ) (keep : α → Bool) (t : Nat) : Bool :=
  arrivalKey arrivals t == some k && (arrivalItem arrivals t).any fun x => !keep x

theorem Stocked.retain (h : Stocked arrivals fate stock) (k : κ) (keep : α → Bool) (r : ρ) :
    Stocked arrivals (depart fate (rejects arrivals k keep) r)
      (Function.update stock k ((stock k).filter keep)) := by
  intro k'
  by_cases hk : k' = k
  · subst hk
    have hsame : ((waiting arrivals fate k').filter fun t => !rejects arrivals k' keep t) =
        (waiting arrivals fate k').filter fun t => (arrivalItem arrivals t).all keep := by
      apply List.filter_congr
      intro t ht
      obtain ⟨-, x, hx⟩ := mem_waiting.mp ht
      simp [rejects, arrivalKey_eq_some.mpr ⟨x, hx⟩, arrivalItem_of_arrival hx]
    have hcomp : ((waiting arrivals fate k').filter fun t => (arrivalItem arrivals t).all keep).map
        (arrivalItem arrivals) = ((waiting arrivals fate k').map (arrivalItem arrivals)).filter
          (fun x => x.all keep) := by
      rw [List.filter_map]
      rfl
    rw [waiting_depart, hsame, hcomp, h k', Function.update_self, List.filter_map]
    congr 1
  · rw [Function.update_of_ne hk, ← h k', waiting_depart_of_ne r hk]
    intro t ht
    rw [rejects, Bool.and_eq_true] at ht
    exact beq_iff_eq.mp ht.1

section Keyed

variable {α κ : Type*} [DecidableEq κ] (key : α → κ) (k : κ)

def keyed (l : List α) : Multiset α := ↑(l.filter fun a => key a = k)

@[simp] theorem keyed_append (l l' : List α) :
    keyed key k (l ++ l') = keyed key k l + keyed key k l' := by
  simp [keyed, List.filter_append]

theorem keyed_cons (a : α) (l : List α) :
    keyed key k (a :: l) = keyed key k [a] + keyed key k l := by
  rw [← keyed_append, List.singleton_append]

theorem keyed_perm {l l' : List α} (h : l.Perm l') : keyed key k l = keyed key k l' :=
  Multiset.coe_eq_coe.mpr (h.filter _)

variable {key k}

theorem keyed_of_forall {l : List α} (h : ∀ a ∈ l, key a = k) : keyed key k l = ↑l := by
  unfold keyed
  rw [List.filter_eq_self.mpr (by simpa using h)]

theorem keyed_of_forall_ne {l : List α} (h : ∀ a ∈ l, key a ≠ k) : keyed key k l = 0 := by
  unfold keyed
  rw [List.filter_eq_nil_iff.mpr (by simpa using h)]
  rfl

end Keyed

end Dora.Lib
