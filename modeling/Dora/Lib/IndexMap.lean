import Mathlib

/-!
# IndexMap — a map that remembers the order of insertion

An index map is a list of entries, oldest first, in which a lookup finds the first entry of a key.
Bounding its length drops the oldest entries, of all keys or of those that may be dropped.
-/

namespace Dora.Lib

variable {κ β : Type*} [DecidableEq κ]

abbrev IndexMap (κ β : Type*) := List (κ × β)

namespace IndexMap

def get? (m : IndexMap κ β) (k : κ) : Option β := (m.find? fun entry => entry.1 = k).map Prod.snd

def contains (m : IndexMap κ β) (k : κ) : Bool := (m.get? k).isSome

/-- `entry(k).or_insert(v)` -/
def orInsert (m : IndexMap κ β) (k : κ) (v : β) : IndexMap κ β :=
  if m.contains k then m else m ++ [(k, v)]

/-- `entry(k).or_insert(default)` and then an update of the value. -/
def upsert (m : IndexMap κ β) (k : κ) (default : β) (f : β → β) : IndexMap κ β :=
  (m.orInsert k default).map fun entry => if entry.1 = k then (entry.1, f entry.2) else entry

/-- `shift_remove(k)` -/
def shiftRemove (m : IndexMap κ β) (k : κ) : IndexMap κ β := m.filter fun entry => entry.1 ≠ k

/-- Drop the oldest entries until at most `limit` are left. -/
def cap (limit : Nat) (m : IndexMap κ β) : IndexMap κ β := m.drop (m.length - limit)

/-- Drop the oldest `n` entries whose key satisfies `evictable`. -/
def evict (evictable : κ → Bool) : Nat → IndexMap κ β → IndexMap κ β
  | 0, m => m
  | _ + 1, [] => []
  | n + 1, entry :: m =>
    if evictable entry.1 then evict evictable n m else entry :: evict evictable (n + 1) m

variable {m : IndexMap κ β} {k k' : κ} {v : β}

theorem get?_cons (entry : κ × β) :
    get? (entry :: m) k = if entry.1 = k then some entry.2 else m.get? k := by
  by_cases h : entry.1 = k <;> simp [get?, h]

theorem get?_append (m' : IndexMap κ β) : get? (m ++ m') k = (m.get? k).or (get? m' k) := by
  simp [get?, List.find?_append, Option.map_or]

theorem get?_orInsert :
    (m.orInsert k v).get? k' = if k = k' then some ((m.get? k).getD v) else m.get? k' := by
  by_cases hmem : m.contains k = true
  · obtain ⟨w, hw⟩ := Option.isSome_iff_exists.mp hmem
    rw [orInsert, if_pos hmem]
    split
    · rename_i heq
      rw [← heq, hw, Option.getD_some]
    · rfl
  · have hnone : m.get? k = none := by simpa [contains] using hmem
    rw [orInsert, if_neg hmem, get?_append, get?_cons]
    split
    · rename_i heq
      rw [← heq, hnone, Option.getD_none, Option.none_or]
    · simp [get?]

theorem get?_mapAt (f : β → β) :
    get? (m.map fun entry => if entry.1 = k then (entry.1, f entry.2) else entry) k' =
      if k = k' then (m.get? k').map f else m.get? k' := by
  induction m with
  | nil => simp [get?]
  | cons entry m ih =>
    rw [List.map_cons, get?_cons, ih, get?_cons]
    by_cases hentry : entry.1 = k
    · by_cases hk : k = k' <;> simp [hentry, hk]
    · by_cases hk : k = k'
      · simp [hk ▸ hentry, hk]
      · simp [hentry, hk]

theorem get?_upsert {f : β → β} :
    (m.upsert k v f).get? k' = if k = k' then some (f ((m.get? k).getD v)) else m.get? k' := by
  rw [upsert, get?_mapAt, get?_orInsert]
  split <;> rfl

theorem get?_shiftRemove : (m.shiftRemove k).get? k' = if k = k' then none else m.get? k' := by
  induction m with
  | nil => simp [shiftRemove, get?]
  | cons entry m ih =>
    by_cases hentry : entry.1 = k
    · rw [shiftRemove, List.filter_cons_of_neg (by simpa using hentry), ← shiftRemove, ih, get?_cons]
      split
      · rfl
      · rename_i hk
        rw [if_neg (hentry ▸ hk)]
    · rw [shiftRemove, List.filter_cons_of_pos (by simpa using hentry), ← shiftRemove, get?_cons, ih,
        get?_cons]
      by_cases hk : entry.1 = k'
      · rw [if_pos hk, if_neg fun heq => hentry (hk.trans heq.symm), if_pos hk]
      · rw [if_neg hk, if_neg hk]

theorem contains_iff : m.contains k = true ↔ ∃ entry ∈ m, entry.1 = k := by
  simp [contains, get?]

theorem contains_of_contains_cap {limit : Nat} (h : (m.cap limit).contains k = true) :
    m.contains k = true := by
  obtain ⟨entry, hmem, hkey⟩ := contains_iff.mp h
  exact contains_iff.mpr ⟨entry, List.mem_of_mem_drop hmem, hkey⟩

theorem contains_orInsert :
    (m.orInsert k v).contains k' = (k = k' || m.contains k') := by
  rw [contains, get?_orInsert]
  by_cases hk : k = k' <;> simp [hk, contains]

theorem get?_evict {evictable : κ → Bool} (hk : evictable k = false) (n : Nat) :
    (evict evictable n m).get? k = m.get? k := by
  induction m generalizing n with
  | nil => cases n <;> rfl
  | cons entry m ih =>
    cases n with
    | zero => rfl
    | succ n =>
      rw [evict]
      split
      · rename_i hentry
        have hne : entry.1 ≠ k := fun heq => by simp [heq, hk] at hentry
        rw [ih, get?_cons, if_neg hne]
      · rw [get?_cons, get?_cons, ih]

theorem get?_evict_eq_none {evictable : κ → Bool} (hk : m.get? k = none) (n : Nat) :
    (evict evictable n m).get? k = none := by
  induction m generalizing n with
  | nil => cases n <;> rfl
  | cons entry m ih =>
    have hboth : entry.1 ≠ k ∧ get? m k = none := by
      rw [get?_cons] at hk
      split at hk
      · cases hk
      · exact ⟨‹_›, hk⟩
    cases n with
    | zero => exact hk
    | succ n =>
      rw [evict]
      split
      · exact ih hboth.2 n
      · rw [get?_cons, if_neg hboth.1]
        exact ih hboth.2 (n + 1)

end IndexMap

end Dora.Lib
