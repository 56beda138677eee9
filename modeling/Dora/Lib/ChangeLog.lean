import Mathlib

/-!
# ChangeLog — keyed changes and the state that a sequence of them leaves

A change gives a key a new value or removes it. The state after a sequence of changes is decided key by
key by the last change of the key; a window of the sequence that is applied again to an older state
brings every key to the end of the window or further.
-/

namespace Dora.Lib

variable {K V : Type*}

/-- The value that `key` gets; `none` removes it. -/
structure Change (K V : Type*) where
  key : K
  image : Option V
deriving DecidableEq, Repr

variable {c : Change K V} {cs ds log : List (Change K V)}

/-- What the last of `cs` leaves of a key that had `v` before. -/
def lastImage (v : Option V) (cs : List (Change K V)) : Option V := (cs.getLast?.map Change.image).getD v

@[simp] theorem lastImage_nil {v : Option V} : lastImage v ([] : List (Change K V)) = v := rfl

@[simp] theorem lastImage_concat {v : Option V} : lastImage v (cs ++ [c]) = c.image := by
  simp [lastImage]

theorem lastImage_append {v : Option V} : lastImage v (cs ++ ds) = lastImage (lastImage v cs) ds := by
  rcases List.eq_nil_or_concat ds with rfl | ⟨ds, d, rfl⟩
  · simp
  · rw [List.concat_eq_append, ← List.append_assoc, lastImage_concat, lastImage_concat]

theorem lastImage_of_ne_nil {v v' : Option V} (h : cs ≠ []) : lastImage v cs = lastImage v' cs := by
  obtain ⟨cs, c, rfl⟩ := (List.eq_nil_or_concat cs).resolve_left h
  simp

/-- The changes after the first `a` up to the first `b`. -/
def window (log : List (Change K V)) (a b : Nat) : List (Change K V) := (log.take b).drop a

theorem length_window {a b : Nat} (h : b ≤ log.length) : (window log a b).length = b - a := by
  rw [window, List.length_drop, List.length_take, Nat.min_eq_left h]

theorem take_append_window {a b : Nat} (h : a ≤ b) : log.take a ++ window log a b = log.take b := by
  rw [window]
  conv_rhs => rw [← List.take_append_drop a (log.take b)]
  rw [List.take_take, Nat.min_eq_left h]

theorem window_append_window {a b d : Nat} (hab : a ≤ b) (hbd : b ≤ d) :
    window log a b ++ window log b d = window log a d := by
  have h : log.take a ++ (window log a b ++ window log b d) = log.take a ++ window log a d := by
    rw [← List.append_assoc, take_append_window hab, take_append_window hbd,
      take_append_window (hab.trans hbd)]
  exact List.append_cancel_left h

variable [DecidableEq K] {k : K}

def changesOf (k : K) (cs : List (Change K V)) : List (Change K V) := cs.filter fun c => c.key = k

@[simp] theorem changesOf_nil : changesOf k ([] : List (Change K V)) = [] := rfl

@[simp] theorem changesOf_append : changesOf k (cs ++ ds) = changesOf k cs ++ changesOf k ds :=
  List.filter_append cs ds

theorem changesOf_cons :
    changesOf k (c :: cs) = (if c.key = k then [c] else []) ++ changesOf k cs := by
  by_cases h : c.key = k <;> simp [changesOf, h]

theorem mem_changesOf : c ∈ changesOf k cs ↔ c ∈ cs ∧ c.key = k := by simp [changesOf]

theorem changesOf_eq_nil (h : ∀ c ∈ cs, c.key ≠ k) : changesOf k cs = [] := by
  rw [changesOf, List.filter_eq_nil_iff]
  intro c hc
  simpa using h c hc

/-- The value that the changes leave of `k`, starting from nothing. -/
def valueAfter (k : K) (cs : List (Change K V)) : Option V := lastImage none (changesOf k cs)

theorem valueAfter_append : valueAfter k (cs ++ ds) = lastImage (valueAfter k cs) (changesOf k ds) := by
  rw [valueAfter, changesOf_append, lastImage_append, valueAfter]

theorem valueAfter_concat_self (h : c.key = k) : valueAfter k (cs ++ [c]) = c.image := by
  simp [valueAfter, changesOf_cons, h]

theorem valueAfter_concat_of_ne (h : c.key ≠ k) : valueAfter k (cs ++ [c]) = valueAfter k cs := by
  simp [valueAfter, changesOf_cons, h]

theorem valueAfter_take_of_window {a b : Nat} (h : a ≤ b) :
    valueAfter k (log.take b) = lastImage (valueAfter k (log.take a)) (changesOf k (window log a b)) := by
  rw [← take_append_window h, valueAfter_append]

theorem valueAfter_take_eq {a b : Nat} (h : a ≤ b) (hnone : changesOf k (window log a b) = []) :
    valueAfter k (log.take b) = valueAfter k (log.take a) := by
  rw [valueAfter_take_of_window h, hnone, lastImage_nil]

theorem exists_take_of_window {a b t : Nat} {v : Option V} (hab : a ≤ b) (hat : a ≤ t)
    (hv : v = valueAfter k (log.take t)) :
    ∃ t', b ≤ t' ∧ lastImage v (changesOf k (window log a b)) = valueAfter k (log.take t') := by
  by_cases hnone : changesOf k (window log a b) = []
  · rw [hnone, lastImage_nil]
    rcases Nat.le_total b t with hbt | htb
    · exact ⟨t, hbt, hv⟩
    · refine ⟨b, Nat.le_refl b, hv.trans (valueAfter_take_eq htb ?_).symm⟩
      rw [← window_append_window hat htb, changesOf_append, List.append_eq_nil_iff] at hnone
      exact hnone.2
  · refine ⟨b, Nat.le_refl b, ?_⟩
    rw [valueAfter_take_of_window hab]
    exact lastImage_of_ne_nil hnone

end Dora.Lib
