import Mathlib

/-!
# Machine — runs of a deterministic step function with outputs

A component is given by a function `step : σ → ι → σ × ο` that takes the state and one request to
the next state and the answer. The induction rules carry an invariant through a run over a list of
requests: one for every run, and one for the runs whose requests all meet a condition.
-/

namespace Dora.Lib

variable {σ ι ο : Type*}

/-- The state reached from `s` by the requests `is`, with the answers in order. -/
def run (step : σ → ι → σ × ο) : σ → List ι → σ × List ο
  | s, [] => (s, [])
  | s, i :: is =>
    let next := step s i
    let rest := run step next.1 is
    (rest.1, next.2 :: rest.2)

variable (step : σ → ι → σ × ο)

@[simp] theorem run_nil (s : σ) : run step s [] = (s, []) := rfl

theorem run_append (s : σ) (is js : List ι) :
    run step s (is ++ js) =
      ((run step (run step s is).1 js).1,
        (run step s is).2 ++ (run step (run step s is).1 js).2) := by
  induction is generalizing s with
  | nil => simp
  | cons i is ih => simp only [List.cons_append, run, ih]

theorem run_concat (s : σ) (is : List ι) (i : ι) :
    run step s (is ++ [i]) =
      ((step (run step s is).1 i).1, (run step s is).2 ++ [(step (run step s is).1 i).2]) := by
  rw [run_append]
  rfl

@[simp] theorem run_outputs_length (s : σ) (is : List ι) :
    (run step s is).2.length = is.length := by
  induction is generalizing s with
  | nil => rfl
  | cons i is ih => simp only [run, List.length_cons, ih]

/-- A relation between requests, answers and state that the empty run has and that every step
keeps holds of every run. -/
theorem run_induction {P : List ι → List ο → σ → Prop} {s₀ : σ} (hinit : P [] [] s₀)
    (hstep : ∀ is outs s i, outs.length = is.length → P is outs s →
      P (is ++ [i]) (outs ++ [(step s i).2]) (step s i).1) (is : List ι) :
    P is (run step s₀ is).2 (run step s₀ is).1 := by
  induction is using List.reverseRecOn with
  | nil => exact hinit
  | append_singleton is i ih =>
    rw [run_concat]
    exact hstep is _ _ i (run_outputs_length step s₀ is) ih

/-- Every request of the run meets `cond` in the state in which it is handled. -/
def Meets (cond : σ → ι → Prop) : σ → List ι → Prop
  | _, [] => True
  | s, i :: is => cond s i ∧ Meets cond (step s i).1 is

variable {cond : σ → ι → Prop}

instance decidableMeets [∀ s i, Decidable (cond s i)] :
    ∀ (s : σ) (is : List ι), Decidable (Meets step cond s is)
  | _, [] => .isTrue trivial
  | s, i :: is =>
    have := decidableMeets (step s i).1 is
    inferInstanceAs (Decidable (cond s i ∧ Meets step cond (step s i).1 is))

theorem meets_append (s : σ) (is js : List ι) :
    Meets step cond s (is ++ js) ↔ Meets step cond s is ∧ Meets step cond (run step s is).1 js := by
  induction is generalizing s with
  | nil => simp [Meets]
  | cons i is ih => simp only [List.cons_append, Meets, run, ih, and_assoc]

theorem meets_concat (s : σ) (is : List ι) (i : ι) :
    Meets step cond s (is ++ [i]) ↔ Meets step cond s is ∧ cond (run step s is).1 i := by
  rw [meets_append]
  simp only [Meets, and_true]

theorem meets_of_forall_mem {cond : ι → Prop} (s : σ) (is : List ι) (h : ∀ i ∈ is, cond i) :
    Meets step (fun _ => cond) s is := by
  induction is generalizing s with
  | nil => trivial
  | cons i is ih =>
    exact ⟨h i List.mem_cons_self, ih _ fun j hj => h j (List.mem_cons_of_mem i hj)⟩

theorem meets_of_invariant {Inv : σ → Prop} (hinv : ∀ s i, Inv s → Inv (step s i).1)
    (hcond : ∀ s i, Inv s → cond s i) (s : σ) (is : List ι) (hs : Inv s) :
    Meets step cond s is := by
  induction is generalizing s with
  | nil => trivial
  | cons i is ih => exact ⟨hcond s i hs, ih _ (hinv s i hs)⟩

theorem meets_congr {cond' : σ → ι → Prop} {Inv : σ → Prop}
    (hinv : ∀ s i, Inv s → Inv (step s i).1) (hcond : ∀ s i, Inv s → (cond s i ↔ cond' s i))
    (s : σ) (is : List ι) (hs : Inv s) : Meets step cond s is ↔ Meets step cond' s is := by
  induction is generalizing s with
  | nil => exact Iff.rfl
  | cons i is ih => exact and_congr (hcond s i hs) (ih _ (hinv s i hs))

/-- The induction rule for the runs whose requests all meet `cond`. -/
theorem run_induction_meets {P : List ι → List ο → σ → Prop} {s₀ : σ} (hinit : P [] [] s₀)
    (hstep : ∀ is outs s i, outs.length = is.length → cond s i → P is outs s →
      P (is ++ [i]) (outs ++ [(step s i).2]) (step s i).1)
    (is : List ι) (hmeets : Meets step cond s₀ is) :
    P is (run step s₀ is).2 (run step s₀ is).1 := by
  induction is using List.reverseRecOn with
  | nil => exact hinit
  | append_singleton is i ih =>
    rw [meets_concat] at hmeets
    rw [run_concat]
    exact hstep is _ _ i (run_outputs_length step s₀ is) hmeets.2 (ih hmeets.1)

/-- What `f` sees in the requests of a run, each in the state in which it is handled. -/
def collect {α : Type*} (f : σ → ι → List α) : σ → List ι → List α
  | _, [] => []
  | s, i :: is => f s i ++ collect f (step s i).1 is

theorem collect_concat {α : Type*} (f : σ → ι → List α) (s : σ) (is : List ι) (i : ι) :
    collect step f s (is ++ [i]) = collect step f s is ++ f (run step s is).1 i := by
  induction is generalizing s with
  | nil => simp [collect]
  | cons j is ih => simp only [List.cons_append, collect, run, ih, List.append_assoc]

section history

variable {α : Type*} {l : List α} {x y : α} {t : Nat}

theorem getElem?_concat_of_some (h : l[t]? = some y) : (l ++ [x])[t]? = some y := by
  rw [List.getElem?_append_left (List.getElem?_eq_some_iff.mp h).1, h]

theorem getElem?_concat_cases (h : (l ++ [x])[t]? = some y) :
    l[t]? = some y ∨ t = l.length ∧ x = y := by
  rcases Nat.lt_trichotomy t l.length with hlt | rfl | hgt
  · rw [List.getElem?_append_left hlt] at h
    exact .inl h
  · rw [List.getElem?_concat_length, Option.some.injEq] at h
    exact .inr ⟨rfl, h⟩
  · rw [List.getElem?_eq_none (by simp; omega)] at h
    cases h

end history

end Dora.Lib
