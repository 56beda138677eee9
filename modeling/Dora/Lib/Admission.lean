import Mathlib

/-!
# Admission — growing a set of names whose members refer to each other

Candidates are admitted one after another into a set of known names, each as soon as all its needs
resolve there. A need resolves because it always does, because one of its full names is known, or
because exactly one known name is abbreviated by it. The last way is not monotone: a second match
makes the need ambiguous, and what is admitted may then depend on the order. Where no need that counts
is short for two of the names that can come to be known at all, every order ends with all of these.
-/

namespace Dora.Lib

/-- How a need names the keys it can mean. -/
structure Lookup (κ ν : Type*) where
  always : ν → Prop
  full : ν → κ → Prop
  short : ν → κ → Prop

namespace Lookup

variable {κ ν : Type*} (look : Lookup κ ν)

def Resolves (known : Set κ) (need : ν) : Prop :=
  look.always need ∨ (∃ k ∈ known, look.full need k) ∨ ∃! k, k ∈ known ∧ look.short need k

/-- The need is short for at most one of the names. -/
def Unique (names : Set κ) (need : ν) : Prop :=
  ∀ k ∈ names, ∀ k' ∈ names, look.short need k → look.short need k' → k = k'

/-- The need may come to resolve on the way from `start` to `known`. -/
def Possible (start known : Set κ) (need : ν) : Prop :=
  look.always need ∨ (∃ k ∈ known, look.full need k) ∨
    (∃ k ∈ known, look.short need k) ∧ look.Unique start need

/-- No name of `names` takes the need away. -/
def Clear (start names : Set κ) (need : ν) : Prop :=
  look.always need ∨ (∃ k ∈ start, look.full need k) ∨ look.Unique names need

variable (candidates : Set (κ × Set ν))

def Settled (known : Set κ) : Prop :=
  ∀ candidate ∈ candidates, (∀ need ∈ candidate.2, look.Resolves known need) → candidate.1 ∈ known

/-- The names that may come to be known: the least set that has those of `start` and every candidate
whose needs may all come to resolve. -/
def admissible (start : Set κ) : Set κ :=
  {k | ∀ known, start ⊆ known →
    (∀ candidate ∈ candidates, (∀ need ∈ candidate.2, look.Possible start known need) →
      candidate.1 ∈ known) → k ∈ known}

variable {look candidates} {start known final names : Set κ} {need : ν}

theorem Possible.mono (hsub : known ⊆ final) (h : look.Possible start known need) :
    look.Possible start final need := by
  obtain halways | ⟨k, hk, hfull⟩ | ⟨⟨k, hk, hshort⟩, hunique⟩ := h
  · exact .inl halways
  · exact .inr (.inl ⟨k, hsub hk, hfull⟩)
  · exact .inr (.inr ⟨⟨k, hsub hk, hshort⟩, hunique⟩)

theorem Resolves.possible (hstart : start ⊆ known) (h : look.Resolves known need) :
    look.Possible start known need := by
  obtain halways | hfull | ⟨k, ⟨hk, hshort⟩, hunique⟩ := h
  · exact .inl halways
  · exact .inr (.inl hfull)
  · refine .inr (.inr ⟨⟨k, hk, hshort⟩, fun j hj j' hj' hjshort hjshort' => ?_⟩)
    exact (hunique j ⟨hstart hj, hjshort⟩).trans (hunique j' ⟨hstart hj', hjshort'⟩).symm

theorem Possible.resolves (hstart : start ⊆ known) (hnames : known ⊆ names)
    (hclear : look.Clear start names need) (h : look.Possible start known need) :
    look.Resolves known need := by
  obtain halways | hfull | ⟨⟨k, hk, hshort⟩, -⟩ := h
  · exact .inl halways
  · exact .inr (.inl hfull)
  obtain halways | ⟨j, hj, hfull⟩ | hunique := hclear
  · exact .inl halways
  · exact .inr (.inl ⟨j, hstart hj, hfull⟩)
  · exact .inr (.inr ⟨k, ⟨hk, hshort⟩, fun j hj =>
      hunique j (hnames hj.1) k (hnames hk) hj.2 hshort⟩)

theorem subset_admissible : start ⊆ look.admissible candidates start :=
  fun _ hk _ hstart _ => hstart hk

theorem mem_admissible {candidate : κ × Set ν} (hmem : candidate ∈ candidates)
    (h : ∀ need ∈ candidate.2, look.Possible start (look.admissible candidates start) need) :
    candidate.1 ∈ look.admissible candidates start := by
  intro known hstart hclosed
  apply hclosed candidate hmem
  intro need hneed
  exact (h need hneed).mono fun k (hk : k ∈ look.admissible candidates start) => hk known hstart hclosed

/-- Where the needs of the candidates that may be admitted are clear, an admission that has come to its
end has admitted all of these. -/
theorem eq_admissible_of_settled (hstart : start ⊆ final)
    (hsub : final ⊆ look.admissible candidates start) (hsettled : look.Settled candidates final)
    (hclear : ∀ candidate ∈ candidates,
      (∀ need ∈ candidate.2, look.Possible start (look.admissible candidates start) need) →
      ∀ need ∈ candidate.2, look.Clear start (look.admissible candidates start) need) :
    final = look.admissible candidates start := by
  refine Set.Subset.antisymm hsub fun k hk => hk final hstart ?_
  intro candidate hmem hpossible
  apply hsettled candidate hmem
  intro need hneed
  refine (hpossible need hneed).resolves hstart hsub ?_
  exact hclear candidate hmem (fun need hneed => (hpossible need hneed).mono hsub) need hneed

end Lookup

end Dora.Lib
