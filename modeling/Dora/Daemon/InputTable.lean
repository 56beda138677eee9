import Mathlib

/-!
# The input table — the abstract view of a dataflow's inputs

Nodes have inputs, outputs feed inputs along edges, and an input is open, circuit-broken or closed.
A broken input can recover; a closed one stays closed until an edge into it is added again. The
properties that the daemon's bookkeeping is for: the parts of the table fit together (`Consistent`,
`Separate`), no live input is lost (`Covered`), and which nodes are finished (`Finished`).
-/

namespace Dora

/-- Outputs `O`, nodes `N`, and the names `I` of a node's inputs. -/
@[ext] structure InputTable (O N I : Type*) where
  edges : Set (O × N × I)
  opened : Set (N × I)
  broken : Set (N × I)
  deadlines : Set (N × I)
  /-- The inputs that some edge can close. -/
  data : Set (N × I)

namespace InputTable

variable {O N I : Type*}

section Moves

variable (t : InputTable O N I)

def close (K : Set (N × I)) : InputTable O N I :=
  { t with opened := t.opened \ K, broken := t.broken \ K, deadlines := t.deadlines \ K }

def recover (R : Set (N × I)) : InputTable O N I :=
  { t with opened := t.opened ∪ R, broken := t.broken \ R, deadlines := t.deadlines ∪ R }

def trip (K : Set (N × I)) : InputTable O N I :=
  { t with opened := t.opened \ K, broken := t.broken ∪ K }

def expire (K : Set (N × I)) : InputTable O N I :=
  { t.trip K with deadlines := t.deadlines \ K }

/-- New edges `E`, opening `K`, of which `D` get a deadline and `A` are data inputs. -/
def register (E : Set (O × N × I)) (K D A : Set (N × I)) : InputTable O N I :=
  { t with
    edges := t.edges ∪ E, opened := t.opened ∪ K, deadlines := t.deadlines ∪ D
    data := t.data ∪ A }

def unlink (E : Set (O × N × I)) : InputTable O N I := { t with edges := t.edges \ E }

def purge (n : N) : InputTable O N I where
  edges := {e ∈ t.edges | e.2.1 ≠ n}
  opened := {k ∈ t.opened | k.1 ≠ n}
  broken := {k ∈ t.broken | k.1 ≠ n}
  deadlines := {k ∈ t.deadlines | k.1 ≠ n}
  data := {k ∈ t.data | k.1 ≠ n}

/-- A new incarnation of a node: its broken marks go, and its deadlines are now `D`. -/
def renew (n : N) (D : Set (N × I)) : InputTable O N I :=
  { t with
    broken := {k ∈ t.broken | k.1 ≠ n}
    deadlines := {k ∈ t.deadlines | k.1 ≠ n} ∪ D }

end Moves

@[simp] theorem close_empty (t : InputTable O N I) : t.close ∅ = t := by
  simp [close]

theorem close_close (t : InputTable O N I) (K K' : Set (N × I)) :
    (t.close K).close K' = t.close (K ∪ K') := by
  simp [close, Set.sdiff_sdiff]

@[simp] theorem recover_empty (t : InputTable O N I) : t.recover ∅ = t := by
  simp [recover]

theorem recover_recover (t : InputTable O N I) (R R' : Set (N × I)) :
    (t.recover R).recover R' = t.recover (R ∪ R') := by
  simp [recover, Set.sdiff_sdiff, Set.union_assoc]

@[simp] theorem trip_empty (t : InputTable O N I) : t.trip ∅ = t := by
  simp [trip]

theorem trip_trip (t : InputTable O N I) (K K' : Set (N × I)) :
    (t.trip K).trip K' = t.trip (K ∪ K') := by
  simp [trip, Set.sdiff_sdiff, Set.union_assoc]

def Mapped (t : InputTable O N I) (k : N × I) : Prop := ∃ o, (o, k) ∈ t.edges

structure Consistent (t : InputTable O N I) : Prop where
  deadlines_open : ∀ k ∈ t.deadlines, k ∈ t.opened
  deadlines_mapped : ∀ k ∈ t.deadlines, t.Mapped k
  broken_mapped : ∀ k ∈ t.broken, t.Mapped k
  edges_data : ∀ e ∈ t.edges, e.2 ∈ t.data

theorem consistent_empty : (⟨∅, ∅, ∅, ∅, ∅⟩ : InputTable O N I).Consistent where
  deadlines_open _ h := h.elim
  deadlines_mapped _ h := h.elim
  broken_mapped _ h := h.elim
  edges_data _ h := h.elim

/-- What comes with new edges `E` and newly opened inputs `K`: deadlines `D` and data inputs `A`. -/
structure Registration (E : Set (O × N × I)) (K D A : Set (N × I)) : Prop where
  deadlines_open : D ⊆ K
  deadlines_mapped : ∀ k ∈ D, ∃ o, (o, k) ∈ E
  edges_data : ∀ e ∈ E, e.2 ∈ A
  data_open : A ⊆ K

def Separate (t : InputTable O N I) : Prop := ∀ k ∈ t.opened, k ∉ t.broken

variable {t : InputTable O N I} {K R D A : Set (N × I)} {E C : Set (O × N × I)} {n : N}

theorem Consistent.recover (h : t.Consistent) (hR : R ⊆ t.broken) : (t.recover R).Consistent where
  deadlines_open k hk := hk.imp (h.deadlines_open k) id
  deadlines_mapped k hk := hk.elim (h.deadlines_mapped k) fun hk => h.broken_mapped k (hR hk)
  broken_mapped k hk := h.broken_mapped k hk.1
  edges_data := h.edges_data

theorem Consistent.expire (h : t.Consistent) (hK : K ⊆ t.deadlines) : (t.expire K).Consistent where
  deadlines_open k hk := ⟨h.deadlines_open k hk.1, hk.2⟩
  deadlines_mapped k hk := h.deadlines_mapped k hk.1
  broken_mapped k hk := hk.elim (h.broken_mapped k) fun hk => h.deadlines_mapped k (hK hk)
  edges_data := h.edges_data

theorem Consistent.unlink_close (h : t.Consistent) (hE : ∀ e ∈ E, e ∈ t.edges → e.2 ∈ K) :
    ((t.unlink E).close K).Consistent := by
  have hmapped : ∀ k, t.Mapped k → k ∉ K → ((t.unlink E).close K).Mapped k := by
    rintro k ⟨o, ho⟩ hk
    exact ⟨o, ho, fun hmem => hk (hE _ hmem ho)⟩
  exact
    { deadlines_open := fun k hk => ⟨h.deadlines_open k hk.1, hk.2⟩
      deadlines_mapped := fun k hk => hmapped k (h.deadlines_mapped k hk.1) hk.2
      broken_mapped := fun k hk => hmapped k (h.broken_mapped k hk.1) hk.2
      edges_data := fun e he => h.edges_data e he.1 }

theorem Consistent.register (h : t.Consistent) (hreg : Registration E K D A) :
    (t.register E K D A).Consistent where
  deadlines_open k hk := hk.imp (h.deadlines_open k) fun hk => hreg.deadlines_open hk
  deadlines_mapped k hk := hk.elim
    (fun hk => (h.deadlines_mapped k hk).imp fun _ ho => .inl ho)
    fun hk => (hreg.deadlines_mapped k hk).imp fun _ ho => .inr ho
  broken_mapped k hk := (h.broken_mapped k hk).imp fun _ ho => .inl ho
  edges_data e he := he.imp (h.edges_data e) (hreg.edges_data e)

theorem Consistent.purge (h : t.Consistent) : (t.purge n).Consistent where
  deadlines_open k hk := ⟨h.deadlines_open k hk.1, hk.2⟩
  deadlines_mapped k hk := (h.deadlines_mapped k hk.1).imp fun _ ho => ⟨ho, hk.2⟩
  broken_mapped k hk := (h.broken_mapped k hk.1).imp fun _ ho => ⟨ho, hk.2⟩
  edges_data e he := ⟨h.edges_data e he.1, he.2⟩

theorem Consistent.renew (h : t.Consistent) (hopen : D ⊆ t.opened) (hmapped : ∀ k ∈ D, t.Mapped k) :
    (t.renew n D).Consistent where
  deadlines_open k hk := hk.elim (fun hk => h.deadlines_open k hk.1) fun hk => hopen hk
  deadlines_mapped k hk := hk.elim (fun hk => h.deadlines_mapped k hk.1) (hmapped k)
  broken_mapped k hk := h.broken_mapped k hk.1
  edges_data := h.edges_data

theorem Separate.recover (h : t.Separate) : (t.recover R).Separate := by
  rintro k (hk | hk) hbroken
  · exact h k hk hbroken.1
  · exact hbroken.2 hk

theorem Separate.expire (h : t.Separate) : (t.expire K).Separate := by
  rintro k hk (hbroken | hbroken)
  · exact h k hk.1 hbroken
  · exact hk.2 hbroken

theorem Separate.close (h : t.Separate) : (t.close K).Separate :=
  fun k hk hbroken => h k hk.1 hbroken.1

theorem Separate.register (h : t.Separate) (hK : ∀ k ∈ K, k ∉ t.broken) :
    (t.register E K D A).Separate := by
  rintro k (hk | hk) hbroken
  · exact h k hk hbroken
  · exact hK k hk hbroken

theorem Separate.purge (h : t.Separate) : (t.purge n).Separate :=
  fun k hk hbroken => h k hk.1 hbroken.1

theorem Separate.renew (h : t.Separate) : (t.renew n D).Separate :=
  fun k hk hbroken => h k hk hbroken.1

theorem Registration.union {E' : Set (O × N × I)} {K' D' A' : Set (N × I)}
    (h : Registration E K D A) (h' : Registration E' K' D' A') :
    Registration (E ∪ E') (K ∪ K') (D ∪ D') (A ∪ A') where
  deadlines_open := Set.union_subset_union h.deadlines_open h'.deadlines_open
  deadlines_mapped k hk := hk.elim
    (fun hk => (h.deadlines_mapped k hk).imp fun _ ho => .inl ho)
    fun hk => (h'.deadlines_mapped k hk).imp fun _ ho => .inr ho
  edges_data e he := he.imp (h.edges_data e) (h'.edges_data e)
  data_open := Set.union_subset_union h.data_open h'.data_open

/-- The table has the new edges `E` and the newly opened inputs `K`. -/
def Registers (t t' : InputTable O N I) (E : Set (O × N × I)) (K : Set (N × I)) : Prop :=
  ∃ D A, Registration E K D A ∧ t' = t.register E K D A

theorem Registers.refl (t : InputTable O N I) : Registers t t ∅ ∅ := by
  refine ⟨∅, ∅, ⟨Set.Subset.rfl, fun _ h => h.elim, fun _ h => h.elim, Set.Subset.rfl⟩, ?_⟩
  simp [InputTable.register]

theorem Registers.trans {t' t'' : InputTable O N I} {E' : Set (O × N × I)} {K' : Set (N × I)}
    (h : Registers t t' E K) (h' : Registers t' t'' E' K') :
    Registers t t'' (E ∪ E') (K ∪ K') := by
  obtain ⟨D, A, hreg, rfl⟩ := h
  obtain ⟨D', A', hreg', rfl⟩ := h'
  exact ⟨D ∪ D', A ∪ A', hreg.union hreg', by simp [InputTable.register, Set.union_assoc]⟩

/-- Every edge outside `C` leads into an input that is open or can recover. -/
def Covered (t : InputTable O N I) (C : Set (O × N × I)) : Prop :=
  ∀ e ∈ t.edges, e ∉ C → e.2 ∈ t.opened ∨ e.2 ∈ t.broken

theorem Covered.mono {C' : Set (O × N × I)} (h : t.Covered C)
    (hC : ∀ e ∈ t.edges, e ∈ C → e ∈ C') : t.Covered C' :=
  fun e he hout => h e he fun hmem => hout (hC e he hmem)

theorem Covered.recover (h : t.Covered C) : (t.recover R).Covered C := by
  intro e he hout
  rcases h e he hout with hopen | hbroken
  · exact .inl (.inl hopen)
  · by_cases hR : e.2 ∈ R
    · exact .inl (.inr hR)
    · exact .inr ⟨hbroken, hR⟩

theorem Covered.expire (h : t.Covered C) : (t.expire K).Covered C := by
  intro e he hout
  rcases h e he hout with hopen | hbroken
  · by_cases hK : e.2 ∈ K
    · exact .inr (.inr hK)
    · exact .inl ⟨hopen, hK⟩
  · exact .inr (.inl hbroken)

theorem Covered.close (h : t.Covered C) (hK : ∀ e ∈ t.edges, e ∉ C → e.2 ∉ K) :
    (t.close K).Covered C := by
  intro e he hout
  have hnot := hK e he hout
  exact (h e he hout).imp (fun hopen => ⟨hopen, hnot⟩) fun hbroken => ⟨hbroken, hnot⟩

theorem Covered.unlink (h : t.Covered C) : (t.unlink E).Covered C :=
  fun e he hout => h e he.1 hout

theorem Covered.register (h : t.Covered C) (hreg : Registration E K D A) :
    (t.register E K D A).Covered (C \ E) := by
  intro e he hout
  by_cases hE : e ∈ E
  · exact .inl (.inr (hreg.data_open (hreg.edges_data e hE)))
  · have hold : e ∈ t.edges := he.resolve_right hE
    exact (h e hold fun hC => hout ⟨hC, hE⟩).imp_left .inl

theorem Covered.purge (h : t.Covered C) : (t.purge n).Covered C := by
  intro e he hout
  exact (h e he.1 hout).imp (fun hopen => ⟨hopen, he.2⟩) fun hbroken => ⟨hbroken, he.2⟩

theorem Covered.renew (h : t.Covered C)
    (hopen : ∀ e ∈ t.edges, e ∉ C → e.2.1 = n → e.2 ∈ t.opened) : (t.renew n D).Covered C := by
  intro e he hout
  by_cases hn : e.2.1 = n
  · exact .inl (hopen e he hout hn)
  · exact (h e he hout).imp_right fun hbroken => ⟨hbroken, hn⟩

def HasData (t : InputTable O N I) (n : N) : Prop := ∃ i, (n, i) ∈ t.data

/-- No open input that counts, and none that could recover. With `gate` every open input counts,
otherwise only data inputs do, and there has to be one. -/
structure Finished (t : InputTable O N I) (gate : Bool) (n : N) : Prop where
  drained : if gate then ∀ i, (n, i) ∉ t.opened
    else t.HasData n ∧ ∀ i, (n, i) ∈ t.data → (n, i) ∉ t.opened
  unbroken : ∀ i, (n, i) ∉ t.broken

variable {gate : Bool}

theorem Finished.no_open_data (h : t.Finished gate n) (i : I)
    (hdata : (n, i) ∈ t.data) : (n, i) ∉ t.opened := by
  have hdrained := h.drained
  split at hdrained
  · exact hdrained i
  · exact hdrained.2 i hdata

theorem Finished.no_live (h : t.Finished gate n) (hcovered : t.Covered C)
    (hdata : ∀ e ∈ t.edges, e.2 ∈ t.data) : ∀ e ∈ t.edges, e ∉ C → e.2.1 ≠ n := by
  rintro ⟨o, m, i⟩ he hout rfl
  rcases hcovered _ he hout with hopen | hbroken
  · exact h.no_open_data i (hdata _ he) hopen
  · exact h.unbroken i hbroken

theorem Finished.close (h : t.Finished gate n) : (t.close K).Finished gate n where
  drained := by
    have hdrained := h.drained
    split at hdrained <;> rename_i hgate
    · rw [if_pos hgate]
      exact fun i hopen => hdrained i hopen.1
    · rw [if_neg hgate]
      exact ⟨hdrained.1, fun i hi hopen => hdrained.2 i hi hopen.1⟩
  unbroken i hbroken := h.unbroken i hbroken.1

theorem Finished.anti {t' : InputTable O N I} (h : t'.Finished gate n)
    (hhas : t.HasData n) (hopen : ∀ i, (n, i) ∈ t.opened → (n, i) ∈ t'.opened)
    (hbroken : ∀ i, (n, i) ∈ t.broken → (n, i) ∈ t'.broken)
    (hdata : ∀ i, (n, i) ∈ t.data → (n, i) ∈ t'.data) : t.Finished gate n where
  drained := by
    have hdrained := h.drained
    split at hdrained <;> rename_i hgate
    · rw [if_pos hgate]
      exact fun i hi => hdrained i (hopen i hi)
    · rw [if_neg hgate]
      exact ⟨hhas, fun i hi hmem => hdrained.2 i (hdata i hi) (hopen i hmem)⟩
  unbroken i hi := h.unbroken i (hbroken i hi)

/-- The change finishes no node `n` that was not finished before. -/
def Unfinishing (t t' : InputTable O N I) (gate : Bool) (n : N) : Prop :=
  t'.HasData n → t'.Finished gate n → t.HasData n ∧ t.Finished gate n

theorem unfinishing_recover (h : t.Consistent) (hR : R ⊆ t.broken) :
    Unfinishing t (t.recover R) gate n := by
  intro hdata hfinished
  have hnone : ∀ i, (n, i) ∉ R := by
    intro i hi
    obtain ⟨o, ho⟩ := h.broken_mapped _ (hR hi)
    exact hfinished.no_open_data i (h.edges_data _ ho) (.inr hi)
  exact ⟨hdata, hfinished.anti hdata (fun i hi => .inl hi) (fun i hi => ⟨hi, hnone i⟩)
    fun i hi => hi⟩

theorem unfinishing_expire : Unfinishing t (t.expire K) gate n := by
  intro hdata hfinished
  have hnone : ∀ i, (n, i) ∉ K := fun i hi => hfinished.unbroken i (.inr hi)
  exact ⟨hdata, hfinished.anti hdata (fun i hi => ⟨hi, hnone i⟩) (fun i hi => .inl hi)
    fun i hi => hi⟩

theorem unfinishing_register (hreg : Registration E K D A) :
    Unfinishing t (t.register E K D A) gate n := by
  intro hdata hfinished
  obtain ⟨i, hi⟩ := hdata
  have hold : (n, i) ∈ t.data :=
    hi.resolve_right fun hA => hfinished.no_open_data i hi (.inr (hreg.data_open hA))
  exact ⟨⟨i, hold⟩, hfinished.anti ⟨i, hold⟩ (fun i hi => .inl hi) (fun i hi => hi)
    fun i hi => .inl hi⟩

theorem unfinishing_renew {m : N} (hne : n ≠ m) :
    Unfinishing t (t.renew m D) gate n := by
  intro hdata hfinished
  exact ⟨hdata, hfinished.anti hdata (fun i hi => hi) (fun i hi => ⟨hi, hne⟩) fun i hi => hi⟩

structure SameAt (t t' : InputTable O N I) (n : N) : Prop where
  opened : ∀ i, (n, i) ∈ t'.opened ↔ (n, i) ∈ t.opened
  broken : ∀ i, (n, i) ∈ t'.broken ↔ (n, i) ∈ t.broken
  data : ∀ i, (n, i) ∈ t'.data ↔ (n, i) ∈ t.data

section SameAt

variable {t' : InputTable O N I}

theorem SameAt.hasData (h : SameAt t t' n) : t'.HasData n ↔ t.HasData n := exists_congr h.data

theorem SameAt.finished {gate : Bool} (h : SameAt t t' n) :
    t'.Finished gate n ↔ t.Finished gate n := by
  have hdrained : (∀ i, (n, i) ∉ t'.opened) ↔ ∀ i, (n, i) ∉ t.opened :=
    forall_congr' fun i => not_congr (h.opened i)
  have hdata : (∀ i, (n, i) ∈ t'.data → (n, i) ∉ t'.opened) ↔
      ∀ i, (n, i) ∈ t.data → (n, i) ∉ t.opened :=
    forall_congr' fun i => imp_congr (h.data i) (not_congr (h.opened i))
  have hunbroken : (∀ i, (n, i) ∉ t'.broken) ↔ ∀ i, (n, i) ∉ t.broken :=
    forall_congr' fun i => not_congr (h.broken i)
  constructor
  · intro ⟨hd, hb⟩
    rw [hdrained, h.hasData, hdata] at hd
    exact ⟨hd, hunbroken.mp hb⟩
  · intro ⟨hd, hb⟩
    rw [← hdrained, ← h.hasData, ← hdata] at hd
    exact ⟨hd, hunbroken.mpr hb⟩

theorem SameAt.close (h : SameAt t t' n) : SameAt (t.close K) (t'.close K) n where
  opened i := and_congr_left fun _ => h.opened i
  broken i := and_congr_left fun _ => h.broken i
  data := h.data

theorem sameAt_close (hK : ∀ i, (n, i) ∈ K → (n, i) ∉ t.opened ∧ (n, i) ∉ t.broken) :
    SameAt t (t.close K) n where
  opened i := ⟨fun h => h.1, fun h => ⟨h, fun hk => (hK i hk).1 h⟩⟩
  broken i := ⟨fun h => h.1, fun h => ⟨h, fun hk => (hK i hk).2 h⟩⟩
  data _ := Iff.rfl

theorem sameAt_purge {m : N} (hne : n ≠ m) : SameAt t (t.purge m) n where
  opened _ := ⟨fun h => h.1, fun h => ⟨h, hne⟩⟩
  broken _ := ⟨fun h => h.1, fun h => ⟨h, hne⟩⟩
  data _ := ⟨fun h => h.1, fun h => ⟨h, hne⟩⟩

end SameAt

/-- The open inputs of `n` among `K`. -/
def closingAt (t : InputTable O N I) (K : Set (N × I)) (n : N) : Set (N × I) :=
  {k ∈ t.opened | k ∈ K ∧ k.1 = n}

theorem closingAt_finite (hK : K.Finite) : (t.closingAt K n).Finite := hK.subset fun _ h => h.2.1

theorem SameAt.closingAt {t' : InputTable O N I} (h : SameAt t t' n) :
    t'.closingAt K n = t.closingAt K n := by
  ext ⟨m, i⟩
  refine and_congr_left fun hmem => ?_
  obtain rfl : m = n := hmem.2
  exact h.opened i

theorem closingAt_close_add_one (hK : K.Finite) {k : N × I} (hk : k ∈ K) (hopen : k ∈ t.opened) :
    ((t.close {k}).closingAt K k.1).ncard + 1 = (t.closingAt K k.1).ncard := by
  have hremove : (t.close {k}).closingAt K k.1 = t.closingAt K k.1 \ {k} := by
    ext k'
    simp only [closingAt, InputTable.close, Set.mem_ofPred_eq, Set.mem_sdiff, Set.mem_singleton_iff]
    tauto
  have hmem : k ∈ t.closingAt K k.1 := ⟨hopen, hk, rfl⟩
  rw [hremove]
  exact Set.ncard_sdiff_singleton_add_one hmem (closingAt_finite hK)

theorem closingAt_close_le (hK : K.Finite) (K' : Set (N × I)) :
    ((t.close K').closingAt K n).ncard ≤ (t.closingAt K n).ncard :=
  Set.ncard_le_ncard (fun _ h => ⟨h.1.1, h.2⟩) (closingAt_finite hK)

end InputTable

end Dora
