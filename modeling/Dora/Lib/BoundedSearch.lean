import Dora.Lib.KeyOrder

/-!
# BoundedSearch — a breadth-first search of limited depth

Nodes wait in a queue with the number of edges that led to them. The search succeeds when an edge leads
to its target, and does not go on from a node at the limit. A node is first met over the fewest edges,
so the search misses no walk that is short enough.
-/

namespace Dora.Lib

open Std

variable {α : Type}

/-- At least one and at most `n` steps of `R` lead from `a` to `b`. -/
def Within (R : α → α → Prop) : Nat → α → α → Prop
  | 0, _, _ => False
  | n + 1, a, b => ∃ c, R a c ∧ (c = b ∨ Within R n c b)

section Within

variable {R : α → α → Prop} {n m : Nat} {a b c : α}

theorem Within.mono (h : Within R n a b) (hle : n ≤ m) : Within R m a b := by
  induction n generalizing m a with
  | zero => exact h.elim
  | succ n ih =>
    obtain ⟨m, rfl⟩ : ∃ k, m = k + 1 := ⟨m - 1, by omega⟩
    obtain ⟨c, hstep, hrest⟩ := h
    exact ⟨c, hstep, hrest.imp_right fun hrest => ih hrest (by omega)⟩

theorem Within.snoc (h : Within R n a b) (hstep : R b c) : Within R (n + 1) a c := by
  induction n generalizing a with
  | zero => exact h.elim
  | succ n ih =>
    obtain ⟨d, hfirst, rfl | hrest⟩ := h
    · exact ⟨d, hfirst, .inr ⟨c, hstep, .inl rfl⟩⟩
    · exact ⟨d, hfirst, .inr (ih hrest)⟩

theorem Within.last (h : Within R n a b) : ∃ c, R c b := by
  induction n generalizing a with
  | zero => exact h.elim
  | succ n ih =>
    obtain ⟨d, hfirst, rfl | hrest⟩ := h
    · exact ⟨a, hfirst⟩
    · exact ih hrest

theorem Within.imp {R' : α → α → Prop} (h : Within R n a b) (himp : ∀ a b, R a b → R' a b) :
    Within R' n a b := by
  induction n generalizing a with
  | zero => exact h
  | succ n ih =>
    obtain ⟨c, hstep, hrest⟩ := h
    exact ⟨c, himp a c hstep, hrest.imp_right ih⟩

end Within

structure Frontier (α : Type) [Ord α] where
  queue : List (α × Nat)
  visited : TreeSet α

namespace Frontier

variable [Ord α]

def push (depth : Nat) (f : Frontier α) (a : α) : Frontier α :=
  if f.visited.contains a then f
  else { queue := f.queue ++ [(a, depth)], visited := f.visited.insert a }

variable {next : α → List α} {start target : α} {limit : Nat} {f : Frontier α} {done : List (α × Nat)}

/-- What holds of the nodes met so far, those taken from the queue and those in it. The queue is sorted,
and spans two depths at most. -/
structure Hunting (next : α → List α) (start : α) (done : List (α × Nat)) (f : Frontier α) : Prop where
  nodup : ((done ++ f.queue).map Prod.fst).Nodup
  visited : ∀ a, a ∈ f.visited ↔ ∃ d, (a, d) ∈ done ++ f.queue
  reached : ∀ a d, (a, d) ∈ done ++ f.queue →
    a = start ∧ d = 0 ∨ Within (fun a b => b ∈ next a) d start a
  sorted : f.queue.Pairwise (·.2 ≤ ·.2)
  near : ∀ x ∈ done ++ f.queue, ∀ y ∈ f.queue, x.2 ≤ y.2 + 1

/-- While the neighbours of a node are pushed, nothing met is deeper than they are and nothing that waits
is more than one step nearer. -/
structure Filling (next : α → List α) (start : α) (done : List (α × Nat)) (depth : Nat) (f : Frontier α) :
    Prop extends Hunting next start done f where
  deepest : ∀ x ∈ done ++ f.queue, x.2 ≤ depth
  nearest : ∀ y ∈ f.queue, depth ≤ y.2 + 1

/-- A round takes the first node of the queue. -/
theorem Hunting.pop {a : α} {depth : Nat} {rest : List (α × Nat)} (h : Hunting next start done f)
    (hqueue : f.queue = (a, depth) :: rest) :
    Filling next start (done ++ [(a, depth)]) (depth + 1) { f with queue := rest } := by
  have hlog : (done ++ [(a, depth)]) ++ rest = done ++ f.queue := by
    rw [hqueue, List.append_assoc]
    rfl
  have hhead : (a, depth) ∈ f.queue := hqueue ▸ List.mem_cons_self
  have htail : ∀ y ∈ rest, y ∈ f.queue := fun y hy => hqueue ▸ List.mem_cons_of_mem _ hy
  have hsorted := hqueue ▸ h.sorted
  rw [List.pairwise_cons] at hsorted
  refine ⟨⟨hlog ▸ h.nodup, hlog ▸ h.visited, hlog ▸ h.reached, hsorted.2, ?_⟩, ?_, ?_⟩
  · exact hlog ▸ fun x hx y hy => h.near x hx y (htail y hy)
  · exact hlog ▸ fun x hx => h.near x hx _ hhead
  · exact fun y hy => Nat.succ_le_succ (hsorted.1 y hy)

theorem Hunting.length_le {nodes : List α} (hnodes : ∀ a, ∀ b ∈ next a, b ∈ nodes)
    (h : Hunting next start done f) : done.length + f.queue.length ≤ nodes.length + 1 := by
  have hsub : (done ++ f.queue).map Prod.fst ⊆ start :: nodes := by
    intro a ha
    obtain ⟨⟨_, d⟩, hx, rfl⟩ := List.mem_map.mp ha
    obtain ⟨rfl, -⟩ | hwalk := h.reached _ d hx
    · exact List.mem_cons_self
    · obtain ⟨c, hc⟩ := hwalk.last
      exact List.mem_cons_of_mem _ (hnodes c _ hc)
  simpa using (h.nodup.subperm hsub).length_le

/-- The neighbours of every node that was taken, unless it was at the limit, have been met. -/
def Spread (next : α → List α) (target : α) (limit : Nat) (done : List (α × Nat)) (f : Frontier α) : Prop :=
  ∀ x ∈ done, x.2 < limit → ∀ b ∈ next x.1, b ≠ target ∧ ∃ d ≤ x.2 + 1, (b, d) ∈ done ++ f.queue

/-- Once the queue is empty, no walk that the limit allows leads to the target. -/
theorem Spread.not_within (h : Spread next target limit done f) (hempty : f.queue = []) {a : α} {d n : Nat}
    (ha : (a, d) ∈ done ++ f.queue) (hle : d + n ≤ limit) : ¬ Within (fun a b => b ∈ next a) n a target := by
  induction n generalizing a d with
  | zero => exact id
  | succ n ih =>
    rintro ⟨b, hb, hrest⟩
    have hdone : (a, d) ∈ done := by rwa [hempty, List.append_nil] at ha
    obtain ⟨hne, d', hd', hmem⟩ := h (a, d) hdone (by dsimp only; omega) b hb
    obtain rfl | hrest := hrest
    · exact hne rfl
    · dsimp only at hd'
      exact ih hmem (by omega) hrest

section

variable [TransOrd α] [LawfulEqOrd α]

theorem Filling.push {depth : Nat} (h : Filling next start done depth f) {b : α}
    (hb : Within (fun a b => b ∈ next a) depth start b) :
    Filling next start done depth (f.push depth b) ∧ (∀ x ∈ f.queue, x ∈ (f.push depth b).queue) ∧
      ∃ d ≤ depth, (b, d) ∈ done ++ (f.push depth b).queue := by
  unfold Frontier.push
  by_cases hmem : b ∈ f.visited
  · rw [if_pos (TreeSet.contains_iff_mem.mpr hmem)]
    obtain ⟨d, hd⟩ := (h.visited b).mp hmem
    exact ⟨h, fun _ hx => hx, d, h.deepest _ hd, hd⟩
  · rw [if_neg fun hc => hmem (TreeSet.contains_iff_mem.mp hc)]
    have hnew : ∀ x, x ∈ done ++ (f.queue ++ [(b, depth)]) ↔ x ∈ done ++ f.queue ∨ x = (b, depth) := by
      intro x
      rw [← List.append_assoc, List.mem_append, List.mem_singleton]
    refine ⟨⟨⟨?_, fun a => ?_, fun a d had => ?_, ?_, ?_⟩, fun x hx => ?_, ?_⟩,
      fun x hx => List.mem_append_left _ hx, depth, le_rfl, (hnew _).mpr (.inr rfl)⟩
    · rw [← List.append_assoc, List.map_append, List.map_singleton, List.nodup_append]
      refine ⟨h.nodup, List.nodup_singleton b, ?_⟩
      rintro a ha _ (_ | ⟨_, ⟨⟩⟩) rfl
      obtain ⟨⟨_, d⟩, hx, rfl⟩ := List.mem_map.mp ha
      exact hmem ((h.visited _).mpr ⟨d, hx⟩)
    · rw [TreeSet.mem_insert, Std.compare_eq_iff_eq, h.visited]
      simp only [hnew, exists_or, Prod.mk.injEq, exists_eq_right]
      rw [or_comm, eq_comm]
    · obtain had | had := (hnew _).mp had
      · exact h.reached a d had
      · cases had
        exact .inr hb
    · refine List.pairwise_append.mpr ⟨h.sorted, List.pairwise_singleton _ _, ?_⟩
      rintro x hx _ (_ | ⟨_, ⟨⟩⟩)
      exact h.deepest x (List.mem_append_right _ hx)
    · intro x hx y hy
      have hle : x.2 ≤ depth := by
        obtain hx | rfl := (hnew x).mp hx
        · exact h.deepest x hx
        · exact le_rfl
      obtain hy | hy := List.mem_append.mp hy
      · exact hle.trans (h.nearest y hy)
      · cases List.mem_singleton.mp hy
        exact Nat.le_succ_of_le hle
    · obtain hx | rfl := (hnew x).mp hx
      · exact h.deepest x hx
      · exact le_rfl
    · intro y hy
      obtain hy | hy := List.mem_append.mp hy
      · exact h.nearest y hy
      · cases List.mem_singleton.mp hy
        exact Nat.le_succ depth

theorem Filling.foldl_push {depth : Nat} (as : List α) (h : Filling next start done depth f)
    (has : ∀ b ∈ as, Within (fun a b => b ∈ next a) depth start b) :
    Filling next start done depth (as.foldl (Frontier.push depth) f) ∧
      (∀ x ∈ f.queue, x ∈ (as.foldl (Frontier.push depth) f).queue) ∧
      ∀ b ∈ as, ∃ d ≤ depth, (b, d) ∈ done ++ (as.foldl (Frontier.push depth) f).queue := by
  induction as generalizing f with
  | nil => exact ⟨h, fun _ hx => hx, nofun⟩
  | cons a as ih =>
    obtain ⟨hpush, hkept, d, hd, hmem⟩ := h.push (has a List.mem_cons_self)
    obtain ⟨hfill, hkept', hall⟩ := ih hpush fun b hb => has b (List.mem_cons_of_mem a hb)
    refine ⟨hfill, fun x hx => hkept' x (hkept x hx), ?_⟩
    rintro b (_ | ⟨_, hb⟩)
    · exact ⟨d, hd, List.mem_append.mpr ((List.mem_append.mp hmem).imp_right (hkept' _))⟩
    · exact hall b hb

end

variable [DecidableEq α]

/-- The neighbours of a node are pushed in turn; `none` when the target is among them. -/
def scan (target : α) (depth : Nat) : List α → Frontier α → Option (Frontier α)
  | [], f => some f
  | a :: rest, f => if a = target then none else scan target depth rest (f.push depth a)

/-- Whether the target is met in `fuel` rounds. -/
def hunt (next : α → List α) (target : α) (limit : Nat) : Nat → Frontier α → Bool
  | 0, _ => false
  | fuel + 1, f =>
    match f.queue with
    | [] => false
    | (current, depth) :: rest =>
      if limit ≤ depth then hunt next target limit fuel { f with queue := rest }
      else
        match scan target (depth + 1) (next current) { f with queue := rest } with
        | none => true
        | some f => hunt next target limit fuel f

theorem scan_eq (target : α) (depth : Nat) (as : List α) (f : Frontier α) :
    scan target depth as f = if target ∈ as then none else some (as.foldl (push depth) f) := by
  induction as generalizing f with
  | nil => rfl
  | cons a as ih =>
    unfold scan
    by_cases ha : a = target
    · rw [if_pos ha, if_pos (ha ▸ List.mem_cons_self)]
    · rw [if_neg ha, ih, List.foldl_cons]
      simp only [List.mem_cons, Ne.symm ha, false_or]

variable [TransOrd α] [LawfulEqOrd α]

theorem Hunting.hunt_iff {nodes : List α} (hnodes : ∀ a, ∀ b ∈ next a, b ∈ nodes) (fuel : Nat)
    (hfuel : nodes.length + 1 ≤ done.length + fuel) (h : Hunting next start done f)
    (hspread : Spread next target limit done f) (hstart : (start, 0) ∈ done ++ f.queue) :
    hunt next target limit fuel f = true ↔ Within (fun a b => b ∈ next a) limit start target := by
  induction fuel generalizing done f with
  | zero =>
    have hlen := h.length_le hnodes
    have hempty : f.queue = [] := List.length_eq_zero_iff.mp (by omega)
    exact iff_of_false Bool.false_ne_true (hspread.not_within hempty hstart (by omega))
  | succ fuel ih =>
    unfold hunt
    split
    next hempty => exact iff_of_false Bool.false_ne_true (hspread.not_within hempty hstart (by omega))
    next a depth rest hqueue =>
      have hpop := h.pop hqueue
      have hlog : (done ++ [(a, depth)]) ++ rest = done ++ f.queue := by
        rw [hqueue, List.append_assoc]
        rfl
      have hlength : nodes.length + 1 ≤ (done ++ [(a, depth)]).length + fuel := by
        rw [List.length_append, List.length_singleton]
        omega
      split
      next hlimit =>
        refine ih hlength hpop.toHunting (fun x hx hlt => ?_) (hlog ▸ hstart)
        obtain hx | hx := List.mem_append.mp hx
        · exact hlog ▸ hspread x hx hlt
        · cases List.mem_singleton.mp hx
          exact absurd hlimit (Nat.not_le.mpr hlt)
      next hlimit =>
        have hnext : ∀ b ∈ next a, Within (fun a b => b ∈ next a) (depth + 1) start b := by
          intro b hb
          have hmem : (a, depth) ∈ done ++ f.queue := hlog ▸ by simp
          obtain ⟨rfl, rfl⟩ | hwalk := h.reached a depth hmem
          · exact ⟨b, hb, .inl rfl⟩
          · exact hwalk.snoc hb
        rw [scan_eq]
        by_cases hfound : target ∈ next a
        · rw [if_pos hfound]
          exact iff_of_true rfl ((hnext target hfound).mono (by omega))
        · rw [if_neg hfound]
          obtain ⟨hfill, hkept, hall⟩ := hpop.foldl_push (next a) hnext
          have hgrown : ∀ x ∈ done ++ f.queue, x ∈ (done ++ [(a, depth)]) ++
              ((next a).foldl (push (depth + 1)) { f with queue := rest }).queue := by
            rw [← hlog]
            exact fun x hx => List.mem_append.mpr ((List.mem_append.mp hx).imp_right (hkept x))
          refine ih hlength hfill.toHunting (fun x hx hlt b hb => ?_) (hgrown _ hstart)
          obtain hx | hx := List.mem_append.mp hx
          · obtain ⟨hne, d, hd, hmem⟩ := hspread x hx hlt b hb
            exact ⟨hne, d, hd, hgrown _ hmem⟩
          · cases List.mem_singleton.mp hx
            exact ⟨fun heq => hfound (heq ▸ hb), hall b hb⟩

/-- The search finds its target exactly if a walk within the limit leads there. -/
theorem hunt_iff_within {nodes : List α} (hnodes : ∀ a, ∀ b ∈ next a, b ∈ nodes) {fuel : Nat}
    (hfuel : nodes.length + 1 ≤ fuel) :
    hunt next target limit fuel { queue := [(start, 0)], visited := TreeSet.insert ∅ start } = true ↔
      Within (fun a b => b ∈ next a) limit start target := by
  have hstart : Hunting next start [] { queue := [(start, 0)], visited := TreeSet.insert ∅ start } := by
    refine ⟨by simp, fun a => ?_, by simp, by simp, by simp⟩
    rw [TreeSet.mem_insert, Std.compare_eq_iff_eq, eq_comm]
    simp
  exact hstart.hunt_iff hnodes fuel (by simpa using hfuel) nofun List.mem_cons_self

end Frontier

end Dora.Lib
