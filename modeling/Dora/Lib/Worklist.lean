import Dora.Lib.KeyOrder

/-!
# Worklist — the search of a graph with a queue

A search starts with some nodes found and some nodes visited, and visits the successors of everything
visited, each node once. What it finds is what was found at the start and what can be reached from the
visited nodes over at least one edge; a queue over a finite graph runs empty.
-/

namespace Dora.Lib

open Std Relation

structure Search (α : Type) [Ord α] where
  found : TreeSet α := ∅
  visited : TreeSet α := ∅
  queue : List α := []

namespace Search

variable {α : Type} [Ord α]

def push (s : Search α) (a : α) : Search α :=
  if s.visited.contains a then s
  else { s with visited := s.visited.insert a, queue := s.queue ++ [a] }

def mark (s : Search α) (a : α) : Search α := { s with found := s.found.insert a }.push a

/-- At most `fuel` rounds of the search. -/
def explore (next : α → List α) : Nat → Search α → Search α
  | 0, s => s
  | fuel + 1, s =>
    match s.queue with
    | [] => s
    | a :: rest => explore next fuel ((next a).foldl mark { s with queue := rest })

/-- What pushing or marking the nodes `as` does to the visited nodes and the queue. -/
structure Pushed (s : Search α) (as : List α) (s' : Search α) : Prop where
  visited : ∀ a, a ∈ s'.visited ↔ a ∈ s.visited ∨ a ∈ as
  queue : ∃ new, s'.queue = s.queue ++ new ∧ new.Nodup ∧ ∀ a, a ∈ new ↔ a ∈ as ∧ a ∉ s.visited

theorem Pushed.append {s s' s'' : Search α} {as bs : List α} (h : Pushed s as s')
    (h' : Pushed s' bs s'') : Pushed s (as ++ bs) s'' := by
  obtain ⟨new, hqueue, hnodup, hnew⟩ := h.queue
  obtain ⟨new', hqueue', hnodup', hnew'⟩ := h'.queue
  refine ⟨fun a => ?_, new ++ new', ?_, ?_, fun a => ?_⟩
  · rw [h'.visited, h.visited, List.mem_append, or_assoc]
  · rw [hqueue', hqueue, List.append_assoc]
  · refine hnodup.append hnodup' fun a ha ha' => ((hnew' a).mp ha').2 ?_
    exact (h.visited a).mpr (.inr ((hnew a).mp ha).1)
  · rw [List.mem_append, hnew, hnew', h.visited, List.mem_append]
    tauto

theorem Pushed.queue_iff_visited {s s' : Search α} {as : List α} (h : Pushed s as s')
    (hs : ∀ a, a ∈ s.queue ↔ a ∈ s.visited) (a : α) : a ∈ s'.queue ↔ a ∈ s'.visited := by
  obtain ⟨new, hqueue, -, hnew⟩ := h.queue
  rw [hqueue, List.mem_append, hs, hnew, h.visited]
  tauto

variable [TransOrd α] [LawfulEqOrd α]

theorem pushed_push (s : Search α) (a : α) : Pushed s [a] (s.push a) := by
  unfold push
  by_cases hvisited : a ∈ s.visited
  · rw [if_pos (TreeSet.contains_iff_mem.mpr hvisited)]
    refine ⟨fun b => ?_, [], by simp, List.nodup_nil, fun b => ?_⟩
    · rw [List.mem_singleton]
      exact ⟨.inl, fun h => h.elim id (· ▸ hvisited)⟩
    · rw [List.mem_singleton]
      exact ⟨nofun, fun h => absurd (h.1 ▸ hvisited) h.2⟩
  · rw [if_neg fun h => hvisited (TreeSet.contains_iff_mem.mp h)]
    refine ⟨fun b => ?_, [a], rfl, List.nodup_singleton a, fun b => ?_⟩
    · rw [TreeSet.mem_insert, Std.compare_eq_iff_eq, List.mem_singleton, or_comm, eq_comm]
    · rw [List.mem_singleton]
      exact ⟨fun h => ⟨h, h ▸ hvisited⟩, fun h => h.1⟩

theorem pushed_foldl_push (as : List α) (s : Search α) : Pushed s as (as.foldl push s) := by
  induction as using List.reverseRecOn with
  | nil => exact ⟨by simp, [], by simp, List.nodup_nil, by simp⟩
  | append_singleton as a ih =>
    rw [List.foldl_append]
    exact ih.append (pushed_push _ a)

theorem foldl_mark (as : List α) (s : Search α) :
    Pushed s as (as.foldl mark s) ∧ ∀ a, a ∈ (as.foldl mark s).found ↔ a ∈ s.found ∨ a ∈ as := by
  induction as using List.reverseRecOn with
  | nil => exact ⟨⟨by simp, [], by simp, List.nodup_nil, by simp⟩, by simp⟩
  | append_singleton as a ih =>
    rw [List.foldl_append]
    generalize as.foldl mark s = s' at ih
    have hpush := pushed_push { s' with found := s'.found.insert a } a
    have hfound : ((s'.mark a).found) = s'.found.insert a := by
      unfold mark push
      split <;> rfl
    refine ⟨ih.1.append ⟨hpush.visited, hpush.queue⟩, fun b => ?_⟩
    change b ∈ (s'.mark a).found ↔ _
    rw [hfound, TreeSet.mem_insert, Std.compare_eq_iff_eq, ih.2, List.mem_append, List.mem_singleton]
    tauto

section explore

variable (next : α → List α)

/-- `b` is a successor of `a`. -/
def Edge (a b : α) : Prop := b ∈ next a

/-- What a search from `start` may find. -/
def Reachable (start : Search α) (a : α) : Prop :=
  a ∈ start.found ∨ ∃ b ∈ start.visited, TransGen (Edge next) b a

/-- What holds between the rounds of a search from `start`. -/
structure Searching (start s : Search α) : Prop where
  found : ∀ a ∈ s.found, Reachable next start a
  visited : ∀ a ∈ s.visited, a ∈ start.visited ∨ Reachable next start a
  kept : ∀ a ∈ start.found, a ∈ s.found
  started : ∀ a ∈ start.visited, a ∈ s.visited
  foundVisited : ∀ a ∈ s.found, a ∈ s.visited
  done : ∀ a ∈ s.visited, a ∉ s.queue → ∀ b ∈ next a, b ∈ s.found

variable {next} {start s : Search α}

omit [TransOrd α] [LawfulEqOrd α] in
theorem Reachable.step (hroots : ∀ a ∈ start.found, a ∈ start.visited) {a b : α}
    (ha : a ∈ start.visited ∨ Reachable next start a) (hb : b ∈ next a) : Reachable next start b := by
  right
  obtain ha | ha | ⟨c, hc, hpath⟩ := ha
  · exact ⟨a, ha, .single hb⟩
  · exact ⟨a, hroots a ha, .single hb⟩
  · exact ⟨c, hc, hpath.tail hb⟩

theorem Searching.round (hroots : ∀ a ∈ start.found, a ∈ start.visited)
    (h : Searching next start s) {a : α} {rest : List α} (hqueue : s.queue = a :: rest)
    (ha : a ∈ s.visited) :
    Searching next start ((next a).foldl mark { s with queue := rest }) := by
  obtain ⟨hpushed, hfound⟩ := foldl_mark (next a) { s with queue := rest }
  have hreach : ∀ b ∈ next a, Reachable next start b := fun b =>
    Reachable.step hroots (h.visited a ha)
  refine ⟨fun b hb => ?_, fun b hb => ?_, fun b hb => ?_, fun b hb => ?_, fun b hb => ?_, ?_⟩
  · exact ((hfound b).mp hb).elim (h.found b) (hreach b)
  · exact ((hpushed.visited b).mp hb).elim (h.visited b) fun hb => .inr (hreach b hb)
  · exact (hfound b).mpr (.inl (h.kept b hb))
  · exact (hpushed.visited b).mpr (.inl (h.started b hb))
  · exact (hpushed.visited b).mpr (((hfound b).mp hb).imp_left (h.foundVisited b))
  · obtain ⟨new, hnow, -, hnew⟩ := hpushed.queue
    intro b hb hbq c hc
    rw [hnow, List.mem_append, not_or] at hbq
    rw [hfound]
    by_cases hba : b = a
    · exact .inr (hba ▸ hc)
    · -- `b` was visited before, and is not in the queue any more
      have hold : b ∈ s.visited := by
        by_contra hnot
        have hbnext := ((hpushed.visited b).mp hb).resolve_left hnot
        exact hbq.2 ((hnew b).mpr ⟨hbnext, hnot⟩)
      refine .inl (h.done b hold ?_ c hc)
      rw [hqueue, List.mem_cons, not_or]
      exact ⟨hba, hbq.1⟩

/-- The nodes of the finite graph that are still to be visited, and the queue. -/
def work (nodes : Finset α) (s : Search α) : Nat :=
  (nodes.filter (· ∉ s.visited)).card + s.queue.length

theorem work_foldl_mark [DecidableEq α] {nodes : Finset α} {as : List α}
    (hnodes : ∀ a ∈ as, a ∈ nodes) (s : Search α) : work nodes (as.foldl mark s) = work nodes s := by
  obtain ⟨hpushed, -⟩ := foldl_mark as s
  obtain ⟨new, hqueue, hnodup, hnew⟩ := hpushed.queue
  have hsplit : nodes.filter (· ∉ s.visited) =
      nodes.filter (· ∉ (as.foldl mark s).visited) ∪ new.toFinset := by
    ext a
    simp only [Finset.mem_filter, Finset.mem_union, List.mem_toFinset, hnew, hpushed.visited]
    have := hnodes a
    tauto
  have hdisjoint : Disjoint (nodes.filter (· ∉ (as.foldl mark s).visited)) new.toFinset := by
    rw [Finset.disjoint_left]
    intro a ha hanew
    rw [List.mem_toFinset, hnew] at hanew
    exact (Finset.mem_filter.mp ha).2 ((hpushed.visited a).mpr (.inr hanew.1))
  unfold work
  rw [hsplit, Finset.card_union_of_disjoint hdisjoint, List.toFinset_card_of_nodup hnodup, hqueue,
    List.length_append]
  omega

theorem explore_ends (nodes : Finset α) (hnodes : ∀ a, ∀ b ∈ next a, b ∈ nodes)
    (hroots : ∀ a ∈ start.found, a ∈ start.visited) (fuel : Nat) (hfuel : work nodes s ≤ fuel)
    (h : Searching next start s) (hqueue : ∀ a ∈ s.queue, a ∈ s.visited) :
    Searching next start (explore next fuel s) ∧ (explore next fuel s).queue = [] := by
  classical
  induction fuel generalizing s with
  | zero =>
    unfold work at hfuel
    exact ⟨h, List.length_eq_zero_iff.mp (by unfold explore; omega)⟩
  | succ fuel ih =>
    unfold explore
    split
    next hempty => exact ⟨h, hempty⟩
    next a rest hcons =>
      obtain ⟨hpushed, -⟩ := foldl_mark (next a) { s with queue := rest }
      have ha : a ∈ s.visited := hqueue a (by rw [hcons]; exact List.mem_cons_self)
      refine ih ?_ (h.round hroots hcons ha) ?_
      · rw [work_foldl_mark (hnodes a)]
        unfold work at hfuel ⊢
        rw [hcons, List.length_cons] at hfuel
        dsimp only
        omega
      · obtain ⟨new, hnow, -, hnew⟩ := hpushed.queue
        intro b hb
        rw [hnow, List.mem_append] at hb
        refine (hpushed.visited b).mpr (hb.elim (fun hb => .inl ?_) fun hb => .inr ((hnew b).mp hb).1)
        exact hqueue b (by rw [hcons]; exact List.mem_cons_of_mem a hb)

omit [TransOrd α] [LawfulEqOrd α] in
theorem Searching.mem_found (h : Searching next start s) (hended : s.queue = []) {a : α} :
    a ∈ s.found ↔ Reachable next start a := by
  refine ⟨h.found a, ?_⟩
  rintro (ha | ⟨b, hb, hpath⟩)
  · exact h.kept a ha
  · have hdone : ∀ a ∈ s.visited, ∀ b ∈ next a, b ∈ s.found := fun a ha =>
      h.done a ha (by rw [hended]; exact List.not_mem_nil)
    induction hpath with
    | single hedge => exact hdone b (h.started b hb) _ hedge
    | tail _ hedge ih => exact hdone _ (h.foundVisited _ ih) _ hedge

end explore

end Search

end Dora.Lib
