import Dora.Daemon.OutputRouting
import Dora.Node.Publish

/-!
# The startup handshake of an output (`node/mod.rs`: `AckState`, `wait_for_grace`)

An output may take the direct zenoh path once every required consumer has acknowledged a marker.
`init` waits for that, then settles the output: whatever has not been acknowledged by then is frozen
on the daemon path, and an acknowledgement that comes later is ignored.
-/

namespace Dora

open Std

structure AckState where
  required : TreeSet RequiredAcker
  received : TreeSet RequiredAcker := ∅
  frozen : Bool := false

structure NodeOutput where
  state : OutputState
  ack : Option AckState := none

structure Declared where
  publisher : Bool
  ackSubscriber : Bool

/-- `declare_output_publishers` and `declare_ack_subscribers` for one output: an output without a
routing entry, pinned by the daemon, or without a publisher gets no direct path; without required
consumers it is ready at once. -/
def declareOutput (routing : Option OutputRouting) (declared : Declared) : NodeOutput :=
  match routing with
  | none => { state := { direct := none } }
  | some routing =>
    if routing.daemonOnly || !declared.publisher then { state := { direct := none } }
    else if routing.requiredAckers.isEmpty then { state := { direct := some { ready := true } } }
    else
      { state := { direct := some { ready := false } },
        ack := if declared.ackSubscriber then some { required := routing.requiredAckers } else none }

namespace NodeOutput

def markReady (self : NodeOutput) : NodeOutput :=
  { self with state := { self.state with direct := self.state.direct.map fun _ => ⟨true⟩ } }

/-- One acknowledgement arrives. -/
def record (self : NodeOutput) (identity : RequiredAcker) : NodeOutput :=
  match self.ack with
  | none => self
  | some ack =>
    if !ack.required.contains identity || ack.frozen then self
    else
      let received := ack.received.insert identity
      let recorded := { self with ack := some { ack with received } }
      if received.size = ack.required.size then recorded.markReady else recorded

/-- An output that is not ready at the end of the grace period never will be. -/
def freeze (self : NodeOutput) : NodeOutput :=
  match self.ack with
  | none => self
  | some ack =>
    if outputDirectReady self.state then self
    else { self with ack := some { ack with frozen := true } }

/-- The output as `init` leaves it, after the acknowledgements that arrived in time. -/
def init (routing : Option OutputRouting) (declared : Declared) (acks : List RequiredAcker) :
    NodeOutput :=
  (acks.foldl record (declareOutput routing declared)).freeze

def Settled (self : NodeOutput) : Prop :=
  ∀ ack, self.ack = some ack → outputDirectReady self.state = true ∨ ack.frozen = true

theorem settled_freeze (self : NodeOutput) : self.freeze.Settled := by
  intro ack hack
  unfold freeze at hack ⊢
  cases hself : self.ack with
  | none =>
    rw [hself] at hack
    exact absurd (hself.symm.trans hack) (by simp)
  | some before =>
    rw [hself] at hack
    dsimp only at hack ⊢
    by_cases hready : outputDirectReady self.state = true
    · rw [if_pos hready]
      exact Or.inl hready
    · rw [if_neg hready] at hack
      have hfrozen : { before with frozen := true } = ack := Option.some.inj hack
      exact Or.inr (by rw [← hfrozen])

theorem ready_markReady (self : NodeOutput) (hready : outputDirectReady self.state = true) :
    outputDirectReady self.markReady.state = true := by
  unfold markReady outputDirectReady at *
  cases hdirect : self.state.direct with
  | none => simp [hdirect] at hready
  | some => rfl

theorem record_settled (self : NodeOutput) (identity : RequiredAcker) (hself : self.Settled) :
    (self.record identity).Settled ∧
      outputDirectReady (self.record identity).state = outputDirectReady self.state := by
  unfold record
  cases hack : self.ack with
  | none => exact ⟨hself, rfl⟩
  | some ack =>
    dsimp only
    by_cases hskip : (!ack.required.contains identity || ack.frozen) = true
    · rw [if_pos hskip]
      exact ⟨hself, rfl⟩
    · rw [if_neg hskip]
      -- the acknowledgement is recorded, so the output is not frozen: it was ready before
      have hready : outputDirectReady self.state = true := by
        apply (hself ack hack).resolve_right
        intro hfrozen
        exact hskip (by rw [hfrozen, Bool.or_true])
      by_cases hfull : (ack.received.insert identity).size = ack.required.size
      · rw [if_pos hfull]
        have hmarked := ready_markReady
          { self with ack := some { ack with received := ack.received.insert identity } } hready
        exact ⟨fun _ _ => Or.inl hmarked, hmarked.trans hready.symm⟩
      · rw [if_neg hfull]
        exact ⟨fun _ _ => Or.inl hready, rfl⟩

inductive AckOp where
  | record (identity : RequiredAcker)
  | freeze

/-- One step, and what `AckState::freeze` returns: whether the output was frozen. -/
def apply (self : NodeOutput) : AckOp → NodeOutput × Bool
  | .record identity => (self.record identity, false)
  | .freeze => (self.freeze, self.ack.isSome && !outputDirectReady self.state)

def afterOps (self : NodeOutput) (ops : List AckOp) : NodeOutput :=
  ops.foldl (fun output op => (output.apply op).1) self

def Frozen (self : NodeOutput) : Prop := ∃ ack, self.ack = some ack ∧ ack.frozen = true

/-- An output that awaits `required`, after the acknowledgements `before` and no freeze. -/
structure Awaiting (required : TreeSet RequiredAcker) (before : List RequiredAcker)
    (output : NodeOutput) : Prop where
  ack : ∃ received, output.ack = some { required, received } ∧
    ∀ a, a ∈ received ↔ a ∈ required ∧ a ∈ before
  ready : output.state.direct = some ⟨decide (∀ a ∈ required.toList, a ∈ before)⟩

theorem awaiting_declareOutput {routing : OutputRouting} {declared : Declared} {ack : AckState}
    (hack : (declareOutput (some routing) declared).ack = some ack) :
    Awaiting routing.requiredAckers [] (declareOutput (some routing) declared) := by
  unfold declareOutput at hack ⊢
  dsimp only at hack ⊢
  split at hack
  · cases hack
  split at hack
  · cases hack
  next hdirect hsome =>
    rw [if_neg hdirect, if_neg hsome]
    dsimp only at hack ⊢
    split at hack
    next hsubscriber =>
      rw [if_pos hsubscriber]
      refine ⟨⟨∅, rfl, ?_⟩, ?_⟩
      · simp
      · -- somebody is required, so nothing is complete yet
        obtain ⟨a, ha⟩ : ∃ a, a ∈ routing.requiredAckers := by
          by_contra hnone
          apply hsome
          rw [TreeSet.isEmpty_iff_forall_not_mem]
          exact fun a ha => hnone ⟨a, ha⟩
        have hopen : ¬∀ a ∈ routing.requiredAckers.toList, a ∈ ([] : List RequiredAcker) :=
          fun h => List.not_mem_nil (h a (TreeSet.mem_toList.mpr ha))
        rw [decide_eq_false hopen]
    next => cases hack

variable {self : NodeOutput} {before : List RequiredAcker} {required : TreeSet RequiredAcker}

theorem Awaiting.record (h : Awaiting required before self) (identity : RequiredAcker) :
    Awaiting required (before ++ [identity]) (self.record identity) := by
  obtain ⟨received, hack, hreceived⟩ := h.ack
  have hready := h.ready
  unfold NodeOutput.record
  rw [hack]
  dsimp only
  by_cases hrequired : identity ∈ required
  · have hinsert : ∀ a, a ∈ received.insert identity ↔ a ∈ required ∧ a ∈ before ++ [identity] := by
      intro a
      rw [TreeSet.mem_insert, Std.compare_eq_iff_eq, hreceived, List.mem_append,
        List.mem_singleton]
      constructor
      · rintro (rfl | ⟨hr, hb⟩)
        · exact ⟨hrequired, .inr rfl⟩
        · exact ⟨hr, .inl hb⟩
      · rintro ⟨hr, hb | rfl⟩
        · exact .inr ⟨hr, hb⟩
        · exact .inl rfl
    have hfull : (received.insert identity).size = required.size ↔
        ∀ a ∈ required.toList, a ∈ before ++ [identity] := by
      rw [Lib.size_eq_iff_of_subset fun a ha => ((hinsert a).mp ha).1]
      constructor
      · exact fun hall a ha => ((hinsert a).mp (hall a (TreeSet.mem_toList.mp ha))).2
      · exact fun hall a ha => (hinsert a).mpr ⟨ha, hall a (TreeSet.mem_toList.mpr ha)⟩
    rw [if_neg (by simp [TreeSet.contains_iff_mem.mpr hrequired])]
    by_cases hsize : (received.insert identity).size = required.size
    · rw [if_pos hsize]
      refine ⟨⟨_, rfl, hinsert⟩, ?_⟩
      simp only [markReady, hready, Option.map_some, decide_eq_true (hfull.mp hsize)]
    · rw [if_neg hsize]
      refine ⟨⟨_, rfl, hinsert⟩, ?_⟩
      -- what is not complete now was not complete before
      have hnot : ¬∀ a ∈ required.toList, a ∈ before := fun hall =>
        hsize (hfull.mpr fun a ha => List.mem_append_left _ (hall a ha))
      dsimp only
      rw [hready, decide_eq_false hnot, decide_eq_false fun hall => hsize (hfull.mpr hall)]
  · -- an outsider does not count
    rw [if_pos (by simp [Bool.eq_false_iff.mpr fun hc => hrequired (TreeSet.contains_iff_mem.mp hc)])]
    have hsame : ∀ a ∈ required, a ∈ before ++ [identity] ↔ a ∈ before := by
      intro a ha
      rw [List.mem_append, List.mem_singleton, or_iff_left]
      rintro rfl
      exact hrequired ha
    refine ⟨⟨received, hack, fun a => ?_⟩, ?_⟩
    · rw [hreceived]
      exact and_congr_right fun ha => (hsame a ha).symm
    · rw [hready]
      congr 2
      rw [decide_eq_decide]
      exact forall₂_congr fun a ha => (hsame a (TreeSet.mem_toList.mp ha)).symm

/-- From the freeze on, an output is frozen or ready, and which of them was settled by the
acknowledgements `before` it. -/
structure SettledBy (required : TreeSet RequiredAcker) (before : List RequiredAcker)
    (output : NodeOutput) : Prop where
  settled : output.Settled
  ready : outputDirectReady output.state = true ↔ ∀ a ∈ required, a ∈ before
  exclusive : ¬(outputDirectReady output.state = true ∧ output.Frozen)

theorem Awaiting.ready_iff (h : Awaiting required before self) :
    outputDirectReady self.state = true ↔ ∀ a ∈ required, a ∈ before := by
  rw [outputDirectReady, h.ready]
  simp [TreeSet.mem_toList]

theorem Awaiting.freeze (h : Awaiting required before self) :
    SettledBy required before self.freeze := by
  obtain ⟨received, hack, -⟩ := h.ack
  have hstate : self.freeze.state = self.state := by
    unfold NodeOutput.freeze
    rw [hack]
    dsimp only
    split <;> rfl
  refine ⟨self.settled_freeze, ?_, ?_⟩
  · rw [hstate]
    exact h.ready_iff
  · rintro ⟨hready, ack, hack', hfrozen⟩
    rw [hstate] at hready
    unfold NodeOutput.freeze at hack'
    rw [hack] at hack'
    dsimp only at hack'
    rw [if_pos hready, hack] at hack'
    cases hack'
    cases hfrozen

theorem SettledBy.record (h : SettledBy required before self) (identity : RequiredAcker) :
    SettledBy required before (self.record identity) := by
  obtain ⟨hsettled, hready⟩ := self.record_settled identity h.settled
  refine ⟨hsettled, by rw [hready]; exact h.ready, ?_⟩
  rintro ⟨hnow, ack, hack, hfrozen⟩
  apply h.exclusive
  refine ⟨hready ▸ hnow, ?_⟩
  -- recording never freezes
  unfold NodeOutput.record at hack
  cases hself : self.ack with
  | none => simp [hself] at hack
  | some ack' =>
    refine ⟨ack', hself, ?_⟩
    rw [hself] at hack
    dsimp only at hack
    split at hack
    · rw [hself] at hack
      cases hack
      exact hfrozen
    · split at hack <;> (cases hack; exact hfrozen)

/-- However acknowledgements, of whomever and however often, interleave with the one freeze: the output is
never both ready and frozen, from the freeze on it is ready exactly if everybody required was
acknowledged before it, and the freeze says whether the output stays on the daemon path. -/
theorem handshake_settles_once (routing : OutputRouting) (declared : Declared)
    (hawaits : (declareOutput (some routing) declared).ack.isSome = true)
    (before after : List RequiredAcker) (k : Nat) :
    let start := declareOutput (some routing) declared
    let atFreeze := start.afterOps (before.map .record)
    let settled := atFreeze.afterOps (.freeze :: (after.take k).map .record)
    (¬(outputDirectReady (start.afterOps ((before.take k).map .record)).state = true ∧
      (start.afterOps ((before.take k).map .record)).Frozen)) ∧
    (¬(outputDirectReady settled.state = true ∧ settled.Frozen)) ∧
    (outputDirectReady settled.state = true ↔ ∀ a ∈ routing.requiredAckers, a ∈ before) ∧
    ((atFreeze.apply .freeze).2 = true ↔ outputDirectReady settled.state = false) := by
  obtain ⟨ack, hack⟩ := Option.isSome_iff_exists.mp hawaits
  have hawait : ∀ acks : List RequiredAcker, Awaiting routing.requiredAckers acks
      ((declareOutput (some routing) declared).afterOps (acks.map .record)) := by
    intro acks
    induction acks using List.reverseRecOn with
    | nil => exact awaiting_declareOutput hack
    | append_singleton acks identity ih =>
      rw [afterOps, List.map_append, List.foldl_append]
      exact ih.record identity
  have hsettled : SettledBy routing.requiredAckers before
      (((declareOutput (some routing) declared).afterOps (before.map .record)).afterOps
        (.freeze :: (after.take k).map .record)) := by
    rw [afterOps, List.foldl_cons, List.foldl_map]
    exact List.foldlRecOn _ _ (hawait before).freeze fun _ h identity _ => h.record identity
  refine ⟨?_, hsettled.exclusive, hsettled.ready, ?_⟩
  · rintro ⟨-, ack', hack', hfrozen⟩
    obtain ⟨received, hreceived, -⟩ := (hawait (before.take k)).ack
    rw [hreceived] at hack'
    cases hack'
    cases hfrozen
  · obtain ⟨received, hreceived, -⟩ := (hawait before).ack
    rw [← Bool.not_eq_true, hsettled.ready, ← (hawait before).ready_iff, apply, hreceived]
    simp

def sinkAcker : RequiredAcker := ⟨⟨"sink"⟩, ⟨"image"⟩⟩

def sinkRouting : OutputRouting := { requiredAckers := .ofList [sinkAcker] }

theorem handshake_settles_once_sink :
    outputDirectReady (((declareOutput (some sinkRouting) ⟨true, true⟩).afterOps
      [.record sinkAcker]).afterOps [.freeze, .record sinkAcker]).state = true :=
  (handshake_settles_once sinkRouting ⟨true, true⟩ (by decide +kernel) [sinkAcker] [sinkAcker]
    1).2.2.1.mpr (by simp [sinkRouting])

end NodeOutput

end Dora
