import Dora.Daemon.CircuitBreaker

/-!
# Live inputs are not lost

An edge is live as long as it is in the routing table and its output has not been closed since it was
added. It leads into an input that is open or can recover, and nobody with such an input is told
`AllInputsClosed`, in every run whose operations close no input that another live edge feeds and replace
no node with a broken live input.
-/

namespace Dora

open Std

def RunningDataflow.edgeList (d : RunningDataflow) : List Edge :=
  d.mappings.keys.flatMap fun output =>
    (d.mappings.members output).toList.map fun key => (output, key)

theorem RunningDataflow.mem_edgeList {d : RunningDataflow} {e : Edge} :
    e ∈ d.edgeList ↔ e ∈ d.table.edges := by
  simp only [edgeList, List.mem_flatMap, List.mem_map, TreeMap.mem_keys, TreeSet.mem_toList]
  constructor
  · rintro ⟨output, -, key, hkey, rfl⟩
    exact hkey
  · intro he
    exact ⟨e.1, d.mem_mappings_of_edge he, e.2, he, rfl⟩

def TrackedDataflow.liveEdges (s : TrackedDataflow) : List Edge :=
  s.dataflow.edgeList.filter (· ∉ s.closedEdges)

theorem TrackedDataflow.mem_liveEdges {s : TrackedDataflow} {e : Edge} :
    e ∈ s.liveEdges ↔ e ∈ s.dataflow.table.edges ∧ e ∉ s.closedEdges := by
  rw [liveEdges, List.mem_filter, RunningDataflow.mem_edgeList, decide_eq_true_eq]

namespace RunningDataflow

/-- Every edge outside `C` leads into an input that is open or broken, and nobody with such an edge
has been told that all of its inputs are closed. -/
structure Honest (d : RunningDataflow) (C : Set Edge) : Prop where
  covered : d.table.Covered C
  told : ∀ nodeId, (nodeId, .allInputsClosed) ∈ d.outbox →
    ∀ e ∈ d.table.edges, e ∉ C → e.2.1 ≠ nodeId

section Closing

variable {d d' : RunningDataflow} {C C' : Set Edge}

theorem Honest.mono (h : Honest d C) (hC : ∀ e ∈ d.table.edges, e ∈ C → e ∈ C') : Honest d C' where
  covered := h.covered.mono hC
  told nodeId hmem e he hout := h.told nodeId hmem e he fun hmem' => hout (hC e he hmem')

theorem Honest.quiet (h : Honest d C) (hquiet : Quiet d d')
    (hedges : ∀ e ∈ d'.table.edges, e ∈ d.table.edges) (hcovered : d'.table.Covered C) :
    Honest d' C where
  covered := hcovered
  told nodeId hmem e he hout := h.told nodeId (hquiet.outbox nodeId hmem) e (hedges e he) hout

theorem Honest.talk (h : Honest d C) (htalk : Talk d d') : Honest d' C := by
  have htable := htalk.table
  refine h.quiet htalk.toQuiet ?_ ?_
  · rw [htable]
    exact fun _ he => he
  · rw [htable]
    exact h.covered

theorem Honest.signal (h : Honest d C) (hdata : ∀ e ∈ d.table.edges, e.2 ∈ d.table.data) (now : Nat)
    (receiverId : NodeId) : Honest (d.signalAllInputsClosedIfDrained now receiverId) C := by
  cases d.signalled now receiverId with
  | silent htalk => exact h.talk htalk
  | told channel hget hfinished htable hgate hchannels houtbox =>
    have hnone := hfinished.no_live h.covered hdata
    refine ⟨by rw [htable]; exact h.covered, fun nodeId hmem => ?_⟩
    rw [htable]
    rcases houtbox with heq | heq
    · rw [heq] at hmem
      exact h.told nodeId hmem
    · rw [heq, List.mem_append, List.mem_singleton, Prod.mk.injEq] at hmem
      rcases hmem with hmem | ⟨rfl, -⟩
      · exact h.told nodeId hmem
      · exact hnone

theorem Honest.closeInput (h : Honest d C) (hdata : ∀ e ∈ d.table.edges, e.2 ∈ d.table.data)
    (now : Nat) {key : InputKey} (hkey : ∀ e ∈ d.table.edges, e ∉ C → e.2 ≠ key) :
    Honest (closeInput now d key) C := by
  have htable := d.dropInput_table key
  have hdropped : Honest (d.dropInput key) C := by
    refine h.quiet (.of_eq rfl rfl rfl) ?_ ?_
    · rw [htable]
      exact fun _ he => he
    · rw [htable]
      exact h.covered.close hkey
  dsimp only [RunningDataflow.closeInput]
  split
  · exact hdropped
  · refine (hdropped.talk (d.talk_announceClosed key)).signal ?_ now key.1
    rw [(d.talk_announceClosed key).table, htable]
    exact hdata

theorem Honest.closeInputs (h : Honest d C) (hdata : ∀ e ∈ d.table.edges, e.2 ∈ d.table.data)
    (now : Nat) {keys : List InputKey} (hkeys : ∀ e ∈ d.table.edges, e ∉ C → e.2 ∉ keys) :
    Honest (d.closeInputs now keys) C := by
  induction keys generalizing d with
  | nil => exact h
  | cons key rest ih =>
    have hfirst : Honest (RunningDataflow.closeInput now d key) C :=
      h.closeInput hdata now fun e he hout heq => hkeys e he hout (by simp [heq])
    have htable := d.closeInput_table now key
    refine ih hfirst ?_ ?_
    · rw [htable]
      exact hdata
    · rw [htable]
      exact fun e he hout hmem => hkeys e he hout (List.mem_cons_of_mem key hmem)

theorem Closing.edges_subset {leaving : Option NodeId} {K : Set InputKey}
    (h : Closing leaving K d d') :
    ∀ e ∈ d'.table.edges, e ∈ d.table.edges := by
  intro e he
  cases h with
  | talk htalk =>
    rw [htalk.table] at he
    exact he
  | close now keys E hmute htable =>
    rw [closeInputs_table, htable] at he
    exact he.1
  | purge nodeId hleaving hquiet htable =>
    rw [htable] at he
    exact he.1

theorem Closing.honest {leaving : Option NodeId} {K : Set InputKey}
    (h : Closing leaving K d d') (hconsistent : d.table.Consistent)
    (hhonest : Honest d C) (hK : ∀ e ∈ d.table.edges, e ∉ C → e.2 ∉ K) : Honest d' C := by
  have hsubset := h.edges_subset
  cases h with
  | talk htalk => exact hhonest.talk htalk
  | close now keys E hmute htable hE hkeys =>
    have hunlinked := hhonest.quiet hmute.quiet (by rw [htable]; exact fun e he => he.1)
      (by rw [htable]; exact hhonest.covered.unlink)
    refine hunlinked.closeInputs ?_ now ?_
    · rw [htable]
      exact fun e he => hconsistent.edges_data e he.1
    · rw [htable]
      exact fun e he hout hmem => hK e he.1 hout (hkeys e.2 hmem)
  | purge nodeId hleaving hquiet htable =>
    refine hhonest.quiet hquiet hsubset ?_
    rw [htable]
    exact hhonest.covered.purge

theorem ClosingRun.honest {leaving : Option NodeId} {K : Set InputKey}
    (h : ClosingRun leaving K d d')
    (hconsistent : d.table.Consistent) (hhonest : Honest d C)
    (hK : ∀ e ∈ d.table.edges, e ∉ C → e.2 ∉ K) :
    Honest d' C ∧ ∀ e ∈ d'.table.edges, e ∈ d.table.edges := by
  induction h with
  | refl => exact ⟨hhonest, fun _ he => he⟩
  | tail hrun hstep ih =>
    obtain ⟨hmid, hsubset⟩ := ih
    have hmidConsistent := (ClosingRun.keeps hrun hconsistent).1
    exact ⟨hstep.honest hmidConsistent hmid fun e he => hK e (hsubset e he),
      fun e he => hsubset e (hstep.edges_subset e he)⟩

end Closing

theorem Honest.install {d d' : RunningDataflow} {C : Set Edge} {nodeId : NodeId} {replayed : Nat}
    (h : Honest d C) (hinstalls : Installs d nodeId replayed d')
    (hdata : ∀ e ∈ d.table.edges, e.2 ∈ d.table.data) : Honest d' C := by
  refine ⟨by rw [hinstalls.table]; exact h.covered, fun other hmem => ?_⟩
  rw [hinstalls.table]
  rcases hinstalls.outbox other hmem with hmem | ⟨rfl, hfinished⟩
  · exact h.told other hmem
  · exact hfinished.no_live h.covered hdata

def closedAfter (d : RunningDataflow) (C : Set Edge) (outcome : OpOutcome) : Set Edge :=
  (C ∪ {e | e ∈ d.table.edges ∧ e.1 ∈ outcome.closed}) \ {e | e ∈ outcome.linked}

theorem mem_closedAfter {d : RunningDataflow} {C : Set Edge} {outcome : OpOutcome} {e : Edge}
    (hlinked : outcome.linked = []) (hmem : e ∈ C) : e ∈ d.closedAfter C outcome := by
  refine ⟨.inl hmem, ?_⟩
  rw [Set.mem_ofPred_eq, hlinked]
  exact List.not_mem_nil

theorem Effect.honest {d : RunningDataflow} {op : DataflowOp}
    {result : RunningDataflow × OpOutcome} {C : Set Edge} (h : Effect d op result)
    (hconsistent : d.table.Consistent) (hcovered : d.table.Covered C) (houtbox : d.outbox = [])
    (hcloses : ∀ e ∈ d.table.edges, e ∉ C → e.2 ∈ op.closes d → op.ends e)
    (hreplaces : ∀ e ∈ d.table.edges, e ∉ C → op.replaces d = some e.2.1 → e.2 ∈ d.table.opened) :
    Honest result.1 (d.closedAfter C result.2) := by
  -- nothing has been sent yet
  have hstart : Honest d C := ⟨hcovered, fun nodeId hmem => by simp [houtbox] at hmem⟩
  cases h with
  | talk htalk hlinked =>
    exact (hstart.talk htalk).mono fun e _ hmem => mem_closedAfter hlinked hmem
  | recover hrecovers hlinked =>
    obtain ⟨R, -, htable⟩ := hrecovers.table
    have hafter := hstart.quiet hrecovers.toQuiet (by rw [htable]; exact fun _ he => he)
      (by rw [htable]; exact hcovered.recover)
    exact hafter.mono fun e _ hmem => mem_closedAfter hlinked hmem
  | expire hquiet K hK htable hlinked =>
    have hafter := hstart.quiet hquiet (by rw [htable]; exact fun _ he => he)
      (by rw [htable]; exact hcovered.expire)
    exact hafter.mono fun e _ hmem => mem_closedAfter hlinked hmem
  | register hmute hregisters =>
    obtain ⟨D, A, hreg, htable⟩ := hregisters
    refine ⟨?_, fun nodeId hmem => ?_⟩
    · rw [htable]
      exact (hcovered.register hreg).mono fun e _ hmem => ⟨.inl hmem.1, hmem.2⟩
    · rw [hmute.outbox, houtbox] at hmem
      exact absurd hmem List.not_mem_nil
  | renew nodeId hnode hrenews hlinked =>
    obtain ⟨D, -, -, htable⟩ := hrenews.table
    have hafter := hstart.quiet hrenews.toQuiet (by rw [htable]; exact fun _ he => he) (by
      rw [htable]
      exact hcovered.renew fun e he hout heq => hreplaces e he hout (by rw [heq]; exact hnode))
    exact hafter.mono fun e _ hmem => mem_closedAfter hlinked hmem
  | install nodeId replayed hsubscribes hinstalls hlinked =>
    have hafter := hstart.install hinstalls hconsistent.edges_data
    exact hafter.mono fun e _ hmem => mem_closedAfter hlinked hmem
  | close hrun hgone hends hlinked =>
    -- while the operation runs, the edges it ends do not count as live
    have hduring : Honest d (C ∪ {e | op.ends e}) := hstart.mono fun e _ hmem => .inl hmem
    obtain ⟨hafter, hsubset⟩ := ClosingRun.honest hrun hconsistent hduring
      fun e he hout hmem => hout (.inr (hcloses e he (fun hC => hout (.inl hC)) hmem))
    refine hafter.mono fun e he hmem => ?_
    rcases hmem with hmem | hmem
    · exact mem_closedAfter hlinked hmem
    · refine ⟨.inr ⟨hsubset e he, hends e he hmem⟩, ?_⟩
      rw [Set.mem_ofPred_eq, hlinked]
      exact List.not_mem_nil

end RunningDataflow

instance (e : Edge) (op : DataflowOp) : Decidable (op.ends e) := by
  cases op <;> simp only [DataflowOp.ends] <;> infer_instance

namespace TrackedDataflow

/-- Whoever loses its input to the operation has no other live edge into it, and a node that is
replaced has no live edge into an input that is not open. -/
def KeepsLive (s : TrackedDataflow) (op : DataflowOp) : Prop :=
  ∀ e ∈ s.liveEdges, (e.2 ∈ op.closes s.dataflow → op.ends e) ∧
    (op.replaces s.dataflow = some e.2.1 → e.2.2 ∈ s.dataflow.openInputs.members e.2.1)

instance (s : TrackedDataflow) (op : DataflowOp) : Decidable (KeepsLive s op) :=
  inferInstanceAs (Decidable (∀ e ∈ s.liveEdges, (e.2 ∈ op.closes s.dataflow → op.ends e) ∧
    (op.replaces s.dataflow = some e.2.1 → e.2.2 ∈ s.dataflow.openInputs.members e.2.1)))

/-- Every live edge leads into an input that is open or broken, and the last operation has told no
node with a live edge that all of its inputs are closed. -/
def LiveInputsKept (s : TrackedDataflow) : Prop :=
  ∀ e ∈ s.liveEdges,
    (e.2.2 ∈ s.dataflow.openInputs.members e.2.1 ∨ e.2 ∈ s.dataflow.brokenInputs) ∧
      (e.2.1, .allInputsClosed) ∉ s.dataflow.outbox

theorem liveInputsKept_iff (s : TrackedDataflow) :
    s.LiveInputsKept ↔ s.dataflow.Honest {e | e ∈ s.closedEdges} := by
  simp only [LiveInputsKept, mem_liveEdges]
  constructor
  · intro h
    exact ⟨fun e he hout => (h e ⟨he, hout⟩).1,
      fun nodeId hmem e he hout heq => (h e ⟨he, hout⟩).2 (heq ▸ hmem)⟩
  · intro h e he
    exact ⟨h.covered e he.1 he.2, fun hmem => h.told e.2.1 hmem e he.1 he.2 rfl⟩

theorem step_closedEdges (s : TrackedDataflow) (op : DataflowOp) :
    {e | e ∈ (s.step op).1.closedEdges} =
      s.cleared.closedAfter {e | e ∈ s.closedEdges} (s.cleared.apply op).2 := by
  ext e
  simp only [step, RunningDataflow.closedAfter, Set.mem_ofPred_eq, List.mem_filter, List.mem_append,
    closing, List.mem_flatMap, List.mem_map, TreeSet.mem_toList, decide_eq_true_eq, Set.mem_sdiff,
    Set.mem_union]
  refine and_congr_left fun _ => or_congr_right ?_
  constructor
  · rintro ⟨output, houtput, key, hkey, rfl⟩
    exact ⟨hkey, houtput⟩
  · rintro ⟨he, hclosed⟩
    exact ⟨e.1, hclosed, e.2, he, rfl⟩

theorem step_liveInputsKept {s : TrackedDataflow} (hconsistent : s.dataflow.table.Consistent)
    (h : s.LiveInputsKept) {op : DataflowOp} (hop : KeepsLive s op) :
    (s.step op).1.LiveInputsKept := by
  rw [liveInputsKept_iff] at h ⊢
  rw [step_closedEdges]
  have hlive : ∀ e ∈ s.dataflow.table.edges, e ∉ {e | e ∈ s.closedEdges} → e ∈ s.liveEdges :=
    fun e he hout => mem_liveEdges.mpr ⟨he, hout⟩
  have hcloses : op.closes s.cleared = op.closes s.dataflow := by
    cases op <;> rfl
  have hreplaces : op.replaces s.cleared = op.replaces s.dataflow := by
    cases op <;> rfl
  refine (s.cleared.apply_effect hconsistent op).honest hconsistent h.covered rfl ?_ ?_
  · rw [hcloses]
    exact fun e he hout => (hop e (hlive e he hout)).1
  · rw [hreplaces]
    exact fun e he hout => (hop e (hlive e he hout)).2

end TrackedDataflow

/-- Live inputs are kept in every run whose operations all leave them alone. -/
theorem live_inputs_kept (dataflowId : String) (nodes : ResolvedNodes) (spawnNodes : TreeSet NodeId)
    (exitWhenNodesFinish : Bool) (ops : List DataflowOp)
    (hops : Lib.Meets TrackedDataflow.step TrackedDataflow.KeepsLive
      (.spawn dataflowId nodes spawnNodes exitWhenNodesFinish) ops) :
    (Lib.run TrackedDataflow.step (.spawn dataflowId nodes spawnNodes exitWhenNodesFinish) ops
      ).1.LiveInputsKept := by
  have hspawn : (TrackedDataflow.spawn dataflowId nodes spawnNodes
      exitWhenNodesFinish).LiveInputsKept := by
    obtain ⟨-, houtbox, E, K, D, A, hreg, htable⟩ := RunningDataflow.spawnDataflow_registers
      dataflowId nodes spawnNodes exitWhenNodesFinish
    rw [TrackedDataflow.liveInputsKept_iff]
    refine ⟨?_, fun nodeId hmem => ?_⟩
    · have hempty : (⟨∅, ∅, ∅, ∅, ∅⟩ : InputTable OutputId NodeId DataId).Covered ∅ :=
        fun _ he => he.elim
      rw [show (TrackedDataflow.spawn dataflowId nodes spawnNodes exitWhenNodesFinish
        ).dataflow.table = _ from htable]
      exact (hempty.register hreg).mono fun _ _ h => h.1.elim
    · rw [show (TrackedDataflow.spawn dataflowId nodes spawnNodes exitWhenNodesFinish
        ).dataflow.outbox = [] from houtbox] at hmem
      exact absurd hmem List.not_mem_nil
  exact (Lib.run_induction_meets TrackedDataflow.step
    (P := fun _ _ s => s.dataflow.table.Consistent ∧ s.LiveInputsKept)
    ⟨(TrackedDataflow.spawn_consistent dataflowId nodes spawnNodes exitWhenNodesFinish).1, hspawn⟩
    (fun _ _ s op _ hop h => ⟨TrackedDataflow.step_consistent h.1 op,
      TrackedDataflow.step_liveInputsKept h.1 h.2 hop⟩) ops hops).2

/-- The input of `b` recovers with the next message and is live all along. -/
theorem live_inputs_kept_recovery :
    (Lib.run TrackedDataflow.step (.spawn "df" ∅ ∅ true)
      (silentProducer ++ [.outputSent 11 ⟨⟨"a"⟩, ⟨"out"⟩⟩])).1.liveEdges ≠ [] ∧
    (Lib.run TrackedDataflow.step (.spawn "df" ∅ ∅ true)
      (silentProducer ++ [.outputSent 11 ⟨⟨"a"⟩, ⟨"out"⟩⟩])).1.LiveInputsKept := by
  refine ⟨by decide, ?_⟩
  apply live_inputs_kept
  decide

/-- `b` is replaced while its input is broken, and the new incarnation subscribes. -/
def replacedWhileBroken : TrackedDataflow :=
  (Lib.run TrackedDataflow.step (.spawn "df" ∅ ∅ true)
    (silentProducer ++ [.replaceNode timedReader .never [] (.ok ()),
      .subscribe 11 ⟨"b"⟩ [] 1 none])).1

/-- A second producer is connected to the input of `b` and disconnected again. -/
def secondSourceRemoved : TrackedDataflow :=
  (Lib.run TrackedDataflow.step (.spawn "df" ∅ ∅ true)
    [.addNode (plainNode "a" [] [⟨"out"⟩]) .never (.ok ()), .addNode timedReader .never (.ok ()),
      .addMapping ⟨⟨"c"⟩, ⟨"out"⟩⟩ (⟨"b"⟩, ⟨"in"⟩),
      .removeMapping 0 ⟨⟨"c"⟩, ⟨"out"⟩⟩ (⟨"b"⟩, ⟨"in"⟩)]).1

/-- In both runs `a` never closes its output, and yet its edge into `b` leads into an input that is
neither open nor broken; the replaced `b` is told that all of its inputs are closed. -/
theorem live_input_lost :
    ¬replacedWhileBroken.LiveInputsKept ∧
      (replacedWhileBroken.dataflow.outbox.any fun sent =>
        sent.1 == ⟨"b"⟩ && sent.2 matches .allInputsClosed) = true ∧
      ¬secondSourceRemoved.LiveInputsKept := by
  have hlost : ∀ s : TrackedDataflow,
      (⟨⟨"a"⟩, ⟨"out"⟩⟩, (⟨"b"⟩, ⟨"in"⟩)) ∈ s.liveEdges →
      ¬(⟨"in"⟩ ∈ s.dataflow.openInputs.members ⟨"b"⟩ ∨
        (⟨"b"⟩, ⟨"in"⟩) ∈ s.dataflow.brokenInputs) → ¬s.LiveInputsKept :=
    fun s hlive hnot h => hnot (h _ hlive).1
  exact ⟨hlost _ (by decide +kernel) (by decide +kernel), by decide +kernel,
    hlost _ (by decide) (by decide)⟩

end Dora
