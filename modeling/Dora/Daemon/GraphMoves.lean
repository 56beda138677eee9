import Dora.Daemon.InputMoves

/-!
# The moves of the graph edits

Registering inputs, removing a node with its edges, replacing a node, subscribing: what each does to
the input table of the dataflow. `apply_effect` collects the moves of all operations in one
statement, on which the invariants of the following files rest.
-/

namespace Dora

open Std

namespace RunningDataflow

structure Mute (d d' : RunningDataflow) : Prop where
  gate : d'.timersGateDrain = d.timersGateDrain
  channels : d'.subscribeChannels = d.subscribeChannels
  outbox : d'.outbox = d.outbox

section Registering

variable {d d' d'' : RunningDataflow}

theorem Mute.refl (d : RunningDataflow) : Mute d d := ⟨rfl, rfl, rfl⟩

theorem Mute.trans (h : Mute d d') (h' : Mute d' d'') : Mute d d'' :=
  ⟨h'.gate.trans h.gate, h'.channels.trans h.channels, h'.outbox.trans h.outbox⟩

theorem Mute.quiet (h : Mute d d') : Quiet d d' := .of_eq h.gate h.channels h.outbox

variable (d) (nodeId : NodeId)

theorem registerInput_mute (entry : DataId × Input) : Mute d (registerInput nodeId d entry) := by
  dsimp only [registerInput]
  split <;> exact ⟨rfl, rfl, rfl⟩

theorem registerInput_registers (entry : DataId × Input) :
    InputTable.Registers d.table (registerInput nodeId d entry).table
      {e | inputEdge nodeId entry = some e} {(nodeId, entry.1)} := by
  have hcompare : ∀ k : InputKey, compare (nodeId, entry.1) k = .eq ↔ k = (nodeId, entry.1) :=
    fun k => by rw [LawfulEqCmp.compare_eq_iff_eq, eq_comm]
  dsimp only [registerInput]
  split
  · rename_i mapping hmapping
    have hedge : ∀ e, inputEdge nodeId entry = some e ↔
        e = (⟨mapping.source, mapping.output⟩, (nodeId, entry.1)) := by
      intro e
      rw [inputEdge, hmapping, Option.some.injEq, eq_comm]
    -- only an input with a timeout gets a deadline
    refine ⟨if entry.2.inputTimeout.isSome then {(nodeId, entry.1)} else ∅, {(nodeId, entry.1)},
      ⟨?_, ?_, ?_, Set.Subset.rfl⟩, ?_⟩
    · split <;> simp
    · intro k hk
      have hk' : k = (nodeId, entry.1) := by
        split at hk
        · exact hk
        · exact hk.elim
      exact ⟨_, (hedge _).mpr (by rw [hk'])⟩
    · intro e he
      rw [Set.mem_ofPred_eq, hedge] at he
      rw [he]
      rfl
    · ext k
      · simp [RunningDataflow.table, InputTable.register, hedge]
      · simp [RunningDataflow.table, InputTable.register]
      · rfl
      · cases htimeout : entry.2.inputTimeout with
        | none => simp [RunningDataflow.table, InputTable.register]
        | some =>
          simp [RunningDataflow.table, InputTable.register, TreeMap.mem_insert, hcompare]
      · simp [RunningDataflow.table, InputTable.register]
  all_goals
    -- a timer or log input opens and has no edge
    rename_i hmapping
    have hedge : ∀ e, inputEdge nodeId entry ≠ some e := by
      intro e
      simp [inputEdge, hmapping]
    refine ⟨∅, ∅, ⟨Set.empty_subset _, fun _ h => h.elim, fun e he => absurd he (hedge e),
      Set.empty_subset _⟩, ?_⟩
    ext k
    · simp [RunningDataflow.table, InputTable.register, hedge]
    · simp [RunningDataflow.table, InputTable.register]
    · rfl
    · simp [RunningDataflow.table, InputTable.register]
    · simp [RunningDataflow.table, InputTable.register]

theorem registerInputs_mute (inputs : TreeMap DataId Input) :
    Mute d (d.registerInputs nodeId inputs) := by
  unfold registerInputs
  generalize inputs.toList = entries
  induction entries generalizing d with
  | nil => exact .refl d
  | cons entry rest ih => exact (d.registerInput_mute nodeId entry).trans (ih _)

theorem registerInputs_registers (inputs : TreeMap DataId Input) :
    InputTable.Registers d.table (d.registerInputs nodeId inputs).table
      {e | e ∈ inputEdges nodeId inputs} {k | k ∈ inputKeys nodeId inputs} := by
  unfold registerInputs inputEdges inputKeys
  generalize inputs.toList = entries
  induction entries generalizing d with
  | nil => simpa using InputTable.Registers.refl d.table
  | cons entry rest ih =>
    have hstep := (d.registerInput_registers nodeId entry).trans
      (ih (registerInput nodeId d entry))
    have hedges : {e | e ∈ (entry :: rest).filterMap (inputEdge nodeId)} =
        {e | inputEdge nodeId entry = some e} ∪ {e | e ∈ rest.filterMap (inputEdge nodeId)} := by
      ext e
      simp
    have hkeys : {k | k ∈ (entry :: rest).map fun entry => (nodeId, entry.1)} =
        {(nodeId, entry.1)} ∪ {k | k ∈ rest.map fun entry => (nodeId, entry.1)} := by
      ext k
      simp [eq_comm]
    rw [hedges, hkeys]
    exact hstep

theorem addMapping_registers (output : OutputId) (key : InputKey) :
    InputTable.Registers d.table (d.addMapping output.node output.output key.1 key.2).table
      {(output, key)} {key} := by
  refine ⟨∅, {key}, ⟨Set.empty_subset _, fun _ h => h.elim, fun e he => ?_, Set.Subset.rfl⟩, ?_⟩
  · rw [Set.mem_singleton_iff] at he
    rw [he]
    rfl
  · ext k
    · simp [RunningDataflow.table, addMapping, InputTable.register]
    · simp [RunningDataflow.table, addMapping, InputTable.register]
    · rfl
    · simp [RunningDataflow.table, addMapping, InputTable.register]
    · simp [RunningDataflow.table, addMapping, InputTable.register]

variable {nodeId} in
theorem addNode_registers {node : ResolvedNode} {restartPolicy : RestartPolicy}
    {spawned : Except String Unit} (h : d.addNode node restartPolicy spawned = .ok d') :
    Mute d d' ∧ InputTable.Registers d.table d'.table
      {e | e ∈ inputEdges node.id (nodeInputs node)} {k | k ∈ inputKeys node.id (nodeInputs node)} := by
  unfold addNode at h
  split at h
  · cases h
  · split at h
    · cases h
    · cases h
      have hmute := d.registerInputs_mute node.id (nodeInputs node)
      exact ⟨⟨hmute.gate, hmute.channels, hmute.outbox⟩,
        d.registerInputs_registers node.id (nodeInputs node)⟩

theorem spawnNode_registers (spawnNodes : TreeSet NodeId) (node : ResolvedNode) :
    Mute d (spawnNode spawnNodes d node) ∧
      ∃ E K, InputTable.Registers d.table (spawnNode spawnNodes d node).table E K := by
  have hmute := d.registerInputs_mute node.id (nodeInputs node)
  have hregisters := d.registerInputs_registers node.id (nodeInputs node)
  dsimp only [spawnNode]
  split
  · split <;> exact ⟨⟨hmute.gate, hmute.channels, hmute.outbox⟩, _, _, hregisters⟩
  · exact ⟨⟨rfl, rfl, rfl⟩, ∅, ∅, .refl d.table⟩

theorem spawnDataflow_registers (dataflowId : String) (nodes : ResolvedNodes)
    (spawnNodes : TreeSet NodeId) (exitWhenNodesFinish : Bool) :
    (spawnDataflow dataflowId nodes spawnNodes exitWhenNodesFinish).subscribeChannels = ∅ ∧
      (spawnDataflow dataflowId nodes spawnNodes exitWhenNodesFinish).outbox = [] ∧
      ∃ E K, InputTable.Registers ⟨∅, ∅, ∅, ∅, ∅⟩
        (spawnDataflow dataflowId nodes spawnNodes exitWhenNodesFinish).table E K := by
  have hfold : ∀ (entries : List ResolvedNode) (d : RunningDataflow),
      Mute d (entries.foldl (spawnNode spawnNodes) d) ∧
        ∃ E K, InputTable.Registers d.table (entries.foldl (spawnNode spawnNodes) d).table E K := by
    intro entries
    induction entries with
    | nil => exact fun d => ⟨.refl d, ∅, ∅, .refl d.table⟩
    | cons node rest ih =>
      intro d
      obtain ⟨hmute, E, K, hregisters⟩ := d.spawnNode_registers spawnNodes node
      obtain ⟨hmute', E', K', hregisters'⟩ := ih (spawnNode spawnNodes d node)
      exact ⟨hmute.trans hmute', E ∪ E', K ∪ K', hregisters.trans hregisters'⟩
  obtain ⟨hmute, E, K, hregisters⟩ := hfold nodes.values (.new dataflowId
    (nodes.values.any fun node => !spawnNodes.contains node.id) (!exitWhenNodesFinish))
  have hnew : (RunningDataflow.new dataflowId
      (nodes.values.any fun node => !spawnNodes.contains node.id) (!exitWhenNodesFinish)).table =
      ⟨∅, ∅, ∅, ∅, ∅⟩ := by
    ext k <;> simp [RunningDataflow.table, RunningDataflow.new]
  rw [hnew] at hregisters
  exact ⟨hmute.channels, hmute.outbox, E, K, hregisters⟩

end Registering

/-- A step of an operation that closes inputs in `K` and removes the node `leaving`, if any. Only the
node that leaves may hear anything besides the closing of its inputs. -/
inductive Closing (leaving : Option NodeId) (K : Set InputKey) :
    RunningDataflow → RunningDataflow → Prop where
  | talk {d d' : RunningDataflow} (htalk : Talk d d')
      (hsame : ∀ other, leaving ≠ some other →
        d'.subscribeChannels[other]? = d.subscribeChannels[other]?) : Closing leaving K d d'
  /-- The edges `E` go, and all inputs they lead into are among the closed ones. -/
  | close {d unlinked : RunningDataflow} (now : Nat) (keys : List InputKey) (E : Set Edge)
      (hmute : Mute d unlinked) (htable : unlinked.table = d.table.unlink E)
      (hE : ∀ e ∈ E, e ∈ d.table.edges → e.2 ∈ keys) (hkeys : ∀ key ∈ keys, key ∈ K) :
      Closing leaving K d (unlinked.closeInputs now keys)
  | purge {d d' : RunningDataflow} (nodeId : NodeId) (hleaving : leaving = some nodeId)
      (hquiet : Quiet d d') (htable : d'.table = d.table.purge nodeId)
      (hsame : ∀ other, other ≠ nodeId →
        d'.subscribeChannels[other]? = d.subscribeChannels[other]?) : Closing leaving K d d'

abbrev ClosingRun (leaving : Option NodeId) (K : Set InputKey) :=
  Relation.ReflTransGen (Closing leaving K)

section Removing

variable (d : RunningDataflow) (now : Nat) {leaving : Option NodeId} {K : Set InputKey}

theorem closing_closeInputs (keys : List InputKey) (hkeys : ∀ key ∈ keys, key ∈ K) :
    Closing leaving K d (d.closeInputs now keys) :=
  .close now keys ∅ (.refl d) (by simp [InputTable.unlink]) (fun _ h => h.elim) hkeys

theorem closing_removeOutput (output : OutputId)
    (hkeys : ∀ key, (output, key) ∈ d.table.edges → key ∈ K) :
    Closing leaving K d (removeOutput now d output) := by
  refine .close now _ {e | e.1 = output} ⟨rfl, rfl, rfl⟩ ?_ ?_ ?_
  · ext e
    · show e ∈ Lib.MultiMap.rel (TreeMap.erase d.mappings output) ↔ _
      rw [Lib.MultiMap.rel_erase]
      rfl
    all_goals rfl
  · rintro ⟨o, key⟩ ho he
    obtain rfl : o = output := ho
    rw [TreeSet.mem_toList]
    exact he
  · intro key hkey
    rw [TreeSet.mem_toList] at hkey
    exact hkeys key hkey

theorem removeOutput_edges (output : OutputId) :
    (removeOutput now d output).table.edges = {e ∈ d.table.edges | e.1 ≠ output} := by
  unfold removeOutput
  rw [closeInputs_table]
  exact Lib.MultiMap.rel_erase

theorem removeOutputs_closing (outputs : List OutputId)
    (hkeys : ∀ output ∈ outputs, ∀ key, (output, key) ∈ d.table.edges → key ∈ K) :
    ClosingRun leaving K d (outputs.foldl (removeOutput now) d) ∧
      (outputs.foldl (removeOutput now) d).table.edges = {e ∈ d.table.edges | e.1 ∉ outputs} := by
  induction outputs generalizing d with
  | nil => exact ⟨.refl, by simp⟩
  | cons output rest ih =>
    have hfirst : Closing leaving K d (removeOutput now d output) :=
      d.closing_removeOutput now output (hkeys output (by simp))
    have hedges := d.removeOutput_edges now output
    have hrest : ∀ o ∈ rest, ∀ key, (o, key) ∈ (removeOutput now d output).table.edges → key ∈ K := by
      intro o ho key he
      rw [hedges] at he
      exact hkeys o (by simp [ho]) key he.1
    obtain ⟨hrun, hedges'⟩ := ih (removeOutput now d output) hrest
    refine ⟨.head hfirst hrun, ?_⟩
    rw [List.foldl_cons, hedges', hedges]
    ext e
    simp [and_assoc]

theorem purgeNode_table (nodeId : NodeId) : (d.purgeNode nodeId).table = d.table.purge nodeId := by
  ext k
  · simp [RunningDataflow.table, purgeNode, forgetNodeBookkeeping, unsubscribeNodeFromTimers,
      InputTable.purge, Lib.MultiMap.rel_retain]
  · simp [RunningDataflow.table, purgeNode, forgetNodeBookkeeping, unsubscribeNodeFromTimers,
      InputTable.purge, Lib.MultiMap.rel_erase]
  · simp [RunningDataflow.table, purgeNode, forgetNodeBookkeeping, unsubscribeNodeFromTimers,
      InputTable.purge, TreeMap.mem_filter]
  · simp [RunningDataflow.table, purgeNode, forgetNodeBookkeeping, unsubscribeNodeFromTimers,
      InputTable.purge, TreeMap.mem_filter]
  · simp [RunningDataflow.table, purgeNode, forgetNodeBookkeeping, unsubscribeNodeFromTimers,
      InputTable.purge, Lib.MultiMap.rel_erase]

theorem closing_purgeNode (nodeId : NodeId) : Closing (some nodeId) K d (d.purgeNode nodeId) := by
  have hflows := d.flows_eraseChannel nodeId
  refine .purge nodeId rfl ⟨⟨hflows.gate, hflows.channels⟩, fun _ h => h⟩
    (d.purgeNode_table nodeId) fun other hne => ?_
  show (d.subscribeChannels.erase nodeId)[other]? = d.subscribeChannels[other]?
  rw [TreeMap.getElem?_erase, if_neg]
  rw [LawfulEqCmp.compare_eq_iff_eq]
  exact hne.symm

theorem mem_mappings_of_edge {output : OutputId} {key : InputKey}
    (he : (output, key) ∈ d.table.edges) : output ∈ d.mappings := by
  obtain ⟨keys, hget, -⟩ := Lib.MultiMap.mem_rel_iff_getElem?.mp he
  rw [TreeMap.mem_iff_isSome_getElem?, hget]
  rfl

theorem mem_affectedInputs {nodeId : NodeId} {order : List OutputId} {key : InputKey} :
    key ∈ d.affectedInputs nodeId order ↔
      ∃ output, output.node = nodeId ∧ (output, key) ∈ d.table.edges := by
  simp only [affectedInputs, List.mem_flatMap, List.mem_filter, Lib.mem_inOrder, TreeMap.mem_keys,
    beq_iff_eq, TreeSet.mem_toList]
  constructor
  · rintro ⟨output, ⟨-, hnode⟩, hkey⟩
    exact ⟨output, hnode, hkey⟩
  · rintro ⟨output, hnode, hkey⟩
    exact ⟨output, ⟨d.mem_mappings_of_edge hkey, hnode⟩, hkey⟩

theorem removeNode_closing (nodeId : NodeId) (order : List OutputId) (sender : CoordinatorSender)
    (hnode : nodeId ∈ d.runningNodes) :
    ClosingRun (some nodeId) {key | key ∈ d.affectedInputs nodeId order} d
        (d.removeNode now nodeId order sender).1 ∧
      (d.removeNode now nodeId order sender).1.subscribeChannels[nodeId]? = none ∧
      ∀ e ∈ (d.removeNode now nodeId order sender).1.table.edges,
        e.1.node ≠ nodeId ∧ e.2.1 ≠ nodeId := by
  obtain ⟨d', hstop⟩ : ∃ d', d.stopSingleNode nodeId = .ok d' := by
    rw [TreeMap.mem_iff_isSome_getElem?] at hnode
    obtain ⟨node, hget⟩ := Option.isSome_iff_exists.mp hnode
    simp only [stopSingleNode, hget]
    exact ⟨_, rfl⟩
  have htalk := d.talk_stopSingleNode hstop
  dsimp only [removeNode, withdrawNode]
  rw [hstop]
  dsimp only [Except.map]
  set outputs := (Lib.inOrder order d'.mappings.keys).filter fun output => output.node == nodeId
    with houtputs
  obtain ⟨hrun, hedges⟩ := @removeOutputs_closing d' now (some nodeId)
    {key | key ∈ d.affectedInputs nodeId order} outputs (by
      intro output houtput key he
      rw [htalk.table] at he
      rw [houtputs, List.mem_filter, beq_iff_eq] at houtput
      exact (d.mem_affectedInputs).mpr ⟨output, houtput.2, he⟩)
  set cut := outputs.foldl (removeOutput now) d'
  have hlast : Talk (cut.purgeNode nodeId) { cut.purgeNode nodeId with
      pendingNodes := ((cut.purgeNode nodeId).pendingNodes.handleNodeRemoval nodeId sender).1 } :=
    .of_eq rfl rfl rfl rfl
  have hstopped : ∀ other, some nodeId ≠ some other →
      d'.subscribeChannels[other]? = d.subscribeChannels[other]? := fun other hne =>
    d.stopSingleNode_others hstop fun heq => hne (heq ▸ rfl)
  refine ⟨.trans (.head (.talk htalk hstopped) hrun)
    (.tail (.single (cut.closing_purgeNode nodeId)) (.talk hlast fun _ _ => rfl)), ?_, ?_⟩
  · show (cut.subscribeChannels.erase nodeId)[nodeId]? = none
    simp
  intro e he
  have he' : e ∈ cut.table.edges ∧ e.2.1 ≠ nodeId := by
    have hpurge : e ∈ (cut.purgeNode nodeId).table.edges := he
    rwa [purgeNode_table] at hpurge
  refine ⟨fun hfrom => ?_, he'.2⟩
  have hcut := he'.1
  rw [hedges] at hcut
  refine hcut.2 ?_
  rw [houtputs, List.mem_filter, Lib.mem_inOrder, TreeMap.mem_keys, beq_iff_eq]
  exact ⟨d'.mem_mappings_of_edge hcut.1, hfrom⟩

theorem removeMapping_closing {output : OutputId} {key : InputKey} {d' : RunningDataflow}
    (h : d.removeMapping now output key = .ok d') :
    Closing leaving {key} d d' ∧ d'.table.edges = d.table.edges \ {(output, key)} := by
  unfold removeMapping at h
  split at h
  · cases h
    have hunlink : ({ d with mappings := d.mappings.remove output key } : RunningDataflow).table =
        d.table.unlink {(output, key)} := by
      ext e
      · simp [RunningDataflow.table, InputTable.unlink]
      all_goals rfl
    refine ⟨.close now [key] {(output, key)} ⟨rfl, rfl, rfl⟩ hunlink ?_ (by simp), ?_⟩
    · intro e he _
      rw [Set.mem_singleton_iff] at he
      simp [he]
    · rw [closeInput_table, hunlink]
      rfl
  · cases h

theorem sendOutputClosedEvents_fst (nodeId : NodeId) (outputs : List DataId)
    (remote : Except String Unit) :
    (d.sendOutputClosedEvents now nodeId outputs remote).1 =
      d.closeInputs now (d.localReceivers nodeId outputs).toList := by
  dsimp only [sendOutputClosedEvents]
  split <;> rfl

end Removing

section Replacing

variable (d : RunningDataflow) (nodeId : NodeId)

def EdgesLive (edges : TreeMap DataId InputMapping) : Prop :=
  ∀ inputId mapping, edges[inputId]? = some (.user mapping) →
    (⟨mapping.source, mapping.output⟩, (nodeId, inputId)) ∈ d.table.edges

variable {d nodeId}

theorem EdgesLive.insert {edges : TreeMap DataId InputMapping} (h : EdgesLive d nodeId edges)
    {inputId : DataId} {entry : InputMapping}
    (hentry : ∀ mapping, entry = .user mapping →
      (⟨mapping.source, mapping.output⟩, (nodeId, inputId)) ∈ d.table.edges) :
    EdgesLive d nodeId (edges.insert inputId entry) := by
  intro i mapping hget
  rw [TreeMap.getElem?_insert] at hget
  split at hget
  · rename_i heq
    rw [LawfulEqCmp.compare_eq_iff_eq] at heq
    rw [← heq]
    exact hentry mapping (Option.some.inj hget)
  · exact h i mapping hget

theorem EdgesLive.foldl {α : Type} {f : TreeMap DataId InputMapping → α → TreeMap DataId InputMapping}
    {entries : List α}
    (hf : ∀ edges, ∀ entry ∈ entries, EdgesLive d nodeId edges → EdgesLive d nodeId (f edges entry))
    {edges : TreeMap DataId InputMapping} (h : EdgesLive d nodeId edges) :
    EdgesLive d nodeId (entries.foldl f edges) := by
  induction entries generalizing edges with
  | nil => exact h
  | cons entry rest ih =>
    exact ih (fun edges e he => hf edges e (by simp [he])) (hf edges entry (by simp) h)

theorem currentEdges_live (order : List OutputId) : EdgesLive d nodeId (d.currentEdges nodeId order) := by
  have hempty : EdgesLive d nodeId ∅ := by
    intro inputId mapping hget
    simp at hget
  unfold currentEdges
  refine .foldl (fun edges subscriber _ h => h.insert (by simp)) ?_
  refine .foldl (fun edges entry _ h => .foldl (fun edges key _ h => h.insert (by simp)) h) ?_
  refine .foldl (fun edges output _ h => .foldl (fun edges key hkey h => h.insert ?_) h) hempty
  intro mapping heq
  rw [List.mem_filter, TreeSet.mem_toList, beq_iff_eq] at hkey
  cases heq
  rw [← hkey.2]
  exact hkey.1

theorem checkEdges_user {newInputs : TreeMap DataId Input} {edges : TreeMap DataId InputMapping}
    (h : checkEdges newInputs edges = .ok ()) {entry : DataId × Input}
    (hentry : entry ∈ newInputs.toList) : edges[entry.1]? = some entry.2.mapping := by
  unfold checkEdges at h
  split at h
  · split at h <;> cases h
  · rename_i hnone
    have hsame := List.find?_eq_none.mp hnone entry hentry
    simpa using hsame

def Rearmed (stillOpen : TreeSet DataId) (entry : DataId × Input) : Prop :=
  (∃ mapping, entry.2.mapping = .user mapping) ∧ entry.2.inputTimeout.isSome = true ∧
    entry.1 ∈ stillOpen

theorem mem_rearmDeadlines (inputs : TreeMap DataId Input) (key : InputKey) :
    key ∈ (d.rearmDeadlines nodeId inputs).inputDeadlines ↔ key ∈ d.inputDeadlines ∨
      ∃ entry ∈ inputs.toList, Rearmed (d.openInputs.members nodeId) entry ∧
        key = (nodeId, entry.1) := by
  dsimp only [rearmDeadlines]
  generalize d.inputDeadlines = deadlines
  generalize inputs.toList = entries
  induction entries generalizing deadlines with
  | nil => simp
  | cons entry rest ih =>
    rw [List.foldl_cons, ih, List.exists_mem_cons_iff, ← or_assoc]
    refine or_congr_left ?_
    have hcompare : compare (nodeId, entry.1) key = .eq ↔ key = (nodeId, entry.1) := by
      rw [LawfulEqCmp.compare_eq_iff_eq, eq_comm]
    split
    · rename_i mapping timeout hmapping htimeout
      split
      · rename_i hopen
        have hrearmed : Rearmed (d.openInputs.members nodeId) entry :=
          ⟨⟨mapping, hmapping⟩, by rw [htimeout]; rfl, TreeSet.contains_iff_mem.mp hopen⟩
        rw [TreeMap.mem_insert, hcompare]
        tauto
      · rename_i hopen
        have hnot : ¬Rearmed (d.openInputs.members nodeId) entry := fun h =>
          hopen (TreeSet.contains_iff_mem.mpr h.2.2)
        tauto
    · rename_i hother
      have hnot : ¬Rearmed (d.openInputs.members nodeId) entry := by
        rintro ⟨⟨mapping, hmapping⟩, htimeout, -⟩
        obtain ⟨timeout, htimeout⟩ := Option.isSome_iff_exists.mp htimeout
        exact hother mapping timeout hmapping htimeout
      tauto

/-- What a replacement does: the node has no channel, its broken inputs are forgotten, and its
deadlines are those of the new incarnation, on inputs that are open and have an edge. -/
structure Renews (d : RunningDataflow) (nodeId : NodeId) (d' : RunningDataflow) : Prop
    extends Quiet d d' where
  gone : d'.subscribeChannels[nodeId]? = none
  table : ∃ D ⊆ d.table.opened, (∀ key ∈ D, d.table.Mapped key) ∧ d'.table = d.table.renew nodeId D

theorem commitReplacement_renews (node : ResolvedNode) (entering : RunningNode)
    (hedges : ∀ entry ∈ (nodeInputs node).toList, ∀ mapping, entry.2.mapping = .user mapping →
      (⟨mapping.source, mapping.output⟩, (node.id, entry.1)) ∈ d.table.edges) :
    Renews d node.id (d.commitReplacement node entering) := by
  have hsent : Talk d (d.send node.id .stop).1 := d.send_talk node.id _ (by simp)
  dsimp only [commitReplacement]
  set sent := (d.send node.id .stop).1
  have hflows := hsent.toFlows.trans (sent.flows_eraseChannel node.id)
  refine
    { gate := hflows.gate
      channels := hflows.channels
      outbox := hsent.outbox
      gone := ?_
      table := ⟨{key | ∃ entry ∈ (nodeInputs node).toList,
        Rearmed (sent.openInputs.members node.id) entry ∧ key = (node.id, entry.1)}, ?_, ?_, ?_⟩ }
  · show (sent.subscribeChannels.erase node.id)[node.id]? = none
    simp
  · rintro key ⟨entry, -, hrearmed, rfl⟩
    rw [← hsent.table]
    exact hrearmed.2.2
  · rintro key ⟨entry, hentry, ⟨⟨mapping, hmapping⟩, -⟩, rfl⟩
    exact ⟨_, hedges entry hentry mapping hmapping⟩
  · rw [← hsent.table]
    ext k
    · rfl
    · rfl
    · simp [RunningDataflow.table, rearmDeadlines, forgetNodeBookkeeping, InputTable.renew,
        TreeMap.mem_filter]
    · refine (mem_rearmDeadlines (nodeInputs node) k).trans ?_
      simp [RunningDataflow.table, forgetNodeBookkeeping, InputTable.renew, TreeMap.mem_filter]
    · rfl

theorem replaceNode_renews {node : ResolvedNode} {restartPolicy : RestartPolicy}
    {order : List OutputId} {spawned : Except String Unit} {d' : RunningDataflow}
    (h : d.replaceNode node restartPolicy order spawned = .ok d') : Renews d node.id d' := by
  unfold replaceNode at h
  split at h
  · cases h
  · rename_i hcheck
    split at h
    · cases h
    · cases h
      have hedges : checkEdges (nodeInputs node) (d.currentEdges node.id order) = .ok () := by
        unfold checkReplacement at hcheck
        repeat' split at hcheck
        all_goals first
          | assumption
          | cases hcheck
      exact commitReplacement_renews node _ fun entry hentry mapping hmapping =>
        currentEdges_live order entry.1 mapping (hmapping ▸ checkEdges_user hedges hentry)

end Replacing

section Subscribing

variable (d : RunningDataflow) (now : Nat) (nodeId : NodeId)

/-- What a subscription does: it installs a new channel, on which a finished node with a data input
finds `AllInputsClosed` unless the replay of the closed inputs has filled it. -/
structure Installs (d : RunningDataflow) (nodeId : NodeId) (replayed : Nat) (d' : RunningDataflow) :
    Prop where
  gate : d'.timersGateDrain = d.timersGateDrain
  table : d'.table = d.table
  others : ∀ other, other ≠ nodeId → d'.subscribeChannels[other]? = d.subscribeChannels[other]?
  outbox : ∀ other, (other, .allInputsClosed) ∈ d'.outbox →
    (other, .allInputsClosed) ∈ d.outbox ∨
      other = nodeId ∧ d.table.Finished d.timersGateDrain nodeId
  greeted : replayed < NODE_EVENT_CHANNEL_CAPACITY → d.table.HasData nodeId →
    d.table.Finished d.timersGateDrain nodeId → ∀ channel,
    d'.subscribeChannels[nodeId]? = some channel → .allInputsClosed ∈ channel.log

theorem replayClosed_spec (inputs : List DataId) :
    Talk d (d.replayClosed nodeId inputs).1 ∧
      (d.replayClosed nodeId inputs).1.subscribeChannels = d.subscribeChannels ∧
      (d.replayClosed nodeId inputs).2.closed = false ∧
      NODE_EVENT_CHANNEL_CAPACITY ≤
        (d.replayClosed nodeId inputs).2.capacity + inputs.length := by
  -- one step of the fold, from any channel
  have hfold : ∀ (inputs : List DataId) (state : RunningDataflow × Channel),
      let final := inputs.foldl (fun state inputId =>
        let sent := RunningDataflow.sendOn state.1 state.2 nodeId (.inputClosed inputId)
        (sent.1, sent.2.1)) state
      Talk state.1 final.1 ∧ final.1.subscribeChannels = state.1.subscribeChannels ∧
        final.2.closed = state.2.closed ∧
        state.2.capacity ≤ final.2.capacity + inputs.length := by
    intro inputs
    induction inputs with
    | nil => exact fun state => ⟨.refl _, rfl, rfl, Nat.le_refl _⟩
    | cons inputId rest ih =>
      intro state
      obtain ⟨htalk, hchannels, hclosed, hcapacity⟩ := ih
        ((state.1.sendOn state.2 nodeId (.inputClosed inputId)).1,
          (state.1.sendOn state.2 nodeId (.inputClosed inputId)).2.1)
      have hsent := talk_sendOn state.1 nodeId (.inputClosed inputId) state.2 (by simp)
      refine ⟨hsent.trans htalk, hchannels.trans (by simp), hclosed.trans ?_, ?_⟩
      · rw [sendOn_channel]
        exact Channel.sendWithTimestamp_closed _ _
      · have hone : state.2.capacity ≤
            (state.1.sendOn state.2 nodeId (.inputClosed inputId)).2.1.capacity + 1 := by
          rw [sendOn_channel]
          exact Channel.capacity_sendWithTimestamp _ _
        rw [List.foldl_cons, List.length_cons]
        dsimp only at hcapacity ⊢
        omega
  exact hfold inputs (d, Channel.fresh)

theorem isFinishedNonSource_iff : d.isFinishedNonSource nodeId = true ↔
    d.table.Finished d.timersGateDrain nodeId ∧ d.table.HasData nodeId := by
  rw [isFinishedNonSource, Bool.and_eq_true, isFinished_iff, hasDataInput_iff]

structure Greets (d : RunningDataflow) (nodeId : NodeId) (channel : Channel)
    (state : RunningDataflow × Channel) : Prop where
  gate : state.1.timersGateDrain = d.timersGateDrain
  table : state.1.table = d.table
  channels : state.1.subscribeChannels = d.subscribeChannels
  outbox : ∀ other, (other, .allInputsClosed) ∈ state.1.outbox →
    (other, .allInputsClosed) ∈ d.outbox ∨
      other = nodeId ∧ d.table.Finished d.timersGateDrain nodeId
  greeted : 0 < channel.capacity → channel.closed = false → d.table.HasData nodeId →
    d.table.Finished d.timersGateDrain nodeId → .allInputsClosed ∈ state.2.log

theorem greetFinished_greets (channel : Channel) :
    Greets d nodeId channel (d.greetFinished now nodeId channel) := by
  dsimp only [greetFinished]
  split
  · rename_i hfinished
    rw [isFinishedNonSource_iff] at hfinished
    have houtbox : ∀ other,
        (other, .allInputsClosed) ∈ (d.sendOn channel nodeId .allInputsClosed).1.outbox →
        (other, .allInputsClosed) ∈ d.outbox ∨
          other = nodeId ∧ d.table.Finished d.timersGateDrain nodeId := by
      intro other hmem
      rcases d.sendOn_outbox nodeId .allInputsClosed channel with heq | heq
      · exact .inl (heq ▸ hmem)
      · rw [heq, List.mem_append, List.mem_singleton, Prod.mk.injEq] at hmem
        exact hmem.imp_right fun h => ⟨h.1, hfinished.1⟩
    -- an open channel with a free slot takes the announcement
    have hgreeted : 0 < channel.capacity → channel.closed = false →
        .allInputsClosed ∈ (d.sendOn channel nodeId .allInputsClosed).2.1.log := by
      intro hfree hopen
      rw [sendOn_channel, Channel.sendWithTimestamp_control rfl hopen hfree]
      simp [Channel.push]
    split
    · exact ⟨by simp, d.sendOn_table nodeId _ channel, by simp, houtbox,
        fun hfree hopen _ _ => hgreeted hfree hopen⟩
    · exact ⟨by simp, by simp, by simp, houtbox, fun hfree hopen _ _ => hgreeted hfree hopen⟩
  · rename_i hfinished
    rw [isFinishedNonSource_iff] at hfinished
    exact ⟨rfl, rfl, rfl, fun _ h => .inl h,
      fun _ _ hdata hfin => absurd ⟨hfin, hdata⟩ hfinished⟩

theorem greet_greets (channel : Channel) :
    Greets d nodeId channel (d.greet now nodeId channel) := by
  obtain ⟨htable, hgate, hchannels, houtbox⟩ := d.disableRestartIfDrained_same nodeId
  have hfinished := (d.disableRestartIfDrained nodeId).greetFinished_greets now nodeId channel
  dsimp only [greet]
  set state := (d.disableRestartIfDrained nodeId).greetFinished now nodeId channel
  have hstate : Greets d nodeId channel state := by
    obtain ⟨hgate', htable', hchannels', houtbox', hgreeted⟩ := hfinished
    rw [htable, hgate] at hgreeted
    rw [houtbox, htable, hgate] at houtbox'
    exact ⟨hgate'.trans hgate, htable'.trans htable, hchannels'.trans hchannels, houtbox', hgreeted⟩
  split
  · have hstop := talk_sendOn (state.1.disableRestart nodeId) nodeId .stop state.2 (by simp)
    refine ⟨(sendOn_gate _ _ _ _).trans hstate.gate, (sendOn_table _ _ _ _).trans hstate.table,
      (sendOn_channels _ _ _ _).trans hstate.channels,
      fun other hmem => hstate.outbox other (hstop.outbox other hmem), fun hfree hopen hdata hfin => ?_⟩
    rw [sendOn_channel]
    exact (state.2.log_prefix_sendWithTimestamp .stop).subset
      (hstate.greeted hfree hopen hdata hfin)
  · exact hstate

theorem install_installs {replayed greeted : RunningDataflow × Channel} {count : Nat}
    (htalk : Talk d replayed.1) (hchannels : replayed.1.subscribeChannels = d.subscribeChannels)
    (hclosed : replayed.2.closed = false)
    (hcapacity : NODE_EVENT_CHANNEL_CAPACITY ≤ replayed.2.capacity + count)
    (hgreets : Greets replayed.1 nodeId replayed.2 greeted) :
    Installs d nodeId count (greeted.1.install nodeId greeted.2) := by
  have hinsert : (greeted.1.install nodeId greeted.2).subscribeChannels =
      d.subscribeChannels.insert nodeId greeted.2 := by
    rw [install, hgreets.channels, hchannels]
  refine
    { gate := hgreets.gate.trans htalk.gate
      table := hgreets.table.trans htalk.table
      others := ?_
      outbox := ?_
      greeted := ?_ }
  · intro other hne
    rw [hinsert, TreeMap.getElem?_insert, if_neg]
    rw [LawfulEqCmp.compare_eq_iff_eq]
    exact hne.symm
  · intro other hmem
    have hout := hgreets.outbox other hmem
    rw [htalk.table, htalk.gate] at hout
    exact hout.imp_left (htalk.outbox other)
  · intro hroom hdata hfinished channel hget
    rw [hinsert, TreeMap.getElem?_insert_self, Option.some.injEq] at hget
    have hfree : 0 < replayed.2.capacity := by omega
    have hgreeted := hgreets.greeted hfree hclosed
    rw [htalk.table, htalk.gate, hget] at hgreeted
    exact hgreeted hdata hfinished

theorem subscribe_installs (order : List OutputId) :
    Installs d nodeId (d.closedInputs nodeId order).length (d.subscribe now nodeId order) := by
  let connected : RunningDataflow := { d with connectedNodes := d.connectedNodes.insert nodeId }
  have hconnected : Talk d connected := .of_eq rfl rfl rfl rfl
  obtain ⟨htalk, hchannels, hclosed, hcapacity⟩ :=
    connected.replayClosed_spec nodeId (connected.closedInputs nodeId order)
  exact install_installs d nodeId (hconnected.trans htalk) hchannels hclosed hcapacity
    (greet_greets _ now nodeId _)

end Subscribing

end RunningDataflow

end Dora
