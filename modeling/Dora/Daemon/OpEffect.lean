import Dora.Daemon.GraphMoves

/-!
# What one operation does to the inputs

Every operation on a running dataflow has one of seven effects on its input table. The invariants
are proved by cases on the effect, so that no later proof looks at the handlers again.
-/

namespace Dora

open Std

namespace DataflowOp

def closes (d : RunningDataflow) : DataflowOp → List InputKey
  | .removeNode _ nodeId order _ =>
    if d.runningNodes.contains nodeId then d.affectedInputs nodeId order else []
  | .removeMapping _ output key => if (d.mappings.members output).contains key then [key] else []
  | .closeOutputs _ nodeId outputs _ =>
    if d.mightRestart nodeId then [] else (d.localReceivers nodeId outputs).toList
  | .outputsDone _ nodeId _ =>
    if d.mightRestart nodeId then []
    else (d.localReceivers nodeId (d.nodeOutputIds nodeId).toList).toList
  | .nodeStop _ nodeId sender _ =>
    match (d.pendingNodes.handleNodeStop nodeId sender).2.status with
    | .error _ => []
    | .ok _ => (d.localReceivers nodeId (d.nodeOutputIds nodeId).toList).toList
  | .outputClosed _ output => (d.mappings.members output).toList
  | _ => []

def ends (e : Edge) : DataflowOp → Prop
  | .removeNode _ nodeId _ _ => e.1.node = nodeId ∨ e.2.1 = nodeId
  | .removeMapping _ output key => e = (output, key)
  | .closeOutputs _ nodeId outputs _ => e.1.node = nodeId ∧ e.1.output ∈ outputs
  | .outputsDone _ nodeId _ | .nodeStop _ nodeId _ _ => e.1.node = nodeId
  | .outputClosed _ output => e.1 = output
  | _ => False

def removes : DataflowOp → Option NodeId
  | .removeNode _ nodeId _ _ => some nodeId
  | _ => none

def opens (d : RunningDataflow) : DataflowOp → List InputKey
  | .addNode node _ spawned =>
    match d.rejectUnpinnableBackpressureInputs node.id (nodeInputs node), spawned with
    | .ok (), .ok () => inputKeys node.id (nodeInputs node)
    | _, _ => []
  | .addMapping _ key => [key]
  | _ => []

def replaces (d : RunningDataflow) : DataflowOp → Option NodeId
  | .replaceNode node _ order (.ok ()) =>
    match d.checkReplacement node order with
    | .ok () => some node.id
    | .error _ => none
  | _ => none

def subscribes (d : RunningDataflow) : DataflowOp → Option (NodeId × Nat)
  | .subscribe _ nodeId order _ _ => some (nodeId, (d.closedInputs nodeId order).length)
  | _ => none

end DataflowOp

namespace RunningDataflow

inductive Effect (d : RunningDataflow) (op : DataflowOp) : RunningDataflow × OpOutcome → Prop where
  | talk {d' : RunningDataflow} {outcome : OpOutcome} (htalk : Talk d d')
      (hlinked : outcome.linked = []) : Effect d op (d', outcome)
  | recover {d' : RunningDataflow} {outcome : OpOutcome} (hrecovers : Recovers d d')
      (hlinked : outcome.linked = []) : Effect d op (d', outcome)
  | expire {d' : RunningDataflow} {outcome : OpOutcome} (hquiet : Quiet d d') (K : Set InputKey)
      (hK : K ⊆ d.table.deadlines) (htable : d'.table = d.table.expire K)
      (hlinked : outcome.linked = []) : Effect d op (d', outcome)
  | register {d' : RunningDataflow} {outcome : OpOutcome} (hmute : Mute d d')
      (hregisters : InputTable.Registers d.table d'.table {e | e ∈ outcome.linked}
        {key | key ∈ op.opens d}) : Effect d op (d', outcome)
  | renew {d' : RunningDataflow} {outcome : OpOutcome} (nodeId : NodeId)
      (hreplaces : op.replaces d = some nodeId) (hrenews : Renews d nodeId d')
      (hlinked : outcome.linked = []) : Effect d op (d', outcome)
  | install {d' : RunningDataflow} {outcome : OpOutcome} (nodeId : NodeId) (replayed : Nat)
      (hsubscribes : op.subscribes d = some (nodeId, replayed))
      (hinstalls : Installs d nodeId replayed d') (hlinked : outcome.linked = []) :
      Effect d op (d', outcome)
  /-- Edges that end here and stay in the routing table lead out of a closed output. -/
  | close {d' : RunningDataflow} {outcome : OpOutcome}
      (hrun : ClosingRun op.removes {key | key ∈ op.closes d} d d')
      (hgone : ∀ nodeId, op.removes = some nodeId → d'.subscribeChannels[nodeId]? = none)
      (hends : ∀ e ∈ d'.table.edges, op.ends e → e.1 ∈ outcome.closed)
      (hlinked : outcome.linked = []) : Effect d op (d', outcome)

section ApplyEffect

variable (d : RunningDataflow)

theorem effect_unchanged (op : DataflowOp) {outcome : OpOutcome} (hlinked : outcome.linked = []) :
    Effect d op (d, outcome) := .talk (.refl d) hlinked

theorem addNode_effect (node : ResolvedNode) (restartPolicy : RestartPolicy)
    (spawned : Except String Unit) :
    Effect d (.addNode node restartPolicy spawned) (d.apply (.addNode node restartPolicy spawned)) := by
  show Effect d _ (d.orUnchanged _ _)
  cases h : d.addNode node restartPolicy spawned with
  | error => exact d.effect_unchanged _ rfl
  | ok d' =>
    obtain ⟨hmute, hregisters⟩ := d.addNode_registers h
    have hopens : DataflowOp.opens d (.addNode node restartPolicy spawned) =
        inputKeys node.id (nodeInputs node) := by
      unfold addNode at h
      split at h
      · cases h
      · rename_i hreject
        split at h
        · cases h
        · simp [DataflowOp.opens, hreject]
    exact .register hmute (by rw [hopens]; exact hregisters)

theorem removeNode_effect (now : Nat) (nodeId : NodeId) (order : List OutputId)
    (sender : CoordinatorSender) :
    Effect d (.removeNode now nodeId order sender) (d.apply (.removeNode now nodeId order sender)) := by
  by_cases hnode : nodeId ∈ d.runningNodes
  · obtain ⟨hrun, hgone, hedges⟩ := d.removeNode_closing now nodeId order sender hnode
    refine .close ?_ (fun other hother => ?_) (fun e he hends => ?_) rfl
    · rw [DataflowOp.closes, if_pos (TreeMap.mem_iff_contains.mp hnode)]
      exact hrun
    · cases hother
      exact hgone
    · rcases hends with hfrom | hinto
      · exact absurd hfrom (hedges e he).1
      · exact absurd hinto (hedges e he).2
  · have hget : d.runningNodes[nodeId]? = none := TreeMap.getElem?_eq_none hnode
    have herror : (d.removeNode now nodeId order sender).1 = d := by
      simp only [removeNode, withdrawNode, stopSingleNode, hget]
      rfl
    have htalk : Talk d (d.removeNode now nodeId order sender).1 := by
      rw [herror]
      exact .refl d
    exact .talk htalk rfl

theorem replaceNode_effect (node : ResolvedNode) (restartPolicy : RestartPolicy)
    (order : List OutputId) (spawned : Except String Unit) :
    Effect d (.replaceNode node restartPolicy order spawned)
      (d.apply (.replaceNode node restartPolicy order spawned)) := by
  show Effect d _ (d.orUnchanged _ _)
  cases h : d.replaceNode node restartPolicy order spawned with
  | error => exact d.effect_unchanged _ rfl
  | ok d' =>
    refine .renew node.id ?_ (replaceNode_renews h) rfl
    unfold replaceNode at h
    split at h
    · cases h
    · rename_i hcheck
      split at h
      · cases h
      · simp [DataflowOp.replaces, hcheck]

theorem removeMapping_effect (now : Nat) (output : OutputId) (key : InputKey) :
    Effect d (.removeMapping now output key) (d.apply (.removeMapping now output key)) := by
  show Effect d _ (d.orUnchanged _ _)
  cases h : d.removeMapping now output key with
  | error => exact d.effect_unchanged _ rfl
  | ok d' =>
    obtain ⟨hclosing, hedges⟩ := d.removeMapping_closing now h
    have hcloses : DataflowOp.closes d (.removeMapping now output key) = [key] := by
      unfold removeMapping at h
      split at h
      · rename_i hmem
        rw [DataflowOp.closes, if_pos hmem]
      · cases h
    refine .close ?_ nofun (fun e he hends => ?_) rfl
    · rw [hcloses]
      simpa using Relation.ReflTransGen.single hclosing
    · rw [hedges] at he
      exact absurd hends he.2

theorem sendOutputClosedEvents_effect {op : DataflowOp} {outcome : OpOutcome} (now : Nat)
    (nodeId : NodeId) (outputs : List DataId)
    (hcloses : op.closes d = (d.localReceivers nodeId outputs).toList) (hremoves : op.removes = none)
    (hends : ∀ e ∈ d.table.edges, op.ends e → e.1 ∈ outcome.closed)
    (hlinked : outcome.linked = []) :
    Effect d op (d.closeInputs now (d.localReceivers nodeId outputs).toList, outcome) := by
  refine .close (.single (d.closing_closeInputs now _ ?_)) ?_ ?_ hlinked
  · rw [hcloses]
    exact fun key hkey => hkey
  · rw [hremoves]
    nofun
  · intro e he
    rw [closeInputs_table] at he
    exact hends e he

theorem closeOutputs_effect (now : Nat) (nodeId : NodeId) (outputs : List DataId)
    (remote : Except String Unit) :
    Effect d (.closeOutputs now nodeId outputs remote)
      (d.apply (.closeOutputs now nodeId outputs remote)) := by
  dsimp only [apply]
  split
  · exact d.effect_unchanged _ rfl
  · rename_i hrestart
    rw [sendOutputClosedEvents_fst]
    refine d.sendOutputClosedEvents_effect now nodeId outputs ?_ rfl ?_ rfl
    · rw [DataflowOp.closes, if_neg hrestart]
    · intro e _ hends
      exact List.mem_map.mpr ⟨e.1.output, hends.2, by rw [← hends.1]⟩

theorem mem_outputsOf_nodeOutputIds {nodeId : NodeId} {e : Edge} (he : e ∈ d.table.edges)
    (hnode : e.1.node = nodeId) : e.1 ∈ outputsOf nodeId (d.nodeOutputIds nodeId).toList := by
  refine List.mem_map.mpr ⟨e.1.output, ?_, by rw [← hnode]⟩
  rw [TreeSet.mem_toList, nodeOutputIds, TreeSet.mem_ofList, List.contains_eq_mem,
    decide_eq_true_eq, List.mem_map]
  refine ⟨e.1, ?_, rfl⟩
  rw [List.mem_filter, List.mem_append, TreeMap.mem_keys, beq_iff_eq]
  exact ⟨.inl (d.mem_mappings_of_edge he), hnode⟩

theorem outputsDone_effect (now : Nat) (nodeId : NodeId) (remote : Except String Unit) :
    Effect d (.outputsDone now nodeId remote) (d.apply (.outputsDone now nodeId remote)) := by
  dsimp only [apply]
  split
  · exact d.effect_unchanged _ rfl
  · rename_i hrestart
    rw [sendOutputClosedEvents_fst]
    refine d.sendOutputClosedEvents_effect now nodeId _ ?_ rfl ?_ rfl
    · rw [DataflowOp.closes, if_neg hrestart]
    · exact fun e he hends => d.mem_outputsOf_nodeOutputIds he hends

theorem forgetStopped_closing {leaving : Option NodeId} {K : Set InputKey} (nodeId : NodeId) :
    Closing leaving K d (d.forgetStopped nodeId) ∧ (d.forgetStopped nodeId).table = d.table :=
  ⟨.talk (.of_eq rfl rfl rfl rfl) fun _ _ => rfl, rfl⟩

theorem closeStopped_closing {leaving : Option NodeId} {K : Set InputKey} (now : Nat)
    (nodeId : NodeId) (remote : Except String Unit) :
    Closing leaving K
        (d.closeInputs now (d.localReceivers nodeId (d.nodeOutputIds nodeId).toList).toList)
        (d.closeStopped now nodeId remote).1 ∧
      (d.closeStopped now nodeId remote).1.table =
        (d.closeInputs now (d.localReceivers nodeId (d.nodeOutputIds nodeId).toList).toList).table := by
  rw [← d.sendOutputClosedEvents_fst now nodeId _ remote]
  dsimp only [closeStopped]
  split
  · exact ⟨.talk (.refl _) fun _ _ => rfl, rfl⟩
  · exact forgetStopped_closing _ nodeId

theorem nodeStop_effect (now : Nat) (nodeId : NodeId) (sender : CoordinatorSender)
    (remote : Except String Unit) :
    Effect d (.nodeStop now nodeId sender remote) (d.apply (.nodeStop now nodeId sender remote)) := by
  let stopped : RunningDataflow := { d with
    pendingNodes := (d.pendingNodes.handleNodeStop nodeId sender).1 }
  have htalk : Talk d stopped := .of_eq rfl rfl rfl rfl
  dsimp only [apply]
  cases hstatus : (d.pendingNodes.handleNodeStop nodeId sender).2.status with
  | error err =>
    have hstop : d.handleNodeStop now nodeId sender remote = (stopped, .error err, []) := by
      simp only [handleNodeStop, hstatus, stopped]
    rw [hstop]
    exact .talk htalk rfl
  | ok =>
    have hstop : d.handleNodeStop now nodeId sender remote =
        stopped.closeStopped now nodeId remote := by
      simp only [handleNodeStop, hstatus, stopped]
    have hcloses : DataflowOp.closes d (.nodeStop now nodeId sender remote) =
        (d.localReceivers nodeId (d.nodeOutputIds nodeId).toList).toList := by
      simp only [DataflowOp.closes, hstatus]
    obtain ⟨hlast, hlastTable⟩ := @closeStopped_closing stopped none
      {key | key ∈ DataflowOp.closes d (.nodeStop now nodeId sender remote)} now nodeId remote
    have hclosing := @closing_closeInputs stopped now none
      {key | key ∈ DataflowOp.closes d (.nodeStop now nodeId sender remote)}
      (d.localReceivers nodeId (d.nodeOutputIds nodeId).toList).toList
      (by rw [hcloses]; exact fun _ h => h)
    rw [hstop]
    have hfirst : Closing none
        {key | key ∈ DataflowOp.closes d (.nodeStop now nodeId sender remote)} d stopped :=
      .talk htalk fun _ _ => rfl
    refine .close (.tail (.tail (.single hfirst) hclosing) hlast) nofun ?_ rfl
    intro e he hends
    rw [hlastTable, closeInputs_table] at he
    exact d.mem_outputsOf_nodeOutputIds he hends

theorem outputClosed_effect (now : Nat) (output : OutputId) :
    Effect d (.outputClosed now output) (d.apply (.outputClosed now output)) := by
  refine .close (.single (d.closing_closeInputs now _ fun _ h => h)) nofun ?_ rfl
  intro e _ hends
  rw [show e.1 = output from hends]
  exact List.mem_singleton_self output

theorem subscribe_effect (now : Nat) (nodeId : NodeId) (order : List OutputId) (reply : Nat)
    (sender : CoordinatorSender) :
    Effect d (.subscribe now nodeId order reply sender)
      (d.apply (.subscribe now nodeId order reply sender)) := by
  let start : RunningDataflow := { d with
    pendingMessages := d.pendingMessages.insert nodeId 0
    drainSignals := d.drainSignals.insert nodeId {} }
  have hinstalls := start.subscribe_installs now nodeId order
  dsimp only [apply]
  generalize start.subscribe now nodeId order = subscribed at hinstalls ⊢
  refine .install nodeId (d.closedInputs nodeId order).length rfl ?_ rfl
  exact ⟨hinstalls.gate, hinstalls.table, hinstalls.others, hinstalls.outbox, hinstalls.greeted⟩

theorem orUnchanged_linked (result : Except String RunningDataflow) :
    (d.orUnchanged result []).2.linked = [] := by
  cases result <;> rfl

theorem apply_talk_linked {op : DataflowOp} (htalks : op.talks = true) :
    (d.apply op).2.linked = [] := by
  cases op with
  | stopNode | restartNode => exact d.orUnchanged_linked _
  | _ => first
    | rfl
    | cases htalks

theorem apply_effect (hconsistent : d.table.Consistent) (op : DataflowOp) :
    Effect d op (d.apply op) := by
  by_cases htalks : op.talks = true
  · exact .talk (d.apply_talk htalks) (d.apply_talk_linked htalks)
  · cases op with
    | addNode node restartPolicy spawned => exact d.addNode_effect node restartPolicy spawned
    | removeNode now nodeId order sender => exact d.removeNode_effect now nodeId order sender
    | replaceNode node restartPolicy order spawned =>
      exact d.replaceNode_effect node restartPolicy order spawned
    | addMapping output key =>
      refine .register ⟨rfl, rfl, rfl⟩ ?_
      have hregisters := d.addMapping_registers output key
      simpa [DataflowOp.opens] using hregisters
    | removeMapping now output key => exact d.removeMapping_effect now output key
    | subscribe now nodeId order reply sender => exact d.subscribe_effect now nodeId order reply sender
    | closeOutputs now nodeId outputs remote => exact d.closeOutputs_effect now nodeId outputs remote
    | outputsDone now nodeId remote => exact d.outputsDone_effect now nodeId remote
    | sendOut now output metadata data mayHold =>
      exact .recover (d.sendOutput_recovers now output metadata data mayHold) rfl
    | outputSent now output => exact .recover (d.noteOutputSent_recovers now output) rfl
    | nodeStop now nodeId sender remote => exact d.nodeStop_effect now nodeId sender remote
    | outputClosed now output => exact d.outputClosed_effect now output
    | checkInputTimeouts now order =>
      obtain ⟨hquiet, K, hK, htable⟩ := d.checkInputTimeouts_expires now order hconsistent
      exact .expire hquiet K hK htable rfl
    | _ => exact absurd rfl htalks

end ApplyEffect

end RunningDataflow

end Dora
