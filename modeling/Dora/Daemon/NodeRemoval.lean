import Dora.Daemon.DataflowOps

/-!
# Removing a node (`binaries/daemon/src/coordinator_events.rs`)

`RemoveNode` closes what the node feeds and then takes the node out of every table that is kept for
it, so that a later node of the same id starts from nothing.
-/

namespace Dora

open Std

/-! ## 1. The tables -/

/-- `CascadingErrorCauses`: for a node that failed with others, the node that caused it. -/
abbrev CascadingErrorCauses := TreeMap NodeId NodeId

def CascadingErrorCauses.reportCascadingError (causes : CascadingErrorCauses)
    (report : NodeId × NodeId) : CascadingErrorCauses :=
  causes.insertIfNew report.2 report.1

/-- A running dataflow with two more of its tables: the causes of failures and the publishers declared
for other daemons. -/
structure DataflowTables where
  dataflow : RunningDataflow
  cascadingErrorCauses : CascadingErrorCauses
  publishers : TreeSet OutputId

/-- `RemoveNode`, with the other two tables and with what the startup barrier reports. -/
def DataflowTables.removeNode (t : DataflowTables) (now : Nat) (nodeId : NodeId)
    (order : List OutputId) (sender : CoordinatorSender) : DataflowTables × Except String Unit :=
  match t.dataflow.withdrawNode now nodeId order with
  | .error err => (t, .error err)
  | .ok d =>
    let causes := TreeMap.erase t.cascadingErrorCauses nodeId
    let (pendingNodes, outcome) := d.pendingNodes.handleNodeRemoval nodeId sender
    ({ dataflow := { d with pendingNodes := pendingNodes }
       cascadingErrorCauses :=
         outcome.cascading.foldl CascadingErrorCauses.reportCascadingError causes
       publishers := t.publishers.filter fun output => output.node != nodeId },
      outcome.status.map fun _ => ())

/-! ## 2. Traces of a node -/

structure NoTrace (nodeId : NodeId) (t : DataflowTables) : Prop where
  source : ∀ output ∈ t.dataflow.mappings, output.node ≠ nodeId
  receiver : ∀ output key, (output, key) ∈ t.dataflow.mappings.rel → key.1 ≠ nodeId
  timers : ∀ interval key, (interval, key) ∈ t.dataflow.timers.rel → key.1 ≠ nodeId
  logSubscribers : ∀ subscriber ∈ t.dataflow.logSubscribers, subscriber.nodeId ≠ nodeId
  runningNodes : nodeId ∉ t.dataflow.runningNodes
  openInputs : nodeId ∉ t.dataflow.openInputs
  dataInputs : nodeId ∉ t.dataflow.dataInputs
  dynamicNodes : nodeId ∉ t.dataflow.dynamicNodes
  subscribeChannels : nodeId ∉ t.dataflow.subscribeChannels
  pendingMessages : nodeId ∉ t.dataflow.pendingMessages
  drainSignals : nodeId ∉ t.dataflow.drainSignals
  allInputsClosedAt : nodeId ∉ t.dataflow.allInputsClosedAt
  connectedNodes : nodeId ∉ t.dataflow.connectedNodes
  finishEscalated : nodeId ∉ t.dataflow.finishEscalated
  inputDeadlines : ∀ key ∈ t.dataflow.inputDeadlines, key.1 ≠ nodeId
  brokenInputs : ∀ key ∈ t.dataflow.brokenInputs, key.1 ≠ nodeId
  missingChannelWarned : ∀ key ∈ t.dataflow.missingChannelWarned, key.1 ≠ nodeId
  droppedEventStreams : nodeId ∉ t.dataflow.droppedEventStreams
  cascadingErrorCauses : nodeId ∉ t.cascadingErrorCauses
  publishers : ∀ output ∈ t.publishers, output.node ≠ nodeId
  localNodes : nodeId ∉ t.dataflow.pendingNodes.localNodes
  cohort : nodeId ∉ t.dataflow.pendingNodes.cohort
  waitingSubscribers : nodeId ∉ t.dataflow.pendingNodes.waitingSubscribers
  exitedBeforeSubscribe : nodeId ∉ t.dataflow.pendingNodes.exitedBeforeSubscribe

/-! ## 3. Closing the outputs -/

namespace RunningDataflow

variable (d : RunningDataflow)

structure Unrouted (d d' : RunningDataflow) : Prop where
  mappings : d'.mappings = d.mappings
  dynamicNodes : d'.dynamicNodes = d.dynamicNodes
  pendingNodes : d'.pendingNodes = d.pendingNodes

theorem Unrouted.refl (d : RunningDataflow) : Unrouted d d := ⟨rfl, rfl, rfl⟩

theorem Unrouted.trans {d d' d'' : RunningDataflow} (h : Unrouted d d') (h' : Unrouted d' d'') :
    Unrouted d d'' :=
  ⟨h'.mappings.trans h.mappings, h'.dynamicNodes.trans h.dynamicNodes,
    h'.pendingNodes.trans h.pendingNodes⟩

theorem unrouted_send (nodeId : NodeId) (event : NodeEvent) : Unrouted d (d.send nodeId event).1 := by
  unfold send sendOn
  split
  · exact .refl d
  · dsimp only
    split <;> exact ⟨rfl, rfl, rfl⟩

theorem unrouted_signal (now : Nat) (nodeId : NodeId) :
    Unrouted d (d.signalAllInputsClosedIfDrained now nodeId) := by
  unfold signalAllInputsClosedIfDrained
  split
  · exact .refl d
  have hdisable : Unrouted d (d.disableRestartIfDrained nodeId) := by
    unfold disableRestartIfDrained
    split <;> exact ⟨rfl, rfl, rfl⟩
  refine hdisable.trans ?_
  unfold announceIfFinished
  split
  · have hsend := unrouted_send (d.disableRestartIfDrained nodeId) nodeId .allInputsClosed
    dsimp only
    split
    · exact ⟨hsend.mappings, hsend.dynamicNodes, hsend.pendingNodes⟩
    · exact hsend
  · exact .refl _

theorem unrouted_closeInput (now : Nat) (key : InputKey) : Unrouted d (closeInput now d key) := by
  have hdrop : Unrouted d (d.dropInput key) := ⟨rfl, rfl, rfl⟩
  unfold closeInput
  dsimp only
  split
  · exact hdrop
  · refine Unrouted.trans ?_ (unrouted_signal _ now key.1)
    split
    · exact hdrop.trans (unrouted_send _ _ _)
    · exact hdrop

theorem unrouted_closeInputs (now : Nat) (keys : List InputKey) :
    Unrouted d (d.closeInputs now keys) := by
  unfold closeInputs
  induction keys generalizing d with
  | nil => exact .refl d
  | cons key keys ih => exact (unrouted_closeInput d now key).trans (ih _)

theorem mem_mappings_removeOutputs (now : Nat) (outputs : List OutputId) (output : OutputId) :
    output ∈ (outputs.foldl (removeOutput now) d).mappings ↔
      output ∈ d.mappings ∧ output ∉ outputs := by
  induction outputs generalizing d with
  | nil => simp
  | cons first rest ih =>
    have hfirst : (removeOutput now d first).mappings = d.mappings.erase first :=
      (unrouted_closeInputs _ now _).mappings
    rw [List.foldl_cons, ih, hfirst, TreeMap.mem_erase, List.mem_cons, not_or, ne_eq,
      LawfulEqCmp.compare_eq_iff_eq]
    constructor
    · exact fun h => ⟨h.1.2, fun heq => h.1.1 heq.symm, h.2⟩
    · exact fun h => ⟨⟨fun heq => h.2.1 heq.symm, h.1⟩, h.2.2⟩

theorem removeOutputs_tables (now : Nat) (outputs : List OutputId) :
    (outputs.foldl (removeOutput now) d).dynamicNodes = d.dynamicNodes ∧
      (outputs.foldl (removeOutput now) d).pendingNodes = d.pendingNodes := by
  induction outputs generalizing d with
  | nil => exact ⟨rfl, rfl⟩
  | cons first rest ih =>
    have hfirst : Unrouted { d with mappings := d.mappings.erase first } (removeOutput now d first) :=
      unrouted_closeInputs _ now _
    rw [List.foldl_cons]
    exact ⟨(ih _).1.trans hfirst.dynamicNodes, (ih _).2.trans hfirst.pendingNodes⟩

end RunningDataflow

/-! ## 4. The startup barrier -/

namespace PendingNodes

structure Inherits (p : PendingNodes) (result : PendingNodes × BarrierOutcome) : Prop where
  localNodes : result.1.localNodes = p.localNodes
  cohort : result.1.cohort = p.cohort
  exitedBeforeSubscribe : result.1.exitedBeforeSubscribe = p.exitedBeforeSubscribe
  waitingSubscribers : ∀ nodeId ∈ result.1.waitingSubscribers, nodeId ∈ p.waitingSubscribers
  cascading : ∀ report ∈ result.2.cascading, report.2 ∈ p.waitingSubscribers

theorem Inherits.unchanged (p : PendingNodes) {outcome : BarrierOutcome}
    (hcascading : outcome.cascading = []) : Inherits p (p, outcome) :=
  ⟨rfl, rfl, rfl, fun _ hnode => hnode, fun _ hreport =>
    absurd (hcascading ▸ hreport) List.not_mem_nil⟩

variable (p : PendingNodes)

theorem inherits_answer (exitedExternal : List NodeId) {outcome : BarrierOutcome}
    (hcascading : outcome.cascading = (p.answerSubscribeRequests exitedExternal).2.2) :
    Inherits p ((p.answerSubscribeRequests exitedExternal).1, outcome) where
  localNodes := rfl
  cohort := rfl
  exitedBeforeSubscribe := rfl
  waitingSubscribers nodeId hnode := by
    have hnode : nodeId ∈ (∅ : TreeMap NodeId Nat) := hnode
    simp at hnode
  cascading report hreport := by
    rw [hcascading] at hreport
    unfold answerSubscribeRequests at hreport
    dsimp only at hreport
    split at hreport
    · obtain ⟨entry, hentry, rfl⟩ := List.mem_map.mp hreport
      have hmem := (List.mem_filter.mp hentry).1
      exact TreeMap.mem_iff_isSome_getElem?.mpr
        (by rw [TreeMap.mem_toList_iff_getElem?_eq_some.mp hmem]; rfl)
    · exact absurd hreport List.not_mem_nil

theorem inherits_followVerdict : Inherits p p.followVerdict := by
  unfold followVerdict
  split
  · exact inherits_answer p _ rfl
  · exact .unchanged p rfl

theorem inherits_updateDataflowStatus (sender : CoordinatorSender) :
    Inherits p (p.updateDataflowStatus sender) := by
  unfold updateDataflowStatus
  split
  · split
    · split
      · exact inherits_followVerdict p
      · split
        · exact .unchanged p rfl
        · have hfollow := inherits_followVerdict { p with reportedInitToCoordinator := true }
          exact ⟨hfollow.localNodes, hfollow.cohort, hfollow.exitedBeforeSubscribe,
            hfollow.waitingSubscribers, hfollow.cascading⟩
    · exact inherits_answer p _ rfl
  · exact .unchanged p rfl

theorem handleNodeRemoval_forgets (nodeId : NodeId) (sender : CoordinatorSender) :
    nodeId ∉ (p.handleNodeRemoval nodeId sender).1.localNodes ∧
      nodeId ∉ (p.handleNodeRemoval nodeId sender).1.cohort ∧
      nodeId ∉ (p.handleNodeRemoval nodeId sender).1.waitingSubscribers ∧
      nodeId ∉ (p.handleNodeRemoval nodeId sender).1.exitedBeforeSubscribe ∧
      ∀ report ∈ (p.handleNodeRemoval nodeId sender).2.cascading, report.2 ≠ nodeId := by
  have hwaiting : nodeId ∉ p.waitingSubscribers.erase nodeId := by simp
  unfold handleNodeRemoval
  have hinherits := inherits_updateDataflowStatus { p with
    localNodes := p.localNodes.erase nodeId
    cohort := p.cohort.erase nodeId
    waitingSubscribers := p.waitingSubscribers.erase nodeId
    exitedBeforeSubscribe := p.exitedBeforeSubscribe.filter (· ≠ nodeId) } sender
  refine ⟨?_, ?_, ?_, ?_, ?_⟩
  · rw [hinherits.localNodes]
    simp
  · rw [hinherits.cohort]
    simp
  · exact fun hmem => hwaiting (hinherits.waitingSubscribers nodeId hmem)
  · rw [hinherits.exitedBeforeSubscribe]
    simp
  · intro report hreport heq
    exact hwaiting (heq ▸ hinherits.cascading report hreport)

end PendingNodes

/-! ## 5. After the removal -/

theorem not_mem_reportCascadingErrors {nodeId : NodeId} (reports : List (NodeId × NodeId))
    (causes : CascadingErrorCauses) (hreports : ∀ report ∈ reports, report.2 ≠ nodeId)
    (hcauses : nodeId ∉ causes) :
    nodeId ∉ reports.foldl CascadingErrorCauses.reportCascadingError causes := by
  induction reports generalizing causes with
  | nil => exact hcauses
  | cons report reports ih =>
    refine ih _ (fun later hlater => hreports later (List.mem_cons_of_mem _ hlater)) ?_
    unfold CascadingErrorCauses.reportCascadingError
    rw [TreeMap.mem_insertIfNew, LawfulEqCmp.compare_eq_iff_eq, not_or]
    exact ⟨hreports report List.mem_cons_self, hcauses⟩

section Removed

variable {t : DataflowTables} {now : Nat} {nodeId : NodeId} {order : List OutputId}
  {sender : CoordinatorSender}

theorem dynamicNodes_removeNode :
    (t.removeNode now nodeId order sender).1.dataflow.dynamicNodes = t.dataflow.dynamicNodes := by
  unfold DataflowTables.removeNode RunningDataflow.withdrawNode
  cases hstopped : t.dataflow.stopSingleNode nodeId with
  | error => rfl
  | ok d =>
    unfold RunningDataflow.stopSingleNode at hstopped
    split at hstopped
    · cases hstopped
    · have hd : d.dynamicNodes = t.dataflow.dynamicNodes := by
        rw [← Except.ok.inj hstopped]
        exact (RunningDataflow.unrouted_send _ nodeId .stop).dynamicNodes
      exact (RunningDataflow.removeOutputs_tables d now _).1.trans hd

theorem noTrace_removeNode (hok : (t.removeNode now nodeId order sender).2 = .ok ())
    (hdynamic : nodeId ∉ t.dataflow.dynamicNodes) :
    NoTrace nodeId (t.removeNode now nodeId order sender).1 := by
  have hkept : nodeId ∉ (t.removeNode now nodeId order sender).1.dataflow.dynamicNodes := by
    rw [dynamicNodes_removeNode]
    exact hdynamic
  unfold DataflowTables.removeNode RunningDataflow.withdrawNode at hok hkept ⊢
  cases hstopped : t.dataflow.stopSingleNode nodeId with
  | error =>
    rw [hstopped] at hok
    cases hok
  | ok d =>
    rw [hstopped] at hkept
    dsimp only [Except.map] at hkept ⊢
    generalize houtputs : (Lib.inOrder order d.mappings.keys).filter
      (fun output => output.node == nodeId) = outputs at hkept ⊢
    have hsources := d.mem_mappings_removeOutputs now outputs
    generalize outputs.foldl (RunningDataflow.removeOutput now) d = closed at hsources hkept ⊢
    have hbarrier := (closed.purgeNode nodeId).pendingNodes.handleNodeRemoval_forgets nodeId sender
    exact {
      source := by
        intro output houtput hnode
        have hmem : output ∈ closed.mappings := by
          have houtput : output ∈ closed.mappings.retain fun key => key.1 != nodeId := houtput
          unfold Lib.MultiMap.retain at houtput
          simpa using houtput
        have hlisted : output ∈ outputs := by
          rw [← houtputs, List.mem_filter, Lib.mem_inOrder, TreeMap.mem_keys]
          exact ⟨((hsources output).mp hmem).1, beq_iff_eq.mpr hnode⟩
        exact ((hsources output).mp hmem).2 hlisted
      receiver := by
        intro output key hkey
        have hkey : (output, key) ∈ (closed.mappings.retain fun key => key.1 != nodeId).rel := hkey
        rw [Lib.MultiMap.rel_retain] at hkey
        exact bne_iff_ne.mp hkey.2
      timers := by
        intro interval key hkey
        have hkey := Lib.MultiMap.rel_filter_subset hkey
        rw [Lib.MultiMap.rel_retain] at hkey
        exact bne_iff_ne.mp hkey.2
      logSubscribers := fun subscriber hsubscriber =>
        bne_iff_ne.mp (List.mem_filter.mp hsubscriber).2
      runningNodes := Lib.not_mem_erase closed.runningNodes nodeId
      openInputs := Lib.not_mem_erase closed.openInputs nodeId
      dataInputs := Lib.not_mem_erase closed.dataInputs nodeId
      dynamicNodes := hkept
      subscribeChannels := Lib.not_mem_erase closed.subscribeChannels nodeId
      pendingMessages := Lib.not_mem_erase closed.pendingMessages nodeId
      drainSignals := Lib.not_mem_erase closed.drainSignals nodeId
      allInputsClosedAt := Lib.not_mem_erase closed.allInputsClosedAt nodeId
      connectedNodes := Lib.not_mem_eraseSet closed.connectedNodes nodeId
      finishEscalated := Lib.not_mem_eraseSet closed.finishEscalated nodeId
      inputDeadlines := fun key hkey =>
        bne_iff_ne.mp (Lib.of_mem_filter (p := fun key : InputKey => key.1 != nodeId) hkey)
      brokenInputs := fun key hkey =>
        bne_iff_ne.mp (Lib.of_mem_filter (p := fun key : InputKey => key.1 != nodeId) hkey)
      missingChannelWarned := fun key hkey =>
        bne_iff_ne.mp (Lib.of_mem_filterSet (p := fun key : InputKey => key.1 != nodeId) hkey)
      droppedEventStreams := Lib.not_mem_eraseSet closed.droppedEventStreams nodeId
      cascadingErrorCauses :=
        not_mem_reportCascadingErrors _ _ hbarrier.2.2.2.2
          (Lib.not_mem_erase t.cascadingErrorCauses nodeId)
      publishers := fun output houtput =>
        bne_iff_ne.mp (Lib.of_mem_filterSet (p := fun output : OutputId => output.node != nodeId)
          houtput)
      localNodes := hbarrier.1
      cohort := hbarrier.2.1
      waitingSubscribers := hbarrier.2.2.1
      exitedBeforeSubscribe := hbarrier.2.2.2.1 }

end Removed

/-! ## 6. Adding a node of the same id -/

structure Classified (node : ResolvedNode) (d : RunningDataflow) : Prop where
  dynamicNodes : node.id ∈ d.dynamicNodes ↔ node.kind.dynamic = true
  openInputs : ∀ input, (node.id, input) ∈ d.openInputs.rel ↔ input ∈ nodeInputs node
  dataInputs : ∀ input, (node.id, input) ∈ d.dataInputs.rel ↔
    ∃ entry ∈ (nodeInputs node).toList, entry.1 = input ∧ ∃ mapping, entry.2.mapping = .user mapping
  receives : ∀ output input, (output, (node.id, input)) ∈ d.mappings.rel ↔
    ∃ entry ∈ (nodeInputs node).toList, entry.1 = input ∧
      entry.2.mapping = .user ⟨output.node, output.output⟩
  timers : ∀ interval input, (interval, (node.id, input)) ∈ d.timers.rel ↔
    ∃ entry ∈ (nodeInputs node).toList, entry.1 = input ∧ entry.2.mapping = .timer interval
  logSubscribers : ∀ subscriber ∈ d.logSubscribers, subscriber.nodeId = node.id →
    ∃ entry ∈ (nodeInputs node).toList, entry.1 = subscriber.inputId ∧
      entry.2.mapping = .logs subscriber.filter
  subscribeChannels : node.id ∉ d.subscribeChannels
  allInputsClosedAt : node.id ∉ d.allInputsClosedAt
  connectedNodes : node.id ∉ d.connectedNodes
  finishEscalated : node.id ∉ d.finishEscalated
  brokenInputs : ∀ key ∈ d.brokenInputs, key.1 ≠ node.id
  localNodes : node.id ∉ d.pendingNodes.localNodes
  cohort : node.id ∉ d.pendingNodes.cohort

namespace RunningDataflow

theorem rel_registerInputs {X : Type} (nodeId : NodeId) (table : RunningDataflow → Set X)
    (added : DataId × Input → Set X)
    (hstep : ∀ d entry, table (registerInput nodeId d entry) = table d ∪ added entry)
    (entries : List (DataId × Input)) (d : RunningDataflow) :
    table (entries.foldl (registerInput nodeId) d) =
      table d ∪ {x | ∃ entry ∈ entries, x ∈ added entry} := by
  induction entries generalizing d with
  | nil => simp
  | cons entry entries ih =>
    rw [List.foldl_cons, ih, hstep]
    ext x
    simp [or_assoc]

structure SameNodes (d d' : RunningDataflow) : Prop where
  dynamicNodes : d'.dynamicNodes = d.dynamicNodes
  subscribeChannels : d'.subscribeChannels = d.subscribeChannels
  allInputsClosedAt : d'.allInputsClosedAt = d.allInputsClosedAt
  connectedNodes : d'.connectedNodes = d.connectedNodes
  finishEscalated : d'.finishEscalated = d.finishEscalated
  brokenInputs : d'.brokenInputs = d.brokenInputs
  pendingNodes : d'.pendingNodes = d.pendingNodes

theorem sameNodes_registerInputs (nodeId : NodeId) (entries : List (DataId × Input))
    (d : RunningDataflow) : SameNodes d (entries.foldl (registerInput nodeId) d) := by
  induction entries generalizing d with
  | nil => exact ⟨rfl, rfl, rfl, rfl, rfl, rfl, rfl⟩
  | cons entry entries ih =>
    have hstep : SameNodes d (registerInput nodeId d entry) := by
      unfold registerInput
      dsimp only
      split <;> exact ⟨rfl, rfl, rfl, rfl, rfl, rfl, rfl⟩
    have hrest := ih (registerInput nodeId d entry)
    exact ⟨hrest.dynamicNodes.trans hstep.dynamicNodes,
      hrest.subscribeChannels.trans hstep.subscribeChannels,
      hrest.allInputsClosedAt.trans hstep.allInputsClosedAt,
      hrest.connectedNodes.trans hstep.connectedNodes,
      hrest.finishEscalated.trans hstep.finishEscalated,
      hrest.brokenInputs.trans hstep.brokenInputs,
      hrest.pendingNodes.trans hstep.pendingNodes⟩

variable (nodeId : NodeId) (entries : List (DataId × Input)) (d : RunningDataflow)

theorem openInputs_registerInputs :
    (entries.foldl (registerInput nodeId) d).openInputs.rel =
      d.openInputs.rel ∪ {pair | ∃ entry ∈ entries, pair ∈ ({(nodeId, entry.1)} : Set _)} := by
  refine rel_registerInputs nodeId (fun d => d.openInputs.rel) _ (fun d entry => ?_) entries d
  have hopen : (registerInput nodeId d entry).openInputs = d.openInputs.add nodeId entry.1 := by
    unfold registerInput
    dsimp only
    split <;> rfl
  rw [hopen, Lib.MultiMap.rel_add, Set.union_singleton]

theorem dataInputs_registerInputs :
    (entries.foldl (registerInput nodeId) d).dataInputs.rel =
      d.dataInputs.rel ∪ {pair | ∃ entry ∈ entries,
        pair ∈ {pair | pair = (nodeId, entry.1) ∧ ∃ mapping, entry.2.mapping = .user mapping}} := by
  refine rel_registerInputs nodeId (fun d => d.dataInputs.rel) _ (fun d entry => ?_) entries d
  unfold registerInput
  dsimp only
  split <;> (rename_i hmapping; ext pair; simp [hmapping])

theorem mappings_registerInputs :
    (entries.foldl (registerInput nodeId) d).mappings.rel =
      d.mappings.rel ∪ {pair | ∃ entry ∈ entries,
        pair ∈ {pair | pair.2 = (nodeId, entry.1) ∧
          entry.2.mapping = .user ⟨pair.1.node, pair.1.output⟩}} := by
  refine rel_registerInputs nodeId (fun d => d.mappings.rel) _ (fun d entry => ?_) entries d
  unfold registerInput
  dsimp only
  split
  · rename_i mapping hmapping
    refine Lib.MultiMap.rel_add_eq_union (m := d.mappings)
      (P := fun output => entry.2.mapping = .user ⟨output.node, output.output⟩) fun output => ?_
    cases output
    cases mapping
    simp [hmapping, eq_comm]
  all_goals (rename_i hmapping; ext pair; simp [hmapping])

theorem timers_registerInputs :
    (entries.foldl (registerInput nodeId) d).timers.rel =
      d.timers.rel ∪ {pair | ∃ entry ∈ entries,
        pair ∈ {pair | pair.2 = (nodeId, entry.1) ∧ entry.2.mapping = .timer pair.1}} := by
  refine rel_registerInputs nodeId (fun d => d.timers.rel) _ (fun d entry => ?_) entries d
  unfold registerInput
  dsimp only
  split
  · rename_i mapping hmapping
    ext pair
    simp [hmapping]
  · rename_i interval hmapping
    exact Lib.MultiMap.rel_add_eq_union (m := d.timers)
      (P := fun interval' => entry.2.mapping = .timer interval') fun interval' => by simp [hmapping, eq_comm]
  · rename_i filter hmapping
    ext pair
    simp [hmapping]

theorem logSubscribers_registerInputs :
    {subscriber | subscriber ∈ (entries.foldl (registerInput nodeId) d).logSubscribers} =
      {subscriber | subscriber ∈ d.logSubscribers} ∪ {subscriber | ∃ entry ∈ entries,
        subscriber ∈ {subscriber | subscriber.nodeId = nodeId ∧ subscriber.inputId = entry.1 ∧
          entry.2.mapping = .logs subscriber.filter}} := by
  refine rel_registerInputs nodeId (fun d => {subscriber | subscriber ∈ d.logSubscribers}) _
    (fun d entry => ?_) entries d
  unfold registerInput
  dsimp only
  split
  · rename_i mapping hmapping
    ext subscriber
    simp [hmapping]
  · rename_i interval hmapping
    ext subscriber
    simp [hmapping]
  · rename_i filter hmapping
    ext subscriber
    rw [Set.mem_union, hmapping]
    simp only [Set.mem_ofPred_eq, List.mem_append, List.mem_singleton, InputMapping.logs.injEq]
    refine or_congr_right ⟨?_, ?_⟩
    · rintro rfl
      exact ⟨rfl, rfl, rfl⟩
    · intro h
      cases subscriber
      obtain ⟨rfl, rfl, rfl⟩ := h
      rfl

end RunningDataflow

theorem addNode_eq_ok {d d' : RunningDataflow} {node : ResolvedNode} {restartPolicy : RestartPolicy}
    {spawned : Except String Unit} (h : d.addNode node restartPolicy spawned = .ok d') :
    d' = { d.registerInputs node.id (nodeInputs node) with
      dynamicNodes :=
        if node.kind.dynamic then
          (d.registerInputs node.id (nodeInputs node)).dynamicNodes.insert node.id
        else (d.registerInputs node.id (nodeInputs node)).dynamicNodes
      runningNodes := (d.registerInputs node.id (nodeInputs node)).runningNodes.insert node.id
        (d.enteringNode node restartPolicy) } := by
  unfold RunningDataflow.addNode at h
  split at h
  · cases h
  split at h
  · cases h
  · exact (Except.ok.inj h).symm

theorem registered_iff {nodeId : NodeId} {input : DataId} {entries : List (DataId × Input)}
    {P : DataId × Input → Prop} {old : Prop} (hold : ¬old) :
    (old ∨ ∃ entry ∈ entries, (nodeId, input) = (nodeId, entry.1) ∧ P entry) ↔
      ∃ entry ∈ entries, entry.1 = input ∧ P entry := by
  rw [or_iff_right hold]
  simp only [Prod.mk.injEq, true_and, eq_comm]

theorem classified_addNode {t : DataflowTables} {node : ResolvedNode} (h : NoTrace node.id t)
    {restartPolicy : RestartPolicy} {spawned : Except String Unit} {d' : RunningDataflow}
    (hadd : t.dataflow.addNode node restartPolicy spawned = .ok d') : Classified node d' := by
  have hsame := RunningDataflow.sameNodes_registerInputs node.id (nodeInputs node).toList t.dataflow
  rw [addNode_eq_ok hadd]
  refine {
    dynamicNodes := ?_
    openInputs := ?_
    dataInputs := ?_
    receives := ?_
    timers := ?_
    logSubscribers := ?_
    subscribeChannels := fun hmem => h.subscribeChannels (hsame.subscribeChannels ▸ hmem)
    allInputsClosedAt := fun hmem => h.allInputsClosedAt (hsame.allInputsClosedAt ▸ hmem)
    connectedNodes := fun hmem => h.connectedNodes (hsame.connectedNodes ▸ hmem)
    finishEscalated := fun hmem => h.finishEscalated (hsame.finishEscalated ▸ hmem)
    brokenInputs := fun key hmem => h.brokenInputs key (hsame.brokenInputs ▸ hmem)
    localNodes := fun hmem => h.localNodes (hsame.pendingNodes ▸ hmem)
    cohort := fun hmem => h.cohort (hsame.pendingNodes ▸ hmem) }
  · have hkept : node.id ∉ (t.dataflow.registerInputs node.id (nodeInputs node)).dynamicNodes :=
      fun hmem => h.dynamicNodes (hsame.dynamicNodes ▸ hmem)
    cases hdynamic : node.kind.dynamic with
    | true => simp
    | false => simpa using hkept
  · intro input
    show (node.id, input) ∈ (RunningDataflow.registerInputs _ _ _).openInputs.rel ↔ _
    unfold RunningDataflow.registerInputs
    rw [RunningDataflow.openInputs_registerInputs, Set.mem_union, ← TreeMap.mem_keys,
      ← TreeMap.map_fst_toList_eq_keys, List.mem_map]
    constructor
    · intro hmem
      cases hmem with
      | inl hold => exact absurd (Lib.MultiMap.mem_of_mem_rel hold) h.openInputs
      | inr hnew =>
        obtain ⟨entry, hentry, heq⟩ := hnew
        exact ⟨entry, hentry, (congrArg Prod.snd heq).symm⟩
    · intro hmem
      obtain ⟨entry, hentry, rfl⟩ := hmem
      exact Or.inr ⟨entry, hentry, rfl⟩
  · intro input
    show (node.id, input) ∈ (RunningDataflow.registerInputs _ _ _).dataInputs.rel ↔ _
    unfold RunningDataflow.registerInputs
    rw [RunningDataflow.dataInputs_registerInputs, Set.mem_union]
    exact registered_iff fun hold => h.dataInputs (Lib.MultiMap.mem_of_mem_rel hold)
  · intro output input
    show (output, (node.id, input)) ∈ (RunningDataflow.registerInputs _ _ _).mappings.rel ↔ _
    unfold RunningDataflow.registerInputs
    rw [RunningDataflow.mappings_registerInputs, Set.mem_union]
    exact registered_iff fun hold => h.receiver output _ hold rfl
  · intro interval input
    show (interval, (node.id, input)) ∈ (RunningDataflow.registerInputs _ _ _).timers.rel ↔ _
    unfold RunningDataflow.registerInputs
    rw [RunningDataflow.timers_registerInputs, Set.mem_union]
    exact registered_iff fun hold => h.timers interval _ hold rfl
  · intro subscriber hsubscriber hnode
    have hmem : subscriber ∈ {subscriber | subscriber ∈
        ((nodeInputs node).toList.foldl (RunningDataflow.registerInput node.id)
          t.dataflow).logSubscribers} := hsubscriber
    rw [RunningDataflow.logSubscribers_registerInputs, Set.mem_union] at hmem
    cases hmem with
    | inl hold => exact absurd hnode (h.logSubscribers subscriber hold)
    | inr hnew =>
      obtain ⟨entry, hentry, -, hinput, hmapping⟩ := hnew
      exact ⟨entry, hentry, hinput.symm, hmapping⟩

/-- After a successful `RemoveNode` no table mentions the node, and a node added under its id is
classified by its own definition, iff the removed node was not listed as dynamic. -/
theorem remove_node_leaves_no_trace_iff (t : DataflowTables) (now : Nat) (nodeId : NodeId)
    (order : List OutputId) (sender : CoordinatorSender)
    (hok : (t.removeNode now nodeId order sender).2 = .ok ()) :
    (NoTrace nodeId (t.removeNode now nodeId order sender).1 ∧
      ∀ node restartPolicy spawned d', node.id = nodeId →
        (t.removeNode now nodeId order sender).1.dataflow.addNode node restartPolicy spawned =
          .ok d' → Classified node d') ↔
      nodeId ∉ t.dataflow.dynamicNodes := by
  constructor
  · intro h
    have hdynamic := h.1.dynamicNodes
    rw [dynamicNodes_removeNode] at hdynamic
    exact hdynamic
  · intro hdynamic
    have hnone := noTrace_removeNode hok hdynamic
    refine ⟨hnone, fun node restartPolicy spawned d' hid hadd => ?_⟩
    subst hid
    exact classified_addNode hnone hadd

def loneDynamic : DataflowTables where
  dataflow := { RunningDataflow.new "flow" false true with
    dynamicNodes := {⟨"sink"⟩}
    runningNodes := {(⟨"sink"⟩, {
      process := false
      dynamic := true
      inputs := ∅
      outputRouting := none
      restartPolicy := .never })} }
  cascadingErrorCauses := ∅
  publishers := ∅

/-- A process that reads a camera and a timer and feeds a plot, and has subscribed. -/
def wiredSink : DataflowTables where
  dataflow := (Lib.run RunningDataflow.apply (RunningDataflow.new "flow" false true)
    [.addNode
      { id := ⟨"sink"⟩
        kind := .custom { source := .local, path := "sink", runConfig :=
          { inputs := {(⟨"image"⟩, ⟨.user ⟨⟨"camera"⟩, ⟨"image"⟩⟩, none, none, none⟩),
              (⟨"tick"⟩, ⟨.timer 1000000000, none, none, none⟩)}
            outputs := {⟨"frame"⟩} } } } .never (.ok ()),
      .addMapping ⟨⟨"sink"⟩, ⟨"frame"⟩⟩ (⟨"plot"⟩, ⟨"frame"⟩),
      .subscribe 0 ⟨"sink"⟩ [] 0 none]).1
  cascadingErrorCauses := {(⟨"sink"⟩, ⟨"camera"⟩)}
  publishers := {⟨⟨"sink"⟩, ⟨"frame"⟩⟩}

theorem remove_node_leaves_no_trace_spawned :
    (wiredSink.dataflow.timers.isEmpty = false ∧ wiredSink.dataflow.mappings.size = 2 ∧
      wiredSink.dataflow.subscribeChannels.contains ⟨"sink"⟩ = true) ∧
    (wiredSink.removeNode 0 ⟨"sink"⟩ [] none).2 = .ok () ∧
      NoTrace ⟨"sink"⟩ (wiredSink.removeNode 0 ⟨"sink"⟩ [] none).1 := by
  have hok : (wiredSink.removeNode 0 ⟨"sink"⟩ [] none).2 = .ok () := by decide +kernel
  have hdynamic : (⟨"sink"⟩ : NodeId) ∉ wiredSink.dataflow.dynamicNodes := by decide +kernel
  exact ⟨by decide +kernel, hok,
    ((remove_node_leaves_no_trace_iff wiredSink 0 ⟨"sink"⟩ [] none hok).mpr hdynamic).1⟩

def spawnedSink : ResolvedNode where
  id := ⟨"sink"⟩
  kind := .custom { source := .local, path := "sink", runConfig := { inputs := ∅, outputs := ∅ } }

/-- The removed node stays listed as dynamic, and so does the process added under its id: it cannot be
replaced because it is taken for a dynamic node. -/
theorem dynamic_marker_survives_removal :
    (loneDynamic.removeNode 0 ⟨"sink"⟩ [] none).2 = .ok () ∧
      (loneDynamic.removeNode 0 ⟨"sink"⟩ [] none).1.dataflow.dynamicNodes.contains ⟨"sink"⟩ = true ∧
      spawnedSink.kind.dynamic = false ∧
      (((loneDynamic.removeNode 0 ⟨"sink"⟩ [] none).1.dataflow.addNode spawnedSink .never
        (.ok ())).bind fun d => d.checkReplacement spawnedSink []) =
        .error ("node `sink` is a dynamic node; `dora node replace` currently supports spawned " ++
          "custom nodes only — use `dora node remove` + `dora node add` instead") :=
  ⟨by rfl, by rfl, by rfl, by decide +kernel⟩

end Dora
