import Dora.Daemon.RunningDataflow
import Dora.Lib.Loop
import Dora.Lib.Worklist

/-!
# Nodes that block the end of a dataflow (`finish_stragglers`)

A dataflow is otherwise finished when every running node is draining or has gone silent. The watchdog
then picks the nodes that have been so for longer than their grace, apart from those that still wait for
or write to another daemon. The map of mappings is a hash map: `order` is the order of its iteration.
-/

namespace Dora

open Std Lib Relation

namespace RunningDataflow

variable (d : RunningDataflow)

/-! ### The nodes behind open remote edges -/

def openReceivers (outputs : List OutputId) : List NodeId :=
  outputs.flatMap fun output =>
    ((d.mappings.members output).toList.filter fun key =>
      (d.openInputs.members key.1).contains key.2).map Prod.fst

/-- The search at the start of its loop: the producers of open external outputs are in the queue, the
receivers of producers that do not run here are also found. -/
def remoteRoots (order : List OutputId) : Search NodeId :=
  (d.openReceivers ((inOrder order d.mappings.keys).filter fun output =>
    !d.runningNodes.contains output.node)).foldl Search.mark
      ((d.openExternalMappings.toList.map OutputId.node).foldl Search.push {})

def remoteNext (order : List OutputId) (producer : NodeId) : List NodeId :=
  d.openReceivers ((inOrder order d.mappings.keys).filter fun output => output.node == producer)

/-- The loop; the fuel is one round for each receiver and each producer that starts in the queue. -/
def remoteSearch (order : List OutputId) : Search NodeId :=
  let roots := d.remoteRoots order
  Search.explore (d.remoteNext order)
    ((d.openReceivers (inOrder order d.mappings.keys)).length + roots.queue.length) roots

def nodesBlockedByOpenRemoteEdges (order : List OutputId) : TreeSet NodeId :=
  (d.remoteSearch order).found

def OpenEdge (producer receiver : NodeId) : Prop :=
  ∃ output input, (⟨producer, output⟩, (receiver, input)) ∈ d.mappings.rel ∧
    (receiver, input) ∈ d.openInputs.rel

def ReceiverRoot (receiver : NodeId) : Prop :=
  ∃ producer, producer ∉ d.runningNodes ∧ d.OpenEdge producer receiver

def ProducerRoot (producer : NodeId) : Prop :=
  ∃ output, ⟨producer, output⟩ ∈ d.openExternalMappings

variable {d} {order : List OutputId}

variable {producer receiver : NodeId}

theorem mem_openReceivers {p : OutputId → Bool} :
    receiver ∈ d.openReceivers ((inOrder order d.mappings.keys).filter p) ↔
      ∃ output input, p output = true ∧ (output, (receiver, input)) ∈ d.mappings.rel ∧
        (receiver, input) ∈ d.openInputs.rel := by
  simp only [openReceivers, List.mem_flatMap, List.mem_map, List.mem_filter, mem_inOrder,
    TreeMap.mem_keys, TreeSet.mem_toList, TreeSet.contains_iff_mem, MultiMap.mem_rel]
  constructor
  · rintro ⟨output, ⟨-, hp⟩, ⟨r, input⟩, ⟨hmapped, hopen⟩, rfl⟩
    exact ⟨output, input, hp, hmapped, hopen⟩
  · rintro ⟨output, input, hp, hmapped, hopen⟩
    exact ⟨output, ⟨MultiMap.mem_of_mem_rel hmapped, hp⟩, (receiver, input), ⟨hmapped, hopen⟩, rfl⟩

theorem mem_remoteNext :
    receiver ∈ d.remoteNext order producer ↔ d.OpenEdge producer receiver := by
  rw [remoteNext, mem_openReceivers]
  constructor
  · rintro ⟨⟨source, output⟩, input, hsource, hmapped, hopen⟩
    rw [beq_iff_eq] at hsource
    subst hsource
    exact ⟨output, input, hmapped, hopen⟩
  · rintro ⟨output, input, hmapped, hopen⟩
    exact ⟨⟨producer, output⟩, input, beq_self_eq_true _, hmapped, hopen⟩

theorem mem_receiverRoots :
    receiver ∈ d.openReceivers ((inOrder order d.mappings.keys).filter fun output =>
      !d.runningNodes.contains output.node) ↔ d.ReceiverRoot receiver := by
  rw [mem_openReceivers]
  constructor
  · rintro ⟨⟨producer, output⟩, input, hgone, hmapped, hopen⟩
    refine ⟨producer, ?_, output, input, hmapped, hopen⟩
    rwa [Bool.not_eq_true', ← Bool.not_eq_true, TreeMap.contains_iff_mem] at hgone
  · rintro ⟨producer, hgone, output, input, hmapped, hopen⟩
    refine ⟨⟨producer, output⟩, input, ?_, hmapped, hopen⟩
    rwa [Bool.not_eq_true', ← Bool.not_eq_true, TreeMap.contains_iff_mem]

theorem mem_producerRoots :
    producer ∈ d.openExternalMappings.toList.map OutputId.node ↔ d.ProducerRoot producer := by
  rw [List.mem_map]
  constructor
  · rintro ⟨⟨source, output⟩, hmem, rfl⟩
    exact ⟨output, TreeSet.mem_toList.mp hmem⟩
  · rintro ⟨output, hmem⟩
    exact ⟨⟨producer, output⟩, TreeSet.mem_toList.mpr hmem, rfl⟩

theorem remoteRoots_spec (d : RunningDataflow) (order : List OutputId) :
    (∀ n, n ∈ (d.remoteRoots order).found ↔ d.ReceiverRoot n) ∧
      (∀ n, n ∈ (d.remoteRoots order).visited ↔ d.ProducerRoot n ∨ d.ReceiverRoot n) ∧
      ∀ n, n ∈ (d.remoteRoots order).queue ↔ n ∈ (d.remoteRoots order).visited := by
  have hproducers := Search.pushed_foldl_push (d.openExternalMappings.toList.map OutputId.node)
    ({} : Search NodeId)
  have hunfound : ((d.openExternalMappings.toList.map OutputId.node).foldl Search.push
      ({} : Search NodeId)).found = ∅ := by
    apply foldl_view_eq Search.found
    intro s a
    unfold Search.push
    split <;> rfl
  obtain ⟨hreceivers, hfound⟩ := Search.foldl_mark
    (d.openReceivers ((inOrder order d.mappings.keys).filter fun output =>
      !d.runningNodes.contains output.node))
    ((d.openExternalMappings.toList.map OutputId.node).foldl Search.push {})
  refine ⟨fun n => ?_, fun n => ?_, ?_⟩
  · rw [remoteRoots, hfound, hunfound, mem_receiverRoots]
    simp
  · rw [remoteRoots, hreceivers.visited, hproducers.visited, mem_receiverRoots, mem_producerRoots]
    simp
  · apply hreceivers.queue_iff_visited
    apply hproducers.queue_iff_visited
    simp

theorem remoteSearch_ended (d : RunningDataflow) (order : List OutputId) :
    Search.Searching (d.remoteNext order) (d.remoteRoots order) (d.remoteSearch order) ∧
      (d.remoteSearch order).queue = [] := by
  obtain ⟨hfound, hvisited, hqueue⟩ := remoteRoots_spec d order
  have hroots : ∀ n ∈ (d.remoteRoots order).found, n ∈ (d.remoteRoots order).visited := by
    intro n hn
    exact (hvisited n).mpr (.inr ((hfound n).mp hn))
  have hstart : Search.Searching (d.remoteNext order) (d.remoteRoots order) (d.remoteRoots order) :=
    ⟨fun n hn => .inl hn, fun n hn => .inl hn, fun n hn => hn, fun n hn => hn, hroots,
      fun n hn hnot => absurd ((hqueue n).mpr hn) hnot⟩
  refine Search.explore_ends (d.openReceivers (inOrder order d.mappings.keys)).toFinset ?_
    hroots _ ?_ hstart fun n hn => (hqueue n).mp hn
  · intro producer receiver hnext
    rw [List.mem_toFinset, ← List.filter_true (inOrder order d.mappings.keys), mem_openReceivers]
    obtain ⟨output, input, hmapped, hopen⟩ := mem_remoteNext.mp hnext
    exact ⟨⟨producer, output⟩, input, rfl, hmapped, hopen⟩
  · refine Nat.add_le_add_right ?_ _
    exact (Finset.card_filter_le _ _).trans (List.toFinset_card_le _)

theorem mem_nodesBlockedByOpenRemoteEdges {n : NodeId} :
    n ∈ d.nodesBlockedByOpenRemoteEdges order ↔
      (∃ root, d.ReceiverRoot root ∧ ReflTransGen d.OpenEdge root n) ∨
        ∃ root, d.ProducerRoot root ∧ TransGen d.OpenEdge root n := by
  obtain ⟨hsearch, hended⟩ := remoteSearch_ended d order
  have hedge : Search.Edge (d.remoteNext order) = d.OpenEdge := by
    ext producer receiver
    exact mem_remoteNext
  obtain ⟨hfound, hvisited, -⟩ := remoteRoots_spec d order
  rw [nodesBlockedByOpenRemoteEdges, hsearch.mem_found hended, Search.Reachable, hedge, hfound]
  simp only [hvisited]
  constructor
  · rintro (hroot | ⟨root, hroot | hroot, hpath⟩)
    · exact .inl ⟨n, hroot, .refl⟩
    · exact .inr ⟨root, hroot, hpath⟩
    · exact .inl ⟨root, hroot, hpath.to_reflTransGen⟩
  · rintro (⟨root, hroot, hpath⟩ | ⟨root, hroot, hpath⟩)
    · rcases reflTransGen_iff_eq_or_transGen.mp hpath with rfl | hpath
      · exact .inl hroot
      · exact .inr ⟨root, .inr hroot, hpath⟩
    · exact .inr ⟨root, .inl hroot, hpath⟩

/-- The loop ends with an empty queue, in whatever order the mappings are iterated, and what it returns are
the nodes that a chain of open mappings leads to: from a receiver of a producer that does not run here,
that receiver included, or from a producer with an open external output. -/
theorem remote_blocked_set_exact (d : RunningDataflow) (order : List OutputId) :
    (d.remoteSearch order).queue = [] ∧
      ∀ n, n ∈ d.nodesBlockedByOpenRemoteEdges order ↔
        (∃ root, d.ReceiverRoot root ∧ ReflTransGen d.OpenEdge root n) ∨
          ∃ root, d.ProducerRoot root ∧ TransGen d.OpenEdge root n :=
  ⟨(remoteSearch_ended d order).2, fun _ => mem_nodesBlockedByOpenRemoteEdges⟩

end RunningDataflow

/-! ### Selection -/

structure StragglerNode where
  id : NodeId
  dynamic : Bool
  neverFinishes : Bool
  connected : Bool
  /-- `none` if the node never reached drain. -/
  drainedFor : Option Duration
  silentFor : Duration
  nodeGrace : Option Duration
  remoteOutputOpen : Bool
  blockedByRemoteOutputChain : Bool

namespace StragglerNode

variable (grace : Duration) (node : StragglerNode)

def effectiveGrace : Duration := node.nodeGrace.getD grace

def Quiescent : Prop :=
  node.neverFinishes = false ∧
    (node.drainedFor.isSome = true ∨ node.connected = true ∧ node.effectiveGrace grace ≤ node.silentFor)

def PastGrace : Prop :=
  match node.drainedFor with
  | some drainedFor => node.effectiveGrace grace ≤ drainedFor
  | none => node.connected = true ∧ node.effectiveGrace grace ≤ node.silentFor

def Eligible : Prop :=
  node.dynamic = false ∧ node.PastGrace grace ∧ node.remoteOutputOpen = false ∧
    node.blockedByRemoteOutputChain = false

end StragglerNode

/-- The loop of `select_finish_stragglers`; `none` is its early return with nothing. -/
def collectEligible (grace : Duration) : List StragglerNode → List NodeId → Option (List NodeId)
  | [], eligible => some eligible
  | node :: nodes, eligible =>
    if node.dynamic then collectEligible grace nodes eligible
    else if node.neverFinishes then none
    else
      let effectiveGrace := node.effectiveGrace grace
      match node.drainedFor with
      | some drainedFor =>
        if drainedFor ≥ effectiveGrace ∧ !node.remoteOutputOpen ∧ !node.blockedByRemoteOutputChain then
          collectEligible grace nodes (eligible ++ [node.id])
        else collectEligible grace nodes eligible
      | none =>
        if node.connected ∧ node.silentFor ≥ effectiveGrace then
          if !node.remoteOutputOpen ∧ !node.blockedByRemoteOutputChain then
            collectEligible grace nodes (eligible ++ [node.id])
          else collectEligible grace nodes eligible
        else none

def selectFinishStragglers (nodes : List StragglerNode) (alreadyEscalated : TreeSet NodeId)
    (grace : Duration) : List NodeId :=
  match collectEligible grace nodes [] with
  | some eligible => eligible.filter fun id => !alreadyEscalated.contains id
  | none => []

theorem collectEligible_cons (grace : Duration) (node : StragglerNode) (nodes : List StragglerNode)
    (eligible : List NodeId) :
    (¬(node.dynamic = false → node.Quiescent grace) ∧
        collectEligible grace (node :: nodes) eligible = none) ∨
      (node.dynamic = false → node.Quiescent grace) ∧
        ((node.Eligible grace ∧ collectEligible grace (node :: nodes) eligible =
            collectEligible grace nodes (eligible ++ [node.id])) ∨
          (¬node.Eligible grace ∧
            collectEligible grace (node :: nodes) eligible = collectEligible grace nodes eligible)) := by
  rw [collectEligible]
  unfold StragglerNode.Eligible StragglerNode.PastGrace StragglerNode.Quiescent
  cases node.dynamic <;> cases node.neverFinishes <;> cases node.remoteOutputOpen <;>
    cases node.blockedByRemoteOutputChain <;> cases node.connected <;> cases node.drainedFor <;>
    simp <;> grind

theorem mem_collectEligible (grace : Duration) (nodes : List StragglerNode) (eligible : List NodeId)
    (n : NodeId) :
    (∃ ids ∈ collectEligible grace nodes eligible, n ∈ ids) ↔
      (∀ node ∈ nodes, node.dynamic = false → node.Quiescent grace) ∧
        (n ∈ eligible ∨ ∃ node ∈ nodes, node.id = n ∧ node.Eligible grace) := by
  induction nodes generalizing eligible with
  | nil => simp [collectEligible]
  | cons node nodes ih =>
    rcases collectEligible_cons grace node nodes eligible with
      ⟨hveto, hnone⟩ | ⟨hquiet, ⟨heligible, heq⟩ | ⟨hnot, heq⟩⟩
    · rw [hnone]
      simp [hveto]
    · rw [heq, ih]
      simp only [List.forall_mem_cons, List.exists_mem_cons_iff, List.mem_append, List.mem_singleton]
      constructor
      · rintro ⟨hall, (hn | rfl) | hlater⟩
        · exact ⟨⟨hquiet, hall⟩, .inl hn⟩
        · exact ⟨⟨hquiet, hall⟩, .inr (.inl ⟨rfl, heligible⟩)⟩
        · exact ⟨⟨hquiet, hall⟩, .inr (.inr hlater)⟩
      · rintro ⟨⟨-, hall⟩, hn | ⟨rfl, -⟩ | hlater⟩
        · exact ⟨hall, .inl (.inl hn)⟩
        · exact ⟨hall, .inl (.inr rfl)⟩
        · exact ⟨hall, .inr hlater⟩
    · rw [heq, ih]
      simp only [List.forall_mem_cons, List.exists_mem_cons_iff]
      constructor
      · rintro ⟨hall, hn⟩
        exact ⟨⟨hquiet, hall⟩, hn.imp_right .inr⟩
      · rintro ⟨⟨-, hall⟩, hn⟩
        exact ⟨hall, hn.imp_right fun h => h.resolve_left fun h => hnot h.2⟩

theorem mem_selectFinishStragglers {nodes : List StragglerNode} {escalated : TreeSet NodeId}
    {grace : Duration} {n : NodeId} :
    n ∈ selectFinishStragglers nodes escalated grace ↔
      (∀ node ∈ nodes, node.dynamic = false → node.Quiescent grace) ∧
        (∃ node ∈ nodes, node.id = n ∧ node.Eligible grace) ∧ n ∉ escalated := by
  have hcollect := mem_collectEligible grace nodes [] n
  simp only [List.not_mem_nil, false_or] at hcollect
  rw [← and_assoc, ← hcollect]
  unfold selectFinishStragglers
  split
  next ids hids =>
    simp only [hids, Option.mem_def, Option.some.injEq, exists_eq_left', List.mem_filter,
      Bool.not_eq_true', ← Bool.not_eq_true, TreeSet.contains_iff_mem]
  next hids => simp [hids]

namespace RunningDataflow

variable (d : RunningDataflow)

def nodeNeverFinishes (nodeId : NodeId) : Bool :=
  if !d.timersGateDrain && d.isDrained nodeId then false
  else
    !d.hasDataInput nodeId ||
      d.timers.values.any (fun receivers => receivers.toList.any fun key => key.1 == nodeId) ||
      d.logSubscribers.any fun subscriber => subscriber.nodeId == nodeId

/-- The clocks, and what the watchdog reads of a node besides its state: when it was last heard of and its
own grace. -/
structure Watch where
  now : Nat
  nowMillis : Nat
  lastActivity : NodeId → Nat
  finishGraceSecs : NodeId → Option Duration

/-- `node` as `select_finish_stragglers` sees it. -/
def stragglerNode (watch : Watch) (blocked : TreeSet NodeId) (id : NodeId) (node : RunningNode) :
    StragglerNode where
  id := id
  dynamic := node.dynamic
  neverFinishes := d.nodeNeverFinishes id
  connected := d.connectedNodes.contains id
  drainedFor := d.allInputsClosedAt[id]?.map (watch.now - ·)
  silentFor := (watch.nowMillis - watch.lastActivity id) * 1000000
  nodeGrace := watch.finishGraceSecs id
  remoteOutputOpen := d.openExternalMappings.toList.any fun output => output.node == id
  blockedByRemoteOutputChain := blocked.contains id

def finishStragglers (order : List OutputId) (watch : Watch) (grace : Duration) : List NodeId :=
  if d.stopSent then []
  else
    let remoteBlockedNodes := d.nodesBlockedByOpenRemoteEdges order
    selectFinishStragglers
      (d.runningNodes.toList.map fun entry =>
        d.stragglerNode watch remoteBlockedNodes entry.1 entry.2)
      d.finishEscalated grace

def graceOf (watch : Watch) (grace : Duration) (id : NodeId) : Duration :=
  (watch.finishGraceSecs id).getD grace

def Silent (watch : Watch) (grace : Duration) (id : NodeId) : Prop :=
  id ∈ d.connectedNodes ∧
    graceOf watch grace id ≤ (watch.nowMillis - watch.lastActivity id) * 1000000

def Overdue (watch : Watch) (grace : Duration) (id : NodeId) : Prop :=
  (∃ since, d.allInputsClosedAt[id]? = some since ∧ graceOf watch grace id ≤ watch.now - since) ∨
    id ∉ d.allInputsClosedAt ∧ d.Silent watch grace id

/-- Exactly when a node is selected. The first part is about the running nodes together: the dataflow is
not being stopped, and of those that are not dynamic none never finishes and every one is draining or
silent. The second is about the node. -/
structure Selected (order : List OutputId) (watch : Watch) (grace : Duration) (n : NodeId) : Prop where
  running : d.stopSent = false
  finishing : ∀ id node, d.runningNodes[id]? = some node → node.dynamic = false →
    d.nodeNeverFinishes id = false ∧ (id ∈ d.allInputsClosedAt ∨ d.Silent watch grace id)
  node : ∃ node, d.runningNodes[n]? = some node ∧ node.dynamic = false
  overdue : d.Overdue watch grace n
  fresh : n ∉ d.finishEscalated
  unexported : ¬d.ProducerRoot n
  unblocked : n ∉ d.nodesBlockedByOpenRemoteEdges order

variable {d} {order : List OutputId} {watch : Watch} {grace : Duration} {id n : NodeId}

variable {node : RunningNode}

theorem quiescent_stragglerNode {blocked : TreeSet NodeId} :
    (d.stragglerNode watch blocked id node).Quiescent grace ↔
      d.nodeNeverFinishes id = false ∧ (id ∈ d.allInputsClosedAt ∨ d.Silent watch grace id) := by
  unfold StragglerNode.Quiescent Silent graceOf StragglerNode.effectiveGrace stragglerNode
  dsimp only
  rw [Option.isSome_map, ← TreeMap.mem_iff_isSome_getElem?, TreeSet.contains_iff_mem]

theorem pastGrace_stragglerNode {blocked : TreeSet NodeId} :
    (d.stragglerNode watch blocked id node).PastGrace grace ↔ d.Overdue watch grace id := by
  unfold StragglerNode.PastGrace Overdue Silent graceOf StragglerNode.effectiveGrace stragglerNode
  dsimp only
  rw [TreeMap.mem_iff_isSome_getElem?]
  cases d.allInputsClosedAt[id]? with
  | none | some => simp

theorem eligible_stragglerNode :
    (d.stragglerNode watch (d.nodesBlockedByOpenRemoteEdges order) id node).Eligible grace ↔
      node.dynamic = false ∧ d.Overdue watch grace id ∧ ¬d.ProducerRoot id ∧
        id ∉ d.nodesBlockedByOpenRemoteEdges order := by
  unfold StragglerNode.Eligible
  rw [pastGrace_stragglerNode]
  refine and_congr Iff.rfl (and_congr_right fun _ => and_congr ?_ ?_)
  · rw [← mem_producerRoots, ← Bool.not_eq_true]
    simp [stragglerNode]
  · rw [← Bool.not_eq_true]
    simp [stragglerNode, TreeSet.contains_iff_mem]

theorem mem_finishStragglers : n ∈ d.finishStragglers order watch grace ↔
    d.Selected order watch grace n := by
  unfold finishStragglers
  by_cases hstop : d.stopSent = true
  · rw [if_pos hstop]
    exact ⟨nofun, fun h => absurd (hstop.symm.trans h.running) (by decide)⟩
  · rw [if_neg hstop, mem_selectFinishStragglers]
    have hmem : ∀ straggler : StragglerNode, straggler ∈ (d.runningNodes.toList.map fun entry =>
        d.stragglerNode watch (d.nodesBlockedByOpenRemoteEdges order) entry.1 entry.2) ↔
        ∃ (id : NodeId) (node : RunningNode), d.runningNodes[id]? = some node ∧
          d.stragglerNode watch (d.nodesBlockedByOpenRemoteEdges order) id node = straggler := by
      simp [TreeMap.mem_toList_iff_getElem?_eq_some]
    constructor
    · rintro ⟨hall, ⟨straggler, hstraggler, rfl, heligible⟩, hfresh⟩
      obtain ⟨id, node, hnode, rfl⟩ := (hmem straggler).mp hstraggler
      obtain ⟨hdynamic, hoverdue, hlocal, hblocked⟩ := eligible_stragglerNode.mp heligible
      refine ⟨by simpa using hstop, ?_, ⟨node, hnode, hdynamic⟩, hoverdue, hfresh, hlocal, hblocked⟩
      intro id' node' hnode' hdynamic'
      exact quiescent_stragglerNode.mp (hall _ ((hmem _).mpr ⟨id', node', hnode', rfl⟩) hdynamic')
    · rintro ⟨-, hall, ⟨node, hnode, hdynamic⟩, hoverdue, hfresh, hlocal, hblocked⟩
      refine ⟨?_, ⟨_, (hmem _).mpr ⟨n, node, hnode, rfl⟩, rfl, ?_⟩, hfresh⟩
      · intro straggler hstraggler hstatic
        obtain ⟨id', node', hnode', rfl⟩ := (hmem straggler).mp hstraggler
        exact quiescent_stragglerNode.mpr (hall id' node' hnode' hstatic)
      · exact eligible_stragglerNode.mpr ⟨hdynamic, hoverdue, hlocal, hblocked⟩

/-- A node is selected exactly if `Selected` says so, and the selection depends neither on the order in
which the mappings are iterated nor on that of the running nodes. -/
theorem finish_stragglers_exact (d : RunningDataflow) (order : List OutputId) (watch : Watch)
    (grace : Duration) :
    (∀ n, n ∈ d.finishStragglers order watch grace ↔ d.Selected order watch grace n) ∧
      (∀ order' n, n ∈ d.finishStragglers order' watch grace ↔
        n ∈ d.finishStragglers order watch grace) ∧
      ∀ nodes nodes' : List StragglerNode, nodes'.Perm nodes → ∀ n,
        n ∈ selectFinishStragglers nodes' d.finishEscalated grace ↔
          n ∈ selectFinishStragglers nodes d.finishEscalated grace := by
  refine ⟨fun n => mem_finishStragglers, fun order' n => ?_, fun nodes nodes' hperm n => ?_⟩
  · have hblocked : n ∈ d.nodesBlockedByOpenRemoteEdges order' ↔
        n ∈ d.nodesBlockedByOpenRemoteEdges order := by
      rw [mem_nodesBlockedByOpenRemoteEdges, mem_nodesBlockedByOpenRemoteEdges]
    rw [mem_finishStragglers, mem_finishStragglers]
    constructor
    · exact fun h => ⟨h.running, h.finishing, h.node, h.overdue, h.fresh, h.unexported,
        mt hblocked.mpr h.unblocked⟩
    · exact fun h => ⟨h.running, h.finishing, h.node, h.overdue, h.fresh, h.unexported,
        mt hblocked.mp h.unblocked⟩
  · rw [mem_selectFinishStragglers, mem_selectFinishStragglers]
    simp only [hperm.mem_iff]

/-- A drained node `sink`, and a dynamic source `viewer`. -/
def viewedDataflow : RunningDataflow :=
  { RunningDataflow.new "dataflow" false true with
    runningNodes := ((∅ : TreeMap NodeId RunningNode).insert ⟨"sink"⟩
      ⟨true, false, ∅, none, .never, false⟩).insert ⟨"viewer"⟩ ⟨false, true, ∅, none, .never, false⟩
    dataInputs := MultiMap.add ∅ ⟨"sink"⟩ ⟨"image"⟩
    allInputsClosedAt := (∅ : TreeMap NodeId Nat).insert ⟨"sink"⟩ 0 }

/-- A dynamic node that never finishes does not keep the others from being selected. -/
theorem dynamic_source_does_not_veto :
    ¬∀ (d : RunningDataflow) (order : List OutputId) (watch : Watch) (grace : Duration) (n : NodeId),
      n ∈ d.finishStragglers order watch grace →
        ∀ id ∈ d.runningNodes, d.nodeNeverFinishes id = false := by
  intro h
  have hviewer := h viewedDataflow [] ⟨20, 20, fun _ => 0, fun _ => none⟩ 15 ⟨"sink"⟩
    (by decide +kernel) ⟨"viewer"⟩ (by decide +kernel)
  have htrue : viewedDataflow.nodeNeverFinishes ⟨"viewer"⟩ = true := by decide +kernel
  rw [htrue] at hviewer
  cases hviewer

end RunningDataflow

end Dora
