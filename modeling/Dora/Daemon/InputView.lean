import Dora.Daemon.DataflowOps
import Dora.Daemon.InputTable

/-!
# The input table of a running dataflow

`RunningDataflow.table` reads the abstract table off the daemon's maps. The operations fall into two
kinds: those that only talk, which leave the table alone and never announce `AllInputsClosed`
(`Talk`), and those that move the table, for which this file gives the move.
-/

namespace Dora

open Std

namespace RunningDataflow

def table (d : RunningDataflow) : InputTable OutputId NodeId DataId where
  edges := d.mappings.rel
  opened := d.openInputs.rel
  broken := {key | key ∈ d.brokenInputs}
  deadlines := {key | key ∈ d.inputDeadlines}
  data := d.dataInputs.rel

section Questions

variable (d : RunningDataflow) (nodeId : NodeId)

theorem hasBrokenInput_iff :
    d.hasBrokenInput nodeId = true ↔ ∃ inputId, (nodeId, inputId) ∈ d.table.broken := by
  simp only [hasBrokenInput, List.any_eq_true, TreeMap.mem_keys, beq_iff_eq]
  constructor
  · rintro ⟨⟨n, i⟩, hmem, rfl⟩
    exact ⟨i, hmem⟩
  · rintro ⟨i, hmem⟩
    exact ⟨(nodeId, i), hmem, rfl⟩

theorem hasDataInput_iff : d.hasDataInput nodeId = true ↔ d.table.HasData nodeId := by
  rw [hasDataInput, Bool.not_eq_true', TreeSet.isEmpty_eq_false_iff_exists_mem]
  rfl

theorem isEmpty_openInputs_iff :
    (d.openInputs.members nodeId).isEmpty = true ↔
      ∀ inputId, (nodeId, inputId) ∉ d.table.opened := by
  rw [TreeSet.isEmpty_iff_forall_not_mem]
  rfl

theorem isDrained_iff : d.isDrained nodeId = true ↔
    if d.timersGateDrain then ∀ i, (nodeId, i) ∉ d.table.opened
    else d.table.HasData nodeId ∧
      ∀ i, (nodeId, i) ∈ d.table.data → (nodeId, i) ∉ d.table.opened := by
  dsimp only [isDrained]
  split
  · rw [isEmpty_openInputs_iff]
  · rw [Bool.and_eq_true, hasDataInput_iff]
    refine and_congr_right fun _ => ?_
    simp only [List.all_eq_true, Bool.not_eq_true', ← Bool.not_eq_true,
      TreeSet.contains_iff_mem, TreeSet.mem_toList]
    rfl

theorem isFinished_iff :
    d.isFinished nodeId = true ↔ d.table.Finished d.timersGateDrain nodeId := by
  rw [isFinished, Bool.and_eq_true, isDrained_iff, Bool.not_eq_true', ← Bool.not_eq_true,
    hasBrokenInput_iff, not_exists]
  exact ⟨fun h => ⟨h.1, h.2⟩, fun h => ⟨h.drained, h.unbroken⟩⟩

end Questions

structure Flows (d d' : RunningDataflow) : Prop where
  gate : d'.timersGateDrain = d.timersGateDrain
  channels : ∀ (nodeId : NodeId) (channel' : Channel),
    d'.subscribeChannels[nodeId]? = some channel' →
    ∃ channel, d.subscribeChannels[nodeId]? = some channel ∧ channel.log <+: channel'.log

structure Quiet (d d' : RunningDataflow) : Prop extends Flows d d' where
  outbox : ∀ nodeId, (nodeId, .allInputsClosed) ∈ d'.outbox → (nodeId, .allInputsClosed) ∈ d.outbox

structure Talk (d d' : RunningDataflow) : Prop extends Quiet d d' where
  table : d'.table = d.table

section Talking

variable {d d' d'' : RunningDataflow}

theorem Flows.of_eq (hgate : d'.timersGateDrain = d.timersGateDrain)
    (hchannels : d'.subscribeChannels = d.subscribeChannels) : Flows d d' where
  gate := hgate
  channels _ channel' h := ⟨channel', hchannels ▸ h, List.prefix_rfl⟩

theorem Flows.refl (d : RunningDataflow) : Flows d d := .of_eq rfl rfl

theorem Flows.trans (h : Flows d d') (h' : Flows d' d'') : Flows d d'' where
  gate := h'.gate.trans h.gate
  channels nodeId channel'' hget := by
    obtain ⟨channel', hget', hlog'⟩ := h'.channels nodeId channel'' hget
    obtain ⟨channel, hget, hlog⟩ := h.channels nodeId channel' hget'
    exact ⟨channel, hget, hlog.trans hlog'⟩

theorem Quiet.of_eq (hgate : d'.timersGateDrain = d.timersGateDrain)
    (hchannels : d'.subscribeChannels = d.subscribeChannels) (houtbox : d'.outbox = d.outbox) :
    Quiet d d' where
  toFlows := .of_eq hgate hchannels
  outbox _ h := houtbox ▸ h

theorem Quiet.trans (h : Quiet d d') (h' : Quiet d' d'') : Quiet d d'' where
  toFlows := h.toFlows.trans h'.toFlows
  outbox nodeId hmem := h.outbox nodeId (h'.outbox nodeId hmem)

theorem Talk.of_eq (htable : d'.table = d.table) (hgate : d'.timersGateDrain = d.timersGateDrain)
    (hchannels : d'.subscribeChannels = d.subscribeChannels) (houtbox : d'.outbox = d.outbox) :
    Talk d d' where
  toQuiet := .of_eq hgate hchannels houtbox
  table := htable

theorem Talk.refl (d : RunningDataflow) : Talk d d := .of_eq rfl rfl rfl rfl

theorem Talk.trans (h : Talk d d') (h' : Talk d' d'') : Talk d d'' where
  toQuiet := h.toQuiet.trans h'.toQuiet
  table := h'.table.trans h.table

theorem Talk.foldl {α : Type} {f : RunningDataflow → α → RunningDataflow}
    (h : ∀ d x, Talk d (f d x)) (d : RunningDataflow) (l : List α) : Talk d (l.foldl f d) := by
  induction l generalizing d with
  | nil => exact .refl d
  | cons x l ih => exact (h d x).trans (ih (f d x))

theorem flows_eraseChannel (d : RunningDataflow) (nodeId : NodeId) :
    Flows d { d with subscribeChannels := d.subscribeChannels.erase nodeId } where
  gate := rfl
  channels n channel' hget := by
    simp only [TreeMap.getElem?_erase] at hget
    split at hget
    · cases hget
    · exact ⟨channel', hget, List.prefix_rfl⟩

theorem talk_eraseChannel (d : RunningDataflow) (nodeId : NodeId) :
    Talk d { d with subscribeChannels := d.subscribeChannels.erase nodeId } where
  toFlows := flows_eraseChannel d nodeId
  table := rfl
  outbox _ h := h

theorem talk_removeChannels (d : RunningDataflow) (closed : List NodeId) :
    Talk d (d.removeChannels closed) := by
  induction closed generalizing d with
  | nil => exact .refl d
  | cons nodeId rest ih => exact (talk_eraseChannel d nodeId).trans (ih _)

theorem flows_insertChannel {nodeId : NodeId} {channel channel' : Channel}
    (hget : d.subscribeChannels[nodeId]? = some channel) (hlog : channel.log <+: channel'.log)
    (hgate : d'.timersGateDrain = d.timersGateDrain)
    (hchannels : d'.subscribeChannels = d.subscribeChannels.insert nodeId channel') :
    Flows d d' where
  gate := hgate
  channels n channel'' hget' := by
    rw [hchannels, TreeMap.getElem?_insert] at hget'
    split at hget'
    · rename_i heq
      rw [LawfulEqCmp.compare_eq_iff_eq] at heq
      subst heq
      cases hget'
      exact ⟨channel, hget, hlog⟩
    · exact ⟨channel'', hget', List.prefix_rfl⟩

end Talking

section Sends

variable (d : RunningDataflow) (nodeId : NodeId) (event : NodeEvent)

@[simp] theorem sendOn_table (channel : Channel) :
    (d.sendOn channel nodeId event).1.table = d.table := by
  dsimp only [sendOn]
  split <;> rfl

@[simp] theorem sendOn_gate (channel : Channel) :
    (d.sendOn channel nodeId event).1.timersGateDrain = d.timersGateDrain := by
  dsimp only [sendOn]
  split <;> rfl

@[simp] theorem sendOn_channels (channel : Channel) :
    (d.sendOn channel nodeId event).1.subscribeChannels = d.subscribeChannels := by
  dsimp only [sendOn]
  split <;> rfl

@[simp] theorem sendOn_channel (channel : Channel) :
    (d.sendOn channel nodeId event).2.1 = (channel.sendWithTimestamp event).1 := by
  dsimp only [sendOn]
  split <;> rfl

@[simp] theorem sendOn_result (channel : Channel) :
    (d.sendOn channel nodeId event).2.2 = (channel.sendWithTimestamp event).2 := by
  dsimp only [sendOn]
  split <;> rfl

theorem sendOn_outbox (channel : Channel) :
    (d.sendOn channel nodeId event).1.outbox = d.outbox ∨
      (d.sendOn channel nodeId event).1.outbox = d.outbox ++ [(nodeId, event)] := by
  dsimp only [sendOn]
  split
  · exact .inr rfl
  · exact .inl rfl

theorem talk_sendOn (channel : Channel) (hevent : event ≠ .allInputsClosed) :
    Talk d (d.sendOn channel nodeId event).1 where
  gate := d.sendOn_gate nodeId event channel
  channels n channel' hget := ⟨channel', by rwa [sendOn_channels] at hget, List.prefix_rfl⟩
  table := d.sendOn_table nodeId event channel
  outbox n hmem := by
    rcases d.sendOn_outbox nodeId event channel with heq | heq
    · exact heq ▸ hmem
    · rw [heq, List.mem_append, List.mem_singleton, Prod.mk.injEq] at hmem
      exact hmem.resolve_right fun h => hevent h.2.symm

@[simp] theorem send_table : (d.send nodeId event).1.table = d.table := by
  unfold send
  split
  · rfl
  · exact d.sendOn_table nodeId event _

theorem send_outbox : (d.send nodeId event).1.outbox = d.outbox ∨
    (d.send nodeId event).1.outbox = d.outbox ++ [(nodeId, event)] := by
  unfold send
  split
  · exact .inl rfl
  · exact d.sendOn_outbox nodeId event _

variable {d nodeId} in
theorem send_channels {channel : Channel} (hget : d.subscribeChannels[nodeId]? = some channel) :
    (d.send nodeId event).1.subscribeChannels =
      d.subscribeChannels.insert nodeId (channel.sendWithTimestamp event).1 := by
  simp [send, hget]

variable {nodeId} in
theorem send_channels_other {other : NodeId} (hne : other ≠ nodeId) :
    (d.send nodeId event).1.subscribeChannels[other]? = d.subscribeChannels[other]? := by
  cases hget : d.subscribeChannels[nodeId]? with
  | none => simp [send, hget]
  | some =>
    rw [send_channels event hget, TreeMap.getElem?_insert, if_neg]
    rw [LawfulEqCmp.compare_eq_iff_eq]
    exact hne.symm

theorem send_flows : Flows d (d.send nodeId event).1 := by
  unfold send
  split
  · exact .refl d
  · rename_i channel hget
    refine flows_insertChannel hget (channel.log_prefix_sendWithTimestamp event) ?_ ?_
    · simp
    · simp

/-- Every event but `AllInputsClosed` is talk. -/
theorem send_talk (hevent : event ≠ .allInputsClosed) : Talk d (d.send nodeId event).1 where
  toFlows := d.send_flows nodeId event
  table := d.send_table nodeId event
  outbox n hmem := by
    rcases d.send_outbox nodeId event with heq | heq
    · exact heq ▸ hmem
    · rw [heq, List.mem_append, List.mem_singleton, Prod.mk.injEq] at hmem
      exact hmem.resolve_right fun h => hevent h.2.symm

theorem Talk.andSend {d d' : RunningDataflow} {event : NodeEvent} (h : Talk d d') (nodeId : NodeId)
    (hevent : event ≠ .allInputsClosed) : Talk d (d'.send nodeId event).1 :=
  h.trans (d'.send_talk nodeId event hevent)

end Sends

section TalkOps

variable (d : RunningDataflow)

theorem disableRestartIfDrained_same (nodeId : NodeId) :
    (d.disableRestartIfDrained nodeId).table = d.table ∧
      (d.disableRestartIfDrained nodeId).timersGateDrain = d.timersGateDrain ∧
      (d.disableRestartIfDrained nodeId).subscribeChannels = d.subscribeChannels ∧
      (d.disableRestartIfDrained nodeId).outbox = d.outbox := by
  unfold disableRestartIfDrained
  split <;> exact ⟨rfl, rfl, rfl, rfl⟩

theorem talk_sendEach (receivers : List NodeId) (event : NodeId → NodeEvent)
    (hevent : ∀ nodeId, event nodeId ≠ .allInputsClosed) : Talk d (d.sendEach receivers event) :=
  .foldl (fun d receiver => d.send_talk receiver _ (hevent receiver)) d receivers

theorem talk_broadcast (receivers : List InputKey) (event : DataId → NodeEvent)
    (hevent : ∀ inputId, event inputId ≠ .allInputsClosed) :
    Talk d (d.broadcast receivers event).1 := by
  -- the fold carries the closed receivers along; only its first component is a dataflow
  have hfold : ∀ state : RunningDataflow × List NodeId,
      Talk state.1 (receivers.foldl (broadcastTo event) state).1 := by
    induction receivers with
    | nil => exact fun state => .refl state.1
    | cons key rest ih =>
      intro state
      exact (state.1.send_talk key.1 _ (hevent key.2)).trans (ih (broadcastTo event state key))
  exact (hfold (d, [])).trans (talk_removeChannels _ _)

theorem talk_drainChannels : Talk d d.drainChannels := by
  have hsend := d.talk_sendEach d.subscribeChannels.keys (fun _ => .stop) (by simp)
  refine hsend.trans ⟨⟨⟨rfl, fun nodeId channel hget => ?_⟩, fun _ h => h⟩, rfl⟩
  simp [drainChannels] at hget

theorem talk_stopAll (sender : CoordinatorSender) : Talk d (d.stopAll sender).1 := by
  dsimp only [stopAll]
  split
  · exact .of_eq rfl rfl rfl rfl
  · have hstart : Talk d (disableAllRestarts { d with
        pendingNodes := (d.pendingNodes.handleDataflowStop d.dynamicNodes sender).1 }) :=
      .of_eq rfl rfl rfl rfl
    exact hstart.trans ((talk_drainChannels _).trans (.of_eq rfl rfl rfl rfl))

theorem talk_stopSingleNode {nodeId : NodeId} {d' : RunningDataflow}
    (h : d.stopSingleNode nodeId = .ok d') : Talk d d' := by
  unfold stopSingleNode at h
  split at h
  · cases h
  · cases h
    apply Talk.andSend
    · exact .of_eq rfl rfl rfl rfl
    · simp

theorem stopSingleNode_others {nodeId other : NodeId} {d' : RunningDataflow}
    (h : d.stopSingleNode nodeId = .ok d') (hne : other ≠ nodeId) :
    d'.subscribeChannels[other]? = d.subscribeChannels[other]? := by
  unfold stopSingleNode at h
  split at h
  · cases h
  · cases h
    exact send_channels_other _ _ hne

theorem talk_restartSingleNode {nodeId : NodeId} {d' : RunningDataflow}
    (h : d.restartSingleNode nodeId = .ok d') : Talk d d' := by
  unfold restartSingleNode at h
  split at h
  · cases h
  · split at h
    · cases h
      apply Talk.andSend
      · exact .of_eq rfl rfl rfl rfl
      · simp
    · cases h

theorem talk_sendReload (nodeId : NodeId) (operatorId : Option String) :
    Talk d (d.sendReload nodeId operatorId) := by
  have hsend := d.send_talk nodeId (.reload operatorId) (by simp)
  dsimp only [sendReload]
  split
  · exact hsend.trans (talk_removeChannels _ _)
  · exact hsend

theorem trySend_logExtends (channel : Channel) (event : NodeEvent) :
    channel.log <+: (channel.trySend event).1.log := by
  unfold Channel.trySend
  split
  · exact List.prefix_rfl
  · split
    · exact List.prefix_append _ _
    · exact List.prefix_rfl

theorem talk_completeSend (nodeId : NodeId) {event : NodeEvent}
    (hevent : event ≠ .allInputsClosed) : Talk d (d.completeSend nodeId event) := by
  dsimp only [completeSend]
  split
  · exact .refl d
  · rename_i channel hget
    have hlog := trySend_logExtends channel event
    split
    · refine ⟨⟨flows_insertChannel hget hlog rfl rfl, fun n hmem => ?_⟩, rfl⟩
      rw [List.mem_append, List.mem_singleton, Prod.mk.injEq] at hmem
      exact hmem.resolve_right fun h => hevent h.2.symm
    · exact ⟨⟨flows_insertChannel hget hlog rfl rfl, fun _ h => h⟩, rfl⟩

theorem talk_modifyChannel (nodeId : NodeId) {f : Channel → Channel}
    (hlog : ∀ channel, (f channel).log = channel.log) :
    Talk d { d with subscribeChannels := d.subscribeChannels.modify nodeId f } := by
  refine ⟨⟨⟨rfl, fun n channel' hget => ?_⟩, fun _ h => h⟩, rfl⟩
  simp only [TreeMap.getElem?_modify] at hget
  split at hget
  · rename_i heq
    rw [LawfulEqCmp.compare_eq_iff_eq] at heq
    subst heq
    obtain ⟨channel, hchannel, rfl⟩ := Option.map_eq_some_iff.mp hget
    exact ⟨channel, hchannel, (hlog channel).symm ▸ List.prefix_rfl⟩
  · exact ⟨channel', hget, List.prefix_rfl⟩

theorem talk_orUnchanged {result : Except String RunningDataflow} {linked : List Edge}
    (h : ∀ d', result = .ok d' → Talk d d') : Talk d (d.orUnchanged result linked).1 := by
  unfold orUnchanged
  split
  · rename_i d'
    exact h d' rfl
  · exact .refl d

end TalkOps

end RunningDataflow

def DataflowOp.talks : DataflowOp → Bool
  | .stopAll _ | .stopNode _ | .restartNode _ | .allNodesReady _ | .eventStreamDropped _
  | .nodeSpawned _ _ | .nodeRestarts _ | .nodeFailed _ _ _ | .timer _ _ | .logs _ _ _
  | .logBroadcast _ _ _ _ | .reload _ _ | .setParam _ _ _ | .deleteParam _ _
  | .extensionDropped _ _ _ | .heldDelivery _ _ _ | .lateRestartNotice _ _ | .gaveUp _ _
  | .listenerTakes _ _ | .listenerGone _ => true
  | .addNode _ _ _ | .removeNode _ _ _ _ | .replaceNode _ _ _ _ | .addMapping _ _
  | .removeMapping _ _ _ | .subscribe _ _ _ _ _ | .closeOutputs _ _ _ _ | .outputsDone _ _ _
  | .sendOut _ _ _ _ _ | .outputSent _ _ | .nodeStop _ _ _ _ | .outputClosed _ _
  | .checkInputTimeouts _ _ => false

namespace RunningDataflow

theorem apply_talk (d : RunningDataflow) {op : DataflowOp} (hop : op.talks = true) :
    Talk d (d.apply op).1 := by
  cases op with
  | stopAll sender => exact d.talk_stopAll sender
  | stopNode => exact d.talk_orUnchanged fun _ => d.talk_stopSingleNode
  | restartNode => exact d.talk_orUnchanged fun _ => d.talk_restartSingleNode
  | allNodesReady | nodeSpawned | gaveUp => exact .of_eq rfl rfl rfl rfl
  | eventStreamDropped nodeId =>
    exact (talk_eraseChannel d nodeId).trans (.of_eq rfl rfl rfl rfl)
  | nodeRestarts nodeId | nodeFailed nodeId =>
    have hreset : Talk d (d.resetIncarnationState nodeId) := .of_eq rfl rfl rfl rfl
    exact hreset.trans (talk_sendEach _ _ _ fun _ => by simp)
  | timer | logs => exact d.talk_broadcast _ _ fun _ => by simp
  | logBroadcast level source metadata sample =>
    exact (d.talk_broadcast _ (fun inputId => .input inputId metadata (some sample))
      fun _ => by simp).trans (.of_eq rfl rfl rfl rfl)
  | reload nodeId operatorId => exact d.talk_sendReload nodeId operatorId
  | setParam nodeId | deleteParam nodeId => exact d.send_talk nodeId _ (by simp)
  | extensionDropped touchedBy «namespace» key => exact d.talk_sendEach _ _ fun _ => by simp
  | heldDelivery key => exact d.talk_completeSend key.1 (by simp)
  | lateRestartNotice receiver => exact d.talk_completeSend receiver (by simp)
  | listenerTakes nodeId | listenerGone nodeId => exact d.talk_modifyChannel nodeId fun _ => rfl
  | _ => cases hop

end RunningDataflow

end Dora
