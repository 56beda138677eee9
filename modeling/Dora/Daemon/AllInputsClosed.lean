import Dora.Daemon.LiveInputs

/-!
# Finished nodes are informed

A node that has lost its last input waits for `AllInputsClosed`, and the daemon sends it once: when
the input closes, or when the node subscribes later. Data cannot keep it out, for the channel has
headroom for control events; other control events can, and an announcement that finds the channel full is
not repeated. In every run in which the announcements fit no finished node is left uninformed; a channel
filled by parameter updates is enough to lose one.
-/

namespace Dora

open Std

def Channel.Told (channel : Channel) : Prop :=
  .allInputsClosed ∈ channel.log ∨ .stop ∈ channel.log

variable {channel : Channel}

theorem Channel.Told.mono {channel' : Channel} (h : channel.Told)
    (hlog : channel.log <+: channel'.log) : channel'.Told :=
  h.imp (fun hmem => hlog.subset hmem) fun hmem => hlog.subset hmem

namespace RunningDataflow

def Informed (d : RunningDataflow) : Prop :=
  ∀ (nodeId : NodeId) (channel : Channel), d.subscribeChannels[nodeId]? = some channel →
    d.hasDataInput nodeId = true → d.isFinished nodeId = true → channel.Told

def Done (d : RunningDataflow) (nodeId : NodeId) : Prop :=
  d.table.HasData nodeId ∧ d.table.Finished d.timersGateDrain nodeId

theorem informed_iff {d : RunningDataflow} : d.Informed ↔ ∀ nodeId channel,
    d.subscribeChannels[nodeId]? = some channel → d.Done nodeId → channel.Told := by
  simp only [Informed, Done, hasDataInput_iff, isFinished_iff, and_imp]

variable {d d' : RunningDataflow}

theorem Informed.flows (h : d.Informed) (hflows : Flows d d')
    (hunfinishing : ∀ nodeId,
      InputTable.Unfinishing d.table d'.table d.timersGateDrain nodeId) : d'.Informed := by
  rw [informed_iff] at h ⊢
  intro nodeId channel' hget' hdone
  obtain ⟨channel, hget, hlog⟩ := hflows.channels nodeId channel' hget'
  have hbefore : d.Done nodeId := by
    have hfinished := hdone.2
    rw [hflows.gate] at hfinished
    exact hunfinishing nodeId hdone.1 hfinished
  exact (h nodeId channel hget hbefore).mono hlog

/-- Either the node has been told, or it is not finished yet and, if closing `K` finishes it, its
channel is open and has a slot for each input that is still to close and one more. -/
def Ready (d : RunningDataflow) (K : Set InputKey) (nodeId : NodeId) : Prop :=
  ∀ channel, d.subscribeChannels[nodeId]? = some channel → channel.Told ∨
    ¬d.Done nodeId ∧ (d.table.HasData nodeId →
      (d.table.close K).Finished d.timersGateDrain nodeId →
      channel.closed = false ∧ (d.table.closingAt K nodeId).ncard < channel.capacity)

section Closing

variable {K : Set InputKey} {nodeId : NodeId}

theorem Ready.of_sameAt (h : Ready d K nodeId) (hgate : d'.timersGateDrain = d.timersGateDrain)
    (hchannel : d'.subscribeChannels[nodeId]? = d.subscribeChannels[nodeId]?)
    (hsame : InputTable.SameAt d.table d'.table nodeId) : Ready d' K nodeId := by
  intro channel hget
  rw [hchannel] at hget
  have hdone : d'.Done nodeId ↔ d.Done nodeId := by
    rw [Done, Done, hgate, hsame.hasData, hsame.finished]
  rw [hdone, hgate, hsame.hasData, hsame.close.finished, hsame.closingAt]
  exact h channel hget

theorem signal_channels_other (now : Nat) {receiverId other : NodeId} (hne : other ≠ receiverId) :
    (d.signalAllInputsClosedIfDrained now receiverId).subscribeChannels[other]? =
      d.subscribeChannels[other]? := by
  cases d.signalled now receiverId with
  | silent htalk hchannels => rw [hchannels]
  | told channel hget hfinished htable hgate hchannels =>
    rw [hchannels, TreeMap.getElem?_insert, if_neg]
    rw [LawfulEqCmp.compare_eq_iff_eq]
    exact hne.symm

variable {key : InputKey}

theorem closeInput_channels_other (now : Nat) {other : NodeId} (hne : other ≠ key.1) :
    (closeInput now d key).subscribeChannels[other]? = d.subscribeChannels[other]? := by
  dsimp only [closeInput]
  split
  · rfl
  · rw [signal_channels_other now hne]
    split
    · rw [send_channels_other _ _ hne]
      rfl
    · rfl

theorem announceClosed_room {channel : Channel} (hK : K.Finite) (hkey : key ∈ K)
    (hget : d.subscribeChannels[key.1]? = some channel) (hopen : channel.closed = false)
    (hroom : (d.table.closingAt K key.1).ncard < channel.capacity) :
    ∃ channel', (if (d.openInputs.members key.1).contains key.2 then
        ((d.dropInput key).send key.1 (.inputClosed key.2)).1 else d.dropInput key
          ).subscribeChannels[key.1]? = some channel' ∧ channel'.closed = false ∧
      ((d.table.close {key}).closingAt K key.1).ncard < channel'.capacity := by
  split
  · rename_i hcontains
    have hwasOpen : key ∈ d.table.opened := TreeSet.contains_iff_mem.mp hcontains
    have hfewer := InputTable.closingAt_close_add_one hK hkey hwasOpen
    have hfree : 0 < channel.capacity := by omega
    have hsent := @Channel.sendWithTimestamp_control channel (.inputClosed key.2) rfl hopen hfree
    have hget' : (d.dropInput key).subscribeChannels[key.1]? = some channel := hget
    have hcapacity := @Channel.capacity_push channel (.inputClosed key.2) hfree
    refine ⟨channel.push (.inputClosed key.2) hfree, ?_, hopen, by omega⟩
    rw [send_channels _ hget', TreeMap.getElem?_insert_self, hsent]
  · have hle := InputTable.closingAt_close_le (t := d.table) (n := key.1) hK {key}
    exact ⟨channel, hget, hopen, by omega⟩

theorem closeInput_eq_signal (now : Nat) (hlive : key ∈ d.table.opened ∨ key ∈ d.table.broken) :
    closeInput now d key = (if (d.openInputs.members key.1).contains key.2 then
        ((d.dropInput key).send key.1 (.inputClosed key.2)).1 else d.dropInput key
          ).signalAllInputsClosedIfDrained now key.1 := by
  have hbusy : (!(d.openInputs.members key.1).contains key.2 && !d.brokenInputs.contains key) =
      false := by
    rcases hlive with hopen | hbroken
    · have hcontains : (d.openInputs.members key.1).contains key.2 = true :=
        TreeSet.contains_iff_mem.mpr hopen
      rw [hcontains]
      rfl
    · have hcontains : d.brokenInputs.contains key = true := TreeMap.mem_iff_contains.mp hbroken
      rw [hcontains, Bool.not_true, Bool.and_false]
  dsimp only [closeInput]
  rw [hbusy]
  rfl

theorem closeInput_eq_dropInput (now : Nat)
    (hlive : ¬(key ∈ d.table.opened ∨ key ∈ d.table.broken)) :
    closeInput now d key = d.dropInput key := by
  have hopen : (d.openInputs.members key.1).contains key.2 = false := by
    rw [Bool.eq_false_iff, ne_eq, TreeSet.contains_iff_mem]
    exact fun h => hlive (.inl h)
  have hbroken : d.brokenInputs.contains key = false := by
    rw [Bool.eq_false_iff, ne_eq, ← TreeMap.mem_iff_contains]
    exact fun h => hlive (.inr h)
  dsimp only [closeInput]
  rw [hopen, hbroken]
  rfl

/-- A live input of a node that `K` finishes: what its channel holds after the closing. -/
theorem closeInput_tells (now : Nat) {channel channel' : Channel}
    (hlive : key ∈ d.table.opened ∨ key ∈ d.table.broken) (hK : K.Finite) (hkey : key ∈ K)
    (hget : d.subscribeChannels[key.1]? = some channel) (hopen : channel.closed = false)
    (hroom : (d.table.closingAt K key.1).ncard < channel.capacity)
    (hget' : (closeInput now d key).subscribeChannels[key.1]? = some channel') :
    channel'.Told ∨ ¬(closeInput now d key).table.Finished d.timersGateDrain key.1 ∧
      channel'.closed = false ∧
      ((d.table.close {key}).closingAt K key.1).ncard < channel'.capacity := by
  obtain ⟨announced, hannounced, hopen', hroom'⟩ := announceClosed_room hK hkey hget hopen hroom
  have htalk := d.talk_announceClosed key
  rw [closeInput_table]
  rw [closeInput_eq_signal now hlive] at hget'
  cases signalled _ now key.1 with
  | silent htalk' hchannels hwhy =>
    rw [hchannels, hannounced, Option.some.injEq] at hget'
    rw [hannounced, htalk.table, dropInput_table, htalk.gate] at hwhy
    refine .inr ⟨hwhy.resolve_left (by simp), ?_⟩
    rw [← hget']
    exact ⟨hopen', hroom'⟩
  | told channel₂ hget₂ hfinished htable hgate hchannels =>
    rw [hannounced, Option.some.injEq] at hget₂
    rw [hchannels, TreeMap.getElem?_insert_self, ← hget₂, Option.some.injEq] at hget'
    have hfree : 0 < announced.capacity := by omega
    rw [Channel.sendWithTimestamp_control rfl hopen' hfree] at hget'
    refine .inl (.inl ?_)
    rw [← hget']
    simp [Channel.push]

theorem Ready.closeInput_self (h : Ready d K key.1) (hK : K.Finite)
    (hkey : key ∈ K) (now : Nat) : Ready (closeInput now d key) K key.1 := by
  have hflows := d.closeInput_flows now key
  have htable := d.closeInput_table now key
  have hcloseAll : (d.table.close {key}).close K = d.table.close K := by
    rw [InputTable.close_close, Set.union_eq_self_of_subset_left (Set.singleton_subset_iff.mpr hkey)]
  intro channel' hget'
  obtain ⟨channel, hget, hlog⟩ := hflows.channels key.1 channel' hget'
  rcases h channel hget with htold | ⟨hnot, hroom⟩
  · exact .inl (htold.mono hlog)
  by_cases hwill : d.table.HasData key.1 ∧ (d.table.close K).Finished d.timersGateDrain key.1
  · obtain ⟨hopen, hcount⟩ := hroom hwill.1 hwill.2
    by_cases hlive : key ∈ d.table.opened ∨ key ∈ d.table.broken
    · rcases closeInput_tells now hlive hK hkey hget hopen hcount hget' with htold | ⟨hnot', hroom'⟩
      · exact .inl htold
      · refine .inr ⟨fun hdone => hnot' ?_, fun _ _ => ?_⟩
        · rw [← hflows.gate]
          exact hdone.2
        · rw [htable]
          exact hroom'
    · -- the input had been closed before: nothing changes
      have hsame : InputTable.SameAt d.table (closeInput now d key).table key.1 := by
        rw [htable]
        refine InputTable.sameAt_close fun i hi => ?_
        rw [Set.mem_singleton_iff] at hi
        rw [hi]
        exact not_or.mp hlive
      have hquiet : (closeInput now d key).subscribeChannels[key.1]? = d.subscribeChannels[key.1]? := by
        rw [closeInput_eq_dropInput now hlive]
        rfl
      exact h.of_sameAt hflows.gate hquiet hsame channel' hget'
  · -- nothing that closes now finishes the node
    refine .inr ⟨fun hdone => ?_, fun hdata hfinished => ?_⟩
    · rw [Done, htable, hflows.gate] at hdone
      have hlater := hdone.2.close (K := K)
      rw [hcloseAll] at hlater
      exact hwill ⟨hdone.1, hlater⟩
    · rw [htable, hflows.gate, hcloseAll] at hfinished
      rw [htable] at hdata
      exact absurd ⟨hdata, hfinished⟩ hwill

theorem Ready.closeInput (h : Ready d K nodeId) (hK : K.Finite) (hkey : key ∈ K)
    (now : Nat) : Ready (closeInput now d key) K nodeId := by
  by_cases hself : nodeId = key.1
  · subst hself
    exact h.closeInput_self hK hkey now
  · have hsame : InputTable.SameAt d.table (RunningDataflow.closeInput now d key).table nodeId := by
      rw [closeInput_table]
      refine InputTable.sameAt_close fun i hi => ?_
      rw [Set.mem_singleton_iff] at hi
      exact absurd (congrArg Prod.fst hi) hself
    exact h.of_sameAt (d.closeInput_flows now key).gate (closeInput_channels_other now hself) hsame

theorem Ready.closeInputs (h : Ready d K nodeId) (hK : K.Finite) {keys : List InputKey}
    (hkeys : ∀ key ∈ keys, key ∈ K) (now : Nat) : Ready (d.closeInputs now keys) K nodeId := by
  induction keys generalizing d with
  | nil => exact h
  | cons key rest ih =>
    exact ih (h.closeInput hK (hkeys key (by simp)) now) fun k hk =>
      hkeys k (List.mem_cons_of_mem key hk)

theorem Closing.ready {leaving : Option NodeId} (h : Closing leaving K d d')
    (hready : Ready d K nodeId) (hK : K.Finite) (hstays : leaving ≠ some nodeId) :
    Ready d' K nodeId := by
  cases h with
  | talk htalk hsame =>
    refine hready.of_sameAt htalk.gate (hsame nodeId hstays) ?_
    rw [htalk.table]
    exact ⟨fun _ => Iff.rfl, fun _ => Iff.rfl, fun _ => Iff.rfl⟩
  | close now keys E hmute htable hE hkeys =>
    have hunlinked := hready.of_sameAt hmute.gate (by rw [hmute.channels]) (by
      rw [htable]
      exact ⟨fun _ => Iff.rfl, fun _ => Iff.rfl, fun _ => Iff.rfl⟩)
    exact hunlinked.closeInputs hK hkeys now
  | purge removed hleaving hquiet htable hsame =>
    have hne : nodeId ≠ removed := fun heq => hstays (heq ▸ hleaving)
    refine hready.of_sameAt hquiet.gate (hsame nodeId hne) ?_
    rw [htable]
    exact InputTable.sameAt_purge hne

theorem ClosingRun.ready {leaving : Option NodeId} (h : ClosingRun leaving K d d')
    (hready : Ready d K nodeId) (hK : K.Finite) (hstays : leaving ≠ some nodeId) :
    Ready d' K nodeId := by
  induction h with
  | refl => exact hready
  | tail _ hstep ih => exact hstep.ready ih hK hstays

end Closing

theorem Informed.install {nodeId : NodeId} {replayed : Nat} (h : d.Informed)
    (hinstalls : Installs d nodeId replayed d')
    (hroom : d.Done nodeId → replayed < NODE_EVENT_CHANNEL_CAPACITY) : d'.Informed := by
  rw [informed_iff] at h ⊢
  intro other channel hget hdone
  rw [Done, hinstalls.table, hinstalls.gate] at hdone
  by_cases hself : other = nodeId
  · subst hself
    exact .inl (hinstalls.greeted (hroom hdone) hdone.1 hdone.2 channel hget)
  · rw [hinstalls.others other hself] at hget
    exact h other channel hget hdone

theorem Effect.informed {op : DataflowOp} {result : RunningDataflow × OpOutcome}
    (h : Effect d op result) (hconsistent : d.table.Consistent) (hinformed : d.Informed)
    (hready : ∀ nodeId, op.removes ≠ some nodeId → Ready d {key | key ∈ op.closes d} nodeId)
    (hroom : ∀ nodeId replayed, op.subscribes d = some (nodeId, replayed) → d.Done nodeId →
      replayed < NODE_EVENT_CHANNEL_CAPACITY) : result.1.Informed := by
  cases h with
  | talk htalk =>
    refine hinformed.flows htalk.toFlows fun nodeId => ?_
    rw [htalk.table]
    exact fun hdata hfinished => ⟨hdata, hfinished⟩
  | recover hrecovers =>
    obtain ⟨R, hR, htable⟩ := hrecovers.table
    refine hinformed.flows hrecovers.toFlows fun nodeId => ?_
    rw [htable]
    exact InputTable.unfinishing_recover hconsistent hR
  | expire hquiet K hK htable =>
    refine hinformed.flows hquiet.toFlows fun nodeId => ?_
    rw [htable]
    exact InputTable.unfinishing_expire
  | register hmute hregisters =>
    obtain ⟨D, A, hreg, htable⟩ := hregisters
    refine hinformed.flows hmute.quiet.toFlows fun nodeId => ?_
    rw [htable]
    exact InputTable.unfinishing_register hreg
  | renew nodeId hreplaces hrenews =>
    obtain ⟨D, -, -, htable⟩ := hrenews.table
    rw [informed_iff] at hinformed ⊢
    intro other channel hget hdone
    -- the replaced node has no channel; nothing changes for the others
    have hne : other ≠ nodeId := by
      rintro rfl
      rw [hrenews.gone] at hget
      cases hget
    obtain ⟨before, hbefore, hlog⟩ := hrenews.channels other channel hget
    rw [Done, htable, hrenews.gate] at hdone
    have hdone' := InputTable.unfinishing_renew hne hdone.1 hdone.2
    exact (hinformed other before hbefore hdone').mono hlog
  | install nodeId replayed hsubscribes hinstalls =>
    exact hinformed.install hinstalls (hroom nodeId replayed hsubscribes)
  | close hrun hgone =>
    have hfinite : {key | key ∈ op.closes d}.Finite := (op.closes d).finite_toSet
    rw [informed_iff]
    intro nodeId channel hget hdone
    have hstays : op.removes ≠ some nodeId := fun heq => by
      rw [hgone nodeId heq] at hget
      cases hget
    rcases ClosingRun.ready hrun (hready nodeId hstays) hfinite hstays channel hget with htold | hnot
    · exact htold
    · exact absurd hdone hnot.1

section Counting

variable (d : RunningDataflow) (keys : List InputKey) (nodeId : NodeId)

/-- Whether the node is finished once `keys` are closed. -/
def finishesBy : Bool := (keys.foldl dropInput d).isFinishedNonSource nodeId

theorem dropInputs_table :
    (keys.foldl dropInput d).table = d.table.close {key | key ∈ keys} ∧
      (keys.foldl dropInput d).timersGateDrain = d.timersGateDrain := by
  induction keys generalizing d with
  | nil => simp
  | cons key rest ih =>
    obtain ⟨htable, hgate⟩ := ih (d.dropInput key)
    rw [List.foldl_cons, htable, hgate, dropInput_table, InputTable.close_close]
    refine ⟨?_, rfl⟩
    congr 1
    ext k
    simp

theorem finishesBy_iff : d.finishesBy keys nodeId = true ↔
    (d.table.close {key | key ∈ keys}).Finished d.timersGateDrain nodeId ∧
      d.table.HasData nodeId := by
  obtain ⟨htable, hgate⟩ := d.dropInputs_table keys
  rw [finishesBy, isFinishedNonSource_iff, htable, hgate]
  rfl

/-- How many open inputs of the node are among `keys`. -/
def openAmong : Nat :=
  ((d.openInputs.members nodeId).toList.filter fun inputId => (nodeId, inputId) ∈ keys).length

theorem openAmong_eq :
    d.openAmong keys nodeId = (d.table.closingAt {key | key ∈ keys} nodeId).ncard := by
  have hnodup : (d.openInputs.members nodeId).toList.Nodup := TreeSet.distinct_toList.imp
    fun hne heq => by
      rw [heq] at hne
      simp at hne
  set inputs := (d.openInputs.members nodeId).toList.filter fun inputId => (nodeId, inputId) ∈ keys
    with hinputs
  have hmap : (inputs.map fun inputId => (nodeId, inputId)).Nodup :=
    (hnodup.filter _).map fun _ _ h => (Prod.mk.inj h).2
  have hset : d.table.closingAt {key | key ∈ keys} nodeId =
      ((inputs.map fun inputId => (nodeId, inputId)).toFinset : Set InputKey) := by
    ext ⟨n, inputId⟩
    simp only [InputTable.closingAt, RunningDataflow.table, Set.mem_ofPred_eq, Lib.MultiMap.mem_rel,
      List.coe_toFinset, List.mem_map, hinputs, List.mem_filter, TreeSet.mem_toList,
      decide_eq_true_eq, Prod.mk.injEq]
    constructor
    · rintro ⟨hopen, hkey, rfl⟩
      exact ⟨inputId, ⟨hopen, hkey⟩, rfl, rfl⟩
    · rintro ⟨_, ⟨hopen, hkey⟩, rfl, rfl⟩
      exact ⟨hopen, hkey, rfl⟩
  rw [hset, Set.ncard_coe_finset, List.toFinset_card_of_nodup hmap, List.length_map]
  rfl

end Counting

end RunningDataflow

def NodeEvent.tellsToFinish : NodeEvent → Bool
  | .allInputsClosed | .stop => true
  | _ => false

instance (channel : Channel) : Decidable channel.Told :=
  decidable_of_iff (channel.log.any NodeEvent.tellsToFinish = true) (by
    rw [List.any_eq_true]
    constructor
    · rintro ⟨event, hmem, htells⟩
      cases event with
      | allInputsClosed => exact .inl hmem
      | stop => exact .inr hmem
      | _ => cases htells
    · rintro (hmem | hmem)
      · exact ⟨_, hmem, rfl⟩
      · exact ⟨_, hmem, rfl⟩)

namespace TrackedDataflow

/-- There is room for what the operation has to say. A node that it finishes, and that has not been
told before, has an open channel with more free slots than inputs that close now; a finished node
that subscribes has fewer closed edges than its new channel has slots. -/
def RoomToTell (s : TrackedDataflow) (op : DataflowOp) : Prop :=
  (∀ entry ∈ s.dataflow.subscribeChannels.toList, op.removes ≠ some entry.1 →
    s.dataflow.isFinishedNonSource entry.1 = false →
    s.dataflow.finishesBy (op.closes s.dataflow) entry.1 = true → ¬entry.2.Told →
    entry.2.closed = false ∧
      s.dataflow.openAmong (op.closes s.dataflow) entry.1 < entry.2.capacity) ∧
  ∀ subscription ∈ op.subscribes s.dataflow,
    s.dataflow.isFinishedNonSource subscription.1 = true →
    subscription.2 < NODE_EVENT_CHANNEL_CAPACITY

instance (s : TrackedDataflow) (op : DataflowOp) : Decidable (RoomToTell s op) := by
  unfold RoomToTell
  infer_instance

theorem RoomToTell.ready {s : TrackedDataflow} {op : DataflowOp} (h : RoomToTell s op)
    (hinformed : s.dataflow.Informed) {nodeId : NodeId} (hstays : op.removes ≠ some nodeId) :
    s.dataflow.Ready {key | key ∈ op.closes s.dataflow} nodeId := by
  intro channel hget
  by_cases htold : channel.Told
  · exact .inl htold
  by_cases hdone : s.dataflow.Done nodeId
  · exact .inl (RunningDataflow.informed_iff.mp hinformed nodeId channel hget hdone)
  refine .inr ⟨hdone, fun hdata hfinishes => ?_⟩
  have hnot : s.dataflow.isFinishedNonSource nodeId = false := by
    rw [Bool.eq_false_iff, ne_eq, RunningDataflow.isFinishedNonSource_iff]
    exact fun h => hdone ⟨h.2, h.1⟩
  have hroom := h.1 (nodeId, channel) (TreeMap.mem_toList_iff_getElem?_eq_some.mpr hget) hstays hnot
    ((RunningDataflow.finishesBy_iff _ _ _).mpr ⟨hfinishes, hdata⟩) htold
  rw [RunningDataflow.openAmong_eq] at hroom
  exact hroom

theorem step_informed {s : TrackedDataflow} (hconsistent : s.dataflow.table.Consistent)
    (hinformed : s.dataflow.Informed) {op : DataflowOp} (hop : RoomToTell s op) :
    (s.step op).1.dataflow.Informed := by
  have hcloses : op.closes s.cleared = op.closes s.dataflow := by
    cases op <;> rfl
  have hsubscribes : op.subscribes s.cleared = op.subscribes s.dataflow := by
    cases op <;> rfl
  refine (s.cleared.apply_effect hconsistent op).informed hconsistent hinformed ?_ ?_
  · rw [hcloses]
    exact fun nodeId hstays => hop.ready hinformed hstays
  · rw [hsubscribes]
    intro nodeId replayed hsub hdone
    exact hop.2 (nodeId, replayed) hsub
      ((RunningDataflow.isFinishedNonSource_iff _ _).mpr ⟨hdone.2, hdone.1⟩)

end TrackedDataflow

/-- No finished node is left uninformed in a run in which the announcements find room. -/
theorem finished_nodes_informed (dataflowId : String) (nodes : ResolvedNodes)
    (spawnNodes : TreeSet NodeId) (exitWhenNodesFinish : Bool) (ops : List DataflowOp)
    (hops : Lib.Meets TrackedDataflow.step TrackedDataflow.RoomToTell
      (.spawn dataflowId nodes spawnNodes exitWhenNodesFinish) ops) :
    (Lib.run TrackedDataflow.step (.spawn dataflowId nodes spawnNodes exitWhenNodesFinish) ops
      ).1.dataflow.Informed := by
  have hspawn : (TrackedDataflow.spawn dataflowId nodes spawnNodes exitWhenNodesFinish
      ).dataflow.Informed := by
    intro nodeId channel hget
    have hchannels := (RunningDataflow.spawnDataflow_registers dataflowId nodes spawnNodes
      exitWhenNodesFinish).1
    rw [show (TrackedDataflow.spawn dataflowId nodes spawnNodes exitWhenNodesFinish
      ).dataflow.subscribeChannels = ∅ from hchannels] at hget
    simp at hget
  exact (Lib.run_induction_meets TrackedDataflow.step
    (P := fun _ _ s => s.dataflow.table.Consistent ∧ s.dataflow.Informed)
    ⟨(TrackedDataflow.spawn_consistent dataflowId nodes spawnNodes exitWhenNodesFinish).1, hspawn⟩
    (fun _ _ s op _ hop h => ⟨TrackedDataflow.step_consistent h.1 op,
      TrackedDataflow.step_informed h.1 h.2 hop⟩) ops hops).2

/-- `a` feeds `b`, and `b` has subscribed. -/
def readerSubscribed : List DataflowOp :=
  [.addNode (plainNode "a" [] [⟨"out"⟩]) .never (.ok ()), .addNode timedReader .never (.ok ()),
    .subscribe 0 ⟨"b"⟩ [] 0 none]

theorem finished_nodes_informed_reader :
    (Lib.run TrackedDataflow.step (.spawn "df" ∅ ∅ true)
      (readerSubscribed ++ [.closeOutputs 1 ⟨"a"⟩ [⟨"out"⟩] (.ok ())])
      ).1.dataflow.isFinishedNonSource ⟨"b"⟩ = true ∧
    (Lib.run TrackedDataflow.step (.spawn "df" ∅ ∅ true)
      (readerSubscribed ++ [.closeOutputs 1 ⟨"a"⟩ [⟨"out"⟩] (.ok ())])).1.dataflow.Informed := by
  refine ⟨by decide, ?_⟩
  apply finished_nodes_informed
  decide

variable {nodeId : NodeId} {d : RunningDataflow}

theorem RunningDataflow.send_full
    (hget : d.subscribeChannels[nodeId]? = some channel) (hfull : channel.capacity = 0)
    (receiver : NodeId) (event : NodeEvent) :
    (d.send receiver event).1.subscribeChannels[nodeId]? = some channel := by
  by_cases hself : nodeId = receiver
  · subst hself
    rw [send_channels event hget, TreeMap.getElem?_insert_self,
      Channel.sendWithTimestamp_full hfull]
  · rw [send_channels_other _ _ hself, hget]

theorem RunningDataflow.closeInput_full
    (hget : d.subscribeChannels[nodeId]? = some channel) (hfull : channel.capacity = 0) (now : Nat)
    (key : InputKey) : (closeInput now d key).subscribeChannels[nodeId]? = some channel := by
  by_cases hself : nodeId = key.1
  · by_cases hlive : key ∈ d.table.opened ∨ key ∈ d.table.broken
    · have hannounced : (if (d.openInputs.members key.1).contains key.2 then
          ((d.dropInput key).send key.1 (.inputClosed key.2)).1 else d.dropInput key
            ).subscribeChannels[nodeId]? = some channel := by
        split
        · exact send_full (d := d.dropInput key) hget hfull _ _
        · exact hget
      rw [closeInput_eq_signal now hlive]
      cases signalled _ now key.1 with
      | silent htalk hchannels => rw [hchannels, hannounced]
      | told channel' hget' hfinished htable hgate hchannels =>
        subst hself
        rw [hannounced, Option.some.injEq] at hget'
        rw [hchannels, TreeMap.getElem?_insert_self, ← hget',
          Channel.sendWithTimestamp_full hfull]
    · rw [closeInput_eq_dropInput now hlive]
      exact hget
  · rw [closeInput_channels_other now hself, hget]

theorem RunningDataflow.closeInputs_full
    (hget : d.subscribeChannels[nodeId]? = some channel) (hfull : channel.capacity = 0) (now : Nat)
    (keys : List InputKey) :
    (d.closeInputs now keys).subscribeChannels[nodeId]? = some channel := by
  induction keys generalizing d with
  | nil => exact hget
  | cons key rest ih => exact ih (closeInput_full hget hfull now key)

theorem paramUpdates_fill {s : TrackedDataflow} (key : String) (valueJson : List UInt8) (count : Nat)
    (hget : s.dataflow.subscribeChannels[nodeId]? = some channel) (hopen : channel.closed = false)
    (hcount : count ≤ channel.capacity) :
    ∃ (channels : TreeMap NodeId Channel) (pendingMessages : TreeMap NodeId Nat)
      (outbox : List (NodeId × NodeEvent)) (channel' : Channel),
      (Lib.run TrackedDataflow.step s (List.replicate count (.setParam nodeId key valueJson))
        ).1.dataflow = { s.dataflow with subscribeChannels := channels, pendingMessages, outbox } ∧
      channels[nodeId]? = some channel' ∧ channel'.capacity + count = channel.capacity ∧
      (channel'.Told → channel.Told) := by
  induction count generalizing s channel with
  | zero =>
    exact ⟨s.dataflow.subscribeChannels, s.dataflow.pendingMessages, s.dataflow.outbox, channel, rfl,
      hget, rfl, id⟩
  | succ count ih =>
    have hfree : 0 < channel.capacity := by omega
    have hsend := @Channel.sendWithTimestamp_control channel (.paramUpdate key valueJson) rfl hopen hfree
    have hcapacity := @Channel.capacity_push channel (.paramUpdate key valueJson) hfree
    set pushed := channel.push (.paramUpdate key valueJson) hfree
    -- the first update goes into a free slot
    have hfirst : (s.step (.setParam nodeId key valueJson)).1.dataflow = { s.dataflow with
        subscribeChannels := s.dataflow.subscribeChannels.insert nodeId pushed
        pendingMessages := s.dataflow.pendingMessages.modify nodeId (· + 1)
        outbox := [(nodeId, .paramUpdate key valueJson)] } := by
      show (s.cleared.send nodeId (.paramUpdate key valueJson)).1 = _
      have hget' : s.cleared.subscribeChannels[nodeId]? = some channel := hget
      simp only [RunningDataflow.send, hget', RunningDataflow.sendOn, hsend, if_true]
      rfl
    have hgetFirst : (s.step (.setParam nodeId key valueJson)).1.dataflow.subscribeChannels[nodeId]?
        = some pushed := by
      rw [hfirst]
      exact TreeMap.getElem?_insert_self
    obtain ⟨channels, pendingMessages, outbox, channel', hrun, hget', hfilled, htold⟩ :=
      ih hgetFirst hopen (by omega)
    refine ⟨channels, pendingMessages, outbox, channel', ?_, hget', by omega, fun h => ?_⟩
    · rw [List.replicate_succ]
      show (Lib.run TrackedDataflow.step (s.step _).1 _).1.dataflow = _
      rw [hrun, hfirst]
    · have hpushed := htold h
      simpa [Channel.Told, pushed, Channel.push] using hpushed

/-- As many parameter updates as the channel of `b` holds, and then `a` closes its output. -/
theorem paramUpdates_uninformed (count : Nat) (hcount : count = NODE_EVENT_CHANNEL_CAPACITY) :
    ¬(Lib.run TrackedDataflow.step (.spawn "df" ∅ ∅ true)
      (readerSubscribed ++ List.replicate count (.setParam ⟨"b"⟩ "gain" []) ++
        [.closeOutputs 1 ⟨"a"⟩ [⟨"out"⟩] (.ok ())])).1.dataflow.Informed := by
  rw [Lib.run_concat, Lib.run_append]
  dsimp only
  set s := (Lib.run TrackedDataflow.step (.spawn "df" ∅ ∅ true) readerSubscribed).1 with hs
  obtain ⟨channel, hget, hchannel⟩ : ∃ channel, s.dataflow.subscribeChannels[(⟨"b"⟩ : NodeId)]? =
      some channel ∧ decide (channel.closed = false ∧
        channel.capacity = NODE_EVENT_CHANNEL_CAPACITY ∧ ¬channel.Told) = true :=
    (Option.any_eq_true _ _).mp (by decide)
  obtain ⟨hopen, hempty, huntold⟩ := of_decide_eq_true hchannel
  obtain ⟨channels, pendingMessages, outbox, channel', hrun, hget', hfilled, htold⟩ :=
    paramUpdates_fill "gain" [] count hget hopen (by omega)
  set s' := (Lib.run TrackedDataflow.step s (List.replicate count (.setParam ⟨"b"⟩ "gain" []))).1
  have hfull : channel'.capacity = 0 := by omega
  have hcleared : s'.cleared = { s.dataflow with
      subscribeChannels := channels, pendingMessages, outbox := [] } := by
    rw [TrackedDataflow.cleared, hrun]
  have hstep : (s'.step (.closeOutputs 1 ⟨"a"⟩ [⟨"out"⟩] (.ok ()))).1.dataflow =
      s'.cleared.closeInputs 1 [(⟨"b"⟩, ⟨"in"⟩)] := by
    have hrestart : s'.cleared.mightRestart ⟨"a"⟩ = false := by
      have hbefore : s.dataflow.mightRestart ⟨"a"⟩ = false := by decide
      rw [hcleared]
      exact hbefore
    have hkeys : (s'.cleared.localReceivers ⟨"a"⟩ [⟨"out"⟩]).toList = [(⟨"b"⟩, ⟨"in"⟩)] := by
      have hbefore : (s.dataflow.localReceivers ⟨"a"⟩ [⟨"out"⟩]).toList = [(⟨"b"⟩, ⟨"in"⟩)] := by decide
      rw [hcleared]
      exact hbefore
    show (s'.cleared.apply (.closeOutputs 1 ⟨"a"⟩ [⟨"out"⟩] (.ok ()))).1 = _
    dsimp only [RunningDataflow.apply]
    rw [hrestart, if_neg Bool.false_ne_true, RunningDataflow.sendOutputClosedEvents_fst, hkeys]
  rw [hstep]
  intro hinformed
  refine huntold (htold (hinformed ⟨"b"⟩ channel' (RunningDataflow.closeInputs_full ?_ hfull 1 _) ?_ ?_))
  · rw [hcleared]
    exact hget'
  · rw [RunningDataflow.hasDataInput_iff, RunningDataflow.closeInputs_table, hcleared]
    have hdata : s.dataflow.hasDataInput ⟨"b"⟩ = true := by decide
    exact (RunningDataflow.hasDataInput_iff _ _).mp hdata
  · have hfinished : (s.dataflow.closeInputs 1 [(⟨"b"⟩, ⟨"in"⟩)]).isFinished ⟨"b"⟩ = true := by decide
    rw [RunningDataflow.isFinished_iff, RunningDataflow.closeInputs_table,
      (RunningDataflow.closeInputs_flows _ 1 _).gate] at hfinished ⊢
    rw [hcleared]
    exact hfinished

/-- `b` is finished, and neither `AllInputsClosed` nor `Stop` is on its channel. -/
theorem uninformed_behind_param_updates :
    ¬(Lib.run TrackedDataflow.step (.spawn "df" ∅ ∅ true)
      (readerSubscribed ++
        List.replicate NODE_EVENT_CHANNEL_CAPACITY (.setParam ⟨"b"⟩ "gain" []) ++
        [.closeOutputs 1 ⟨"a"⟩ [⟨"out"⟩] (.ok ())])).1.dataflow.Informed :=
  paramUpdates_uninformed NODE_EVENT_CHANNEL_CAPACITY rfl

end Dora
