import Dora.Daemon.InputView
import Dora.Lib.Loop

/-!
# The moves of the input table

What the operations that touch inputs do to the table of the dataflow, one equation for each. They connect
the daemon's code with `InputTable`, about whose moves the invariants are proved.
-/

namespace Dora

open Std

namespace RunningDataflow

section Closing

variable (d : RunningDataflow) (now : Nat)

theorem dropInput_table (key : InputKey) : (d.dropInput key).table = d.table.close {key} := by
  have hcompare : ∀ k : InputKey, ¬compare key k = .eq ↔ k ≠ key := fun k => by
    rw [LawfulEqCmp.compare_eq_iff_eq, ne_comm]
  ext k
  · rfl
  · simp [table, dropInput, InputTable.close]
  · simp [table, dropInput, InputTable.close, TreeMap.mem_erase, hcompare, and_comm]
  · simp [table, dropInput, InputTable.close, TreeMap.mem_erase, hcompare, and_comm]
  · rfl

/-- The two results of the signal: silence, because the node has no channel or is not finished, or
one `AllInputsClosed` sent to a finished node. -/
inductive Signalled (d : RunningDataflow) (receiverId : NodeId) (d' : RunningDataflow) : Prop where
  | silent (htalk : Talk d d') (hchannels : d'.subscribeChannels = d.subscribeChannels)
      (hwhy : d.subscribeChannels[receiverId]? = none ∨
        ¬d.table.Finished d.timersGateDrain receiverId)
  | told (channel : Channel) (hget : d.subscribeChannels[receiverId]? = some channel)
      (hfinished : d.table.Finished d.timersGateDrain receiverId)
      (htable : d'.table = d.table) (hgate : d'.timersGateDrain = d.timersGateDrain)
      (hchannels : d'.subscribeChannels = d.subscribeChannels.insert receiverId
        (channel.sendWithTimestamp .allInputsClosed).1)
      (houtbox : d'.outbox = d.outbox ∨ d'.outbox = d.outbox ++ [(receiverId, .allInputsClosed)])

theorem signalled (receiverId : NodeId) :
    Signalled d receiverId (d.signalAllInputsClosedIfDrained now receiverId) := by
  unfold signalAllInputsClosedIfDrained
  split
  · rename_i hnone
    exact .silent (.refl d) rfl (.inl hnone)
  · rename_i channel hget
    obtain ⟨htable, hgate, hchannels, houtbox⟩ := d.disableRestartIfDrained_same receiverId
    set start := d.disableRestartIfDrained receiverId
    have hfinished : start.isFinished receiverId = true ↔
        d.table.Finished d.timersGateDrain receiverId := by
      rw [isFinished_iff, htable, hgate]
    dsimp only [announceIfFinished]
    by_cases h : start.isFinished receiverId = true
    · rw [if_pos h]
      have hstart : start.subscribeChannels[receiverId]? = some channel := by rw [hchannels, hget]
      have hsent := send_channels .allInputsClosed hstart
      rw [hchannels] at hsent
      have hout := start.send_outbox receiverId .allInputsClosed
      rw [houtbox] at hout
      have hgate' := (start.send_flows receiverId .allInputsClosed).gate.trans hgate
      have htable' := (start.send_table receiverId .allInputsClosed).trans htable
      split
      · exact .told channel hget (hfinished.mp h) htable' hgate' hsent hout
      · exact .told channel hget (hfinished.mp h) htable' hgate' hsent hout
    · rw [if_neg h]
      exact .silent (.of_eq htable hgate hchannels houtbox) hchannels
        (.inr fun hfin => h (hfinished.mpr hfin))

theorem signal_table (receiverId : NodeId) :
    (d.signalAllInputsClosedIfDrained now receiverId).table = d.table := by
  cases d.signalled now receiverId with
  | silent htalk => exact htalk.table
  | told channel hget hfinished htable => exact htable

theorem signal_flows (receiverId : NodeId) :
    Flows d (d.signalAllInputsClosedIfDrained now receiverId) := by
  cases d.signalled now receiverId with
  | silent htalk => exact htalk.toFlows
  | told channel hget hfinished htable hgate hchannels =>
    exact flows_insertChannel hget (channel.log_prefix_sendWithTimestamp _) hgate hchannels

theorem talk_announceClosed (key : InputKey) :
    Talk (d.dropInput key)
      (if (d.openInputs.members key.1).contains key.2 then
        ((d.dropInput key).send key.1 (.inputClosed key.2)).1 else d.dropInput key) := by
  split
  · exact send_talk _ _ _ (by simp)
  · exact .refl _

theorem closeInput_table (key : InputKey) :
    (closeInput now d key).table = d.table.close {key} := by
  dsimp only [closeInput]
  split
  · exact d.dropInput_table key
  · rw [signal_table, (d.talk_announceClosed key).table, dropInput_table]

theorem dropInput_flows (key : InputKey) : Flows d (d.dropInput key) := .of_eq rfl rfl

theorem closeInput_flows (key : InputKey) : Flows d (closeInput now d key) := by
  dsimp only [closeInput]
  split
  · exact d.dropInput_flows key
  · exact (d.dropInput_flows key).trans
      ((d.talk_announceClosed key).toFlows.trans (signal_flows _ now key.1))

theorem closeInputs_cons (key : InputKey) (keys : List InputKey) :
    d.closeInputs now (key :: keys) = (closeInput now d key).closeInputs now keys := rfl

theorem closeInputs_table (keys : List InputKey) :
    (d.closeInputs now keys).table = d.table.close {key | key ∈ keys} := by
  induction keys generalizing d with
  | nil => simp [closeInputs]
  | cons key keys ih =>
    rw [closeInputs_cons, ih, closeInput_table, InputTable.close_close]
    congr 1
    ext k
    simp

theorem closeInputs_flows (keys : List InputKey) : Flows d (d.closeInputs now keys) := by
  induction keys generalizing d with
  | nil => exact .refl d
  | cons key keys ih => exact (d.closeInput_flows now key).trans (ih _)

end Closing

structure Recovers (d d' : RunningDataflow) : Prop extends Quiet d d' where
  table : ∃ R ⊆ d.table.broken, d'.table = d.table.recover R

section Delivering

variable {d d' d'' : RunningDataflow}

theorem Talk.recovers (h : Talk d d') : Recovers d d' where
  toQuiet := h.toQuiet
  table := ⟨∅, Set.empty_subset _, by rw [InputTable.recover_empty, h.table]⟩

theorem Recovers.refl (d : RunningDataflow) : Recovers d d := (Talk.refl d).recovers

theorem Recovers.trans (h : Recovers d d') (h' : Recovers d' d'') : Recovers d d'' where
  toQuiet := h.toQuiet.trans h'.toQuiet
  table := by
    obtain ⟨R, hR, htable⟩ := h.table
    obtain ⟨R', hR', htable'⟩ := h'.table
    rw [htable] at hR' htable'
    have hsub : R' ⊆ d.table.broken := fun key hkey => (hR' hkey).1
    exact ⟨R ∪ R', Set.union_subset hR hsub, by rw [htable', InputTable.recover_recover]⟩

theorem Recovers.foldl {α : Type} {f : RunningDataflow → α → RunningDataflow}
    (h : ∀ d x, Recovers d (f d x)) (d : RunningDataflow) (l : List α) :
    Recovers d (l.foldl f d) := by
  induction l generalizing d with
  | nil => exact .refl d
  | cons x l ih => exact (h d x).trans (ih (f d x))

variable (d) (now : Nat) (key : InputKey)

theorem talk_refreshDeadline : Talk d (d.refreshDeadline now key) := by
  refine .of_eq ?_ rfl rfl rfl
  ext k
  · rfl
  · rfl
  · rfl
  · simp [RunningDataflow.table, refreshDeadline, TreeMap.mem_modify]
  · rfl

theorem reopen_table (timeout : Duration) :
    ({ d with
      brokenInputs := d.brokenInputs.erase key
      openInputs := d.openInputs.add key.1 key.2
      inputDeadlines := d.inputDeadlines.insert key { timeout, lastReceived := some now } } :
      RunningDataflow).table = d.table.recover {key} := by
  have hcompare : ∀ k : InputKey, compare key k = .eq ↔ k = key := fun k => by
    rw [LawfulEqCmp.compare_eq_iff_eq, eq_comm]
  ext k
  · rfl
  · simp [RunningDataflow.table, InputTable.recover]
  · simp [RunningDataflow.table, InputTable.recover, TreeMap.mem_erase, hcompare, and_comm]
  · simp [RunningDataflow.table, InputTable.recover, TreeMap.mem_insert, hcompare]
  · rfl

theorem recoverInput_recovers : Recovers d (d.recoverInput now key) := by
  unfold recoverInput
  split
  · exact .refl d
  · rename_i timeout hget
    have hbroken : key ∈ d.table.broken := by
      show key ∈ d.brokenInputs
      rw [TreeMap.mem_iff_isSome_getElem?, hget]
      rfl
    have hreopen : Recovers d { d with
        brokenInputs := d.brokenInputs.erase key
        openInputs := d.openInputs.add key.1 key.2
        inputDeadlines := d.inputDeadlines.insert key { timeout, lastReceived := some now } } :=
      { toQuiet := .of_eq rfl rfl rfl
        table := ⟨{key}, Set.singleton_subset_iff.mpr hbroken, d.reopen_table now key timeout⟩ }
    exact hreopen.trans (send_talk _ _ _ (by simp)).recovers

theorem noteOutputSentTo_recovers : Recovers d (noteOutputSentTo now d key) := by
  unfold noteOutputSentTo
  split
  · exact .refl d
  · split
    · exact (d.talk_refreshDeadline now key).recovers.trans (recoverInput_recovers _ now key)
    · exact .refl d

theorem noteOutputSent_recovers (output : OutputId) :
    Recovers d (d.noteOutputSentToLocalReceivers now output) := by
  unfold noteOutputSentToLocalReceivers
  split
  · exact .refl d
  · exact .foldl (fun d key => d.noteOutputSentTo_recovers now key) d _

theorem talk_offerEvent {channel : Channel} {event : NodeEvent} (mayHold : Bool)
    (hget : d.subscribeChannels[key.1]? = some channel) (hevent : event ≠ .allInputsClosed) :
    Talk d (d.offerEvent channel key event mayHold).1 := by
  dsimp only [offerEvent]
  split
  · exact .refl d
  · split
    · refine ⟨⟨flows_insertChannel hget (trySend_logExtends channel event) rfl rfl, ?_⟩, rfl⟩
      intro n hmem
      rw [List.mem_append, List.mem_singleton, Prod.mk.injEq] at hmem
      exact hmem.resolve_right fun h => hevent h.2.symm
    · exact .refl d
    · exact .refl d

theorem deliverTo_recovers (metadata : Metadata) (data : Option DataMessage) (mayHold : Bool)
    (state : RunningDataflow × List NodeId) :
    Recovers state.1 (deliverTo now metadata data mayHold state key).1 := by
  dsimp only [deliverTo]
  split
  · rename_i channel hget
    have hoffer := @talk_offerEvent state.1 key channel (.input key.2 metadata data) mayHold hget
      (by simp)
    have hrecover : ∀ d', Talk state.1 d' →
        Recovers state.1 ((d'.refreshDeadline now key).recoverInput now key) := fun d' h =>
      h.recovers.trans ((d'.talk_refreshDeadline now key).recovers.trans
        (recoverInput_recovers _ now key))
    split
    · exact hrecover _ hoffer
    · exact hrecover _ hoffer
    · exact hoffer.recovers
    · exact hoffer.recovers
  · split
    · have hwarn : Talk state.1 { state.1 with
          missingChannelWarned := state.1.missingChannelWarned.insert key } :=
        .of_eq rfl rfl rfl rfl
      exact hwarn.recovers
    · exact .refl _

theorem sendOutput_recovers (output : OutputId) (metadata : Metadata) (data : Option DataMessage)
    (mayHold : Bool) :
    Recovers d (d.sendOutputToLocalReceivers now output metadata data mayHold) := by
  -- the fold carries the closed receivers along
  have hfold : ∀ (keys : List InputKey) (state : RunningDataflow × List NodeId),
      Recovers state.1 (keys.foldl (deliverTo now metadata data mayHold) state).1 := by
    intro keys
    induction keys with
    | nil => exact fun state => .refl state.1
    | cons key rest ih =>
      intro state
      exact (deliverTo_recovers now key metadata data mayHold state).trans
        (ih (deliverTo now metadata data mayHold state key))
  exact (hfold _ (d, [])).trans (talk_removeChannels _ _).recovers

end Delivering

section Expiring

variable {d d' : RunningDataflow} (now : Nat)

theorem expireInput_trips (entry : InputKey × Duration) (hopen : entry.1 ∈ d.table.opened) :
    Quiet d (expireInput now d entry) ∧
      (expireInput now d entry).table = d.table.trip {entry.1} := by
  obtain ⟨⟨nodeId, inputId⟩, timeout⟩ := entry
  have hcontains : (d.openInputs.members nodeId).contains inputId = true := by
    rw [TreeSet.contains_iff_mem]
    exact hopen
  -- the state in which the announcement is made, and its table
  let marked : RunningDataflow := { d with
    brokenInputs := d.brokenInputs.insert (nodeId, inputId) timeout
    openInputs := d.openInputs.remove nodeId inputId }
  have hmarked : marked.table = d.table.trip {(nodeId, inputId)} := by
    have hcompare : ∀ k : InputKey, compare (nodeId, inputId) k = .eq ↔ k = (nodeId, inputId) :=
      fun k => by rw [LawfulEqCmp.compare_eq_iff_eq, eq_comm]
    ext k
    · rfl
    · simp [marked, RunningDataflow.table, InputTable.trip]
    · simp [marked, RunningDataflow.table, InputTable.trip, TreeMap.mem_insert, hcompare]
    · rfl
    · rfl
  have hsent : Talk marked (marked.send nodeId (.inputClosed inputId)).1 :=
    marked.send_talk nodeId _ (by simp)
  have hunfold : expireInput now d ((nodeId, inputId), timeout) =
      (marked.send nodeId (.inputClosed inputId)).1.signalAllInputsClosedIfDrained now nodeId := by
    simp [expireInput, breakInput, hcontains, marked]
  have hbroken : (nodeId, inputId) ∈ (marked.send nodeId (.inputClosed inputId)).1.table.broken := by
    rw [hsent.table, hmarked]
    exact .inr rfl
  have hquiet : Quiet d marked := .of_eq rfl rfl rfl
  rw [hunfold]
  cases signalled (marked.send nodeId (.inputClosed inputId)).1 now nodeId with
  | silent htalk =>
    have htable := (hsent.trans htalk).table
    exact ⟨hquiet.trans (hsent.trans htalk).toQuiet, htable.trans hmarked⟩
  | told channel hget hfinished => exact absurd hbroken (hfinished.unbroken inputId)

theorem expireInputs_trip (entries : List (InputKey × Duration))
    (hnodup : (entries.map Prod.fst).Nodup) (hopen : ∀ entry ∈ entries, entry.1 ∈ d.table.opened) :
    Quiet d (entries.foldl (expireInput now) d) ∧
      (entries.foldl (expireInput now) d).table =
        d.table.trip {key | key ∈ entries.map Prod.fst} := by
  induction entries generalizing d with
  | nil => exact ⟨.of_eq rfl rfl rfl, by simp⟩
  | cons entry rest ih =>
    rw [List.map_cons, List.nodup_cons] at hnodup
    obtain ⟨hquiet, htable⟩ := expireInput_trips now entry (hopen entry (by simp))
    -- the keys are distinct, so the others are still open
    have hrest : ∀ other ∈ rest, other.1 ∈ (expireInput now d entry).table.opened := by
      intro other hother
      rw [htable]
      have hne : other.1 ≠ entry.1 := fun heq =>
        hnodup.1 (heq ▸ List.mem_map_of_mem hother)
      exact ⟨hopen other (by simp [hother]), hne⟩
    obtain ⟨hquiet', htable'⟩ := ih hnodup.2 hrest
    refine ⟨hquiet.trans hquiet', ?_⟩
    rw [List.foldl_cons, htable', htable, InputTable.trip_trip]
    congr 1
    ext k
    simp

variable (d) (order : List InputKey)

theorem timedOut_keys_nodup : ((d.timedOut now order).map Prod.fst).Nodup := by
  have hkeys : d.inputDeadlines.keys.Nodup := TreeMap.distinct_keys.imp fun hne heq => by
    rw [heq] at hne
    simp at hne
  refine Lib.nodup_map_filterMap _ (Lib.inOrder_nodup hkeys) fun key entry h => ?_
  -- the filter keeps the key it is given
  split at h
  · cases h
  · split at h
    · split at h
      · cases h
        rfl
      · cases h
    · cases h

theorem timedOut_deadline {entry : InputKey × Duration} (h : entry ∈ d.timedOut now order) :
    entry.1 ∈ d.inputDeadlines := by
  rw [timedOut, List.mem_filterMap] at h
  obtain ⟨key, -, hentry⟩ := h
  split at hentry
  · cases hentry
  · split at hentry
    · rename_i deadline hget
      split at hentry
      · cases hentry
        rw [TreeMap.mem_iff_isSome_getElem?, hget]
        rfl
      · cases hentry
    · cases hentry

theorem mem_eraseDeadlines (entries : List (InputKey × Duration))
    (deadlines : TreeMap InputKey InputDeadline) (key : InputKey) :
    key ∈ entries.foldl (fun deadlines entry => deadlines.erase entry.1) deadlines ↔
      key ∈ deadlines ∧ key ∉ entries.map Prod.fst := by
  induction entries generalizing deadlines with
  | nil => simp
  | cons entry rest ih =>
    rw [List.foldl_cons, ih, TreeMap.mem_erase, List.map_cons, List.mem_cons, not_or, ne_eq,
      LawfulEqCmp.compare_eq_iff_eq, eq_comm]
    tauto

theorem checkInputTimeouts_expires (hconsistent : d.table.Consistent) :
    Quiet d (d.checkInputTimeouts now order) ∧
      ∃ K ⊆ d.table.deadlines, (d.checkInputTimeouts now order).table = d.table.expire K := by
  have hdeadline : ∀ entry ∈ d.timedOut now order, entry.1 ∈ d.table.deadlines :=
    fun entry h => d.timedOut_deadline now order h
  obtain ⟨hquiet, htable⟩ := expireInputs_trip now (d.timedOut now order)
    (d.timedOut_keys_nodup now order)
    fun entry h => hconsistent.deadlines_open _ (hdeadline entry h)
  refine ⟨hquiet.trans (.of_eq rfl rfl rfl), {key | key ∈ (d.timedOut now order).map Prod.fst},
    fun key hkey => ?_, ?_⟩
  · obtain ⟨entry, hentry, rfl⟩ := List.mem_map.mp hkey
    exact hdeadline entry hentry
  · -- the deadlines are untouched until the fold that erases them
    have hkeep : {key | key ∈ ((d.timedOut now order).foldl (expireInput now) d).inputDeadlines} =
        d.table.deadlines := congrArg InputTable.deadlines htable
    ext k
    · exact Set.ext_iff.mp (congrArg InputTable.edges htable) k
    · exact Set.ext_iff.mp (congrArg InputTable.opened htable) k
    · exact Set.ext_iff.mp (congrArg InputTable.broken htable) k
    · show k ∈ (d.checkInputTimeouts now order).inputDeadlines ↔ _
      have hk := Set.ext_iff.mp hkeep k
      rw [Set.mem_ofPred_eq] at hk
      rw [checkInputTimeouts, mem_eraseDeadlines, hk]
      rfl
    · exact Set.ext_iff.mp (congrArg InputTable.data htable) k

end Expiring

end RunningDataflow

end Dora
