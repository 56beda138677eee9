import Dora.Coordinator.ParamMoves
import Dora.Coordinator.StateLog

/-!
# What the coordinator's books say in every run

The replication log is always a tail of the numbered mutations, the last mutation of a key is its row,
and whatever is about to be sent to a daemon is about the nodes that run there.
-/

namespace Dora.Coord

open Std Lib

theorem getElem?_foldl_insert {K V : Type} [Ord K] [TransOrd K] [LawfulEqOrd K] [DecidableEq K] (f : K → V)
    (keys : List K) (m : TreeMap K V) (k : K) :
    (keys.foldl (fun m k => m.insert k (f k)) m)[k]? = if k ∈ keys then some (f k) else m[k]? := by
  induction keys generalizing m with
  | nil => simp
  | cons key keys ih =>
    rw [List.foldl_cons, ih, TreeMap.getElem?_insert]
    by_cases hk : k ∈ keys
    · simp [hk]
    · by_cases heq : key = k
      · simp [heq]
      · have hne : ¬k = key := Ne.symm heq
        rw [if_neg hk, if_neg (fun h => heq (Std.compare_eq_iff_eq.mp h))]
        simp [hk, hne]

/-- The log is in order, and the placement is `home`. -/
structure Booked (home : NodeId → DaemonId) (mutations : List ParamChange) (df : ParamDataflow) : Prop
    extends Logged mutations df where
  homes : ∀ (n : NodeId) (d : DaemonId), df.nodeToDaemon[n]? = some d → home n = d

namespace Booked

variable {home : NodeId → DaemonId} {mutations : List ParamChange} {df : ParamDataflow} {d : DaemonId}

theorem appendStateLog (h : Booked home mutations df) (c : ParamChange) :
    Booked home (mutations ++ [c]) (df.appendStateLog c) :=
  ⟨h.toLogged.appendStateLog c, h.homes⟩

theorem stateCatchUpAck (h : Booked home mutations df) (ack : Nat) :
    Booked home mutations (df.stateCatchUpAck d ack) := by
  refine ⟨h.toLogged.stateCatchUpAck ack, ?_⟩
  unfold ParamDataflow.stateCatchUpAck
  split <;> exact h.homes

theorem relink {reported : List NodeId} (h : Booked home mutations df)
    (hreported : ∀ n ∈ reported, home n = d) : Booked home mutations (df.relink d reported) := by
  refine ⟨⟨h.sequence, h.log, h.acks⟩, ?_⟩
  intro n d' hn
  rw [ParamDataflow.relink, getElem?_foldl_insert (fun _ => d)] at hn
  split at hn
  · rename_i hmem
    exact (hreported n hmem).trans (Option.some.inj hn)
  · exact h.homes n d' hn

theorem recovered {reported : List NodeId} (hreported : ∀ n ∈ reported, home n = d) :
    Booked home [] (ParamDataflow.recovered d reported) := by
  refine ⟨⟨rfl, ⟨0, Nat.le_refl 0, rfl⟩, ?_⟩, ?_⟩
  · intro d' ack hack
    simp only [ParamDataflow.recovered, TreeMap.getElem?_insert] at hack
    split at hack
    · exact Nat.le_of_eq (Option.some.inj hack).symm
    · simp at hack
  · intro n d' hn
    rw [ParamDataflow.recovered, getElem?_foldl_insert (fun _ => d)] at hn
    split at hn
    · rename_i hmem
      exact (hreported n hmem).trans (Option.some.inj hn)
    · simp at hn

theorem home_of_mem_nodesOnDaemon (h : Booked home mutations df) {n : NodeId}
    (hn : n ∈ df.nodesOnDaemon d) : home n = d := h.homes n d (ParamDataflow.mem_nodesOnDaemon.mp hn)

end Booked

def EventLoop.forwards : EventLoop → Option ParamKey
  | .forwarding _ c => some c.key
  | _ => none

def EventLoop.replays : EventLoop → Option DaemonId
  | .replaying d _ _ => some d
  | _ => none

namespace ParamWorld

variable {w w' : ParamWorld}

def LoopKept (w : ParamWorld) : Prop :=
  match w.loop with
  | .idle => True
  | .forwarding d c => w.home c.key.1 = d ∧ c.image = w.row c.key
  | .replaying d items _ => ∀ c ∈ items, w.home c.key.1 = d ∧ c.image = w.row c.key

structure Kept (w : ParamWorld) : Prop where
  booked : ∀ df ∈ w.entry, Booked w.home w.mutations df
  rows : w.entry.isSome → ∀ k, lastImage (w.row k) (changesOf k w.mutations) = w.row k
  loop : w.LoopKept
  taskNodes : ∀ t ∈ w.tasks, ∀ n ∈ t.nodes, w.home n = t.daemon
  taskItems : ∀ t ∈ w.tasks, ∀ c ∈ t.items, w.home c.key.1 = t.daemon

namespace Kept

variable {d : DaemonId} {c : ParamChange} {df : ParamDataflow}

theorem log (h : Kept w) (hentry : w.entry = some df) (hd : df.nodeToDaemon[c.key.1]? = some d) :
    Kept { w.writeRow c with
      entry := some (df.appendStateLog c), mutations := w.mutations ++ [c], loop := .forwarding d c } := by
  have hbooked := h.booked df hentry
  refine ⟨?_, ?_, ⟨hbooked.homes _ d hd, (w.row_writeRow_self c).symm⟩, h.taskNodes, h.taskItems⟩
  · rintro df' ⟨⟩
    exact hbooked.appendStateLog c
  · intro _ k
    have hrow := h.rows (by rw [hentry]; rfl) k
    show lastImage ((w.writeRow c).row k) (changesOf k (w.mutations ++ [c])) = (w.writeRow c).row k
    rw [row_writeRow, changesOf_append, changesOf_cons, changesOf_nil, List.append_nil]
    by_cases hk : c.key = k
    · rw [if_pos hk, if_pos hk, lastImage_concat]
    · rw [if_neg hk, if_neg hk, List.append_nil, hrow]

theorem persist (h : Kept w) (hloop : w.loop = .idle) (hentry : w.entry = none) : Kept (w.writeRow c) := by
  refine ⟨?_, ?_, ?_, h.taskNodes, h.taskItems⟩
  · intro df hdf
    rw [show (w.writeRow c).entry = none from hentry] at hdf
    cases hdf
  · intro hsome
    rw [show (w.writeRow c).entry = none from hentry] at hsome
    cases hsome
  · simp only [LoopKept, show (w.writeRow c).loop = .idle from hloop]

theorem put (h : Kept w) (m : ParamMessage) : Kept (w.put d m) :=
  ⟨h.booked, h.rows, h.loop, h.taskNodes, h.taskItems⟩

theorem toIdle (h : Kept w) : Kept { w with loop := .idle } :=
  ⟨h.booked, h.rows, trivial, h.taskNodes, h.taskItems⟩

theorem addTasks {tasks : List ReplayTask} (h : Kept w) (hdf : Booked w.home w.mutations df)
    (htasks : ∀ t ∈ tasks, t.nodes = df.nodesOnDaemon t.daemon ∧ t.items = []) :
    Kept { w with tasks := w.tasks ++ tasks } := by
  refine ⟨h.booked, h.rows, h.loop, ?_, ?_⟩
  · intro t ht n hn
    rcases List.mem_append.mp ht with ht | ht
    · exact h.taskNodes t ht n hn
    · rw [(htasks t ht).1] at hn
      exact hdf.home_of_mem_nodesOnDaemon hn
  · intro t ht c hc
    rcases List.mem_append.mp ht with ht | ht
    · exact h.taskItems t ht c hc
    · rw [(htasks t ht).2] at hc
      cases hc

theorem startReplay (h : Kept w) (hdf : Booked w.home w.mutations df) : Kept (w.startReplay df d) := by
  refine h.addTasks hdf ?_
  intro t ht
  rw [List.mem_singleton.mp ht]
  exact ⟨rfl, rfl⟩

theorem broadcastAllNodesReady (h : Kept w) (hdf : Booked w.home w.mutations df) :
    Kept (w.broadcastAllNodesReady df) := by
  rw [broadcastAllNodesReady_eq]
  have htasks : Kept { w with
      tasks := w.tasks ++ (df.daemons.toList.filter fun d => (w.links d).isSome).map fun daemon =>
        { daemon, nodes := df.nodesOnDaemon daemon } } := by
    apply h.addTasks hdf
    intro t ht
    obtain ⟨d, -, rfl⟩ := List.mem_map.mp ht
    exact ⟨rfl, rfl⟩
  exact ⟨htasks.booked, htasks.rows, htasks.loop, htasks.taskNodes, htasks.taskItems⟩

variable {failed i now : Nat}

theorem setTask {t t' : ReplayTask} (h : Kept w) (ht : w.tasks[i]? = some t)
    (hdaemon : t'.daemon = t.daemon) (hnodes : ∀ n ∈ t'.nodes, n ∈ t.nodes)
    (hitems : ∀ c ∈ t'.items, c ∈ t.items ∨ c.key.1 ∈ t.nodes) :
    Kept { w with tasks := w.tasks.set i t' } := by
  have hmem : t ∈ w.tasks := List.mem_of_getElem? ht
  refine ⟨h.booked, h.rows, h.loop, ?_, ?_⟩
  · intro s hs n hn
    rcases List.mem_or_eq_of_mem_set hs with hs | rfl
    · exact h.taskNodes s hs n hn
    · rw [hdaemon]
      exact h.taskNodes t hmem n (hnodes n hn)
  · intro s hs c hc
    rcases List.mem_or_eq_of_mem_set hs with hs | rfl
    · exact h.taskItems s hs c hc
    · rw [hdaemon]
      rcases hitems c hc with hc | hc
      · exact h.taskItems t hmem c hc
      · exact h.taskNodes t hmem _ hc

variable {items : List ParamChange}

theorem taskRead {readable : Bool} {n : NodeId} {nodes : List NodeId}
    (h : Kept w) (ht : w.tasks[i]? = some ⟨d, n :: nodes, items⟩) :
    Kept { w with tasks := w.tasks.set i ⟨d, nodes, items ++ if readable then w.nodeParams n else []⟩ } := by
  refine h.setTask ht rfl (fun _ hn => List.mem_cons_of_mem _ hn) ?_
  intro c hc
  rcases List.mem_append.mp hc with hc | hc
  · exact .inl hc
  · split at hc
    · exact .inr ((mem_nodeParams.mp hc).1 ▸ List.mem_cons_self)
    · cases hc

theorem taskSent {item : ParamChange} (h : Kept w) (ht : w.tasks[i]? = some ⟨d, [], item :: items⟩) :
    Kept { w with tasks := w.tasks.set i ⟨d, [], items⟩ } :=
  h.setTask ht rfl (fun _ hn => hn) (fun _ hc => .inl (List.mem_cons_of_mem item hc))

theorem handleMessage (h : Kept w) (room : Nat) (m : ParamMessage) : Kept (w.handleMessage d room m) := by
  cases m with
  | param c =>
    simp only [ParamWorld.handleMessage]
    split <;> exact ⟨h.booked, h.rows, h.loop, h.taskNodes, h.taskItems⟩
  | stateCatchUp entries => exact ⟨h.booked, h.rows, h.loop, h.taskNodes, h.taskItems⟩

theorem setEntry {entry : Option ParamDataflow} (h : Kept w)
    (hentry : ∀ df ∈ entry, w.entry.isSome ∧ Booked w.home w.mutations df) :
    Kept { w with entry := entry } := by
  refine ⟨fun df hdf => (hentry df hdf).2, ?_, h.loop, h.taskNodes, h.taskItems⟩
  intro hsome
  obtain ⟨df, hdf⟩ := Option.isSome_iff_exists.mp hsome
  exact h.rows (hentry df hdf).1

theorem mapEntry {f : ParamDataflow → ParamDataflow} (h : Kept w)
    (hf : ∀ df, Booked w.home w.mutations df → Booked w.home w.mutations (f df)) :
    Kept { w with entry := w.entry.map f } := by
  apply h.setEntry
  intro df' hdf'
  obtain ⟨df, hdf, rfl⟩ := Option.mem_map.mp hdf'
  exact ⟨by rw [Option.mem_def.mp hdf]; rfl, hf df (h.booked df hdf)⟩

theorem ackArrives (h : Kept w) (ack : Nat) :
    Kept { w.ackLost d with entry := w.entry.map fun df => df.stateCatchUpAck d ack } := by
  have hmap := h.mapEntry (f := fun df => df.stateCatchUpAck d ack) (fun df hdf => hdf.stateCatchUpAck ack)
  exact ⟨hmap.booked, hmap.rows, hmap.loop, hmap.taskNodes, hmap.taskItems⟩

theorem reestablish {reported : List NodeId} (h : Kept w) (hloop : w.loop = .idle)
    (hreported : ∀ n ∈ reported, w.home n = d) : Kept (w.reestablish d reported) := by
  unfold ParamWorld.reestablish
  split
  · rename_i df hdf
    apply h.setEntry
    rintro df' ⟨⟩
    exact ⟨by rw [hdf]; rfl, (h.booked df hdf).relink hreported⟩
  · refine ⟨?_, fun _ k => rfl, ?_, h.taskNodes, h.taskItems⟩
    · rintro df' ⟨⟩
      exact Booked.recovered hreported
    · simp only [LoopKept, hloop]

theorem replayAllNodesReady (h : Kept w) : Kept (w.replayAllNodesReady d) := by
  unfold ParamWorld.replayAllNodesReady
  split
  · rename_i df hdf
    split
    · exact h.startReplay (h.booked df hdf)
    · exact h
  · exact h

theorem continueReplay (h : Kept w)
    (hitems : ∀ c ∈ items, w.home c.key.1 = d ∧ c.image = w.row c.key) :
    Kept (w.continueReplay d items failed) := by
  unfold ParamWorld.continueReplay
  split
  · unfold finishReplay
    split
    · have hmap := h.mapEntry (f := fun df => df.setAck d df.stateLogSequence)
        (fun df hdf => ⟨hdf.toLogged.setAck (Nat.le_refl _), hdf.homes⟩)
      exact hmap.toIdle
    · exact h.toIdle
  · exact ⟨h.booked, h.rows, hitems, h.taskNodes, h.taskItems⟩

theorem stateCatchUp {unreadable : List NodeId} (h : Kept w) :
    Kept (w.stateCatchUp d now unreadable) := by
  unfold ParamWorld.stateCatchUp
  split
  · exact h
  · rename_i df hdf
    have hbooked := h.booked df hdf
    split
    · exact h
    · split
      · exact h
      · exact h.put _
      · unfold handlePrunedStateCatchupFallback
        split
        · exact h
        · refine continueReplay ?_ ?_
          · apply h.setEntry
            rintro df' ⟨⟩
            exact ⟨by rw [hdf]; rfl, ⟨hbooked.sequence, hbooked.log, hbooked.acks⟩, hbooked.homes⟩
          · intro c hc
            obtain ⟨⟨hn, -⟩, himage, -⟩ := mem_collectParamReplayItems.mp hc
            exact ⟨hbooked.home_of_mem_nodesOnDaemon hn, himage⟩

theorem catchUpEntries (h : Kept w) (d : DaemonId) :
    w.catchUpEntries d = [] ∨ ∃ df, w.entry = some df ∧
      w.catchUpEntries d = numbered (df.lastAck d) (w.mutations.drop (df.lastAck d)) := by
  cases hentry : w.entry with
  | none =>
    left
    rw [ParamWorld.catchUpEntries, hentry]
  | some df =>
    simp only [ParamWorld.catchUpEntries, hentry]
    by_cases hack : df.stateLogSequence ≤ df.lastAck d
    · exact .inl (if_pos hack)
    · rw [if_neg hack]
      cases hdelta : df.stateLogDelta (df.lastAck d) with
      | none => exact .inl rfl
      | some es =>
        exact .inr ⟨df, rfl, (h.booked df hentry).stateLogDelta (Nat.le_of_not_le hack) hdelta⟩

theorem report {runningNodes : List NodeId} {unreadable : List NodeId} (h : Kept w)
    (hloop : w.loop = .idle) : Kept (w.handleDaemonStatusReport d runningNodes now unreadable) := by
  refine (Kept.reestablish h hloop ?_).replayAllNodesReady.stateCatchUp
  intro n hn
  simpa using (List.mem_filter.mp hn).2

theorem forwarding (h : Kept w) (hloop : w.loop = .forwarding d c) :
    w.home c.key.1 = d ∧ c.image = w.row c.key := by
  have hkept := h.loop
  simpa only [LoopKept, hloop] using hkept

theorem replaying (h : Kept w) (hloop : w.loop = .replaying d items failed) :
    ∀ c ∈ items, w.home c.key.1 = d ∧ c.image = w.row c.key := by
  have hkept := h.loop
  simpa only [LoopKept, hloop] using hkept

theorem dropConnection (h : Kept w) (link : Option (List ParamMessage)) : Kept (w.dropConnection d link) :=
  ⟨h.booked, h.rows, h.loop, fun t ht => h.taskNodes t (List.mem_of_mem_filter ht),
    fun t ht => h.taskItems t (List.mem_of_mem_filter ht)⟩

theorem exit (h : Kept w) : Kept (w.daemonExit d) := by
  have hentry : Kept { w with entry := (w.daemonExit d).entry } := by
    apply h.setEntry
    intro df' hdf'
    obtain ⟨df, hdf, hleft⟩ := Option.bind_eq_some_iff.mp hdf'
    have hbooked := h.booked df hdf
    refine ⟨by rw [hdf]; rfl, ?_⟩
    split at hleft
    · cases hleft
    · obtain rfl := Option.some.inj hleft
      refine ⟨⟨hbooked.sequence, hbooked.log, fun d' ack hack => hbooked.acks d' ack ?_⟩, hbooked.homes⟩
      rw [ParamDataflow.leave, TreeMap.getElem?_erase] at hack
      split at hack
      · cases hack
      · exact hack
  exact ⟨hentry.booked, hentry.rows, hentry.loop, hentry.taskNodes, hentry.taskItems⟩

theorem move {e : ParamEvent} (h : Kept w) (hmove : Move w e w') : Kept w' := by
  cases hmove with
  | stay => exact h
  | persist hloop hentry => exact h.persist hloop hentry
  | log _ hentry hd => exact h.log hentry hd
  | forward => exact (h.put _).toIdle
  | forwardFailed => exact h.toIdle
  | broadcast _ hentry => exact h.broadcastAllNodesReady (h.booked _ hentry)
  | taskRead ht => exact h.taskRead ht
  | taskSend ht =>
    have hsent := h.taskSent ht
    exact ⟨hsent.booked, hsent.rows, hsent.loop, hsent.taskNodes, hsent.taskItems⟩
  | taskSendFailed ht => exact h.taskSent ht
  | @handle d _ _ rest _ =>
    have hrest : Kept { w with links := Function.update w.links d (some rest) } :=
      ⟨h.booked, h.rows, h.loop, h.taskNodes, h.taskItems⟩
    exact hrest.handleMessage _ _
  | ackArrives => exact h.ackArrives _
  | ackLost => exact ⟨h.booked, h.rows, h.loop, h.taskNodes, h.taskItems⟩
  | report hloop => exact h.report hloop
  | itemDelivered hloop =>
    exact Kept.continueReplay ⟨h.booked, h.rows, h.loop, h.taskNodes, h.taskItems⟩
      fun c hc => h.replaying hloop c (List.mem_cons_of_mem _ hc)
  | itemFailed hloop => exact h.continueReplay fun c hc => h.replaying hloop c (List.mem_cons_of_mem _ hc)
  | itemLate hloop =>
    exact (h.put _).continueReplay fun c hc => h.replaying hloop c (List.mem_cons_of_mem _ hc)
  | connectionLost => exact h.dropConnection none
  | exit => exact h.exit
  | connect => exact h.dropConnection (some [])

end Kept

theorem report_eq (h : Kept w) (hloop : w.loop = .idle) (d : DaemonId) (runningNodes : List NodeId)
    (now : Nat) (unreadable : List NodeId) :
    ∃ w₁ : ParamWorld, Kept w₁ ∧ SameTraffic w w₁ ∧
      w₁.catchUpEntries d =
        (w.reestablish d (runningNodes.filter fun n => w.home n = d)).catchUpEntries d ∧
      w.handleDaemonStatusReport d runningNodes now unreadable = w₁.stateCatchUp d now unreadable := by
  refine ⟨_, (Kept.reestablish h hloop ?_).replayAllNodesReady,
    (SameTraffic.reestablish _).trans .replayAllNodesReady, ?_, rfl⟩
  · intro n hn
    simpa using (List.mem_filter.mp hn).2
  · rw [catchUpEntries, entry_replayAllNodesReady, catchUpEntries]

theorem kept_started (nodes : List NodeId) (home : NodeId → DaemonId) : Kept (started nodes home) := by
  refine ⟨?_, fun _ k => rfl, trivial, ?_, ?_⟩
  · rintro df ⟨⟩
    refine ⟨⟨rfl, ⟨0, Nat.le_refl 0, rfl⟩, ?_⟩, ?_⟩
    · intro d ack hack
      rw [getElem?_foldl_insert (fun _ => 0)] at hack
      split at hack
      · exact Nat.le_of_eq (Option.some.inj hack).symm
      · simp at hack
    · intro n d hn
      rw [getElem?_foldl_insert home] at hn
      split at hn
      · exact Option.some.inj hn
      · simp at hn
  · intro t ht
    cases ht
  · intro t ht
    cases ht

theorem kept_run (nodes : List NodeId) (home : NodeId → DaemonId) (events : List ParamEvent) :
    ((run turn (started nodes home) events).1.nodes = nodes ∧
      (run turn (started nodes home) events).1.home = home) ∧
      Kept (run turn (started nodes home) events).1 := by
  refine run_induction turn (P := fun _ _ w => (w.nodes = nodes ∧ w.home = home) ∧ Kept w)
    ⟨⟨rfl, rfl⟩, kept_started nodes home⟩ ?_ events
  rintro _ _ w e - ⟨⟨hnodes, hhome⟩, hkept⟩
  have hmove := step_move w e
  exact ⟨⟨hmove.places.1.trans hnodes, hmove.places.2.trans hhome⟩, hkept.move hmove⟩

end ParamWorld

end Dora.Coord
