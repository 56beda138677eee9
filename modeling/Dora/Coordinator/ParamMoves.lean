import Dora.Coordinator.Params

/-!
# What one event of the parameter machine does

The rows after a write and as replay items, what a step leaves alone, and one inversion lemma that says what
each event can do and in which state.
-/

namespace Dora.Coord

open Std Lib

namespace ParamWorld

variable {w w' : ParamWorld} {d : DaemonId} {k : ParamKey}

theorem row_writeRow (w : ParamWorld) (c : ParamChange) (k : ParamKey) :
    (w.writeRow c).row k = if c.key = k then c.image else w.row k := by
  obtain ⟨⟨n, key⟩, image⟩ := c
  obtain ⟨n', key'⟩ := k
  simp only [row, writeRow]
  by_cases hn : n = n'
  · subst hn
    rw [Function.update_self]
    by_cases hk : key = key'
    · subst hk
      cases image <;> simp
    · have hne : compare key key' ≠ .eq := by
        rw [ne_eq, Std.compare_eq_iff_eq]
        exact hk
      cases image <;> simp [TreeMap.getElem?_insert, TreeMap.getElem?_erase, hk]
  · rw [Function.update_of_ne (Ne.symm hn), if_neg]
    intro h
    exact hn (congrArg Prod.fst h)

theorem row_writeRow_self (w : ParamWorld) (c : ParamChange) : (w.writeRow c).row c.key = c.image := by
  rw [row_writeRow, if_pos rfl]

theorem mem_nodeParams {n : NodeId} {c : ParamChange} :
    c ∈ w.nodeParams n ↔ c.key.1 = n ∧ c.image = w.row c.key ∧ w.row c.key ≠ none := by
  obtain ⟨⟨n', key⟩, image⟩ := c
  simp only [nodeParams, List.mem_map, Prod.exists, setParam, row, Change.mk.injEq, Prod.mk.injEq,
    TreeMap.mem_toList_iff_getElem?_eq_some]
  constructor
  · rintro ⟨key', value, hrow, ⟨rfl, rfl⟩, rfl⟩
    exact ⟨rfl, hrow.symm, by simp [hrow]⟩
  · rintro ⟨rfl, himage, hne⟩
    obtain ⟨value, hvalue⟩ := Option.ne_none_iff_exists'.mp hne
    exact ⟨key, value, hvalue, ⟨rfl, rfl⟩, by rw [himage, hvalue]⟩

theorem mem_collectParamReplayItems {nodes unreadable : List NodeId} {c : ParamChange} :
    c ∈ w.collectParamReplayItems nodes unreadable ↔
      (c.key.1 ∈ nodes ∧ c.key.1 ∉ unreadable) ∧ c.image = w.row c.key ∧ w.row c.key ≠ none := by
  simp only [collectParamReplayItems, List.mem_flatMap, List.mem_filter, mem_nodeParams, decide_eq_true_eq]
  constructor
  · rintro ⟨n, hn, rfl, hc⟩
    exact ⟨hn, hc⟩
  · rintro ⟨hn, hc⟩
    exact ⟨c.key.1, hn, rfl, hc⟩

theorem broadcastAllNodesReady_eq (w : ParamWorld) (df : ParamDataflow) :
    w.broadcastAllNodesReady df =
      { w with
        readyBarrierReleased := true
        tasks := w.tasks ++ (df.daemons.toList.filter fun d => (w.links d).isSome).map fun daemon =>
          { daemon, nodes := df.nodesOnDaemon daemon } } := by
  have hstart : ∀ (ds : List DaemonId) (w : ParamWorld), ds.foldl (fun w d => w.startReplay df d) w =
      { w with tasks := w.tasks ++ ds.map fun daemon => { daemon, nodes := df.nodesOnDaemon daemon } } := by
    intro ds
    induction ds with
    | nil => simp
    | cons d ds ih =>
      intro w
      rw [List.foldl_cons, ih]
      simp [startReplay]
  exact hstart _ _

inductive Move (w : ParamWorld) : ParamEvent → ParamWorld → Prop
  | stay (e : ParamEvent) : Move w e w
  | persist {c : ParamChange} (hloop : w.loop = .idle) (hentry : w.entry = none) :
      Move w (.request c) (w.writeRow c)
  | log {c : ParamChange} {df : ParamDataflow} {d : DaemonId} (hloop : w.loop = .idle)
      (hentry : w.entry = some df) (hd : df.nodeToDaemon[c.key.1]? = some d) :
      Move w (.request c)
        { w.writeRow c with
          entry := some (df.appendStateLog c), mutations := w.mutations ++ [c], loop := .forwarding d c }
  | forward {d : DaemonId} {c : ParamChange} (hloop : w.loop = .forwarding d c) :
      Move w (.forward true) { w.put d (.param c) with loop := .idle }
  | forwardFailed {d : DaemonId} {c : ParamChange} (hloop : w.loop = .forwarding d c) :
      Move w (.forward false) { w with loop := .idle }
  | broadcast {df : ParamDataflow} (hloop : w.loop = .idle) (hentry : w.entry = some df) :
      Move w .broadcastAllNodesReady (w.broadcastAllNodesReady df)
  | taskRead {i : Nat} {readable : Bool} {d : DaemonId} {n : NodeId} {nodes : List NodeId}
      {items : List ParamChange} (ht : w.tasks[i]? = some ⟨d, n :: nodes, items⟩) :
      Move w (.taskRead i readable)
        { w with tasks := w.tasks.set i ⟨d, nodes, items ++ if readable then w.nodeParams n else []⟩ }
  | taskSend {i : Nat} {d : DaemonId} {item : ParamChange} {items : List ParamChange}
      (ht : w.tasks[i]? = some ⟨d, [], item :: items⟩) :
      Move w (.taskSend i true) { w.put d (.param item) with tasks := w.tasks.set i ⟨d, [], items⟩ }
  | taskSendFailed {i : Nat} {d : DaemonId} {item : ParamChange} {items : List ParamChange}
      (ht : w.tasks[i]? = some ⟨d, [], item :: items⟩) :
      Move w (.taskSend i false) { w with tasks := w.tasks.set i ⟨d, [], items⟩ }
  | handle {d : DaemonId} {room : Nat} {m : ParamMessage} {rest : List ParamMessage}
      (hlink : w.links d = some (m :: rest)) :
      Move w (.handle d room)
        (({ w with links := Function.update w.links d (some rest) } : ParamWorld).handleMessage d room m)
  | ackArrives {d : DaemonId} {ack : Nat} {acks : List Nat} (hloop : w.loop = .idle)
      (hacks : w.acks d = ack :: acks) :
      Move w (.ackArrives d)
        { w.ackLost d with entry := w.entry.map fun df => df.stateCatchUpAck d ack }
  | ackLost (d : DaemonId) : Move w (.ackLost d) (w.ackLost d)
  | report {d : DaemonId} {runningNodes : List NodeId} {now : Nat} {unreadable : List NodeId}
      (hloop : w.loop = .idle) (hlink : (w.links d).isSome) :
      Move w (.statusReport d runningNodes now unreadable)
        (w.handleDaemonStatusReport d runningNodes now unreadable)
  | itemDelivered {d : DaemonId} {item : ParamChange} {items : List ParamChange} {failed : Nat}
      (hloop : w.loop = .replaying d (item :: items) failed) (hlink : w.links d = some []) :
      Move w (.replayItem .delivered)
        (({ w with handed := w.handed ++ [item] } : ParamWorld).continueReplay d items failed)
  | itemFailed {d : DaemonId} {item : ParamChange} {items : List ParamChange} {failed : Nat}
      (hloop : w.loop = .replaying d (item :: items) failed) :
      Move w (.replayItem .failed) (w.continueReplay d items (failed + 1))
  | itemLate {d : DaemonId} {item : ParamChange} {items : List ParamChange} {failed : Nat}
      (hloop : w.loop = .replaying d (item :: items) failed) :
      Move w (.replayItem .late) ((w.put d (.param item)).continueReplay d items (failed + 1))
  | connectionLost (d : DaemonId) : Move w (.connectionLost d) (w.dropConnection d none)
  | exit {d : DaemonId} (hloop : w.loop = .idle) (hlink : w.links d = none) :
      Move w (.daemonExit d) (w.daemonExit d)
  | connect {d : DaemonId} (hloop : w.loop = .idle) : Move w (.connect d) (w.dropConnection d (some []))

theorem step_move (w : ParamWorld) (e : ParamEvent) : Move w e (w.step e) := by
  unfold step
  split
  · split
    · rename_i hloop
      unfold handleParamRequest
      split
      · rename_i hentry
        split
        · exact .persist hloop hentry
        · exact .stay _
      · rename_i hentry
        split
        · exact .stay _
        · rename_i hd
          exact .log hloop hentry hd
    · exact .stay _
  · rename_i sent
    split
    · rename_i hloop
      cases sent
      · exact .forwardFailed hloop
      · exact .forward hloop
    · exact .stay _
  · split
    · rename_i hloop hentry
      exact .broadcast hloop hentry
    · exact .stay _
  · unfold taskRead
    split
    · rename_i ht
      exact .taskRead ht
    · exact .stay _
  · rename_i sent
    unfold taskSend
    split
    · rename_i ht
      cases sent
      · exact .taskSendFailed ht
      · exact .taskSend ht
    · exact .stay _
  · unfold handle
    split
    · rename_i hlink
      exact .handle hlink
    · exact .stay _
  · split
    · rename_i hloop
      unfold ackArrives
      split
      · exact .stay _
      · rename_i hacks
        exact .ackArrives hloop hacks
    · exact .stay _
  · exact .ackLost _
  · split
    · rename_i hloop hlink
      exact .report hloop (by rw [hlink]; rfl)
    · exact .stay _
  · rename_i outcome
    split
    · rename_i hloop
      cases outcome with
      | delivered =>
        simp only [replayItem]
        split
        · rename_i hlink
          exact .itemDelivered hloop hlink
        · exact .stay _
      | failed => exact .itemFailed hloop
      | late => exact .itemLate hloop
    · exact .stay _
  · exact .connectionLost _
  · split
    · rename_i hloop hlink
      exact .exit hloop hlink
    · exact .stay _
  · split
    · rename_i hloop
      exact .connect hloop
    · exact .stay _

structure SameTraffic (w w' : ParamWorld) : Prop where
  nodes : w'.nodes = w.nodes
  home : w'.home = w.home
  rows : w'.rows = w.rows
  links : w'.links = w.links
  handed : w'.handed = w.handed

namespace SameTraffic

theorem trans {w₁ w₂ w₃ : ParamWorld} (h : SameTraffic w₁ w₂) (h' : SameTraffic w₂ w₃) :
    SameTraffic w₁ w₃ :=
  ⟨h'.nodes.trans h.nodes, h'.home.trans h.home, h'.rows.trans h.rows,
    h'.links.trans h.links, h'.handed.trans h.handed⟩

theorem row (h : SameTraffic w w') : w'.row k = w.row k := by
  rw [ParamWorld.row, h.rows, ParamWorld.row]

theorem continueReplay (items : List ParamChange) (failed : Nat) :
    SameTraffic w (w.continueReplay d items failed) := by
  cases items <;> exact ⟨rfl, rfl, rfl, rfl, rfl⟩

theorem reestablish (reported : List NodeId) : SameTraffic w (w.reestablish d reported) := by
  unfold ParamWorld.reestablish
  split <;> exact ⟨rfl, rfl, rfl, rfl, rfl⟩

theorem replayAllNodesReady : SameTraffic w (w.replayAllNodesReady d) := by
  unfold ParamWorld.replayAllNodesReady
  split
  · split <;> exact ⟨rfl, rfl, rfl, rfl, rfl⟩
  · exact ⟨rfl, rfl, rfl, rfl, rfl⟩

theorem broadcastAllNodesReady (df : ParamDataflow) : SameTraffic w (w.broadcastAllNodesReady df) := by
  rw [broadcastAllNodesReady_eq]
  exact ⟨rfl, rfl, rfl, rfl, rfl⟩

end SameTraffic

theorem entry_replayAllNodesReady (w : ParamWorld) (d : DaemonId) :
    (w.replayAllNodesReady d).entry = w.entry := by
  unfold replayAllNodesReady
  split
  · split <;> rfl
  · rfl

/-- The entries that a status report of `d` makes the coordinator send. -/
def catchUpEntries (w : ParamWorld) (d : DaemonId) : List StateCatchUpEntry :=
  match w.entry with
  | none => []
  | some df =>
    if df.stateLogSequence ≤ df.lastAck d then [] else (df.stateLogDelta (df.lastAck d)).getD []

theorem stateCatchUp_cases (w : ParamWorld) (d : DaemonId) (now : Nat) (unreadable : List NodeId) :
    (w.catchUpEntries d = [] ∧ SameTraffic w (w.stateCatchUp d now unreadable) ∧
        (w.stateCatchUp d now unreadable).tasks = w.tasks) ∨
      w.stateCatchUp d now unreadable = w.put d (.stateCatchUp (w.catchUpEntries d)) := by
  have hstay : SameTraffic w w := ⟨rfl, rfl, rfl, rfl, rfl⟩
  cases hentry : w.entry with
  | none =>
    simp only [stateCatchUp, catchUpEntries, hentry]
    exact .inl ⟨trivial, hstay, trivial⟩
  | some df =>
    simp only [stateCatchUp, catchUpEntries, hentry]
    by_cases hack : df.stateLogSequence ≤ df.lastAck d
    · rw [if_pos hack, if_pos hack]
      exact .inl ⟨rfl, hstay, rfl⟩
    · rw [if_neg hack, if_neg hack]
      match hdelta : df.stateLogDelta (df.lastAck d) with
      | none =>
        refine .inl ⟨rfl, ?_⟩
        simp only [handlePrunedStateCatchupFallback]
        split
        · exact ⟨hstay, rfl⟩
        · have hset : ∀ entry, SameTraffic w { w with entry := entry } := fun _ => ⟨rfl, rfl, rfl, rfl, rfl⟩
          refine ⟨(hset _).trans (.continueReplay _ _), ?_⟩
          generalize w.collectParamReplayItems _ _ = items
          cases items <;> rfl
      | some [] => exact .inl ⟨rfl, hstay, rfl⟩
      | some (e :: es) => exact .inr rfl

theorem frame_stateCatchUp (w : ParamWorld) (d : DaemonId) (now : Nat) (unreadable : List NodeId) :
    (w.stateCatchUp d now unreadable).home = w.home ∧
      (∀ k, (w.stateCatchUp d now unreadable).row k = w.row k) ∧
      (w.stateCatchUp d now unreadable).tasks = w.tasks := by
  rcases stateCatchUp_cases w d now unreadable with ⟨-, hsame, htasks⟩ | hput
  · exact ⟨hsame.home, fun _ => hsame.row, htasks⟩
  · rw [hput]
    exact ⟨rfl, fun _ => rfl, rfl⟩

theorem Move.places {e : ParamEvent} (hmove : Move w e w') : w'.nodes = w.nodes ∧ w'.home = w.home := by
  cases hmove with
  | broadcast =>
    rw [broadcastAllNodesReady_eq]
    exact ⟨rfl, rfl⟩
  | itemDelivered | itemFailed | itemLate =>
    exact ⟨(SameTraffic.continueReplay _ _).nodes, (SameTraffic.continueReplay _ _).home⟩
  | @handle d room m rest =>
    cases m with
    | param c =>
      simp only [handleMessage]
      split <;> exact ⟨rfl, rfl⟩
    | stateCatchUp entries => exact ⟨rfl, rfl⟩
  | @report d runningNodes now unreadable =>
    simp only [handleDaemonStatusReport]
    generalize runningNodes.filter (fun n => w.home n = d) = reported
    have hsame := SameTraffic.trans (.reestablish (w := w) (d := d) reported)
      (.replayAllNodesReady (d := d))
    rcases stateCatchUp_cases ((w.reestablish d reported).replayAllNodesReady d) d now unreadable with
      ⟨-, hcatch, -⟩ | hcatch
    · exact ⟨(hsame.trans hcatch).nodes, (hsame.trans hcatch).home⟩
    · rw [hcatch]
      exact ⟨hsame.nodes, hsame.home⟩
  | _ => exact ⟨rfl, rfl⟩

end ParamWorld

end Dora.Coord
