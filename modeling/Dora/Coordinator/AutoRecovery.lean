import Dora.Coordinator.EventRefinement

/-!
# Auto-recovery of dataflows that a daemon does not report

A dataflow that should run on a daemon and is not in its status report is spawned again. Whether it
should is read off the set of its member daemons, which a disconnect has pruned before the daemon can come
back: only a daemon that registers again before its old connection has been given up is still a member.
-/

namespace Dora.Coord

open Std Lib

/-- A `Spawn` command for the dataflow. -/
def Effect.spawns (u : DataflowId) : Effect → Bool
  | .put _ _ (.spawn uuid _ _) => uuid = u
  | _ => false

@[ext] structure RecoveryView where
  entry : Option RunningDataflow
  now : Nat
  connection : Option (ConnectionId × Bool)
  spawns : List Effect

namespace Coordinator

variable {s : Coordinator} {u uuid : DataflowId} {d d' : DaemonId} {df : RunningDataflow}

def recoveryView (s : Coordinator) (d : DaemonId) (u : DataflowId) : RecoveryView where
  entry := s.runningDataflows[u]?
  now := s.now
  connection := s.daemonConnections[d]?.map fun c => (c.connectionId, c.channelClosed)
  spawns := s.emitted.filter (·.spawns u)

theorem recoveryView_setDataflow_of_ne (h : uuid ≠ u) :
    (s.setDataflow uuid df).recoveryView d u = s.recoveryView d u := by
  simp [recoveryView, setDataflow, TreeMap.getElem?_insert, h]

theorem recoveryView_emit {effect : Effect} (h : effect.spawns u = false) :
    (s.emit effect).recoveryView d u = s.recoveryView d u := by
  simp [recoveryView, emit, h]

theorem recoveryView_putDataflow (record : DataflowRecord) :
    (s.putDataflow uuid record).recoveryView d u = s.recoveryView d u :=
  recoveryView_emit (s := { s with store := s.store.insert uuid record }) rfl

theorem recoveryView_send (command : Command) :
    (s.send d' command).recoveryView d u =
      { s.recoveryView d u with
        spawns := (s.recoveryView d u).spawns ++
          match s.daemonConnections[d']? with
          | some c =>
            if c.channelClosed then []
            else [Effect.put d' c.connectionId command].filter (·.spawns u)
          | none => [] } := by
  unfold send
  cases hc : s.daemonConnections[d']? with
  | none => simp
  | some c =>
    cases hclosed : c.channelClosed with
    | true => simp [hclosed]
    | false =>
      by_cases hd : d' = d
      · subst hd
        simp [recoveryView, emit, hc, hclosed]
      · simp [recoveryView, emit, TreeMap.getElem?_insert, hd, hclosed]

theorem recoveryView_send_of_not_spawn {command : Command}
    (h : ∀ c, (Effect.put d' c command).spawns u = false) :
    (s.send d' command).recoveryView d u = s.recoveryView d u := by
  rw [recoveryView_send]
  ext1
  case spawns =>
    cases s.daemonConnections[d']? with
    | none => simp
    | some => simp [h]
  all_goals rfl

theorem view_reconcile_eq {ν : Type*} (view : Coordinator → ν) (nodes : List NodeId)
    (hset : ∀ (s : Coordinator) df, view (s.setDataflow uuid df) = view s)
    (hput : ∀ (s : Coordinator) record, view (s.putDataflow uuid record) = view s)
    (hreplay : ∀ s : Coordinator, view (s.emit (.replay uuid d')) = view s)
    (hsend : ∀ (s : Coordinator) command, (∀ u c, (Effect.put d' c command).spawns u = false) →
      view (s.send d' command) = view s) :
    view (s.reconcile d' uuid nodes) = view s := by
  have hreplayed (s : Coordinator) : view (s.replayAllNodesReady uuid d') = view s := by
    unfold replayAllNodesReady
    split
    · rfl
    · rw [hsend _ _ fun _ _ => rfl, hreplay]
  have hestablished (s : Coordinator) (record : DataflowRecord) :
      view (s.reestablishRunningDataflow uuid record d' nodes).1 = view s := by
    unfold reestablishRunningDataflow
    split
    · exact hset _ _
    · split
      · rfl
      · exact hset _ _
  have hreadopted (s : Coordinator) (record : DataflowRecord) :
      view (s.readopt uuid record d' nodes) = view s := by
    unfold readopt
    dsimp only
    split
    · rw [hreplayed, hestablished]
    · exact hestablished s record
  have hstopped : view (s.stopOrphanedDataflowOnDaemon uuid d') = view s := hsend _ _ fun _ _ => rfl
  unfold reconcile
  split
  · exact hstopped
  · split
    · rfl
    · split
      · rw [hreadopted, hput]
      · rw [hreadopted, hput]
      · rw [hreadopted, hput]
      · exact hreadopted _ _
      · exact hstopped
      · exact hstopped
      · rfl

theorem recoveryView_reconcile_of_ne (h : uuid ≠ u) (nodes : List NodeId) :
    (s.reconcile d' uuid nodes).recoveryView d u = s.recoveryView d u :=
  view_reconcile_eq (recoveryView · d u) nodes (fun _ _ => recoveryView_setDataflow_of_ne h)
    (fun _ => recoveryView_putDataflow) (fun _ => recoveryView_emit rfl)
    fun _ _ hcommand => recoveryView_send_of_not_spawn (hcommand u)

theorem recoveryView_autoRecover_of_ne (h : uuid ≠ u) (reported : List DataflowId) :
    (autoRecover d' reported s uuid).recoveryView d u = s.recoveryView d u := by
  have hspawn (nodes : List NodeId) (uv : Bool) (c : ConnectionId) :
      (Effect.put d' c (.spawn uuid nodes uv)).spawns u = false := decide_eq_false h
  unfold autoRecover
  split
  · rfl
  · split_ifs
    · exact recoveryView_setDataflow_of_ne h
    · rfl
    · rfl
    · rfl
    · rfl
    · rw [recoveryView_send_of_not_spawn (hspawn _ _), recoveryView_setDataflow_of_ne h]
    · rfl

theorem spawns_reconcile (nodes : List NodeId) :
    ((s.reconcile d' uuid nodes).recoveryView d u).spawns = (s.recoveryView d u).spawns :=
  view_reconcile_eq (fun s => (s.recoveryView d u).spawns) nodes (fun _ _ => rfl)
    (fun _ record => congrArg RecoveryView.spawns (recoveryView_putDataflow record))
    (fun _ => congrArg RecoveryView.spawns (recoveryView_emit rfl))
    fun _ _ hcommand => congrArg RecoveryView.spawns (recoveryView_send_of_not_spawn (hcommand u))

theorem spawns_autoRecover_of_reported {reported : List DataflowId} (h : u ∈ reported) :
    ((autoRecover d' reported s uuid).recoveryView d u).spawns = (s.recoveryView d u).spawns := by
  by_cases hu : uuid = u
  · subst hu
    unfold autoRecover
    split
    · rfl
    · simp only [h, if_true]
      split
      · rfl
      · rfl
  · rw [recoveryView_autoRecover_of_ne hu]

theorem autoRecover_of_not_member {reported : List DataflowId} (hentry : s.runningDataflows[u]? = some df)
    (hmember : d ∉ df.daemons) : autoRecover d reported s u = s := by
  unfold autoRecover
  simp [hentry, hmember]

theorem autoRecover_of_member {reported : List DataflowId} (hentry : s.runningDataflows[u]? = some df)
    (hunreported : u ∉ reported) (hmember : d ∈ df.daemons) (hnodes : df.nodesOnDaemon d ≠ [])
    (hok : df.spawnResult.isTerminalError = false) (hidle : d ∉ df.pendingSpawnResults)
    (hbackoff : df.backoffOver d s.now = true) :
    autoRecover d reported s u =
      (s.setDataflow u { df with lastRecoveryAttempt := df.lastRecoveryAttempt.insert d s.now }).send d
        (.spawn u (df.nodesOnDaemon d) df.uv) := by
  unfold autoRecover
  simp [hentry, hmember, hunreported, hok, hidle, hbackoff, hnodes]

theorem recoveryView_report {reported : List (DataflowId × List NodeId)} (order : List DataflowId)
    (hentry : s.runningDataflows[u]? = some df) (hunreported : u ∉ reported.map Prod.fst) :
    ∃ s', s'.recoveryView d u = s.recoveryView d u ∧
      (s.handleDaemonStatusReport d reported order).recoveryView d u =
        (autoRecover d (reported.map Prod.fst) s' u).recoveryView d u := by
  let reconciled := reported.foldl (fun s entry => s.reconcile d entry.1 entry.2) s
  have hreconciled : reconciled.recoveryView d u = s.recoveryView d u :=
    foldl_unseen (recoveryView · d u) Prod.fst (fun _ _ hne => recoveryView_reconcile_of_ne hne _)
      fun entry hmem heq => hunreported (heq ▸ List.mem_map_of_mem hmem)
  have hkey : u ∈ inOrder order reconciled.runningDataflows.keys := by
    rw [mem_inOrder, TreeMap.mem_keys, TreeMap.mem_iff_isSome_getElem?]
    have hsame : reconciled.runningDataflows[u]? = s.runningDataflows[u]? :=
      congrArg RecoveryView.entry hreconciled
    rw [hsame, hentry]
    rfl
  have hnodup : ((inOrder order reconciled.runningDataflows.keys).map id).Nodup := by
    rw [List.map_id]
    exact inOrder_nodup TreeMap.nodup_keys
  obtain ⟨s', hview, hfold⟩ := foldl_once (recoveryView · d u) id (s := reconciled)
    (fun s a (hne : a ≠ u) => recoveryView_autoRecover_of_ne (s := s) hne (reported.map Prod.fst))
    hnodup hkey rfl
  exact ⟨s', hview.trans hreconciled, hfold⟩

/-- No `Spawn` command is given for a dataflow that is reported. -/
theorem spawns_of_reported (reported : List (DataflowId × List NodeId)) (order : List DataflowId)
    (h : u ∈ reported.map Prod.fst) :
    (step s (.statusReport d reported order)).2.filter (·.spawns u) = [] := by
  let spawns (s : Coordinator) := (s.recoveryView d u).spawns
  let reconcileOne (s : Coordinator) (entry : DataflowId × List NodeId) := s.reconcile d entry.1 entry.2
  have hreconciled : spawns (reported.foldl reconcileOne s.cleared) = spawns s.cleared :=
    foldl_view_eq spawns fun s entry => spawns_reconcile (s := s) entry.2
  have hend : spawns (s.cleared.handleDaemonStatusReport d reported order) = spawns s.cleared :=
    (foldl_view_eq spawns fun s uuid => spawns_autoRecover_of_reported (s := s) h).trans hreconciled
  exact hend

/-- A dataflow that should run on the daemon and is missing in its report is spawned there again, and the
daemon is a member of it, exactly if it was a member when the report came, on an open connection; what the
daemon does report is never spawned again. -/
theorem missing_dataflow_recovered_iff (reported : List (DataflowId × List NodeId))
    (order : List DataflowId) (hentry : s.runningDataflows[u]? = some df)
    (hunreported : u ∉ reported.map Prod.fst) (hnodes : df.nodesOnDaemon d ≠ [])
    (hok : df.spawnResult.isTerminalError = false) (hidle : d ∉ df.pendingSpawnResults)
    (hbackoff : df.backoffOver d s.now = true) :
    let after := step s (.statusReport d reported order)
    (((∃ c, s.daemonConnections[d]? = some c ∧ after.2.filter (·.spawns u) =
          [.put d c.connectionId (.spawn u (df.nodesOnDaemon d) df.uv)]) ∧
        ∃ df', after.1.runningDataflows[u]? = some df' ∧ d ∈ df'.daemons) ↔
      d ∈ df.daemons ∧ ∃ c, s.daemonConnections[d]? = some c ∧ c.channelClosed = false) ∧
    ∀ uuid ∈ reported.map Prod.fst, after.2.filter (·.spawns uuid) = [] := by
  intro after
  refine ⟨?_, fun uuid hreported => spawns_of_reported reported order hreported⟩
  obtain ⟨s', hview, hafter⟩ := recoveryView_report (s := s.cleared) (d := d) order hentry hunreported
  have hentry' : s'.runningDataflows[u]? = some df :=
    (congrArg RecoveryView.entry hview).trans hentry
  have hnow : s'.now = s.now := congrArg RecoveryView.now hview
  have hconn : s'.daemonConnections[d]?.map (fun c => (c.connectionId, c.channelClosed)) =
      s.daemonConnections[d]?.map fun c => (c.connectionId, c.channelClosed) :=
    congrArg RecoveryView.connection hview
  have hspawns : after.2.filter (·.spawns u) =
      ((autoRecover d (reported.map Prod.fst) s' u).recoveryView d u).spawns :=
    congrArg RecoveryView.spawns hafter
  have hmembers : after.1.runningDataflows[u]? =
      ((autoRecover d (reported.map Prod.fst) s' u).recoveryView d u).entry :=
    congrArg RecoveryView.entry hafter
  by_cases hmember : d ∈ df.daemons
  · have hnothing : (s'.recoveryView d u).spawns = [] := congrArg RecoveryView.spawns hview
    rw [hspawns, hmembers,
      autoRecover_of_member hentry' hunreported hmember hnodes hok hidle (hnow ▸ hbackoff), recoveryView_send]
    have hkept : ∃ df', (s'.setDataflow u { df with
        lastRecoveryAttempt := df.lastRecoveryAttempt.insert d s'.now }).runningDataflows[u]? = some df' ∧
          d ∈ df'.daemons :=
      ⟨{ df with lastRecoveryAttempt := df.lastRecoveryAttempt.insert d s'.now }, by simp [setDataflow],
        hmember⟩
    simp only [recoveryView, setDataflow] at hnothing hkept ⊢
    simp only [hnothing, List.nil_append, hkept, and_true, hmember, true_and]
    -- only the connection matters now
    cases hc : s.daemonConnections[d]? with
    | none => simp
    | some c =>
      rw [hc, Option.map_some] at hconn
      obtain ⟨c', hc', heq⟩ := Option.map_eq_some_iff.mp hconn
      obtain ⟨hid, hclosed⟩ := Prod.mk.inj heq
      cases hopen : c.channelClosed with
      | true => simp [hc', hclosed, hopen]
      | false => simp [hc', hid, hclosed, hopen, Effect.spawns]
  · rw [hmembers, autoRecover_of_not_member hentry' hmember]
    constructor
    · rintro ⟨_, df', hdf', hd⟩
      cases hentry'.symm.trans hdf'
      exact absurd hd hmember
    · exact fun h => absurd h.1 hmember

def spawnedOnTwo : List Event :=
  startedOnTwo ++ [Event.spawnResult 2 daemonA (.ok ()), .spawnResult 2 daemonB (.ok ())]

/-- A daemon that registers again while its old connection is still there gets its nodes back. -/
theorem missing_dataflow_recovered_after_reconnect :
    let events := spawnedOnTwo ++ [Event.register (some "b") [] true]
    ∃ df c, (reached events).runningDataflows[2]? = some df ∧
      (reached events).daemonConnections[daemonB]? = some c ∧
      (step (reached events) (.statusReport daemonB [] [])).2.filter (·.spawns 2) =
        [.put daemonB c.connectionId (.spawn 2 [⟨"plot"⟩] false)] := by
  intro events
  have hstate : (reached events).runningDataflows[2]?.map (fun df =>
      (df.nodesOnDaemon daemonB, df.spawnResult.isTerminalError, df.pendingSpawnResults.contains daemonB,
        df.backoffOver daemonB (reached events).now, df.daemons.contains daemonB, df.uv)) =
      some ([⟨"plot"⟩], false, false, true, true, false) := by decide +kernel
  obtain ⟨df, hentry, heq⟩ := Option.map_eq_some_iff.mp hstate
  simp only [Prod.mk.injEq] at heq
  obtain ⟨hnodes, hok, hidle, hbackoff, hmember, huv⟩ := heq
  have hopen : (reached events).daemonConnections[daemonB]?.map (·.channelClosed) = some false := by
    decide +kernel
  obtain ⟨c, hc, hclosed⟩ := Option.map_eq_some_iff.mp hopen
  have hnonempty : df.nodesOnDaemon daemonB ≠ [] := by rw [hnodes]; exact List.cons_ne_nil _ _
  have hrecovered := missing_dataflow_recovered_iff [] [] hentry List.not_mem_nil
    hnonempty hok (Bool.eq_false_iff.mp hidle) hbackoff
  obtain ⟨⟨c', hc', hspawns⟩, _⟩ := hrecovered.1.mpr ⟨hmember, c, hc, hclosed⟩
  rw [hnodes, huv] at hspawns
  exact ⟨df, c', hentry, hc', hspawns⟩

theorem filter_spawns_eq_nil {effects : List Effect} (h : effects.any (·.spawns u) = false) :
    effects.filter (·.spawns u) = [] :=
  List.filter_eq_nil_iff.mpr fun effect hmem => List.any_eq_false.mp h effect hmem

/-- A daemon is dropped by the watchdog before its report is handled, or exits and registers again: it
reports nothing, its node is still assigned, and nothing is spawned. -/
theorem missing_dataflow_not_recovered :
    let timedOut := spawnedOnTwo ++ [Event.register (some "b") [] true, .elapse 31000,
      .daemonHeartbeat daemonA, .heartbeatInterval [] []]
    let returned := spawnedOnTwo ++ [Event.daemonExit daemonB 1 [], .register (some "b") [] true]
    (∃ df : RunningDataflow, (reached timedOut).runningDataflows[2]? = some df ∧
      df.nodesOnDaemon daemonB = [⟨"plot"⟩] ∧ df.spawnResult.isTerminalError = false ∧
      daemonB ∉ df.pendingSpawnResults ∧ df.backoffOver daemonB (reached timedOut).now = true ∧
      (step (reached timedOut) (.statusReport daemonB [] [])).2.filter (·.spawns 2) = []) ∧
    ∃ df : RunningDataflow, (reached returned).runningDataflows[2]? = some df ∧
      df.nodesOnDaemon daemonB = [⟨"plot"⟩] ∧
      (⟨some "b", 6⟩ : DaemonId) ∈ (reached returned).daemonConnections ∧
      (step (reached returned) (.statusReport ⟨some "b", 6⟩ [] [])).2.filter (·.spawns 2) = [] := by
  intro timedOut returned
  constructor
  · have hstate : ((reached timedOut).runningDataflows[2]?.map fun df =>
          (df.nodesOnDaemon daemonB, df.spawnResult.isTerminalError, df.pendingSpawnResults.contains daemonB,
            df.backoffOver daemonB (reached timedOut).now),
        (step (reached timedOut) (.statusReport daemonB [] [])).2.any (·.spawns 2)) =
        (some ([⟨"plot"⟩], false, false, true), false) := by decide +kernel
    obtain ⟨hentries, hspawns⟩ := Prod.mk.inj hstate
    obtain ⟨df, hentry, heq⟩ := Option.map_eq_some_iff.mp hentries
    simp only [Prod.mk.injEq] at heq
    obtain ⟨hnodes, hok, hidle, hbackoff⟩ := heq
    exact ⟨df, hentry, hnodes, hok, Bool.eq_false_iff.mp hidle, hbackoff, filter_spawns_eq_nil hspawns⟩
  · have hstate : ((reached returned).runningDataflows[2]?.map (·.nodesOnDaemon daemonB),
        (reached returned).daemonConnections.contains ⟨some "b", 6⟩,
        (step (reached returned) (.statusReport ⟨some "b", 6⟩ [] [])).2.any (·.spawns 2)) =
        (some [⟨"plot"⟩], true, false) := by decide +kernel
    simp only [Prod.mk.injEq] at hstate
    obtain ⟨hentries, hconnected, hspawns⟩ := hstate
    obtain ⟨df, hentry, hnodes⟩ := Option.map_eq_some_iff.mp hentries
    exact ⟨df, hentry, hnodes, hconnected, filter_spawns_eq_nil hspawns⟩

end Coordinator

end Dora.Coord
