import Dora.Coordinator.LifeRefinement

/-!
# The event loop refines the life steps

The rest of the coordinator's functions, and from them the refinement of a whole event: it takes the view
of each dataflow through life steps.
-/

namespace Dora.Coord

open Std Lib

variable {s s₀ : Coordinator} {u uuid : DataflowId} {df : RunningDataflow} {e : Event}

namespace Coordinator

/-! ## The ready barrier -/

variable {record : DataflowRecord}

theorem mem_store_of_getDataflow (h : s.getDataflow u = some record) :
    (s.view u).record = some record := by
  unfold getDataflow at h
  split at h
  · exact h
  · cases h

theorem releaseStatusOf_releaseStatus : releaseStatusOf (s.view u) (s.releaseStatus u df) := by
  unfold releaseStatus
  split
  · exact .inl rfl
  · split
    · rename_i record hrecord
      exact .inr (.inr ⟨record, mem_store_of_getDataflow hrecord, rfl⟩)
    · exact .inr (.inl rfl)

theorem view_broadcast_self (members : TreeSet DaemonId) :
    (s.emit (.broadcast u members)).view u =
      { s.view u with effects := (s.view u).effects ++ [.broadcast u members] } := by
  simp [emit, view, Effect.concerns]

theorem view_broadcast_of_ne (h : uuid ≠ u) (members : TreeSet DaemonId) :
    (s.emit (.broadcast uuid members)).view u = s.view u := by
  simp [emit, view, Effect.concerns, h]

theorem view_broadcastAllNodesReady_self :
    (s.broadcastAllNodesReady u df).view u =
      (s.view u).release u df (s.releaseStatus u df) s.now := by
  rw [broadcastAllNodesReady, view_sendAll, view_broadcast_self, releaseBarrier, view_persist_self]
  rfl

theorem view_broadcastAllNodesReady_of_ne (h : uuid ≠ u) :
    (s.broadcastAllNodesReady uuid df).view u = s.view u := by
  rw [broadcastAllNodesReady, view_sendAll, view_broadcast_of_ne h, releaseBarrier,
    view_persist_of_ne h]

theorem handleReadyOnDaemon_lives (d : DaemonId) (exited : List NodeId)
    (he : e = .readyOnDaemon uuid d exited) :
    Lives s₀ e u (s.view u) ((s.handleReadyOnDaemon uuid d exited).view u) := by
  unfold handleReadyOnDaemon
  split
  · exact .refl
  · rename_i df hentry
    by_cases hu : uuid = u
    · subst hu
      dsimp only
      split
      · rename_i hlast
        rw [view_broadcastAllNodesReady_self]
        exact .single (.allReady d exited _ _ he hentry hlast releaseStatusOf_releaseStatus)
      · rename_i hmore
        rw [view_setDataflow_self]
        exact .single (.ready d exited he hentry (by simpa using hmore))
    · dsimp only
      split
      · rw [view_broadcastAllNodesReady_of_ne hu]
      · rw [view_setDataflow_of_ne hu]

/-! ## Lost daemons -/

def DisconnectAction.dataflow : DisconnectAction → DataflowId
  | .releaseReadyBarrier uuid => uuid
  | .reclaimOrphaned uuid => uuid

variable {action : DisconnectAction} {gone : List DaemonId}

theorem dataflow_of_disconnectAction
    (h : disconnectAction uuid df gone = some action) : action.dataflow = uuid := by
  unfold disconnectAction at h
  dsimp only at h
  split at h
  · split at h <;> cases h
    rfl
  · split at h <;> cases h
    rfl

theorem view_pruneDaemons (gone : List DaemonId) :
    (s.pruneDaemons gone).view u =
      { s.view u with
        entry := (s.view u).entry.map fun df =>
          if df.affectedBy gone then df.dropDaemons gone else df } := by
  simp [pruneDaemons, view]

variable {affected order : List DataflowId}

theorem mem_affectedDataflows :
    u ∈ s.affectedDataflows gone order ↔
      ∃ df, (s.view u).entry = some df ∧ df.affectedBy gone = true := by
  unfold affectedDataflows
  rw [List.mem_filter, mem_inOrder, TreeMap.mem_keys, TreeMap.mem_iff_isSome_getElem?, view_entry]
  cases hentry : s.runningDataflows[u]? with
  | none | some => simp

theorem nodup_affectedDataflows (gone : List DaemonId) (order : List DataflowId) :
    (s.affectedDataflows gone order).Nodup :=
  (inOrder_nodup TreeMap.nodup_keys).filter _

theorem view_cancelRestarts_of_not_mem (h : u ∉ affected) :
    (s.cancelRestarts affected).view u = s.view u :=
  foldl_unseen (view · u) id (fun _ _ hne => view_cancelPendingRestart_of_ne hne _)
    fun _ ha heq => h (heq ▸ ha)

theorem view_cancelRestarts_of_mem (hnodup : affected.Nodup) (h : u ∈ affected) :
    ∃ reason, (s.cancelRestarts affected).view u = (s.view u).cancelRestart u reason := by
  have hids : (affected.map id).Nodup := by rwa [List.map_id]
  obtain ⟨s', hview, hfold⟩ := foldl_once (view · u) id (s := s)
    (fun s a (hne : a ≠ u) => view_cancelPendingRestart_of_ne (s := s) hne
      s!"daemon disconnected while restart was pending for dataflow `{uuidText a}`") hids h rfl
  refine ⟨s!"daemon disconnected while restart was pending for dataflow `{uuidText u}`", ?_⟩
  have hround := hfold.trans (view_cancelPendingRestart_self _)
  have hsame : s'.view u = s.view u := hview
  rw [hsame] at hround
  exact hround

theorem view_applyDisconnectAction_of_ne (h : action.dataflow ≠ u) :
    (s.applyDisconnectAction action).view u = s.view u := by
  cases action with
  | releaseReadyBarrier =>
    unfold applyDisconnectAction
    dsimp only
    split
    · exact view_broadcastAllNodesReady_of_ne h
    · rfl
  | reclaimOrphaned uuid =>
    unfold applyDisconnectAction beginOrphanedDataflowReclaim
    have h : uuid ≠ u := h
    dsimp only
    split
    · rfl
    · rw [answerStops, view_answerAll_of_ne h, view_putDataflow_of_ne h,
        view_removeDataflow_of_ne h]

theorem disconnectActions_spec (gone : List DaemonId) (hnodup : affected.Nodup) :
    ((s.disconnectActions gone affected).map DisconnectAction.dataflow).Nodup ∧
    ∀ action, action.dataflow = u →
      (action ∈ s.disconnectActions gone affected ↔
        u ∈ affected ∧ ∃ df, (s.view u).entry = some df ∧ disconnectAction u df gone = some action) := by
  refine ⟨nodup_map_filterMap _ hnodup fun uuid action h => ?_, fun action haction => ?_⟩
  · split at h
    · exact dataflow_of_disconnectAction h
    · cases h
  unfold disconnectActions
  rw [List.mem_filterMap]
  constructor
  · rintro ⟨uuid, hmem, hsome⟩
    split at hsome
    · rename_i df hentry
      have huuid : uuid = u := (dataflow_of_disconnectAction hsome).symm.trans haction
      subst huuid
      exact ⟨hmem, df, hentry, hsome⟩
    · cases hsome
  · rintro ⟨hmem, df, hentry, hsome⟩
    rw [view_entry] at hentry
    exact ⟨u, hmem, by rw [hentry]; exact hsome⟩

theorem view_cleanup_of_unaffected
    (h : ∀ df, (s.view u).entry = some df → df.affectedBy gone = false) :
    (s.cleanupDisconnectedDaemons gone order).view u = s.view u := by
  have hnot : u ∉ s.affectedDataflows gone order := fun hmem => by
    obtain ⟨df, hentry, haffected⟩ := mem_affectedDataflows.mp hmem
    rw [h df hentry] at haffected
    cases haffected
  have hsame : (s.pruneDaemons gone).view u = s.view u := by
    rw [view_pruneDaemons]
    cases hentry : (s.view u).entry with
    | none => rw [Option.map_none, ← hentry]
    | some df =>
      have hkept : (if df.affectedBy gone = true then df.dropDaemons gone else df) = df := by
        rw [h df hentry]
        rfl
      rw [Option.map_some, hkept, ← hentry]
  have hactions : ∀ action ∈ s.disconnectActions gone (s.affectedDataflows gone order),
      action.dataflow ≠ u := fun action hmem haction =>
    hnot (((disconnectActions_spec (s := s) gone (nodup_affectedDataflows gone order)).2 action haction).mp
      hmem).1
  unfold cleanupDisconnectedDaemons
  dsimp only
  rw [foldl_unseen (view · u) _ (fun _ _ => view_applyDisconnectAction_of_ne) hactions,
    view_cancelRestarts_of_not_mem hnot, hsame]

def Forgets (gone : List DaemonId) (v : View) : Prop :=
  ∀ df, v.entry = some df → ∀ d ∈ gone, d ∉ df.daemons ∧ d ∉ df.pendingDaemons

theorem forgets_dropDaemons {v : View} {df' : RunningDataflow}
    (hv : v.entry = some df') (hdaemons : df'.daemons = (df.dropDaemons gone).daemons)
    (hpending : df'.pendingDaemons = (df.dropDaemons gone).pendingDaemons) : Forgets gone v := by
  intro df'' hv' d hd
  cases hv.symm.trans hv'
  rw [hdaemons, hpending]
  constructor <;> simp [RunningDataflow.dropDaemons, hd]

/-- The action for a dataflow that has lost daemons, in the state `s` after they were taken out. -/
theorem applyDisconnectAction_lives {v : View} {reason : String}
    (hentry : v.entry = some df) (haffected : df.affectedBy (s₀.lostBy e) = true)
    (haction : disconnectAction u df (s₀.lostBy e) = some action) (hview : s.view u =
      { v with entry := some (df.dropDaemons (s₀.lostBy e)) }.cancelRestart u reason) :
    Lives s₀ e u v ((s.applyDisconnectAction action).view u) ∧
      Forgets (s₀.lostBy e) ((s.applyDisconnectAction action).view u) := by
  have hleft : s.runningDataflows[u]? = some (df.dropDaemons (s₀.lostBy e)) := by
    rw [← view_entry, hview, View.cancelRestart_entry]
  have hdataflow := dataflow_of_disconnectAction haction
  cases action with
  | releaseReadyBarrier uuid =>
    have hu : uuid = u := hdataflow
    subst hu
    unfold applyDisconnectAction
    simp only [hleft]
    rw [view_broadcastAllNodesReady_self, hview]
    have hstatus : releaseStatusOf (s.view uuid) (s.releaseStatus uuid (df.dropDaemons (s₀.lostBy e))) :=
      releaseStatusOf_releaseStatus
    rw [releaseStatusOf, hview, View.cancelRestart_record] at hstatus
    exact ⟨.single (.lostLastPending reason _ _ hentry haffected haction hstatus),
      forgets_dropDaemons rfl rfl rfl⟩
  | reclaimOrphaned uuid =>
    have hu : uuid = u := hdataflow
    subst hu
    unfold applyDisconnectAction beginOrphanedDataflowReclaim
    simp only [hleft]
    rw [answerStops, view_answerAll_self, view_putDataflow_self, view_removeDataflow_self, hview,
      View.cancelRestart_forget_entry]
    refine ⟨.single (.orphaned reason _ hentry haffected haction), fun df' hsome => ?_⟩
    cases (View.cancelRestart_entry _ _).symm.trans hsome

theorem cleanupDisconnectedDaemons_lives (order : List DataflowId) (hgone : s₀.lostBy e = gone) :
    Lives s₀ e u (s.view u) ((s.cleanupDisconnectedDaemons gone order).view u) ∧
      Forgets gone ((s.cleanupDisconnectedDaemons gone order).view u) := by
  by_cases haffected : ∃ df, (s.view u).entry = some df ∧ df.affectedBy gone = true
  · have hmem : u ∈ s.affectedDataflows gone order := mem_affectedDataflows.mpr haffected
    obtain ⟨df, hentry, haff⟩ := haffected
    have hnodup := nodup_affectedDataflows (s := s) gone order
    have hactions := disconnectActions_spec (s := s) (u := u) gone hnodup
    let pruned := (s.pruneDaemons gone).cancelRestarts (s.affectedDataflows gone order)
    obtain ⟨reason, hcancelled⟩ := view_cancelRestarts_of_mem (s := s.pruneDaemons gone) hnodup hmem
    have hpruned : pruned.view u =
        { s.view u with entry := some (df.dropDaemons gone) }.cancelRestart u reason := by
      simp only [pruned, hcancelled, view_pruneDaemons, hentry, Option.map_some, haff, if_true]
    unfold cleanupDisconnectedDaemons
    subst hgone
    cases haction : disconnectAction u df (s₀.lostBy e) with
    | none =>
      have hothers : ∀ action ∈
          s.disconnectActions (s₀.lostBy e) (s.affectedDataflows (s₀.lostBy e) order),
          action.dataflow ≠ u := fun action hmem hdataflow => by
        obtain ⟨_, df', hentry', haction'⟩ := (hactions.2 action hdataflow).mp hmem
        cases hentry.symm.trans hentry'
        rw [haction] at haction'
        cases haction'
      rw [foldl_unseen (view · u) _ (fun _ _ => view_applyDisconnectAction_of_ne) hothers, hpruned]
      exact ⟨.single (.lost reason hentry haff haction),
        forgets_dropDaemons (View.cancelRestart_entry _ _) rfl rfl⟩
    | some action =>
      have hdataflow := dataflow_of_disconnectAction haction
      obtain ⟨s', hview, hfold⟩ := foldl_once (view · u) DisconnectAction.dataflow (s := pruned)
        (fun s a => view_applyDisconnectAction_of_ne (s := s)) hactions.1
        ((hactions.2 action hdataflow).mpr ⟨hmem, df, hentry, haction⟩) hdataflow
      rw [hfold]
      exact applyDisconnectAction_lives hentry haff haction (hview.trans hpruned)
  · have hunaffected : ∀ df, (s.view u).entry = some df → df.affectedBy gone = false :=
      fun df hentry => Bool.eq_false_iff.mpr fun haff => haffected ⟨df, hentry, haff⟩
    rw [view_cleanup_of_unaffected hunaffected]
    refine ⟨.refl, fun df hentry d hd => ?_⟩
    have hnone := List.any_eq_false.mp (hunaffected df hentry) d hd
    simp only [Bool.or_eq_true, decide_eq_true_eq, not_or] at hnone
    exact hnone.1

theorem disconnect_lives (order : List DataflowId) (hgone : s₀.lostBy e = gone) :
    Lives s₀ e u (s.view u) ((s.disconnect gone order).view u) ∧
      Forgets gone ((s.disconnect gone order).view u) := by
  have hnotify (s : Coordinator) :
      (s.notifyDaemonsAboutDisconnectedPeers gone).view u = s.view u :=
    foldl_view_eq (view · u) fun _ _ => view_sendAll _ _
  unfold disconnect
  dsimp only
  rw [hnotify]
  exact cleanupDisconnectedDaemons_lives
    (s := { s with daemonConnections := s.daemonConnections.filter fun d _ => d ∉ gone }) order hgone

theorem handleDaemonExit_lives (d : DaemonId) (c : ConnectionId) (order : List DataflowId)
    (he : e = .daemonExit d c order) :
    Lives s e u (s.view u) ((s.handleDaemonExit d c order).view u) := by
  unfold handleDaemonExit
  split
  · rename_i hcurrent
    exact (disconnect_lives order (by rw [he, lostBy, if_pos hcurrent])).1
  · exact .refl

/-! ## Heartbeats -/

theorem nodup_keys_toList {β : Type*} (m : TreeMap DataflowId β) : (m.toList.map Prod.fst).Nodup := by
  rw [TreeMap.map_fst_toList_eq_keys]
  exact TreeMap.nodup_keys

theorem nodup_keys_listDataflows : (s.listDataflows.map Prod.fst).Nodup := by
  unfold listDataflows
  split
  · exact nodup_keys_toList _
  · exact List.nodup_nil

theorem record_of_mem_listDataflows (h : (u, record) ∈ s.listDataflows) :
    (s.view u).record = some record := by
  unfold listDataflows at h
  split at h
  · exact TreeMap.mem_toList_iff_getElem?_eq_some.mp h
  · cases h

theorem foldl_records_lives {body : Coordinator → DataflowId × DataflowRecord → Coordinator}
    (hother : ∀ s entry, entry.1 ≠ u → (body s entry).view u = s.view u)
    (hself : ∀ s' record, s'.view u = s.view u → (s.view u).record = some record →
      Lives s₀ e u (s.view u) ((body s' (u, record)).view u)) :
    Lives s₀ e u (s.view u) ((s.listDataflows.foldl body s).view u) := by
  by_cases hlisted : ∃ record, (u, record) ∈ s.listDataflows
  · obtain ⟨record, hmem⟩ := hlisted
    obtain ⟨s', hview, hfold⟩ :=
      foldl_once (view · u) Prod.fst (s := s) hother nodup_keys_listDataflows hmem rfl
    rw [hfold]
    exact hself s' record hview (record_of_mem_listDataflows hmem)
  · rw [foldl_unseen (view · u) Prod.fst hother fun entry hmem heq =>
      hlisted ⟨entry.2, heq ▸ hmem⟩]

theorem expireRecoveries_lives (full : List DaemonId) (order : List DataflowId)
    (he : e = .heartbeatInterval full order) :
    Lives s₀ e u (s.view u) ((s.listDataflows.foldl expireRecovery s).view u) := by
  refine foldl_records_lives (fun s entry hne => ?_) fun s' record hview hrecord => ?_
  · unfold expireRecovery
    split
    · exact view_putDataflow_of_ne hne _
    · rfl
  · unfold expireRecovery
    split
    · rename_i hexpired
      rw [view_putDataflow_self, hview]
      exact .single (.recoveryExpired full order _ he hrecord hexpired.1 hexpired.2)
    · rw [hview]

theorem handleHeartbeatInterval_lives (full : List DaemonId) (order : List DataflowId)
    (he : e = .heartbeatInterval full order) :
    Lives s e u (s.view u) ((s.handleHeartbeatInterval full order).view u) := by
  unfold handleHeartbeatInterval
  dsimp only
  refine .trans ?_ (expireRecoveries_lives full order he)
  refine .trans ?_ (checkSpawnTimeouts_lives full order he)
  have hbeats : (s.sendHeartbeats full).view u = s.view u := rfl
  split
  · rw [hbeats]
  · rw [← hbeats]
    exact (disconnect_lives order (by rw [he, lostBy])).1

/-! ## Status reports -/

theorem view_replay_self (d : DaemonId) :
    (s.emit (.replay u d)).view u = (s.view u).replay u true d := by
  simp [emit, view, Effect.concerns, View.replay]

theorem view_replayAllNodesReady_self (hentry : s.runningDataflows[u]? = some df) (d : DaemonId) :
    (s.replayAllNodesReady u d).view u = (s.view u).replay u true d := by
  unfold replayAllNodesReady
  simp only [hentry]
  rw [view_send, view_replay_self]

theorem view_replayAllNodesReady_of_ne (h : uuid ≠ u) (d : DaemonId) :
    (s.replayAllNodesReady uuid d).view u = s.view u := by
  unfold replayAllNodesReady
  split
  · rfl
  · rw [view_send]
    simp [emit, view, Effect.concerns, h]

theorem view_setDataflow_replay (d : DaemonId) (released : Bool) :
    (if released = true then (s.setDataflow u df).replayAllNodesReady u d
      else s.setDataflow u df).view u = { s.view u with entry := some df }.replay u released d := by
  cases released with
  | true =>
    have hentry : (s.setDataflow u df).runningDataflows[u]? = some df := by simp [setDataflow]
    rw [if_pos rfl, view_replayAllNodesReady_self hentry, view_setDataflow_self]
  | false => exact view_setDataflow_self

variable {reported : List (DataflowId × List NodeId)}

theorem readopt_lives {d : DaemonId} {nodes : List NodeId}
    (he : e = .statusReport d reported order) (hreported : (u, nodes) ∈ reported)
    (hrecord : (s.view u).record = some record) (hstatus : record.status = .running) :
    Lives s₀ e u (s.view u) ((s.readopt u record d nodes).view u) := by
  unfold readopt reestablishRunningDataflow
  split
  rename_i result s' replay hresult
  cases hentry : s.runningDataflows[u]? with
  | some =>
    simp only [hentry] at hresult
    cases hresult
    rw [view_setDataflow_replay]
    exact .single (.relinked d reported order nodes he hreported hentry)
  | none =>
    simp only [hentry] at hresult
    split at hresult
    · cases hresult
      exact .refl
    · cases hresult
      rw [view_setDataflow_replay]
      exact .single (.recovered d reported order nodes _ _ he hreported hentry hrecord hstatus)

theorem view_readopt_of_ne (h : uuid ≠ u) (record : DataflowRecord) (d : DaemonId)
    (nodes : List NodeId) : (s.readopt uuid record d nodes).view u = s.view u := by
  have hreestablish : (s.reestablishRunningDataflow uuid record d nodes).1.view u = s.view u := by
    unfold reestablishRunningDataflow
    split
    · exact view_setDataflow_of_ne h
    · split
      · rfl
      · exact view_setDataflow_of_ne h
  unfold readopt
  dsimp only
  split
  · rw [view_replayAllNodesReady_of_ne h, hreestablish]
  · exact hreestablish

theorem reconcile_lives {d : DaemonId} {nodes : List NodeId} (he : e = .statusReport d reported order)
    (hreported : (u, nodes) ∈ reported) :
    Lives s₀ e u (s.view u) ((s.reconcile d u nodes).view u) := by
  unfold reconcile stopOrphanedDataflowOnDaemon
  split
  · rw [view_send]
  · rename_i hnot
    have harchived : (s.view u).archived = false := by simpa [view] using hnot
    split
    · exact .refl
    · rename_i record hget
      have hrecord := mem_store_of_getDataflow hget
      have hrevived (hrevivable : record.status.revivable = true) : Lives s₀ e u (s.view u)
          (((s.putDataflow u (s.promoted record)).readopt u (s.promoted record) d nodes).view u) := by
        have hput := view_putDataflow_self (s := s) (u := u) (s.promoted record)
        have hreadopt : Lives s₀ e u _ _ :=
          readopt_lives he hreported (congrArg View.record hput) rfl
        rw [hput] at hreadopt
        exact .head (.promoted d reported order nodes he hreported hrecord hrevivable harchived s.now) hreadopt
      split
      · rename_i hstatus
        exact hrevived (by rw [hstatus]; rfl)
      · rename_i hstatus
        exact hrevived (by rw [hstatus]; rfl)
      · rename_i hstatus
        exact hrevived (by rw [hstatus]; rfl)
      · rename_i hstatus
        exact readopt_lives he hreported hrecord hstatus
      · rw [view_send]
      · rw [view_send]
      · exact .refl

theorem view_reconcile_of_ne (h : uuid ≠ u) (d : DaemonId) (nodes : List NodeId) :
    (s.reconcile d uuid nodes).view u = s.view u := by
  unfold reconcile stopOrphanedDataflowOnDaemon
  split
  · exact view_send _ _
  · split
    · rfl
    · split <;> simp only [view_readopt_of_ne h, view_putDataflow_of_ne h, view_send]

theorem autoRecover_lives {d : DaemonId} (he : e = .statusReport d reported order) (uuids : List DataflowId) :
    Lives s₀ e u (s.view u) ((s.autoRecover d uuids uuid).view u) := by
  have hattempt {df : RunningDataflow} (hentry : s.runningDataflows[uuid]? = some df)
      (attempts : TreeMap DaemonId Nat) : Lives s₀ e u (s.view u)
        ((s.setDataflow uuid { df with lastRecoveryAttempt := attempts }).view u) := by
    by_cases hu : uuid = u
    · subst hu
      rw [view_setDataflow_self]
      exact .single (.recoveryAttempted d reported order attempts he hentry)
    · rw [view_setDataflow_of_ne hu]
  unfold autoRecover
  split
  · exact .refl
  · rename_i df hentry
    split
    · exact .refl
    · split
      · exact hattempt hentry _
      · split
        · exact .refl
        · split
          · exact .refl
          · split
            · exact .refl
            · split
              · exact .refl
              · rw [view_send]
                exact hattempt hentry _

theorem handleDaemonStatusReport_lives (d : DaemonId) (reported : List (DataflowId × List NodeId))
    (order : List DataflowId) (he : e = .statusReport d reported order) :
    Lives s₀ e u (s.view u) ((s.handleDaemonStatusReport d reported order).view u) := by
  have hreconciled : Lives s₀ e u (s.view u)
      ((reported.foldl (fun s entry => s.reconcile d entry.1 entry.2) s).view u) := by
    refine foldl_moves (view · u) (fun _ => True) (fun _ _ _ _ => trivial) ?_ trivial
    rintro s' ⟨uuid, nodes⟩ hmem -
    by_cases hu : uuid = u
    · subst hu
      exact reconcile_lives he hmem
    · rw [view_reconcile_of_ne hu]
  refine hreconciled.trans ?_
  exact foldl_moves (view · u) (fun _ => True) (fun _ _ _ _ => trivial)
    (fun _ _ _ _ => autoRecover_lives he _) trivial

/-! ## Requests -/

theorem stopDataflow_cases (uuid : DataflowId) (grace : Option Nat) (force : Bool)
    (accepting : List DaemonId) :
    (∃ s' df, s.stopDataflow uuid grace force accepting = (s', .ok df) ∧
      s.runningDataflows[uuid]? = some df ∧ s'.pendingRestarts = s.pendingRestarts ∧
      ∀ u, s'.view u = s.view u) ∨
    ∃ s' error, s.stopDataflow uuid grace force accepting = (s', .error error) ∧
      ∀ u, s'.view u = s.view u := by
  have hrestarts (daemons : List DaemonId) (command : Command) :
      (s.sendAll daemons command).pendingRestarts = s.pendingRestarts := by
    refine foldl_view_eq pendingRestarts fun s d => ?_
    unfold send
    split
    · rfl
    · split <;> rfl
  unfold stopDataflow
  split
  · exact .inr ⟨s, _, rfl, fun _ => rfl⟩
  · rename_i df hentry
    dsimp only
    split
    · exact .inl ⟨_, df, rfl, hentry, hrestarts _ _, fun _ => view_sendAll _ _⟩
    · exact .inr ⟨_, _, rfl, fun _ => view_sendAll _ _⟩

theorem reportOrStop_lives (uuid : DataflowId) (grace : Option Nat) (force : Bool)
    (accepting : List DaemonId) (he : s₀.stopTarget e = some uuid)
    (hfree : (s.view u).custody s₀.nextSender = 0) :
    Lives s₀ e u (s.view u) ((s.reportOrStop s₀.nextSender uuid grace force accepting).view u) := by
  unfold reportOrStop
  split
  · exact reply_lives .refl hfree
  · rcases s.stopDataflow_cases uuid grace force accepting with
      ⟨s', df, hstop, hentry, _, hview⟩ | ⟨s', error, hstop, hview⟩
    · simp only [hstop]
      by_cases hu : uuid = u
      · subst hu
        rw [view_setDataflow_self, view_persist_self, hview]
        exact .single (.stopping _ he hentry hfree)
      · rw [view_setDataflow_of_ne hu, view_persist_of_ne hu, hview]
    · simp only [hstop]
      rw [← hview u] at hfree ⊢
      exact reply_lives .refl hfree

theorem handleStop_lives (uuid : DataflowId) (grace : Option Nat) (force : Bool)
    (accepting : List DaemonId) (he : s₀.stopTarget e = some uuid)
    (hfree : (s.view u).custody s₀.nextSender = 0) :
    Lives s₀ e u (s.view u) ((s.handleStop s₀.nextSender uuid grace force accepting).view u) := by
  unfold handleStop
  by_cases hu : uuid = u
  · subst hu
    have hcancelled := view_cancelPendingRestart_self (s := s) (u := uuid) (stoppedBeforeRestart uuid)
    refine .head (.restartCancelled (stoppedBeforeRestart uuid) he) ?_
    rw [← hcancelled]
    refine reportOrStop_lives uuid grace force accepting he ?_
    rw [hcancelled, View.custody_cancelRestart, hfree]
  · rw [← view_cancelPendingRestart_of_ne hu (stoppedBeforeRestart uuid)] at hfree ⊢
    exact reportOrStop_lives uuid grace force accepting he hfree

theorem initiateRestart_lives (uuid : DataflowId) (grace : Option Nat) (force : Bool)
    (accepting : List DaemonId) (he : s₀.restartTarget e = some uuid)
    (hfree : (s.view u).custody s₀.nextSender = 0) :
    Lives s₀ e u (s.view u) ((s.initiateRestart s₀.nextSender uuid grace force accepting).view u) := by
  unfold initiateRestart
  split
  · exact reply_lives .refl hfree
  · rename_i hnoRestart
    split
    · exact reply_lives .refl hfree
    · rename_i entry hentry
      rcases s.stopDataflow_cases uuid grace force accepting with
        ⟨s', df, hstop, hentry', hrestarts, hview⟩ | ⟨s', error, hstop, hview⟩
      · cases hentry.symm.trans hentry'
        simp only [hstop]
        let restart : PendingRestart := ⟨entry.descriptor, entry.name, entry.uv, s₀.nextSender⟩
        have hparked : ({ s'.persist uuid entry .stopping with
            pendingRestarts := s'.pendingRestarts.insert uuid restart }).view u =
            { (s'.persist uuid entry .stopping).view u with
              restart := (s'.pendingRestarts.insert uuid restart)[u]? } := rfl
        rw [hparked]
        by_cases hu : uuid = u
        · subst hu
          have hnone : (s.view uuid).restart = none := by simpa [view] using hnoRestart
          rw [view_persist_self, hview, TreeMap.getElem?_insert_self]
          exact .single (.restartParked _ he hentry hnone hfree)
        · rw [view_persist_of_ne hu, hview, TreeMap.getElem?_insert, if_neg (by simpa using hu),
            hrestarts, ← view_restart]
      · simp only [hstop]
        rw [← hview u] at hfree ⊢
        exact reply_lives .refl hfree

theorem handleWaitForSpawn_lives (uuid : DataflowId) (he : e = .waitForSpawn uuid)
    (hfree : (s.view u).custody s₀.nextSender = 0) :
    Lives s₀ e u (s.view u) ((s.handleWaitForSpawn s₀.nextSender uuid).view u) := by
  unfold handleWaitForSpawn
  split
  · exact reply_lives .refl hfree
  · rename_i df hentry
    split
    · rename_i senders hpending
      by_cases hu : uuid = u
      · subst hu
        rw [view_setDataflow_self]
        exact .single (.waiting senders he hentry hpending hfree)
      · rw [view_setDataflow_of_ne hu]
    · exact reply_lives .refl hfree

theorem setNodes_reply_lives {df' : RunningDataflow} {result : Reply}
    (hentry : s.runningDataflows[uuid]? = some df)
    (hstep : uuid = u → LifeStep s₀ e u (s.view u) { s.view u with entry := some df' })
    (hparked : df'.parked = df.parked)
    (hfree : (s.view u).custody s₀.nextSender = 0) :
    Lives s₀ e u (s.view u) (((s.setDataflow uuid df').reply s₀.nextSender result).view u) := by
  by_cases hu : uuid = u
  · subst hu
    have hset : (s.setDataflow uuid df').view uuid = { s.view uuid with entry := some df' } :=
      view_setDataflow_self
    refine reply_lives ?_ ?_
    · rw [hset]
      exact .single (hstep rfl)
    · rw [hset]
      simpa only [View.custody, View.parked, view_entry, hentry, Option.elim_some, hparked] using hfree
  · refine reply_lives ?_ ?_ <;> rw [view_setDataflow_of_ne hu]
    exact hfree

theorem handleAddNode_lives (uuid : DataflowId) (node : Node) (accepting : List DaemonId)
    (he : e = .addNode uuid node accepting) (hfree : (s.view u).custody s₀.nextSender = 0) :
    Lives s₀ e u (s.view u) ((s.handleAddNode s₀.nextSender uuid node accepting).view u) := by
  unfold handleAddNode
  split
  · exact reply_lives .refl hfree
  · rename_i df hentry
    split
    · exact reply_lives .refl hfree
    · split
      · exact reply_lives .refl hfree
      · split
        · exact reply_lives .refl hfree
        · rename_i d rest hdaemons
          have hd : d ∈ df.daemons := by
            rw [← TreeSet.mem_toList, hdaemons]
            exact List.mem_cons_self
          have hsent := view_send (s := s) (u := u) d (.addNode uuid node.id)
          dsimp only
          rw [← hsent] at hfree ⊢
          split
          · rw [← runningDataflows_send d (.addNode uuid node.id)] at hentry
            refine setNodes_reply_lives hentry (fun hu => ?_) rfl hfree
            subst hu
            exact .nodeAdded node d accepting he hentry hd
          · exact reply_lives .refl hfree

theorem handleRemoveNode_lives (uuid : DataflowId) (node : NodeId) (grace : Option Nat)
    (accepting : List DaemonId) (he : e = .removeNode uuid node grace accepting)
    (hfree : (s.view u).custody s₀.nextSender = 0) :
    Lives s₀ e u (s.view u) ((s.handleRemoveNode s₀.nextSender uuid node grace accepting).view u) := by
  unfold handleRemoveNode
  split
  · exact reply_lives .refl hfree
  · rename_i df hentry
    split
    · exact reply_lives .refl hfree
    · rename_i d _
      have hsent := view_send (s := s) (u := u) d (.removeNode uuid node grace)
      dsimp only
      rw [← hsent] at hfree ⊢
      split
      · rw [← runningDataflows_send d (.removeNode uuid node grace)] at hentry
        refine setNodes_reply_lives hentry (fun hu => ?_) rfl hfree
        subst hu
        exact .nodeRemoved node grace accepting he hentry
      · exact reply_lives .refl hfree

/-! ## Clean -/

theorem not_running_of_mem_cleanCandidates {entry : ListEntry} (h : entry ∈ s.cleanCandidates) :
    s.runningDataflows[entry.uuid]? = none := by
  have hnone {uuid : DataflowId} (hc : ¬ s.runningDataflows.contains uuid = true) :
      s.runningDataflows[uuid]? = none := by simpa using hc
  unfold cleanCandidates at h
  rcases List.mem_append.mp h with hmem | hmem
  · obtain ⟨result, _, hsome⟩ := List.mem_filterMap.mp hmem
    split at hsome
    · cases hsome
    · rename_i hidle
      cases hsome
      exact hnone hidle
  · obtain ⟨record, _, hsome⟩ := List.mem_filterMap.mp hmem
    split at hsome
    · cases hsome
    · rename_i hidle
      rw [Bool.or_eq_true, not_or] at hidle
      split at hsome <;> cases hsome
      · exact hnone hidle.1
      · exact hnone hidle.1

theorem view_cleanOne_self (entry : ListEntry) :
    (s.cleanOne entry).view entry.uuid =
      { s.view entry.uuid with
        record := none
        results := none
        archived := false
        effects := (s.view entry.uuid).effects ++ [.deleted entry.uuid] } := by
  simp [cleanOne, emit, view, IndexMap.get?_shiftRemove, IndexMap.contains, Effect.concerns]

theorem view_cleanOne_of_ne {entry : ListEntry} (h : entry.uuid ≠ u) :
    (s.cleanOne entry).view u = s.view u := by
  simp [cleanOne, emit, view, IndexMap.get?_shiftRemove, IndexMap.contains, Effect.concerns,
    TreeMap.getElem?_erase, h]

theorem custody_cleanAll (candidates : List ListEntry) (sender : ReplySender) :
    ((candidates.foldl cleanOne s).view u).custody sender = (s.view u).custody sender := by
  refine foldl_view_eq (fun s : Coordinator => (s.view u).custody sender) fun s entry => ?_
  by_cases hu : entry.uuid = u
  · subst hu
    rw [view_cleanOne_self]
    simp [View.custody, View.parked, Effect.repliesTo]
  · rw [view_cleanOne_of_ne hu]

theorem handleClean_lives (he : e = .clean) (hfree : (s.view u).custody s₀.nextSender = 0) :
    Lives s₀ e u (s.view u) ((s.handleClean s₀.nextSender).view u) := by
  unfold handleClean
  split
  · refine reply_lives ?_ ?_
    · refine foldl_moves (view · u) (·.runningDataflows = s.runningDataflows)
        (fun _ _ _ hsame => hsame) ?_ rfl
      intro s' entry hmem hsame
      by_cases hu : entry.uuid = u
      · subst hu
        have hidle : (s'.view entry.uuid).entry = none := by
          rw [view_entry, hsame]
          exact not_running_of_mem_cleanCandidates hmem
        rw [view_cleanOne_self]
        exact .single (.cleaned he hidle)
      · rw [view_cleanOne_of_ne hu]
    · rw [custody_cleanAll, hfree]
  · exact reply_lives .refl hfree

/-! ## The next start of the process -/

theorem markStopping_lives (he : e = .coordinatorRestart true) :
    Lives s₀ e u (s.view u) (s.markStopping.view u) := by
  have hother : ∀ (s : Coordinator) (entry : DataflowId × RunningDataflow), entry.1 ≠ u →
      (s.persist entry.1 entry.2 .stopping).view u = s.view u :=
    fun _ _ hne => view_persist_of_ne hne _
  unfold markStopping
  cases hentry : (s.view u).entry with
  | none =>
    rw [foldl_unseen (view · u) Prod.fst hother fun entry hmem heq => by
      have hsome := TreeMap.mem_toList_iff_getElem?_eq_some.mp hmem
      rw [heq, ← view_entry, hentry] at hsome
      cases hsome]
  | some =>
    obtain ⟨s', hview, hfold⟩ := foldl_once (view · u) Prod.fst (s := s) hother
      (nodup_keys_toList s.runningDataflows) (TreeMap.mem_toList_iff_getElem?_eq_some.mpr hentry) rfl
    have hsame : s'.view u = s.view u := hview
    rw [hfold, view_persist_self, hsame]
    exact .single (.markedStopping _ he hentry)

theorem handleCoordinatorRestart_lives (graceful : Bool) (he : e = .coordinatorRestart graceful) :
    Lives s₀ e u (s.view u) ((s.handleCoordinatorRestart graceful).view u) := by
  unfold handleCoordinatorRestart
  dsimp only
  generalize hmarked : (if graceful = true then s.markStopping else s) = marked
  have hstopping : Lives s₀ e u (s.view u) (marked.view u) := by
    subst hmarked
    cases graceful with
    | true => exact markStopping_lives he
    | false => exact .refl
  let restarted : Coordinator := { marked with
    runningDataflows := ∅, pendingRestarts := ∅, dataflowResults := [], archivedDataflows := [],
    daemonConnections := ∅ }
  have hforgotten : restarted.view u =
      { marked.view u with entry := none, restart := none, results := none, archived := false } := by
    simp [restarted, view, IndexMap.get?, IndexMap.contains]
  refine hstopping.trans (.head (.forgotten graceful he) ?_)
  rw [← hforgotten]
  refine foldl_records_lives (s := restarted) (fun s entry hne => ?_) fun s' record hview hrecord => ?_
  · unfold recoverRecord
    split <;> simp only [view_putDataflow_of_ne hne]
  · have hentry : (restarted.view u).entry = none := by rw [hforgotten]
    unfold recoverRecord
    split
    all_goals first
      | (rename_i hstatus
         rw [view_putDataflow_self, hview]
         exact .single (.recoveredRecord graceful _ he hentry hrecord (by rw [hstatus]; rfl)))
      | rw [hview]

/-! ## One event -/

theorem handle_lives (s : Coordinator) (e : Event) (u : DataflowId)
    (hblank : (s.view s.nextUuid).Blank) (hfree : (s.view u).custody s.nextSender = 0) :
    Lives s e u (s.view u) ((s.handle e).view u) := by
  cases e with
  | register machineId labels versionOk =>
    have hsame : (s.handleRegister machineId labels versionOk).view u = s.view u := by
      unfold handleRegister
      split <;> rfl
    rw [handle, hsame]
  | heartbeatInterval full order => exact handleHeartbeatInterval_lives full order rfl
  | daemonExit d c order => exact handleDaemonExit_lives d c order rfl
  | readyOnDaemon uuid d exited => exact handleReadyOnDaemon_lives d exited rfl
  | finishedOnDaemon uuid d result accepting =>
    by_cases hu : uuid = u
    · subst hu
      exact handleFinishedOnDaemon_lives_self d result accepting rfl hblank
    · exact handleFinishedOnDaemon_lives_of_ne hu d result accepting rfl hblank
  | spawnResult uuid d result =>
    by_cases hu : uuid = u
    · subst hu
      exact handleDataflowSpawnResult_lives_self d result rfl
    · exact handleDataflowSpawnResult_lives_of_ne rfl hu d result
  | statusReport d reported order => exact handleDaemonStatusReport_lives d reported order rfl
  | start name descriptor uv accepting =>
    exact handleStart_lives name descriptor uv accepting rfl hblank hfree
  | stop uuid grace force accepting => exact handleStop_lives uuid grace force accepting rfl hfree
  | stopByName name grace force accepting =>
    rw [handle, handleStopByName]
    split
    · rename_i uuid hname
      exact handleStop_lives uuid grace force accepting (by rw [stopTarget, hname]; rfl) hfree
    · exact reply_lives .refl hfree
  | restart uuid grace force accepting =>
    exact initiateRestart_lives uuid grace force accepting rfl hfree
  | restartByName name grace force accepting =>
    rw [handle, handleRestartByName]
    split
    · rename_i uuid hname
      exact initiateRestart_lives uuid grace force accepting (by rw [restartTarget, hname]; rfl) hfree
    · exact reply_lives .refl hfree
  | waitForSpawn uuid => exact handleWaitForSpawn_lives uuid rfl hfree
  | clean => exact handleClean_lives rfl hfree
  | addNode uuid node accepting => exact handleAddNode_lives uuid node accepting rfl hfree
  | removeNode uuid node grace accepting =>
    exact handleRemoveNode_lives uuid node grace accepting rfl hfree
  | coordinatorRestart graceful => exact handleCoordinatorRestart_lives graceful rfl
  | _ => exact .refl

end Coordinator

end Dora.Coord
