import Dora.Coordinator.Verdict

/-!
# What `clean` removes

`clean` takes a dataflow for over if it has results in memory and no entry. That is right unless a
dataflow loses its entry to a reclaim while some of its daemons have already reported, or is revived
while its results are kept. The parameter rows of a dataflow go with its record
(`delete_dataflow` in `libraries/coordinator-store/src/in_memory.rs`).
-/

namespace Dora.Coord

open Std Lib

variable {s : Coordinator} {e : Event} {u : DataflowId} {v v' : View}

def DataflowStatus.isOver : DataflowStatus → Bool
  | .succeeded | .failed _ _ => true
  | _ => false

structure View.Tidy (v : View) : Prop where
  ended : v.entry = none → (v.results ≠ none ∨ v.archived = true) →
    ∃ record, v.record = some record ∧ record.status.isOver = true
  unarchived : v.entry ≠ none → v.archived = false

/-- No loss of a daemon takes the entry of a dataflow with results, and no report revives a dataflow that
has results. -/
structure View.Careful (s : Coordinator) (e : Event) (u : DataflowId) (v : View) : Prop where
  loss : ∀ df, v.entry = some df → df.affectedBy (s.lostBy e) = true →
    Coordinator.disconnectAction u df (s.lostBy e) = some (.reclaimOrphaned u) → v.results = none
  report : ∀ d reported order nodes, e = .statusReport d reported order → (u, nodes) ∈ reported →
    v.entry = none → v.archived = false → ∀ record, v.record = some record →
      record.status.revivable = true → v.results = none

theorem isOver_truncated {status : DataflowStatus} (h : status.isOver = true) :
    status.truncated.isOver = true := by
  cases status with
  | failed => rfl
  | _ => exact h

theorem isOver_finalStatus (results : Option (TreeMap DaemonId DaemonResult)) :
    (Coordinator.finalStatus results).isOver = true := by
  unfold Coordinator.finalStatus
  split <;> rfl

theorem LifeStep.tidy (h : LifeStep s e u v v') (htidy : v.Tidy) (hcareful : v.Careful s e u) :
    v'.Tidy := by
  have hset {df df' : RunningDataflow} (hv : v.entry = some df) (hv' : v'.entry = some df')
      (harchived : v'.archived = v.archived) : v'.Tidy := by
    refine ⟨fun hnone => ?_, fun _ => ?_⟩
    · cases hv'.symm.trans hnone
    · rw [harchived]
      exact htidy.unarchived (by rw [hv]; exact Option.some_ne_none df)
  have hover {record : DataflowRecord} (hnone : v'.entry = none) (hrecord : v'.record = some record)
      (hstatus : record.status.isOver = true) : v'.Tidy :=
    ⟨fun _ _ => ⟨record, hrecord, hstatus⟩, fun hsome => absurd hnone hsome⟩
  have hbare (hnone : v'.entry = none) (hresults : v'.results = none) (harchived : v'.archived = false) :
      v'.Tidy := by
    refine ⟨fun _ hkept => ?_, fun hsome => absurd hnone hsome⟩
    rw [hresults, harchived] at hkept
    simp at hkept
  -- what is not over has neither results nor a place in the archive
  have hfree {record : DataflowRecord} (hnone : v.entry = none) (hrecord : v.record = some record)
      (hstatus : record.status.isOver = false) : v.results = none ∧ v.archived = false := by
    by_contra hkept
    obtain ⟨record', hrecord', hover⟩ := htidy.ended hnone (by
      cases harchived : v.archived with
      | true => exact .inr rfl
      | false => exact .inl fun hresults => hkept ⟨hresults, harchived⟩)
    cases hrecord.symm.trans hrecord'
    rw [hstatus] at hover
    cases hover
  cases h with
  | started _ _ _ _ _ _ _ _ hblank =>
    exact ⟨nofun, fun _ => hblank.2.2.2.2⟩
  | lost _ hv => exact hset hv (View.cancelRestart_entry _ _) (View.cancelRestart_archived _ _)
  | lostLastPending _ _ _ hv => exact hset hv rfl (View.cancelRestart_archived _ _)
  | orphaned _ _ hv haffected haction =>
    refine hbare (View.cancelRestart_entry _ _) ?_ ?_
    · exact (View.cancelRestart_results _ _).trans (hcareful.loss _ hv haffected haction)
    · exact (View.cancelRestart_archived _ _).trans
        (htidy.unarchived (by rw [hv]; exact Option.some_ne_none _))
  | spawnFailed | spawnTimedOut =>
    exact hover (View.cancelRestart_entry _ _) (View.cancelRestart_record _ _) rfl
  | concluded => exact hover rfl rfl (isOver_truncated (isOver_finalStatus _))
  | promoted _ _ _ _ he hreported hrecord hstatus harchived =>
    refine ⟨fun hnone hkept => ?_, htidy.unarchived⟩
    have hresults := hcareful.report _ _ _ _ he hreported hnone harchived _ hrecord hstatus
    rcases hkept with hsome | hsome
    · exact absurd hresults hsome
    · cases harchived.symm.trans hsome
  | relinked _ _ _ _ _ _ hv => exact hset hv (View.replay_entry _ _ _) (View.replay_archived _ _ _)
  | recovered _ _ _ _ _ _ _ _ hnone hrecord hstatus =>
    refine ⟨fun hnone' => ?_, fun _ => ?_⟩
    · cases (View.replay_entry _ _ _).symm.trans hnone'
    · exact (View.replay_archived _ _ _).trans (hfree hnone hrecord (by rw [hstatus]; rfl)).2
  | restartCancelled =>
    constructor
    · rw [View.cancelRestart_entry, View.cancelRestart_results, View.cancelRestart_archived,
        View.cancelRestart_record]
      exact htidy.ended
    · rw [View.cancelRestart_entry, View.cancelRestart_archived]
      exact htidy.unarchived
  | answered => exact ⟨htidy.ended, htidy.unarchived⟩
  | recoveryExpired => exact ⟨fun _ _ => ⟨_, rfl, rfl⟩, htidy.unarchived⟩
  | cleaned _ hnone => exact hbare hnone rfl rfl
  | resultsMerged _ _ _ _ _ hnone harchived =>
    exact ⟨fun _ _ => htidy.ended hnone (.inr harchived), fun hsome => absurd hnone hsome⟩
  | resultsCapped _ hnone hkept =>
    exact ⟨fun _ hsome => htidy.ended hnone (hsome.imp (mt hkept) id), fun hsome => absurd hnone hsome⟩
  | archiveDropped =>
    exact ⟨fun hnone hsome => htidy.ended hnone (.inl (hsome.resolve_right nofun)), fun _ => rfl⟩
  | forgotten => exact hbare rfl rfl rfl
  | recoveredRecord _ _ _ hnone hrecord hstatus =>
    obtain ⟨hresults, harchived⟩ := hfree hnone hrecord (by
      revert hstatus
      cases DataflowRecord.status _ <;> simp [DataflowStatus.isOver, DataflowStatus.unsettled])
    exact hbare hnone hresults harchived
  | _ => exact hset ‹_› rfl rfl

theorem affectedBy_dropDaemons (df : RunningDataflow) (gone : List DaemonId) :
    (df.dropDaemons gone).affectedBy gone = false := by
  refine List.any_eq_false.mpr fun d hd => ?_
  simp [RunningDataflow.dropDaemons, TreeSet.mem_filter, hd]

theorem LifeStep.careful (h : LifeStep s e u v v') (hv : v.Careful s e u) : v'.Careful s e u where
  loss df' hentry haffected haction := by
    by_cases hlost : s.lostBy e = []
    · rw [affectedBy_of_lostBy_nil hlost] at haffected
      cases haffected
    -- daemons are lost at the end of a connection and at a heartbeat only
    cases h with
    | lost =>
      cases (View.cancelRestart_entry _ _).symm.trans hentry
      rw [affectedBy_dropDaemons] at haffected
      cases haffected
    | lostLastPending =>
      cases hentry
      cases (affectedBy_dropDaemons _ _).symm.trans haffected
    | orphaned | spawnTimedOut => cases (View.cancelRestart_entry _ _).symm.trans hentry
    | answered | recoveryExpired | archiveDropped => exact hv.loss df' hentry haffected haction
    | resultsCapped _ hnone => cases hnone.symm.trans hentry
    | stopping _ htarget | restartCancelled _ htarget => exact absurd (lostBy_of_stopTarget htarget) hlost
    | restartParked _ htarget => exact absurd (lostBy_of_restartTarget htarget) hlost
    | started _ _ _ _ _ _ hstart => exact absurd (lostBy_of_mayStart hstart) hlost
    | _ => exact absurd (by rw [‹e = _›]; rfl) hlost
  report d reported order nodes he hreported hnone harchived record hrecord hstatus := by
    subst he
    cases h with
    | lost _ _ haffected | lostLastPending _ _ _ _ haffected | orphaned _ _ _ haffected => cases haffected
    | promoted =>
      cases hrecord
      cases hstatus
    | relinked | recovered => cases (View.replay_entry _ _ _).symm.trans hnone
    | answered => exact hv.report d reported order nodes rfl hreported hnone harchived record hrecord hstatus
    | resultsCapped _ _ hkept =>
      exact hkept (hv.report d reported order nodes rfl hreported hnone harchived record hrecord hstatus)
    | archiveDropped he => cases he
    | stopping _ htarget | restartCancelled _ htarget | restartParked _ htarget => cases htarget
    | started _ _ _ _ _ _ hstart => cases hstart
    | recoveryAttempted => cases hnone
    | _ => cases ‹Event.statusReport _ _ _ = _›

namespace Coordinator

def Careful (s : Coordinator) (e : Event) : Prop := ∀ u, (s.view u).Careful s e u

theorem tidy_reached {events : List Event} (hmeets : Meets step Careful {} events) (u : DataflowId) :
    ((reached events).view u).Tidy := by
  induction events using List.reverseRecOn with
  | nil =>
    obtain ⟨hnone, _, _, hresults, harchived⟩ := sound_initial.blank u (Nat.zero_le u)
    refine ⟨fun _ hkept => ?_, fun hsome => absurd hnone hsome⟩
    rcases hkept with hsome | hsome
    · exact absurd hresults hsome
    · cases harchived.symm.trans hsome
  | append_singleton events e ih =>
    obtain ⟨hearlier, he⟩ := (meets_concat step {} events e).mp hmeets
    rw [reached_concat]
    let P (v : View) : Prop := v.Tidy ∧ v.Careful (reached events).cleared e u
    have hend : P ((step (reached events) e).1.view u) :=
      ((sound_reached events).step_lives e u).keeps
        (fun v v' hstep hv => ⟨hstep.tidy hv.1 hv.2, hstep.careful hv.2⟩)
        ⟨⟨(ih hearlier).ended, (ih hearlier).unarchived⟩, ⟨(he u).loss, (he u).report⟩⟩
    exact hend.1

section Rows

variable {Value : Type}

def deleteParams (uuid : DataflowId) (rows : TreeMap (DataflowId × NodeId × String) Value) :
    TreeMap (DataflowId × NodeId × String) Value :=
  rows.filter fun key _ => key.1 ≠ uuid

/-- The parameter rows that `handle_clean` leaves. -/
def cleanRows (s : Coordinator) (rows : TreeMap (DataflowId × NodeId × String) Value) :
    TreeMap (DataflowId × NodeId × String) Value :=
  if s.storeReadable then
    s.cleanCandidates.foldl (fun rows entry => deleteParams entry.uuid rows) rows
  else rows

theorem getElem?_cleanRows {rows : TreeMap (DataflowId × NodeId × String) Value}
    (hu : ∀ entry ∈ s.cleanCandidates, entry.uuid ≠ u) (node : NodeId) (key : String) :
    (s.cleanRows rows)[(u, node, key)]? = rows[(u, node, key)]? := by
  unfold cleanRows
  split
  · refine List.foldlRecOn s.cleanCandidates _ (motive := fun rows' => rows'[(u, node, key)]? = _) rfl ?_
    intro rows' hrows entry hentry
    rw [← hrows, deleteParams, TreeMap.getElem?_filter']
    cases rows'[(u, node, key)]? with
    | none => rfl
    | some => simp [Option.filter_some, (hu entry hentry).symm]
  · rfl

end Rows

theorem mem_cleanCandidates_over (htidy : ∀ u, (s.view u).Tidy) {entry : ListEntry}
    (h : entry ∈ s.cleanCandidates) :
    ∃ record, s.store[entry.uuid]? = some record ∧ record.status.isOver = true := by
  have hidle := not_running_of_mem_cleanCandidates h
  unfold cleanCandidates at h
  rcases List.mem_append.mp h with hmem | hmem
  · obtain ⟨result, hresult, hsome⟩ := List.mem_filterMap.mp hmem
    split at hsome
    · cases hsome
    · cases hsome
      refine (htidy result.1).ended hidle (.inl fun hnone => ?_)
      have hcontained : s.dataflowResults.contains result.1 = true :=
        IndexMap.contains_iff.mpr ⟨result, hresult, rfl⟩
      have hget : s.dataflowResults.get? result.1 = none := hnone
      rw [IndexMap.contains, hget] at hcontained
      cases hcontained
  · obtain ⟨record, hrecord, hsome⟩ := List.mem_filterMap.mp hmem
    have hstored := TreeMap.mem_toList_iff_getElem?_eq_some.mp hrecord
    split at hsome
    · cases hsome
    · split at hsome <;> cases hsome
      · exact ⟨record.2, hstored, by rw [‹record.2.status = _›]; rfl⟩
      · exact ⟨record.2, hstored, by rw [‹record.2.status = _›]; rfl⟩

theorem handleClean_of_not_mem (hu : ∀ entry ∈ s.cleanCandidates, entry.uuid ≠ u) (sender : ReplySender) :
    ((s.handleClean sender).view u).record = (s.view u).record ∧
      ((s.handleClean sender).view u).results = (s.view u).results := by
  have hfold : (s.cleanCandidates.foldl cleanOne s).view u = s.view u := by
    refine List.foldlRecOn s.cleanCandidates cleanOne (motive := fun s' => s'.view u = s.view u) rfl ?_
    intro s' hs' entry hentry
    rw [view_cleanOne_of_ne (hu entry hentry), hs']
  unfold handleClean
  split
  · rw [view_reply, hfold]
    exact ⟨rfl, rfl⟩
  · rw [view_reply]
    exact ⟨rfl, rfl⟩

/-- In a run of such events a `clean` touches a dataflow only if its record says that it is over and it
has no entry: the record, the parameter rows and the results of every other one are as before. -/
theorem clean_removes_only_finished {events : List Event} (hmeets : Meets step Careful {} events)
    {Value : Type} (rows : TreeMap (DataflowId × NodeId × String) Value) (u : DataflowId) :
    (∃ record, (reached events).store[u]? = some record ∧ record.status.isOver = true ∧
      (reached events).runningDataflows[u]? = none) ∨
    (step (reached events) .clean).1.store[u]? = (reached events).store[u]? ∧
    (∀ (node : NodeId) (key : String),
      ((reached events).cleanRows rows)[(u, node, key)]? = rows[(u, node, key)]?) ∧
    (step (reached events) .clean).1.dataflowResults.get? u = (reached events).dataflowResults.get? u := by
  by_cases hmem : ∃ entry ∈ (reached events).cleanCandidates, entry.uuid = u
  · obtain ⟨entry, hentry, rfl⟩ := hmem
    obtain ⟨record, hrecord, hover⟩ := mem_cleanCandidates_over (tidy_reached hmeets) hentry
    exact .inl ⟨record, hrecord, hover, not_running_of_mem_cleanCandidates hentry⟩
  · have hu : ∀ entry ∈ (reached events).cleanCandidates, entry.uuid ≠ u :=
      fun entry hentry heq => hmem ⟨entry, hentry, heq⟩
    obtain ⟨hrecord, hresults⟩ := handleClean_of_not_mem (s := (reached events).cleared) hu
      (reached events).nextSender
    exact .inr ⟨hrecord, getElem?_cleanRows hu, hresults⟩

/-- Both daemons finish, and the dataflow is cleaned. -/
theorem clean_removes_when_both_finish :
    let events := startedOnTwo ++ [Event.finishedOnDaemon 2 daemonA (fineResult "camera") [],
      .finishedOnDaemon 2 daemonB (fineResult "plot") []]
    (step (reached events) .clean).1.store[2]?.isNone = true ∧
    ∃ record, (reached events).store[2]? = some record ∧ record.status.isOver = true ∧
      (reached events).runningDataflows[2]? = none := by
  intro events
  have hplain (s : Coordinator) (e : Event) (hlost : s.lostBy e = [])
      (hreport : ∀ d reported order, e ≠ .statusReport d reported order) : Careful s e := fun u =>
    ⟨fun df _ haffected => absurd haffected (by rw [affectedBy_of_lostBy_nil hlost]; exact nofun),
      fun d reported order _ he => absurd he (hreport d reported order)⟩
  have hmeets : Meets step Careful {} events :=
    ⟨hplain _ _ rfl nofun, hplain _ _ rfl nofun, hplain _ _ rfl nofun, hplain _ _ rfl nofun,
      hplain _ _ rfl nofun, trivial⟩
  have hgone : (step (reached events) .clean).1.store[2]?.isNone = true := by decide +kernel
  have hthere : (reached events).store[2]?.isNone = false := by decide +kernel
  have hclean := clean_removes_only_finished hmeets (∅ : TreeMap (DataflowId × NodeId × String) Nat) 2
  refine ⟨hgone, hclean.resolve_right fun hkept => ?_⟩
  rw [hkept.1, hthere] at hgone
  cases hgone

/-- One daemon finishes and the connection to the other one is lost: the dataflow waits to be reclaimed,
and a `clean` removes its record. -/
theorem clean_removes_recovering :
    let events := startedOnTwo ++ [Event.spawnResult 2 daemonA (.ok ()), .spawnResult 2 daemonB (.ok ()),
      .finishedOnDaemon 2 daemonA (fineResult "camera") [], .daemonExit daemonB 1 [2]]
    ((reached events).store[2]?.map (·.status)) = some .recovering ∧
    (step (reached events) .clean).1.store[2]?.isNone = true ∧
    (((reached events).cleanRows ((∅ : TreeMap (DataflowId × NodeId × String) Nat).insert
      (2, ⟨"plot"⟩, "rate") 30))[((2 : DataflowId), (⟨"plot"⟩ : NodeId), "rate")]?) = none := by
  decide +kernel

end Coordinator

end Dora.Coord
