import Dora.Coordinator.ParkedCallers
import Dora.Coordinator.StartBarrier
import Dora.Coordinator.TerminalStatus

/-!
# The success verdict

A dataflow has succeeded when the last of its daemons has finished and no result on the table holds an
error. A daemon leaves the set of members when it finishes, but also when it is lost, and then nobody
misses its result. As long as no member is lost, every daemon that ever had a node of the dataflow is a
member or on the table.

Whoever waits for the dataflow to stop is told the results in one map from nodes. Where two daemons report
the same node, the map keeps one of the two results.
-/

namespace Dora.Coord

open Std Lib

variable {s : Coordinator} {e : Event} {u : DataflowId} {v v' : View} {df : RunningDataflow}

def View.tally (v : View) : TreeMap DaemonId DaemonResult := v.results.getD ∅

def View.roster (v : View) : Option (TreeSet DaemonId × TreeMap NodeId DaemonId) :=
  v.entry.map fun df => (df.daemons, df.nodeToDaemon)

def Event.rewires : Event → Bool
  | .statusReport _ _ _ | .addNode _ _ _ | .removeNode _ _ _ _ => true
  | _ => false

inductive RosterStep (s : Coordinator) (e : Event) (u : DataflowId) (v v' : View) : Prop
  | kept (hroster : v'.roster = v.roster) (hresults : v'.results = v.results)
      (hsame : s.lostBy e = [] ∨ v'.entry = v.entry)
  | gone (h : v'.entry = none)
  | started (hu : u = s.nextUuid) (hresults : v'.results = v.results)
  | lost {df : RunningDataflow} (hv : v.entry = some df) (haffected : df.affectedBy (s.lostBy e) = true)
  | finished {df : RunningDataflow} (d : DaemonId) (result : DaemonResult) (accepting : List DaemonId)
      (he : e = .finishedOnDaemon u d result accepting) (hv : v.entry = some df)
      (h : v'.entry = some (df.finished d)) (hresults : v'.results = some (v.tally.insert d result))
  | recovered (d : DaemonId) (reported : List (DataflowId × List NodeId)) (order : List DataflowId)
      (he : e = .statusReport d reported order) (hreported : u ∈ reported.map Prod.fst)
      (hv : v.entry = none)
  | rewired {df df' : RunningDataflow} (he : e.rewires = true) (hv : v.entry = some df)
      (h : v'.entry = some df') (hdaemons : ∀ d ∈ df.daemons, d ∈ df'.daemons)
      (hnodes : ∀ (node : NodeId) d, df'.nodeToDaemon[node]? = some d →
        d ∈ df'.daemons ∨ df.nodeToDaemon[node]? = some d) (hresults : v'.results = v.results)

theorem lostBy_of_stopTarget (h : s.stopTarget e = some u) : s.lostBy e = [] := by
  cases e with
  | daemonExit | heartbeatInterval => cases h
  | _ => rfl

theorem lostBy_of_restartTarget (h : s.restartTarget e = some u) : s.lostBy e = [] := by
  cases e with
  | daemonExit | heartbeatInterval => cases h
  | _ => rfl

theorem LifeStep.roster (h : LifeStep s e u v v') : RosterStep s e u v v' := by
  have hset {df df' : RunningDataflow} (hv : v.entry = some df) (hv' : v'.entry = some df')
      (hdaemons : df'.daemons = df.daemons) (hnodes : df'.nodeToDaemon = df.nodeToDaemon)
      (hresults : v'.results = v.results) (hlost : s.lostBy e = []) : RosterStep s e u v v' := by
    refine .kept ?_ hresults (.inl hlost)
    rw [View.roster, View.roster, hv, hv', Option.map_some, Option.map_some, hdaemons, hnodes]
  have hsame (hentry : v'.entry = v.entry) (hresults : v'.results = v.results) : RosterStep s e u v v' :=
    .kept (by rw [View.roster, View.roster, hentry]) hresults (.inr hentry)
  cases h with
  | started descriptor name nodes placed uv now he hu => exact .started hu rfl
  | ready _ _ he hv | allReady _ _ _ _ he hv | spawnReported _ _ he hv | spawned _ _ _ he hv
  | recoveryAttempted _ _ _ _ he hv | waiting _ he hv | markedStopping _ he hv =>
    exact hset hv rfl rfl rfl rfl (he ▸ rfl)
  | lost _ hv haffected | lostLastPending _ _ _ hv haffected | orphaned _ _ hv haffected =>
    exact .lost hv haffected
  | spawnFailed | spawnTimedOut => exact .gone (View.cancelRestart_entry _ _)
  | partFinished d result accepting he hv => exact .finished d result accepting he hv rfl rfl
  | concluded | forgotten => exact .gone rfl
  | promoted | answered | recoveryExpired | archiveDropped => exact hsame rfl rfl
  | relinked d reported order nodes he hreported hv =>
    refine .rewired (he ▸ rfl) hv (View.replay_entry ..) (fun d' hd' => mem_insert_iff.mpr (.inr hd'))
      (fun node d' hnode => ?_) (View.replay_results ..)
    rcases mem_of_getElem?_insertMany hnode with hnamed | hbefore
    · obtain ⟨_, _, heq⟩ := List.mem_map.mp hnamed
      exact .inl (mem_insert_iff.mpr (.inl (Prod.mk.inj heq).2.symm))
    · exact .inr hbefore
  | recovered d reported order nodes resolved now he hreported hv =>
    exact .recovered d reported order he (List.mem_map_of_mem hreported) hv
  | stopping _ he hv => exact hset hv rfl rfl rfl rfl (lostBy_of_stopTarget he)
  | restartCancelled => exact hsame (View.cancelRestart_entry _ _) (View.cancelRestart_results _ _)
  | restartParked _ he hv => exact hset hv rfl rfl rfl rfl (lostBy_of_restartTarget he)
  | nodeAdded node d accepting he hv hd =>
    refine .rewired (he ▸ rfl) hv rfl (fun _ => id) (fun node' d' hnode => ?_) rfl
    rw [TreeMap.getElem?_insert] at hnode
    split at hnode
    · exact .inl (Option.some.inj hnode ▸ hd)
    · exact .inr hnode
  | nodeRemoved node grace accepting he hv =>
    refine .rewired (he ▸ rfl) hv rfl (fun _ => id) (fun node' d' hnode => .inr ?_) rfl
    rw [TreeMap.getElem?_erase] at hnode
    split at hnode
    · cases hnode
    · exact hnode
  | cleaned _ hv | resultsMerged _ _ _ _ _ hv | resultsCapped _ hv | recoveredRecord _ _ _ hv =>
    exact .gone hv

theorem isOk_of_finalStatus {results : TreeMap DaemonId DaemonResult}
    (h : Coordinator.finalStatus (some results) = .succeeded) {d : DaemonId} {result : DaemonResult}
    (hd : results[d]? = some result) : result.isOk = true := by
  have hnone : nodeErrors results = [] := by
    unfold Coordinator.finalStatus at h
    rw [Option.getD_some] at h
    split at h
    · assumption
    · cases h
  refine List.all_eq_true.mpr fun entry hentry => ?_
  have hdaemon := List.flatMap_eq_nil_iff.mp hnone (d, result)
    (TreeMap.mem_toList_iff_getElem?_eq_some.mpr hd)
  have hnode := List.filterMap_eq_nil_iff.mp hdaemon entry hentry
  cases hresult : entry.2 with
  | ok => rfl
  | error =>
    rw [hresult] at hnode
    cases hnode

/-! ## The result that a caller is told -/

/-- No node is fine by one report and failed by another. -/
def Agree (reports : TreeMap DaemonId DaemonResult) : Prop :=
  ∀ (d d' : DaemonId) (report report' : DaemonResult) (node : NodeId) (result result' : NodeResult),
    reports[d]? = some report → reports[d']? = some report' → report.nodeResults[node]? = some result →
    report'.nodeResults[node]? = some result' → NodeResult.isOk result = NodeResult.isOk result'

/-- A node that is fine by a report is not placed on another daemon, and is not the one that stands for
a dataflow without nodes. -/
def OwnNodes (df : RunningDataflow) (reports : TreeMap DaemonId DaemonResult) : Prop :=
  ∀ (d : DaemonId) (report : DaemonResult) (node : NodeId) (result : NodeResult),
    reports[d]? = some report → report.nodeResults[node]? = some result → NodeResult.isOk result = true →
    (∀ d', df.nodeToDaemon[node]? = some d' → d' = d) ∧
      (df.nodeToDaemon.isEmpty = true → node ≠ ⟨"watchdog"⟩)

section Merge

variable {reports : TreeMap DaemonId DaemonResult} {d : DaemonId} {report : DaemonResult} {node : NodeId}

theorem allOk_iff {results : TreeMap NodeId NodeResult} :
    (results.toList.all fun entry => NodeResult.isOk entry.2) = true ↔
      ∀ (node : NodeId) result, results[node]? = some result → NodeResult.isOk result = true := by
  simp [List.all_eq_true, TreeMap.mem_toList_iff_getElem?_eq_some]

theorem failed_of_merge (entries : List (DaemonId × DaemonResult)) (all : TreeMap NodeId NodeResult)
    (hevery : ∀ entry ∈ entries, ∀ result, entry.2.nodeResults[node]? = some result →
      NodeResult.isOk result = false)
    (hsome : (∃ result, all[node]? = some result ∧ NodeResult.isOk result = false) ∨
      ∃ entry ∈ entries, node ∈ entry.2.nodeResults) :
    ∃ result, (entries.foldl (fun all entry => all.insertMany entry.2.nodeResults.toList) all)[node]?
      = some result ∧ NodeResult.isOk result = false := by
  induction entries generalizing all with
  | nil => simpa using hsome
  | cons entry rest ih =>
    refine ih _ (fun other hother => hevery other (List.mem_cons_of_mem _ hother)) ?_
    rw [getElem?_insertMany_toList]
    cases hnode : entry.2.nodeResults[node]? with
    | some result => exact .inl ⟨result, rfl, hevery entry List.mem_cons_self result hnode⟩
    | none =>
      refine hsome.imp id fun ⟨other, hmem, hnamed⟩ => ?_
      rcases List.mem_cons.mp hmem with rfl | hrest
      · simp [TreeMap.mem_iff_isSome_getElem?, hnode] at hnamed
      · exact ⟨other, hrest, hnamed⟩

theorem not_isOk_dataflowResult (hd : reports[d]? = some report) (hnode : node ∈ report.nodeResults)
    (hevery : ∀ (d : DaemonId) report result, reports[d]? = some report →
      report.nodeResults[node]? = some result → NodeResult.isOk result = false) :
    (dataflowResult reports u).isOk ≠ true := by
  intro hok
  obtain ⟨result, hresult, hfailed⟩ := failed_of_merge reports.toList ∅
    (fun entry hentry result => hevery entry.1 entry.2 result
      (TreeMap.mem_toList_iff_getElem?_eq_some.mp hentry))
    (.inr ⟨(d, report), TreeMap.mem_toList_iff_getElem?_eq_some.mpr hd, hnode⟩)
  rw [allOk_iff.mp hok node result hresult] at hfailed
  cases hfailed

theorem isOk_of_dataflowResult (hagree : Agree reports) (hok : (dataflowResult reports u).isOk = true)
    (hd : reports[d]? = some report) : report.isOk = true := by
  refine allOk_iff.mpr fun node result hnode => ?_
  by_contra hfailed
  refine not_isOk_dataflowResult hd (TreeMap.mem_iff_isSome_getElem?.mpr (by rw [hnode]; rfl))
    (fun d' report' result' hd' hnode' => ?_) hok
  rw [hagree d' d report' report node result' result hd' hd hnode' hnode]
  exact Bool.not_eq_true _ ▸ hfailed

end Merge

namespace Coordinator

variable {errMsg : String} {sentinel : Nat}

theorem failed_of_synthesized {d : DaemonId} {report : DaemonResult} {node : NodeId} {result : NodeResult}
    (h : (synthesizeFailedDataflowResults df errMsg sentinel)[d]? = some report)
    (hnode : report.nodeResults[node]? = some result) : NodeResult.isOk result = false := by
  unfold synthesizeFailedDataflowResults at h
  split at h
  · rw [TreeMap.getElem?_insert] at h
    split at h
    · cases h
      rw [TreeMap.getElem?_insert] at hnode
      split at hnode
      · cases hnode
        rfl
      · simp at hnode
    · simp at h
  · rw [TreeMap.ofList_eq_insertMany_empty] at h
    rcases mem_of_getElem?_insertMany h with hmem | hnone
    · obtain ⟨d', -, heq⟩ := List.mem_map.mp hmem
      cases heq
      rw [TreeMap.ofList_eq_insertMany_empty] at hnode
      rcases mem_of_getElem?_insertMany hnode with hmem | hnone
      · obtain ⟨node', -, heq⟩ := List.mem_map.mp hmem
        cases heq
        rfl
      · simp at hnone
    · simp at hnone

/-- The node that has failed in any case. -/
theorem exists_synthesized (df : RunningDataflow) (errMsg : String) (sentinel : Nat) :
    ∃ (d : DaemonId) (report : DaemonResult) (node : NodeId),
      (synthesizeFailedDataflowResults df errMsg sentinel)[d]? = some report ∧ node ∈ report.nodeResults ∧
      (df.nodeToDaemon[node]? = some d ∨ df.nodeToDaemon.isEmpty = true ∧ node = ⟨"watchdog"⟩) := by
  unfold synthesizeFailedDataflowResults
  split
  · rename_i hempty
    exact ⟨_, _, ⟨"watchdog"⟩, TreeMap.getElem?_insert_self, by simp, .inr ⟨hempty, rfl⟩⟩
  · rename_i hempty
    obtain ⟨node, hmem⟩ : ∃ node, node ∈ df.nodeToDaemon := by
      by_contra hnone
      exact hempty (TreeMap.isEmpty_iff_forall_not_mem.mpr fun node hnode => hnone ⟨node, hnode⟩)
    obtain ⟨d, hd⟩ := Option.isSome_iff_exists.mp (TreeMap.mem_iff_isSome_getElem?.mp hmem)
    have hlisted := List.mem_map_of_mem (f := fun daemonId => (daemonId, DaemonResult.mk (TreeMap.ofList
      ((df.nodesOnDaemon daemonId).map fun node => (node, failedToSpawn errMsg)))))
      (TreeSet.mem_toList.mpr (mem_daemonsOf.mpr ⟨node, hd⟩))
    have hget := TreeMap.getElem?_ofList_of_mem ReflCmp.compare_self
      (List.pairwise_map.mpr (daemonsOf df.nodeToDaemon).distinct_toList) hlisted
    refine ⟨d, _, node, hget, ?_, .inl hd⟩
    simp [TreeMap.mem_ofList, RunningDataflow.nodesOnDaemon, TreeMap.mem_toList_iff_getElem?_eq_some, hd]

end Coordinator

theorem View.not_isOk_failedResults {errMsg : String} {sentinel : Nat} (hown : OwnNodes df v.tally) :
    (dataflowResult (v.failedResults df errMsg sentinel) u).isOk ≠ true := by
  have hget (d : DaemonId) : (v.failedResults df errMsg sentinel)[d]? =
      (Coordinator.synthesizeFailedDataflowResults df errMsg sentinel)[d]?.or v.tally[d]? :=
    getElem?_insertMany_toList
  obtain ⟨d, report, node, hd, hnode, hplaced⟩ := Coordinator.exists_synthesized df errMsg sentinel
  refine not_isOk_dataflowResult (d := d) (by rw [hget, hd, Option.some_or]) hnode
    fun d' report' result hd' hresult => ?_
  rw [hget] at hd'
  rcases Option.or_eq_some_iff.mp hd' with hsynth | ⟨hnone, hreported⟩
  · exact Coordinator.failed_of_synthesized hsynth hresult
  · by_contra hok
    obtain ⟨hother, hwatchdog⟩ := hown d' report' node result hreported hresult (by simpa using hok)
    rcases hplaced with hplaced | ⟨hempty, hnamed⟩
    · rw [hother d hplaced, hnone] at hd
      cases hd
    · exact hwatchdog hempty hnamed

/-! ## The verdict -/

/-- The dataflow is recorded as succeeded, or, where it matters, somebody who waits for its stop is told
that no node failed. -/
def Effect.Verdict (told : Prop) (u : DataflowId) : Effect → Prop
  | .persisted uuid status => uuid = u ∧ status = .succeeded
  | .reply (some uuid) _ (.ok (.dataflowStopped _ result)) => told ∧ uuid = u ∧ result.isOk = true
  | _ => False

def View.Verdict (told : Prop) (u : DataflowId) (v : View) : Prop := ∃ effect ∈ v.effects, effect.Verdict told u

/-- The answers of a failed spawn. -/
def Event.mayFailSpawn (u : DataflowId) : Event → Prop
  | .spawnResult uuid _ (.error _) => uuid = u
  | .heartbeatInterval _ _ => True
  | _ => False

/-- Nobody hides a failure of another daemon's node. -/
def View.Unmixed (e : Event) (u : DataflowId) (v : View) : Prop :=
  ∀ df, v.entry = some df →
    (∀ d result accepting, e = .finishedOnDaemon u d result accepting → Agree (v.tally.insert d result)) ∧
    (e.mayFailSpawn u → OwnNodes df v.tally)

theorem View.verdict_of_append {told : Prop} {added : List Effect} (heffects : v'.effects = v.effects ++ added)
    (hnone : ∀ effect ∈ added, ¬effect.Verdict told u) (h : v'.Verdict told u) : v.Verdict told u := by
  obtain ⟨effect, hmem, hverdict⟩ := h
  rw [heffects] at hmem
  exact ⟨effect, (List.mem_append.mp hmem).resolve_right fun hadded => hnone effect hadded hverdict, hverdict⟩

@[simp] theorem truncated_eq_succeeded {status : DataflowStatus} :
    status.truncated = .succeeded ↔ status = .succeeded := by
  cases status <;> simp [DataflowStatus.truncated]

/-- Where a verdict comes from. -/
inductive VerdictStep (told : Prop) (s : Coordinator) (e : Event) (u : DataflowId) (v : View) : Prop
  | before (h : v.Verdict told u)
  | concluded {df : RunningDataflow} (d : DaemonId) (result : DaemonResult) (accepting : List DaemonId)
      (he : e = .finishedOnDaemon u d result accepting) (hv : v.entry = some df)
      (hleft : (df.finished d).daemons.isEmpty = true)
      (hok : Coordinator.finalStatus (some (v.tally.insert d result)) = .succeeded ∨
        told ∧ (dataflowResult (v.tally.insert d result) u).isOk = true)
  | spawnFailed {df : RunningDataflow} (errMsg : String) (sentinel : Nat) (he : e.mayFailSpawn u)
      (hv : v.entry = some df) (htold : told)
      (hok : (dataflowResult (v.failedResults df errMsg sentinel) u).isOk = true)
  | lost {df : RunningDataflow} (hv : v.entry = some df) (haffected : df.affectedBy (s.lostBy e) = true)

theorem LifeStep.verdict {told : Prop} (h : LifeStep s e u v v') (hrec : v.Recorded)
    (hverdict : v'.Verdict told u) : VerdictStep told s e u v := by
  cases h with
  | @concluded df d result accepting now answers he hv hleft hrestart =>
    -- neither the answer to a restart nor its incarnation is a verdict
    have hanswers := hrestart.forall_mem (p := fun effect => ¬effect.Verdict told u) (by simp [Effect.Verdict])
      (by simp [Effect.Verdict]) (by simp [Effect.Verdict])
    by_cases hok : Coordinator.finalStatus (some (v.tally.insert d result)) = .succeeded ∨
        told ∧ (dataflowResult (v.tally.insert d result) u).isOk = true
    · exact .concluded d result accepting he hv hleft hok
    · have hnot (x : ReplySender) (_ : x ∈ (df.finished d).stopReplySenders) (htold : told) : _ :=
        Bool.eq_false_iff.mpr fun hok' => hok (.inr ⟨htold, hok'⟩)
      refine .before (View.verdict_of_append (by
        simp only [View.conclude, View.put_effects, View.answer_effects, List.append_assoc]
        rfl) (List.forall_mem_append.mpr ⟨hanswers, ?_⟩) hverdict)
      simpa [Effect.Verdict, RunningDataflow.makeRecord, or_imp, forall_and] using
        ⟨fun h => hok (.inl h), hnot⟩
  | allReady _ _ _ _ _ hv _ hstatus =>
    have hlive := isLive_of_releaseStatusOf hrec hv hstatus
    refine .before (View.verdict_of_append (List.append_assoc _ _ _) ?_ hverdict)
    suffices hne : _ ≠ DataflowStatus.succeeded by simpa [Effect.Verdict, RunningDataflow.makeRecord] using hne
    rintro rfl
    cases hlive
  | lost _ hv haffected | lostLastPending _ _ _ hv haffected | orphaned _ _ hv haffected =>
    exact .lost hv haffected
  | @spawnFailed df _ _ errMsg _ _ sentinel he hv | @spawnTimedOut df _ _ errMsg _ _ sentinel he hv =>
    by_cases hok : told ∧ (dataflowResult (v.failedResults df errMsg sentinel) u).isOk = true
    · exact .spawnFailed errMsg sentinel (he ▸ (by simp [Event.mayFailSpawn])) hv hok.1 hok.2
    · have hnot (x : ReplySender) (_ : x ∈ df.stopReplySenders) (htold : told) : _ :=
        Bool.eq_false_iff.mpr fun hok' => hok ⟨htold, hok'⟩
      exact .before (View.verdict_of_append (by
        simp only [View.teardown, View.put_effects, View.answer_effects, View.cancelRestart_effects,
          List.append_assoc]
        rfl) (by simpa [Effect.Verdict, RunningDataflow.makeRecord, View.failedResults, View.put, View.answer,
          or_imp, forall_and] using hnot) hverdict)
  | answered | cleaned => exact .before (View.verdict_of_append rfl (by simp [Effect.Verdict]) hverdict)
  | ready | spawnReported | partFinished | recoveryAttempted | waiting | nodeAdded | nodeRemoved
  | resultsMerged | resultsCapped | archiveDropped | forgotten => exact .before hverdict
  | _ =>
    exact .before (View.verdict_of_append (by
      simp only [View.persist, View.put_effects, View.answer_effects, View.cancelRestart_effects,
        View.replay_effects, List.append_assoc]
      rfl) (by simp [Effect.Verdict, RunningDataflow.makeRecord, or_imp, forall_and]) hverdict)

/-- An event that takes no daemon from `u` which has not finished. -/
structure Unbroken (u : DataflowId) (s : Coordinator) (e : Event) : Prop where
  process : ∀ graceful, e ≠ .coordinatorRestart graceful
  lost : ∀ df, s.runningDataflows[u]? = some df → df.affectedBy (s.lostBy e) = false
  reported : ∀ d reported order, e = .statusReport d reported order → u ∈ reported.map Prod.fst →
    s.runningDataflows[u]? ≠ none

section Step

variable (told : Prop) (s : Coordinator) (e : Event) (u : DataflowId) (assigned : DaemonId → Prop)
  (sent : DaemonId → DaemonResult → Prop)

structure Seated (tally : TreeMap DaemonId DaemonResult) (df : RunningDataflow) : Prop where
  unaffected : df.affectedBy (s.lostBy e) = false
  accounted : ∀ d, (assigned d ∨ ∃ node : NodeId, df.nodeToDaemon[node]? = some d) → d ∈ df.daemons ∨ d ∈ tally
  reports : ∀ d result, tally[d]? = some result → sent d result
  agree : told → ∀ d result accepting, e = .finishedOnDaemon u d result accepting → Agree (tally.insert d result)
  placed : told → e.mayFailSpawn u → OwnNodes df tally

structure View.Tallied (v : View) : Prop where
  seated : ∀ df, v.entry = some df → Seated told s e u assigned sent v.tally df
  entry : ∀ d reported order, e = .statusReport d reported order → u ∈ reported.map Prod.fst →
    v.entry ≠ none
  verdict : v.Verdict told u → ∀ d, assigned d → ∃ result, sent d result ∧ result.isOk = true

variable {told s e u assigned sent}

theorem View.exists_of_roster {df' : RunningDataflow} (h : v'.roster = v.roster) (hv' : v'.entry = some df') :
    ∃ df, v.entry = some df ∧ df'.daemons = df.daemons ∧ df'.nodeToDaemon = df.nodeToDaemon := by
  rw [View.roster, View.roster, hv', Option.map_some] at h
  obtain ⟨df, hv, heq⟩ := Option.map_eq_some_iff.mp h.symm
  exact ⟨df, hv, (Prod.mk.inj heq).1.symm, (Prod.mk.inj heq).2.symm⟩

theorem affectedBy_of_lostBy_nil (h : s.lostBy e = []) (df : RunningDataflow) :
    df.affectedBy (s.lostBy e) = false := by
  rw [h]
  rfl

theorem lostBy_of_rewires (h : e.rewires = true) : s.lostBy e = [] := by
  cases e with
  | daemonExit | heartbeatInterval => cases h
  | _ => rfl

/-- Whoever finishes moves from the members to the table. -/
theorem Seated.finished {tally : TreeMap DaemonId DaemonResult} {d : DaemonId} {result : DaemonResult}
    {accepting : List DaemonId} (h : Seated told s (.finishedOnDaemon u d result accepting) u assigned sent tally df)
    (hsent : sent d result) :
    Seated told s (.finishedOnDaemon u d result accepting) u assigned sent (tally.insert d result)
      (df.finished d) where
  unaffected := affectedBy_of_lostBy_nil rfl _
  accounted d' hd' := by
    rw [TreeMap.mem_insert, LawfulEqCmp.compare_eq_iff_eq]
    by_cases heq : d = d'
    · exact .inr (.inl heq)
    · rcases h.accounted d' hd' with hmember | hdone
      · exact .inl (mem_erase_iff.mpr ⟨Ne.symm heq, hmember⟩)
      · exact .inr (.inr hdone)
  reports d' result' hd' := by
    rw [TreeMap.getElem?_insert] at hd'
    split at hd'
    · rename_i heq
      rw [← LawfulEqCmp.compare_eq_iff_eq.mp heq, ← Option.some.inj hd']
      exact hsent
    · exact h.reports d' result' hd'
  agree htold d' result' accepting' he := by
    cases he
    have hagain (d' : DaemonId) : ((tally.insert d result).insert d result)[d']? =
        (tally.insert d result)[d']? := by
      rw [TreeMap.getElem?_insert]
      split
      · rename_i heq
        rw [← LawfulEqCmp.compare_eq_iff_eq.mp heq, TreeMap.getElem?_insert_self]
      · rfl
    have hagree := h.agree htold d result accepting rfl
    unfold Agree at hagree ⊢
    simpa only [hagain] using hagree
  placed _ := nofun

theorem RosterStep.seated (h : RosterStep s e u v v') (hu : u ≠ s.nextUuid)
    (hsent : ∀ d result accepting, e = .finishedOnDaemon u d result accepting → sent d result)
    (hv : v.Tallied told s e u assigned sent) (df' : RunningDataflow) (hv' : v'.entry = some df') :
    Seated told s e u assigned sent v'.tally df' := by
  have htally (hresults : v'.results = v.results) : v'.tally = v.tally := by
    rw [View.tally, View.tally, hresults]
  cases h with
  | kept hroster hresults hsame =>
    obtain ⟨df, hentry, hdaemons, hnodes⟩ := View.exists_of_roster hroster hv'
    have hbefore := hv.seated df hentry
    rw [htally hresults]
    refine ⟨?_, by rw [hdaemons, hnodes]; exact hbefore.accounted, hbefore.reports, hbefore.agree,
      fun htold he => by rw [OwnNodes, hnodes]; exact hbefore.placed htold he⟩
    rcases hsame with hlost | hentry
    · exact affectedBy_of_lostBy_nil hlost df'
    · exact (hv.seated df' (hentry ▸ hv')).unaffected
  | gone h => cases h.symm.trans hv'
  | started hnext => exact absurd hnext hu
  | lost hentry haffected => cases (hv.seated _ hentry).unaffected.symm.trans haffected
  | finished d result accepting he hentry h hresults =>
    subst he
    cases h.symm.trans hv'
    rw [View.tally, hresults]
    exact (hv.seated _ hentry).finished (hsent d result accepting rfl)
  | recovered d reported order he hreported hnone =>
    exact absurd hnone (hv.entry d reported order he hreported)
  | rewired he hentry h hdaemons hnodes hresults =>
    cases h.symm.trans hv'
    have hbefore := hv.seated _ hentry
    rw [htally hresults]
    have hold {d : DaemonId} (hd : assigned d ∨ ∃ node : NodeId, _) : d ∈ df'.daemons ∨ d ∈ v.tally :=
      (hbefore.accounted d hd).imp_left (hdaemons d)
    refine ⟨affectedBy_of_lostBy_nil (lostBy_of_rewires he) df', ?_, hbefore.reports,
      fun _ _ _ _ hfinish => ?_, fun _ hfail => ?_⟩
    · rintro d (hd | ⟨node, hnode⟩)
      · exact hold (.inl hd)
      · exact (hnodes node d hnode).elim .inl fun hnode => hold (.inr ⟨node, hnode⟩)
    · subst hfinish
      cases he
    · cases e <;> first | exact False.elim hfail | exact nomatch he

theorem LifeStep.tallied (h : LifeStep s e u v v') (hu : u ≠ s.nextUuid) (hrec : v.Recorded)
    (hsent : ∀ d result accepting, e = .finishedOnDaemon u d result accepting → sent d result)
    (hv : v.Tallied told s e u assigned sent) : v'.Tallied told s e u assigned sent where
  seated := h.roster.seated hu hsent hv
  entry d reported order he hreported hnone := by
    have hcrew : v'.crew = none := by rw [View.crew, hnone, Option.map_none]
    have hbefore := (h.record_of_report he hcrew).1
    exact hv.entry d reported order he hreported (by simpa [View.crew] using hbefore)
  verdict hverdict d hd := by
    cases h.verdict hrec hverdict with
    | before hbefore => exact hv.verdict hbefore d hd
    | concluded d' result accepting he hentry hleft hok =>
      have hseated := hv.seated _ hentry
      have hfine {d : DaemonId} {report : DaemonResult}
          (hd : (v.tally.insert d' result)[d]? = some report) : report.isOk = true :=
        hok.elim (isOk_of_finalStatus · hd) fun htold =>
          isOk_of_dataflowResult (hseated.agree htold.1 d' result accepting he) htold.2 hd
      -- the last member finishes, so everybody else is on the table
      by_cases heq : d' = d
      · subst heq
        have hself : (v.tally.insert d' result)[d']? = some result := by simp
        exact ⟨result, hsent d' result accepting he, hfine hself⟩
      · have hdone : d ∈ v.tally := by
          refine (hseated.accounted d (.inl hd)).resolve_left fun hmember => ?_
          exact not_mem_of_isEmpty hleft d (mem_erase_iff.mpr ⟨Ne.symm heq, hmember⟩)
        obtain ⟨result', hresult'⟩ := Option.isSome_iff_exists.mp (TreeMap.mem_iff_isSome_getElem?.mp hdone)
        have hother : (v.tally.insert d' result)[d]? = some result' := by
          rw [TreeMap.getElem?_insert, if_neg (by rwa [LawfulEqCmp.compare_eq_iff_eq])]
          exact hresult'
        exact ⟨result', hseated.reports d result' hresult', hfine hother⟩
    | spawnFailed errMsg sentinel he hentry htold hok =>
      exact absurd hok (View.not_isOk_failedResults ((hv.seated _ hentry).placed htold he))
    | lost hentry haffected => cases (hv.seated _ hentry).unaffected.symm.trans haffected

end Step

namespace Coordinator

def EverAssigned (events : List Event) (u : DataflowId) (d : DaemonId) : Prop :=
  ∃ earlier df, earlier <+: events ∧ (reached earlier).runningDataflows[u]? = some df ∧
    ∃ node : NodeId, df.nodeToDaemon[node]? = some d

def FinishSent (events : List Event) (u : DataflowId) (d : DaemonId) (result : DaemonResult) : Prop :=
  ∃ accepting, Event.finishedOnDaemon u d result accepting ∈ events

theorem everAssigned_concat {events : List Event} {d : DaemonId} (h : EverAssigned (events ++ [e]) u d) :
    EverAssigned events u d ∨ ∃ df, (reached (events ++ [e])).runningDataflows[u]? = some df ∧
      ∃ node : NodeId, df.nodeToDaemon[node]? = some d := by
  obtain ⟨earlier, df, hprefix, hentry, hnode⟩ := h
  rcases List.prefix_concat_iff.mp hprefix with rfl | hbefore
  · exact .inr ⟨df, hentry, hnode⟩
  · exact .inl ⟨earlier, df, hbefore, hentry, hnode⟩

theorem Sound.results_of_started (hs : s.Sound)
    (hentry : ((step s e).1.view s.nextUuid).entry ≠ none) :
    ((step s e).1.view s.nextUuid).results = none := by
  let P (v : View) : Prop :=
    v.Blank ∨ (e.mayStart s s.nextUuid ∧ (∃ df, v.entry = some df) ∧ v.results = none)
  have hend : P ((step s e).1.view s.nextUuid) := by
    refine (hs.step_lives e s.nextUuid).keeps (fun v v' h hv => ?_) (.inl (hs.blank _ le_rfl))
    rcases hv with hblank | ⟨he, ⟨df, hv⟩, hresults⟩
    · rcases h.blank hblank with hstill | ⟨_, he, df, hv', _⟩
      · exact .inl hstill
      · refine .inr ⟨he, ⟨df, hv'⟩, ?_⟩
        cases h.roster with
        | kept _ hsame | started _ hsame => exact hsame.trans hblank.2.2.2.1
        | gone hnone => cases hnone.symm.trans hv'
        | recovered _ _ _ hreport => cases hreport ▸ he
        | _ => cases hblank.1.symm.trans ‹_›
    · have hv' := h.entry_of_mayStart he hv
      refine .inr ⟨he, ⟨df, hv'⟩, ?_⟩
      cases h.roster with
      | kept _ hsame | started _ hsame | rewired _ _ _ _ _ hsame => exact hsame.trans hresults
      | gone hnone => cases hnone.symm.trans hv'
      | lost _ haffected =>
        rw [lostBy_of_mayStart he] at haffected
        cases haffected
      | finished _ _ _ hfinish =>
        rw [hfinish] at he
        exact absurd rfl he.1
      | recovered _ _ _ hreport => cases hreport ▸ he
  exact hend.elim (fun hblank => absurd hblank.1 hentry) fun h => h.2.2

def Balanced (events : List Event) (u : DataflowId) (v : View) : Prop :=
  ∀ df, v.entry = some df → (∀ d, EverAssigned events u d → d ∈ df.daemons ∨ d ∈ v.tally) ∧
    ∀ d result, v.tally[d]? = some result → FinishSent events u d result

section Run

variable {events : List Event}

theorem Balanced.tallied {told : Prop} (h : Balanced events u (s.view u)) (hs : s = reached events)
    (hunbroken : Unbroken u s e) (hunmixed : told → (s.view u).Unmixed e u) :
    (s.cleared.view u).Tallied told s.cleared e u (EverAssigned events u) (FinishSent (events ++ [e]) u) where
  seated df hentry :=
    { unaffected := hunbroken.lost df hentry
      accounted := fun d hd => (h df hentry).1 d (hd.elim id fun ⟨node, hnode⟩ =>
        ⟨events, df, List.prefix_rfl, hs ▸ hentry, node, hnode⟩)
      reports := fun d result hd =>
        ((h df hentry).2 d result hd).imp fun _ hmem => List.mem_append_left _ hmem
      agree := fun htold => (hunmixed htold df hentry).1
      placed := fun htold => (hunmixed htold df hentry).2 }
  entry := hunbroken.reported
  verdict hverdict := nomatch hverdict

theorem tallied_step {told : Prop} (h : Balanced events u ((reached events).view u))
    (hunbroken : Unbroken u (reached events) e) (hu : u ≠ (reached events).nextUuid)
    (hunmixed : told → ((reached events).view u).Unmixed e u) :
    ((step (reached events) e).1.view u).Tallied told (reached events).cleared e u (EverAssigned events u)
      (FinishSent (events ++ [e]) u) := by
  let P (v : View) : Prop := v.Recorded ∧
    v.Tallied told (reached events).cleared e u (EverAssigned events u) (FinishSent (events ++ [e]) u)
  have hsent (d : DaemonId) (result : DaemonResult) (accepting : List DaemonId)
      (he : e = .finishedOnDaemon u d result accepting) : FinishSent (events ++ [e]) u d result :=
    ⟨accepting, List.mem_append_right _ (List.mem_singleton.mpr he.symm)⟩
  have hend : P ((step (reached events) e).1.view u) :=
    ((sound_reached events).step_lives e u).keeps
      (fun v v' hstep hv => ⟨hstep.recorded hv.1, hstep.tallied hu hv.1 hsent hv.2⟩)
      ⟨recorded_reached events u, h.tallied rfl hunbroken hunmixed⟩
  exact hend.2

theorem balanced_reached (hmeets : Meets step (Unbroken u) {} events) :
    Balanced events u ((reached events).view u) := by
  induction events using List.reverseRecOn with
  | nil =>
    intro df hentry
    cases (sound_initial.blank u (Nat.zero_le u)).1.symm.trans hentry
  | append_singleton events e ih =>
    obtain ⟨hearlier, hunbroken⟩ := (meets_concat step {} events e).mp hmeets
    have hs := sound_reached events
    by_cases hu : u = (reached events).nextUuid
    · subst hu
      rw [reached_concat]
      intro df hentry
      have htally : ((step (reached events) e).1.view (reached events).nextUuid).tally = ∅ := by
        rw [View.tally, hs.results_of_started (by rw [hentry]; exact Option.some_ne_none df)]
        rfl
      refine ⟨fun d hd => .inl ?_, fun d result hd => ?_⟩
      · obtain ⟨descriptor, name, nodes, placed, uv, now, rfl, _⟩ := hs.justStarted hentry
        rcases everAssigned_concat hd with ⟨earlier, df', hprefix, hbefore, _⟩ | ⟨df', hnow, node, hnode⟩
        · -- it was not known before
          have hblank := (sound_reached earlier).blank (reached events).nextUuid
            (by rw [nextUuid_reached, nextUuid_reached]; exact hprefix.length_le)
          cases hblank.1.symm.trans hbefore
        · rw [reached_concat] at hnow
          cases hentry.symm.trans hnow
          exact mem_daemonsOf.mpr ⟨node, hnode⟩
      · rw [htally, TreeMap.getElem?_emptyc] at hd
        cases hd
    · rw [reached_concat]
      intro df hentry
      have hseated := (tallied_step (ih hearlier) hunbroken hu False.elim).seated df hentry
      refine ⟨fun d hd => hseated.accounted d ?_, hseated.reports⟩
      refine (everAssigned_concat hd).imp id fun ⟨df', hnow, hnode⟩ => ?_
      rw [reached_concat] at hnow
      cases hentry.symm.trans hnow
      exact hnode

/-- In a run that takes no daemon from the dataflow which has not finished, the dataflow is recorded as
succeeded, and somebody who waits for its stop is told that no node failed, only after everybody who ever had
a node of it has reported that its nodes are fine. -/
theorem success_verdict_sound (hmeets : Meets step (Unbroken u) {} (events ++ [e]))
    (hverdict : Effect.persisted u .succeeded ∈ (step (reached events) e).2 ∨
      ((reached events).view u).Unmixed e u ∧ ∃ sender result,
        Effect.reply (some u) sender (.ok (.dataflowStopped u result)) ∈ (step (reached events) e).2 ∧
        result.isOk = true)
    (d : DaemonId) (hd : EverAssigned events u d) :
    ∃ result accepting, Event.finishedOnDaemon u d result accepting ∈ events ++ [e] ∧
      result.isOk = true := by
  obtain ⟨hearlier, hunbroken⟩ := (meets_concat step {} events e).mp hmeets
  have hu : u ≠ (reached events).nextUuid := by
    -- a dataflow that had a node is known already
    rintro rfl
    obtain ⟨earlier, df, hprefix, hentry, _⟩ := hd
    have hblank := (sound_reached earlier).blank (reached events).nextUuid
      (by rw [nextUuid_reached, nextUuid_reached]; exact hprefix.length_le)
    cases hblank.1.symm.trans hentry
  have hview : ((step (reached events) e).1.view u).Verdict (((reached events).view u).Unmixed e u) u := by
    rcases hverdict with hsucceeded | ⟨hunmixed, sender, result, hreply, hok⟩
    · exact ⟨_, mem_view_effects hsucceeded (by simp [Effect.concerns]), rfl, rfl⟩
    · exact ⟨_, mem_view_effects hreply (by simp [Effect.concerns]), hunmixed, rfl, hok⟩
  obtain ⟨result, ⟨accepting, hmem⟩, hok⟩ :=
    (tallied_step (balanced_reached hearlier) hunbroken hu id).verdict hview d hd
  exact ⟨result, accepting, hmem, hok⟩

end Run

def recordsSuccess (u : DataflowId) : Effect → Bool
  | .persisted uuid status => uuid = u && status = .succeeded
  | _ => false

theorem mem_of_recordsSuccess {effects : List Effect} (h : effects.any (recordsSuccess u) = true) :
    Effect.persisted u .succeeded ∈ effects := by
  obtain ⟨effect, hmem, hsuccess⟩ := List.any_eq_true.mp h
  match effect, hsuccess with
  | .persisted uuid status, hsuccess =>
    obtain ⟨huuid, hstatus⟩ := Bool.and_eq_true_iff.mp hsuccess
    rw [← of_decide_eq_true huuid, ← of_decide_eq_true hstatus]
    rwa [of_decide_eq_true huuid, of_decide_eq_true hstatus] at hmem ⊢

def tellsOk (u : DataflowId) : Effect → Bool
  | .reply (some uuid) _ (.ok (.dataflowStopped stopped result)) => uuid = u && stopped = u && result.isOk
  | _ => false

theorem exists_of_tellsOk {effects : List Effect} (h : effects.any (tellsOk u) = true) :
    ∃ sender result, Effect.reply (some u) sender (.ok (.dataflowStopped u result)) ∈ effects ∧
      result.isOk = true := by
  obtain ⟨effect, hmem, htold⟩ := List.any_eq_true.mp h
  unfold tellsOk at htold
  split at htold
  · simp only [Bool.and_eq_true, decide_eq_true_eq] at htold
    obtain ⟨⟨rfl, rfl⟩, hok⟩ := htold
    exact ⟨_, _, hmem, hok⟩
  · cases htold

def fineResult (node : String) : DaemonResult := ⟨(∅ : TreeMap NodeId NodeResult).insert ⟨node⟩ (.ok ())⟩

def failedResult (node : String) : DaemonResult :=
  ⟨(∅ : TreeMap NodeId NodeResult).insert ⟨node⟩ (.error "exit code 1")⟩

theorem everAssigned_of_nodes {events : List Event} {d : DaemonId} (node : NodeId)
    (h : (reached events).runningDataflows[u]?.bind (·.nodeToDaemon[node]?) = some d) :
    EverAssigned events u d := by
  obtain ⟨df, hentry, hnode⟩ := Option.bind_eq_some_iff.mp h
  exact ⟨events, df, List.prefix_rfl, hentry, node, hnode⟩

theorem agree_of_fine {reports : TreeMap DaemonId DaemonResult}
    (h : (reports.toList.all fun entry => entry.2.isOk) = true) : Agree reports := by
  have hfine {d : DaemonId} {report : DaemonResult} {node : NodeId} {result : NodeResult}
      (hd : reports[d]? = some report) (hnode : report.nodeResults[node]? = some result) :
      NodeResult.isOk result = true :=
    allOk_iff.mp (List.all_eq_true.mp h _ (TreeMap.mem_toList_iff_getElem?_eq_some.mpr hd)) node result hnode
  intro d d' report report' node result result' hd hd' hnode hnode'
  rw [hfine hd hnode, hfine hd' hnode']

/-- Somebody waits for the stop, and both daemons finish. -/
theorem success_verdict_sound_when_both_finish :
    let events := startedOnTwo ++ [Event.stop 2 none false [daemonA, daemonB],
      .finishedOnDaemon 2 daemonA (fineResult "camera") []]
    let last := Event.finishedOnDaemon 2 daemonB (fineResult "plot") []
    Effect.persisted 2 .succeeded ∈ (step (reached events) last).2 ∧
    (∃ sender result, Effect.reply (some 2) sender (.ok (.dataflowStopped 2 result)) ∈
      (step (reached events) last).2 ∧ result.isOk = true) ∧
    ∃ result accepting, Event.finishedOnDaemon 2 daemonA result accepting ∈ events ++ [last] ∧
      result.isOk = true := by
  intro events last
  have htold : ∃ sender result, Effect.reply (some 2) sender (.ok (.dataflowStopped 2 result)) ∈
      (step (reached events) last).2 ∧ result.isOk = true := exists_of_tellsOk (by decide +kernel)
  have hassigned : EverAssigned events 2 daemonA := everAssigned_of_nodes ⟨"camera"⟩ (by decide +kernel)
  have hmeets : Meets step (Unbroken 2) {} (events ++ [last]) :=
    have hplain (s : Coordinator) (e : Event) (h : s.lostBy e = [])
        (hprocess : ∀ graceful, e ≠ .coordinatorRestart graceful)
        (hreport : ∀ d reported order, e ≠ .statusReport d reported order) : Unbroken 2 s e :=
      ⟨hprocess, fun df _ => affectedBy_of_lostBy_nil h df, fun d reported order he =>
        absurd he (hreport d reported order)⟩
    ⟨hplain _ _ rfl nofun nofun, hplain _ _ rfl nofun nofun, hplain _ _ rfl nofun nofun,
      hplain _ _ rfl nofun nofun, hplain _ _ rfl nofun nofun, hplain _ _ rfl nofun nofun, trivial⟩
  have hunmixed : ((reached events).view 2).Unmixed last 2 := by
    refine fun df _ => ⟨fun d result accepting he => ?_, nofun⟩
    obtain ⟨-, rfl, rfl, rfl⟩ := Event.finishedOnDaemon.inj he
    exact agree_of_fine (by decide +kernel)
  exact ⟨mem_of_recordsSuccess (by decide +kernel), htold,
    success_verdict_sound hmeets (.inr ⟨hunmixed, htold⟩) daemonA hassigned⟩

/-- One daemon is lost, the other one finishes: the dataflow has succeeded, without a word from the daemon
that was lost. When both are lost, whoever waits for the stop is told that no node failed; and also when both
report the same node, one that it failed and the other that it is fine. -/
theorem success_without_lost_daemon :
    let events := startedOnTwo ++ [Event.spawnResult 2 daemonA (.ok ()), .spawnResult 2 daemonB (.ok ()),
      .stop 2 none false [daemonA, daemonB], .daemonExit daemonB 1 []]
    let last := Event.finishedOnDaemon 2 daemonA (fineResult "camera") []
    let mixed := startedOnTwo ++ [Event.stop 2 none false [daemonA, daemonB],
      .finishedOnDaemon 2 daemonA (failedResult "camera") []]
    let hidden := Event.finishedOnDaemon 2 daemonB (fineResult "camera") []
    (EverAssigned events 2 daemonB ∧
      (∀ result accepting, Event.finishedOnDaemon 2 daemonB result accepting ∉ events ++ [last]) ∧
      Effect.persisted 2 .succeeded ∈ (step (reached events) last).2 ∧
      ∃ sender result, Effect.reply (some 2) sender (.ok (.dataflowStopped 2 result)) ∈
        (step (reached events) (.daemonExit daemonA 0 [])).2 ∧ result.isOk = true) ∧
    EverAssigned mixed 2 daemonA ∧
    (∀ result accepting, Event.finishedOnDaemon 2 daemonA result accepting ∈ mixed ++ [hidden] →
      result.isOk = false) ∧
    ∃ sender result, Effect.reply (some 2) sender (.ok (.dataflowStopped 2 result)) ∈
      (step (reached mixed) hidden).2 ∧ result.isOk = true := by
  intro events last mixed hidden
  refine ⟨⟨everAssigned_of_nodes ⟨"plot"⟩ (by decide +kernel), fun result accepting hmem => ?_,
    mem_of_recordsSuccess (by decide +kernel), exists_of_tellsOk (by decide +kernel)⟩,
    everAssigned_of_nodes ⟨"camera"⟩ (by decide +kernel), fun result accepting hmem => ?_,
    exists_of_tellsOk (by decide +kernel)⟩
  · simp [events, last, startedOnTwo, daemonA, daemonB] at hmem
  · obtain ⟨rfl, -⟩ : result = failedResult "camera" ∧ accepting = [] := by
      simpa [mixed, hidden, startedOnTwo, daemonA, daemonB] using hmem
    decide +kernel

end Coordinator

end Dora.Coord
