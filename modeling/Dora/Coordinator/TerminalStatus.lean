import Dora.Coordinator.Reachable

/-!
# Entries, records and terminal verdicts

Most handlers write the record of a dataflow from the entry in memory, whatever the store holds. They
never overwrite a verdict, because the record of a dataflow with an entry is that of one which has not
ended; without an entry only the reconciliation, the recovery timeout and the next start of the process
write a record, and none of them touches a terminal one.
-/

namespace Dora.Coord

open Std Lib

variable {s : Coordinator} {e : Event} {u : DataflowId} {v v' : View}

namespace DataflowStatus

def isTerminal : DataflowStatus → Bool
  | .succeeded => true
  | .failed _ terminal => terminal
  | _ => false

def isLive : DataflowStatus → Bool
  | .pending | .running | .stopping => true
  | _ => false

theorem isLive_truncated {status : DataflowStatus} (h : status.isLive = true) :
    status.truncated.isLive = true := by
  cases status with
  | failed => cases h
  | _ => exact h

theorem isTerminal_of_isLive {status : DataflowStatus} (h : status.isLive = true) :
    status.isTerminal = false := by
  cases status with
  | succeeded | failed => cases h
  | _ => rfl

theorem revivable_of_isTerminal {status : DataflowStatus} (h : status.isTerminal = true) :
    status.revivable = false := by
  cases status with
  | failed error terminal =>
    cases terminal with
    | true => rfl
    | false => cases h
  | succeeded => rfl
  | _ => cases h

theorem unsettled_of_isTerminal {status : DataflowStatus} (h : status.isTerminal = true) :
    status.unsettled = false := by
  cases status with
  | failed | succeeded => rfl
  | _ => cases h

end DataflowStatus

def View.Recorded (v : View) : Prop :=
  v.entry ≠ none → ∃ record, v.record = some record ∧ record.status.isLive = true

theorem View.Recorded.live {df : RunningDataflow} (hrec : v.Recorded) (hv : v.entry = some df) :
    ∃ record, v.record = some record ∧ record.status.isLive = true :=
  hrec (by rw [hv]; exact Option.some_ne_none df)

theorem isLive_of_releaseStatusOf {df : RunningDataflow} {status : DataflowStatus} (hrec : v.Recorded)
    (hv : v.entry = some df) (h : releaseStatusOf v status) : status.truncated.isLive = true := by
  rcases h with rfl | rfl | ⟨record, hrecord, rfl⟩
  · rfl
  · rfl
  · obtain ⟨record', hrecord', hlive⟩ := hrec.live hv
    cases hrecord.symm.trans hrecord'
    exact DataflowStatus.isLive_truncated hlive

theorem View.Recorded.entry_eq_none {record : DataflowRecord} (h : v.Recorded)
    (hrecord : v.record = some record) (hstatus : record.status = .recovering) : v.entry = none := by
  by_contra hsome
  obtain ⟨record', hrecord', hlive⟩ := h hsome
  cases hrecord.symm.trans hrecord'
  rw [hstatus] at hlive
  cases hlive

theorem LifeStep.recorded (h : LifeStep s e u v v') (hrec : v.Recorded) : v'.Recorded := by
  -- the entry changes and the record does not
  have hkept {df : RunningDataflow} (hv : v.entry = some df) (hsame : v'.record = v.record) :
      v'.Recorded := fun _ => hsame ▸ hrec.live hv
  -- a live status is written
  have hwritten {record : DataflowRecord} (hrecord : v'.record = some record)
      (hlive : record.status.isLive = true) : v'.Recorded := fun _ => ⟨record, hrecord, hlive⟩
  have hgone (hnone : v'.entry = none) : v'.Recorded := fun hsome => absurd hnone hsome
  cases h with
  | started | spawned | promoted | stopping | restartParked | markedStopping => exact hwritten rfl rfl
  | allReady _ _ _ _ _ hv _ hstatus => exact hwritten rfl (isLive_of_releaseStatusOf hrec hv hstatus)
  | lost _ hv => exact hkept hv (View.cancelRestart_record _ _)
  | lostLastPending _ _ _ hv _ _ hstatus =>
    exact hwritten rfl (isLive_of_releaseStatusOf hrec hv hstatus)
  | orphaned | spawnFailed | spawnTimedOut => exact hgone (View.cancelRestart_entry _ _)
  | concluded | forgotten => exact hgone rfl
  | relinked _ _ _ _ _ _ hv => exact hkept hv (View.replay_record _ _ _)
  | recovered _ _ _ _ _ _ _ _ _ hrecord hstatus =>
    exact hwritten ((View.replay_record _ _ _).trans hrecord) (by rw [hstatus]; rfl)
  | restartCancelled =>
    intro hsome
    rw [View.cancelRestart_entry] at hsome
    rw [View.cancelRestart_record]
    exact hrec hsome
  | answered | resultsMerged | resultsCapped | archiveDropped => exact hrec
  | recoveryExpired _ _ _ _ hrecord hstatus => exact hgone (hrec.entry_eq_none hrecord hstatus)
  | cleaned _ hnone | recoveredRecord _ _ _ hnone => exact hgone hnone
  | _ => exact hkept ‹_› rfl

namespace Coordinator

theorem recorded_step (hs : s.Sound) (hrec : (s.view u).Recorded) (e : Event) :
    ((step s e).1.view u).Recorded :=
  (hs.step_lives e u).keeps (fun _ _ h => h.recorded) hrec

theorem recorded_reached (events : List Event) (u : DataflowId) :
    ((reached events).view u).Recorded := by
  induction events using List.reverseRecOn with
  | nil =>
    intro hsome
    exact absurd (sound_initial.blank u (Nat.zero_le u)).1 hsome
  | append_singleton events e ih =>
    rw [reached_concat]
    exact recorded_step (sound_reached events) ih e

end Coordinator

structure View.Over (record : DataflowRecord) (v : View) : Prop where
  noEntry : v.entry = none
  recordOrNone : v.record = some record ∨ v.record = none
  unwritten : ∀ status u, Effect.persisted u status ∉ v.effects

/-- Only `clean` touches the record of a dataflow that is over. -/
theorem LifeStep.over {record : DataflowRecord} (h : LifeStep s e u v v') (hu : u ≠ s.nextUuid)
    (hterminal : record.status.isTerminal = true) (hover : v.Over record) :
    v'.Over record ∧ (v'.record = v.record ∨ e = .clean ∧ v'.record = none) := by
  have hentry {df : RunningDataflow} {P : Prop} (hsome : v.entry = some df) : P := by
    rw [hover.noEntry] at hsome
    cases hsome
  -- the status of a terminal record meets none of the conditions under which a record is rewritten
  have hstatus {record' : DataflowRecord} (hsome : v.record = some record') :
      record'.status.isTerminal = true := by
    rcases hover.recordOrNone with hrecord | hrecord
    · cases hrecord.symm.trans hsome
      exact hterminal
    · rw [hrecord] at hsome
      cases hsome
  cases h with
  | started _ _ _ _ _ _ _ hnext => exact absurd hnext hu
  | promoted _ _ _ _ _ _ hsome hrevivable =>
    rw [DataflowStatus.revivable_of_isTerminal (hstatus hsome)] at hrevivable
    cases hrevivable
  | recovered _ _ _ _ _ _ _ _ _ hsome hrunning =>
    have hterm := hstatus hsome
    rw [hrunning] at hterm
    cases hterm
  | recoveryExpired _ _ _ _ hsome hrecovering =>
    have hterm := hstatus hsome
    rw [hrecovering] at hterm
    cases hterm
  | recoveredRecord _ _ _ _ hsome hunsettled =>
    rw [DataflowStatus.unsettled_of_isTerminal (hstatus hsome)] at hunsettled
    cases hunsettled
  | restartCancelled =>
    refine ⟨⟨?_, ?_, by simpa using hover.unwritten⟩, .inl (View.cancelRestart_record _ _)⟩
    · rw [View.cancelRestart_entry]
      exact hover.noEntry
    · rw [View.cancelRestart_record]
      exact hover.recordOrNone
  | answered => exact ⟨⟨hover.noEntry, hover.recordOrNone, by simpa using hover.unwritten⟩, .inl rfl⟩
  | cleaned hclean =>
    exact ⟨⟨hover.noEntry, .inr rfl, by simpa using hover.unwritten⟩, .inr ⟨hclean, rfl⟩⟩
  | resultsMerged | resultsCapped | archiveDropped =>
    exact ⟨⟨hover.noEntry, hover.recordOrNone, hover.unwritten⟩, .inl rfl⟩
  | forgotten => exact ⟨⟨rfl, hover.recordOrNone, hover.unwritten⟩, .inl rfl⟩
  | _ => exact hentry ‹_›

/-- A start or a waiting restart generates the UUID, or a daemon reports that it runs the dataflow. -/
def Event.Brings (s : Coordinator) (u : DataflowId) (e : Event) : Prop :=
  e.mayStart s u ∧ u = s.nextUuid ∨
    ∃ d reported order nodes, e = .statusReport d reported order ∧ (u, nodes) ∈ reported

theorem LifeStep.brings (h : LifeStep s e u v v') (hnone : v.entry = none) :
    v'.entry = none ∨ e.Brings s u := by
  cases h with
  | started _ _ _ _ _ _ he hu => exact .inr (.inl ⟨he, hu⟩)
  | recovered d reported order nodes _ _ he hreported =>
    exact .inr (.inr ⟨d, reported, order, nodes, he, hreported⟩)
  | restartCancelled => exact .inl ((View.cancelRestart_entry _ _).trans hnone)
  | spawnFailed | spawnTimedOut | orphaned => exact .inl (View.cancelRestart_entry _ _)
  | forgotten | concluded => exact .inl rfl
  | promoted | answered | recoveryExpired | cleaned | resultsMerged | resultsCapped | archiveDropped
  | recoveredRecord => exact .inl hnone
  -- all other steps need an entry
  | _ => exact absurd (hnone.symm.trans ‹_›) (Option.some_ne_none _).symm

theorem LifeStep.record_isSome (h : LifeStep s e u v v') (he : e ≠ .clean)
    (hrecord : v.record.isSome = true) : v'.record.isSome = true := by
  cases h with
  | lost | restartCancelled => rwa [View.cancelRestart_record]
  | relinked | recovered => rwa [View.replay_record]
  | spawnFailed | spawnTimedOut => exact congrArg Option.isSome (View.cancelRestart_record _ _)
  | cleaned hclean => exact absurd hclean he
  | _ => first | rfl | exact hrecord

namespace Coordinator

theorem over_step {record : DataflowRecord} (hs : s.Sound) (hu : u < s.nextUuid)
    (hterminal : record.status.isTerminal = true) (hnone : (s.view u).entry = none)
    (hrecord : (s.view u).record = some record ∨ (s.view u).record = none) (e : Event) :
    ((step s e).1.view u).Over record ∧
      (((step s e).1.view u).record = (s.view u).record ∨
        e = .clean ∧ ((step s e).1.view u).record = none) := by
  have hne : u ≠ s.cleared.nextUuid := Nat.ne_of_lt hu
  have hstart : (s.cleared.view u).Over record := ⟨hnone, hrecord, fun _ _ => List.not_mem_nil⟩
  let P (v : View) : Prop := v.Over record ∧ (v.record = (s.view u).record ∨ e = .clean ∧ v.record = none)
  refine (hs.step_lives e u).keeps (P := P) (fun v v' hstep hv => ?_) ⟨hstart, .inl rfl⟩
  obtain ⟨hover, hkept⟩ := hstep.over hne hterminal hv.1
  refine ⟨hover, ?_⟩
  rcases hkept with hsame | hcleaned
  · rcases hv.2 with hbefore | ⟨hclean, hbefore⟩
    · exact .inl (hsame.trans hbefore)
    · exact .inr ⟨hclean, hsame.trans hbefore⟩
  · exact .inr hcleaned

theorem noEntry_of_terminal {events : List Event} {record : DataflowRecord}
    (hrecord : (reached events).store[u]? = some record) (hterminal : record.status.isTerminal = true) :
    ((reached events).view u).entry = none := by
  by_contra hsome
  obtain ⟨record', hrecord', hlive⟩ := recorded_reached events u hsome
  cases hrecord.symm.trans hrecord'
  rw [DataflowStatus.isTerminal_of_isLive hlive] at hterminal
  cases hterminal

/-- Once a dataflow has a terminal record, it is in no later state an entry of the map; its record stays
as it is until a `clean` deletes it, and no event of the rest of the run writes another. -/
theorem terminal_record_final {before : List Event} {u : DataflowId} {record : DataflowRecord}
    (hrecord : (reached before).store[u]? = some record) (hterminal : record.status.isTerminal = true)
    (after : List Event) :
    (reached (before ++ after)).runningDataflows[u]? = none ∧
    ((reached (before ++ after)).store[u]? = some record ∨
      Event.clean ∈ after ∧ (reached (before ++ after)).store[u]? = none) ∧
    ∀ effects ∈ (run step (reached before) after).2, ∀ status, Effect.persisted u status ∉ effects := by
  induction after using List.reverseRecOn with
  | nil =>
    rw [List.append_nil, run_nil]
    exact ⟨noEntry_of_terminal hrecord hterminal, .inl hrecord, fun _ h => nomatch h⟩
  | append_singleton after e ih =>
    obtain ⟨hnone, hkept, hunwritten⟩ := ih
    have hu : u < (reached (before ++ after)).nextUuid :=
      Nat.lt_of_lt_of_le ((sound_reached before).lt_of_record hrecord)
        (nextUuid_reached_mono before after)
    obtain ⟨hover, hstep⟩ := over_step (sound_reached (before ++ after)) hu hterminal hnone
      (hkept.imp id And.right) e
    rw [← List.append_assoc, reached_concat]
    refine ⟨hover.noEntry, ?_, fun effects hmem status => ?_⟩
    · rcases hstep with hsame | ⟨hclean, hdeleted⟩
      · rcases hkept with hbefore | ⟨hclean, hbefore⟩
        · exact .inl (hsame.trans hbefore)
        · exact .inr ⟨List.mem_append_left _ hclean, hsame.trans hbefore⟩
      · exact .inr ⟨List.mem_append_right _ (List.mem_singleton.mpr hclean.symm), hdeleted⟩
    · rw [run_concat, run_reached] at hmem
      rcases List.mem_append.mp hmem with hearlier | hlast
      · exact hunwritten effects hearlier status
      · rw [List.mem_singleton.mp hlast]
        intro hwritten
        exact hover.unwritten status u (mem_view_effects hwritten (by simp [Effect.concerns]))

/-- The spawn fails on one daemon; the other one still has the dataflow and reports it. -/
theorem terminal_record_final_of_failed_spawn :
    let failed := startedOnTwo ++ [Event.spawnResult 2 daemonA (.error "no such file")]
    ∃ record, (reached failed).store[2]? = some record ∧ record.status.isTerminal = true ∧
      (reached (failed ++ [.statusReport daemonB [(2, [⟨"plot"⟩])] []])).runningDataflows[2]? = none := by
  intro failed
  have hstatus : ((reached failed).store[2]?.map (·.status.isTerminal)) = some true := by decide +kernel
  obtain ⟨record, hrecord, hterminal⟩ := Option.map_eq_some_iff.mp hstatus
  exact ⟨record, hrecord, hterminal, (terminal_record_final hrecord hterminal _).1⟩

/-- In every run a dataflow comes into the map only by a start that generates its UUID, by the finish report
of another one for which a restart waits, which then generates it, or because a daemon reports that it runs
it. -/
theorem entries_are_brought (events : List Event) (e : Event) {u : DataflowId}
    (hnone : (reached events).runningDataflows[u]? = none)
    (hsome : (reached (events ++ [e])).runningDataflows[u]? ≠ none) : e.Brings (reached events) u := by
  rw [reached_concat] at hsome
  have hlives := (sound_reached events).step_lives e u
  have hbrought := hlives.keeps (P := fun v => v.entry = none ∨ e.Brings (reached events).cleared u)
    (fun _ _ h hv => hv.elim h.brings .inr) (.inl hnone)
  exact hbrought.resolve_left hsome

theorem entries_are_brought_by_start :
    Event.Brings (reached (startedOnTwo.take 2)) 2 (startedOnTwo.getLast (by decide)) :=
  entries_are_brought (startedOnTwo.take 2) _ (by decide +kernel) (by decide +kernel)

/-- A dataflow that is in the map has a record, and keeps one until a `clean`, whatever happens and however
often the process ends and starts again. -/
theorem records_outlive_process (before : List Event) {u : DataflowId}
    (hentry : (reached before).runningDataflows[u]? ≠ none) {after : List Event}
    (hclean : Event.clean ∉ after) : (reached (before ++ after)).store[u]? ≠ none := by
  induction after using List.reverseRecOn with
  | nil =>
    obtain ⟨record, hrecord, -⟩ := recorded_reached before u hentry
    rw [List.append_nil]
    exact fun hnone => Option.some_ne_none record (hrecord.symm.trans hnone)
  | append_singleton after e ih =>
    rw [List.mem_append, not_or, List.mem_singleton] at hclean
    rw [← List.append_assoc, reached_concat, ← Option.isSome_iff_ne_none]
    exact ((sound_reached (before ++ after)).step_lives e u).keeps
      (fun _ _ h => h.record_isSome (Ne.symm hclean.2)) (Option.isSome_iff_ne_none.mpr (ih hclean.1))

theorem records_outlive_process_of_crash :
    (reached (startedOnTwo ++ [.coordinatorRestart false])).store[2]? ≠ none :=
  records_outlive_process startedOnTwo (by decide +kernel) (by simp)

end Coordinator

end Dora.Coord
