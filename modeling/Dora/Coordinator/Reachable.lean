import Dora.Coordinator.EventRefinement

/-!
# The states of a run

In every reachable state the UUIDs that have not been generated name nothing, and the callers that are
parked have asked earlier. The refinement needs this at the start of an event; from here on a property of
runs only has to be kept by the life steps.
-/

namespace Dora.Coord

open Std Lib

variable {s : Coordinator} {e : Event} {u : DataflowId} {v v' : View} {df : RunningDataflow}

namespace View

theorem custody_of_entry (hv : v.entry = some df) (x : ReplySender) :
    v.custody x = df.parked.count x + { v with entry := none }.custody x := by
  simp only [custody, parked, hv, Option.elim_some, Option.elim_none, List.count_append,
    List.nil_append]
  omega

theorem custody_setEntry (hv : v.entry = some df) (df' : RunningDataflow) (x : ReplySender) :
    { v with entry := some df' }.custody x + df.parked.count x = v.custody x + df'.parked.count x := by
  have hbefore := custody_of_entry hv x
  have hafter : { v with entry := some df' }.custody x =
      df'.parked.count x + { v with entry := none }.custody x := custody_of_entry rfl x
  omega

theorem custody_persist (hv : v.entry = some df) (df' : RunningDataflow) (status : DataflowStatus)
    (now : Nat) (x : ReplySender) :
    (v.persist u df' status now).custody x + df.parked.count x =
      v.custody x + df'.parked.count x := by
  have hput := custody_put (u := u) v (df'.makeRecord status now) x
  have hset := custody_setEntry (v := v.put u (df'.makeRecord status now)) hv df'.bumpGeneration x
  rw [hput] at hset
  exact hset

theorem custody_setEntry_same (hv : v.entry = some df) (df' : RunningDataflow)
    (hparked : df'.parked = df.parked) (x : ReplySender) :
    { v with entry := some df' }.custody x = v.custody x := by
  have hset := custody_setEntry hv df' x
  rw [hparked] at hset
  omega

theorem custody_persist_same (hv : v.entry = some df) (df' : RunningDataflow)
    (hparked : df'.parked = df.parked) (status : DataflowStatus) (now : Nat) (x : ReplySender) :
    (v.persist u df' status now).custody x = v.custody x := by
  have hpersist := custody_persist (u := u) hv df' status now x
  rw [hparked] at hpersist
  omega

/-- One more caller on the entry. -/
theorem custody_park (hv : v.entry = some df) {df' : RunningDataflow} {n x : ReplySender}
    (hparked : df'.parked.count x = df.parked.count x + [n].count x) :
    { v with entry := some df' }.custody x = v.custody x + [n].count x := by
  have hset := custody_setEntry hv df' x
  rw [hparked] at hset
  omega

theorem custody_parkRestart {restart : PendingRestart} (hnone : v.restart = none) (x : ReplySender) :
    { v with restart := some restart }.custody x = v.custody x + [restart.replySender].count x := by
  simp only [custody, parked, hnone, Option.toList_none, Option.toList_some, List.map_nil,
    List.map_cons, List.append_nil, List.count_append]
  omega

theorem custody_emit_reply (n : ReplySender) (result : Reply) (x : ReplySender) :
    { v with effects := v.effects ++ [Effect.reply none n result] }.custody x =
      v.custody x + [n].count x := by
  simp only [custody, parked, List.countP_append, List.countP_singleton, List.count_singleton,
    Effect.repliesTo, decide_eq_true_eq, beq_iff_eq]
  omega

theorem custody_emit_of_not_reply {effect : Effect} (h : ∀ x, effect.repliesTo x = false)
    (x : ReplySender) : { v with effects := v.effects ++ [effect] }.custody x = v.custody x := by
  simp [custody, parked, h]

theorem custody_replay (v : View) (released : Bool) (d : DaemonId) (x : ReplySender) :
    (v.replay u released d).custody x = v.custody x := by
  cases released with
  | true => exact custody_emit_of_not_reply (fun _ => rfl) x
  | false => rfl

theorem custody_release {df' : RunningDataflow} (hv : v.entry = some df)
    (hparked : df'.parked = df.parked) (status : DataflowStatus) (now : Nat) (x : ReplySender) :
    (v.release u df' status now).custody x = v.custody x := by
  unfold release
  dsimp only
  rw [custody_emit_of_not_reply fun _ => rfl]
  exact custody_persist_same hv { df' with readyBarrierReleased := true } hparked status now x

theorem custody_teardown (hv : v.entry = some df) (errMsg : String) (sentinel : Nat)
    (x : ReplySender) :
    (v.teardown u df errMsg sentinel).custody x + df.spawnResult.waiters.count x = v.custody x := by
  have hcancelled := custody_cancelRestart (u := u) { v with entry := none }
    (Coordinator.restartOfFailedSpawn u errMsg) x
  have hentry := custody_of_entry hv x
  rw [teardown, custody_answer]
  have hkept : { { v with entry := none }.cancelRestart u
      (Coordinator.restartOfFailedSpawn u errMsg) with
        results := some (v.failedResults df errMsg sentinel), archived := true }.custody x =
      ({ v with entry := none }.cancelRestart u (Coordinator.restartOfFailedSpawn u errMsg)).custody x :=
    rfl
  rw [hkept, hcancelled, hentry, RunningDataflow.parked, List.count_append]
  omega

/-- A failed spawn is torn down after its waiters have been answered. -/
theorem custody_teardown_of_answered {w : View} {senders : List ReplySender} (hw : w.entry = some df)
    (hpending : df.spawnResult = .pending senders) (errMsg : String) (sentinel : Nat) {x : ReplySender}
    (hanswered : w.custody x = v.custody x + senders.count x) :
    (w.teardown u df errMsg sentinel).custody x = v.custody x := by
  have htorn := custody_teardown (u := u) hw errMsg sentinel x
  rw [hpending, hanswered] at htorn
  exact Nat.add_right_cancel htorn

theorem custody_spawned {senders : List ReplySender} (hv : v.entry = some df)
    (hpending : df.spawnResult = .pending senders) (d : DaemonId) (reply : ControlRequestReply)
    (now : Nat) (x : ReplySender) :
    ((v.answer u senders (.ok reply)).persist u
      { df.spawnReported d with spawnResult := .cached (.ok reply) } .running now).custody x =
        v.custody x := by
  have hanswered := custody_answer (u := u) v senders (.ok reply) x
  have hpersisted := custody_persist (u := u) (v := v.answer u senders (.ok reply)) hv
    { df.spawnReported d with spawnResult := .cached (.ok reply) } .running now x
  have hbefore : df.parked = df.stopReplySenders ++ senders := by
    rw [RunningDataflow.parked, hpending]
    rfl
  have hafter : ({ df.spawnReported d with
      spawnResult := .cached (.ok reply) } : RunningDataflow).parked =
        df.stopReplySenders := List.append_nil _
  rw [hanswered, hbefore, hafter, List.count_append] at hpersisted
  omega

end View

theorem RestartAnswer.forall_mem {answers : List Effect} {restart : Option PendingRestart}
    {p : Effect → Prop} (h : RestartAnswer u answers restart)
    (herror : ∀ x error, p (.reply (some u) x (.error error)))
    (hok : ∀ x new, p (.reply (some u) x (.ok (.dataflowRestarted u new))))
    (hnew : ∀ x new, p (.incarnation x u new)) : ∀ effect ∈ answers, p effect := by
  cases restart with
  | none =>
    rw [show answers = [] from h]
    exact List.forall_mem_nil p
  | some => rcases h with ⟨error, rfl⟩ | ⟨new, rfl⟩ <;> simp [herror, hok, hnew]

theorem RestartAnswer.countP {answers : List Effect} {restart : Option PendingRestart}
    (h : RestartAnswer u answers restart) (x : ReplySender) :
    answers.countP (·.repliesTo x) = (restart.toList.map (·.replySender)).count x := by
  cases restart with
  | none =>
    rw [show answers = [] from h]
    rfl
  | some =>
    rcases h with ⟨error, rfl⟩ | ⟨new, rfl⟩
    · simp [Effect.repliesTo, List.count_singleton, List.countP_cons]
    · simp [Effect.repliesTo, List.count_singleton, List.countP_cons]

theorem View.custody_conclude {answers : List Effect} (hv : v.entry = some df)
    (hrestart : RestartAnswer u answers v.restart) (results : TreeMap DaemonId DaemonResult) (now : Nat)
    (x : ReplySender) : (v.conclude u df results answers now).custody x = v.custody x := by
  have hanswers := hrestart.countP x
  rw [conclude, custody_answer, custody_answer, custody_put]
  simp only [custody, parked, hv, Option.elim_some, Option.elim_none, Option.toList_none, List.map_nil,
    List.append_nil, List.count_nil, List.countP_append, List.count_append, RunningDataflow.parked]
  omega

theorem waiters_of_isCachedOk {result : CachedResult} (h : result.isCachedOk = true) :
    result.waiters = [] := by
  cases result with
  | pending => cases h
  | cached => rfl

theorem isCachedOk_of_reclaimOrphaned {gone : List DaemonId}
    (h : Coordinator.disconnectAction u df gone = some (.reclaimOrphaned u)) :
    df.spawnResult.isCachedOk = true := by
  unfold Coordinator.disconnectAction at h
  dsimp only at h
  split at h
  · split at h
    · assumption
    · cases h
  · split at h <;> cases h

theorem parkTarget_of_stopTarget (h : s.stopTarget e = some u) : s.parkTarget e = some u := by
  cases e <;> first | exact absurd h (Option.some_ne_none u).symm | simp [Coordinator.parkTarget, h]

theorem parkTarget_of_restartTarget (h : s.restartTarget e = some u) : s.parkTarget e = some u := by
  cases e <;>
    first
      | exact absurd h (Option.some_ne_none u).symm
      | simp [Coordinator.parkTarget, Coordinator.stopTarget, h]

theorem custody_taken {n x : ReplySender} {P : ReplySender → Prop} {Q : Prop}
    (htaken : v'.custody x = v.custody x + [n].count x) (hfree : v.custody n = 0) (hP : P n) :
    v'.custody x = v.custody x ∨ (x = n ∧ v.custody x = 0 ∧ v'.custody x = 1 ∧ P x) ∨ Q := by
  by_cases hx : x = n
  · subst hx
    rw [List.count_singleton_self, hfree] at htaken
    exact .inr (.inl ⟨rfl, hfree, htaken, hP⟩)
  · rw [List.count_eq_zero_of_not_mem (by simpa using hx)] at htaken
    exact .inl htaken

/-- The caller of the present request has been parked on `u` or answered. -/
def Received (s : Coordinator) (e : Event) (u : DataflowId) (v : View) (x : ReplySender) : Prop :=
  s.parkTarget e = some u ∨ ∃ result, Effect.reply none x result ∈ v.effects

theorem LifeStep.custody (h : LifeStep s e u v v') (x : ReplySender) :
    v'.custody x = v.custody x ∨
      (x = s.nextSender ∧ v.custody x = 0 ∧ v'.custody x = 1 ∧ Received s e u v' x) ∨
      (v'.custody x ≤ v.custody x ∧ ∃ graceful, e = .coordinatorRestart graceful) := by
  cases h with
  | started descriptor name nodes placed uv now he hu hblank =>
    exact .inl (Coordinator.custody_persist_fresh hblank)
  | ready d exited he hv | spawnReported d result he hv | partFinished d result accepting he hv
  | recoveryAttempted d reported order attempts he hv | nodeAdded node d accepting he hv
  | nodeRemoved node grace accepting he hv =>
    exact .inl (View.custody_setEntry_same hv _ rfl x)
  | allReady d exited status now he hv =>
    exact .inl (View.custody_release hv rfl status now x)
  | lost reason hv =>
    exact .inl ((View.custody_cancelRestart _ reason x).trans (View.custody_setEntry_same hv _ rfl x))
  | @lostLastPending df reason status now hv =>
    have hleft := View.cancelRestart_entry (u := u)
      { v with entry := some (df.dropDaemons (s.lostBy e)) } reason
    have hreleased := View.custody_release (u := u) hleft rfl status now x
    rw [View.custody_cancelRestart] at hreleased
    exact .inl (hreleased.trans (View.custody_setEntry_same hv _ rfl x))
  | orphaned reason now hv haffected haction =>
    -- a spawn that has succeeded has no more waiters
    have hwaiters := waiters_of_isCachedOk (isCachedOk_of_reclaimOrphaned haction)
    rw [View.custody_answer, View.custody_put, View.custody_cancelRestart, View.custody_of_entry hv,
      RunningDataflow.parked, hwaiters, List.append_nil, Nat.add_comm]
    exact .inl rfl
  | spawned d senders now he hv hpending => exact .inl (View.custody_spawned hv hpending d _ now x)
  | spawnFailed d err errMsg now senders sentinel he hv hpending =>
    refine .inl (View.custody_teardown_of_answered (w := (v.put u _).answer u senders _) hv hpending
      errMsg sentinel ?_)
    rw [View.custody_answer, View.custody_put]
  | spawnTimedOut full order errMsg now senders sentinel he hv hpending =>
    refine .inl (View.custody_teardown_of_answered (w := (v.answer u senders _).put u _) hv hpending
      errMsg sentinel ?_)
    rw [View.custody_put, View.custody_answer]
  | @concluded df d result accepting now answers he hv hleft hrestart =>
    have hset := View.custody_setEntry_same hv (df.finished d) rfl x
    have hconcluded := View.custody_conclude (u := u)
      (v := { v with
        entry := some (df.finished d)
        archived := true
        results := some ((v.results.getD ∅).insert d result) })
      rfl hrestart ((v.results.getD ∅).insert d result) now x
    exact .inl (hconcluded.trans hset)
  | promoted | recoveryExpired | recoveredRecord => exact .inl (View.custody_put _ _ x)
  | relinked d reported order nodes he hreported hv =>
    exact .inl ((View.custody_replay _ _ _ x).trans (View.custody_setEntry_same hv _ rfl x))
  | @recovered record d reported order nodes resolved now he hreported hv =>
    have hentry := View.custody_of_entry
      (v := { v with entry := some (.recovered record resolved d nodes u now) }) rfl x
    have hnone : { v with entry := none } = v := by rw [← hv]
    rw [hnone] at hentry
    exact .inl ((View.custody_replay _ _ _ x).trans (hentry.trans (Nat.zero_add _)))
  | @stopping df now he hv hfree =>
    refine custody_taken ?_ hfree (.inl (parkTarget_of_stopTarget he))
    rw [← View.custody_put (u := u) v (df.makeRecord .stopping now) x]
    refine View.custody_park (v := v.put u (df.makeRecord .stopping now)) hv ?_
    simp only [RunningDataflow.parked, RunningDataflow.bumpGeneration, List.count_append]
    omega
  | restartCancelled => exact .inl (View.custody_cancelRestart _ _ x)
  | @restartParked df now he hv hrestart hfree =>
    have hpersisted := View.custody_persist_same (u := u) hv df rfl .stopping now x
    refine custody_taken ?_ hfree (.inl (parkTarget_of_restartTarget he))
    rw [← hpersisted]
    exact View.custody_parkRestart (v := v.persist u df .stopping now) hrestart x
  | waiting senders he hv hpending hfree =>
    refine custody_taken (View.custody_park hv ?_) hfree (.inl (by rw [he]; rfl))
    simp only [RunningDataflow.parked, hpending, CachedResult.waiters, List.count_append]
    omega
  | answered result hfree =>
    exact custody_taken (View.custody_emit_reply s.nextSender result x) hfree
      (.inr ⟨result, List.mem_append_right _ List.mem_cons_self⟩)
  | cleaned => exact .inl (View.custody_emit_of_not_reply (fun _ => rfl) x)
  | resultsMerged | resultsCapped | archiveDropped => exact .inl rfl
  | markedStopping now he hv => exact .inl (View.custody_persist_same hv _ rfl _ now x)
  | forgotten graceful he =>
    refine .inr (.inr ⟨?_, graceful, he⟩)
    simp [View.custody, View.parked]

def JustStarted (s : Coordinator) (df : RunningDataflow) : Prop :=
  ∃ descriptor name nodes placed uv now,
    df = (Coordinator.freshDataflow descriptor name nodes placed uv now).bumpGeneration ∧
    ∀ d ∈ Coordinator.daemonsOf placed, d ∈ s.daemonConnections

theorem LifeStep.blank (h : LifeStep s e u v v') (hv : v.Blank) :
    v'.Blank ∨
      (u = s.nextUuid ∧ e.mayStart s u ∧ ∃ df, v'.entry = some df ∧ JustStarted s df) := by
  have hrecord {record : DataflowRecord} {P : Prop} (hsome : v.record = some record) : P := by
    rw [hv.2.1] at hsome
    cases hsome
  have hentry {df : RunningDataflow} {P : Prop} (hsome : v.entry = some df) : P := by
    rw [hv.1] at hsome
    cases hsome
  cases h with
  | started descriptor name nodes placed uv now he hnext hblank hplaced =>
    exact .inr ⟨hnext, he, _, rfl, descriptor, name, nodes, placed, uv, now, rfl, hplaced⟩
  | restartCancelled => exact .inl (by simpa only [View.cancelRestart, hv.2.2.1] using hv)
  | promoted _ _ _ _ _ _ hsome | recovered _ _ _ _ _ _ _ _ _ hsome | recoveryExpired _ _ _ _ hsome
  | recoveredRecord _ _ _ _ hsome =>
    exact hrecord hsome
  | answered => exact .inl hv
  | cleaned => exact .inl ⟨hv.1, rfl, hv.2.2.1, rfl, rfl⟩
  | resultsMerged d result accepting results he hnone harchived =>
    rw [hv.2.2.2.2] at harchived
    cases harchived
  | resultsCapped results hnone hresults =>
    exact .inl ⟨hv.1, hv.2.1, hv.2.2.1, hresults hv.2.2.2.1, hv.2.2.2.2⟩
  | archiveDropped => exact .inl ⟨hv.1, hv.2.1, hv.2.2.1, hv.2.2.2.1, rfl⟩
  | forgotten => exact .inl ⟨rfl, hv.2.1, rfl, rfl, rfl⟩
  | _ => exact hentry ‹v.entry = some _›

theorem lostBy_of_mayStart {s' : Coordinator} (he : e.mayStart s' u) : s.lostBy e = [] := by
  cases e <;> first | rfl | cases he

theorem LifeStep.entry_of_mayStart (h : LifeStep s e u v v') (he : e.mayStart s u)
    (hv : v.entry = some df) : v'.entry = some df := by
  have hlost : s.lostBy e = [] := lostBy_of_mayStart he
  have hstop : s.stopTarget e = none := by
    cases e <;> first | rfl | cases he
  have hrestart : s.restartTarget e = none := by
    cases e <;> first | rfl | cases he
  cases h with
  | started descriptor name nodes placed uv now he' hnext hblank =>
    rw [hblank.1] at hv
    cases hv
  | partFinished _ _ _ he' | concluded _ _ _ _ _ he' => exact absurd rfl (he' ▸ he).1
  | lost _ _ haffected | lostLastPending _ _ _ _ haffected | orphaned _ _ _ haffected =>
    rw [hlost] at haffected
    cases haffected
  | restartCancelled => rwa [View.cancelRestart_entry]
  | stopping _ htarget =>
    rw [hstop] at htarget
    cases htarget
  | restartParked _ htarget =>
    rw [hrestart] at htarget
    cases htarget
  | promoted | answered | recoveryExpired | cleaned | resultsMerged | resultsCapped | archiveDropped
  | recoveredRecord =>
    exact hv
  | _ =>
    rw [‹e = _›] at he
    cases he

theorem Lives.keeps {P : View → Prop} (h : Lives s e u v v')
    (hstep : ∀ v v', LifeStep s e u v v' → P v → P v') (hv : P v) : P v' := by
  induction h with
  | refl => exact hv
  | tail _ hlast ih => exact hstep _ _ hlast ih

namespace Coordinator

structure Sound (s : Coordinator) : Prop where
  blank : ∀ u, s.nextUuid ≤ u → (s.view u).Blank
  parked : ∀ u, ∀ x ∈ (s.view u).parked, x < s.nextSender

theorem Sound.custody_cleared (hs : s.Sound) (u : DataflowId) :
    (s.cleared.view u).custody s.nextSender = 0 := by
  have hunparked : s.nextSender ∉ (s.view u).parked := fun hmem =>
    absurd (hs.parked u _ hmem) (Nat.lt_irrefl _)
  exact List.count_eq_zero_of_not_mem hunparked

theorem Sound.step_lives (hs : s.Sound) (e : Event) (u : DataflowId) :
    Lives s.cleared e u (s.cleared.view u) ((step s e).1.view u) :=
  handle_lives s.cleared e u (hs.blank _ le_rfl) (hs.custody_cleared u)

theorem Sound.justStarted (hs : s.Sound)
    (hentry : (step s e).1.runningDataflows[s.nextUuid]? = some df) : JustStarted s df := by
  let P (v : View) : Prop :=
    v.Blank ∨ (e.mayStart s s.nextUuid ∧ ∃ df, v.entry = some df ∧ JustStarted s df)
  have hend : P ((step s e).1.view s.nextUuid) :=
    (hs.step_lives e s.nextUuid).keeps (fun v v' h hv => by
      rcases hv with hblank | ⟨he, df, hentry, hstarted⟩
      · exact (h.blank hblank).imp id And.right
      · exact .inr ⟨he, df, h.entry_of_mayStart he hentry, hstarted⟩) (.inl (hs.blank _ le_rfl))
  rcases hend with hblank | ⟨_, df', hentry', hstarted⟩
  · have hnone : (step s e).1.runningDataflows[s.nextUuid]? = none := hblank.1
    rw [hentry] at hnone
    cases hnone
  · cases hentry.symm.trans hentry'
    exact hstarted

theorem Sound.next (hs : s.Sound) (e : Event) : (step s e).1.Sound where
  blank u hu := by
    have hlater : s.nextUuid + 1 ≤ u := hu
    have hne : u ≠ s.cleared.nextUuid := by
      show u ≠ s.nextUuid
      omega
    exact (hs.step_lives e u).keeps
      (fun _ _ h hv => (h.blank hv).resolve_right fun hstarted => hne hstarted.1)
      (hs.blank u (by omega))
  parked u x hx := by
    -- whoever is parked or has been answered is the present caller or an earlier one
    let P (v : View) : Prop := v.custody x ≠ 0 → x < s.nextSender + 1
    have hstart : P (s.cleared.view u) := fun hcustody => by
      have hmem : x ∈ (s.view u).parked := by
        by_contra hnot
        exact hcustody (List.count_eq_zero_of_not_mem hnot)
      exact Nat.lt_succ_of_lt (hs.parked u x hmem)
    have hend : P ((step s e).1.view u) := (hs.step_lives e u).keeps (fun v v' h hv hcustody => by
      rcases h.custody x with hsame | ⟨hnew, _⟩ | ⟨hless, _⟩
      · exact hv (hsame ▸ hcustody)
      · rw [hnew]
        exact Nat.lt_succ_self _
      · exact hv (by omega)) hstart
    refine hend ?_
    have hcount := List.count_pos_iff.mpr hx
    unfold View.custody
    omega

theorem sound_initial : ({} : Coordinator).Sound where
  blank u _ := by simp [view, View.Blank, IndexMap.get?, IndexMap.contains]
  parked u x hx := by simp [view, View.parked] at hx

theorem reached_concat (events : List Event) (e : Event) :
    reached (events ++ [e]) = (step (reached events) e).1 := by
  rw [reached, run_concat]
  rfl

theorem run_reached (before after : List Event) :
    (run step (reached before) after).1 = reached (before ++ after) := by
  rw [reached, reached, run_append]

theorem nextUuid_step (s : Coordinator) (e : Event) : (step s e).1.nextUuid = s.nextUuid + 1 := rfl

theorem nextUuid_reached (events : List Event) : (reached events).nextUuid = events.length := by
  induction events using List.reverseRecOn with
  | nil => rfl
  | append_singleton events e ih => rw [reached_concat, nextUuid_step, ih, List.length_append]; rfl

theorem nextUuid_reached_mono (before after : List Event) :
    (reached before).nextUuid ≤ (reached (before ++ after)).nextUuid := by
  rw [nextUuid_reached, nextUuid_reached, List.length_append]
  omega

theorem mem_view_effects {effect : Effect} (h : effect ∈ (step s e).2)
    (hconcerns : effect.concerns u = true) : effect ∈ ((step s e).1.view u).effects :=
  List.mem_filter.mpr ⟨h, hconcerns⟩

theorem Sound.lt_of_record {record : DataflowRecord} (hs : s.Sound)
    (hrecord : s.store[u]? = some record) : u < s.nextUuid := by
  by_contra hnot
  have hnone : s.store[u]? = none := (hs.blank u (Nat.le_of_not_lt hnot)).2.1
  rw [hnone] at hrecord
  cases hrecord

theorem sound_reached (events : List Event) : (reached events).Sound := by
  induction events using List.reverseRecOn with
  | nil => exact sound_initial
  | append_singleton events e ih =>
    rw [reached_concat]
    exact ih.next e

end Coordinator

end Dora.Coord
