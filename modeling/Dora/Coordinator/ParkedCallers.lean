import Dora.Coordinator.Reachable

/-!
# Parked callers are answered

A control request whose outcome is not known yet parks its reply sender: on the entry of the dataflow
until its spawn or its end is known, or in `pendingRestarts` until the dataflow has stopped. Every caller
is in one place at a time, and a dataflow that leaves the map takes no waiting caller along.
-/

namespace Dora.Coord

open Std Lib

variable {s : Coordinator} {e : Event} {u : DataflowId} {v v' : View} {df : RunningDataflow}

/-! ## What life steps emit -/

def Event.isFinish : Event → Bool
  | .finishedOnDaemon _ _ _ _ => true
  | _ => false

/-- The second view has the effects of the first and some more, in which a new incarnation is due to a
finish report and comes with the answer to the caller that asked for it. -/
def View.Extends (e : Event) (v v' : View) : Prop :=
  ∃ added, v'.effects = v.effects ++ added ∧
    ∀ x old new, Effect.incarnation x old new ∈ added →
      e.isFinish = true ∧ ∃ result, Effect.reply (some old) x result ∈ added

namespace View.Extends

theorem of_eq (h : v'.effects = v.effects) : View.Extends e v v' :=
  ⟨[], by rw [h, List.append_nil], fun _ _ _ hmem => nomatch hmem⟩

theorem trans {v'' : View} (h : View.Extends e v v') (h' : View.Extends e v' v'') : View.Extends e v v'' := by
  obtain ⟨added, heffects, hanswer⟩ := h
  obtain ⟨added', heffects', hanswer'⟩ := h'
  refine ⟨added ++ added', by rw [heffects', heffects, List.append_assoc], fun x old new hmem => ?_⟩
  rcases List.mem_append.mp hmem with hfirst | hsecond
  · obtain ⟨hfinish, result, hresult⟩ := hanswer x old new hfirst
    exact ⟨hfinish, result, List.mem_append_left _ hresult⟩
  · obtain ⟨hfinish, result, hresult⟩ := hanswer' x old new hsecond
    exact ⟨hfinish, result, List.mem_append_right _ hresult⟩

theorem of_append {added : List Effect} (h : v'.effects = v.effects ++ added)
    (hnone : ∀ x old new, Effect.incarnation x old new ∉ added) : View.Extends e v v' :=
  ⟨added, h, fun x old new hmem => absurd hmem (hnone x old new)⟩

theorem mem {effect : Effect} (h : View.Extends e v v') (hmem : effect ∈ v.effects) :
    effect ∈ v'.effects := by
  obtain ⟨added, heffects, _⟩ := h
  rw [heffects]
  exact List.mem_append_left _ hmem

end View.Extends

theorem RestartAnswer.reply_of_incarnation {answers : List Effect} {restart : Option PendingRestart}
    {x : ReplySender} {old new : DataflowId} (h : RestartAnswer u answers restart)
    (hmem : Effect.incarnation x old new ∈ answers) :
    ∃ result, Effect.reply (some old) x result ∈ answers := by
  cases restart with
  | none =>
    rw [show answers = [] from h] at hmem
    cases hmem
  | some =>
    rcases h with ⟨error, rfl⟩ | ⟨new', rfl⟩
    · simp at hmem
    · obtain ⟨rfl, rfl, -⟩ := Effect.incarnation.inj (by simpa using hmem)
      exact ⟨_, List.mem_cons_self⟩

theorem LifeStep.extends (h : LifeStep s e u v v') : View.Extends e v v' := by
  cases h with
  | concluded _ _ _ _ answers he _ _ hrestart =>
    refine ⟨_, by simp only [View.conclude, View.put_effects, View.answer_effects, List.append_assoc]; rfl,
      fun x old new hmem => ⟨he ▸ rfl, ?_⟩⟩
    obtain ⟨result, hresult⟩ := hrestart.reply_of_incarnation (by simpa using hmem)
    exact ⟨result, List.mem_append_left _ hresult⟩
  | ready | spawnReported | partFinished | recoveryAttempted | waiting | nodeAdded | nodeRemoved
  | resultsMerged | resultsCapped | archiveDropped | forgotten => exact .of_eq rfl
  | answered | cleaned => exact .of_append rfl (by simp)
  | _ =>
    exact .of_append (by
      simp only [View.persist, View.release, View.teardown, View.put_effects, View.answer_effects,
        View.cancelRestart_effects, View.replay_effects, List.append_assoc]
      rfl) (by simp)

theorem Lives.extends (h : Lives s e u v v') : View.Extends e v v' := by
  induction h with
  | refl => exact .of_eq rfl
  | tail _ hlast ih => exact ih.trans hlast.extends

/-! ## Restarts wait for running dataflows -/

def View.RestartRuns (v : View) : Prop := v.restart ≠ none → v.entry ≠ none

theorem View.cancelRestart_restart (v : View) (reason : String) :
    (v.cancelRestart u reason).restart = none := by
  unfold View.cancelRestart
  split
  · assumption
  · rfl

theorem LifeStep.restartRuns (h : LifeStep s e u v v') (hruns : v.RestartRuns) : v'.RestartRuns := by
  have hcancelled (hnone : v'.restart = none) : v'.RestartRuns := fun hsome => absurd hnone hsome
  have hrunning {df : RunningDataflow} (hsome : v'.entry = some df) : v'.RestartRuns :=
    fun _ => by rw [hsome]; exact Option.some_ne_none df
  cases h with
  | lost | orphaned | spawnFailed | spawnTimedOut | restartCancelled =>
    exact hcancelled (View.cancelRestart_restart _ _)
  | concluded | forgotten => exact hcancelled rfl
  | promoted | answered | recoveryExpired | cleaned | resultsMerged | resultsCapped | archiveDropped
  | recoveredRecord =>
    exact hruns
  | relinked | recovered => exact hrunning (View.replay_entry _ _ _)
  | _ => exact hrunning rfl

/-! ## Callers over an event -/

def replies (x : ReplySender) (effects : List Effect) : Nat := effects.countP (·.repliesTo x)

def Event.restartsCoordinator : Event → Bool
  | .coordinatorRestart _ => true
  | _ => false

theorem Lives.custody_earlier (h : Lives s e u v v') (he : e.restartsCoordinator = false)
    {x : ReplySender} (hx : x ≠ s.nextSender) : v'.custody x = v.custody x := by
  induction h with
  | refl => rfl
  | tail _ hlast ih =>
    rcases hlast.custody x with hsame | ⟨hnew, _⟩ | ⟨_, graceful, rfl⟩
    · exact hsame.trans ih
    · exact absurd hnew hx
    · cases he

theorem Lives.custody_caller (h : Lives s e u v v') (hfree : v.custody s.nextSender = 0) :
    v'.custody s.nextSender ≤ 1 ∧
      (v'.custody s.nextSender ≠ 0 → Received s e u v' s.nextSender) := by
  induction h with
  | refl => exact ⟨by omega, fun hne => absurd hfree hne⟩
  | tail _ hlast ih =>
    have hextends := hlast.extends
    have hkept (hreceived : Received s e u _ s.nextSender) : Received s e u _ s.nextSender :=
      hreceived.imp id fun ⟨result, hmem⟩ => ⟨result, hextends.mem hmem⟩
    rcases hlast.custody s.nextSender with hsame | ⟨_, _, hone, hreceived⟩ | ⟨hless, _⟩
    · rw [hsame]
      exact ⟨ih.1, fun hne => hkept (ih.2 hne)⟩
    · rw [hone]
      exact ⟨le_rfl, fun _ => hreceived⟩
    · exact ⟨hless.trans ih.1, fun hne => hkept (ih.2 (by omega))⟩

namespace Coordinator

/-- If no other dataflow's view shows an answer to the caller, all answers are in the view of `u`. -/
theorem replies_step {x : ReplySender}
    (hothers : ∀ u', u' ≠ u → replies x ((step s e).1.view u').effects = 0) :
    replies x (step s e).2 = replies x ((step s e).1.view u).effects := by
  have hconcerns : ∀ effect ∈ (step s e).2, effect.repliesTo x = true → effect.concerns u = true := by
    intro effect hmem hreply
    match effect, hreply with
    | .reply none _ _, _ => rfl
    | .reply (some u') sender result, hreply =>
      by_contra hconcerns
      have hne : u' ≠ u := fun heq => hconcerns (by simp [Effect.concerns, heq])
      have hmem' := mem_view_effects (u := u') hmem (by simp [Effect.concerns])
      have hpos : 0 < replies x ((step s e).1.view u').effects :=
        List.countP_pos_iff.mpr ⟨_, hmem', hreply⟩
      rw [hothers u' hne] at hpos
      exact absurd hpos (Nat.lt_irrefl 0)
  show (step s e).2.countP (·.repliesTo x) = ((step s e).2.filter (·.concerns u)).countP (·.repliesTo x)
  rw [List.countP_filter]
  refine List.countP_congr fun effect hmem => ?_
  rw [Bool.and_eq_true]
  exact ⟨fun hreply => ⟨hreply, hconcerns effect hmem hreply⟩, And.left⟩

theorem replies_le_custody (v : View) (x : ReplySender) : replies x v.effects ≤ v.custody x :=
  Nat.le_add_left _ _

/-! ## Callers over a run -/

/-- Where the callers of a run are: `trace` is everything the run has sent, answered and written. -/
structure Callers (trace : List Effect) (s : Coordinator) : Prop where
  unanswered : ∀ u, ∀ x ∈ (s.view u).parked, replies x trace = 0
  once : ∀ u x, (s.view u).parked.count x ≤ 1
  onOne : ∀ u u' x, x ∈ (s.view u).parked → x ∈ (s.view u').parked → u = u'
  earlier : ∀ x, replies x trace ≠ 0 → x < s.nextSender
  incarnated : ∀ x old new, Effect.incarnation x old new ∈ trace → replies x trace ≠ 0
  restartRuns : ∀ u, (s.view u).RestartRuns

theorem callers_initial : Callers [] {} where
  unanswered _ _ _ := rfl
  once u x := by simp [view, View.parked]
  onOne u u' x h := by simp [view, View.parked] at h
  earlier x h := absurd rfl h
  incarnated _ _ _ h := nomatch h
  restartRuns u h := absurd (sound_initial.blank u (Nat.zero_le u)).2.2.1 h

section Step

variable {trace : List Effect} (hs : s.Sound) (hc : Callers trace s)
  (he : e.restartsCoordinator = false)

include hs he in
theorem custody_step {x : ReplySender} (hx : x ≠ s.nextSender) (u : DataflowId) :
    ((step s e).1.view u).custody x = (s.view u).parked.count x :=
  (hs.step_lives e u).custody_earlier he hx

include hs hc he in
/-- What the event answers to an earlier caller that was parked on `u` is in the view of `u`. -/
theorem replies_parked {x : ReplySender} (hx : x ∈ (s.view u).parked) :
    replies x (step s e).2 = replies x ((step s e).1.view u).effects := by
  have hne : x ≠ s.nextSender := Nat.ne_of_lt (hs.parked u x hx)
  refine replies_step fun u' hu' => ?_
  have hunparked : x ∉ (s.view u').parked := fun hmem => hu' (hc.onOne u' u x hmem hx)
  have hcustody := custody_step hs he hne u'
  rw [List.count_eq_zero_of_not_mem hunparked] at hcustody
  have hle := replies_le_custody ((step s e).1.view u') x
  omega

include hs in
theorem parkTarget_of_parked (hx : s.nextSender ∈ ((step s e).1.view u).parked) :
    s.parkTarget e = some u ∧ replies s.nextSender ((step s e).1.view u).effects = 0 := by
  obtain ⟨hle, hreceived⟩ := (hs.step_lives e u).custody_caller (hs.custody_cleared u)
  have hcount := List.count_pos_iff.mpr hx
  have hsplit : ((step s e).1.view u).custody s.nextSender =
      ((step s e).1.view u).parked.count s.nextSender +
        replies s.nextSender ((step s e).1.view u).effects := rfl
  have hle' : ((step s e).1.view u).custody s.nextSender ≤ 1 := hle
  have hunanswered : replies s.nextSender ((step s e).1.view u).effects = 0 := by omega
  refine ⟨?_, hunanswered⟩
  rcases hreceived (show ((step s e).1.view u).custody s.nextSender ≠ 0 by omega) with
    htarget | ⟨result, hmem⟩
  · exact htarget
  · have hpos : 0 < replies s.nextSender ((step s e).1.view u).effects :=
      List.countP_pos_iff.mpr ⟨_, hmem, by simp [Effect.repliesTo]; rfl⟩
    omega

include hs in
theorem replies_newly_parked (hx : s.nextSender ∈ ((step s e).1.view u).parked) :
    replies s.nextSender (step s e).2 = 0 := by
  obtain ⟨htarget, hunanswered⟩ := parkTarget_of_parked hs hx
  rw [replies_step fun u' hu' => ?_, hunanswered]
  by_contra hanswered
  have hle := replies_le_custody ((step s e).1.view u') s.nextSender
  have hreceived := ((hs.step_lives e u').custody_caller (hs.custody_cleared u')).2
  rcases hreceived (show ((step s e).1.view u').custody s.nextSender ≠ 0 by omega) with
    htarget' | ⟨result, hmem⟩
  · exact hu' (Option.some.inj (htarget'.symm.trans htarget))
  · -- the answer to the request itself would be in the view of `u` as well
    have hmem' : Effect.reply none s.nextSender result ∈ ((step s e).1.view u).effects :=
      mem_view_effects (List.mem_filter.mp hmem).1 rfl
    have hpos : 0 < replies s.nextSender ((step s e).1.view u).effects :=
      List.countP_pos_iff.mpr ⟨_, hmem', by simp [Effect.repliesTo]⟩
    omega

theorem custody_eq (v : View) (x : ReplySender) :
    v.custody x = v.parked.count x + replies x v.effects := rfl

include hs he in
theorem parked_before {x : ReplySender} (hx : x ∈ ((step s e).1.view u).parked)
    (hne : x ≠ s.nextSender) : x ∈ (s.view u).parked := by
  have hcustody := custody_step hs he hne u
  have hcount := List.count_pos_iff.mpr hx
  have hsplit := custody_eq ((step s e).1.view u) x
  exact List.count_pos_iff.mp (by omega)

include hs in
theorem incarnation_step {x : ReplySender} {old new : DataflowId}
    (h : Effect.incarnation x old new ∈ (step s e).2) :
    e.isFinish = true ∧ replies x (step s e).2 ≠ 0 := by
  have hview := mem_view_effects (u := old) h (by simp [Effect.concerns])
  obtain ⟨added, heffects, hreply⟩ := (hs.step_lives e old).extends
  rw [heffects] at hview
  obtain ⟨hfinish, result, hadded⟩ := hreply x old new hview
  have hmem : Effect.reply (some old) x result ∈ ((step s e).1.view old).effects := by
    rw [heffects]
    exact List.mem_append_right _ hadded
  have hpos : 0 < replies x (step s e).2 :=
    List.countP_pos_iff.mpr ⟨_, (List.mem_filter.mp hmem).1, by simp [Effect.repliesTo]⟩
  exact ⟨hfinish, by omega⟩

include hs he in
theorem parked_of_answered {x : ReplySender} (h : replies x (step s e).2 ≠ 0)
    (hne : x ≠ s.nextSender) : ∃ u, x ∈ (s.view u).parked := by
  obtain ⟨effect, hmem, hreply⟩ := List.countP_pos_iff.mp (Nat.pos_of_ne_zero h)
  obtain ⟨u, hconcerns⟩ : ∃ u, effect.concerns u = true := by
    match effect, hreply with
    | .reply none _ _, _ => exact ⟨0, rfl⟩
    | .reply (some u) _ _, _ => exact ⟨u, by simp [Effect.concerns]⟩
  have hpos : 0 < replies x ((step s e).1.view u).effects :=
    List.countP_pos_iff.mpr ⟨effect, mem_view_effects hmem hconcerns, hreply⟩
  have hle := replies_le_custody ((step s e).1.view u) x
  rw [custody_step hs he hne u] at hle
  exact ⟨u, List.count_pos_iff.mp (by omega)⟩

include hs hc he in
theorem callers_step : Callers (trace ++ (step s e).2) (step s e).1 where
  unanswered u x hx := by
    rw [replies, List.countP_append]
    by_cases hne : x = s.nextSender
    · subst hne
      have hbefore : replies s.nextSender trace = 0 := by
        by_contra hanswered
        exact absurd (hc.earlier _ hanswered) (Nat.lt_irrefl _)
      have hnow := replies_newly_parked hs hx
      rw [replies] at hbefore hnow
      omega
    · have hparked := parked_before hs he hx hne
      have hbefore := hc.unanswered u x hparked
      have hnow := replies_parked hs hc he hparked
      have hcustody := custody_step hs he hne u
      have hcount := List.count_pos_iff.mpr hx
      have honce := hc.once u x
      have hsplit := custody_eq ((step s e).1.view u) x
      rw [replies] at hbefore hnow
      omega
  once u x := by
    have hle : ((step s e).1.view u).parked.count x ≤ ((step s e).1.view u).custody x :=
      Nat.le_add_right _ _
    by_cases hne : x = s.nextSender
    · subst hne
      exact hle.trans ((hs.step_lives e u).custody_caller (hs.custody_cleared u)).1
    · rw [custody_step hs he hne u] at hle
      exact hle.trans (hc.once u x)
  onOne u u' x h h' := by
    by_cases hne : x = s.nextSender
    · subst hne
      have htarget := (parkTarget_of_parked hs h).1
      exact Option.some.inj (htarget.symm.trans (parkTarget_of_parked hs h').1)
    · exact hc.onOne u u' x (parked_before hs he h hne) (parked_before hs he h' hne)
  earlier x h := by
    show x < s.nextSender + 1
    rw [replies, List.countP_append] at h
    by_cases hbefore : replies x trace = 0
    · by_cases hne : x = s.nextSender
      · rw [hne]
        exact Nat.lt_succ_self _
      · have hnow : replies x (step s e).2 ≠ 0 := by
          rw [replies] at hbefore ⊢
          omega
        obtain ⟨u, hparked⟩ := parked_of_answered hs he hnow hne
        exact Nat.lt_succ_of_lt (hs.parked u x hparked)
    · exact Nat.lt_succ_of_lt (hc.earlier x hbefore)
  incarnated x old new h := by
    rw [replies, List.countP_append]
    rcases List.mem_append.mp h with hbefore | hnow
    · have hanswered := hc.incarnated x old new hbefore
      rw [replies] at hanswered
      omega
    · have hanswered := (incarnation_step hs hnow).2
      rw [replies] at hanswered
      omega
  restartRuns u := (hs.step_lives e u).keeps (fun _ _ h => h.restartRuns) (hc.restartRuns u)

include hs hc he in
theorem replies_of_removed {x : ReplySender} (hx : x ∈ (s.view u).parked)
    (hgone : ((step s e).1.view u).entry = none) : replies x (step s e).2 = 1 := by
  have hne : x ≠ s.nextSender := Nat.ne_of_lt (hs.parked u x hx)
  have hrestart : ((step s e).1.view u).restart = none := by
    by_contra hsome
    exact (callers_step hs hc he).restartRuns u hsome hgone
  have hparked : ((step s e).1.view u).parked = [] := by
    simp [View.parked, hgone, hrestart]
  have hcustody := custody_step hs he hne u
  have hsplit := custody_eq ((step s e).1.view u) x
  have hcount := List.count_pos_iff.mpr hx
  have honce := hc.once u x
  rw [hparked, List.count_nil] at hsplit
  rw [replies_parked hs hc he hx]
  omega

end Step

def trace (events : List Event) : List Effect := (run step {} events).2.flatten

theorem trace_concat (events : List Event) (e : Event) :
    trace (events ++ [e]) = trace events ++ (step (reached events) e).2 := by
  rw [trace, run_concat, List.flatten_append]
  simp [trace, reached]

theorem callers_reached {events : List Event}
    (hrun : ∀ event ∈ events, event.restartsCoordinator = false) :
    Callers (trace events) (reached events) := by
  induction events using List.reverseRecOn with
  | nil => exact callers_initial
  | append_singleton events e ih =>
    rw [trace_concat, reached_concat]
    refine callers_step (sound_reached events) (ih fun event hmem => ?_) ?_
    · exact hrun event (List.mem_append_left _ hmem)
    · exact hrun e (List.mem_append_right _ List.mem_cons_self)

/-! ## An explicit stop and a restart that waits -/

theorem handle_of_stopTarget (h : s.stopTarget e = some u) :
    ∃ grace force accepting, s.handle e = s.handleStop s.nextSender u grace force accepting := by
  match e, h with
  | .stop uuid grace force accepting, h =>
    cases h
    exact ⟨grace, force, accepting, rfl⟩
  | .stopByName name grace force accepting, h =>
    refine ⟨grace, force, accepting, ?_⟩
    rw [handle, handleStopByName]
    cases hname : s.resolveName name with
    | ok =>
      rw [stopTarget, hname] at h
      cases h
      rfl
    | error =>
      rw [stopTarget, hname] at h
      cases h

theorem isFinish_of_stopTarget (h : s.stopTarget e = some u) : e.isFinish = false := by
  cases e <;> first | rfl | cases h

theorem replies_of_stop {restart : PendingRestart} (hs : s.Sound)
    (hrestart : s.pendingRestarts[u]? = some restart) (hstop : s.stopTarget e = some u) :
    replies restart.replySender (step s e).2 ≠ 0 := by
  obtain ⟨grace, force, accepting, hhandle⟩ := handle_of_stopTarget (s := s.cleared) hstop
  let cancelled := s.cleared.cancelPendingRestart u (stoppedBeforeRestart u)
  have hcancelled : cancelled.view u =
      { s.cleared.view u with restart := none }.answer u [restart.replySender]
        (.error (stoppedBeforeRestart u)) := by
    have hsome : (s.cleared.view u).restart = some restart := hrestart
    simp only [cancelled, view_cancelPendingRestart_self, View.cancelRestart, hsome]
  have hfree : (cancelled.view u).custody s.cleared.nextSender = 0 := by
    simp only [cancelled, view_cancelPendingRestart_self, View.custody_cancelRestart]
    exact hs.custody_cleared u
  have hextends := (reportOrStop_lives u grace force accepting hstop hfree).extends
  have hreply : Effect.reply (some u) restart.replySender (.error (stoppedBeforeRestart u)) ∈
      ((s.cleared.handle e).view u).effects := by
    rw [hhandle]
    refine hextends.mem ?_
    rw [hcancelled]
    exact List.mem_append_right _ List.mem_cons_self
  have hpos : 0 < replies restart.replySender (step s e).2 :=
    List.countP_pos_iff.mpr ⟨_, (List.mem_filter.mp hreply).1, by simp [Effect.repliesTo]⟩
  omega

theorem no_incarnation_step {trace : List Effect} {x : ReplySender} (hs : s.Sound)
    (hc : Callers trace s) (he : e.restartsCoordinator = false) (hanswered : replies x trace ≠ 0)
    (old new : DataflowId) : Effect.incarnation x old new ∉ (step s e).2 := by
  intro hmem
  have hne : x ≠ s.nextSender := Nat.ne_of_lt (hc.earlier x hanswered)
  obtain ⟨u, hparked⟩ := parked_of_answered hs he (incarnation_step hs hmem).2 hne
  exact hanswered (hc.unanswered u x hparked)

theorem mem_parked_of_restart {restart : PendingRestart}
    (h : s.pendingRestarts[u]? = some restart) : restart.replySender ∈ (s.view u).parked := by
  have hrestart : (s.view u).restart = some restart := h
  simp [View.parked, hrestart]

theorem no_incarnation_of_stop {before after : List Event} {restart : PendingRestart}
    (hrun : ∀ event ∈ before ++ e :: after, event.restartsCoordinator = false)
    (hrestart : (reached before).pendingRestarts[u]? = some restart)
    (hstop : (reached before).stopTarget e = some u) :
    replies restart.replySender (trace (before ++ e :: after)) ≠ 0 ∧
    ∀ old new, Effect.incarnation restart.replySender old new ∉ trace (before ++ e :: after) := by
  induction after using List.reverseRecOn with
  | nil =>
    have hc : Callers (trace before) (reached before) :=
      callers_reached fun event hmem => hrun event (List.mem_append_left _ hmem)
    have hunanswered := hc.unanswered u _ (mem_parked_of_restart hrestart)
    have hanswered := replies_of_stop (sound_reached before) hrestart hstop
    rw [trace_concat]
    refine ⟨?_, fun old new hmem => ?_⟩
    · rw [replies, List.countP_append]
      rw [replies] at hanswered
      omega
    · rcases List.mem_append.mp hmem with hbefore | hnow
      · exact hc.incarnated _ old new hbefore hunanswered
      · have hfinish := (incarnation_step (sound_reached before) hnow).1
        rw [isFinish_of_stopTarget hstop] at hfinish
        cases hfinish
  | append_singleton after e' ih =>
    have hsplit : before ++ e :: (after ++ [e']) = (before ++ e :: after) ++ [e'] := by simp
    rw [hsplit] at hrun ⊢
    have hearlier : ∀ event ∈ before ++ e :: after, event.restartsCoordinator = false :=
      fun event hmem => hrun event (List.mem_append_left _ hmem)
    obtain ⟨hanswered, hnone⟩ := ih hearlier
    have he' := hrun e' (List.mem_append_right _ List.mem_cons_self)
    rw [trace_concat]
    refine ⟨?_, fun old new hmem => ?_⟩
    · rw [replies, List.countP_append]
      rw [replies] at hanswered
      omega
    · rcases List.mem_append.mp hmem with hbefore | hnow
      · exact hnone old new hbefore
      · exact no_incarnation_step (sound_reached _) (callers_reached hearlier) he' hanswered old new
          hnow

/-- Over a run of the process: when an event removes a dataflow from the map, every caller that was
parked on it is answered by that event, and has been answered once in all; restarts wait for running
dataflows only; and a stop keeps the restart that waits for its dataflow from ever starting one. -/
theorem parked_callers_answered_once {before : List Event} {e : Event}
    (hrun : ∀ event ∈ before ++ [e], event.restartsCoordinator = false) :
    (∀ u, u ∈ (reached before).runningDataflows → u ∉ (reached (before ++ [e])).runningDataflows →
      ∀ x ∈ ((reached before).view u).parked,
        replies x (step (reached before) e).2 = 1 ∧ replies x (trace (before ++ [e])) = 1) ∧
    (∀ u ∈ (reached before).pendingRestarts, u ∈ (reached before).runningDataflows) ∧
    ∀ u restart after, (reached before).pendingRestarts[u]? = some restart →
      (reached before).stopTarget e = some u →
      (∀ event ∈ after, event.restartsCoordinator = false) →
      ∀ old new, Effect.incarnation restart.replySender old new ∉ trace (before ++ e :: after) := by
  have hearlier : ∀ event ∈ before, event.restartsCoordinator = false :=
    fun event hmem => hrun event (List.mem_append_left _ hmem)
  have he := hrun e (List.mem_append_right _ List.mem_cons_self)
  have hc := callers_reached hearlier
  refine ⟨fun u _ hgone x hx => ?_, fun u hu => ?_, fun u restart after hrestart hstop hafter => ?_⟩
  · have hnone : ((step (reached before) e).1.view u).entry = none := by
      rw [← reached_concat, view_entry]
      simpa using hgone
    have hnow := replies_of_removed (sound_reached before) hc he hx hnone
    refine ⟨hnow, ?_⟩
    rw [trace_concat, replies, List.countP_append]
    have hbefore := hc.unanswered u x hx
    rw [replies] at hbefore hnow
    omega
  · have hsome : ((reached before).view u).restart ≠ none := by
      rw [view_restart]
      exact Option.isSome_iff_ne_none.mp (TreeMap.mem_iff_isSome_getElem?.mp hu)
    exact TreeMap.mem_iff_isSome_getElem?.mpr
      (Option.isSome_iff_ne_none.mpr (hc.restartRuns u hsome))
  · refine (no_incarnation_of_stop (fun event hmem => ?_) hrestart hstop).2
    rcases List.mem_append.mp hmem with hbefore | hrest
    · exact hearlier event hbefore
    · rcases List.mem_cons.mp hrest with rfl | hmem'
      · exact he
      · exact hafter event hmem'

/-- A caller waits for the spawn and another one for the end when the spawn fails; and a restart waits
when the dataflow is stopped. -/
theorem parked_callers_answered_once_on_failure_and_stop :
    let waiting := startedOnTwo ++ [Event.waitForSpawn 2, .stop 2 none false [daemonA, daemonB]]
    let failure := Event.spawnResult 2 daemonA (.error "no such file")
    let restarting := startedOnTwo ++ [Event.restart 2 none false [daemonA, daemonB]]
    let stop := Event.stop 2 none false [daemonA, daemonB]
    (2 ∈ (reached waiting).runningDataflows ∧ 2 ∉ (reached (waiting ++ [failure])).runningDataflows ∧
      ((reached waiting).view 2).parked = [4, 3] ∧
      replies 3 (trace (waiting ++ [failure])) = 1 ∧ replies 4 (trace (waiting ++ [failure])) = 1) ∧
    ∃ restart, (reached restarting).pendingRestarts[2]? = some restart ∧ restart.replySender = 3 ∧
      ∀ new, Effect.incarnation 3 2 new ∉ trace (restarting ++ [stop]) := by
  intro waiting failure restarting stop
  have hparked : ((reached waiting).view 2).parked = [4, 3] := by decide +kernel
  have hin : 2 ∈ (reached waiting).runningDataflows := by decide +kernel
  have hout : 2 ∉ (reached (waiting ++ [failure])).runningDataflows := by decide +kernel
  have hwaiting : ∀ event ∈ waiting ++ [failure], event.restartsCoordinator = false := by decide
  have hanswered := (parked_callers_answered_once hwaiting).1 2 hin hout
  rw [hparked] at hanswered
  have hrestart : ((reached restarting).pendingRestarts[2]?.map (·.replySender)) = some 3 := by
    decide +kernel
  obtain ⟨restart, hsome, hsender⟩ := Option.map_eq_some_iff.mp hrestart
  have hstopping : ∀ event ∈ restarting ++ [stop], event.restartsCoordinator = false := by decide
  have hnone := (parked_callers_answered_once hstopping).2.2 2 restart [] hsome rfl
    (fun _ h => nomatch h)
  rw [hsender] at hnone
  exact ⟨⟨hin, hout, hparked, (hanswered 3 (by simp)).2, (hanswered 4 (by simp)).2⟩,
    restart, hsome, hsender, fun new => hnone 2 new⟩

end Coordinator

end Dora.Coord
