import Dora.Coordinator.Reachable

/-!
# The start barrier and early releases

`AllNodesReady` is broadcast when the last pending daemon of a dataflow has reported that it is ready or
has been lost. That is early only if a member of the dataflow is neither pending nor ready: a daemon that
reports the dataflow as running before it is ready becomes a member and not pending.
-/

namespace Dora.Coord

open Std Lib

variable {s : Coordinator} {e : Event} {u : DataflowId} {v v' : View} {df : RunningDataflow}

def Effect.announces : Effect → Bool
  | .broadcast _ _ => true
  | .replay _ _ => true
  | _ => false

/-- Why something is announced: the last pending daemon is ready or lost, or a daemon has come back to a
dataflow whose barrier is released. -/
inductive Announced (s : Coordinator) (e : Event) (u : DataflowId) (v : View) : Effect → Prop
  | ready {df : RunningDataflow} (d : DaemonId) (exited : List NodeId)
      (he : e = .readyOnDaemon u d exited) (hv : v.entry = some df)
      (hleft : (df.ready d exited).pendingDaemons.isEmpty = true) :
      Announced s e u v (.broadcast u df.daemons)
  | lost {df : RunningDataflow} (hv : v.entry = some df)
      (haffected : df.affectedBy (s.lostBy e) = true)
      (haction : Coordinator.disconnectAction u df (s.lostBy e) = some (.releaseReadyBarrier u)) :
      Announced s e u v (.broadcast u (df.dropDaemons (s.lostBy e)).daemons)
  | returned (d : DaemonId) (reported : List (DataflowId × List NodeId)) (order : List DataflowId)
      (he : e = .statusReport d reported order) (hreported : u ∈ reported.map Prod.fst) :
      Announced s e u v (.replay u d)

theorem LifeStep.announced {effect : Effect} (h : LifeStep s e u v v')
    (hann : effect.announces = true) (hmem : effect ∈ v'.effects) :
    effect ∈ v.effects ∨ Announced s e u v effect := by
  -- whoever waits for a restart is only answered
  have hanswers {answers : List Effect} (h : RestartAnswer u answers v.restart) : effect ∉ answers := by
    refine fun hin => h.forall_mem (p := fun x => x ≠ effect) ?_ ?_ ?_ effect hin rfl <;>
      · rintro _ _ rfl
        cases hann
  cases effect with
  | broadcast uuid members =>
    cases h with
    | allReady d exited status now he hv hleft =>
      refine (List.mem_append.mp hmem).imp (fun hold => by simpa [View.persist] using hold) fun hnew => ?_
      have hready : Announced s e u v _ := .ready d exited he hv hleft
      exact List.mem_singleton.mp hnew ▸ hready
    | lostLastPending reason status now hv haffected haction =>
      refine (List.mem_append.mp hmem).imp (fun hold => by simpa [View.persist] using hold) fun hnew => ?_
      exact List.mem_singleton.mp hnew ▸ .lost hv haffected haction
    | concluded _ _ _ _ _ _ _ _ hrestart =>
      exact .inl (by simpa [View.conclude, hanswers hrestart] using hmem)
    | _ => exact .inl (by simpa [View.persist, View.teardown] using hmem)
  | replay uuid d =>
    cases h with
    | relinked d reported order nodes he hreported
    | recovered d reported order nodes resolved now he hreported =>
      rw [View.replay_effects] at hmem
      refine (List.mem_append.mp hmem).imp id fun hnew => ?_
      split at hnew
      · cases List.mem_singleton.mp hnew
        exact .returned d reported order he (List.mem_map_of_mem hreported)
      · cases hnew
    | concluded _ _ _ _ _ _ _ _ hrestart =>
      exact .inl (by simpa [View.conclude, hanswers hrestart] using hmem)
    | _ => exact .inl (by simpa [View.persist, View.release, View.teardown] using hmem)
  | _ => cases hann

structure Crew where
  daemons : TreeSet DaemonId
  pending : TreeSet DaemonId
  released : Bool
  spawned : Bool

def RunningDataflow.crew (df : RunningDataflow) : Crew :=
  ⟨df.daemons, df.pendingDaemons, df.readyBarrierReleased, df.spawnResult.isCachedOk⟩

def View.crew (v : View) : Option Crew := v.entry.map RunningDataflow.crew

namespace Crew

def ready (c : Crew) (d : DaemonId) : Crew := { c with pending := c.pending.erase d }

def drop (c : Crew) (gone : List DaemonId) : Crew :=
  { c with daemons := c.daemons.filter (· ∉ gone), pending := c.pending.filter (· ∉ gone) }

def relink (c : Crew) (d : DaemonId) : Crew :=
  { c with daemons := c.daemons.insert d, pending := c.pending.erase d }

def release (c : Crew) : Crew := { c with released := true }

def started (daemons : TreeSet DaemonId) : Crew :=
  ⟨daemons, if daemons.size > 1 then daemons else ∅, false, false⟩

def recovered (d : DaemonId) (released : Bool) : Crew := ⟨(∅ : TreeSet DaemonId).insert d, ∅, released, true⟩

end Crew

inductive CrewStep (s : Coordinator) (e : Event) (u : DataflowId) (v v' : View) : Prop
  | kept (h : v'.crew = v.crew)
  | gone (h : v'.crew = none)
  | started (placed : TreeMap NodeId DaemonId) (he : e.mayStart s u) (hu : u = s.nextUuid)
      (hplaced : ∀ d ∈ Coordinator.daemonsOf placed, d ∈ s.daemonConnections)
      (h : v'.crew = some (.started (Coordinator.daemonsOf placed)))
  | ready {c : Crew} (d : DaemonId) (exited : List NodeId) (he : e = .readyOnDaemon u d exited)
      (hc : v.crew = some c) (hleft : (c.ready d).pending.isEmpty = false)
      (h : v'.crew = some (c.ready d))
  | allReady {c : Crew} (d : DaemonId) (exited : List NodeId) (he : e = .readyOnDaemon u d exited)
      (hc : v.crew = some c) (hleft : (c.ready d).pending.isEmpty = true)
      (h : v'.crew = some (c.ready d).release) (hsent : .broadcast u c.daemons ∈ v'.effects)
  | lost {df : RunningDataflow} (hv : v.entry = some df)
      (haction : Coordinator.disconnectAction u df (s.lostBy e) = none)
      (h : v'.crew = some (df.crew.drop (s.lostBy e)))
  | lostLastPending {df : RunningDataflow} (hv : v.entry = some df)
      (haction : Coordinator.disconnectAction u df (s.lostBy e) = some (.releaseReadyBarrier u))
      (h : v'.crew = some (df.crew.drop (s.lostBy e)).release)
      (hsent : .broadcast u (df.crew.drop (s.lostBy e)).daemons ∈ v'.effects)
  | spawned {c : Crew} (hc : v.crew = some c) (h : v'.crew = some { c with spawned := true })
  | finished {c : Crew} (d : DaemonId) (result : DaemonResult) (accepting : List DaemonId)
      (he : e = .finishedOnDaemon u d result accepting) (hc : v.crew = some c)
      (h : v'.crew = some { c with daemons := c.daemons.erase d })
  | relinked {c : Crew} (d : DaemonId) (reported : List (DataflowId × List NodeId))
      (order : List DataflowId) (he : e = .statusReport d reported order)
      (hreported : u ∈ reported.map Prod.fst) (hc : v.crew = some c) (h : v'.crew = some (c.relink d))
      (hsent : c.released = true → .replay u d ∈ v'.effects)
  | recovered {record : DataflowRecord} (d : DaemonId) (reported : List (DataflowId × List NodeId))
      (order : List DataflowId) (he : e = .statusReport d reported order)
      (hreported : u ∈ reported.map Prod.fst) (hc : v.crew = none) (hrecord : v.record = some record)
      (h : v'.crew = some (.recovered d record.readyBarrierReleased))
      (hsent : record.readyBarrierReleased = true → .replay u d ∈ v'.effects)

theorem View.crew_of_entry (hv : v.entry = some df) : v.crew = some df.crew := by
  rw [View.crew, hv, Option.map_some]

variable {d d' : DaemonId}

theorem View.mem_replay {released : Bool} (h : released = true) :
    Effect.replay u d ∈ (v.replay u released d).effects := by
  subst h
  exact List.mem_append_right _ List.mem_cons_self

theorem LifeStep.crew (h : LifeStep s e u v v') : CrewStep s e u v v' := by
  have hgone (hnone : v'.entry = none) : CrewStep s e u v v' := .gone (by rw [View.crew, hnone]; rfl)
  have hset {df df' : RunningDataflow} (hv : v.entry = some df) (hv' : v'.entry = some df')
      (hsame : df'.crew = df.crew) : CrewStep s e u v v' := by
    refine .kept ?_
    rw [View.crew_of_entry hv, View.crew_of_entry hv', hsame]
  cases h with
  | started descriptor name nodes placed uv now he hu hblank hplaced =>
    exact .started placed he hu hplaced rfl
  | ready d exited he hv hleft => exact .ready d exited he (View.crew_of_entry hv) hleft rfl
  | allReady d exited status now he hv hleft =>
    exact .allReady d exited he (View.crew_of_entry hv) hleft rfl
      (List.mem_append_right _ List.mem_cons_self)
  | lost reason hv haffected haction =>
    refine .lost hv haction ?_
    rw [View.crew, View.cancelRestart_entry]
    rfl
  | lostLastPending reason status now hv haffected haction =>
    exact .lostLastPending hv haction rfl (List.mem_append_right _ List.mem_cons_self)
  | orphaned | spawnFailed | spawnTimedOut => exact hgone (View.cancelRestart_entry _ _)
  | spawnReported _ _ _ hv | recoveryAttempted _ _ _ _ _ hv | stopping _ _ hv | restartParked _ _ hv
  | nodeAdded _ _ _ _ hv | nodeRemoved _ _ _ _ hv | markedStopping _ _ hv =>
    exact hset hv rfl rfl
  | spawned _ _ _ _ hv => exact .spawned (View.crew_of_entry hv) rfl
  | partFinished d result accepting he hv =>
    exact .finished d result accepting he (View.crew_of_entry hv) rfl
  | concluded | forgotten => exact hgone rfl
  | promoted | answered | recoveryExpired | cleaned | resultsMerged | resultsCapped | archiveDropped
  | recoveredRecord =>
    exact .kept rfl
  | relinked d reported order nodes he hreported hv =>
    refine .relinked d reported order he (List.mem_map_of_mem hreported) (View.crew_of_entry hv) ?_
      View.mem_replay
    rw [View.crew, View.replay_entry]
    rfl
  | recovered d reported order nodes resolved now he hreported hv hrecord =>
    refine .recovered d reported order he (List.mem_map_of_mem hreported) ?_ hrecord ?_ View.mem_replay
    · rw [View.crew, hv, Option.map_none]
    · rw [View.crew, View.replay_entry]
      rfl
  | restartCancelled => exact .kept (by rw [View.crew, View.crew, View.cancelRestart_entry])
  | waiting senders he hv hpending =>
    refine hset hv rfl ?_
    unfold RunningDataflow.crew
    rw [hpending]
    rfl

theorem LifeStep.record_of_report {reported : List (DataflowId × List NodeId)}
    {order : List DataflowId} (h : LifeStep s e u v v') (he : e = .statusReport d reported order)
    (hnone : v'.crew = none) :
    v.crew = none ∧ ∀ record', v'.record = some record' →
      ∃ record, v.record = some record ∧ record.readyBarrierReleased = record'.readyBarrierReleased := by
  have hentry : v'.entry = none := by simpa [View.crew] using hnone
  have hsame (hrecord : v'.record = v.record) (hcrew : v'.crew = v.crew) : v.crew = none ∧
      ∀ record', v'.record = some record' →
        ∃ record, v.record = some record ∧ record.readyBarrierReleased = record'.readyBarrierReleased :=
    ⟨hcrew ▸ hnone, fun record' hsome => ⟨record', hrecord ▸ hsome, rfl⟩⟩
  -- the steps of other events are out of the question, and so are those that leave an entry
  subst he
  cases h with
  | promoted _ _ _ _ _ _ hv =>
    refine ⟨hnone, fun record' hsome => ⟨_, hv, ?_⟩⟩
    cases hsome
    rfl
  | answered | resultsCapped | archiveDropped => exact hsame rfl rfl
  | lost => cases (View.cancelRestart_entry _ _).symm.trans hentry
  | orphaned _ _ _ haffected => cases haffected
  | relinked | recovered => cases (View.replay_entry ..).symm.trans hentry
  | lostLastPending | recoveryAttempted => cases hentry
  | _ => contradiction

/-- Every member of the crew is pending or satisfies `ready`. -/
def Crew.Guarded (ready : DaemonId → Prop) (c : Crew) : Prop :=
  ∀ d ∈ c.daemons, d ∈ c.pending ∨ ready d

variable {m : TreeSet DaemonId}

theorem mem_erase_iff : d' ∈ m.erase d ↔ d' ≠ d ∧ d' ∈ m := by
  have hcompare : compare d d' ≠ .eq ↔ d' ≠ d := by
    rw [Ne, LawfulEqCmp.compare_eq_iff_eq, Ne, eq_comm]
  rw [TreeSet.mem_erase, hcompare]

theorem mem_insert_iff : d' ∈ m.insert d ↔ d' = d ∨ d' ∈ m := by
  rw [TreeSet.mem_insert, LawfulEqCmp.compare_eq_iff_eq, eq_comm]

theorem mem_drop_iff {gone : List DaemonId} :
    d ∈ m.filter (· ∉ gone) ↔ d ∈ m ∧ d ∉ gone := by
  simp

theorem not_mem_of_isEmpty (h : m.isEmpty = true) (d : DaemonId) : d ∉ m := by
  intro hmem
  have hfalse := TreeSet.isEmpty_eq_false_iff_exists_mem.mpr ⟨d, hmem⟩
  rw [h] at hfalse
  cases hfalse

namespace Crew.Guarded

variable {ready : DaemonId → Prop} {c : Crew} {d : DaemonId}

theorem ready_of_isEmpty (h : c.Guarded ready) (hempty : c.pending.isEmpty = true)
    (hd : d ∈ c.daemons) : ready d :=
  (h d hd).resolve_left (not_mem_of_isEmpty hempty d)

protected theorem ready (h : c.Guarded ready) (hready : ready d) : (c.ready d).Guarded ready := by
  intro d' hd'
  rcases h d' hd' with hpending | hdone
  · by_cases heq : d' = d
    · exact .inr (heq ▸ hready)
    · exact .inl (mem_erase_iff.mpr ⟨heq, hpending⟩)
  · exact .inr hdone

protected theorem drop (h : c.Guarded ready) (gone : List DaemonId) : (c.drop gone).Guarded ready := by
  intro d' hd'
  obtain ⟨hmember, hkept⟩ := mem_drop_iff.mp hd'
  exact (h d' hmember).imp (fun hpending => mem_drop_iff.mpr ⟨hpending, hkept⟩) id

protected theorem relink (h : c.Guarded ready) (hready : ready d) : (c.relink d).Guarded ready := by
  intro d' hd'
  by_cases heq : d' = d
  · exact .inr (heq ▸ hready)
  · have hmember : d' ∈ c.daemons := (mem_insert_iff.mp hd').resolve_left heq
    exact (h d' hmember).imp (fun hpending => mem_erase_iff.mpr ⟨heq, hpending⟩) id

end Crew.Guarded

theorem pending_of_releaseReadyBarrier {gone : List DaemonId}
    (h : Coordinator.disconnectAction u df gone = some (.releaseReadyBarrier u)) :
    (df.crew.drop gone).pending.isEmpty = true := by
  unfold Coordinator.disconnectAction at h
  dsimp only at h
  split at h
  · split at h <;> cases h
  · split at h
    · rename_i hrelease
      simp only [Bool.and_eq_true] at hrelease
      exact hrelease.2
    · cases h

structure View.Guarded (u : DataflowId) (ready : DaemonId → Prop) (v : View) : Prop where
  crew : ∀ c, v.crew = some c → c.Guarded ready
  broadcast : ∀ members, Effect.broadcast u members ∈ v.effects → ∀ d ∈ members, ready d

theorem View.Guarded.mono {ready ready' : DaemonId → Prop} (h : v.Guarded u ready)
    (himp : ∀ d, ready d → ready' d) : v.Guarded u ready' where
  crew c hc d hd := (h.crew c hc d hd).imp id (himp d)
  broadcast members hmem d hd := himp d (h.broadcast members hmem d hd)

section Step

variable {ready : DaemonId → Prop} (hready : ∀ d exited, e = .readyOnDaemon u d exited → ready d)
  (hreport : ∀ d reported order, e = .statusReport d reported order → u ∈ reported.map Prod.fst → ready d)

include hready hreport in
theorem CrewStep.guarded (h : CrewStep s e u v v') (hu : u ≠ s.nextUuid)
    (hv : ∀ c, v.crew = some c → c.Guarded ready) (c' : Crew) (hc' : v'.crew = some c') :
    c'.Guarded ready := by
  cases h with
  | kept h => exact hv c' (h ▸ hc')
  | gone h =>
    rw [h] at hc'
    cases hc'
  | started placed he hnext => exact absurd hnext hu
  | ready d exited he hc hleft h | allReady d exited he hc hleft h =>
    cases h.symm.trans hc'
    exact (hv _ hc).ready (hready d exited he)
  | lost hentry haction h | lostLastPending hentry haction h =>
    cases h.symm.trans hc'
    exact (hv _ (View.crew_of_entry hentry)).drop _
  | spawned hc h =>
    cases h.symm.trans hc'
    exact fun d hd => hv _ hc d hd
  | finished d result accepting he hc h =>
    cases h.symm.trans hc'
    exact fun d' hd' => hv _ hc d' (mem_erase_iff.mp hd').2
  | relinked d reported order he hreported hc h =>
    cases h.symm.trans hc'
    exact (hv _ hc).relink (hreport d reported order he hreported)
  | recovered d reported order he hreported hc hrecord h =>
    cases h.symm.trans hc'
    intro d' hd'
    rcases mem_insert_iff.mp hd' with rfl | hnone
    · exact .inr (hreport d' reported order he hreported)
    · exact absurd hnone TreeSet.not_mem_emptyc

include hready in
theorem Announced.guarded {members : TreeSet DaemonId}
    (h : Announced s e u v (.broadcast u members)) (hv : v.Guarded u ready) : ∀ d ∈ members, ready d := by
  intro d hd
  cases h with
  | ready d' exited he hentry hleft =>
    have hguarded := (hv.crew _ (View.crew_of_entry hentry)).ready (hready d' exited he)
    exact hguarded.ready_of_isEmpty hleft hd
  | lost hentry haffected haction =>
    have hguarded := (hv.crew _ (View.crew_of_entry hentry)).drop (s.lostBy e)
    exact hguarded.ready_of_isEmpty (pending_of_releaseReadyBarrier haction) hd

include hready hreport in
theorem LifeStep.guarded (h : LifeStep s e u v v') (hu : u ≠ s.nextUuid) (hv : v.Guarded u ready) :
    v'.Guarded u ready where
  crew := h.crew.guarded hready hreport hu hv.crew
  broadcast members hmem := by
    rcases h.announced rfl hmem with hold | hnew
    · exact hv.broadcast members hold
    · exact hnew.guarded hready hv

end Step

namespace Coordinator

theorem Sound.no_broadcast_of_started (hs : s.Sound) (members : TreeSet DaemonId) :
    Effect.broadcast s.nextUuid members ∉ ((step s e).1.view s.nextUuid).effects := by
  let P (v : View) : Prop :=
    (v.Blank ∨ e.mayStart s s.nextUuid) ∧ ∀ members, Effect.broadcast s.nextUuid members ∉ v.effects
  have hend : P ((step s e).1.view s.nextUuid) := by
    refine (hs.step_lives e s.nextUuid).keeps (fun v v' h hv => ⟨?_, fun members hmem => ?_⟩)
      ⟨.inl (hs.blank _ le_rfl), fun _ => List.not_mem_nil⟩
    · exact hv.1.elim (fun hblank => (h.blank hblank).imp id fun hstarted => hstarted.2.1) .inr
    · rcases h.announced rfl hmem with hold | hnew
      · exact hv.2 members hold
      · have hentry {df : RunningDataflow} (hsome : v.entry = some df) : e.mayStart s s.nextUuid :=
          hv.1.resolve_left fun hblank => by
            rw [hblank.1] at hsome
            cases hsome
        cases hnew with
        | ready d exited he hsome =>
          have hstart := hentry hsome
          rw [he] at hstart
          exact hstart
        | lost hsome haffected =>
          rw [lostBy_of_mayStart (hentry hsome)] at haffected
          cases haffected
  exact hend.2 members

def ReadySent (events : List Event) (u : DataflowId) (d : DaemonId) : Prop :=
  ∃ exited, Event.readyOnDaemon u d exited ∈ events

def StartedOnSeveral (events : List Event) (u : DataflowId) : Prop :=
  ∀ df, (reached (events.take (u + 1))).runningDataflows[u]? = some df → 1 < df.daemons.size

def ReportsAfterReady (events : List Event) (u : DataflowId) : Prop :=
  ∀ before d reported order after, events = before ++ .statusReport d reported order :: after →
    u ∈ reported.map Prod.fst → ReadySent before u d

theorem ReadySent.mono {before after : List Event} {d : DaemonId} (h : ReadySent before u d) :
    ReadySent (before ++ after) u d :=
  h.imp fun _ hmem => List.mem_append_left _ hmem

variable {events : List Event}

theorem StartedOnSeveral.of_concat
    (h : StartedOnSeveral (events ++ [e]) u) : StartedOnSeveral events u := by
  intro df hentry
  rcases Nat.lt_or_ge u events.length with hu | hu
  · rw [StartedOnSeveral, List.take_append_of_le_length hu] at h
    exact h df hentry
  · -- nothing is known of the dataflow yet
    rw [List.take_of_length_le (Nat.le_succ_of_le hu)] at hentry
    have hblank := (sound_reached events).blank u (by rw [nextUuid_reached]; exact hu)
    rw [← view_entry, hblank.1] at hentry
    cases hentry

theorem ReportsAfterReady.of_concat
    (h : ReportsAfterReady (events ++ [e]) u) : ReportsAfterReady events u := by
  intro before d reported order after hsplit hreported
  refine h before d reported order (after ++ [e]) ?_ hreported
  rw [hsplit, List.append_assoc, List.cons_append]

theorem guarded_of_justStarted {ready : DaemonId → Prop} (h : JustStarted s df)
    (hsize : 1 < df.daemons.size) : df.crew.Guarded ready := by
  obtain ⟨descriptor, name, nodes, placed, uv, now, rfl, _⟩ := h
  have hpending : (if (daemonsOf placed).size > 1 then daemonsOf placed else ∅) = daemonsOf placed :=
    if_pos hsize
  intro d hd
  left
  show d ∈ (if (daemonsOf placed).size > 1 then daemonsOf placed else ∅)
  rw [hpending]
  exact hd

theorem guarded_reached (hstart : StartedOnSeveral events u) (hreport : ReportsAfterReady events u) :
    ((reached events).view u).Guarded u (ReadySent events u) := by
  induction events using List.reverseRecOn with
  | nil =>
    have hblank := sound_initial.blank u (Nat.zero_le u)
    refine ⟨fun c hc => ?_, fun _ hmem => nomatch hmem⟩
    have hnone : ((reached []).view u).crew = none := by
      rw [View.crew]
      exact congrArg (Option.map _) hblank.1
    rw [hnone] at hc
    cases hc
  | append_singleton events e ih =>
    have hs := sound_reached events
    have hbefore : ((reached events).view u).Guarded u (ReadySent (events ++ [e]) u) :=
      (ih hstart.of_concat hreport.of_concat).mono fun _ hd => hd.mono
    rw [reached_concat]
    by_cases hu : u = (reached events).nextUuid
    · subst hu
      refine ⟨fun c hc => ?_, fun members hmem => absurd hmem (hs.no_broadcast_of_started members)⟩
      obtain ⟨df, hentry, rfl⟩ := Option.map_eq_some_iff.mp hc
      refine guarded_of_justStarted (hs.justStarted hentry) (hstart df ?_)
      rw [List.take_of_length_le (by rw [nextUuid_reached, List.length_append]; rfl), reached_concat]
      exact hentry
    · refine (hs.step_lives e u).keeps (fun v v' h => h.guarded ?_ ?_ hu)
        ⟨hbefore.crew, fun _ hmem => nomatch hmem⟩
      · exact fun d exited he => ⟨exited, List.mem_append_right _ (List.mem_singleton.mpr he.symm)⟩
      · intro d reported order he hreported
        subst he
        exact (hreport events d reported order [] rfl hreported).mono

/-- In a run in which daemons report the dataflow as running only after they have reported it as ready,
its start barrier never opens before every member is ready. -/
theorem barrier_opens_when_ready {before : List Event} {e : Event} {u : DataflowId}
    {members : TreeSet DaemonId} (hstart : StartedOnSeveral (before ++ [e]) u)
    (hreport : ReportsAfterReady (before ++ [e]) u)
    (hopen : Effect.broadcast u members ∈ (step (reached before) e).2) :
    ∀ d ∈ members, ReadySent (before ++ [e]) u d := by
  have hguarded := guarded_reached hstart hreport
  rw [reached_concat] at hguarded
  exact hguarded.broadcast members (mem_view_effects hopen (by simp [Effect.concerns]))

def broadcastsTo (u : DataflowId) (d : DaemonId) : Effect → Bool
  | .broadcast uuid members => uuid = u && members.contains d
  | _ => false

theorem exists_broadcast {effects : List Effect} {d : DaemonId}
    (h : effects.any (broadcastsTo u d) = true) :
    ∃ members, Effect.broadcast u members ∈ effects ∧ d ∈ members := by
  obtain ⟨effect, hmem, hreaches⟩ := List.any_eq_true.mp h
  match effect, hreaches with
  | .broadcast uuid members, hreaches =>
    obtain ⟨huuid, hd⟩ := Bool.and_eq_true_iff.mp hreaches
    exact ⟨members, of_decide_eq_true huuid ▸ hmem, hd⟩

theorem startedOnSeveral_of_size {n : Nat}
    (h : (reached (events.take (u + 1))).runningDataflows[u]?.map (·.daemons.size) = some (n + 2)) :
    StartedOnSeveral events u := by
  intro df hentry
  rw [hentry, Option.map_some] at h
  have hsize := Option.some.inj h
  omega

/-- Both daemons report that they are ready. -/
theorem barrier_opens_when_both_ready :
    let before := startedOnTwo ++ [Event.readyOnDaemon 2 daemonA []]
    let last := Event.readyOnDaemon 2 daemonB []
    ∃ members, Effect.broadcast 2 members ∈ (step (reached before) last).2 ∧ daemonA ∈ members ∧
      ReadySent (before ++ [last]) 2 daemonA := by
  intro before last
  have hopen : (step (reached before) last).2.any (broadcastsTo 2 daemonA) = true := by decide +kernel
  obtain ⟨members, hmem, hmember⟩ := exists_broadcast hopen
  have hstart : StartedOnSeveral (before ++ [last]) 2 :=
    startedOnSeveral_of_size (n := 0) (by decide +kernel)
  have hreport : ReportsAfterReady (before ++ [last]) 2 := by
    intro _ d reported order after hsplit
    have hreported : Event.statusReport d reported order ∈ before ++ [last] := by simp [hsplit]
    simp [before, last, startedOnTwo] at hreported
  exact ⟨members, hmem, hmember, barrier_opens_when_ready hstart hreport hmem daemonA hmember⟩

/-- One daemon is lost before it is ready, comes back under a new id and reports the dataflow as running;
then the other one's ready report releases the barrier for both. -/
theorem barrier_opens_early :
    let returned : DaemonId := ⟨some "b", 4⟩
    let before := startedOnTwo ++ [Event.daemonExit daemonB 1 [], .register (some "b") [] true,
      .statusReport returned [(2, [⟨"plot"⟩])] []]
    let last := Event.readyOnDaemon 2 daemonA []
    StartedOnSeveral (before ++ [last]) 2 ∧
    (∃ members, Effect.broadcast 2 members ∈ (step (reached before) last).2 ∧ returned ∈ members) ∧
    ¬ ReadySent (before ++ [last]) 2 returned := by
  intro returned before last
  refine ⟨startedOnSeveral_of_size (n := 0) (by decide +kernel), exists_broadcast (by decide +kernel), ?_⟩
  rintro ⟨exited, hmem⟩
  simp [before, last, startedOnTwo, returned, daemonA] at hmem

end Coordinator

end Dora.Coord
