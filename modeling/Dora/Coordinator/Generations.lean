import Dora.Coordinator.TerminalStatus

/-!
# Generations of the stored record

The generation of a record is kept twice, in the live entry and in the store. Most handlers write the
next generation of the entry; the reconciliation, the recovery timeout and the next start of the process
write that of the record. While the two agree every write raises the generation. They part when a
report reconciles the record of a dataflow that still has an entry.
-/

namespace Dora.Coord

open Std Lib

variable {s : Coordinator} {e : Event} {u : DataflowId} {v v' : View} {df : RunningDataflow}

def Effect.isWrite : Effect → Bool
  | .persisted _ _ => true
  | _ => false

namespace View

def writes (v : View) : Nat := v.effects.countP Effect.isWrite

def InStep (v : View) : Prop :=
  ∀ df record, v.entry = some df → v.record = some record → df.storeGeneration = record.generation

/-- A step that leaves the record alone or deletes it, or that writes it once with a greater generation
than that of the record it replaces. -/
inductive Raises (v v' : View) : Prop
  | unwritten (hwrites : v'.writes = v.writes) (hrecord : v'.record = v.record ∨ v'.record = none)
  | written {record : DataflowRecord} (hwrites : v'.writes = v.writes + 1)
      (hrecord : v'.record = some record)
      (hraised : ∀ old, v.record = some old → old.generation < record.generation)

end View

attribute [local simp] View.writes View.persist View.release View.teardown View.conclude Effect.isWrite
  Function.comp_def List.countP_cons

/-- A report does not find the dataflow with an entry and a record that could be reconciled. -/
def View.Unlinked (e : Event) (u : DataflowId) (v : View) : Prop :=
  ∀ d reported order nodes, e = .statusReport d reported order → (u, nodes) ∈ reported →
    v.entry ≠ none → ∀ record, v.record = some record → record.status.revivable = false

namespace View

theorem inStep_of_entry_none (h : v.entry = none) : v.InStep := fun df _ hentry _ => by
  rw [h] at hentry
  cases hentry

theorem inStep_of_eq {record : DataflowRecord} (hentry : v.entry = some df)
    (hrecord : v.record = some record) (hgen : df.storeGeneration = record.generation) : v.InStep := by
  intro df' record' hentry' hrecord'
  cases hentry.symm.trans hentry'
  cases hrecord.symm.trans hrecord'
  exact hgen

theorem InStep.keep {df' : RunningDataflow} (h : v.InStep) (hv : v.entry = some df)
    (hwrites : v'.writes = v.writes) (hrecord : v'.record = v.record) (hv' : v'.entry = some df')
    (hgen : df'.storeGeneration = df.storeGeneration) : v.Raises v' ∧ v'.InStep := by
  refine ⟨.unwritten hwrites (.inl hrecord), fun _ record hentry hrecord' => ?_⟩
  cases hv'.symm.trans hentry
  exact hgen.trans (h df record hv (hrecord ▸ hrecord'))

/-- The next generation of the entry is above that of the record. -/
theorem InStep.raises {record : DataflowRecord} (h : v.InStep) (hv : v.entry = some df)
    (hwrites : v'.writes = v.writes + 1) (hrecord : v'.record = some record)
    (hgen : record.generation = df.storeGeneration + 1) : v.Raises v' := by
  refine .written hwrites hrecord fun old hold => ?_
  have hsame := h df old hv hold
  omega

theorem InStep.write {df' : RunningDataflow} {record : DataflowRecord} (h : v.InStep)
    (hv : v.entry = some df) (hwrites : v'.writes = v.writes + 1) (hrecord : v'.record = some record)
    (hgen : record.generation = df.storeGeneration + 1) (hv' : v'.entry = some df')
    (hgen' : df'.storeGeneration = record.generation) : v.Raises v' ∧ v'.InStep :=
  ⟨h.raises hv hwrites hrecord hgen, inStep_of_eq hv' hrecord hgen'⟩

theorem InStep.close {record : DataflowRecord} (h : v.InStep) (hv : v.entry = some df)
    (hwrites : v'.writes = v.writes + 1) (hrecord : v'.record = some record)
    (hgen : record.generation = df.storeGeneration + 1) (hnone : v'.entry = none) :
    v.Raises v' ∧ v'.InStep :=
  ⟨h.raises hv hwrites hrecord hgen, inStep_of_entry_none hnone⟩

/-- A record that belongs to no entry is written back with its own next generation. -/
theorem raises_put {old record : DataflowRecord} (hold : v.record = some old)
    (hgen : record.generation = old.generation + 1) (hnone : v.entry = none) :
    v.Raises (v.put u record) ∧ (v.put u record).InStep := by
  refine ⟨.written (by simp) rfl fun old' hold' => ?_, inStep_of_entry_none hnone⟩
  cases hold.symm.trans hold'
  omega

theorem Unlinked.entry_eq_none {d : DaemonId} {reported : List (DataflowId × List NodeId)}
    {order : List DataflowId} {nodes : List NodeId} {record : DataflowRecord} (h : v.Unlinked e u)
    (he : e = .statusReport d reported order) (hreported : (u, nodes) ∈ reported)
    (hrecord : v.record = some record) (hstatus : record.status.revivable = true) :
    v.entry = none := by
  by_contra hsome
  rw [h _ _ _ _ he hreported hsome _ hrecord] at hstatus
  cases hstatus

end View

theorem LifeStep.raises (h : LifeStep s e u v v') (hrec : v.Recorded) (hsync : v.InStep)
    (hunlinked : v.Unlinked e u) : v.Raises v' ∧ v'.InStep := by
  cases h with
  | started _ _ _ _ _ _ _ _ hblank =>
    refine ⟨.written (by simp) rfl fun old hold => ?_, View.inStep_of_eq rfl rfl rfl⟩
    rw [hblank.2.1] at hold
    cases hold
  | ready _ _ _ hv | spawnReported _ _ _ hv | partFinished _ _ _ _ hv | recoveryAttempted _ _ _ _ _ hv
  | waiting _ _ hv | nodeAdded _ _ _ _ hv | nodeRemoved _ _ _ _ hv =>
    exact hsync.keep hv rfl rfl rfl rfl
  | lost _ hv => exact hsync.keep hv (by simp) (by simp) (View.cancelRestart_entry _ _) rfl
  | relinked _ _ _ _ _ _ hv => exact hsync.keep hv (by simp) (by simp) (View.replay_entry _ _ _) rfl
  | allReady _ _ _ _ _ hv | lostLastPending _ _ _ hv | spawned _ _ _ _ hv | stopping _ _ hv
  | restartParked _ _ hv | markedStopping _ _ hv =>
    exact hsync.write hv (by simp) rfl rfl rfl rfl
  | orphaned _ _ hv => exact hsync.close hv (by simp) rfl rfl (View.cancelRestart_entry _ _)
  | spawnFailed _ _ _ _ _ _ _ hv | spawnTimedOut _ _ _ _ _ _ _ hv =>
    exact hsync.close hv (by simp) (View.cancelRestart_record _ _) rfl (View.cancelRestart_entry _ _)
  | concluded _ _ _ _ _ _ hv _ hanswer =>
    have hnone := List.countP_eq_zero.mpr (hanswer.forall_mem (p := fun effect => ¬effect.isWrite = true)
      (by simp) (by simp) (by simp))
    exact hsync.close hv (by simp [hnone]) rfl rfl rfl
  | promoted _ _ _ _ he hreported hrecord hstatus =>
    exact View.raises_put hrecord rfl (hunlinked.entry_eq_none he hreported hrecord hstatus)
  | recovered _ _ _ _ _ _ _ _ _ hrecord =>
    exact ⟨.unwritten (by simp) (by simp),
      View.inStep_of_eq (View.replay_entry _ _ _) ((View.replay_record _ _ _).trans hrecord) rfl⟩
  | restartCancelled =>
    exact ⟨.unwritten (by simp) (by simp), by simpa [View.InStep] using hsync⟩
  | answered => exact ⟨.unwritten (by simp) (.inl rfl), hsync⟩
  | recoveryExpired _ _ _ _ hrecord hstatus =>
    exact View.raises_put hrecord rfl (hrec.entry_eq_none hrecord hstatus)
  | cleaned _ hnone => exact ⟨.unwritten (by simp) (.inr rfl), View.inStep_of_entry_none hnone⟩
  | resultsMerged | resultsCapped | archiveDropped => exact ⟨.unwritten rfl (.inl rfl), hsync⟩
  | forgotten => exact ⟨.unwritten rfl (.inl rfl), View.inStep_of_entry_none rfl⟩
  | recoveredRecord _ _ _ hnone hrecord => exact View.raises_put hrecord rfl hnone

theorem LifeStep.unlinked (h : LifeStep s e u v v') (hv : v.Unlinked e u) : v'.Unlinked e u := by
  intro d reported order nodes he hreported hsome record hrecord
  subst he
  have hkept {df : RunningDataflow} (hentry : v.entry = some df) (hsame : v'.record = v.record) :
      record.status.revivable = false :=
    hv d reported order nodes rfl hreported (by rw [hentry]; exact Option.some_ne_none df) record
      (hsame ▸ hrecord)
  cases h with
  | lost _ _ haffected | lostLastPending _ _ _ _ haffected | orphaned _ _ _ haffected => cases haffected
  | promoted =>
    cases hrecord
    rfl
  | relinked _ _ _ _ _ _ hentry => exact hkept hentry (View.replay_record _ _ _)
  | recovered _ _ _ _ _ _ _ _ _ hold hstatus =>
    rw [View.replay_record] at hrecord
    cases hold.symm.trans hrecord
    rw [hstatus]
    rfl
  | recoveryAttempted _ _ _ _ _ hentry => exact hkept hentry rfl
  | stopping _ htarget | restartCancelled _ htarget | restartParked _ htarget => cases htarget
  | answered | resultsCapped | archiveDropped =>
    exact hv d reported order nodes rfl hreported hsome record hrecord
  | started _ _ _ _ _ _ hstart => cases hstart
  | _ => cases ‹Event.statusReport _ _ _ = _›

namespace Coordinator

/-- No report names a dataflow that has an entry while its record is still to be reconciled. -/
def ReportsUnlinked (s : Coordinator) : Event → Prop
  | .statusReport _ reported _ => ∀ entry ∈ reported, s.runningDataflows[entry.1]? ≠ none →
      ∀ record, s.store[entry.1]? = some record → record.status.revivable = false
  | _ => True

theorem ReportsUnlinked.unlinked (h : s.ReportsUnlinked e) (u : DataflowId) :
    (s.view u).Unlinked e u := by
  intro d reported order nodes he hreported
  subst he
  exact h (u, nodes) hreported

theorem raises_step (hs : s.Sound) (hrec : (s.view u).Recorded) (hsync : (s.view u).InStep)
    (he : s.ReportsUnlinked e) :
    Relation.ReflTransGen (fun v v' => LifeStep s.cleared e u v v' ∧ v.Raises v')
      (s.cleared.view u) ((step s e).1.view u) ∧ ((step s e).1.view u).InStep := by
  let P (v : View) : Prop :=
    Relation.ReflTransGen (fun v v' => LifeStep s.cleared e u v v' ∧ v.Raises v') (s.cleared.view u) v ∧
      v.Recorded ∧ v.InStep ∧ v.Unlinked e u
  have hend : P ((step s e).1.view u) := by
    refine (hs.step_lives e u).keeps (fun v v' hstep hv => ?_)
      ⟨.refl, hrec, hsync, he.unlinked u⟩
    obtain ⟨hpath, hrecv, hsyncv, hunlinked⟩ := hv
    obtain ⟨hraises, hsync'⟩ := hstep.raises hrecv hsyncv hunlinked
    exact ⟨hpath.tail ⟨hstep, hraises⟩, hstep.recorded hrecv, hsync', hstep.unlinked hunlinked⟩
  exact ⟨hend.1, hend.2.2.1⟩

theorem inStep_reached {events : List Event} (hmeets : Meets step ReportsUnlinked {} events)
    (u : DataflowId) : ((reached events).view u).InStep := by
  induction events using List.reverseRecOn with
  | nil =>
    intro df record hentry
    cases (sound_initial.blank u (Nat.zero_le u)).1.symm.trans hentry
  | append_singleton events e ih =>
    obtain ⟨hearlier, he⟩ := (meets_concat step {} events e).mp hmeets
    rw [reached_concat]
    exact (raises_step (sound_reached events) (recorded_reached events u) (ih hearlier) he).2

/-- In a run without such reports an event takes every dataflow through steps that each leave its record
alone, delete it, or write it once with a greater generation. -/
theorem generations_increase {events : List Event} {e : Event}
    (hmeets : Meets step ReportsUnlinked {} (events ++ [e])) (u : DataflowId) :
    Relation.ReflTransGen (fun v v' => LifeStep (reached events).cleared e u v v' ∧ v.Raises v')
      ((reached events).cleared.view u) ((step (reached events) e).1.view u) := by
  obtain ⟨hearlier, he⟩ := (meets_concat step {} events e).mp hmeets
  exact (raises_step (sound_reached events) (recorded_reached events u) (inStep_reached hearlier u) he).1

/-- Both daemons report that their nodes have been spawned, and the dataflow is stopped. -/
theorem generations_increase_on_stop :
    let events := startedOnTwo ++ [Event.spawnResult 2 daemonA (.ok ()), .spawnResult 2 daemonB (.ok ())]
    let last := Event.stop 2 none false [daemonA, daemonB]
    ((reached events).store[2]?.map (·.generation)) = some 2 ∧
    ((step (reached events) last).1.store[2]?.map (·.generation)) = some 3 ∧
    Relation.ReflTransGen (fun v v' => LifeStep (reached events).cleared last 2 v v' ∧ v.Raises v')
      ((reached events).cleared.view 2) ((step (reached events) last).1.view 2) := by
  intro events last
  refine ⟨by decide +kernel, by decide +kernel, generations_increase ?_ 2⟩
  exact ⟨trivial, trivial, trivial, trivial, trivial, trivial, trivial⟩

/-- A daemon reports the dataflow while its spawn is still pending: the record is raised and the entry is
not, so that the next write repeats the generation. -/
theorem generation_repeated :
    let events := startedOnTwo ++ [Event.statusReport daemonA [(2, [⟨"camera"⟩])] [],
      .spawnResult 2 daemonA (.ok ())]
    let last := Event.spawnResult 2 daemonB (.ok ())
    ((reached events).store[2]?.map (·.generation)) = some 2 ∧
    ((step (reached events) last).1.store[2]?.map (·.generation)) = some 2 ∧
    (step (reached events) last).2.countP Effect.isWrite = 1 := by
  decide +kernel

end Coordinator

end Dora.Coord
