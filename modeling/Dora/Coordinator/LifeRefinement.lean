import Dora.Coordinator.Life

/-!
# Every event is a sequence of life steps

One lemma for each function of the coordinator says what it does to a view; the lemma for an event puts
these together. A function that works on another dataflow, or only sends something, leaves the view alone.
-/

namespace Dora.Coord

open Std Lib

variable {s s₀ : Coordinator} {u uuid : DataflowId} {df : RunningDataflow} {e : Event}

namespace Coordinator

/-! ## The primitive updates -/

theorem view_setDataflow_self : (s.setDataflow u df).view u = { s.view u with entry := some df } := by
  simp [setDataflow, view]

theorem view_setDataflow_of_ne (h : uuid ≠ u) : (s.setDataflow uuid df).view u = s.view u := by
  simp [setDataflow, view, TreeMap.getElem?_insert, h]

theorem view_removeDataflow_self : (s.removeDataflow u).view u = { s.view u with entry := none } := by
  simp [removeDataflow, view]

theorem view_removeDataflow_of_ne (h : uuid ≠ u) : (s.removeDataflow uuid).view u = s.view u := by
  simp [removeDataflow, view, TreeMap.getElem?_erase, h]

theorem view_removeRestart_self : (s.removeRestart u).view u = { s.view u with restart := none } := by
  simp [removeRestart, view]

theorem view_removeRestart_of_ne (h : uuid ≠ u) : (s.removeRestart uuid).view u = s.view u := by
  simp [removeRestart, view, TreeMap.getElem?_erase, h]

theorem view_putDataflow_self (record : DataflowRecord) :
    (s.putDataflow u record).view u = (s.view u).put u record := by
  simp [putDataflow, emit, view, View.put, Effect.concerns]

theorem view_putDataflow_of_ne (h : uuid ≠ u) (record : DataflowRecord) :
    (s.putDataflow uuid record).view u = s.view u := by
  simp [putDataflow, emit, view, TreeMap.getElem?_insert, Effect.concerns, h]

theorem view_persist_self (status : DataflowStatus) :
    (s.persist u df status).view u = (s.view u).persist u df status s.now := by
  rw [persist, view_setDataflow_self, view_putDataflow_self]
  rfl

theorem view_persist_of_ne (h : uuid ≠ u) (status : DataflowStatus) :
    (s.persist uuid df status).view u = s.view u := by
  rw [persist, view_setDataflow_of_ne h, view_putDataflow_of_ne h]

theorem view_answerAll_self (senders : List ReplySender) (result : Reply) :
    (s.answerAll u senders result).view u = (s.view u).answer u senders result := by
  simp [answerAll, view, View.answer, List.filter_map, Function.comp_def, Effect.concerns]

theorem view_answerAll_of_ne (h : uuid ≠ u) (senders : List ReplySender) (result : Reply) :
    (s.answerAll uuid senders result).view u = s.view u := by
  simp [answerAll, view, List.filter_map, Function.comp_def, Effect.concerns, h]

theorem view_reply (sender : ReplySender) (result : Reply) :
    (s.reply sender result).view u =
      { s.view u with effects := (s.view u).effects ++ [.reply none sender result] } := by
  simp [reply, emit, view, Effect.concerns]

theorem reply_lives {v : View} {result : Reply} (hlives : Lives s₀ e u v (s.view u))
    (hfree : (s.view u).custody s₀.nextSender = 0) :
    Lives s₀ e u v ((s.reply s₀.nextSender result).view u) := by
  rw [view_reply]
  exact hlives.tail (.answered result hfree)

theorem view_incarnation_self (sender : ReplySender) (new : DataflowId) :
    (s.emit (.incarnation sender u new)).view u =
      { s.view u with effects := (s.view u).effects ++ [.incarnation sender u new] } := by
  simp [emit, view, Effect.concerns]

theorem view_incarnation_of_ne (h : uuid ≠ u) (sender : ReplySender) (new : DataflowId) :
    (s.emit (.incarnation sender uuid new)).view u = s.view u := by
  simp [emit, view, Effect.concerns, h]

@[simp] theorem view_send (d : DaemonId) (command : Command) : (s.send d command).view u = s.view u := by
  unfold send
  split
  · rfl
  · split
    · rfl
    · simp [emit, view, Effect.concerns]

@[simp] theorem view_sendAll (daemons : List DaemonId) (command : Command) :
    (s.sendAll daemons command).view u = s.view u :=
  foldl_view_eq (view · u) fun _ d => view_send d command

@[simp] theorem view_rollback (daemons : List DaemonId) : (s.rollback uuid daemons).view u = s.view u :=
  view_sendAll daemons (.stopDataflow uuid none true)

theorem view_entry : (s.view u).entry = s.runningDataflows[u]? := rfl

theorem view_restart : (s.view u).restart = s.pendingRestarts[u]? := rfl

theorem view_cancelPendingRestart_self (reason : String) :
    (s.cancelPendingRestart u reason).view u = (s.view u).cancelRestart u reason := by
  unfold cancelPendingRestart View.cancelRestart
  rw [view_restart]
  cases s.pendingRestarts[u]? with
  | none => rfl
  | some restart =>
    dsimp only
    rw [view_answerAll_self, view_removeRestart_self]

theorem view_cancelPendingRestart_of_ne (h : uuid ≠ u) (reason : String) :
    (s.cancelPendingRestart uuid reason).view u = s.view u := by
  unfold cancelPendingRestart
  split
  · rfl
  · rw [view_answerAll_of_ne h, view_removeRestart_of_ne h]

theorem view_setSpawnResult_of_ne (h : uuid ≠ u) (result : Reply) :
    (s.setSpawnResult uuid df result).1.view u = s.view u := by
  unfold setSpawnResult
  split
  · exact view_answerAll_of_ne h _ _
  · rfl

/-! ## Results and archive -/

theorem view_updateResults_self
    (f : TreeMap DaemonId DaemonResult → TreeMap DaemonId DaemonResult) :
    (s.updateResults u f).view u =
      { s.view u with results := some (f ((s.view u).results.getD ∅)) } := by
  simp [updateResults, view, IndexMap.get?_upsert]

theorem view_updateResults_of_ne (h : uuid ≠ u)
    (f : TreeMap DaemonId DaemonResult → TreeMap DaemonId DaemonResult) :
    (s.updateResults uuid f).view u = s.view u := by
  simp [updateResults, view, IndexMap.get?_upsert, h]

theorem archived_lives {v : View} {b : Bool} (he : e.isReport = false) (h : b = true → v.archived = true) :
    Lives s₀ e u v { v with archived := b } := by
  cases b with
  | true =>
    have hsame : { v with archived := true } = v := by rw [← h rfl]
    rw [hsame]
  | false => exact .single (.archiveDropped he)

theorem view_archive :
    (s.archive uuid df).view u =
      { s.view u with archived := (s.archive uuid df).archivedDataflows.contains u } := by
  simp only [archive, view]

theorem archive_lives_self (he : e.isReport = false) :
    Lives s₀ e u { s.view u with archived := true } ((s.archive u df).view u) := by
  rw [view_archive]
  exact archived_lives (v := { s.view u with archived := true }) he fun _ => rfl

theorem archive_lives_of_ne (he : e.isReport = false) (h : uuid ≠ u) :
    Lives s₀ e u (s.view u) ((s.archive uuid df).view u) := by
  rw [view_archive]
  refine archived_lives he fun hkept => ?_
  simp only [archive] at hkept
  have hinserted := IndexMap.contains_of_contains_cap hkept
  rw [IndexMap.contains_orInsert] at hinserted
  simpa [h, view] using hinserted

theorem capDataflowResults_lives :
    Lives s₀ e u (s.view u) (s.capDataflowResults.view u) := by
  have hview : s.capDataflowResults.view u =
      { s.view u with results := s.capDataflowResults.dataflowResults.get? u } := by
    simp only [capDataflowResults, view]
  rw [hview]
  by_cases hrunning : s.runningDataflows.contains u = true
  · have hkept : s.capDataflowResults.dataflowResults.get? u = (s.view u).results := by
      simp only [capDataflowResults]
      exact IndexMap.get?_evict (by simp [hrunning]) _
    rw [hkept]
  · have hentry : (s.view u).entry = none := by simpa [view] using hrunning
    refine .single (.resultsCapped _ hentry fun hnone => ?_)
    simp only [capDataflowResults]
    exact IndexMap.get?_evict_eq_none hnone _

/-! ## Starts -/

variable {placed : TreeMap NodeId DaemonId}

theorem mem_daemonsOf {d : DaemonId} :
    d ∈ daemonsOf placed ↔ ∃ node : NodeId, placed[node]? = some d := by
  simp [daemonsOf, TreeSet.mem_ofList, TreeMap.mem_toList_iff_getElem?_eq_some]

theorem mem_connections_of_resolveDaemon {deploy : Option Deploy} {d : DaemonId}
    (h : s.resolveDaemon deploy = .ok d) : d ∈ s.daemonConnections := by
  have hkeys {p : DaemonId → Bool} (hfind : s.daemonConnections.keys.find? p = some d) :
      d ∈ s.daemonConnections := TreeMap.mem_keys.mp (List.mem_of_find?_eq_some hfind)
  unfold resolveDaemon at h
  split at h
  · split at h
    · rename_i hfind
      cases h
      exact hkeys hfind
    · cases h
  · split at h
    · rename_i hfind
      cases h
      obtain ⟨entry, hentry, rfl⟩ := Option.map_eq_some_iff.mp hfind
      have hmem := TreeMap.mem_toList_iff_getElem?_eq_some.mp (List.mem_of_find?_eq_some hentry)
      exact TreeMap.mem_iff_isSome_getElem?.mpr (by rw [hmem]; rfl)
    · cases h
  · split at h
    · rename_i hfind
      cases h
      exact hkeys hfind
    · cases h

theorem mem_connections_of_placeNodes {nodes : List (NodeId × Node)} (h : s.placeNodes nodes = .ok placed) :
    ∀ d ∈ daemonsOf placed, d ∈ s.daemonConnections := by
  induction nodes generalizing placed with
  | nil =>
    cases h
    intro d hd
    simp [mem_daemonsOf] at hd
  | cons entry nodes ih =>
    rw [placeNodes] at h
    split at h
    · cases h
    · rename_i d' hresolved
      split at h
      · cases h
      · rename_i placed' hplaced
        cases h
        intro d hd
        obtain ⟨node, hnode⟩ := mem_daemonsOf.mp hd
        rw [TreeMap.getElem?_insert] at hnode
        split at hnode
        · cases hnode
          exact mem_connections_of_resolveDaemon hresolved
        · exact ih hplaced d (mem_daemonsOf.mpr ⟨node, hnode⟩)

@[simp] theorem view_spawnOn (placed : TreeMap NodeId DaemonId) (uv : Bool)
    (accepting spawned daemons : List DaemonId) :
    (s.spawnOn uuid placed uv accepting spawned daemons).1.view u = s.view u := by
  induction daemons generalizing s spawned with
  | nil => rfl
  | cons d daemons ih =>
    rw [spawnOn]
    split
    · rw [ih, view_send]
    · rw [view_rollback, view_send]

theorem startDataflow_cases (descriptor : Descriptor) (name : Option String) (uv : Bool)
    (accepting : List DaemonId) :
    (∃ s' error, s.startDataflow descriptor name uv accepting = (s', .error error) ∧
      ∀ u, s'.view u = s.view u) ∨
    ∃ s' nodes placed, s.startDataflow descriptor name uv accepting =
        (s', .ok (s.nextUuid, freshDataflow descriptor name nodes placed uv s'.now)) ∧
      (∀ d ∈ daemonsOf placed, d ∈ s.daemonConnections) ∧ ∀ u, s'.view u = s.view u := by
  unfold startDataflow
  split
  · exact .inl ⟨s, _, rfl, fun _ => rfl⟩
  · rename_i nodes hresolve
    dsimp only
    split
    · exact .inl ⟨s, _, rfl, fun _ => rfl⟩
    · rename_i placed hplaced
      split
      · rename_i s' error hspawn
        refine .inl ⟨s', error, rfl, fun u => ?_⟩
        rw [← view_spawnOn (s := s) placed uv accepting [] (daemonsOf placed).toList, hspawn]
      · rename_i s' hspawn
        refine .inr ⟨s', nodes, placed, rfl, mem_connections_of_placeNodes hplaced, fun u => ?_⟩
        rw [← view_spawnOn (s := s) placed uv accepting [] (daemonsOf placed).toList, hspawn]

theorem admitStarted_lives {descriptor : Descriptor} {name : Option String}
    {nodes : TreeMap NodeId Node} {uv : Bool}
    (he : s₀.nextUuid = u → e.mayStart s₀ u) (hblank : (s.view s₀.nextUuid).Blank)
    (hplaced : ∀ d ∈ daemonsOf placed, d ∈ s₀.daemonConnections) :
    Lives s₀ e u (s.view u)
      ((s.admitStarted s₀.nextUuid (freshDataflow descriptor name nodes placed uv s.now)).view u) := by
  unfold admitStarted
  by_cases hu : s₀.nextUuid = u
  · subst hu
    rw [view_persist_self]
    exact .single (.started descriptor name nodes placed uv s.now (he rfl) rfl hblank hplaced)
  · rw [view_persist_of_ne hu]

theorem custody_persist_fresh {v : View} {sender : ReplySender} {descriptor : Descriptor}
    {name : Option String} {nodes : TreeMap NodeId Node} {uv : Bool} {now : Nat} (hblank : v.Blank) :
    (v.persist u (freshDataflow descriptor name nodes placed uv now) .pending now).custody sender =
      v.custody sender := by
  simp [View.custody, View.persist, View.put, View.parked, RunningDataflow.parked,
    RunningDataflow.bumpGeneration, freshDataflow, CachedResult.waiters, Effect.repliesTo, hblank.1,
    hblank.2.2.1]

theorem handleStart_lives (name : Option String) (descriptor : Descriptor) (uv : Bool)
    (accepting : List DaemonId) (he : e = .start name descriptor uv accepting)
    (hblank : (s.view s.nextUuid).Blank) (hfree : (s.view u).custody s.nextSender = 0) :
    Lives s e u (s.view u) ((s.handleStart s.nextSender name descriptor uv accepting).view u) := by
  unfold handleStart
  split
  · exact reply_lives .refl hfree
  · rcases s.startDataflow_cases descriptor name uv accepting with
      ⟨s', error, hstart, hview⟩ | ⟨s', nodes, placed, hstart, hplaced, hview⟩
    · rw [hstart]
      exact reply_lives (by rw [hview]) (by rwa [hview])
    · rw [hstart]
      rw [← hview u] at hfree ⊢
      rw [← hview s.nextUuid] at hblank
      refine reply_lives (admitStarted_lives (fun _ => by rw [he]; trivial) hblank hplaced) ?_
      unfold admitStarted
      by_cases hu : s.nextUuid = u
      · subst hu
        rw [view_persist_self, custody_persist_fresh hblank, hfree]
      · rwa [view_persist_of_ne hu]

/-! ## Failed spawns -/

end Coordinator

namespace View

variable (v : View) (reason : String)

@[simp] theorem cancelRestart_entry : (v.cancelRestart u reason).entry = v.entry := by
  unfold cancelRestart
  split <;> rfl

@[simp] theorem cancelRestart_record : (v.cancelRestart u reason).record = v.record := by
  unfold cancelRestart
  split <;> rfl

@[simp] theorem cancelRestart_results : (v.cancelRestart u reason).results = v.results := by
  unfold cancelRestart
  split <;> rfl

theorem cancelRestart_archived : (v.cancelRestart u reason).archived = v.archived := by
  unfold cancelRestart
  split <;> rfl

@[simp] theorem replay_entry (released : Bool) (d : DaemonId) :
    (v.replay u released d).entry = v.entry := by
  cases released <;> rfl

@[simp] theorem replay_record (released : Bool) (d : DaemonId) :
    (v.replay u released d).record = v.record := by
  cases released <;> rfl

@[simp] theorem replay_results (released : Bool) (d : DaemonId) :
    (v.replay u released d).results = v.results := by
  cases released <;> rfl

theorem replay_archived (released : Bool) (d : DaemonId) :
    (v.replay u released d).archived = v.archived := by
  cases released <;> rfl

theorem cancelRestart_forget_entry (entry : Option RunningDataflow) :
    { { v with entry := entry }.cancelRestart u reason with entry := none } =
      { v with entry := none }.cancelRestart u reason := by
  unfold cancelRestart
  cases v.restart <;> rfl

@[simp] theorem put_effects (record : DataflowRecord) :
    (v.put u record).effects = v.effects ++ [.persisted u record.status] := rfl

@[simp] theorem answer_effects (senders : List ReplySender) (result : Reply) :
    (v.answer u senders result).effects =
      v.effects ++ senders.map fun sender => .reply (some u) sender result := rfl

@[simp] theorem cancelRestart_effects : (v.cancelRestart u reason).effects =
    v.effects ++ v.restart.toList.map fun restart => .reply (some u) restart.replySender (.error reason) := by
  unfold cancelRestart
  cases v.restart with
  | none => exact (List.append_nil _).symm
  | some => rfl

@[simp] theorem replay_effects (released : Bool) (d : DaemonId) :
    (v.replay u released d).effects = v.effects ++ if released then [.replay u d] else [] := by
  cases released with
  | false => exact (List.append_nil _).symm
  | true => rfl

theorem custody_put (record : DataflowRecord) (x : ReplySender) :
    (v.put u record).custody x = v.custody x := by
  simp [custody, put, parked, Effect.repliesTo]

theorem custody_answer (senders : List ReplySender) (result : Reply) (x : ReplySender) :
    (v.answer u senders result).custody x = v.custody x + senders.count x := by
  have hcount : (senders.map fun sender => Effect.reply (some u) sender result).countP
      (·.repliesTo x) = senders.count x := by
    rw [List.countP_map, List.count]
    exact List.countP_congr fun sender _ => by simp [Effect.repliesTo]
  simp only [custody, answer, parked, List.countP_append, hcount]
  omega

theorem custody_cancelRestart (x : ReplySender) :
    (v.cancelRestart u reason).custody x = v.custody x := by
  unfold cancelRestart
  split
  · rfl
  · rename_i restart hrestart
    rw [custody_answer]
    simp only [custody, parked, hrestart, Option.toList_none, Option.toList_some, List.map_nil,
      List.map_cons, List.append_nil, List.count_append]
    omega

end View

namespace Coordinator

variable {results : TreeMap DaemonId DaemonResult}

theorem stopResult_of_results
    (h : (s.view u).results = some results) : s.stopResult u = dataflowResult results u := by
  unfold stopResult
  have hget : s.dataflowResults.get? u = some results := h
  rw [hget]

theorem teardownFailedSpawn_lives_self (he : e.isReport = false) (hentry : (s.view u).entry = some df)
    (errMsg : String) (daemons : List DaemonId) :
    Lives s₀ e u ((s.view u).teardown u df errMsg s.nextUuid)
      ((s.teardownFailedSpawn u errMsg daemons).view u) := by
  have hrolled : (s.rollback u daemons).runningDataflows[u]? = some df := by
    rw [← view_entry, view_rollback, hentry]
  simp only [teardownFailedSpawn, hrolled]
  refine .trans ?_ (Relation.ReflTransGen.trans (archive_lives_self he) capDataflowResults_lives)
  rw [answerStops, view_answerAll_self, stopResult_of_results (by rw [view_updateResults_self]),
    view_updateResults_self, view_cancelPendingRestart_self, view_removeDataflow_self, view_rollback]
  simp only [View.cancelRestart_results]
  exact .refl

theorem teardownFailedSpawn_lives_of_ne (he : e.isReport = false) (h : uuid ≠ u) (errMsg : String)
    (daemons : List DaemonId) :
    Lives s₀ e u (s.view u) ((s.teardownFailedSpawn uuid errMsg daemons).view u) := by
  unfold teardownFailedSpawn
  dsimp only
  split
  · rw [view_rollback]
  · refine .trans ?_ (Relation.ReflTransGen.trans (archive_lives_of_ne he h) capDataflowResults_lives)
    rw [answerStops, view_answerAll_of_ne h, view_updateResults_of_ne h,
      view_cancelPendingRestart_of_ne h, view_removeDataflow_of_ne h, view_rollback]

/-! ## Spawn results -/

theorem setSpawnResult_of_pending {senders : List ReplySender} (result : Reply)
    (h : df.spawnResult = .pending senders) :
    s.setSpawnResult u df result =
      (s.answerAll u senders result, { df with spawnResult := .cached result }) := by
  simp [setSpawnResult, h]

theorem handleSpawnResultOk_lives (d : DaemonId) (he : e = .spawnResult u d (.ok ()))
    (hentry : (s.view u).entry = some df) :
    Lives s₀ e u (s.view u) ((s.handleSpawnResultOk u (df.spawnReported d)).view u) := by
  unfold handleSpawnResultOk
  split
  · rename_i hdone
    rw [Bool.and_eq_true] at hdone
    obtain ⟨senders, hpending⟩ := CachedResult.exists_of_isPending hdone.1
    rw [setSpawnResult_of_pending _ hpending]
    dsimp only
    rw [view_persist_self, view_answerAll_self]
    exact .single (.spawned d senders _ he hentry hpending)
  · rw [view_setDataflow_self]
    exact .single (.spawnReported d _ he hentry)

theorem view_handleSpawnResultErr_self {senders : List ReplySender} (err : String)
    (hpending : df.spawnResult = .pending senders) :
    (s.handleSpawnResultErr u df err).view u =
      { ((s.view u).put u (df.makeRecord (.failed ("spawn failed: " ++ err) true) s.now)).answer u
          senders (.error err) with
        entry := some { df.bumpGeneration with spawnResult := .cached (.error err) } } := by
  have hbumped : df.bumpGeneration.spawnResult = .pending senders := hpending
  simp only [handleSpawnResultErr, hpending, CachedResult.isPending, if_true,
    setSpawnResult_of_pending _ hbumped]
  rw [view_setDataflow_self, view_answerAll_self, view_putDataflow_self]

theorem view_handleSpawnResultErr_of_ne (h : uuid ≠ u) (err : String) :
    (s.handleSpawnResultErr uuid df err).view u = s.view u := by
  unfold handleSpawnResultErr
  split
  · dsimp only
    rw [view_setDataflow_of_ne h, view_setSpawnResult_of_ne h, view_putDataflow_of_ne h]
  · exact view_setDataflow_of_ne h

theorem view_handleSpawnResultOk_of_ne (h : uuid ≠ u) :
    (s.handleSpawnResultOk uuid df).view u = s.view u := by
  unfold handleSpawnResultOk
  split
  · dsimp only
    rw [view_persist_of_ne h, view_setSpawnResult_of_ne h]
  · exact view_setDataflow_of_ne h

theorem handleDataflowSpawnResult_lives_self (d : DaemonId) (result : Except String Unit)
    (he : e = .spawnResult u d result) :
    Lives s₀ e u (s.view u) ((s.handleDataflowSpawnResult u d result).view u) := by
  unfold handleDataflowSpawnResult
  split
  · rename_i df hentry
    cases result with
    | ok => exact handleSpawnResultOk_lives d he hentry
    | error err =>
      dsimp only
      split
      · rename_i hispending
        obtain ⟨senders, hpending⟩ := CachedResult.exists_of_isPending hispending
        have hreported : (df.spawnReported d).spawnResult = .pending senders := hpending
        have hfailed := view_handleSpawnResultErr_self (s := s) (u := u) err hreported
        have htorn : Lives s₀ e u _ _ := teardownFailedSpawn_lives_self (he ▸ rfl)
          (congrArg View.entry hfailed) s!"spawn failed on daemon `{d.display}`: {err}"
          (startedDaemons (df.spawnReported d))
        rw [hfailed] at htorn
        exact .head (.spawnFailed d err _ s.now senders _ he hentry hpending) htorn
      · rename_i hcached
        rw [handleSpawnResultErr, if_neg hcached, view_setDataflow_self]
        exact .single (.spawnReported d _ he hentry)
  · split
    · split
      · rw [view_rollback]
      · exact .refl
    · exact .refl

theorem handleDataflowSpawnResult_lives_of_ne (he : e.isReport = false) (h : uuid ≠ u) (d : DaemonId)
    (result : Except String Unit) :
    Lives s₀ e u (s.view u) ((s.handleDataflowSpawnResult uuid d result).view u) := by
  unfold handleDataflowSpawnResult
  split
  · split
    · rw [view_handleSpawnResultOk_of_ne h]
    · dsimp only
      split
      · rw [← view_handleSpawnResultErr_of_ne h]
        exact teardownFailedSpawn_lives_of_ne he h _ _
      · rw [view_handleSpawnResultErr_of_ne h]
  · split
    · split
      · rw [view_rollback]
      · exact .refl
    · exact .refl

/-! ## The spawn watchdog -/

theorem failStuckSpawn_lives_self (full : List DaemonId) (order : List DataflowId)
    (he : e = .heartbeatInterval full order) (errMsg : String) (daemons : List DaemonId)
    (hpending : ∀ df, s.runningDataflows[u]? = some df → df.spawnResult.isPending = true) :
    Lives s₀ e u (s.view u) ((s.failStuckSpawn u errMsg daemons).view u) := by
  unfold failStuckSpawn
  cases hentry : s.runningDataflows[u]? with
  | none =>
    have hrolled : (s.rollback u daemons).runningDataflows[u]? = none := by
      rw [← view_entry, view_rollback, view_entry, hentry]
    simp only [teardownFailedSpawn, hrolled, view_rollback]
    exact .refl
  | some df =>
    obtain ⟨senders, hsenders⟩ := CachedResult.exists_of_isPending (hpending df hentry)
    simp only [setSpawnResult_of_pending _ hsenders]
    let df' : RunningDataflow := { df with spawnResult := .cached (.error errMsg) }
    let answered := s.answerAll u senders (.error errMsg)
    have hfailed : (answered.persist u df' (.failed errMsg true)).view u =
        ((s.view u).answer u senders (.error errMsg)).persist u df' (.failed errMsg true) s.now := by
      rw [view_persist_self, view_answerAll_self]
      rfl
    have htorn : Lives s₀ e u _ _ :=
      teardownFailedSpawn_lives_self (he ▸ rfl) (congrArg View.entry hfailed) errMsg daemons
    rw [hfailed] at htorn
    exact .head (.spawnTimedOut full order errMsg s.now senders _ he hentry hsenders) htorn

theorem failStuckSpawn_lives_of_ne (he : e.isReport = false) (h : uuid ≠ u) (errMsg : String)
    (daemons : List DaemonId) :
    Lives s₀ e u (s.view u) ((s.failStuckSpawn uuid errMsg daemons).view u) := by
  unfold failStuckSpawn
  refine .trans ?_ (teardownFailedSpawn_lives_of_ne he h _ _)
  split
  · exact .refl
  · dsimp only
    rw [view_persist_of_ne h, view_setSpawnResult_of_ne h]

@[simp] theorem runningDataflows_send (d : DaemonId) (command : Command) :
    (s.send d command).runningDataflows = s.runningDataflows := by
  unfold send
  split
  · rfl
  · split <;> rfl

@[simp] theorem runningDataflows_rollback (daemons : List DaemonId) :
    (s.rollback uuid daemons).runningDataflows = s.runningDataflows :=
  foldl_view_eq runningDataflows fun _ d => runningDataflows_send d _

@[simp] theorem runningDataflows_cancelPendingRestart (reason : String) :
    (s.cancelPendingRestart uuid reason).runningDataflows = s.runningDataflows := by
  unfold cancelPendingRestart
  split <;> rfl

theorem getElem?_teardownFailedSpawn (errMsg : String) (daemons : List DaemonId) :
    (s.teardownFailedSpawn uuid errMsg daemons).runningDataflows[u]? =
      if uuid = u then none else s.runningDataflows[u]? := by
  unfold teardownFailedSpawn
  dsimp only
  split
  · rename_i hnone
    rw [runningDataflows_rollback] at hnone ⊢
    split
    · rename_i heq
      rw [← heq, hnone]
    · rfl
  · simp only [capDataflowResults, archive, answerStops, answerAll, updateResults, removeDataflow,
      runningDataflows_cancelPendingRestart, runningDataflows_rollback]
    simp [TreeMap.getElem?_erase]

theorem getElem?_failStuckSpawn (errMsg : String) (daemons : List DaemonId) :
    (s.failStuckSpawn uuid errMsg daemons).runningDataflows[u]? =
      if uuid = u then none else s.runningDataflows[u]? := by
  rw [failStuckSpawn, getElem?_teardownFailedSpawn]
  split
  · rfl
  · rename_i hne
    split
    · rfl
    · dsimp only
      rw [← view_entry, view_persist_of_ne hne, view_setSpawnResult_of_ne hne, view_entry]

theorem checkSpawnTimeouts_lives (full : List DaemonId) (order : List DataflowId)
    (he : e = .heartbeatInterval full order) :
    Lives s₀ e u (s.view u) ((s.checkSpawnTimeouts order).view u) := by
  unfold checkSpawnTimeouts
  -- the entry of `u` stays as it was found until its own round removes it
  let P (s' : Coordinator) : Prop :=
    ∀ df, s'.runningDataflows[u]? = some df → s.runningDataflows[u]? = some df
  refine foldl_moves (view · u) P ?_ ?_ fun _ hdf => hdf
  · intro s' entry _ hP df hdf
    rw [getElem?_failStuckSpawn] at hdf
    split at hdf
    · cases hdf
    · exact hP df hdf
  · intro s' entry hmem hP
    by_cases hu : entry.1 = u
    · subst hu
      refine failStuckSpawn_lives_self full order he _ _ fun df hdf => ?_
      obtain ⟨uuid, _, hstuck⟩ := List.mem_filterMap.mp hmem
      split at hstuck
      · rename_i found hfound
        split at hstuck
        · rename_i htimedOut
          cases hstuck
          have hsame : found = df := Option.some.inj (hfound.symm.trans (hP df hdf))
          rw [← hsame]
          exact (Bool.and_eq_true _ _ ▸ htimedOut).1
        · cases hstuck
      · cases hstuck
    · exact failStuckSpawn_lives_of_ne (he ▸ rfl) hu _ _

/-! ## Finishing -/

theorem completeRestart_lives_of_ne (h : uuid ≠ u) (hnext : s.nextUuid = s₀.nextUuid)
    (hne : uuid ≠ s₀.nextUuid) (he : s.pendingRestarts[uuid]? ≠ none → e.mayStart s₀ u)
    (hblank : (s.view s₀.nextUuid).Blank)
    (hconn : s.daemonConnections = s₀.daemonConnections) (accepting : List DaemonId) :
    Lives s₀ e u (s.view u) ((s.completeRestart uuid accepting).view u) := by
  unfold completeRestart
  split
  · exact .refl
  · rename_i restart hrestart
    rcases (s.removeRestart uuid).startDataflow_cases restart.descriptor restart.name restart.uv
      accepting with ⟨s', error, hstart, hview⟩ | ⟨s', nodes, placed, hstart, hplaced, hview⟩
    · simp only [hstart]
      rw [view_answerAll_of_ne h, hview, view_removeRestart_of_ne h]
    · simp only [hstart]
      rw [view_incarnation_of_ne h, view_answerAll_of_ne h, ← view_removeRestart_of_ne h, ← hview]
      have hnew : (s.removeRestart uuid).nextUuid = s₀.nextUuid := hnext
      rw [hnew]
      have hwaiting : s.pendingRestarts[uuid]? ≠ none := by
        rw [hrestart]
        exact Option.some_ne_none restart
      refine admitStarted_lives (fun _ => he hwaiting) ?_ fun d hd => hconn ▸ hplaced d hd
      rwa [hview, view_removeRestart_of_ne hne]

theorem view_completeRestart_self (hnext : s.nextUuid ≠ u) (accepting : List DaemonId) :
    ∃ answers, RestartAnswer u answers (s.view u).restart ∧
      (s.completeRestart u accepting).view u =
        { s.view u with restart := none, effects := (s.view u).effects ++ answers } := by
  unfold completeRestart
  cases hrestart : s.pendingRestarts[u]? with
  | none =>
    have hv : (s.view u).restart = none := hrestart
    have hsame : { s.view u with restart := none } = s.view u := by rw [← hv]
    exact ⟨[], by rw [hv]; rfl, by rw [List.append_nil]; exact hsame.symm⟩
  | some restart =>
    have hv : (s.view u).restart = some restart := hrestart
    rw [hv]
    rcases (s.removeRestart u).startDataflow_cases restart.descriptor restart.name restart.uv
      accepting with ⟨s', error, hstart, hview⟩ | ⟨s', nodes, placed, hstart, hplaced, hview⟩
    · refine ⟨_, .inl ⟨"failed to start restarted dataflow: " ++ error, rfl⟩, ?_⟩
      simp only [hstart]
      rw [view_answerAll_self, hview, view_removeRestart_self]
      rfl
    · have hnew : (s.removeRestart u).nextUuid = s.nextUuid := rfl
      refine ⟨_, .inr ⟨s.nextUuid, rfl⟩, ?_⟩
      simp only [hstart, hnew]
      rw [view_incarnation_self, view_answerAll_self, admitStarted, view_persist_of_ne hnext, hview,
        view_removeRestart_self]
      simp [View.answer]

theorem view_concludeDataflow_self
    (hresults : (s.view u).results = some results) (hnext : s.nextUuid ≠ u)
    (accepting : List DaemonId) :
    ∃ answers now archived, RestartAnswer u answers (s.view u).restart ∧
      (s.concludeDataflow u df accepting).view u =
        { s.view u with archived := archived }.conclude u df results answers now := by
  let left := (s.archive u df).removeDataflow u
  have hleft : left.view u =
      { s.view u with
        entry := none, archived := (s.archive u df).archivedDataflows.contains u } := by
    rw [view_removeDataflow_self, view_archive]
  have hnextLeft : left.nextUuid ≠ u := by simpa only [left, removeDataflow, archive] using hnext
  obtain ⟨answers, hanswers, hcompleted⟩ := view_completeRestart_self hnextLeft accepting
  have hkept : ((left.completeRestart u accepting).view u).results = some results := by
    rw [hcompleted, hleft]
    exact hresults
  rw [hleft] at hanswers
  refine ⟨answers, (left.completeRestart u accepting).now,
    (s.archive u df).archivedDataflows.contains u, hanswers, ?_⟩
  have hget : (left.completeRestart u accepting).dataflowResults.get? u = some results := hkept
  unfold concludeDataflow
  dsimp only
  rw [view_answerAll_self, answerStops, view_answerAll_self, view_putDataflow_self, hcompleted,
    stopResult_of_results hkept, hget, hleft]
  rfl

theorem handleFinishedOnDaemon_lives_self (d : DaemonId) (result : DaemonResult)
    (accepting : List DaemonId) (he : e = .finishedOnDaemon u d result accepting)
    (hblank : (s.view s.nextUuid).Blank) :
    Lives s₀ e u (s.view u) ((s.handleFinishedOnDaemon u d result accepting).view u) := by
  unfold handleFinishedOnDaemon
  split
  · rename_i df hentry
    have hnext : s.nextUuid ≠ u := fun heq => by
      have hnone := hblank.1
      rw [heq, view_entry, hentry] at hnone
      cases hnone
    have hupdated := view_updateResults_self (s := s) (u := u) (·.insert d result)
    dsimp only
    split
    · rename_i hlast
      refine .trans ?_ capDataflowResults_lives
      obtain ⟨answers, now, archived, hanswers, hconcluded⟩ := view_concludeDataflow_self
        (congrArg View.results hupdated) hnext accepting
      rw [hconcluded, hupdated]
      refine .head (.concluded d result accepting now answers he hentry hlast ?_) ?_
      · rw [hupdated] at hanswers
        exact hanswers
      · exact archived_lives (v := View.conclude u _ _ _ _ _) (he ▸ rfl) fun _ => rfl
    · rename_i hmore
      refine .trans ?_ capDataflowResults_lives
      rw [view_setDataflow_self, hupdated]
      exact .single (.partFinished d result accepting he hentry (by simpa using hmore))
  · rename_i hentry
    split
    · rename_i harchived
      refine .trans ?_ capDataflowResults_lives
      rw [view_updateResults_self]
      exact .single (.resultsMerged d result accepting _ he hentry harchived)
    · exact capDataflowResults_lives

theorem blank_archive (h : uuid ≠ u) (hblank : (s.view u).Blank) :
    ((s.archive uuid df).view u).Blank := by
  rw [view_archive]
  refine ⟨hblank.1, hblank.2.1, hblank.2.2.1, hblank.2.2.2.1, ?_⟩
  rw [Bool.eq_false_iff]
  intro hkept
  simp only [archive] at hkept
  have hinserted := IndexMap.contains_of_contains_cap hkept
  rw [IndexMap.contains_orInsert] at hinserted
  have hbefore : (s.view u).archived = true := by simpa [h, view] using hinserted
  rw [hblank.2.2.2.2] at hbefore
  cases hbefore

theorem handleFinishedOnDaemon_lives_of_ne (h : uuid ≠ u) (d : DaemonId) (result : DaemonResult)
    (accepting : List DaemonId) (he : e = .finishedOnDaemon uuid d result accepting)
    (hblank : (s.view s.nextUuid).Blank) :
    Lives s e u (s.view u) ((s.handleFinishedOnDaemon uuid d result accepting).view u) := by
  unfold handleFinishedOnDaemon
  split
  · rename_i df hentry
    have hne : uuid ≠ s.nextUuid := fun heq => by
      have hnone := hblank.1
      rw [← heq, view_entry, hentry] at hnone
      cases hnone
    dsimp only
    split
    · refine .trans ?_ capDataflowResults_lives
      unfold concludeDataflow
      dsimp only
      rw [view_answerAll_of_ne h, answerStops, view_answerAll_of_ne h, view_putDataflow_of_ne h]
      refine .trans ?_ (completeRestart_lives_of_ne h ?_ hne ?_ ?_ ?_ accepting)
      · rw [view_removeDataflow_of_ne h, ← view_updateResults_of_ne h (·.insert d result)]
        exact archive_lives_of_ne (he ▸ rfl) h
      · simp only [removeDataflow, archive, updateResults]
      · intro hwaiting
        rw [he]
        exact ⟨h, hwaiting⟩
      · rw [view_removeDataflow_of_ne hne]
        refine blank_archive hne ?_
        rwa [view_updateResults_of_ne hne]
      · simp only [removeDataflow, archive, updateResults]
    · refine .trans ?_ capDataflowResults_lives
      rw [view_setDataflow_of_ne h, view_updateResults_of_ne h]
  · split
    · refine .trans ?_ capDataflowResults_lives
      rw [view_updateResults_of_ne h]
    · exact capDataflowResults_lives

end Coordinator

end Dora.Coord
