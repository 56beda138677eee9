import Dora.Coordinator.ParamAcks

/-!
# Catching up after a reconnect

A status report makes the coordinator send log entries, or start replays of rows, or both. From then on
every key of the daemon's nodes is settled: its trail ends with its row, or its row is still to be sent by a
task or by the fallback replay. The log is shared by all daemons of the dataflow, and a daemon stops at the
first entry for a node that it does not run: the catch-up is complete where no such entry comes before one of
the daemon's own, and where its ack is right about what its nodes have or nothing but the rows counts.
-/

namespace Dora.Coord

open Std Lib

namespace ParamWorld

variable {w w' : ParamWorld} {d : DaemonId} {k : ParamKey} {e : ParamEvent} {df : ParamDataflow}

/-- The row of `k` is among what a replay task or the fallback replay has still to send. -/
def Owed (w : ParamWorld) (k : ParamKey) : Prop :=
  w.row k ≠ none ∧
    ((∃ t ∈ w.tasks, t.daemon = w.home k.1 ∧ (k.1 ∈ t.nodes ∨ ⟨k, w.row k⟩ ∈ t.items)) ∨
      ∃ items failed, w.loop = .replaying (w.home k.1) items failed ∧ ⟨k, w.row k⟩ ∈ items)

/-- The node ends up with the row of `k`, once everything that is under way has arrived. -/
def Settled (w : ParamWorld) (k : ParamKey) : Prop :=
  w.loop.forwards = some k ∨ lastImage none (w.trail k) = w.row k ∨ w.Owed k

/-- The replays for `d` go on, and every read and send of theirs succeeds. -/
def ReplaysSucceed (w : ParamWorld) (d : DaemonId) : ParamEvent → Prop
  | .taskRead i readable => ∀ t ∈ w.tasks[i]?, t.daemon = d → readable = true
  | .taskSend i sent => ∀ t ∈ w.tasks[i]?, t.daemon = d → sent = true ∧ (w.links d).isSome
  | .replayItem outcome => w.loop.replays = some d → outcome ≠ .failed ∧ (w.links d).isSome
  | .connectionLost d' | .connect d' => d' ≠ d
  | _ => True

theorem lastImage_trail_put {c : ParamChange} (hhome : w.home c.key.1 = d) (hlink : (w.links d).isSome) :
    lastImage none ((w.put d (.param c)).trail c.key) = c.image := by
  rw [trail_put, if_pos ⟨hhome, hlink⟩, deliverable, if_pos hhome, changesOf_cons, if_pos rfl]
  exact lastImage_concat

theorem trail_of_links (hk : w.home k.1 = d) (hlink : w.links d = some []) :
    w.trail k = changesOf k w.handed := by
  rw [trail, onTheWay, hk, hlink]
  simp

namespace Owed

theorem mono (h : Owed w k) (hhome : w'.home = w.home) (hrow : w'.row k = w.row k)
    (htasks : ∀ t ∈ w.tasks, t.daemon = w.home k.1 → t ∈ w'.tasks)
    (hloop : ∀ items failed, w.loop = .replaying (w.home k.1) items failed → w'.loop = w.loop) :
    Owed w' k := by
  obtain ⟨hne, howed⟩ := h
  refine ⟨hrow ▸ hne, ?_⟩
  rw [hrow, hhome]
  rcases howed with ⟨t, ht, hd, hk⟩ | ⟨items, failed, hreplay, hk⟩
  · exact .inl ⟨t, htasks t ht hd, hd, hk⟩
  · exact .inr ⟨items, failed, (hloop items failed hreplay).trans hreplay, hk⟩

/-- Only the task at `i` has changed. -/
theorem setTask {i : Nat} {t t' : ReplayTask} (h : Owed w k) (ht : w.tasks[i]? = some t)
    (hhome : w'.home = w.home) (hrow : w'.row k = w.row k) (htasks : w'.tasks = w.tasks.set i t')
    (hloop : w'.loop = w.loop) (hd : t'.daemon = t.daemon)
    (hkeeps : t.daemon = w.home k.1 → (k.1 ∈ t.nodes ∨ ⟨k, w.row k⟩ ∈ t.items) →
      k.1 ∈ t'.nodes ∨ ⟨k, w.row k⟩ ∈ t'.items) : Owed w' k := by
  obtain ⟨hne, howed⟩ := h
  refine ⟨hrow ▸ hne, ?_⟩
  rw [hrow, hhome, hloop, htasks]
  refine howed.imp_left ?_
  rintro ⟨s, hs, hsd, hk⟩
  obtain ⟨j, hj⟩ := List.mem_iff_getElem?.mp hs
  by_cases hij : i = j
  · subst hij
    obtain rfl : t = s := Option.some.inj (ht.symm.trans hj)
    exact ⟨t', List.mem_set (List.getElem?_eq_some_iff.mp ht).1 t', hd.trans hsd, hkeeps hsd hk⟩
  · exact ⟨s, List.mem_of_getElem? (by rw [List.getElem?_set_ne hij, hj]), hsd, hk⟩

theorem continueReplay {item : ParamChange} {items : List ParamChange} {failed failed' : Nat}
    (h : Owed w k) (hloop : w.loop = .replaying d (item :: items) failed) (hhome : w'.home = w.home)
    (hrow : w'.row k = w.row k) (htasks : w'.tasks = w.tasks)
    (hitem : d = w.home k.1 → item ≠ ⟨k, w.row k⟩) : Owed (w'.continueReplay d items failed') k := by
  have hsame := SameTraffic.continueReplay (w := w') (d := d) items failed'
  have htasks' : (w'.continueReplay d items failed').tasks = w.tasks := by
    rw [← htasks]
    cases items <;> rfl
  obtain ⟨hne, howed⟩ := h
  refine ⟨by rwa [hsame.row, hrow], ?_⟩
  rw [hsame.row, hrow, hsame.home, hhome, htasks']
  refine howed.imp_right ?_
  rintro ⟨items', failed'', hreplay, hk⟩
  rw [hloop] at hreplay
  injection hreplay with hd hitems
  subst hd hitems
  rcases List.mem_cons.mp hk with hk | hk
  · exact absurd hk.symm (hitem rfl)
  · obtain ⟨c, cs, rfl⟩ := List.exists_cons_of_ne_nil (List.ne_nil_of_mem hk)
    exact ⟨_, failed', rfl, hk⟩

end Owed

theorem tasks_report (w : ParamWorld) (d : DaemonId) (runningNodes : List NodeId) (now : Nat)
    (unreadable : List NodeId) :
    w.tasks ⊆ (w.handleDaemonStatusReport d runningNodes now unreadable).tasks := by
  rw [handleDaemonStatusReport, (frame_stateCatchUp _ d now unreadable).2.2]
  generalize runningNodes.filter _ = reported
  have hsame : (w.reestablish d reported).tasks = w.tasks := by
    unfold reestablish
    split <;> rfl
  rw [← hsame]
  unfold replayAllNodesReady
  split
  · split
    · exact List.subset_append_left _ _
    · exact List.Subset.refl _
  · exact List.Subset.refl _

/-- A row that is owed stays so until it is put on the connection or handed to the node. -/
theorem Move.owed (hmove : Move w e w') (hk : w.home k.1 = d) (he : w.ReplaysSucceed d e)
    (hrow : w'.row k = w.row k) (howed : Owed w k) :
    Owed w' k ∨ lastImage none (w'.trail k) = w'.row k := by
  have hmono (htasks : ∀ t ∈ w.tasks, t.daemon = d → t ∈ w'.tasks)
      (hloop : ∀ items failed, w.loop = .replaying (w.home k.1) items failed → w'.loop = w.loop) :
      Owed w' k := howed.mono hmove.places.2 hrow (hk ▸ htasks) hloop
  cases hmove with
  | stay | ackArrives | ackLost | exit => exact .inl (hmono (fun _ ht _ => ht) fun _ _ _ => rfl)
  | persist hloop | log hloop | forward hloop | forwardFailed hloop =>
    exact .inl (hmono (fun _ ht _ => ht) fun _ _ hreplay => by cases hloop.symm.trans hreplay)
  | report hloop =>
    exact .inl (hmono (fun _ ht _ => tasks_report _ _ _ _ _ ht) fun _ _ hreplay => by
      cases hloop.symm.trans hreplay)
  | broadcast =>
    rw [broadcastAllNodesReady_eq] at hmono ⊢
    exact .inl (hmono (fun _ ht _ => List.mem_append_left _ ht) fun _ _ _ => rfl)
  | @handle d' room m rest =>
    obtain ⟨-, -, -, hloop, htasks⟩ := frame_handleMessage
      { w with links := Function.update w.links d' (some rest) } d' room m
    exact .inl (hmono (fun _ ht _ => by rwa [htasks]) fun _ _ _ => hloop)
  | connectionLost | connect =>
    refine .inl (hmono (fun t ht hd => List.mem_filter.mpr ⟨ht, ?_⟩) fun _ _ _ => rfl)
    simpa [hd] using he.symm
  | @taskRead i readable d' n nodes items ht =>
    refine .inl (howed.setTask ht rfl rfl rfl rfl rfl ?_)
    rintro hd (hn | hitem)
    · rcases List.mem_cons.mp hn with rfl | hn
      · rw [he _ ht (hd.trans hk), if_pos rfl]
        exact .inr (List.mem_append_right _ (mem_nodeParams.mpr ⟨rfl, rfl, howed.1⟩))
      · exact .inl hn
    · exact .inr (List.mem_append_left _ hitem)
  | @taskSend i d' item items ht =>
    by_cases hitem : d' = d ∧ item = ⟨k, w.row k⟩
    · obtain ⟨rfl, rfl⟩ := hitem
      have hlast := lastImage_trail_put (c := ⟨k, w.row k⟩) hk (he _ ht rfl).2
      exact .inr hlast
    · refine .inl (howed.setTask ht rfl rfl rfl rfl rfl ?_)
      rintro hd (hn | hin)
      · cases hn
      · rcases List.mem_cons.mp hin with hin | hin
        · exact absurd ⟨hd.trans hk, hin.symm⟩ hitem
        · exact .inr hin
  | taskSendFailed ht =>
    refine .inl (howed.setTask ht rfl rfl rfl rfl rfl fun hd _ => ?_)
    cases (he _ ht (hd.trans hk)).1
  | @itemDelivered d' item items failed hloop hlink =>
    by_cases hitem : d' = w.home k.1 ∧ item = ⟨k, w.row k⟩
    · obtain ⟨rfl, rfl⟩ := hitem
      right
      rw [(SameTraffic.continueReplay _ _).trail, hrow,
        trail_of_links (w := { w with handed := w.handed ++ [⟨k, w.row k⟩] }) rfl hlink]
      exact valueAfter_concat_self rfl
    · exact .inl (howed.continueReplay hloop rfl rfl rfl fun hd hi => hitem ⟨hd, hi⟩)
  | itemFailed hloop =>
    refine .inl (howed.continueReplay hloop rfl rfl rfl fun hd => ?_)
    refine absurd rfl (he ?_).1
    rw [hloop, ← hk, ← hd]
    rfl
  | @itemLate d' item items failed hloop =>
    by_cases hitem : d' = w.home k.1 ∧ item = ⟨k, w.row k⟩
    · obtain ⟨rfl, rfl⟩ := hitem
      right
      rw [(SameTraffic.continueReplay _ _).trail, hrow]
      refine lastImage_trail_put (c := ⟨k, w.row k⟩) rfl ?_
      rw [hk]
      exact (he (by rw [hloop, hk]; rfl)).2
    · exact .inl (howed.continueReplay hloop rfl rfl rfl fun hd hi => hitem ⟨hd, hi⟩)

theorem Move.settled (hmove : Move w e w') (h : Kept w) (hk : w.home k.1 = d) (hl : w.LosslessFor d e)
    (he : w.ReplaysSucceed d e) (hc : w.ReplaysCurrent e) (hs : Settled w k) : Settled w' k := by
  cases hmove.keyMove h (hk ▸ hl) hc with
  | pending hloop => exact .inl hloop
  | written cs hne hrow htrail hlast =>
    right
    left
    rw [hrow, htrail, lastImage_append, ← hlast]
    exact lastImage_of_ne_nil hne
  | quiet hrow htrail hloop =>
    rcases hs with hs | hs | howed
    · exact .inl (hloop hs)
    · exact .inr (.inl (by rw [hrow, htrail, hs]))
    · exact .inr (hmove.owed hk he hrow howed).symm

theorem settled_run {nodes : List NodeId} {home : NodeId → DaemonId} {events : List ParamEvent}
    (hmeets : Meets turn (fun w e => w.LosslessFor d e ∧ w.ReplaysSucceed d e ∧ w.ReplaysCurrent e) w events)
    (hhome : w.nodes = nodes ∧ w.home = home) (h : Kept w) (hk : home k.1 = d) (hsettled : Settled w k) :
    (run turn w events).1.home = home ∧ Settled (run turn w events).1 k := by
  have hrun := run_induction_meets turn
    (P := fun _ _ w => (w.nodes = nodes ∧ w.home = home) ∧ Kept w ∧ Settled w k)
    ⟨hhome, h, hsettled⟩ ?_ events hmeets
  · exact ⟨hrun.1.2, hrun.2.2⟩
  · rintro _ _ w e - ⟨hl, he, hc⟩ ⟨⟨hnodes, hhome⟩, hkept, hsettled⟩
    have hmove := step_move w e
    exact ⟨⟨hmove.places.1.trans hnodes, hmove.places.2.trans hhome⟩, hkept.move hmove,
      hmove.settled hkept (hhome ▸ hk) hl he hc hsettled⟩

/-! ## The report -/

/-- The coordinator sends the rows of the nodes of `d` again: the barrier has been released, or the log is
pruned past the ack of `d` and the last replay is not too recent. -/
def ReplaysRows (w : ParamWorld) (d : DaemonId) (now : Nat) : Prop :=
  w.readyBarrierReleased = true ∨ ∃ df ∈ w.entry, ¬df.Reaches (df.lastAck d) ∧ inBackoff df d now = false

/-- In the log after the ack of `d`, no entry for another daemon's node comes before one for a node of
`d`, unless the row of the latter is replayed anyway. -/
def OwnEntriesFirst (w : ParamWorld) (d : DaemonId) : Prop :=
  ∀ df ∈ w.entry, df.Reaches (df.lastAck d) →
    ∀ f ∈ df.stateLog, df.lastAck d < f.sequence → w.home f.operation.key.1 ≠ d →
      ∀ e ∈ df.stateLog, f.sequence < e.sequence → w.home e.operation.key.1 = d →
        w.readyBarrierReleased = true ∧ w.row e.operation.key ≠ none

theorem entry_reestablish (w : ParamWorld) (d : DaemonId) (reported : List NodeId) :
    ∃ df, (w.reestablish d reported).entry = some df ∧
      ∀ n ∈ reported, df.nodeToDaemon[n]? = some d := by
  have hplace : ∀ (m : TreeMap NodeId DaemonId), ∀ n ∈ reported,
      (reported.foldl (fun m n => m.insert n d) m)[n]? = some d := by
    intro m n hn
    rw [getElem?_foldl_insert (fun _ => d), if_pos hn]
  unfold reestablish
  split <;> exact ⟨_, rfl, hplace _⟩

theorem Owed.fallback {now : Nat} {unreadable : List NodeId} (hentry : w.entry = some df)
    (hack : df.lastAck d < df.stateLogSequence) (hdelta : df.stateLogDelta (df.lastAck d) = none)
    (hbackoff : inBackoff df d now = false) (hk : w.home k.1 = d) (hnode : df.nodeToDaemon[k.1]? = some d)
    (hreadable : k.1 ∉ unreadable) (hrow : w.row k ≠ none) : Owed (w.stateCatchUp d now unreadable) k := by
  have hitem : ⟨k, w.row k⟩ ∈ w.collectParamReplayItems (df.nodesOnDaemon d) unreadable :=
    mem_collectParamReplayItems.mpr
      ⟨⟨ParamDataflow.mem_nodesOnDaemon.mpr hnode, hreadable⟩, rfl, hrow⟩
  simp only [stateCatchUp, hentry, if_neg (Nat.not_le.mpr hack), hdelta, handlePrunedStateCatchupFallback,
    hbackoff, Bool.false_eq_true, if_false]
  generalize w.collectParamReplayItems (df.nodesOnDaemon d) unreadable = items at hitem
  obtain ⟨c, cs, rfl⟩ := List.exists_cons_of_ne_nil (List.ne_nil_of_mem hitem)
  exact ⟨hrow, .inr ⟨c :: cs, 0, congrArg (fun d => EventLoop.replaying d (c :: cs) 0) hk.symm, hitem⟩⟩

theorem Owed.replayed {now : Nat} {unreadable : List NodeId} (hentry : w.entry = some df)
    (hreleased : w.readyBarrierReleased = true) (hk : w.home k.1 = d)
    (hnode : df.nodeToDaemon[k.1]? = some d) (hrow : w.row k ≠ none) :
    Owed ((w.replayAllNodesReady d).stateCatchUp d now unreadable) k := by
  have hsame : SameTraffic w (w.replayAllNodesReady d) := .replayAllNodesReady
  obtain ⟨hhome, hrow', htasks⟩ := frame_stateCatchUp (w.replayAllNodesReady d) d now unreadable
  refine ⟨by rwa [hrow', hsame.row], .inl ⟨⟨d, df.nodesOnDaemon d, []⟩, ?_, ?_, .inl ?_⟩⟩
  · rw [htasks]
    simp only [ParamWorld.replayAllNodesReady, hentry, hreleased, if_true]
    exact List.mem_append_right _ List.mem_cons_self
  · rw [hhome, hsame.home, hk]
  · exact ParamDataflow.mem_nodesOnDaemon.mpr hnode

theorem stateLogDelta_of_not_reaches {mutations : List ParamChange} (h : Logged mutations df)
    (hreaches : ¬df.Reaches (df.lastAck d)) :
    df.lastAck d < df.stateLogSequence ∧ df.stateLogDelta (df.lastAck d) = none := by
  constructor
  · by_contra hle
    exact hreaches fun i hi hack => absurd (hack.trans_le hi) hle
  · rw [← h.isSome_stateLogDelta h.lastAck_le] at hreaches
    exact Option.not_isSome_iff_eq_none.mp hreaches

theorem owed_report {runningNodes : List NodeId} {now : Nat} {unreadable : List NodeId} (hkept : Kept w)
    (hk : w.home k.1 = d) (hrunning : k.1 ∈ runningNodes) (hread : k.1 ∉ unreadable)
    (hrow : w.row k ≠ none) (hreplays : w.ReplaysRows d now) :
    Owed (w.handleDaemonStatusReport d runningNodes now unreadable) k := by
  have hreported : k.1 ∈ runningNodes.filter fun n => w.home n = d :=
    List.mem_filter.mpr ⟨hrunning, by simpa using hk⟩
  rw [handleDaemonStatusReport]
  generalize runningNodes.filter (fun n => w.home n = d) = reported at hreported
  obtain ⟨df, hentry, hplaces⟩ := entry_reestablish w d reported
  have hsame : SameTraffic w (w.reestablish d reported) := .reestablish reported
  have hplace := hplaces k.1 hreported
  rcases hreplays with hreleased | ⟨before, hbefore, hpruned, hbackoff⟩
  · refine .replayed hentry ?_ (by rw [hsame.home, hk]) hplace (by rwa [hsame.row])
    unfold reestablish
    split <;> exact hreleased
  · obtain ⟨hack, hdelta⟩ := stateLogDelta_of_not_reaches (hkept.booked before hbefore).toLogged hpruned
    have hrelinked : (w.reestablish d reported).entry = some (before.relink d reported) := by
      rw [reestablish, Option.mem_def.mp hbefore]
    obtain rfl := Option.some.inj (hentry.symm.trans hrelinked)
    have hsame' := hsame.trans (.replayAllNodesReady (d := d))
    exact .fallback ((entry_replayAllNodesReady _ d).trans hentry) hack hdelta hbackoff
      (by rw [hsame'.home, hk]) hplace hread (by rwa [hsame'.row])

theorem catchUpEntries_reestablish (w : ParamWorld) (d : DaemonId) (reported : List NodeId) :
    (w.reestablish d reported).catchUpEntries d = w.catchUpEntries d := by
  unfold reestablish
  cases hentry : w.entry with
  | some df => simp only [catchUpEntries, hentry]; rfl
  | none => simp only [catchUpEntries, hentry]; exact if_pos (Nat.zero_le _)

/-- What the node has and the entries on top of it end with the row. -/
theorem lastImage_report {runningNodes : List NodeId} {now : Nat} {unreadable : List NodeId}
    (hkept : Kept w) (hloop : w.loop = .idle) (hk : w.home k.1 = d) (hlink : w.links d = some [])
    (hlast : lastImage (valueAfter k w.handed)
      (changesOf k (deliverable w.home d (.stateCatchUp (w.catchUpEntries d)))) = w.row k) :
    lastImage none ((w.handleDaemonStatusReport d runningNodes now unreadable).trail k) =
      (w.handleDaemonStatusReport d runningNodes now unreadable).row k := by
  obtain ⟨w₁, -, hsame, hcue, hreport⟩ := report_eq hkept hloop d runningNodes now unreadable
  rw [catchUpEntries_reestablish] at hcue
  rw [valueAfter, ← trail_of_links hk hlink, ← hcue] at hlast
  rw [hreport]
  rcases stateCatchUp_cases w₁ d now unreadable with ⟨hnil, hcatch, -⟩ | hcatch
  · rw [(hsame.trans hcatch).trail, (hsame.trans hcatch).row]
    rw [hnil] at hlast
    exact hlast
  · rw [hcatch, trail_put, hsame.trail, hsame.home, hsame.links, if_pos ⟨hk, by rw [hlink]; rfl⟩,
      lastImage_append, hlast]
    exact hsame.row.symm

/-! ## What the entries leave -/

theorem mem_catchUpEntries (hkept : Kept w) {en : StateCatchUpEntry} (hen : en ∈ w.catchUpEntries d) :
    ∃ df, w.entry = some df ∧ df.Reaches (df.lastAck d) ∧ en ∈ df.stateLog ∧
      df.lastAck d < en.sequence := by
  unfold catchUpEntries at hen
  split at hen
  · cases hen
  rename_i df hentry
  have hlogged := (hkept.booked df hentry).toLogged
  split at hen
  · cases hen
  cases hdelta : df.stateLogDelta (df.lastAck d) with
  | none =>
    rw [hdelta] at hen
    cases hen
  | some es =>
    refine ⟨df, hentry, (hlogged.isSome_stateLogDelta hlogged.lastAck_le).mp (by rw [hdelta]; rfl), ?_⟩
    rw [hdelta] at hen
    unfold ParamDataflow.stateLogDelta at hdelta
    split at hdelta
    · split at hdelta
      · cases hdelta
      · obtain rfl := Option.some.inj hdelta
        cases hen
    · split at hdelta
      · cases hdelta
      · obtain rfl := Option.some.inj hdelta
        simpa using List.mem_filter.mp hen

theorem pairwise_catchUpEntries (hkept : Kept w) :
    (w.catchUpEntries d).Pairwise fun f e => f.sequence < e.sequence := by
  rcases hkept.catchUpEntries d with hnil | ⟨df, -, hentries⟩
  · rw [hnil]
    exact .nil
  · rw [hentries, ← List.pairwise_map, map_sequence_numbered]
    exact List.pairwise_lt_range'

/-- The daemon takes every entry of `k` that it is sent. -/
theorem changesOf_deliverable {es : List StateCatchUpEntry} (hk : w.home k.1 = d)
    (hsorted : es.Pairwise fun f e => f.sequence < e.sequence)
    (hfirst : ∀ f ∈ es, w.home f.operation.key.1 ≠ d → ∀ e ∈ es, f.sequence < e.sequence →
      e.operation.key ≠ k) :
    changesOf k (deliverable w.home d (.stateCatchUp es)) =
      changesOf k (es.map StateCatchUpEntry.operation) := by
  let own (e : StateCatchUpEntry) : Bool := w.home e.operation.key.1 = d
  have hsplit : es.takeWhile own ++ es.dropWhile own = es := List.takeWhile_append_dropWhile
  show changesOf k ((es.takeWhile own).map StateCatchUpEntry.operation) = _
  cases hdrop : es.dropWhile own with
  | nil =>
    rw [hdrop, List.append_nil] at hsplit
    rw [hsplit]
  | cons f rest =>
    have hforeign : w.home f.operation.key.1 ≠ d := by
      have hnot := List.head?_dropWhile_not own es
      rw [hdrop] at hnot
      simpa [own] using hnot
    rw [hdrop] at hsplit
    have hnone : changesOf k ((f :: rest).map StateCatchUpEntry.operation) = [] := by
      apply changesOf_eq_nil
      intro c hc
      obtain ⟨e, he, rfl⟩ := List.mem_map.mp hc
      rcases List.mem_cons.mp he with rfl | he
      · rintro rfl
        exact hforeign hk
      · rw [← hsplit] at hsorted hfirst
        have hlt := (List.pairwise_cons.mp (List.pairwise_append.mp hsorted).2.1).1 e he
        exact hfirst f (by simp) hforeign e (by simp [he]) hlt
    conv_rhs => rw [← hsplit, List.map_append, changesOf_append, hnone, List.append_nil]

theorem changesOf_catchUp (hkept : Kept w) (hfirst : w.OwnEntriesFirst d) (hk : w.home k.1 = d)
    (hrow : w.readyBarrierReleased = true → w.row k = none) :
    changesOf k (deliverable w.home d (.stateCatchUp (w.catchUpEntries d))) =
      changesOf k ((w.catchUpEntries d).map StateCatchUpEntry.operation) := by
  refine changesOf_deliverable hk (pairwise_catchUpEntries hkept) ?_
  rintro f hf hforeign e he hlt rfl
  obtain ⟨df, hentry, hreaches, hflog, hafter⟩ := mem_catchUpEntries hkept hf
  obtain ⟨df', hentry', -, helog, -⟩ := mem_catchUpEntries hkept he
  obtain rfl := Option.some.inj (hentry.symm.trans hentry')
  obtain ⟨hreleased, hsome⟩ := hfirst df hentry hreaches f hflog hafter hforeign e helog hlt hk
  exact hsome (hrow hreleased)

/-- The node is at the ack or later, and the entries take it to the end. -/
theorem lastImage_of_ack (hkept : Kept w) (hentry : w.entry = some df) (hsound : AcksSound w df)
    (hreaches : df.Reaches (df.lastAck d)) (hnode : k.1 ∈ w.nodes) (hk : w.home k.1 = d) :
    lastImage (valueAfter k w.handed)
      (changesOf k ((w.catchUpEntries d).map StateCatchUpEntry.operation)) = w.row k := by
  have hlogged := (hkept.booked df hentry).toLogged
  obtain ⟨top, hd⟩ := hsound.daemons d
  obtain ⟨t, ht, hvalue⟩ := hd.reached k hnode hk
  have hentries : (w.catchUpEntries d).map StateCatchUpEntry.operation =
      window w.mutations (df.lastAck d) w.mutations.length := by
    obtain ⟨es, hes⟩ := Option.isSome_iff_exists.mp
      ((hlogged.isSome_stateLogDelta hlogged.lastAck_le).mpr hreaches)
    have hwhole := hlogged.stateLogDelta hlogged.lastAck_le hes
    simp only [catchUpEntries, hentry, hes, Option.getD_some, window, List.take_length]
    split
    · rename_i hle
      rw [List.drop_eq_nil_of_le (hlogged.sequence ▸ hle)]
      rfl
    · rw [hwhole, map_operation_numbered]
  obtain ⟨t', ht', hvalue'⟩ := exists_take_of_window (hlogged.lastAck_le.trans_eq hlogged.sequence)
    ((hd.acks _ List.mem_cons_self).trans ht) hvalue
  rw [hentries, hvalue', List.take_of_length_le ht', hsound.rows]

/-- A key without a row: the node does not have it, and the entries end with its deletion. -/
theorem lastImage_of_no_row {unreadable : List NodeId} (hkept : Kept w)
    (hcomplete : w.ReplayComplete d unreadable) (hnode : k.1 ∈ w.nodes) (hk : w.home k.1 = d)
    (hrow : w.row k = none) :
    lastImage (valueAfter k w.handed)
      (changesOf k ((w.catchUpEntries d).map StateCatchUpEntry.operation)) = w.row k := by
  have hnone : valueAfter k w.handed = none := by
    by_cases hne : changesOf k w.handed = []
    · rw [valueAfter, hne]
      rfl
    · obtain ⟨c, hc⟩ := List.exists_mem_of_ne_nil _ hne
      obtain ⟨hmem, rfl⟩ := mem_changesOf.mp hc
      exact hcomplete.2.2 c hmem hnode hk hrow
  rw [hnone]
  by_cases hne : changesOf k ((w.catchUpEntries d).map StateCatchUpEntry.operation) = []
  · rw [hne, lastImage_nil, hrow]
  · exact lastImage_catchUpEntries hkept hne

instance (df : ParamDataflow) (ack : Nat) : Decidable (df.Reaches ack) :=
  inferInstanceAs (Decidable (∀ i ≤ df.stateLogSequence, _))

instance (w : ParamWorld) (d : DaemonId) : Decidable (w.OwnEntriesFirst d) :=
  inferInstanceAs (Decidable (∀ df ∈ w.entry, _ → ∀ f ∈ df.stateLog, _ → _ → ∀ e ∈ df.stateLog, _ → _ → _))

instance (w : ParamWorld) (d : DaemonId) : DecidablePred (w.ReplaysSucceed d)
  | .taskRead i readable => inferInstanceAs (Decidable (∀ t ∈ w.tasks[i]?, t.daemon = d → readable = true))
  | .taskSend i sent =>
    inferInstanceAs (Decidable (∀ t ∈ w.tasks[i]?, t.daemon = d → sent = true ∧ (w.links d).isSome))
  | .replayItem outcome =>
    inferInstanceAs (Decidable (w.loop.replays = some d → outcome ≠ .failed ∧ (w.links d).isSome))
  | .connectionLost d' | .connect d' => inferInstanceAs (Decidable (d' ≠ d))
  | .request _ | .forward _ | .handle .. | .statusReport .. | .broadcastAllNodesReady | .ackArrives _
  | .ackLost _ | .daemonExit _ => .isTrue trivial

def leave : List ParamEvent := [.connectionLost daemonA, .daemonExit daemonA]

/-- A parameter of `a` is changed while its daemon is away, and then one of `b`. -/
def changedWhileAway : List ParamEvent :=
  written (setParam nodeA "gain" "1") ++ leave ++
    [.request (setParam nodeA "gain" "2"), .forward true, .request (setParam nodeB "level" "5"),
      .forward true, .handle daemonB 1, .connect daemonA]

/-- A parameter of `b` is set and one of `a` deleted while the daemon of `a` is away. -/
def deletedBehindForeign : List ParamEvent :=
  written (setParam nodeA "gain" "1") ++ leave ++
    [.request (setParam nodeB "level" "5"), .forward true, .handle daemonB 1,
      .request (deleteParam nodeA "gain"), .forward true, .connect daemonA]

/-- The only daemon is away, so the entry is dropped, and a parameter of its node is deleted. -/
def deletedWhileDropped : List ParamEvent :=
  written (setParam nodeA "gain" "1") ++ leave ++ [.request (deleteParam nodeA "gain"), .connect daemonA]

end ParamWorld

end Dora.Coord
