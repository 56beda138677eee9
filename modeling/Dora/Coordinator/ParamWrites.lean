import Dora.Coordinator.ParamLog

/-!
# The last write of a parameter

For one key the world is its row, the changes of it that are at the node or on the way there, and the
change that the event loop is about to send. A step that loses nothing puts the row at the end of those
changes or leaves them alone, as long as no replay task sends a value that its row no longer has.
-/

namespace Dora.Coord

open Std Lib

namespace ParamWorld

variable {w w' : ParamWorld} {d : DaemonId} {k : ParamKey}

def deliverable (home : NodeId → DaemonId) (d : DaemonId) : ParamMessage → List ParamChange
  | .param c => if home c.key.1 = d then [c] else []
  | .stateCatchUp entries =>
    (entries.takeWhile fun e => home e.operation.key.1 = d).map StateCatchUpEntry.operation

def onTheWay (w : ParamWorld) (d : DaemonId) : List ParamChange :=
  ((w.links d).getD []).flatMap (deliverable w.home d)

/-- The changes of `k` that its node was handed or will be. -/
def trail (w : ParamWorld) (k : ParamKey) : List ParamChange :=
  changesOf k (w.handed ++ w.onTheWay (w.home k.1))

theorem home_of_mem_deliverable {home : NodeId → DaemonId} {m : ParamMessage} {c : ParamChange}
    (hc : c ∈ deliverable home d m) : home c.key.1 = d := by
  cases m with
  | param c' =>
    simp only [deliverable] at hc
    split at hc
    · rename_i hhome
      rwa [List.mem_singleton.mp hc]
    · cases hc
  | stateCatchUp entries =>
    obtain ⟨e, he, rfl⟩ := List.mem_map.mp hc
    simpa using List.mem_takeWhile_imp he

theorem handed_handleMessage (w : ParamWorld) (d : DaemonId) (room : Nat) (m : ParamMessage) :
    (w.handleMessage d room m).handed = w.handed ++ (deliverable w.home d m).take room := by
  cases m with
  | param c =>
    simp only [handleMessage, deliverable]
    by_cases hhome : w.home c.key.1 = d
    · cases room <;> simp [hhome]
    · simp [hhome]
  | stateCatchUp entries =>
    simp [handleMessage, deliverable, applyStateCatchUpEntries, List.map_take]

theorem frame_handleMessage (w : ParamWorld) (d : DaemonId) (room : Nat) (m : ParamMessage) :
    (w.handleMessage d room m).home = w.home ∧ (w.handleMessage d room m).rows = w.rows ∧
      (w.handleMessage d room m).links = w.links ∧ (w.handleMessage d room m).loop = w.loop ∧
      (w.handleMessage d room m).tasks = w.tasks := by
  cases m with
  | param c =>
    simp only [handleMessage]
    split <;> exact ⟨rfl, rfl, rfl, rfl, rfl⟩
  | stateCatchUp entries => exact ⟨rfl, rfl, rfl, rfl, rfl⟩

theorem SameTraffic.trail (h : SameTraffic w w') : w'.trail k = w.trail k := by
  rw [ParamWorld.trail, onTheWay, h.home, h.links, h.handed, ParamWorld.trail, onTheWay]

/-- What a step may do to the key: its change is about to be sent, its row was put at the end of the
trail, or nothing happened to it. -/
inductive KeyMove (w w' : ParamWorld) (k : ParamKey) : Prop
  | pending (h : w'.loop.forwards = some k)
  | written (cs : List ParamChange) (hne : cs ≠ []) (hrow : w'.row k = w.row k)
      (htrail : w'.trail k = w.trail k ++ cs) (hlast : lastImage none cs = w.row k)
  | quiet (hrow : w'.row k = w.row k) (htrail : w'.trail k = w.trail k)
      (hloop : w.loop.forwards = some k → w'.loop.forwards = some k)

theorem KeyMove.same (h : SameTraffic w w') (hloop : w.loop.forwards = some k → w'.loop.forwards = some k) :
    KeyMove w w' k :=
  .quiet h.row h.trail hloop

theorem trail_put (w : ParamWorld) (d : DaemonId) (m : ParamMessage) (k : ParamKey) :
    (w.put d m).trail k = w.trail k ++
      if w.home k.1 = d ∧ (w.links d).isSome then changesOf k (deliverable w.home d m) else [] := by
  simp only [trail, onTheWay, put]
  by_cases hd : w.home k.1 = d
  · subst hd
    rw [Function.update_self]
    cases w.links (w.home k.1) with
    | none => simp
    | some ms => simp [List.flatMap_append]
  · rw [Function.update_of_ne hd, if_neg (fun h => hd h.1), List.append_nil]

theorem KeyMove.put {c : ParamChange} (d : DaemonId)
    (hc : c.image = w.row c.key ∨ w'.loop.forwards = some c.key)
    (hsame : SameTraffic (w.put d (.param c)) w')
    (hloop : w.loop.forwards = some k → w'.loop.forwards = some k ∨ c.key = k ∧ w.home k.1 = d ∧
      (w.links d).isSome) : KeyMove w w' k := by
  have htrail := (hsame.trail (k := k)).trans (trail_put w d (.param c) k)
  have hrow : w'.row k = w.row k := hsame.row
  by_cases hput : c.key = k ∧ w.home k.1 = d ∧ (w.links d).isSome
  · obtain ⟨rfl, hd, hlink⟩ := hput
    rcases hc with himage | hpending
    · refine .written [c] (List.cons_ne_nil c []) hrow ?_ himage
      rw [htrail, if_pos ⟨hd, hlink⟩, deliverable, if_pos hd, changesOf_cons, if_pos rfl]
      rfl
    · exact .pending hpending
  · refine .quiet hrow ?_ (fun h => (hloop h).resolve_right hput)
    rw [htrail]
    split
    · rename_i hd
      have hk : c.key ≠ k := fun hk => hput ⟨hk, hd⟩
      rw [changesOf_eq_nil, List.append_nil]
      intro c' hc'
      simp only [deliverable] at hc'
      split at hc'
      · rwa [List.mem_singleton.mp hc']
      · cases hc'
    · rw [List.append_nil]

theorem trail_of_handed {cs : List ParamChange} (hhome : w'.home = w.home) (hlinks : w'.links = w.links)
    (hhanded : w'.handed = w.handed ++ cs) (hcs : changesOf k cs = []) : w'.trail k = w.trail k := by
  rw [trail, onTheWay, hhome, hlinks, hhanded, trail, onTheWay]
  simp [hcs]

/-- Every request finds the entry, every change for `d` is put on its connection and taken by the channels,
and no connection of `d` is lost before everything on it was handled. -/
def LosslessFor (w : ParamWorld) (d : DaemonId) : ParamEvent → Prop
  | .request c => w.home c.key.1 = d → w.entry.isSome
  | .forward sent =>
    match w.loop with
    | .forwarding d' _ => d' = d → sent = true ∧ (w.links d).isSome
    | _ => True
  | .handle d' room =>
    d' = d → ∀ m ∈ ((w.links d).getD []).head?, (deliverable w.home d m).length ≤ room
  | .statusReport d' runningNodes _ _ =>
    d' = d →
      ∀ e ∈ (w.reestablish d (runningNodes.filter fun n => w.home n = d)).catchUpEntries d,
        w.home e.operation.key.1 = d
  | .connectionLost d' | .connect d' => d' = d → (w.links d).getD [] = []
  | _ => True

/-- A replay task sends an item only while its row has the value, or before the change that the loop is
about to send for the key. -/
def ReplaysCurrent (w : ParamWorld) : ParamEvent → Prop
  | .taskSend i _ =>
    ∀ t ∈ w.tasks[i]?, ∀ c ∈ t.items.head?, c.image = w.row c.key ∨ w.loop.forwards = some c.key
  | _ => True

theorem KeyMove.stay (w : ParamWorld) (k : ParamKey) : KeyMove w w k :=
  .same ⟨rfl, rfl, rfl, rfl, rfl⟩ id

theorem KeyMove.otherRow {c : ParamChange} (hk : c.key ≠ k) (hloop : w.loop = .idle)
    (hrows : w'.rows = (w.writeRow c).rows) (htrail : w'.trail k = w.trail k) : KeyMove w w' k := by
  refine .quiet ?_ htrail (by rw [hloop]; rintro ⟨⟩)
  show (w'.rows k.1)[k.2]? = w.row k
  rw [hrows]
  exact (row_writeRow w c k).trans (if_neg hk)

theorem KeyMove.forward {c : ParamChange} (h : Kept w) (hloop : w.loop = .forwarding d c)
    (hlink : d = w.home k.1 → (w.links (w.home k.1)).isSome) :
    KeyMove w { w.put d (.param c) with loop := .idle } k := by
  obtain ⟨hhome, himage⟩ := h.forwarding hloop
  refine .put d (.inl himage) ⟨rfl, rfl, rfl, rfl, rfl⟩ ?_
  rw [hloop]
  rintro ⟨⟩
  exact .inr ⟨rfl, hhome, hhome ▸ hlink hhome.symm⟩

theorem KeyMove.handle {m : ParamMessage} {rest : List ParamMessage} {room : Nat}
    (hlink : w.links d = some (m :: rest))
    (hroom : d = w.home k.1 → (deliverable w.home d m).length ≤ room) :
    KeyMove w (({ w with links := Function.update w.links d (some rest) } : ParamWorld).handleMessage
      d room m) k := by
  generalize hw₁ : ({ w with links := Function.update w.links d (some rest) } : ParamWorld) = w₁
  obtain ⟨hhome, hrows, hlinks, hloop, -⟩ := frame_handleMessage w₁ d room m
  have hhanded := handed_handleMessage w₁ d room m
  have hhome₁ : w₁.home = w.home := by rw [← hw₁]
  have hrow : (w₁.handleMessage d room m).row k = w.row k := by
    rw [row, hrows, ← hw₁]
    rfl
  refine .quiet hrow ?_ (by rw [hloop, ← hw₁]; exact id)
  by_cases hd : d = w.home k.1
  · rw [trail, onTheWay, hhome, hlinks, hhanded, trail, onTheWay, hhome₁, ← hd, hlink, ← hw₁,
      List.take_of_length_le (hroom hd)]
    simp
  · have hother : w₁.trail k = w.trail k := by
      rw [← hw₁]
      simp only [trail, onTheWay, Function.update_of_ne (Ne.symm hd)]
    rw [← hother]
    refine trail_of_handed hhome hlinks hhanded ?_
    apply changesOf_eq_nil
    rintro c hc rfl
    rw [hhome₁] at hc
    exact hd (home_of_mem_deliverable (List.mem_of_mem_take hc)).symm

theorem lastImage_catchUpEntries (h : Kept w)
    (hne : changesOf k ((w.catchUpEntries d).map StateCatchUpEntry.operation) ≠ []) :
    lastImage none (changesOf k ((w.catchUpEntries d).map StateCatchUpEntry.operation)) = w.row k := by
  rcases h.catchUpEntries d with hnil | ⟨df, hdf, hentries⟩
  · rw [hnil] at hne
    exact absurd rfl hne
  · rw [hentries, map_operation_numbered] at hne ⊢
    have hrow := h.rows (by rw [hdf]; rfl) k
    rw [← List.take_append_drop (df.lastAck d) w.mutations, changesOf_append, lastImage_append] at hrow
    rw [← hrow]
    exact lastImage_of_ne_nil hne

theorem KeyMove.report {runningNodes : List NodeId} {now : Nat} {unreadable : List NodeId} (h : Kept w)
    (hloop : w.loop = .idle)
    (hentries : d = w.home k.1 →
      ∀ e ∈ (w.reestablish d (runningNodes.filter fun n => w.home n = d)).catchUpEntries d,
        w.home e.operation.key.1 = d) :
    KeyMove w (w.handleDaemonStatusReport d runningNodes now unreadable) k := by
  obtain ⟨w₁, hkept, hsame, hcue, hreport⟩ := report_eq h hloop d runningNodes now unreadable
  rw [← hcue] at hentries
  rw [hreport]
  have hidle : ∀ w' : ParamWorld, w.loop.forwards = some k → w'.loop.forwards = some k := by
    rw [hloop]
    rintro w' ⟨⟩
  rcases stateCatchUp_cases w₁ d now unreadable with ⟨-, hcatch, -⟩ | hcatch
  · exact .same (hsame.trans hcatch) (hidle _)
  · rw [hcatch]
    have hrow : (w₁.put d (.stateCatchUp (w₁.catchUpEntries d))).row k = w.row k := hsame.row
    have htrail := trail_put w₁ d (.stateCatchUp (w₁.catchUpEntries d)) k
    rw [hsame.trail, hsame.home, hsame.links] at htrail
    by_cases hput : w.home k.1 = d ∧ (w.links d).isSome
    · have hwhole : deliverable w.home d (.stateCatchUp (w₁.catchUpEntries d)) =
          (w₁.catchUpEntries d).map StateCatchUpEntry.operation := by
        rw [deliverable, List.takeWhile_eq_self_iff.mpr]
        intro e he
        simpa using hentries hput.1.symm e he
      rw [if_pos hput, hwhole] at htrail
      by_cases hne : changesOf k ((w₁.catchUpEntries d).map StateCatchUpEntry.operation) = []
      · rw [hne, List.append_nil] at htrail
        exact .quiet hrow htrail (hidle _)
      · exact .written _ hne hrow htrail ((lastImage_catchUpEntries hkept hne).trans hsame.row)
    · rw [if_neg hput, List.append_nil] at htrail
      exact .quiet hrow htrail (hidle _)

theorem KeyMove.itemDelivered {item : ParamChange} {items : List ParamChange} {failed : Nat} (h : Kept w)
    (hloop : w.loop = .replaying d (item :: items) failed) (hlink : w.links d = some []) :
    KeyMove w (({ w with handed := w.handed ++ [item] } : ParamWorld).continueReplay d items failed) k := by
  obtain ⟨hhome, himage⟩ := h.replaying hloop item List.mem_cons_self
  have hsame := SameTraffic.continueReplay (w := { w with handed := w.handed ++ [item] }) (d := d)
    items failed
  by_cases hk : item.key = k
  · subst hk
    refine .written [item] (List.cons_ne_nil item []) hsame.row ?_ himage
    rw [hsame.trail, trail, trail, onTheWay, onTheWay, hhome, hlink]
    simp [changesOf_cons]
  · refine .quiet hsame.row ?_ (by rw [hloop]; rintro ⟨⟩)
    rw [hsame.trail]
    exact trail_of_handed rfl rfl rfl (by simp [changesOf_cons, hk])

theorem KeyMove.dropConnection {link : Option (List ParamMessage)} (hlink : link.getD [] = [])
    (hl : d = w.home k.1 → (w.links (w.home k.1)).getD [] = []) : KeyMove w (w.dropConnection d link) k := by
  refine .quiet rfl ?_ id
  simp only [trail, onTheWay, ParamWorld.dropConnection, dropTasks]
  by_cases hd : w.home k.1 = d
  · rw [hd, Function.update_self, hlink, ← hd, hl hd.symm]
  · rw [Function.update_of_ne hd]

theorem Move.keyMove {e : ParamEvent} (hmove : Move w e w') (h : Kept w)
    (hl : w.LosslessFor (w.home k.1) e) (hc : w.ReplaysCurrent e) : KeyMove w w' k := by
  cases hmove with
  | stay => exact .stay w k
  | @persist c hloop hentry =>
    have hk : c.key ≠ k := by
      rintro rfl
      rw [LosslessFor, hentry] at hl
      cases hl rfl
    exact .otherRow hk hloop rfl rfl
  | @log c df d hloop hentry hd =>
    by_cases hk : c.key = k
    · exact .pending (congrArg some hk)
    · exact .otherRow hk hloop rfl rfl
  | forward hloop =>
    rw [LosslessFor, hloop] at hl
    exact .forward h hloop fun hd => (hl hd).2
  | @forwardFailed d c hloop =>
    rw [LosslessFor, hloop] at hl
    refine .quiet rfl rfl ?_
    rw [hloop]
    rintro ⟨⟩
    cases (hl (h.forwarding hloop).1.symm).1
  | broadcast => exact .same (.broadcastAllNodesReady _) (by rw [broadcastAllNodesReady_eq]; exact id)
  | taskSend ht => exact .put _ (hc _ ht _ rfl) ⟨rfl, rfl, rfl, rfl, rfl⟩ .inl
  | @handle d room m rest hlink =>
    refine .handle hlink ?_
    rintro rfl
    exact hl rfl m (by rw [hlink]; rfl)
  | report hloop =>
    refine .report h hloop ?_
    rintro rfl
    exact hl rfl
  | itemDelivered hloop hlink => exact .itemDelivered h hloop hlink
  | itemFailed hloop => exact .same (.continueReplay _ _) (by rw [hloop]; rintro ⟨⟩)
  | itemLate hloop =>
    obtain ⟨-, himage⟩ := h.replaying hloop _ List.mem_cons_self
    exact .put _ (.inl himage) (.continueReplay _ _) (by rw [hloop]; rintro ⟨⟩)
  | connectionLost | connect => exact .dropConnection rfl hl
  | _ => exact .same ⟨rfl, rfl, rfl, rfl, rfl⟩ id

/-- The trail of `k` is empty or ends with its row, unless the row's change is about to be sent. -/
def Agrees (w : ParamWorld) (k : ParamKey) : Prop :=
  w.loop.forwards = some k ∨ lastImage (w.row k) (w.trail k) = w.row k

theorem KeyMove.agrees (hmove : KeyMove w w' k) (h : Agrees w k) : Agrees w' k := by
  cases hmove with
  | pending hloop => exact .inl hloop
  | written cs hne hrow htrail hlast =>
    right
    rw [hrow, htrail, lastImage_append, ← hlast]
    exact lastImage_of_ne_nil hne
  | quiet hrow htrail hloop =>
    rcases h with h | h
    · exact .inl (hloop h)
    · right
      rw [hrow, htrail]
      exact h

def Lossless (w : ParamWorld) (e : ParamEvent) : Prop := ∀ n ∈ w.nodes, w.LosslessFor (w.home n) e

instance (w : ParamWorld) (d : DaemonId) : DecidablePred (w.LosslessFor d)
  | .request c => inferInstanceAs (Decidable (w.home c.key.1 = d → w.entry.isSome))
  | .forward sent =>
    match h : w.loop with
    | .forwarding d' c =>
      decidable_of_iff (d' = d → sent = true ∧ (w.links d).isSome) (by rw [LosslessFor, h])
    | .idle => .isTrue (by rw [LosslessFor, h]; trivial)
    | .replaying d' items failed => .isTrue (by rw [LosslessFor, h]; trivial)
  | .handle d' room =>
    inferInstanceAs (Decidable (d' = d → ∀ m ∈ ((w.links d).getD []).head?,
      (deliverable w.home d m).length ≤ room))
  | .statusReport d' runningNodes _ _ =>
    inferInstanceAs (Decidable (d' = d →
      ∀ e ∈ (w.reestablish d (runningNodes.filter fun n => w.home n = d)).catchUpEntries d,
        w.home e.operation.key.1 = d))
  | .connectionLost d' | .connect d' => inferInstanceAs (Decidable (d' = d → (w.links d).getD [] = []))
  | .broadcastAllNodesReady | .taskRead .. | .taskSend .. | .ackArrives _ | .ackLost _ | .replayItem _
  | .daemonExit _ => .isTrue trivial

instance (w : ParamWorld) : DecidablePred w.Lossless :=
  fun e => inferInstanceAs (Decidable (∀ n ∈ w.nodes, w.LosslessFor (w.home n) e))

instance (w : ParamWorld) : DecidablePred w.ReplaysCurrent
  | .taskSend i _ =>
    inferInstanceAs (Decidable (∀ t ∈ w.tasks[i]?, ∀ c ∈ t.items.head?,
      c.image = w.row c.key ∨ w.loop.forwards = some c.key))
  | .request _ | .forward _ | .handle .. | .statusReport .. | .connectionLost _ | .connect _
  | .broadcastAllNodesReady | .taskRead .. | .ackArrives _ | .ackLost _ | .replayItem _
  | .daemonExit _ => .isTrue trivial

theorem trail_started (nodes : List NodeId) (home : NodeId → DaemonId) (k : ParamKey) :
    (started nodes home).trail k = [] := by
  simp only [trail, onTheWay, started, List.nil_append]
  split <;> rfl

theorem agrees_run {nodes : List NodeId} {home : NodeId → DaemonId} {events : List ParamEvent}
    (hmeets : Meets turn (fun w e => w.Lossless e ∧ w.ReplaysCurrent e) (started nodes home) events)
    {k : ParamKey} (hk : k.1 ∈ nodes) :
    (run turn (started nodes home) events).1.home = home ∧
      Agrees (run turn (started nodes home) events).1 k := by
  have hrun := run_induction_meets turn
    (P := fun _ _ w => (w.nodes = nodes ∧ w.home = home) ∧ Kept w ∧ Agrees w k)
    ⟨⟨rfl, rfl⟩, kept_started nodes home, .inr (by rw [trail_started, lastImage_nil])⟩ ?_ events hmeets
  · exact ⟨hrun.1.2, hrun.2.2⟩
  · rintro _ _ w e - ⟨hl, hc⟩ ⟨⟨hnodes, hhome⟩, hkept, hagrees⟩
    have hmove := step_move w e
    refine ⟨⟨hmove.places.1.trans hnodes, hmove.places.2.trans hhome⟩, hkept.move hmove, ?_⟩
    exact (hmove.keyMove hkept (hl k.1 (hnodes ▸ hk)) hc).agrees hagrees

/-- Once the loop is idle and everything was delivered, the last event that a node got for a key is its
row, in every run without losses whose replay tasks send nothing outdated. -/
theorem params_last_writer_wins (nodes : List NodeId) (home : NodeId → DaemonId) (events : List ParamEvent)
    (hmeets : Meets turn (fun w e => w.Lossless e ∧ w.ReplaysCurrent e) (started nodes home) events) :
    let w := (run turn (started nodes home) events).1
    w.loop = .idle → (∀ n ∈ nodes, (w.links (home n)).getD [] = []) →
      ∀ (k : ParamKey) (c : ParamChange), k.1 ∈ nodes → (changesOf k w.handed).getLast? = some c →
        c.image = w.row k := by
  intro w hloop hlinks k c hk hc
  obtain ⟨hhome, hagrees⟩ := agrees_run hmeets hk
  rcases hagrees with hforwards | hlast
  · rw [show (run turn (started nodes home) events).1.loop = .idle from hloop] at hforwards
    cases hforwards
  · have htrail : w.trail k = changesOf k w.handed := by
      rw [trail, onTheWay, show w.home = home from hhome, hlinks k.1 hk, List.flatMap_nil, List.append_nil]
    rw [htrail, lastImage, hc] at hlast
    exact hlast

section Runs

def nodeA : NodeId := ⟨"a"⟩
def daemonA : DaemonId := { machineId := none, uuid := 1 }
def nodeB : NodeId := ⟨"b"⟩
def daemonB : DaemonId := { machineId := none, uuid := 2 }

def single : ParamWorld := started [nodeA] fun _ => daemonA

def written (c : ParamChange) : List ParamEvent := [.request c, .forward true, .handle daemonA 1]

/-- The replay task of the barrier broadcast reads the first value and sends it before the second is set. -/
def replayedInTime : List ParamEvent :=
  written (setParam nodeA "gain" "1") ++ [.broadcastAllNodesReady, .taskRead 0 true, .taskSend 0 true] ++
    written (setParam nodeA "gain" "2") ++ [.handle daemonA 1]

theorem params_last_writer_wins_of_replay :
    let w := (run turn single replayedInTime).1
    ∃ c, (changesOf (nodeA, "gain") w.handed).getLast? = some c ∧ c.image = w.row (nodeA, "gain") := by
  have hlast : (changesOf (nodeA, "gain") (run turn single replayedInTime).1.handed).getLast? =
      some (setParam nodeA "gain" "2") := by decide +kernel
  refine ⟨_, hlast, ?_⟩
  exact params_last_writer_wins [nodeA] (fun _ => daemonA) replayedInTime (by decide +kernel)
    (by decide +kernel) (by decide +kernel) (nodeA, "gain") _ List.mem_cons_self hlast

def replayedLate : List ParamEvent :=
  written (setParam nodeA "gain" "1") ++ [.broadcastAllNodesReady, .taskRead 0 true] ++
    written (setParam nodeA "gain" "2") ++ [.taskSend 0 true, .handle daemonA 1]

/-- Nothing is lost, the task is done and the connection is empty; the node is left with the first value
and the row has the second. -/
theorem replay_overwrites_newer_param :
    Meets turn Lossless single replayedLate ∧
      (run turn single replayedLate).1.loop = .idle ∧
      (run turn single replayedLate).1.tasks = [{ daemon := daemonA, nodes := [] }] ∧
      (run turn single replayedLate).1.links daemonA = some [] ∧
      (run turn single replayedLate).1.handed.getLast? = some (setParam nodeA "gain" "1") ∧
      (run turn single replayedLate).1.row (nodeA, "gain") = some "2" := by
  decide +kernel

end Runs

end ParamWorld

end Dora.Coord
