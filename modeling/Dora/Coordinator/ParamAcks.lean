import Dora.Coordinator.ParamWrites

/-!
# What an acknowledgement says

An ack `s` of a daemon, recorded or on the way, says of every key of the daemon's nodes that the node has
the value that the key has after the first `s` mutations, or after some more. The messages on a connection
carry such a point each, and the points do not decrease along the connection, so that handling a message
never takes a key back behind an ack.
-/

namespace Dora.Coord

open Std Lib

namespace ParamWorld

variable {w w' : ParamWorld} {d : DaemonId} {k : ParamKey}

/-- What a message leaves of its keys is what they have after the first `e` mutations. -/
def MessageAt (mutations : List ParamChange) (ack e : Nat) : ParamMessage → Prop
  | .param c => c.image = valueAfter c.key (mutations.take e)
  | .stateCatchUp entries => ∃ a ≤ ack, a ≤ e ∧ entries = numbered a (window mutations a e)

/-- The messages are at points from `lo` on that do not decrease. -/
def Timed (mutations : List ParamChange) (ack : Nat) : Nat → List ParamMessage → Prop
  | lo, [] => lo ≤ mutations.length
  | lo, m :: ms =>
    ∃ e, lo ≤ e ∧ e ≤ mutations.length ∧ MessageAt mutations ack e m ∧ Timed mutations ack e ms

section Timed

variable {mutations : List ParamChange} {ack ack' lo : Nat} {m : ParamMessage} {ms : List ParamMessage}

theorem take_append_of_le {c : ParamChange} {e : Nat} (he : e ≤ mutations.length) :
    (mutations ++ [c]).take e = mutations.take e := List.take_append_of_le_length he

theorem Timed.weaken {lo' : Nat} (hlo : lo' ≤ lo) (h : Timed mutations ack lo ms) :
    Timed mutations ack lo' ms := by
  cases ms with
  | nil => exact hlo.trans h
  | cons m ms =>
    obtain ⟨e, hle, hrest⟩ := h
    exact ⟨e, hlo.trans hle, hrest⟩

theorem MessageAt.append {e : Nat} (c : ParamChange) (he : e ≤ mutations.length)
    (h : MessageAt mutations ack e m) : MessageAt (mutations ++ [c]) ack e m := by
  cases m with
  | param c' =>
    rw [MessageAt, take_append_of_le he]
    exact h
  | stateCatchUp entries =>
    obtain ⟨a, hack, hae, hentries⟩ := h
    refine ⟨a, hack, hae, ?_⟩
    rw [window, take_append_of_le he]
    exact hentries

theorem Timed.append (c : ParamChange) (h : Timed mutations ack lo ms) :
    Timed (mutations ++ [c]) ack lo ms := by
  induction ms generalizing lo with
  | nil => exact Nat.le_trans h (by simp)
  | cons m ms ih =>
    obtain ⟨e, hlo, he, hm, hms⟩ := h
    exact ⟨e, hlo, he.trans (by simp), hm.append c he, ih hms⟩

theorem MessageAt.mono {e : Nat} (hack : ack ≤ ack') (h : MessageAt mutations ack e m) :
    MessageAt mutations ack' e m := by
  cases m with
  | param c => exact h
  | stateCatchUp entries =>
    obtain ⟨a, ha, hae, hentries⟩ := h
    exact ⟨a, ha.trans hack, hae, hentries⟩

theorem Timed.mono (hack : ack ≤ ack') (h : Timed mutations ack lo ms) : Timed mutations ack' lo ms := by
  induction ms generalizing lo with
  | nil => exact h
  | cons m ms ih =>
    obtain ⟨e, hlo, he, hm, hms⟩ := h
    exact ⟨e, hlo, he, hm.mono hack, ih hms⟩

theorem Timed.concat (h : Timed mutations ack lo ms) (hm : MessageAt mutations ack mutations.length m) :
    Timed mutations ack lo (ms ++ [m]) := by
  induction ms generalizing lo with
  | nil => exact ⟨mutations.length, h, Nat.le_refl _, hm, Nat.le_refl _⟩
  | cons m' ms ih =>
    obtain ⟨e, hlo, he, hm', hms⟩ := h
    exact ⟨e, hlo, he, hm', ih hms⟩

end Timed

/-- The acks of `d`: the recorded one, and those on the way. -/
def acksOf (w : ParamWorld) (df : ParamDataflow) (d : DaemonId) : List Nat := df.lastAck d :: w.acks d

/-- Every key of a node on `d` is at `s` or later. -/
def ReachedBy (w : ParamWorld) (d : DaemonId) (s : Nat) : Prop :=
  ∀ k : ParamKey, k.1 ∈ w.nodes → w.home k.1 = d →
    ∃ t, s ≤ t ∧ valueAfter k w.handed = valueAfter k (w.mutations.take t)

/-- A fallback replay for `d`: only rows are on the way, and a key of `d` is still to be sent or is at the
node already, as long as no item failed. -/
def ReplayOpen (w : ParamWorld) (d : DaemonId) (items : List ParamChange) (failed : Nat) : Prop :=
  (∀ ms, w.links d = some ms → ∀ m ∈ ms, ∃ c, m = .param c ∧ c.image = w.row c.key) ∧
    (failed = 0 → ∀ k : ParamKey, k.1 ∈ w.nodes → w.home k.1 = d →
      ⟨k, w.row k⟩ ∈ items ∨ valueAfter k w.handed = w.row k)

/-- The acks of `d`, of which `last` is recorded, go up to `top`; the nodes of `d` are at `top` or later, and
so is what is on the way to them. -/
structure SoundFor (w : ParamWorld) (d : DaemonId) (last top : Nat) : Prop where
  bound : top ≤ w.mutations.length
  acks : ∀ s ∈ last :: w.acks d, s ≤ top
  reached : ReachedBy w d top
  timed : ∀ ms, w.links d = some ms → Timed w.mutations last top ms
  replaying : ∀ items failed, w.loop = .replaying d items failed → ReplayOpen w d items failed

structure AcksSound (w : ParamWorld) (df : ParamDataflow) : Prop where
  known : ∀ n ∈ w.nodes, df.nodeToDaemon[n]? = some (w.home n)
  rows : ∀ k, valueAfter k w.mutations = w.row k
  daemons : ∀ d, ∃ top, SoundFor w d (df.lastAck d) top

/-- Nothing is on the way to `d`, all rows of its nodes can be read, and none of its nodes holds a key that
has no row. -/
def ReplayComplete (w : ParamWorld) (d : DaemonId) (unreadable : List NodeId) : Prop :=
  w.links d = some [] ∧ (∀ n ∈ w.nodes, w.home n = d → n ∉ unreadable) ∧
    ∀ c ∈ w.handed, c.key.1 ∈ w.nodes → w.home c.key.1 = d → w.row c.key = none →
      valueAfter c.key w.handed = none

/-- What the acks rest on, step by step. The entry stays; a replay task sends only what its row has; a
catch-up is taken at least as far as the daemon has acked before; and a fallback replay is complete. -/
def AcksRest (w : ParamWorld) : ParamEvent → Prop
  | .taskSend i _ => ∀ t ∈ w.tasks[i]?, ∀ c ∈ t.items.head?, c.image = w.row c.key
  | .handle d room =>
    ∀ df ∈ w.entry, ∀ m ∈ ((w.links d).getD []).head?,
      match m with
      | .stateCatchUp entries =>
        ∀ s ∈ w.acksOf df d, ∀ e ∈ entries, e.sequence ≤ s →
          e ∈ w.applyStateCatchUpEntries d entries room
      | .param _ => True
  | .statusReport d _ now unreadable =>
    ∀ df ∈ w.entry, df.lastAck d < df.stateLogSequence → df.stateLogDelta (df.lastAck d) = none →
      inBackoff df d now = false → w.ReplayComplete d unreadable
  | .daemonExit d => ∀ df ∈ w.entry, (df.daemons.erase d).isEmpty = false
  | _ => True

/-- The places, the rows and the mutations are the same. -/
structure SameBooks (w w' : ParamWorld) : Prop where
  nodes : w'.nodes = w.nodes
  home : w'.home = w.home
  rows : w'.rows = w.rows
  mutations : w'.mutations = w.mutations

theorem SameBooks.row (h : SameBooks w w') : w'.row k = w.row k := by
  rw [ParamWorld.row, h.rows, ParamWorld.row]

/-- What the acks of `d` are about is the same. -/
structure SameFor (w w' : ParamWorld) (d : DaemonId) : Prop where
  acks : w'.acks d = w.acks d
  links : w'.links d = w.links d
  handed : ∀ k : ParamKey, w.home k.1 = d → valueAfter k w'.handed = valueAfter k w.handed

variable {last top a ack failed now : Nat} {rest : List ParamMessage}

theorem valueAfter_handed_other {d' : DaemonId} {cs : List ParamChange} (hcs : ∀ c ∈ cs, w.home c.key.1 = d)
    (hd : d' ≠ d) (hk : w.home k.1 = d') : valueAfter k (w.handed ++ cs) = valueAfter k w.handed := by
  rw [valueAfter_append, changesOf_eq_nil, lastImage_nil]
  rintro c hc rfl
  exact hd (hk.symm.trans (hcs c hc))

namespace SoundFor

theorem frame (h : SoundFor w d last top) (hbooks : SameBooks w w') (hsame : SameFor w w' d)
    (hloop : ∀ items failed, w'.loop = .replaying d items failed → ReplayOpen w d items failed) :
    SoundFor w' d last top where
  bound := by
    rw [hbooks.mutations]
    exact h.bound
  acks := by
    rw [hsame.acks]
    exact h.acks
  reached k hnode hk := by
    rw [hbooks.nodes] at hnode
    rw [hbooks.home] at hk
    rw [hsame.handed k hk, hbooks.mutations]
    exact h.reached k hnode hk
  timed := by
    rw [hsame.links, hbooks.mutations]
    exact h.timed
  replaying items failed hreplay := by
    obtain ⟨hmessages, hitems⟩ := hloop items failed hreplay
    unfold ReplayOpen
    simp only [hsame.links, hbooks.row, hbooks.nodes, hbooks.home]
    refine ⟨hmessages, fun hfailed k hnode hk => ?_⟩
    rw [hsame.handed k hk]
    exact hitems hfailed k hnode hk

theorem pop {m : ParamMessage} (h : SoundFor w d last top) (hlink : w.links d = some (m :: rest)) :
    SoundFor { w with links := Function.update w.links d (some rest) } d last top := by
  refine ⟨h.bound, h.acks, h.reached, ?_, ?_⟩
  · intro ms hms
    obtain rfl : rest = ms := by simpa using hms
    obtain ⟨e, hle, -, -, htimed⟩ := h.timed _ hlink
    exact htimed.weaken hle
  · intro items failed hreplay
    obtain ⟨hmessages, hitems⟩ := h.replaying items failed hreplay
    refine ⟨fun ms hms m' hm' => ?_, hitems⟩
    obtain rfl : rest = ms := by simpa using hms
    exact hmessages _ hlink m' (List.mem_cons_of_mem _ hm')

/-- A change that leaves its key at a point from `top` on is handed to a node. -/
theorem hand {c : ParamChange} {e : Nat} (h : SoundFor w d last top) (he : top ≤ e)
    (hat : c.image = valueAfter c.key (w.mutations.take e))
    (hrow : ∀ items failed, w.loop = .replaying d items failed → c.image = w.row c.key) :
    SoundFor { w with handed := w.handed ++ [c] } d last top := by
  refine ⟨h.bound, h.acks, fun k hnode hk => ?_, h.timed, fun items failed hreplay => ?_⟩
  · show ∃ t, top ≤ t ∧ valueAfter k (w.handed ++ [c]) = valueAfter k (w.mutations.take t)
    by_cases hkey : c.key = k
    · rw [valueAfter_concat_self hkey, ← hkey]
      exact ⟨e, he, hat⟩
    · rw [valueAfter_concat_of_ne hkey]
      exact h.reached k hnode hk
  · obtain ⟨hmessages, hitems⟩ := h.replaying items failed hreplay
    refine ⟨hmessages, fun hfailed k hnode hk => ?_⟩
    show _ ∈ items ∨ valueAfter k (w.handed ++ [c]) = w.row k
    by_cases hkey : c.key = k
    · rw [valueAfter_concat_self hkey, ← hkey]
      exact .inr (hrow items failed hreplay)
    · rw [valueAfter_concat_of_ne hkey]
      exact hitems hfailed k hnode hk

end SoundFor

/-! ### Catch-up messages -/

section CatchUp

variable {mutations : List ParamChange} {e j : Nat}

theorem applied_eq (hae : a ≤ e) (he : e ≤ mutations.length) (d : DaemonId) (room : Nat) :
    ∃ j, a + j ≤ e ∧
      w.applyStateCatchUpEntries d (numbered a (window mutations a e)) room =
        numbered a (window mutations a (a + j)) := by
  have hpre : w.applyStateCatchUpEntries d (numbered a (window mutations a e)) room <+:
      numbered a (window mutations a e) :=
    (List.take_prefix _ _).trans (List.takeWhile_prefix _)
  have hle := hpre.length_le
  have htake := List.prefix_iff_eq_take.mp hpre
  rw [length_numbered, length_window he] at hle
  generalize (w.applyStateCatchUpEntries d (numbered a (window mutations a e)) room).length = j at hle htake
  refine ⟨j, by omega, ?_⟩
  rw [htake, take_numbered, window, List.take_drop, List.take_take, Nat.min_eq_left (by omega), window]

/-- An ack whose entries are all taken again is not past what is taken. -/
theorem ack_le_applied {s : Nat} (he : e ≤ mutations.length) (hj : a + j ≤ e) (hs : s ≤ e)
    (htaken : ∀ en ∈ numbered a (window mutations a e), en.sequence ≤ s →
      en ∈ numbered a (window mutations a (a + j))) : s ≤ a + j := by
  by_contra hlt
  obtain ⟨en, hen, hsequence⟩ := mem_sequences_numbered.mpr
    (show a < a + j + 1 ∧ a + j + 1 ≤ a + (window mutations a e).length by
      rw [length_window he]
      omega)
  have hbound := (mem_sequences_numbered.mp ⟨en, htaken en hen (by omega), hsequence⟩).2
  rw [length_window (hj.trans he)] at hbound
  omega

theorem last_le_applied {s : Nat} (he : a + j ≤ mutations.length)
    (hs : s ∈ ((numbered a (window mutations a (a + j))).getLast?.map StateCatchUpEntry.sequence).toList) :
    s ≤ a + j := by
  by_cases hne : window mutations a (a + j) = []
  · rw [hne] at hs
    simp [numbered] at hs
  · rw [getLast?_numbered hne, Option.toList_some, List.mem_singleton, length_window he] at hs
    omega

theorem SoundFor.catchUp {entries : List StateCatchUpEntry} (h : SoundFor w d last top)
    (hlink : w.links d = some (.stateCatchUp entries :: rest)) (room : Nat)
    (htaken : ∀ s ∈ last :: w.acks d, ∀ e ∈ entries, e.sequence ≤ s →
      e ∈ w.applyStateCatchUpEntries d entries room) :
    ∃ top', SoundFor (({ w with links := Function.update w.links d (some rest) } :
      ParamWorld).handleMessage d room (.stateCatchUp entries)) d last top' := by
  obtain ⟨e, hle, helen, ⟨a, hack, hae, rfl⟩, htimed⟩ := h.timed _ hlink
  obtain ⟨j, hj, happlied⟩ := applied_eq (w := w) hae helen d room
  have hacked : ∀ s ∈ last :: w.acks d, s ≤ a + j := fun s hs =>
    ack_le_applied helen hj ((h.acks s hs).trans hle) (happlied ▸ htaken s hs)
  have happlied' : ({ w with links := Function.update w.links d (some rest) } :
      ParamWorld).applyStateCatchUpEntries d (numbered a (window w.mutations a e)) room =
        numbered a (window w.mutations a (a + j)) := happlied
  simp only [handleMessage, happlied', map_operation_numbered]
  refine ⟨a + j, hj.trans helen, ?_, ?_, ?_, ?_⟩
  · intro s hs
    simp only [Function.update_self, ← List.cons_append, List.mem_append] at hs
    exact hs.elim (hacked s) (last_le_applied (hj.trans helen))
  · intro k hnode hk
    obtain ⟨t, ht, hvalue⟩ := h.reached k hnode hk
    show ∃ t, a + j ≤ t ∧ valueAfter k (w.handed ++ window w.mutations a (a + j)) = _
    rw [valueAfter_append]
    exact exists_take_of_window (Nat.le_add_right a j)
      (hack.trans ((h.acks last List.mem_cons_self).trans ht)) hvalue
  · intro ms hms
    obtain rfl : rest = ms := by simpa using hms
    exact htimed.weaken hj
  · -- only rows are on the way during a fallback replay
    intro items failed hreplay
    obtain ⟨c, hc, -⟩ := (h.replaying items failed hreplay).1 _ hlink _ List.mem_cons_self
    cases hc

end CatchUp

namespace AcksSound

variable {df df' : ParamDataflow}

theorem replaying (h : AcksSound w df) (items : List ParamChange) (failed : Nat)
    (hreplay : w.loop = .replaying d items failed) : ReplayOpen w d items failed := by
  obtain ⟨_, hd⟩ := h.daemons d
  exact hd.replaying items failed hreplay

theorem frame (h : AcksSound w df) (hsame : SameTraffic w w') (hmutations : w'.mutations = w.mutations)
    (hacks : w'.acks = w.acks) (hlast : ∀ d, df'.lastAck d = df.lastAck d)
    (hknown : ∀ n ∈ w.nodes, df'.nodeToDaemon[n]? = some (w.home n))
    (hloop : ∀ (d : DaemonId) (items : List ParamChange) (failed : Nat),
      w'.loop = .replaying d items failed → ReplayOpen w d items failed) : AcksSound w' df' where
  known := by
    rw [hsame.nodes, hsame.home]
    exact hknown
  rows k := by rw [hmutations, hsame.row, h.rows]
  daemons d := by
    obtain ⟨top, hd⟩ := h.daemons d
    rw [hlast]
    exact ⟨top, hd.frame ⟨hsame.nodes, hsame.home, hsame.rows, hmutations⟩
      ⟨congrFun hacks d, congrFun hsame.links d, fun k _ => by rw [hsame.handed]⟩ (hloop d)⟩

theorem toIdle (h : AcksSound w df) : AcksSound { w with loop := .idle } df :=
  h.frame ⟨rfl, rfl, rfl, rfl, rfl⟩ rfl rfl (fun _ => rfl) h.known nofun

/-- Only the daemon `d` is concerned. -/
theorem mapAt (h : AcksSound w df) (hbooks : SameBooks w w')
    (hknown : ∀ n ∈ w.nodes, df'.nodeToDaemon[n]? = some (w.home n))
    (hothers : ∀ d' ≠ d, SameFor w w' d' ∧ df'.lastAck d' = df.lastAck d')
    (hloop : ∀ d' ≠ d, ∀ items failed, w'.loop = .replaying d' items failed → w.loop = w'.loop)
    (hd : ∀ top, SoundFor w d (df.lastAck d) top → ∃ top', SoundFor w' d (df'.lastAck d) top') :
    AcksSound w' df' where
  known := by
    rw [hbooks.nodes, hbooks.home]
    exact hknown
  rows k := by rw [hbooks.mutations, hbooks.row, h.rows]
  daemons d' := by
    obtain ⟨top, hd'⟩ := h.daemons d'
    by_cases hne : d' = d
    · subst hne
      exact hd top hd'
    · obtain ⟨hsame, hlast⟩ := hothers d' hne
      rw [hlast]
      exact ⟨top, hd'.frame hbooks hsame fun items failed hreplay =>
        hd'.replaying items failed ((hloop d' hne items failed hreplay).trans hreplay)⟩

theorem put {m : ParamMessage} (h : AcksSound w df)
    (hm : MessageAt w.mutations (df.lastAck d) w.mutations.length m)
    (hparam : ∀ items failed, w.loop = .replaying d items failed →
      ∃ c, m = .param c ∧ c.image = w.row c.key) : AcksSound (w.put d m) df := by
  have hlinks {ms : List ParamMessage} (hms : (w.put d m).links d = some ms) :
      ∃ ms', w.links d = some ms' ∧ ms' ++ [m] = ms := by
    simpa [ParamWorld.put] using hms
  refine h.mapAt ⟨rfl, rfl, rfl, rfl⟩ h.known
    (fun d' hd => ⟨⟨rfl, Function.update_of_ne hd _ _, fun _ _ => rfl⟩, rfl⟩) (fun _ _ _ _ _ => rfl) ?_
  refine fun top hd => ⟨top, hd.bound, hd.acks, hd.reached, ?_, ?_⟩
  · intro ms hms
    obtain ⟨ms', hms', rfl⟩ := hlinks hms
    exact (hd.timed ms' hms').concat hm
  · intro items failed hreplay
    obtain ⟨hmessages, hitems⟩ := hd.replaying items failed hreplay
    refine ⟨fun ms hms m' hm' => ?_, hitems⟩
    obtain ⟨ms', hms', rfl⟩ := hlinks hms
    rcases List.mem_append.mp hm' with hm' | hm'
    · exact hmessages ms' hms' m' hm'
    · rw [List.mem_singleton.mp hm']
      exact hparam items failed hreplay

theorem putRow {c : ParamChange} (h : AcksSound w df) (hc : c.image = w.row c.key) :
    AcksSound (w.put d (.param c)) df := by
  refine h.put ?_ fun _ _ _ => ⟨c, rfl, hc⟩
  rw [MessageAt, List.take_length, h.rows, hc]

theorem handle {m : ParamMessage} (h : AcksSound w df) (hlink : w.links d = some (m :: rest)) (room : Nat)
    (htaken : ∀ entries, m = .stateCatchUp entries → ∀ s ∈ w.acksOf df d, ∀ e ∈ entries, e.sequence ≤ s →
      e ∈ w.applyStateCatchUpEntries d entries room) :
    AcksSound (({ w with links := Function.update w.links d (some rest) } : ParamWorld).handleMessage
      d room m) df := by
  cases m with
  | param c =>
    simp only [handleMessage]
    split
    · rename_i hhome
      refine h.mapAt ⟨rfl, rfl, rfl, rfl⟩ h.known (fun d' hd => ⟨⟨rfl, Function.update_of_ne hd _ _, ?_⟩, rfl⟩)
        (fun _ _ _ _ _ => rfl) fun top hd => ⟨top, ?_⟩
      · intro k hk
        exact valueAfter_handed_other (fun c' hc' => List.mem_singleton.mp hc' ▸ hhome.1) hd hk
      · obtain ⟨e, hle, -, hat, -⟩ := hd.timed _ hlink
        refine (hd.pop hlink).hand hle hat fun items failed hreplay => ?_
        obtain ⟨c', hc', himage⟩ := (hd.replaying items failed hreplay).1 _ hlink _ List.mem_cons_self
        cases hc'
        exact himage
    · exact h.mapAt ⟨rfl, rfl, rfl, rfl⟩ h.known
        (fun d' hd => ⟨⟨rfl, Function.update_of_ne hd _ _, fun _ _ => rfl⟩, rfl⟩) (fun _ _ _ _ _ => rfl)
        fun top hd => ⟨top, hd.pop hlink⟩
  | stateCatchUp entries =>
    refine h.mapAt ⟨rfl, rfl, rfl, rfl⟩ h.known (fun d' hd =>
      ⟨⟨Function.update_of_ne hd _ _, Function.update_of_ne hd _ _, fun k hk => ?_⟩, rfl⟩)
      (fun _ _ _ _ _ => rfl) fun top hd => hd.catchUp hlink room (htaken entries rfl)
    refine valueAfter_handed_other (fun c hc => ?_) hd hk
    obtain ⟨e, he, rfl⟩ := List.mem_map.mp hc
    simpa using List.mem_takeWhile_imp (List.mem_of_mem_take he)

theorem log {c : ParamChange} (h : AcksSound w df) :
    AcksSound { w.writeRow c with
      entry := some (df.appendStateLog c), mutations := w.mutations ++ [c], loop := .forwarding d c }
      (df.appendStateLog c) := by
  refine ⟨h.known, fun k => ?_, fun d' => ?_⟩
  · show valueAfter k (w.mutations ++ [c]) = (w.writeRow c).row k
    rw [row_writeRow]
    by_cases hk : c.key = k
    · rw [if_pos hk, valueAfter_concat_self hk]
    · rw [if_neg hk, valueAfter_concat_of_ne hk, h.rows]
  · obtain ⟨top, hd⟩ := h.daemons d'
    refine ⟨top, hd.bound.trans (by simp), hd.acks, ?_, fun ms hms => (hd.timed ms hms).append c, nofun⟩
    intro k hnode hk
    obtain ⟨t, ht, hvalue⟩ := hd.reached k hnode hk
    refine ⟨min t w.mutations.length, Nat.le_min.mpr ⟨ht, hd.bound⟩, ?_⟩
    show valueAfter k w.handed = valueAfter k ((w.mutations ++ [c]).take _)
    rw [take_append_of_le (Nat.min_le_right _ _), hvalue, ← List.take_take, List.take_length]

theorem lastAck_setAck (d' : DaemonId) :
    (df.setAck d a).lastAck d' = if d = d' then a else df.lastAck d' := by
  rw [ParamDataflow.lastAck, ParamDataflow.setAck, TreeMap.getElem?_insert]
  by_cases hd : d = d'
  · rw [if_pos hd, if_pos (Std.compare_eq_iff_eq.mpr hd)]
    rfl
  · rw [if_neg hd, if_neg (fun heq => hd (Std.compare_eq_iff_eq.mp heq))]
    rfl

theorem lastAck_stateCatchUpAck (d' : DaemonId) :
    (df.stateCatchUpAck d ack).lastAck d' = df.lastAck d' ∨
      d' = d ∧ (df.stateCatchUpAck d ack).lastAck d' = max (min ack df.stateLogSequence) (df.lastAck d) := by
  unfold ParamDataflow.stateCatchUpAck
  split
  · show (df.setAck d _).lastAck d' = _ ∨ _ ∧ (df.setAck d _).lastAck d' = _
    rw [lastAck_setAck]
    by_cases hd : d = d'
    · exact .inr ⟨hd.symm, if_pos hd⟩
    · exact .inl (if_neg hd)
  · exact .inl rfl

theorem ackLost (h : AcksSound w df) : AcksSound (w.ackLost d) df := by
  refine h.mapAt ⟨rfl, rfl, rfl, rfl⟩ h.known
    (fun d' hd => ⟨⟨Function.update_of_ne hd _ _, rfl, fun _ _ => rfl⟩, rfl⟩) (fun _ _ _ _ _ => rfl)
    fun top hd => ⟨top, hd.bound, fun s hs => hd.acks s ?_, hd.reached, hd.timed, hd.replaying⟩
  simp only [ParamWorld.ackLost, Function.update_self] at hs
  exact (List.mem_cons.mp hs).elim (· ▸ List.mem_cons_self) fun hs =>
    List.mem_cons_of_mem _ (List.mem_of_mem_tail hs)

theorem ackArrives {acks : List Nat} (h : AcksSound w df) (hacks : w.acks d = ack :: acks) :
    AcksSound { w.ackLost d with entry := w.entry.map fun df => df.stateCatchUpAck d ack }
      (df.stateCatchUpAck d ack) := by
  refine h.mapAt ⟨rfl, rfl, rfl, rfl⟩ (fun n hn => ?_) (fun d' hd =>
    ⟨⟨Function.update_of_ne hd _ _, rfl, fun _ _ => rfl⟩,
      (lastAck_stateCatchUpAck d').resolve_right fun hself => hd hself.1⟩) (fun _ _ _ _ _ => rfl) ?_
  · unfold ParamDataflow.stateCatchUpAck
    split <;> exact h.known n hn
  · intro top hd
    have hack : ack ≤ top := hd.acks ack (by simp [hacks])
    have hlast : df.lastAck d ≤ top := hd.acks _ List.mem_cons_self
    have hbetween : df.lastAck d ≤ (df.stateCatchUpAck d ack).lastAck d ∧
        (df.stateCatchUpAck d ack).lastAck d ≤ top := by
      have hcases : (df.stateCatchUpAck d ack).lastAck d = df.lastAck d ∨ _ :=
        lastAck_stateCatchUpAck d
      rcases hcases with hsame | ⟨-, hmax⟩
      · exact ⟨hsame.ge, hsame.trans_le hlast⟩
      · omega
    refine ⟨top, hd.bound, fun s hs => ?_, hd.reached, fun ms hms => (hd.timed ms hms).mono hbetween.1,
      hd.replaying⟩
    simp only [ParamWorld.ackLost, Function.update_self, hacks, List.tail_cons] at hs
    rcases List.mem_cons.mp hs with rfl | hs
    · exact hbetween.2
    · exact hd.acks s (by simp [hacks, hs])

/-- Every key of `d` is at the end of the history, and so is what is on the way: `d` may be acked. -/
theorem ackAll (h : AcksSound w df) (hopen : ReplayOpen w d [] 0) :
    AcksSound { w with loop := .idle } (df.setAck d w.mutations.length) := by
  have htimed {ms : List ParamMessage} (hms : ∀ m ∈ ms, ∃ c, m = .param c ∧ c.image = w.row c.key) :
      Timed w.mutations w.mutations.length w.mutations.length ms := by
    induction ms with
    | nil => exact Nat.le_refl _
    | cons m ms ih =>
      obtain ⟨c, rfl, hc⟩ := hms m List.mem_cons_self
      refine ⟨_, Nat.le_refl _, Nat.le_refl _, ?_, ih fun m hm => hms m (List.mem_cons_of_mem _ hm)⟩
      rw [MessageAt, List.take_length, h.rows, hc]
  refine h.mapAt ⟨rfl, rfl, rfl, rfl⟩ h.known
    (fun d' hd => ⟨⟨rfl, rfl, fun _ _ => rfl⟩, (lastAck_setAck d').trans (if_neg (Ne.symm hd))⟩)
    (fun _ _ _ _ hreplay => nomatch hreplay) fun top hd => ⟨w.mutations.length, ?_⟩
  rw [lastAck_setAck, if_pos rfl]
  refine ⟨Nat.le_refl _, fun s hs => ?_, fun k hnode hk => ?_, fun ms hms => htimed (hopen.1 ms hms), nofun⟩
  · rcases List.mem_cons.mp hs with rfl | hs
    · exact Nat.le_refl _
    · exact (hd.acks s (List.mem_cons_of_mem _ hs)).trans hd.bound
  · refine ⟨w.mutations.length, Nat.le_refl _, ?_⟩
    rw [List.take_length, h.rows]
    exact (hopen.2 rfl k hnode hk).resolve_left List.not_mem_nil

variable {items : List ParamChange}

theorem continueReplay (h : AcksSound w df) (hkept : Kept w)
    (hentry : w.entry = some df) (hopen : ReplayOpen w d items failed) :
    ∃ df', (w.continueReplay d items failed).entry = some df' ∧
      AcksSound (w.continueReplay d items failed) df' := by
  have hsame := SameTraffic.continueReplay (w := w) (d := d) items failed
  cases items with
  | cons c items =>
    refine ⟨df, hentry, h.frame hsame rfl rfl (fun _ => rfl) h.known ?_⟩
    rintro d' items' failed' ⟨⟩
    exact hopen
  | nil =>
    by_cases hfailed : failed = 0
    · have hsequence : df.stateLogSequence = w.mutations.length := (hkept.booked df hentry).sequence
      subst hfailed
      have hall := h.ackAll hopen
      rw [← hsequence] at hall
      refine ⟨df.setAck d df.stateLogSequence, ?_, ?_⟩
      · simp [ParamWorld.continueReplay, finishReplay, hentry]
      · exact hall.frame ⟨rfl, rfl, rfl, rfl, rfl⟩ rfl rfl (fun _ => rfl) hall.known nofun
    · refine ⟨df, ?_, h.frame hsame rfl rfl (fun _ => rfl) h.known ?_⟩
      · simp [ParamWorld.continueReplay, finishReplay, hfailed, hentry]
      · rintro d' items' failed' ⟨⟩

theorem fallback {unreadable : List NodeId} (h : AcksSound w df) (hkept : Kept w)
    (hentry : w.entry = some df) (hloop : w.loop = .idle) (hlink : w.links d = some [])
    (hreads : ∀ n ∈ w.nodes, w.home n = d → n ∉ unreadable)
    (hnone : ∀ c ∈ w.handed, c.key.1 ∈ w.nodes → w.home c.key.1 = d → w.row c.key = none →
      valueAfter c.key w.handed = none) :
    let started : ParamWorld :=
      { w with entry := some { df with lastReplayAttempt := df.lastReplayAttempt.insert d now } }
    ∃ df', (started.continueReplay d
        (w.collectParamReplayItems (df.nodesOnDaemon d) unreadable) 0).entry = some df' ∧
      AcksSound (started.continueReplay d
        (w.collectParamReplayItems (df.nodesOnDaemon d) unreadable) 0) df' := by
  intro started
  have hbooked := hkept.booked df hentry
  have hset : Kept started := by
    apply hkept.setEntry
    rintro df' ⟨⟩
    exact ⟨by rw [hentry]; rfl, ⟨hbooked.sequence, hbooked.log, hbooked.acks⟩, hbooked.homes⟩
  have hframe : AcksSound started { df with lastReplayAttempt := df.lastReplayAttempt.insert d now } := by
    refine h.frame ⟨rfl, rfl, rfl, rfl, rfl⟩ rfl rfl (fun _ => rfl) h.known ?_
    intro d' items failed hreplay
    rw [show w.loop = .replaying d' items failed from hreplay] at hloop
    cases hloop
  refine hframe.continueReplay hset rfl ⟨?_, ?_⟩
  · intro ms hms m hm
    obtain rfl : [] = ms := Option.some.inj (hlink.symm.trans hms)
    cases hm
  · intro _ k hnode hk
    by_cases hrow : w.row k = none
    · right
      rw [show started.row k = none from hrow]
      by_cases hne : changesOf k w.handed = []
      · show valueAfter k w.handed = none
        rw [valueAfter, hne, lastImage_nil]
      · obtain ⟨c, hc⟩ := List.exists_mem_of_ne_nil _ hne
        obtain ⟨hmem, rfl⟩ := mem_changesOf.mp hc
        exact hnone c hmem hnode hk hrow
    · left
      refine mem_collectParamReplayItems.mpr
        ⟨⟨ParamDataflow.mem_nodesOnDaemon.mpr ?_, hreads k.1 hnode hk⟩, rfl, hrow⟩
      rw [h.known k.1 hnode]
      exact congrArg some hk

theorem report {runningNodes : List NodeId} {unreadable : List NodeId} (h : AcksSound w df)
    (hkept : Kept w) (hentry : w.entry = some df) (hloop : w.loop = .idle)
    (hrest : w.AcksRest (.statusReport d runningNodes now unreadable)) :
    ∃ df', (w.handleDaemonStatusReport d runningNodes now unreadable).entry = some df' ∧
      AcksSound (w.handleDaemonStatusReport d runningNodes now unreadable) df' := by
  simp only [handleDaemonStatusReport]
  have hreported : ∀ n ∈ runningNodes.filter fun n => w.home n = d, w.home n = d := by
    intro n hn
    simpa using (List.mem_filter.mp hn).2
  generalize runningNodes.filter (fun n => w.home n = d) = reported at hreported
  -- linking the daemon again and starting a task changes nothing that an ack is about
  have hkept₁ := (Kept.reestablish hkept hloop hreported).replayAllNodesReady (d := d)
  have hsame : SameTraffic w ((w.reestablish d reported).replayAllNodesReady d) :=
    (SameTraffic.reestablish reported).trans .replayAllNodesReady
  have hentry₁ : ((w.reestablish d reported).replayAllNodesReady d).entry = some (df.relink d reported) := by
    rw [entry_replayAllNodesReady, reestablish, hentry]
  have hframe : ((w.reestablish d reported).replayAllNodesReady d).mutations = w.mutations ∧
      ((w.reestablish d reported).replayAllNodesReady d).acks = w.acks ∧
      ((w.reestablish d reported).replayAllNodesReady d).loop = .idle := by
    simp only [reestablish, hentry, replayAllNodesReady]
    split <;> exact ⟨rfl, rfl, hloop⟩
  obtain ⟨hmutations, hacks, hloop₁⟩ := hframe
  have hknown : ∀ n ∈ w.nodes, (df.relink d reported).nodeToDaemon[n]? = some (w.home n) := by
    intro n hn
    rw [ParamDataflow.relink, getElem?_foldl_insert (fun _ => d)]
    split
    · rename_i hmem
      rw [hreported n hmem]
    · exact h.known n hn
  have h₁ : AcksSound ((w.reestablish d reported).replayAllNodesReady d) (df.relink d reported) := by
    refine h.frame hsame hmutations hacks (fun _ => rfl) hknown ?_
    intro d' items failed hreplay
    rw [hloop₁] at hreplay
    cases hreplay
  generalize (w.reestablish d reported).replayAllNodesReady d = w₁ at *
  simp only [ParamWorld.stateCatchUp, hentry₁]
  split
  · exact ⟨_, hentry₁, h₁⟩
  · rename_i hack
    have hack : df.lastAck d < df.stateLogSequence := Nat.lt_of_not_le hack
    have hlength : (df.relink d reported).stateLogSequence = w₁.mutations.length :=
      (hkept₁.booked _ hentry₁).sequence
    split
    · exact ⟨_, hentry₁, h₁⟩
    · rename_i entries _ hdelta
      refine ⟨_, hentry₁, h₁.put ⟨_, Nat.le_refl _, ?_, ?_⟩ ?_⟩
      · rw [← hlength]
        exact hack.le
      · rw [window, List.take_length]
        exact (hkept₁.booked _ hentry₁).stateLogDelta hack.le hdelta
      · intro items failed hreplay
        cases hloop₁.symm.trans hreplay
    · rename_i hdelta
      unfold handlePrunedStateCatchupFallback
      split
      · exact ⟨_, hentry₁, h₁⟩
      · rename_i hbackoff
        obtain ⟨hlink, hreads, hnone⟩ := hrest df hentry hack hdelta (Bool.eq_false_iff.mpr hbackoff)
        refine h₁.fallback hkept₁ hentry₁ hloop₁ ?_ ?_ ?_
        · rw [hsame.links, hlink]
        · rw [hsame.nodes, hsame.home]
          exact hreads
        · rw [hsame.handed, hsame.nodes, hsame.home]
          intro c hc hnode hk hrow
          rw [hsame.row] at hrow
          exact hnone c hc hnode hk hrow

theorem itemDelivered {item : ParamChange} (h : AcksSound w df)
    (hkept : Kept w) (hentry : w.entry = some df) (hloop : w.loop = .replaying d (item :: items) failed) :
    ∃ df', (({ w with handed := w.handed ++ [item] } : ParamWorld).continueReplay d items failed).entry =
        some df' ∧
      AcksSound (({ w with handed := w.handed ++ [item] } : ParamWorld).continueReplay d items failed)
        df' := by
  obtain ⟨hhome, himage⟩ := hkept.replaying hloop item List.mem_cons_self
  have hhanded : AcksSound { w with handed := w.handed ++ [item] } df := by
    refine h.mapAt (d := d) ⟨rfl, rfl, rfl, rfl⟩ h.known (fun d' hd => ⟨⟨rfl, rfl, fun k hk => ?_⟩, rfl⟩)
      (fun _ _ _ _ _ => rfl) fun top hd => ⟨top, hd.hand hd.bound ?_ fun _ _ _ => himage⟩
    · exact valueAfter_handed_other (fun c hc => List.mem_singleton.mp hc ▸ hhome) hd hk
    · rw [List.take_length, h.rows, himage]
  obtain ⟨hmessages, hitems⟩ := hhanded.replaying _ _ hloop
  refine hhanded.continueReplay ⟨hkept.booked, hkept.rows, hkept.loop, hkept.taskNodes, hkept.taskItems⟩ hentry
    ⟨hmessages, fun hfailed k hnode hk => (hitems hfailed k hnode hk).elim (fun hmem => ?_) .inr⟩
  rcases List.mem_cons.mp hmem with heq | hmem
  · have hkey : item.key = k := (congrArg Change.key heq).symm
    exact .inr ((valueAfter_concat_self hkey).trans (congrArg Change.image heq).symm)
  · exact .inl hmem

theorem dropConnection {link : Option (List ParamMessage)} (h : AcksSound w df) (hlink : link.getD [] = []) :
    AcksSound (w.dropConnection d link) df := by
  have hnil {ms : List ParamMessage} (hms : (w.dropConnection d link).links d = some ms) : ms = [] := by
    simp only [ParamWorld.dropConnection, Function.update_self] at hms
    rwa [hms] at hlink
  refine h.mapAt ⟨rfl, rfl, rfl, rfl⟩ h.known
    (fun d' hd => ⟨⟨rfl, Function.update_of_ne hd _ _, fun _ _ => rfl⟩, rfl⟩) (fun _ _ _ _ _ => rfl)
    fun top hd => ⟨top, hd.bound, hd.acks, hd.reached, fun ms hms => ?_, fun items failed hreplay =>
      ⟨fun ms hms m hm => ?_, (hd.replaying items failed hreplay).2⟩⟩
  · rw [hnil hms]
    exact hd.bound
  · rw [hnil hms] at hm
    cases hm

/-- The fresh id has no ack, and every other daemon keeps its own. -/
theorem exit (h : AcksSound w df) (hlink : w.links d = none) :
    AcksSound (w.daemonExit d) (df.leave d) := by
  have hlast (d' : DaemonId) : (df.leave d).lastAck d' = if d = d' then 0 else df.lastAck d' := by
    rw [ParamDataflow.lastAck, ParamDataflow.leave, TreeMap.getElem?_erase]
    by_cases hd : d = d'
    · rw [if_pos hd, if_pos (Std.compare_eq_iff_eq.mpr hd)]
      rfl
    · rw [if_neg hd, if_neg (fun heq => hd (Std.compare_eq_iff_eq.mp heq))]
      rfl
  refine h.mapAt ⟨rfl, rfl, rfl, rfl⟩ h.known (fun d' hd =>
    ⟨⟨Function.update_of_ne hd _ _, rfl, fun _ _ => rfl⟩, (hlast d').trans (if_neg (Ne.symm hd))⟩)
    (fun _ _ _ _ _ => rfl) fun top hd => ⟨top, hd.bound, fun s hs => ?_, hd.reached, fun ms hms => ?_,
      hd.replaying⟩
  · simp only [daemonExit, Function.update_self, hlast, if_pos, List.mem_singleton] at hs
    exact hs ▸ Nat.zero_le top
  · cases hlink.symm.trans hms

theorem move {e : ParamEvent} (h : AcksSound w df) (hkept : Kept w) (hentry : w.entry = some df)
    (hmove : Move w e w') (hrest : w.AcksRest e) : ∃ df', w'.entry = some df' ∧ AcksSound w' df' := by
  cases hmove with
  | stay => exact ⟨df, hentry, h⟩
  | persist _ hnone => cases hnone.symm.trans hentry
  | log _ hdf hd =>
    obtain rfl := Option.some.inj (hdf.symm.trans hentry)
    exact ⟨_, rfl, h.log⟩
  | @forward d c hloop =>
    exact ⟨df, hentry, (h.putRow (d := d) (hkept.forwarding hloop).2).toIdle⟩
  | forwardFailed => exact ⟨df, hentry, h.toIdle⟩
  | broadcast =>
    rw [broadcastAllNodesReady_eq]
    exact ⟨df, hentry, h.frame ⟨rfl, rfl, rfl, rfl, rfl⟩ rfl rfl (fun _ => rfl) h.known fun _ => h.replaying⟩
  | taskRead | taskSendFailed =>
    exact ⟨df, hentry, h.frame ⟨rfl, rfl, rfl, rfl, rfl⟩ rfl rfl (fun _ => rfl) h.known fun _ => h.replaying⟩
  | @taskSend i d item items ht =>
    have hput := h.putRow (d := d) (hrest _ ht _ rfl)
    exact ⟨df, hentry,
      hput.frame ⟨rfl, rfl, rfl, rfl, rfl⟩ rfl rfl (fun _ => rfl) hput.known fun _ => hput.replaying⟩
  | @handle d room m rest hlink =>
    refine ⟨df, ?_, h.handle hlink room ?_⟩
    · cases m with
      | param c =>
        simp only [handleMessage]
        split <;> exact hentry
      | stateCatchUp entries => exact hentry
    · rintro entries rfl
      exact hrest df hentry _ (by rw [hlink]; rfl)
  | ackArrives hloop hacks =>
    refine ⟨_, ?_, h.ackArrives hacks⟩
    show w.entry.map _ = _
    rw [hentry]
    rfl
  | ackLost d => exact ⟨df, hentry, h.ackLost⟩
  | report hloop => exact h.report hkept hentry hloop hrest
  | itemDelivered hloop => exact h.itemDelivered hkept hentry hloop
  | itemFailed hloop =>
    exact h.continueReplay hkept hentry
      ⟨(h.replaying _ _ hloop).1, fun hfailed => absurd hfailed (Nat.succ_ne_zero _)⟩
  | @itemLate d item items failed hloop =>
    have himage := (hkept.replaying hloop item List.mem_cons_self).2
    have hput := h.putRow (d := d) himage
    exact hput.continueReplay (hkept.put _) hentry
      ⟨(hput.replaying _ _ hloop).1, fun hfailed => absurd hfailed (Nat.succ_ne_zero _)⟩
  | connectionLost d | connect => exact ⟨df, hentry, h.dropConnection rfl⟩
  | @exit d hloop hlink =>
    refine ⟨df.leave d, ?_, h.exit hlink⟩
    simp only [daemonExit, hentry, Option.bind_some]
    exact if_neg (by rw [hrest df hentry]; exact Bool.false_ne_true)

end AcksSound

theorem acksSound_started (nodes : List NodeId) (home : NodeId → DaemonId) :
    ∃ df, (started nodes home).entry = some df ∧ AcksSound (started nodes home) df := by
  have hzero : ∀ (d : DaemonId) (df : ParamDataflow), (started nodes home).entry = some df →
      df.lastAck d = 0 := by
    rintro d df ⟨⟩
    rw [ParamDataflow.lastAck, getElem?_foldl_insert (fun _ => 0)]
    split <;> simp
  refine ⟨_, rfl, fun n hn => ?_, fun k => rfl, fun d => ?_⟩
  · rw [getElem?_foldl_insert home]
    exact if_pos hn
  · rw [hzero d _ rfl]
    refine ⟨0, Nat.zero_le _, fun s hs => (List.mem_singleton.mp hs).le, ?_, fun ms hms => ?_,
      fun _ _ hloop => by cases hloop⟩
    · exact fun k _ _ => ⟨0, Nat.le_refl 0, by simp [started]⟩
    · simp only [started] at hms
      split at hms
      · obtain rfl := Option.some.inj hms
        exact Nat.le_refl 0
      · cases hms

theorem acksSound_run {nodes : List NodeId} {home : NodeId → DaemonId} {events : List ParamEvent}
    {cond : ParamWorld → ParamEvent → Prop}
    (hcond : ∀ w df e, Kept w → w.entry = some df → AcksSound w df → cond w e → w.AcksRest e)
    (hmeets : Meets turn cond (started nodes home) events) :
    ∃ df, (run turn (started nodes home) events).1.entry = some df ∧
      AcksSound (run turn (started nodes home) events).1 df := by
  refine (run_induction_meets turn
    (P := fun _ _ w => Kept w ∧ ∃ df, w.entry = some df ∧ AcksSound w df)
    ⟨kept_started nodes home, acksSound_started nodes home⟩ ?_ events hmeets).2
  rintro _ _ w e - hmet ⟨hkept, df, hdf, hsound⟩
  have hmove := step_move w e
  exact ⟨hkept.move hmove, hsound.move hkept hdf hmove (hcond w df e hkept hdf hsound hmet)⟩

/-- Whenever an ack is recorded for `d`, every key of every node on `d` has at the node the value that it has
after the mutations up to the ack or up to some later one. -/
theorem recorded_ack_reached (nodes : List NodeId) (home : NodeId → DaemonId) (events : List ParamEvent)
    (hrest : Meets turn AcksRest (started nodes home) events) :
    let w := (run turn (started nodes home) events).1
    ∀ df ∈ w.entry, ∀ (d : DaemonId) (s : Nat), df.daemonAckSequence[d]? = some s →
      ∀ k : ParamKey, k.1 ∈ nodes → home k.1 = d →
        ∃ t, s ≤ t ∧ valueAfter k w.handed = valueAfter k (w.mutations.take t) := by
  intro w df hdf d s hs k hnode hk
  obtain ⟨df', hdf', hsound⟩ := acksSound_run (fun _ _ _ _ _ _ hrest => hrest) hrest
  obtain ⟨⟨hnodes, hhome⟩, -⟩ := kept_run nodes home events
  obtain rfl : df' = df := Option.some.inj (hdf'.symm.trans hdf)
  obtain ⟨top, hd⟩ := hsound.daemons d
  have hlast : s ≤ top := hd.acks s (by simp [ParamDataflow.lastAck, hs])
  obtain ⟨t, ht, hvalue⟩ := hd.reached k (by rwa [hnodes]) (by rwa [hhome])
  exact ⟨t, hlast.trans ht, hvalue⟩

instance (w : ParamWorld) (d : DaemonId) (unreadable : List NodeId) :
    Decidable (w.ReplayComplete d unreadable) :=
  have : Decidable (∀ c ∈ w.handed, c.key.1 ∈ w.nodes → w.home c.key.1 = d → w.row c.key = none →
      valueAfter c.key w.handed = none) := inferInstance
  inferInstanceAs (Decidable (_ ∧ _ ∧ _))

instance (w : ParamWorld) : DecidablePred w.AcksRest
  | .taskSend i _ =>
    inferInstanceAs (Decidable (∀ t ∈ w.tasks[i]?, ∀ c ∈ t.items.head?, c.image = w.row c.key))
  | .handle d room =>
    have (df : ParamDataflow) : DecidablePred fun m : ParamMessage =>
        match m with
        | .stateCatchUp entries =>
          ∀ s ∈ w.acksOf df d, ∀ e ∈ entries, e.sequence ≤ s →
            e ∈ w.applyStateCatchUpEntries d entries room
        | .param _ => True
      | .stateCatchUp entries =>
        inferInstanceAs (Decidable (∀ s ∈ w.acksOf df d, ∀ e ∈ entries, e.sequence ≤ s →
          e ∈ w.applyStateCatchUpEntries d entries room))
      | .param _ => .isTrue trivial
    inferInstanceAs (Decidable (∀ df ∈ w.entry, ∀ m ∈ ((w.links d).getD []).head?, _))
  | .statusReport d _ now unreadable =>
    inferInstanceAs (Decidable (∀ df ∈ w.entry, df.lastAck d < df.stateLogSequence →
      df.stateLogDelta (df.lastAck d) = none → inBackoff df d now = false → w.ReplayComplete d unreadable))
  | .daemonExit d => inferInstanceAs (Decidable (∀ df ∈ w.entry, (df.daemons.erase d).isEmpty = false))
  | .request _ | .forward _ | .broadcastAllNodesReady | .taskRead .. | .ackArrives _ | .ackLost _
  | .replayItem _ | .connectionLost _ | .connect _ => .isTrue trivial

/-- Node `a` on the first daemon and node `b` on the second. -/
def placed (n : NodeId) : DaemonId := if n = nodeA then daemonA else daemonB

def caughtUp : List ParamEvent :=
  [.request (setParam nodeA "gain" "1"), .forward true, .handle daemonA 0, .connectionLost daemonA,
    .connect daemonA, .statusReport daemonA [nodeA] 0 [], .handle daemonA 1, .ackArrives daemonA]

theorem recorded_ack_reached_of_catch_up :
    let w := (run turn (started [nodeA, nodeB] placed) caughtUp).1
    ∃ df ∈ w.entry, df.daemonAckSequence[daemonA]? = some 1 ∧
      ∃ t, 1 ≤ t ∧ valueAfter (nodeA, "gain") w.handed =
        valueAfter (nodeA, "gain") (w.mutations.take t) := by
  have hrecorded : ∃ df ∈ (run turn (started [nodeA, nodeB] placed) caughtUp).1.entry,
      df.daemonAckSequence[daemonA]? = some 1 := by decide +kernel
  obtain ⟨df, hdf, hack⟩ := hrecorded
  refine ⟨df, hdf, hack, ?_⟩
  exact recorded_ack_reached [nodeA, nodeB] placed caughtUp (by decide +kernel) df hdf daemonA 1 hack
    (nodeA, "gain") List.mem_cons_self (by decide +kernel)

/-- Between a catch-up and the arrival of its ack one forward is refused and the next one taken. -/
def forwardedPastGap : List ParamEvent :=
  [.request (setParam nodeA "gain" "1"), .forward true, .handle daemonA 0, .connectionLost daemonA,
    .connect daemonA, .statusReport daemonA [nodeA] 0 [], .handle daemonA 1,
    .request (setParam nodeA "bias" "2"), .forward true, .handle daemonA 0,
    .request (setParam nodeA "mode" "3"), .forward true, .handle daemonA 1, .ackArrives daemonA]

/-- A parameter of `a` is deleted while its daemon is away, and the log is pruned past its ack. -/
def deletedBeforeFallback : List ParamEvent :=
  [.request (setParam nodeB "level" "5"), .forward true, .handle daemonB 1,
    .request (setParam nodeA "gain" "1"), .forward true, .handle daemonA 1,
    .connectionLost daemonB, .connect daemonB, .statusReport daemonB [nodeB] 0 [], .handle daemonB 2,
    .connectionLost daemonA, .daemonExit daemonA, .ackArrives daemonB,
    .request (deleteParam nodeA "gain"), .forward true, .connect daemonA,
    .statusReport daemonA [nodeA] 0 []]

/-- In the first run the node's map is that of no prefix of the mutations, although each key is at the ack or
later. In the second the fallback replay acks the deletion, and the node still has the parameter. -/
theorem acked_map_skips_mutations :
    (let w := (run turn (started [nodeA, nodeB] placed) forwardedPastGap).1
     Meets turn AcksRest (started [nodeA, nodeB] placed) forwardedPastGap ∧
        (w.entry.bind fun df => df.daemonAckSequence[daemonA]?) = some 1 ∧
        ∀ t ≤ w.mutations.length, 1 ≤ t →
          ∃ key ∈ ["gain", "bias", "mode"],
            valueAfter (nodeA, key) w.handed ≠ valueAfter (nodeA, key) (w.mutations.take t)) ∧
      let w := (run turn (started [nodeA, nodeB] placed) deletedBeforeFallback).1
      w.mutations.length = 3 ∧ (w.entry.bind fun df => df.daemonAckSequence[daemonA]?) = some 3 ∧
        valueAfter (nodeA, "gain") w.handed = some "1" ∧ valueAfter (nodeA, "gain") w.mutations = none := by
  decide +kernel

end ParamWorld

end Dora.Coord
