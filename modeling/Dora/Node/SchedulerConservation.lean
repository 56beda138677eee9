import Dora.Lib.Ledger
import Dora.Lib.Machine
import Dora.Node.Scheduler

/-!
# Conservation of events in the scheduler

A run is a list of `add_event`, `next` and `drain_drop_counts` calls on a fresh scheduler. Every event
that was added has one fate: it is still queued, or it was returned by one `next`, or it was dropped and
counted once, or the flush of a later event of the same queue removed it.
-/

namespace Dora

open Std

variable {ArrayData : Type}

inductive SchedulerOp (ArrayData : Type) where
  | addEvent (event : EventItem ArrayData)
  | next
  | drainDropCounts

inductive SchedulerAnswer (ArrayData : Type) where
  | added
  | event (event : Option (EventItem ArrayData))
  | counts (dropped : TreeMap DataId Nat)

def Scheduler.step (s : Scheduler ArrayData) :
    SchedulerOp ArrayData → Scheduler ArrayData × SchedulerAnswer ArrayData
  | .addEvent event => (s.addEvent event, .added)
  | .next => (s.next.2, .event s.next.1)
  | .drainDropCounts => (s.drainDropCounts.1, .counts s.drainDropCounts.2)

def Scheduler.fresh (keys : List DataId) (sizes : TreeMap DataId Nat)
    (policies : TreeMap DataId QueuePolicy) : Scheduler ArrayData :=
  .withPolicies keys (sizes.map fun _ size => (size, [])) policies

@[simp] theorem Scheduler.queueOf_fresh (keys : List DataId) (sizes : TreeMap DataId Nat)
    (policies : TreeMap DataId QueuePolicy) (id : DataId) :
    (Scheduler.fresh keys sizes policies : Scheduler ArrayData).queueOf id = [] := by
  cases h : sizes[id]? <;> simp [Scheduler.queueOf, Scheduler.fresh, Scheduler.withPolicies, h]

namespace Conservation

inductive Departure where
  /-- returned by the `next` at that time -/
  | returned (time : Nat)
  /-- dropped by a full queue and counted -/
  | dropped
  /-- removed by the flush of the event added at that time -/
  | flushed (time : Nat)
deriving DecidableEq

def AddedAt (ops : List (SchedulerOp ArrayData)) (t : Nat) (e : EventItem ArrayData) : Prop :=
  ops[t]? = some (.addEvent e)

def arrival : SchedulerOp ArrayData → Option (DataId × EventItem ArrayData)
  | .addEvent event => some (event.queueId, event)
  | _ => none

/-- The drops of `id` that an answer reports. -/
def reportedCount (id : DataId) : SchedulerAnswer ArrayData → Nat
  | .counts dropped => dropped.getD id 0
  | .added | .event _ => 0

/-- The drops of `id` that the calls of `drainDropCounts` reported together. -/
def drainedCount (outs : List (SchedulerAnswer ArrayData)) (id : DataId) : Nat :=
  (outs.map (reportedCount id)).sum

/-- The times at which the events dropped under `id` were added. -/
def droppedUnder (ops : List (SchedulerOp ArrayData)) (fate : Nat → Option Departure)
    (id : DataId) : Finset Nat :=
  (Finset.range ops.length).filter fun t =>
    fate t = some .dropped ∧ Lib.arrivalKey (ops.map arrival) t = some id

/-- The departures recorded by `fate` are those of the run. -/
structure History (ops : List (SchedulerOp ArrayData)) (outs : List (SchedulerAnswer ArrayData))
    (fate : Nat → Option Departure) : Prop where
  /-- only events that were added have a fate -/
  added : ∀ t r, fate t = some r → ∃ e, AddedAt ops t e
  /-- an event said to be returned at a time is what the later call at that time returned -/
  returned : ∀ t j, fate t = some (.returned j) →
    ∃ e, AddedAt ops t e ∧ t < j ∧ outs[j]? = some (.event (some e))
  /-- everything `next` returned is one added event -/
  accounted : ∀ j e, outs[j]? = some (.event (some e)) →
    ∃! t, fate t = some (.returned j)
  /-- a flush takes only ordinary events of its own queue that were added before -/
  flushed : ∀ t k, fate t = some (.flushed k) → ∃ e f, AddedAt ops t e ∧ AddedAt ops k f ∧ t < k ∧
    f.shouldFlush = true ∧ f.queueId = e.queueId ∧ e.isCorrelated = false ∧ e.isStop = false
  /-- the events returned for one queue come out in the order they were added -/
  ordered : ∀ t t' e e' j j', AddedAt ops t e → AddedAt ops t' e' → e.queueId = e'.queueId →
    fate t = some (.returned j) → fate t' = some (.returned j') → t < t' → j < j'

structure Conserved (ops : List (SchedulerOp ArrayData)) (outs : List (SchedulerAnswer ArrayData))
    (s : Scheduler ArrayData) (fate : Nat → Option Departure) : Prop where
  history : History ops outs fate
  /-- the queues hold the events that have not departed, in the order they were added -/
  queued : Lib.Stocked (ops.map arrival) fate s.queueOf
  /-- each dropped event is counted once, under its own queue id -/
  counted : ∀ id, drainedCount outs id + s.dropped.getD id 0 = (droppedUnder ops fate id).card

section Extend

variable {ops : List (SchedulerOp ArrayData)} {outs : List (SchedulerAnswer ArrayData)}
variable {op : SchedulerOp ArrayData} {out : SchedulerAnswer ArrayData}
variable {fate fate' : Nat → Option Departure}

variable {e event victim : EventItem ArrayData} {j t t₀ : Nat}

theorem AddedAt.lt_length (h : AddedAt ops t e) :
    t < ops.length :=
  (List.getElem?_eq_some_iff.mp h).1

theorem AddedAt.concat (h : AddedAt ops t e) :
    AddedAt (ops ++ [op]) t e := by
  unfold AddedAt
  rw [List.getElem?_append_left h.lt_length]
  exact h

theorem AddedAt.unique {e' : EventItem ArrayData} (h : AddedAt ops t e)
    (h' : AddedAt ops t e') : e = e' := by
  simpa using Eq.trans (Eq.symm h) h'

theorem addedAt_concat :
    AddedAt (ops ++ [op]) t e ↔ AddedAt ops t e ∨ t = ops.length ∧ op = .addEvent e := by
  unfold AddedAt
  rcases Nat.lt_trichotomy t ops.length with hlt | rfl | hgt
  · rw [List.getElem?_append_left hlt]
    simp [hlt.ne]
  · simp
  · rw [List.getElem?_eq_none (by simp; omega), List.getElem?_eq_none (by omega)]
    simp [hgt.ne']

theorem arrivalKey_of_addedAt (h : AddedAt ops t e) :
    Lib.arrivalKey (ops.map arrival) t = some e.queueId := by
  rw [Lib.arrivalKey_eq_some]
  exact ⟨e, by simp [show ops[t]? = _ from h, arrival]⟩

theorem addedAt_of_arrival {id : DataId}
    (h : (ops.map arrival)[t]? = some (some (id, e))) : AddedAt ops t e ∧ e.queueId = id := by
  rw [List.getElem?_map] at h
  obtain ⟨o, ho, harr⟩ := Option.map_eq_some_iff.mp h
  cases o with
  | addEvent =>
    simp only [arrival, Option.some.injEq, Prod.mk.injEq] at harr
    exact ⟨harr.2 ▸ ho, harr.2 ▸ harr.1⟩
  | next | drainDropCounts => simp [arrival] at harr

inductive NewDeparture (ops : List (SchedulerOp ArrayData)) (op : SchedulerOp ArrayData)
    (out : SchedulerAnswer ArrayData) (fate : Nat → Option Departure) (t : Nat) :
    Departure → Prop where
  | returned (e : EventItem ArrayData) (hadd : AddedAt ops t e) (hout : out = .event (some e))
      (hfirst : ∀ t' e', AddedAt ops t' e' → e'.queueId = e.queueId → fate t' = none → t ≤ t') :
      NewDeparture ops op out fate t (.returned ops.length)
  | dropped (e : EventItem ArrayData) (hadd : AddedAt (ops ++ [op]) t e) :
      NewDeparture ops op out fate t .dropped
  | flushed (e f : EventItem ArrayData) (hadd : AddedAt ops t e) (hop : op = .addEvent f)
      (hflush : f.shouldFlush = true) (hid : f.queueId = e.queueId)
      (hcorrelated : e.isCorrelated = false) (hstop : e.isStop = false) :
      NewDeparture ops op out fate t (.flushed ops.length)

/-- `fate'` records what the call `op`, answered by `out`, did to the events. -/
structure Extends (ops : List (SchedulerOp ArrayData)) (op : SchedulerOp ArrayData)
    (out : SchedulerAnswer ArrayData) (fate fate' : Nat → Option Departure) : Prop where
  keeps : ∀ t r, fate t = some r → fate' t = some r
  new : ∀ t r, fate' t = some r → fate t = some r ∨ fate t = none ∧ NewDeparture ops op out fate t r
  answered : ∀ e, out = .event (some e) → ∃ t, fate t = none ∧ fate' t = some (.returned ops.length)

def Ahead (ops : List (SchedulerOp ArrayData)) (fate : Nat → Option Departure) : Prop :=
  ∀ t t' e e' j, AddedAt ops t e → AddedAt ops t' e' → e.queueId = e'.queueId →
    fate t = some (.returned j) → fate t' = none → t < t'

theorem History.returned_lt (h : History ops outs fate)
    (hfate : fate t = some (.returned j)) : j < outs.length := by
  obtain ⟨e, -, -, hout⟩ := h.returned t j hfate
  exact (List.getElem?_eq_some_iff.mp hout).1

theorem Extends.none_of_none (hext : Extends ops op out fate fate')
    (h : fate' t = none) : fate t = none := by
  cases hfate : fate t with
  | none => rfl
  | some r => rw [hext.keeps t r hfate] at h; exact h

theorem Extends.returned_cases (hext : Extends ops op out fate fate') (h : fate' t = some (.returned j)) :
    fate t = some (.returned j) ∨ fate t = none ∧ j = ops.length ∧ ∃ e, AddedAt ops t e ∧
      out = .event (some e) ∧
      ∀ t' e', AddedAt ops t' e' → e'.queueId = e.queueId → fate t' = none → t ≤ t' := by
  rcases hext.new t _ h with hold | ⟨hnone, hnew⟩
  · exact .inl hold
  · cases hnew with
    | returned e hadd hout hfirst => exact .inr ⟨hnone, rfl, e, hadd, hout, hfirst⟩

theorem Ahead.extend (h : Ahead ops fate) (hist : History ops outs fate)
    (hext : Extends ops op out fate fate') : Ahead (ops ++ [op]) fate' := by
  intro t t' e e' j hadd hadd' hid hret hwait
  have hwait₀ := hext.none_of_none hwait
  have hold : AddedAt ops t e := by
    rcases hext.returned_cases hret with hret | ⟨-, -, e₀, hadd₀, -⟩
    · obtain ⟨e₀, hadd₀⟩ := hist.added t _ hret
      exact hadd₀.concat.unique hadd ▸ hadd₀
    · exact hadd₀.concat.unique hadd ▸ hadd₀
  rcases addedAt_concat.mp hadd' with hadd' | ⟨rfl, -⟩
  · rcases hext.returned_cases hret with hret | ⟨-, -, e₀, hadd₀, -, hfirst⟩
    · exact h t t' e e' j hold hadd' hid hret hwait₀
    · have hle := hfirst t' e' hadd' (by rw [hadd₀.unique hold, hid]) hwait₀
      refine Nat.lt_of_le_of_ne hle ?_
      rintro rfl
      rw [hret] at hwait
      cases hwait
  · exact hold.lt_length

theorem History.extend (h : History ops outs fate) (hahead : Ahead ops fate)
    (hlen : outs.length = ops.length) (hext : Extends ops op out fate fate') :
    History (ops ++ [op]) (outs ++ [out]) fate' where
  added t r hfate := by
    rcases hext.new t r hfate with hold | ⟨-, hnew⟩
    · obtain ⟨e, he⟩ := h.added t r hold
      exact ⟨e, he.concat⟩
    · cases hnew with
      | returned e hadd | flushed e f hadd => exact ⟨e, hadd.concat⟩
      | dropped e hadd => exact ⟨e, hadd⟩
  returned t j hfate := by
    rcases hext.returned_cases hfate with hold | ⟨-, rfl, e, hadd, rfl, -⟩
    · obtain ⟨e, hadd, hlt, hout⟩ := h.returned t j hold
      refine ⟨e, hadd.concat, hlt, ?_⟩
      rw [List.getElem?_append_left (List.getElem?_eq_some_iff.mp hout).1, hout]
    · refine ⟨e, hadd.concat, hadd.lt_length, ?_⟩
      rw [← hlen, List.getElem?_concat_length]
  accounted j e hout := by
    rcases Nat.lt_or_ge j outs.length with hj | hj
    · rw [List.getElem?_append_left hj] at hout
      obtain ⟨t, ht, huniq⟩ := h.accounted j e hout
      refine ⟨t, hext.keeps t _ ht, fun t' ht' => ?_⟩
      rcases hext.returned_cases ht' with hold | ⟨-, rfl, -⟩
      · exact huniq t' hold
      · exact absurd hlen hj.ne'
    · have hj' : j = outs.length := by
        have := (List.getElem?_eq_some_iff.mp hout).1
        simp only [List.length_append, List.length_singleton] at this
        omega
      subst hj'
      rw [List.getElem?_concat_length, Option.some.injEq] at hout
      obtain ⟨t, hnone, ht⟩ := hext.answered e hout
      refine ⟨t, hlen ▸ ht, fun t' ht' => ?_⟩
      -- both times belong to the oldest queued event of the queue that was served
      rcases hext.returned_cases ht' with hold | ⟨hnone', -, e', hadd', hout', hfirst'⟩
      · exact absurd (h.returned_lt hold) (lt_irrefl _)
      · rcases hext.returned_cases ht with hold | ⟨-, -, e₀, hadd₀, hout₀, hfirst₀⟩
        · rw [hold] at hnone; cases hnone
        · rw [hout₀, SchedulerAnswer.event.injEq, Option.some.injEq] at hout'
          subst hout'
          exact Nat.le_antisymm (hfirst' t e₀ hadd₀ rfl hnone) (hfirst₀ t' e₀ hadd' rfl hnone')
  flushed t k hfate := by
    rcases hext.new t _ hfate with hold | ⟨-, hnew⟩
    · obtain ⟨e, f, hadd, hadd', hrest⟩ := h.flushed t k hold
      exact ⟨e, f, hadd.concat, hadd'.concat, hrest⟩
    · cases hnew with
      | flushed e f hadd hop hflush hid hcorrelated hstop =>
        exact ⟨e, f, hadd.concat, addedAt_concat.mpr (.inr ⟨rfl, hop⟩), hadd.lt_length, hflush,
          hid, hcorrelated, hstop⟩
  ordered t t' e e' j j' hadd hadd' hid hret hret' hlt := by
    rcases hext.returned_cases hret with hold | ⟨hnone, rfl, e₀, hadd₀, -⟩
    · rcases hext.returned_cases hret' with hold' | ⟨-, rfl, -⟩
      · obtain ⟨e₀, hadd₀⟩ := h.added t _ hold
        obtain ⟨e₀', hadd₀'⟩ := h.added t' _ hold'
        rw [← hadd₀.concat.unique hadd, ← hadd₀'.concat.unique hadd'] at hid
        exact h.ordered t t' e₀ e₀' j j' hadd₀ hadd₀' hid hold hold' hlt
      · exact hlen ▸ h.returned_lt hold
    · rcases hext.returned_cases hret' with hold' | ⟨hnone', rfl, e₀', hadd₀', hout', hfirst'⟩
      · -- the event returned before was then ahead of the one returned now
        obtain ⟨e₀', hadd₀'⟩ := h.added t' _ hold'
        rw [← hadd₀.concat.unique hadd, ← hadd₀'.concat.unique hadd'] at hid
        exact absurd (hahead t' t e₀' e₀ j' hadd₀' hadd₀ hid.symm hold' hnone) (by omega)
      · rw [← hadd₀.concat.unique hadd, ← hadd₀'.concat.unique hadd'] at hid
        exact absurd (hfirst' t e₀ hadd₀ hid hnone) (by omega)

theorem History.fate_length (h : History ops outs fate) : fate ops.length = none := by
  cases hfate : fate ops.length with
  | none => rfl
  | some r =>
    obtain ⟨e, he⟩ := h.added _ r hfate
    exact absurd he.lt_length (Nat.lt_irrefl _)

theorem mem_droppedUnder (h : History ops outs fate) {id : DataId} :
    t ∈ droppedUnder ops fate id ↔
      fate t = some .dropped ∧ ∃ e, AddedAt ops t e ∧ e.queueId = id := by
  unfold droppedUnder
  rw [Finset.mem_filter, Finset.mem_range]
  constructor
  · rintro ⟨-, hfate, hkey⟩
    obtain ⟨e, he⟩ := h.added t _ hfate
    rw [arrivalKey_of_addedAt he, Option.some.injEq] at hkey
    exact ⟨hfate, e, he, hkey⟩
  · rintro ⟨hfate, e, he, rfl⟩
    exact ⟨he.lt_length, hfate, arrivalKey_of_addedAt he⟩

variable {outs' : List (SchedulerAnswer ArrayData)}

theorem droppedUnder_of_same (h : History ops outs fate) (h' : History (ops ++ [op]) outs' fate')
    (hsame : ∀ t, fate' t = some .dropped ↔ fate t = some .dropped) (id : DataId) :
    droppedUnder (ops ++ [op]) fate' id = droppedUnder ops fate id := by
  ext t
  rw [mem_droppedUnder h, mem_droppedUnder h', hsame]
  refine and_congr_right fun hfate => ?_
  obtain ⟨e₀, he₀⟩ := h.added t _ hfate
  constructor
  · rintro ⟨e, he, hid⟩
    exact ⟨e₀, he₀, he₀.concat.unique he ▸ hid⟩
  · rintro ⟨e, he, hid⟩
    exact ⟨e, he.concat, hid⟩

theorem card_droppedUnder_of_drop (h : History ops outs fate) (h' : History (ops ++ [op]) outs' fate')
    {e₀ : EventItem ArrayData} (hadd : AddedAt (ops ++ [op]) t₀ e₀) (hnone : fate t₀ = none)
    (hdrop : ∀ t, fate' t = some .dropped ↔ fate t = some .dropped ∨ t = t₀) (id : DataId) :
    (droppedUnder (ops ++ [op]) fate' id).card =
      (droppedUnder ops fate id).card + if e₀.queueId = id then 1 else 0 := by
  have hmem : ∀ t, t ∈ droppedUnder (ops ++ [op]) fate' id ↔
      t ∈ droppedUnder ops fate id ∨ t = t₀ ∧ e₀.queueId = id := by
    intro t
    rw [mem_droppedUnder h, mem_droppedUnder h', hdrop]
    constructor
    · rintro ⟨hfate | rfl, e, he, hid⟩
      · obtain ⟨e₁, he₁⟩ := h.added t _ hfate
        exact .inl ⟨hfate, e₁, he₁, he₁.concat.unique he ▸ hid⟩
      · exact .inr ⟨rfl, he.unique hadd ▸ hid⟩
    · rintro (⟨hfate, e, he, hid⟩ | ⟨rfl, hid⟩)
      · exact ⟨.inl hfate, e, he.concat, hid⟩
      · exact ⟨.inr rfl, e₀, hadd, hid⟩
  have hnot : t₀ ∉ droppedUnder ops fate id := by
    rw [mem_droppedUnder h, hnone]
    simp
  by_cases hid : e₀.queueId = id
  · have hset : droppedUnder (ops ++ [op]) fate' id = insert t₀ (droppedUnder ops fate id) := by
      ext t
      simp only [hmem, hid, and_true, Finset.mem_insert, or_comm]
    rw [hset, Finset.card_insert_of_notMem hnot, if_pos hid]
  · have hset : droppedUnder (ops ++ [op]) fate' id = droppedUnder ops fate id := by
      ext t
      simp only [hmem, hid, and_false, or_false]
    rw [hset, if_neg hid, Nat.add_zero]

theorem drainedCount_concat (id : DataId) :
    drainedCount (outs ++ [out]) id = drainedCount outs id + reportedCount id out := by
  simp [drainedCount]

variable {s : Scheduler ArrayData}

def Ledger (ops : List (SchedulerOp ArrayData)) (outs : List (SchedulerAnswer ArrayData))
    (s : Scheduler ArrayData) : Prop :=
  ∃ fate, Conserved ops outs s fate ∧ Ahead ops fate

/-- A call that neither adds an event nor lets one go. -/
theorem Conserved.pass (h : Conserved ops outs s fate) (hahead : Ahead ops fate)
    (hlen : outs.length = ops.length) (hanswer : ∀ e, out ≠ .event (some e)) (harrival : arrival op = none)
    {s' : Scheduler ArrayData} (hqueues : s'.queueOf = s.queueOf)
    (hcount : ∀ id, reportedCount id out + s'.dropped.getD id 0 = s.dropped.getD id 0) :
    Ledger (ops ++ [op]) (outs ++ [out]) s' := by
  have hext : Extends ops op out fate fate :=
    ⟨fun _ _ ht => ht, fun _ _ ht => .inl ht, fun e he => absurd he (hanswer e)⟩
  have hhist := h.history.extend hahead hlen hext
  refine ⟨fate, ⟨hhist, ?_, fun id => ?_⟩, hahead.extend h.history hext⟩
  · rw [List.map_append, List.map_singleton, harrival, hqueues]
    exact h.queued.pass none (.inl rfl)
  · rw [droppedUnder_of_same h.history hhist (fun _ => Iff.rfl), ← h.counted, drainedCount_concat,
      Nat.add_assoc, hcount]

theorem Conserved.drainDropCounts (h : Conserved ops outs s fate) (hahead : Ahead ops fate)
    (hlen : outs.length = ops.length) :
    Ledger (ops ++ [.drainDropCounts]) (outs ++ [.counts s.dropped]) s.drainDropCounts.1 := by
  refine h.pass hahead hlen (fun _ he => by cases he) rfl rfl fun id => ?_
  simp [Scheduler.drainDropCounts, reportedCount]

theorem Conserved.next (h : Conserved ops outs s fate) (hahead : Ahead ops fate)
    (hlen : outs.length = ops.length) :
    Ledger (ops ++ [.next]) (outs ++ [.event s.next.1]) s.next.2 := by
  generalize hnext : s.next = result
  have hout : Scheduler.NextOutcome s result := hnext ▸ s.next_outcome
  cases hout with
  | nothing => exact h.pass hahead hlen (fun _ he => by cases he) rfl rfl fun id => Nat.zero_add _
  | taken id event rest after hbefore hafter hdropped =>
    have hhead : (s.queueOf id)[0]? = some event := by rw [hbefore]; rfl
    obtain ⟨t, ht, harr⟩ := h.queued.getElem_waiting hhead
    obtain ⟨hadd, rfl⟩ := addedAt_of_arrival harr
    have hmem := Lib.mem_waiting.mp (List.mem_of_getElem? ht)
    have hext : Extends ops .next (.event (some event)) fate
        (Lib.depart fate (· == t) (.returned ops.length)) := by
      refine ⟨fun u r hu => Lib.depart_eq_some.mpr (.inl hu), fun u r hu => ?_, fun e he => ?_⟩
      · rcases Lib.depart_eq_some.mp hu with hold | ⟨hnone, heq, rfl⟩
        · exact .inl hold
        · obtain rfl := beq_iff_eq.mp heq
          refine .inr ⟨hnone, .returned event hadd rfl fun t' e' hadd' hid hnone' => ?_⟩
          -- `t` heads the sorted list of the times still waiting for this queue
          have hwait : t' ∈ Lib.waiting (ops.map arrival) fate event.queueId :=
            Lib.mem_waiting.mpr ⟨hnone', e', by
              simp [show ops[t']? = _ from hadd', arrival, hid]⟩
          exact Lib.head_le_of_mem_waiting ht hwait
      · exact ⟨t, hmem.1, Lib.depart_eq_some.mpr (.inr ⟨hmem.1, by simp, rfl⟩)⟩
    have hhist := h.history.extend hahead hlen hext
    refine ⟨_, ⟨hhist, ?_, fun id => ?_⟩, hahead.extend h.history hext⟩
    · rw [List.map_append, hafter]
      have hrest : rest = (s.queueOf event.queueId).eraseIdx 0 := by rw [hbefore]; rfl
      rw [hrest]
      exact (h.queued.removeAt ht _).pass none (.inl rfl)
    · rw [droppedUnder_of_same h.history hhist (fun u => by simp [Lib.depart_eq_some]),
        ← h.counted, drainedCount_concat, hdropped, reportedCount, Nat.add_zero]

/-- What the flush step of `addEvent event` does to the fates. -/
def flushFate (ops : List (SchedulerOp ArrayData)) (fate : Nat → Option Departure)
    (event : EventItem ArrayData) : Nat → Option Departure :=
  if event.shouldFlush then
    Lib.depart fate
      (Lib.rejects (ops.map arrival) event.queueId fun e => e.isCorrelated || e.isStop)
      (.flushed ops.length)
  else fate

theorem Conserved.queued_flushFate (h : Conserved ops outs s fate) (event : EventItem ArrayData) :
    Lib.Stocked (ops.map arrival) (flushFate ops fate event) (s.prepareQueue event).queueOf := by
  rw [Scheduler.queueOf_prepareQueue]
  unfold flushFate
  split
  · exact h.queued.retain _ _ _
  · exact h.queued

theorem flushFate_cases {r : Departure} (h : flushFate ops fate event t = some r) :
    fate t = some r ∨ fate t = none ∧ NewDeparture ops (.addEvent event) .added fate t r ∧
      r = .flushed ops.length := by
  unfold flushFate at h
  split at h
  · rename_i hflush
    rcases Lib.depart_eq_some.mp h with hold | ⟨hnone, hrej, rfl⟩
    · exact .inl hold
    · rw [Lib.rejects, Bool.and_eq_true, beq_iff_eq, Lib.arrivalKey_eq_some] at hrej
      obtain ⟨⟨e, harr⟩, hitem⟩ := hrej
      obtain ⟨hadd, hid⟩ := addedAt_of_arrival harr
      simp only [Lib.arrivalItem_of_arrival harr, Option.any_some, Bool.not_or, Bool.and_eq_true,
        Bool.not_eq_true'] at hitem
      exact .inr ⟨hnone, .flushed e event hadd rfl hflush hid.symm hitem.1 hitem.2, rfl⟩
  · exact .inl h

theorem flushFate_keeps (event : EventItem ArrayData) {r : Departure}
    (h : fate t = some r) : flushFate ops fate event t = some r := by
  unfold flushFate
  split
  · exact Lib.depart_eq_some.mpr (.inl h)
  · exact h

theorem flushFate_dropped_iff (event : EventItem ArrayData) (t : Nat) :
    flushFate ops fate event t = some .dropped ↔ fate t = some .dropped := by
  constructor
  · intro h
    rcases flushFate_cases h with hold | ⟨-, -, hr⟩
    · exact hold
    · cases hr
  · exact flushFate_keeps event

theorem flushFate_length (h : Conserved ops outs s fate) (event : EventItem ArrayData) :
    flushFate ops fate event ops.length = none := by
  cases hfate : flushFate ops fate event ops.length with
  | none => rfl
  | some =>
    rcases flushFate_cases hfate with hold | ⟨-, hnew, rfl⟩
    · rw [h.history.fate_length] at hold; cases hold
    · cases hnew with
      | flushed e f hadd => exact absurd hadd.lt_length (Nat.lt_irrefl _)

/-- An `addEvent` whose queue had room records only the flush. -/
theorem extends_flushFate (event : EventItem ArrayData) :
    Extends ops (.addEvent event) .added fate (flushFate ops fate event) where
  keeps _ _ ht := flushFate_keeps event ht
  new _ _ ht := (flushFate_cases ht).imp_right fun h => ⟨h.1, h.2.1⟩
  answered _ he := by cases he

/-- An `addEvent` on a full queue records the flush and one drop. -/
theorem extends_drop (hadd : AddedAt (ops ++ [.addEvent event]) t₀ victim)
    (hnone : flushFate ops fate event t₀ = none) :
    Extends ops (.addEvent event) .added fate
      (Lib.depart (flushFate ops fate event) (· == t₀) .dropped) where
  keeps _ _ ht := Lib.depart_eq_some.mpr (.inl (flushFate_keeps event ht))
  new t r ht := by
    rcases Lib.depart_eq_some.mp ht with hold | ⟨-, heq, rfl⟩
    · exact (extends_flushFate event).new t r hold
    · obtain rfl := beq_iff_eq.mp heq
      exact .inr ⟨(extends_flushFate event).none_of_none hnone, .dropped victim hadd⟩
  answered _ he := by cases he

theorem Conserved.counted_drop (h : Conserved ops outs s fate) (hahead : Ahead ops fate)
    (hlen : outs.length = ops.length) (hadd : AddedAt (ops ++ [.addEvent event]) t₀ victim)
    (hnone : flushFate ops fate event t₀ = none) (hid : victim.queueId = event.queueId)
    {after : Scheduler ArrayData}
    (hdropped : after.dropped = ((s.prepareQueue event).countDrop event.queueId).dropped) (id : DataId) :
    drainedCount (outs ++ [.added]) id + after.dropped.getD id 0 =
      (droppedUnder (ops ++ [.addEvent event])
        (Lib.depart (flushFate ops fate event) (· == t₀) .dropped) id).card := by
  have hext : Extends ops (.addEvent event) .added fate _ := extends_drop hadd hnone
  have hfate : ∀ t, Lib.depart (flushFate ops fate event) (· == t₀) .dropped t = some .dropped ↔
      fate t = some .dropped ∨ t = t₀ := by
    intro t
    rw [Lib.depart_eq_some, flushFate_dropped_iff, beq_iff_eq]
    constructor
    · rintro (hold | ⟨-, rfl, -⟩)
      · exact .inl hold
      · exact .inr rfl
    · rintro (hold | rfl)
      · exact .inl hold
      · exact .inr ⟨hnone, rfl, rfl⟩
  rw [card_droppedUnder_of_drop h.history (h.history.extend hahead hlen hext) hadd
      ((extends_flushFate event).none_of_none hnone) hfate id, ← h.counted id, hdropped,
    Scheduler.getD_countDrop, hid, drainedCount_concat, Scheduler.dropped_prepareQueue, reportedCount]
  omega

theorem Conserved.addEvent (h : Conserved ops outs s fate) (hahead : Ahead ops fate)
    (hlen : outs.length = ops.length) (event : EventItem ArrayData) :
    Ledger (ops ++ [.addEvent event]) (outs ++ [.added]) (s.addEvent event) := by
  have hnew : AddedAt (ops ++ [.addEvent event]) ops.length event :=
    addedAt_concat.mpr (.inr ⟨rfl, rfl⟩)
  have hfresh := flushFate_length h event
  have hstock := h.queued_flushFate event
  have hlast : (ops.map arrival).length = ops.length := List.length_map _
  cases s.addEvent_outcome event with
  | stored hqueue hdropped =>
    have hext : Extends ops (.addEvent event) .added fate _ := extends_flushFate event
    have hhist := h.history.extend hahead hlen hext
    refine ⟨_, ⟨hhist, ?_, fun id => ?_⟩, hahead.extend h.history hext⟩
    · rw [List.map_append, hqueue]
      exact hstock.arrive _ _ (hlast ▸ hfresh)
    · rw [droppedUnder_of_same h.history hhist (flushFate_dropped_iff event), ← h.counted,
        drainedCount_concat, hdropped, Scheduler.dropped_prepareQueue, reportedCount, Nat.add_zero]
  | rejected hqueue hdropped =>
    have hext := extends_drop hnew hfresh
    refine ⟨_, ⟨h.history.extend hahead hlen hext, ?_,
      h.counted_drop hahead hlen hnew hfresh rfl hdropped⟩, hahead.extend h.history hext⟩
    rw [List.map_append, hqueue, ← hlast]
    exact hstock.refuse _ _
  | replaced idx victim hvictim hstop hqueue hdropped =>
    obtain ⟨t, ht, harr⟩ := hstock.getElem_waiting hvictim
    obtain ⟨hadd, hid⟩ := addedAt_of_arrival harr
    have hnone := (Lib.mem_waiting.mp (List.mem_of_getElem? ht)).1
    have hext := extends_drop hadd.concat hnone
    refine ⟨_, ⟨h.history.extend hahead hlen hext, ?_,
      h.counted_drop hahead hlen hadd.concat hnone hid hdropped⟩, hahead.extend h.history hext⟩
    rw [List.map_append, hqueue]
    have hremoved := hstock.removeAt ht .dropped
    have hfresh' : Lib.depart (flushFate ops fate event) (· == t) .dropped
        (ops.map arrival).length = none := by
      rw [Lib.depart_eq_none, hlast]
      exact ⟨hfresh, by simpa using hadd.lt_length.ne'⟩
    have harrive := hremoved.arrive event.queueId event hfresh'
    simpa [arrival] using harrive

end Extend

theorem history_nil : History ([] : List (SchedulerOp ArrayData)) [] fun _ => none where
  added _ _ h := by cases h
  returned _ _ h := by cases h
  accounted _ _ h := by simp at h
  flushed _ _ h := by cases h
  ordered _ _ _ _ _ _ _ _ _ h := by cases h

theorem ledger_fresh (keys : List DataId) (sizes : TreeMap DataId Nat)
    (policies : TreeMap DataId QueuePolicy) :
    Ledger [] [] (.fresh keys sizes policies : Scheduler ArrayData) := by
  refine ⟨fun _ => none, ⟨history_nil, fun id => ?_, fun id => ?_⟩, ?_⟩
  · simp [Lib.waiting]
  · simp [drainedCount, droppedUnder, Scheduler.fresh, Scheduler.withPolicies]
  · intro t t' e e' j _ _ _ h
    cases h

theorem ledger_step {ops : List (SchedulerOp ArrayData)} {outs : List (SchedulerAnswer ArrayData)}
    {s : Scheduler ArrayData} (op : SchedulerOp ArrayData) (hlen : outs.length = ops.length)
    (h : Ledger ops outs s) : Ledger (ops ++ [op]) (outs ++ [(s.step op).2]) (s.step op).1 := by
  obtain ⟨fate, hcons, hahead⟩ := h
  cases op with
  | addEvent event => exact hcons.addEvent hahead hlen event
  | next => exact hcons.next hahead hlen
  | drainDropCounts => exact hcons.drainDropCounts hahead hlen

/-- In every run from empty queues, every event that was added has one fate, and the fates account
for everything that was returned, is queued, was dropped or was flushed. -/
theorem scheduler_conserves_events (keys : List DataId) (sizes : TreeMap DataId Nat)
    (policies : TreeMap DataId QueuePolicy) (ops : List (SchedulerOp ArrayData)) :
    ∃ fate, Conserved ops (Lib.run Scheduler.step (.fresh keys sizes policies) ops).2
      (Lib.run Scheduler.step (.fresh keys sizes policies) ops).1 fate := by
  obtain ⟨fate, hcons, -⟩ := Lib.run_induction Scheduler.step
    (ledger_fresh keys sizes policies) (fun is outs s i hlen h => ledger_step i hlen h) ops
  exact ⟨fate, hcons⟩

end Conservation

end Dora
