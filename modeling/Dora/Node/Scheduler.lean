import Dora.Message.Config
import Dora.Message.Metadata

/-!
# The node's event scheduler (`apis/rust/node/src/event_stream/scheduler.rs`)

One bounded queue per input id and one for all non-input events. `addEvent` files an event under
its queue, after an optional flush and with an eviction when the queue is full; `next` yields a
non-input event first and otherwise serves the input queues in least-recently-used order.
-/

namespace Dora

open Std

variable {ArrayData : Type}

def EventItem.eventParameters : EventItem ArrayData → Option MetadataParameters
  | .nodeEvent (.input _ metadata _) => some metadata.parameters
  | .zenohInput _ metadata _ => some metadata.parameters
  | _ => none

def EventItem.isCorrelated (event : EventItem ArrayData) : Bool :=
  event.eventParameters.any carriesPatternCorrelation

def EventItem.isStop : EventItem ArrayData → Bool
  | .nodeEvent .stop => true
  | _ => false

def NON_INPUT_EVENT : String := "dora.non_input_event"

def NON_INPUT_EVENT_ID : DataId := ⟨NON_INPUT_EVENT⟩

/-- The queue an event is filed under, and whether it asks for older events to be flushed. -/
def EventItem.eventIdAndFlush : EventItem ArrayData → DataId × Bool
  | .nodeEvent (.input id metadata _) => (id, getBoolParam metadata.parameters FLUSH == some true)
  | .zenohInput id metadata _ => (id, getBoolParam metadata.parameters FLUSH == some true)
  | _ => (NON_INPUT_EVENT_ID, false)

def EventItem.queueId (event : EventItem ArrayData) : DataId := event.eventIdAndFlush.1

def EventItem.shouldFlush (event : EventItem ArrayData) : Bool := event.eventIdAndFlush.2

inductive Eviction where
  | removeAt (idx : Nat)
  | dropIncoming
  | dropCorrelatedLoud (idx : Nat)
deriving DecidableEq, Repr

/-- Prefer an ordinary queued event, then an ordinary incoming one, then the oldest correlated
event; a queued `Stop` is never chosen. -/
def selectEviction (queue : List (EventItem ArrayData)) (incoming : EventItem ArrayData) :
    Eviction :=
  match queue.findIdx? (fun e => !e.isCorrelated && !e.isStop) with
  | some idx => .removeAt idx
  | none =>
    if !incoming.isCorrelated && !incoming.isStop then .dropIncoming
    else
      match queue.findIdx? (fun e => !e.isStop) with
      | some idx => .dropCorrelatedLoud idx
      | none => .dropIncoming

structure Scheduler (ArrayData : Type) where
  /-- Input ids, least recently served first. -/
  lastUsed : List DataId
  /-- Configured size and content of each queue. -/
  eventQueues : TreeMap DataId (Nat × List (EventItem ArrayData))
  queuePolicies : TreeMap DataId QueuePolicy
  /-- Drop counters since the last `drainDropCounts`. -/
  dropped : TreeMap DataId Nat

namespace Scheduler

/-- `keys` is the order in which the hash map of queues is iterated. -/
def withPolicies (keys : List DataId)
    (eventQueues : TreeMap DataId (Nat × List (EventItem ArrayData)))
    (queuePolicies : TreeMap DataId QueuePolicy) : Scheduler ArrayData where
  lastUsed := keys.filter (· ≠ NON_INPUT_EVENT_ID)
  eventQueues := eventQueues
  queuePolicies := queuePolicies
  dropped := ∅

def drainDropCounts (s : Scheduler ArrayData) : Scheduler ArrayData × TreeMap DataId Nat :=
  ({ s with dropped := ∅ }, s.dropped)

def effectiveCapFor (s : Scheduler ArrayData) (id : DataId) : Nat :=
  let size := (s.eventQueues[id]?.map Prod.fst).getD DEFAULT_QUEUE_SIZE
  ((s.queuePolicies[id]?).getD default).effectiveCap size

/-- Discard the queued events of `id` that a flush may discard. -/
def flush (s : Scheduler ArrayData) (id : DataId) : Scheduler ArrayData :=
  { s with
    eventQueues := s.eventQueues.modify id fun entry =>
      (entry.1, entry.2.filter fun e => e.isCorrelated || e.isStop) }

def ensureQueue (s : Scheduler ArrayData) (id : DataId) : Scheduler ArrayData :=
  if s.eventQueues.contains id then s
  else
    { s with
      lastUsed := s.lastUsed ++ [id]
      eventQueues := s.eventQueues.insert id (DEFAULT_QUEUE_SIZE, []) }

def countDrop (s : Scheduler ArrayData) (id : DataId) : Scheduler ArrayData :=
  { s with dropped := s.dropped.insert id (s.dropped.getD id 0 + 1) }

def setQueue (s : Scheduler ArrayData) (id : DataId) (size : Nat)
    (queue : List (EventItem ArrayData)) : Scheduler ArrayData :=
  { s with eventQueues := s.eventQueues.insert id (size, queue) }

/-- The first half of `add_event`: flush if asked to, then make sure the queue exists. -/
def prepareQueue (s : Scheduler ArrayData) (event : EventItem ArrayData) : Scheduler ArrayData :=
  (if event.shouldFlush then s.flush event.queueId else s).ensureQueue event.queueId

def addEvent (s : Scheduler ArrayData) (event : EventItem ArrayData) : Scheduler ArrayData :=
  let eventId := event.queueId
  let s := s.prepareQueue event
  match s.eventQueues[eventId]? with
  | none => s
  | some (size, queue) =>
    let policy := (s.queuePolicies[eventId]?).getD default
    if policy.effectiveCap size ≤ queue.length then
      let s := s.countDrop eventId
      match selectEviction queue event with
      | .removeAt idx => s.setQueue eventId size (queue.eraseIdx idx ++ [event])
      | .dropIncoming => s
      | .dropCorrelatedLoud idx => s.setQueue eventId size (queue.eraseIdx idx ++ [event])
    else s.setQueue eventId size (queue ++ [event])

/-- The loop of `next` over `last_used`: `ids` is what is left of it from position `index` on. -/
def nextInput (s : Scheduler ArrayData) (index : Nat) :
    List DataId → Option (EventItem ArrayData) × Scheduler ArrayData
  | [] => (none, s)
  | id :: ids =>
    match s.eventQueues[id]? with
    | some (size, event :: rest) =>
      (some event,
        { s.setQueue id size rest with lastUsed := s.lastUsed.eraseIdx index ++ [id] })
    | _ => s.nextInput (index + 1) ids

def next (s : Scheduler ArrayData) : Option (EventItem ArrayData) × Scheduler ArrayData :=
  match s.eventQueues[NON_INPUT_EVENT_ID]? with
  | some (size, event :: rest) => (some event, s.setQueue NON_INPUT_EVENT_ID size rest)
  | _ => s.nextInput 0 s.lastUsed

def isEmpty (s : Scheduler ArrayData) : Bool :=
  s.eventQueues.toList.all fun entry => entry.2.2.isEmpty

/-- The events queued under `id`. -/
def queueOf (s : Scheduler ArrayData) (id : DataId) : List (EventItem ArrayData) :=
  s.eventQueues[id]?.elim [] Prod.snd

variable (s : Scheduler ArrayData)

theorem queueOf_of_getElem? {id : DataId} {size : Nat} {queue : List (EventItem ArrayData)}
    (h : s.eventQueues[id]? = some (size, queue)) : s.queueOf id = queue := by
  simp only [queueOf, h, Option.elim_some]

@[simp] theorem queueOf_setQueue (id : DataId) (size : Nat) (queue : List (EventItem ArrayData)) :
    (s.setQueue id size queue).queueOf = Function.update s.queueOf id queue := by
  funext id'
  by_cases hid : id' = id
  · subst hid
    simp [queueOf, setQueue]
  · simp [queueOf, setQueue, TreeMap.getElem?_insert, hid, Ne.symm hid]

@[simp] theorem queueOf_countDrop (id : DataId) : (s.countDrop id).queueOf = s.queueOf := rfl

theorem getD_countDrop (k id : DataId) :
    (s.countDrop k).dropped.getD id 0 = s.dropped.getD id 0 + if k = id then 1 else 0 := by
  by_cases hid : k = id
  · subst hid
    simp [countDrop]
  · simp [countDrop, TreeMap.getD_insert, hid]

@[simp] theorem queueOf_ensureQueue (id : DataId) : (s.ensureQueue id).queueOf = s.queueOf := by
  unfold ensureQueue
  split
  · rfl
  · rename_i hmissing
    funext id'
    by_cases hid : id' = id
    · subst hid
      have hnone : s.eventQueues[id']? = none :=
        TreeMap.getElem?_eq_none_of_contains_eq_false (Bool.not_eq_true _ ▸ hmissing)
      simp [queueOf, hnone]
    · simp [queueOf, TreeMap.getElem?_insert, Ne.symm hid]

theorem queueOf_flush (id : DataId) :
    (s.flush id).queueOf =
      Function.update s.queueOf id
        ((s.queueOf id).filter fun e => e.isCorrelated || e.isStop) := by
  funext id'
  by_cases hid : id' = id
  · subst hid
    cases h : s.eventQueues[id']? <;> simp [queueOf, flush, h]
  · simp [queueOf, flush, TreeMap.getElem?_modify, hid, Ne.symm hid]

theorem ensureQueue_getElem?_isSome (id : DataId) :
    ((s.ensureQueue id).eventQueues[id]?).isSome := by
  unfold ensureQueue
  split
  · rename_i h
    rwa [TreeMap.isSome_getElem?_eq_contains]
  · simp

theorem queueOf_prepareQueue (event : EventItem ArrayData) :
    (s.prepareQueue event).queueOf =
      if event.shouldFlush then
        Function.update s.queueOf event.queueId
          ((s.queueOf event.queueId).filter fun e => e.isCorrelated || e.isStop)
      else s.queueOf := by
  unfold prepareQueue
  rw [queueOf_ensureQueue]
  split
  · exact queueOf_flush s event.queueId
  · rfl

@[simp] theorem dropped_prepareQueue (event : EventItem ArrayData) :
    (s.prepareQueue event).dropped = s.dropped := by
  unfold prepareQueue ensureQueue
  split <;> split <;> rfl

/-- The index picked for eviction is a position of the queue, and a queued `Stop` is not there. -/
theorem selectEviction_index {queue : List (EventItem ArrayData)} {incoming : EventItem ArrayData}
    {idx : Nat} (h : selectEviction queue incoming = .removeAt idx ∨
      selectEviction queue incoming = .dropCorrelatedLoud idx) :
    ∃ e, queue[idx]? = some e ∧ e.isStop = false := by
  unfold selectEviction at h
  split at h
  · rename_i i hfind
    obtain ⟨hi, hp, -⟩ := List.findIdx?_eq_some_iff_getElem.mp hfind
    simp only [Eviction.removeAt.injEq, reduceCtorEq, or_false] at h
    subst h
    exact ⟨queue[i], List.getElem?_eq_getElem hi, by simp_all⟩
  · split at h
    · simp at h
    · split at h
      · rename_i i hfind
        obtain ⟨hi, hp, -⟩ := List.findIdx?_eq_some_iff_getElem.mp hfind
        simp only [Eviction.dropCorrelatedLoud.injEq, reduceCtorEq, false_or] at h
        subst h
        exact ⟨queue[i], List.getElem?_eq_getElem hi, by simp_all⟩
      · simp at h

/-- The three things `addEvent` can do once the queue is prepared. -/
inductive AddOutcome (prepared : Scheduler ArrayData) (event : EventItem ArrayData)
    (after : Scheduler ArrayData) : Prop where
  | stored
      (hqueue : after.queueOf = Function.update prepared.queueOf event.queueId
        (prepared.queueOf event.queueId ++ [event]))
      (hdropped : after.dropped = prepared.dropped)
  | rejected
      (hqueue : after.queueOf = prepared.queueOf)
      (hdropped : after.dropped = (prepared.countDrop event.queueId).dropped)
  | replaced (idx : Nat) (victim : EventItem ArrayData)
      (hvictim : (prepared.queueOf event.queueId)[idx]? = some victim)
      (hstop : victim.isStop = false)
      (hqueue : after.queueOf = Function.update prepared.queueOf event.queueId
        ((prepared.queueOf event.queueId).eraseIdx idx ++ [event]))
      (hdropped : after.dropped = (prepared.countDrop event.queueId).dropped)

theorem addEvent_outcome (event : EventItem ArrayData) :
    AddOutcome (s.prepareQueue event) event (s.addEvent event) := by
  unfold addEvent
  obtain ⟨⟨size, queue⟩, hget⟩ := Option.isSome_iff_exists.mp
    (ensureQueue_getElem?_isSome (if event.shouldFlush then s.flush event.queueId else s)
      event.queueId)
  change (s.prepareQueue event).eventQueues[event.queueId]? = _ at hget
  have hqueue := queueOf_of_getElem? _ hget
  simp only [hget]
  split
  · -- the queue is full
    split
    · rename_i idx hsel
      obtain ⟨victim, hvictim, hstop⟩ := selectEviction_index (Or.inl hsel)
      exact .replaced idx victim (hqueue ▸ hvictim) hstop (by simp [hqueue]) rfl
    · exact .rejected rfl rfl
    · rename_i idx hsel
      obtain ⟨victim, hvictim, hstop⟩ := selectEviction_index (Or.inr hsel)
      exact .replaced idx victim (hqueue ▸ hvictim) hstop (by simp [hqueue]) rfl
  · exact .stored (by simp [hqueue]) rfl

/-- `next` either finds every queue it looks at empty or takes the oldest event of one queue. -/
inductive NextOutcome (before : Scheduler ArrayData) :
    Option (EventItem ArrayData) × Scheduler ArrayData → Prop where
  | nothing : NextOutcome before (none, before)
  | taken (id : DataId) (event : EventItem ArrayData) (rest : List (EventItem ArrayData))
      (after : Scheduler ArrayData)
      (hbefore : before.queueOf id = event :: rest)
      (hafter : after.queueOf = Function.update before.queueOf id rest)
      (hdropped : after.dropped = before.dropped) : NextOutcome before (some event, after)

theorem nextInput_outcome (index : Nat) (ids : List DataId) :
    NextOutcome s (s.nextInput index ids) := by
  induction ids generalizing index with
  | nil => exact .nothing
  | cons id ids ih =>
    unfold nextInput
    split
    · rename_i size event rest hget
      refine .taken id event rest _ (queueOf_of_getElem? s hget) ?_ rfl
      exact queueOf_setQueue s id size rest
    · exact ih (index + 1)

theorem next_outcome : NextOutcome s s.next := by
  unfold next
  split
  · rename_i size event rest hget
    exact .taken NON_INPUT_EVENT_ID event rest _ (queueOf_of_getElem? s hget)
      (queueOf_setQueue s _ size rest) rfl
  · exact nextInput_outcome s 0 s.lastUsed

end Scheduler

end Dora
