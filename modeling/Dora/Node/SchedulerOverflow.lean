import Dora.Lib.Queue
import Dora.Node.EventStream
import Dora.Node.SchedulerConservation

/-!
# Overflow of the scheduler's queues

`add_event` looks at one queue only. `offer` says what it does to the events there, and the results are
facts about `offer`, carried through a run by the equation `queueOf_addEvent`.

The stream turns both `NodeEvent::Stop` and `NodeEvent::AllInputsClosed` into `Event::Stop`, while the
scheduler's `is_stop` knows the first only: an `AllInputsClosed` is sacrificed like any other event.
-/

namespace Dora

open Std

variable {ArrayData Json : Type}

namespace EventItem

/-- Neither bound to a request or goal nor `Stop`: what `select_eviction` sacrifices first. -/
def isOrdinary (event : EventItem ArrayData) : Bool := !event.isCorrelated && !event.isStop

variable {event : EventItem ArrayData}

theorem kept_of_not_ordinary (h : event.isOrdinary = false) :
    event.isCorrelated = true ∨ event.isStop = true := by
  unfold isOrdinary at h
  cases hc : event.isCorrelated <;> simp_all

def isAllInputsClosed : EventItem ArrayData → Bool
  | .nodeEvent .allInputsClosed => true
  | _ => false

/-- The stream hands the event out as `Event::Stop`. -/
def meansStop (codec : EventCodec ArrayData Json) (event : EventItem ArrayData) : Bool :=
  (convertEventItem codec event).isStop

theorem meansStop_eq (codec : EventCodec ArrayData Json) (event : EventItem ArrayData) :
    event.meansStop codec = (event.isStop || event.isAllInputsClosed) := by
  unfold meansStop convertEventItem
  repeat' split
  all_goals rfl

theorem queueId_of_meansStop {codec : EventCodec ArrayData Json}
    (h : event.meansStop codec = true) : event.queueId = NON_INPUT_EVENT_ID := by
  rw [meansStop_eq] at h
  unfold isStop isAllInputsClosed at h
  split at h
  · rfl
  · split at h
    · rfl
    · cases h

theorem meansStop_of_isCorrelated {codec : EventCodec ArrayData Json}
    (h : event.isCorrelated = true) : event.meansStop codec = false := by
  unfold isCorrelated eventParameters at h
  rw [meansStop_eq]
  split at h
  · rfl
  · rfl
  · cases h

end EventItem

namespace Scheduler

/-- What is left of a queue when `event` is about to be filed. -/
def afterFlush (queue : List (EventItem ArrayData)) (event : EventItem ArrayData) :
    List (EventItem ArrayData) :=
  if event.shouldFlush then queue.filter fun e => e.isCorrelated || e.isStop else queue

/-- What `addEvent` does to a queue of capacity `cap` after the flush. -/
def admitEvent (cap : Nat) (queue : List (EventItem ArrayData)) (event : EventItem ArrayData) :
    List (EventItem ArrayData) :=
  if cap ≤ queue.length then
    match selectEviction queue event with
    | .removeAt idx => queue.eraseIdx idx ++ [event]
    | .dropIncoming => queue
    | .dropCorrelatedLoud idx => queue.eraseIdx idx ++ [event]
  else queue ++ [event]

def offer (cap : Nat) (queue : List (EventItem ArrayData)) (event : EventItem ArrayData) :
    List (EventItem ArrayData) :=
  admitEvent cap (afterFlush queue event) event

section Queue

variable {cap : Nat} {queue : List (EventItem ArrayData)} {event : EventItem ArrayData}

inductive Admitted (cap : Nat) (queue : List (EventItem ArrayData)) (event : EventItem ArrayData) :
    List (EventItem ArrayData) → Prop where
  | stored (hroom : queue.length < cap) : Admitted cap queue event (queue ++ [event])
  | ordinaryOut (front : List (EventItem ArrayData)) (victim : EventItem ArrayData)
      (back : List (EventItem ArrayData)) (hfull : cap ≤ queue.length)
      (hqueue : queue = front ++ victim :: back) (hvictim : victim.isOrdinary = true)
      (hfront : ∀ e ∈ front, e.isOrdinary = false) :
      Admitted cap queue event (front ++ back ++ [event])
  | refused (hfull : cap ≤ queue.length) : Admitted cap queue event queue
  | correlatedOut (front : List (EventItem ArrayData)) (victim : EventItem ArrayData)
      (back : List (EventItem ArrayData)) (hfull : cap ≤ queue.length)
      (hqueue : queue = front ++ victim :: back) (hvictim : victim.isStop = false)
      (hkept : ∀ e ∈ queue, e.isOrdinary = false) (hevent : event.isOrdinary = false) :
      Admitted cap queue event (front ++ back ++ [event])

theorem admit_admitted (cap : Nat) (queue : List (EventItem ArrayData))
    (event : EventItem ArrayData) : Admitted cap queue event (admitEvent cap queue event) := by
  unfold admitEvent
  by_cases hfull : cap ≤ queue.length
  · rw [if_pos hfull]
    unfold selectEviction
    cases hordinary : queue.findIdx? (fun e => !e.isCorrelated && !e.isStop) with
    | some =>
      have ⟨front, victim, back, hqueue, herase, _, hvictim, hfront⟩ := Lib.findIdx?_split hordinary
      simp only [herase]
      exact .ordinaryOut front victim back hfull hqueue hvictim hfront
    | none =>
      have hkept : ∀ e ∈ queue, e.isOrdinary = false := List.findIdx?_eq_none_iff.mp hordinary
      by_cases hevent : (!event.isCorrelated && !event.isStop) = true
      · simp only [hevent, if_true]
        exact .refused hfull
      · simp only [hevent]
        cases hcorrelated : queue.findIdx? (fun e => !e.isStop) with
        | none => exact .refused hfull
        | some =>
          have ⟨front, victim, back, hqueue, herase, _, hvictim, _⟩ :=
            Lib.findIdx?_split hcorrelated
          simp only [Bool.false_eq_true, if_false, herase]
          refine .correlatedOut front victim back hfull hqueue ?_ hkept ?_
          · exact Bool.not_eq_true' _ ▸ hvictim
          · exact Bool.eq_false_iff.mpr hevent
  · rw [if_neg hfull]
    exact .stored (Nat.lt_of_not_le hfull)

namespace Admitted

variable {after : List (EventItem ArrayData)} (h : Admitted cap queue event after)

include h

theorem mem {e : EventItem ArrayData} (he : e ∈ after) : e ∈ queue ∨ e = event := by
  cases h with
  | stored => simpa using he
  | refused => exact .inl he
  | ordinaryOut front victim back _ hqueue | correlatedOut front victim back _ hqueue =>
    subst hqueue
    simp only [List.mem_append, List.mem_cons] at he ⊢
    tauto

theorem length_le (hlen : queue.length ≤ cap) : after.length ≤ cap := by
  cases h with
  | stored =>
    rw [List.length_append, List.length_singleton]
    omega
  | refused => exact hlen
  | ordinaryOut front victim back _ hqueue | correlatedOut front victim back _ hqueue =>
    rw [hqueue] at hlen
    simp only [List.length_append, List.length_cons, List.length_nil] at hlen ⊢
    omega

theorem ne_nil (hcap : 0 < cap) : after ≠ [] := by
  cases h with
  | stored | ordinaryOut | correlatedOut => simp
  | refused =>
    apply List.ne_nil_of_length_pos
    omega

theorem keeps_correlated :
    queue.filter EventItem.isCorrelated <+: after.filter EventItem.isCorrelated ∨
      (∀ e ∈ queue, e.isOrdinary = false) ∧ event.isOrdinary = false := by
  cases h with
  | stored =>
    rw [List.filter_append]
    exact .inl (List.prefix_append _ _)
  | refused => exact .inl (List.prefix_refl _)
  | ordinaryOut front victim back _ hqueue hvictim =>
    have hplain : victim.isCorrelated = false := by
      unfold EventItem.isOrdinary at hvictim
      simp_all
    rw [hqueue, List.filter_append (front ++ back), Lib.filter_remove front back hplain]
    exact .inl (List.prefix_append _ _)
  | correlatedOut _ _ _ _ _ _ hkept hevent => exact .inr ⟨hkept, hevent⟩

theorem keeps_meansStop (codec : EventCodec ArrayData Json)
    (hspares : cap ≤ queue.length →
      ∀ e ∈ queue.find? EventItem.isOrdinary, e.isAllInputsClosed = false) :
    queue.filter (EventItem.meansStop codec) <+: after.filter (EventItem.meansStop codec) := by
  cases h with
  | stored =>
    rw [List.filter_append]
    exact List.prefix_append _ _
  | refused => exact List.prefix_refl _
  | ordinaryOut front victim back hfull hqueue hvictim hfront =>
    have hfind : queue.find? EventItem.isOrdinary = some victim := by
      rw [hqueue, List.find?_append, List.find?_eq_none.mpr (by simpa using hfront)]
      simp [hvictim]
    have hclosed : victim.isAllInputsClosed = false := hspares hfull victim hfind
    have hstays : victim.meansStop codec = false := by
      unfold EventItem.isOrdinary at hvictim
      rw [EventItem.meansStop_eq, hclosed]
      simp_all
    rw [hqueue, List.filter_append (front ++ back), Lib.filter_remove front back hstays]
    exact List.prefix_append _ _
  | correlatedOut front victim back hfull hqueue hstop hkept =>
    have hcorrelated : victim.isCorrelated = true := by
      have hmem := hkept victim (by simp [hqueue])
      unfold EventItem.isOrdinary at hmem
      simp_all
    rw [hqueue, List.filter_append (front ++ back),
      Lib.filter_remove front back (EventItem.meansStop_of_isCorrelated hcorrelated)]
    exact List.prefix_append _ _

end Admitted

theorem afterFlush_sublist (queue : List (EventItem ArrayData)) (event : EventItem ArrayData) :
    (afterFlush queue event).Sublist queue := by
  unfold afterFlush
  split
  · exact List.filter_sublist
  · exact List.Sublist.refl _

theorem filter_isCorrelated_afterFlush (queue : List (EventItem ArrayData))
    (event : EventItem ArrayData) :
    (afterFlush queue event).filter EventItem.isCorrelated =
      queue.filter EventItem.isCorrelated := by
  unfold afterFlush
  split
  · rw [List.filter_filter]
    congr 1
    funext e
    cases e.isCorrelated <;> rfl
  · rfl

end Queue

section Queues

variable (s : Scheduler ArrayData)

theorem effectiveCapFor_pos (id : DataId) : 0 < s.effectiveCapFor id :=
  QueuePolicy.effectiveCap_pos _ _

theorem effectiveCapFor_setQueue {id : DataId} {size : Nat}
    {before after : List (EventItem ArrayData)} (h : s.eventQueues[id]? = some (size, before)) :
    (s.setQueue id size after).effectiveCapFor = s.effectiveCapFor := by
  funext id'
  by_cases hid : id' = id
  · subst hid
    simp [effectiveCapFor, setQueue, h]
  · simp [effectiveCapFor, setQueue, TreeMap.getElem?_insert, Ne.symm hid]

theorem effectiveCapFor_prepareQueue (event : EventItem ArrayData) :
    (s.prepareQueue event).effectiveCapFor = s.effectiveCapFor := by
  have hflush : (s.flush event.queueId).effectiveCapFor = s.effectiveCapFor := by
    funext id'
    by_cases hid : id' = event.queueId
    · subst hid
      cases h : s.eventQueues[event.queueId]? <;> simp [effectiveCapFor, flush, h]
    · simp [effectiveCapFor, flush, TreeMap.getElem?_modify, Ne.symm hid]
  have hensure (s : Scheduler ArrayData) :
      (s.ensureQueue event.queueId).effectiveCapFor = s.effectiveCapFor := by
    unfold ensureQueue
    split
    · rfl
    · rename_i hmissing
      funext id'
      by_cases hid : id' = event.queueId
      · subst hid
        have hnone : s.eventQueues[event.queueId]? = none :=
          TreeMap.getElem?_eq_none_of_contains_eq_false (Bool.not_eq_true _ ▸ hmissing)
        simp [effectiveCapFor, hnone]
      · simp [effectiveCapFor, TreeMap.getElem?_insert, Ne.symm hid]
  unfold prepareQueue
  rw [hensure]
  split
  · exact hflush
  · rfl

theorem queueOf_prepareQueue_eq (event : EventItem ArrayData) :
    (s.prepareQueue event).queueOf =
      Function.update s.queueOf event.queueId (afterFlush (s.queueOf event.queueId) event) := by
  rw [queueOf_prepareQueue]
  unfold afterFlush
  split
  · rfl
  · rw [Function.update_eq_self]

/-- `add_event` offers the event to its own queue; its capacity is that of `effective_cap_for`. -/
theorem addEvent_spec (event : EventItem ArrayData) :
    (s.addEvent event).queueOf = Function.update s.queueOf event.queueId
        (offer (s.effectiveCapFor event.queueId) (s.queueOf event.queueId) event) ∧
      (s.addEvent event).effectiveCapFor = s.effectiveCapFor := by
  have hcaps := effectiveCapFor_prepareQueue s event
  have hqueues := queueOf_prepareQueue_eq s event
  have ⟨⟨size, queue⟩, hget⟩ := Option.isSome_iff_exists.mp
    (ensureQueue_getElem?_isSome (if event.shouldFlush then s.flush event.queueId else s)
      event.queueId)
  change (s.prepareQueue event).eventQueues[event.queueId]? = _ at hget
  have hqueue : afterFlush (s.queueOf event.queueId) event = queue := by
    rw [← queueOf_of_getElem? _ hget, hqueues, Function.update_self]
  have hcap : (((s.prepareQueue event).queuePolicies[event.queueId]?).getD default).effectiveCap size =
      s.effectiveCapFor event.queueId := by
    rw [← hcaps]
    simp only [effectiveCapFor, hget, Option.map_some, Option.getD_some]
  have hset (after : List (EventItem ArrayData)) :
      ((s.prepareQueue event).setQueue event.queueId size after).queueOf =
        Function.update s.queueOf event.queueId after := by
    rw [queueOf_setQueue, hqueues, Function.update_idem]
  have hsetCaps (after : List (EventItem ArrayData)) :
      ((s.prepareQueue event).setQueue event.queueId size after).effectiveCapFor =
        s.effectiveCapFor := by
    rw [effectiveCapFor_setQueue _ hget, hcaps]
  unfold addEvent offer admitEvent
  simp only [hget, hcap, hqueue]
  split
  · cases selectEviction queue event with
    | removeAt | dropCorrelatedLoud => exact ⟨hset _, hsetCaps _⟩
    | dropIncoming => exact ⟨hqueue ▸ hqueues, hcaps⟩
  · exact ⟨hset _, hsetCaps _⟩

theorem queueOf_addEvent (event : EventItem ArrayData) (id : DataId) :
    (s.addEvent event).queueOf id = if id = event.queueId
      then offer (s.effectiveCapFor id) (s.queueOf id) event else s.queueOf id := by
  rw [(addEvent_spec s event).1]
  split
  · rename_i hid
    rw [hid, Function.update_self]
  · rename_i hid
    rw [Function.update_of_ne hid]

theorem effectiveCapFor_next : s.next.2.effectiveCapFor = s.effectiveCapFor := by
  have hinput (index : Nat) (ids : List DataId) :
      (s.nextInput index ids).2.effectiveCapFor = s.effectiveCapFor := by
    induction ids generalizing index with
    | nil => rfl
    | cons id ids ih =>
      unfold nextInput
      split
      · rename_i hget
        exact effectiveCapFor_setQueue s hget
      · exact ih (index + 1)
  unfold next
  split
  · rename_i hget
    exact effectiveCapFor_setQueue s hget
  · exact hinput 0 s.lastUsed

/-- `next` changes nothing or takes the oldest event of one queue. -/
theorem next_cases :
    (s.next.1 = none ∧ s.next.2.queueOf = s.queueOf) ∨
      ∃ id event rest, s.next.1 = some event ∧ s.queueOf id = event :: rest ∧
        s.next.2.queueOf = Function.update s.queueOf id rest := by
  generalize hnext : s.next = result
  have houtcome : NextOutcome s result := hnext ▸ s.next_outcome
  cases houtcome with
  | nothing => exact .inl ⟨rfl, rfl⟩
  | taken id event rest after hbefore hafter => exact .inr ⟨id, event, rest, rfl, hbefore, hafter⟩

theorem queueOf_next_suffix (id : DataId) : s.next.2.queueOf id <:+ s.queueOf id := by
  rcases s.next_cases with ⟨-, hsame⟩ | ⟨id', event, rest, -, hbefore, hafter⟩
  · rw [hsame]
  · rw [hafter]
    by_cases hid : id = id'
    · rw [hid, Function.update_self, hbefore]
      exact List.suffix_cons event rest
    · rw [Function.update_of_ne hid]

end Queues

def Filed (s : Scheduler ArrayData) : Prop := ∀ id, ∀ e ∈ s.queueOf id, e.queueId = id

def WithinCaps (s : Scheduler ArrayData) : Prop :=
  ∀ id, (s.queueOf id).length ≤ s.effectiveCapFor id

section Step

variable {s : Scheduler ArrayData}

theorem mem_of_mem_offer {cap : Nat} {queue : List (EventItem ArrayData)}
    {event e : EventItem ArrayData} (h : e ∈ offer cap queue event) : e ∈ queue ∨ e = event := by
  have hmem := (admit_admitted cap (afterFlush queue event) event).mem h
  exact hmem.imp_left fun hkept => (afterFlush_sublist queue event).subset hkept

theorem mem_queueOf_step {op : SchedulerOp ArrayData} {id : DataId} {e : EventItem ArrayData}
    (he : e ∈ (s.step op).1.queueOf id) : e ∈ s.queueOf id ∨ op = .addEvent e ∧ id = e.queueId := by
  cases op with
  | addEvent event =>
    change e ∈ (s.addEvent event).queueOf id at he
    rw [queueOf_addEvent] at he
    split at he
    · rename_i hid
      refine (mem_of_mem_offer he).imp_right fun hnew => ?_
      rw [hnew]
      exact ⟨rfl, hid⟩
    · exact .inl he
  | next => exact .inl ((s.queueOf_next_suffix id).subset he)
  | drainDropCounts => exact .inl he

theorem Filed.step (h : s.Filed) (op : SchedulerOp ArrayData) : (s.step op).1.Filed := by
  intro id e he
  obtain hqueued | ⟨-, rfl⟩ := mem_queueOf_step he
  · exact h id e hqueued
  · rfl

theorem WithinCaps.step (h : s.WithinCaps) (op : SchedulerOp ArrayData) :
    (s.step op).1.WithinCaps := by
  intro id
  cases op with
  | addEvent event =>
    change ((s.addEvent event).queueOf id).length ≤ (s.addEvent event).effectiveCapFor id
    rw [(s.addEvent_spec event).2, queueOf_addEvent]
    split
    · apply (admit_admitted _ _ event).length_le
      exact (afterFlush_sublist _ event).length_le.trans (h id)
    · exact h id
  | next =>
    change (s.next.2.queueOf id).length ≤ s.next.2.effectiveCapFor id
    rw [effectiveCapFor_next]
    exact (s.queueOf_next_suffix id).length_le.trans (h id)
  | drainDropCounts => exact h id

/-- The call does not make the scheduler sacrifice an `AllInputsClosed`: in a full queue the oldest
ordinary event is another one, and no flush hits a queue that holds one. -/
def SparesClosed (s : Scheduler ArrayData) : SchedulerOp ArrayData → Prop
  | .addEvent event =>
    (event.shouldFlush = true → ∀ e ∈ s.queueOf event.queueId, e.isAllInputsClosed = false) ∧
      (event.shouldFlush = false →
        s.effectiveCapFor event.queueId ≤ (s.queueOf event.queueId).length →
        ∀ e ∈ (s.queueOf event.queueId).find? EventItem.isOrdinary, e.isAllInputsClosed = false)
  | .next | .drainDropCounts => True

instance (s : Scheduler ArrayData) : ∀ op, Decidable (s.SparesClosed op)
  | .addEvent _ => inferInstanceAs (Decidable ((_ → _) ∧ (_ → _ → _)))
  | .next | .drainDropCounts => .isTrue trivial

theorem filter_meansStop_addEvent (codec : EventCodec ArrayData Json) {event : EventItem ArrayData}
    (hspares : s.SparesClosed (.addEvent event)) (id : DataId) :
    (s.queueOf id).filter (EventItem.meansStop codec) <+:
      ((s.addEvent event).queueOf id).filter (EventItem.meansStop codec) := by
  rw [queueOf_addEvent]
  split
  · rename_i hid
    subst hid
    have hadmitted := admit_admitted (s.effectiveCapFor event.queueId)
      (afterFlush (s.queueOf event.queueId) event) event
    by_cases hflush : event.shouldFlush = true
    · -- what the flush keeps has no ordinary event left, and it took no shutdown
      have hkept : (afterFlush (s.queueOf event.queueId) event).filter (EventItem.meansStop codec) =
          (s.queueOf event.queueId).filter (EventItem.meansStop codec) := by
        rw [afterFlush, if_pos hflush, List.filter_filter]
        apply List.filter_congr
        intro e he
        rw [EventItem.meansStop_eq, hspares.1 hflush e he]
        cases e.isStop <;> cases e.isCorrelated <;> rfl
      rw [← hkept]
      apply hadmitted.keeps_meansStop codec
      intro _
      rw [afterFlush, if_pos hflush, List.find?_filter, List.find?_eq_none.mpr]
      · nofun
      · intro e _
        unfold EventItem.isOrdinary
        cases e.isStop <;> cases e.isCorrelated <;> decide
    · have hkept : afterFlush (s.queueOf event.queueId) event = s.queueOf event.queueId := by
        rw [afterFlush, if_neg hflush]
      rw [hkept] at hadmitted
      unfold offer
      rw [hkept]
      exact hadmitted.keeps_meansStop codec (hspares.2 (Bool.eq_false_iff.mpr hflush))
  · exact List.prefix_refl _

end Step

end Scheduler

/-- The event a `next` returned. -/
def SchedulerAnswer.returned : SchedulerAnswer ArrayData → Option (EventItem ArrayData)
  | .event e => e
  | .added | .counts _ => none

namespace Scheduler

/-- The control events `next` takes, `AllInputsClosed` and `Stop` among them, come from their own
queue. -/
theorem filter_meansStop_next (codec : EventCodec ArrayData Json) {s : Scheduler ArrayData}
    (h : s.Filed) :
    (s.queueOf NON_INPUT_EVENT_ID).filter (EventItem.meansStop codec) =
      s.next.1.toList.filter (EventItem.meansStop codec) ++
        (s.next.2.queueOf NON_INPUT_EVENT_ID).filter (EventItem.meansStop codec) := by
  rcases s.next_cases with ⟨hnone, hsame⟩ | ⟨id, event, rest, hevent, hbefore, hafter⟩
  · rw [hnone, hsame]
    rfl
  · rw [hevent, hafter]
    by_cases hid : NON_INPUT_EVENT_ID = id
    · rw [hid, Function.update_self, hbefore, Option.toList_some, ← List.filter_append]
      rfl
    · have hinput : event.meansStop codec = false := by
        apply Bool.eq_false_iff.mpr
        intro hstop
        have hqueue := h id event (by rw [hbefore]; exact List.mem_cons_self)
        exact hid ((EventItem.queueId_of_meansStop hstop).symm.trans hqueue)
      rw [Function.update_of_ne hid]
      simp [hinput]

/-- The shutdowns queued at some point come out of `next`, in order, or stay queued. -/
theorem shutdowns_kept (codec : EventCodec ArrayData Json) (s : Scheduler ArrayData) (h : s.Filed)
    (ops : List (SchedulerOp ArrayData)) (hspares : Lib.Meets step SparesClosed s ops) :
    (s.queueOf NON_INPUT_EVENT_ID).filter (EventItem.meansStop codec) <+:
      ((Lib.run step s ops).2.filterMap SchedulerAnswer.returned).filter
          (EventItem.meansStop codec) ++
        ((Lib.run step s ops).1.queueOf NON_INPUT_EVENT_ID).filter (EventItem.meansStop codec) := by
  induction ops generalizing s with
  | nil => exact List.prefix_refl _
  | cons op ops ih =>
    have hlater := ih (s.step op).1 (h.step op) hspares.2
    cases op with
    | addEvent => exact (filter_meansStop_addEvent codec hspares.1 _).trans hlater
    | drainDropCounts => exact hlater
    | next =>
      rw [filter_meansStop_next codec h]
      have hout : (Lib.run step s (.next :: ops)).2.filterMap SchedulerAnswer.returned =
          s.next.1.toList ++
            (Lib.run step s.next.2 ops).2.filterMap SchedulerAnswer.returned := by
        change (SchedulerAnswer.event s.next.1 :: _).filterMap _ = _
        cases s.next.1 <;> rfl
      rw [hout, List.filter_append, List.append_assoc]
      exact (List.prefix_append_right_inj _).mpr hlater

/-- In every run that spares `AllInputsClosed`: no queue outgrows its capacity, a correlated event is
only evicted from a queue without ordinary events by an event that must be kept itself, and every
queued event that means shutdown stays until `next` takes it. -/
theorem overflow_policy (codec : EventCodec ArrayData Json) (keys : List DataId)
    (sizes : TreeMap DataId Nat) (policies : TreeMap DataId QueuePolicy)
    (ops later : List (SchedulerOp ArrayData))
    (hspares : Lib.Meets step SparesClosed (.fresh keys sizes policies) (ops ++ later)) :
    let s : Scheduler ArrayData := (Lib.run step (.fresh keys sizes policies) ops).1
    (∀ (id : DataId) (size : Nat) (queue : List (EventItem ArrayData)),
        s.eventQueues[id]? = some (size, queue) →
        queue.length ≤ ((s.queuePolicies[id]?).getD default).effectiveCap size) ∧
      (∀ (event : EventItem ArrayData) (id : DataId),
        (s.queueOf id).filter EventItem.isCorrelated <+:
            ((s.addEvent event).queueOf id).filter EventItem.isCorrelated ∨
          id = event.queueId ∧
            (∀ e ∈ (s.prepareQueue event).queueOf id, e.isCorrelated = true ∨ e.isStop = true) ∧
            (event.isCorrelated = true ∨ event.isStop = true)) ∧
      (s.queueOf NON_INPUT_EVENT_ID).filter (EventItem.meansStop codec) <+:
        ((Lib.run step s later).2.filterMap SchedulerAnswer.returned).filter
            (EventItem.meansStop codec) ++
          ((Lib.run step s later).1.queueOf NON_INPUT_EVENT_ID).filter
            (EventItem.meansStop codec) := by
  intro s
  have hinv : s.Filed ∧ s.WithinCaps := Lib.run_induction step (P := fun _ _ s => s.Filed ∧ s.WithinCaps)
    ⟨by simp [Filed], by simp [WithinCaps]⟩
    (fun _ _ s op _ h => ⟨h.1.step op, h.2.step op⟩) ops
  refine ⟨?_, ?_, ?_⟩
  · intro id size queue hget
    have hlen := hinv.2 id
    rw [queueOf_of_getElem? s hget] at hlen
    simpa only [effectiveCapFor, hget, Option.map_some, Option.getD_some] using hlen
  · intro event id
    rw [queueOf_addEvent]
    split
    · rename_i hid
      subst hid
      have hkeeps := (admit_admitted (s.effectiveCapFor event.queueId)
        (afterFlush (s.queueOf event.queueId) event) event).keeps_correlated
      rw [filter_isCorrelated_afterFlush] at hkeeps
      refine hkeeps.imp_right fun ⟨hkept, hevent⟩ => ⟨rfl, fun e he => ?_, ?_⟩
      · rw [queueOf_prepareQueue_eq, Function.update_self] at he
        exact EventItem.kept_of_not_ordinary (hkept e he)
      · exact EventItem.kept_of_not_ordinary hevent
    · exact .inl (List.prefix_refl _)
  · exact shutdowns_kept codec s hinv.1 later ((Lib.meets_append step _ ops later).mp hspares).2

def unitCodec : EventCodec Unit Unit := ⟨fun _ => .ok (), fun _ => .ok ()⟩

/-- A queue of two holds a service response and the newest of three pictures, and the
`AllInputsClosed` among the control events is handed out. -/
theorem overflow_policy_of_pictures :
    let response : EventItem Unit := .zenohInput ⟨"camera"⟩ ⟨{(REQUEST_ID, .string "req-1")}⟩ ()
    let picture : EventItem Unit := .zenohInput ⟨"camera"⟩ ⟨∅⟩ ()
    let sizes : TreeMap DataId Nat :=
      {(⟨"camera"⟩, 2), (NON_INPUT_EVENT_ID, NON_INPUT_EVENT_QUEUE_SIZE)}
    let s₀ : Scheduler Unit := .fresh [⟨"camera"⟩, NON_INPUT_EVENT_ID] sizes ∅
    let ops := [picture, response, picture, picture, .nodeEvent .allInputsClosed].map
      SchedulerOp.addEvent
    let s : Scheduler Unit := (Lib.run step s₀ ops).1
    Lib.Meets step SparesClosed s₀ (ops ++ [.next]) ∧
      (s.queueOf ⟨"camera"⟩).map EventItem.isCorrelated = [true, false] ∧
      (s.queueOf NON_INPUT_EVENT_ID).filter (EventItem.meansStop unitCodec) <+:
        ((Lib.run step s [.next]).2.filterMap SchedulerAnswer.returned).filter
            (EventItem.meansStop unitCodec) ++
          ((Lib.run step s [.next]).1.queueOf NON_INPUT_EVENT_ID).filter
            (EventItem.meansStop unitCodec) := by
  intro response picture sizes s₀ ops s
  have hspares : Lib.Meets step SparesClosed s₀ (ops ++ [.next]) := by decide +kernel
  exact ⟨hspares, by decide +kernel, (overflow_policy unitCodec _ sizes ∅ ops [.next] hspares).2.2⟩

def controlOnly : Scheduler ArrayData :=
  .fresh [NON_INPUT_EVENT_ID] {(NON_INPUT_EVENT_ID, NON_INPUT_EVENT_QUEUE_SIZE)} ∅

/-- An input may have the name of the queue for control events: the `flush` of a late message on it
discards the `AllInputsClosed` that waits there, and the node never sees that its inputs are closed. -/
theorem allInputsClosed_flushed :
    let closed : EventItem Unit := .nodeEvent .allInputsClosed
    let late : EventItem Unit := .zenohInput NON_INPUT_EVENT_ID ⟨{(FLUSH, .bool true)}⟩ ()
    let s : Scheduler Unit := (Lib.run step controlOnly [.addEvent closed]).1
    let reached := Lib.run step s [.addEvent late, .next, .next]
    ((s.queueOf NON_INPUT_EVENT_ID).filter (EventItem.meansStop unitCodec)).length = 1 ∧
      (reached.2.filterMap SchedulerAnswer.returned).length = 1 ∧
      (reached.2.filterMap SchedulerAnswer.returned).filter (EventItem.meansStop unitCodec) ++
        (reached.1.queueOf NON_INPUT_EVENT_ID).filter (EventItem.meansStop unitCodec) = [] := by
  decide +kernel

end Scheduler

end Dora
