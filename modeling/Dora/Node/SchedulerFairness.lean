import Dora.Node.SchedulerOverflow

/-!
# Fairness of the scheduler

`last_used` lists the known inputs, least recently served first. An input that waits keeps its place
until it is served, and whoever is served before it goes behind it: so no other input is served twice
before it.
-/

namespace Dora

open Std

variable {ArrayData : Type}

def EventItem.inputId : EventItem ArrayData → Option DataId
  | .nodeEvent (.input id _ _) => some id
  | .zenohInput id _ _ => some id
  | _ => none

theorem EventItem.queueId_eq (event : EventItem ArrayData) :
    event.queueId = event.inputId.getD NON_INPUT_EVENT_ID := by
  match event with
  | .nodeEvent event => cases event <;> rfl
  | .zenohInput .. | .fatalError _ | .timeoutError _ => rfl

def SchedulerAnswer.isOf (id : DataId) (answer : SchedulerAnswer ArrayData) : Bool :=
  answer.returned.any fun event => event.inputId == some id

def SchedulerOp.ProperlyNamed : SchedulerOp ArrayData → Prop
  | .addEvent event => event.inputId ≠ some NON_INPUT_EVENT_ID
  | .next | .drainDropCounts => True

instance : ∀ op : SchedulerOp ArrayData, Decidable op.ProperlyNamed
  | .addEvent event => inferInstanceAs (Decidable (event.inputId ≠ some NON_INPUT_EVENT_ID))
  | .next | .drainDropCounts => .isTrue trivial

namespace Scheduler

/-- What `next` does: nothing, a control event, or the turn of the first input that waits. -/
inductive Served (s : Scheduler ArrayData) :
    Option (EventItem ArrayData) × Scheduler ArrayData → Prop where
  | nothing : Served s (none, s)
  | control (event : EventItem ArrayData) (rest : List (EventItem ArrayData))
      (after : Scheduler ArrayData) (hbefore : s.queueOf NON_INPUT_EVENT_ID = event :: rest)
      (hafter : after.queueOf = Function.update s.queueOf NON_INPUT_EVENT_ID rest)
      (hkeys : ∀ id, id ∈ after.eventQueues ↔ id ∈ s.eventQueues)
      (hlast : after.lastUsed = s.lastUsed) : Served s (some event, after)
  | turn (front : List DataId) (id : DataId) (back : List DataId) (event : EventItem ArrayData)
      (rest : List (EventItem ArrayData)) (after : Scheduler ArrayData)
      (hwaiting : s.lastUsed = front ++ id :: back) (hfront : ∀ id' ∈ front, s.queueOf id' = [])
      (hbefore : s.queueOf id = event :: rest)
      (hafter : after.queueOf = Function.update s.queueOf id rest)
      (hkeys : ∀ id, id ∈ after.eventQueues ↔ id ∈ s.eventQueues)
      (hlast : after.lastUsed = front ++ back ++ [id]) : Served s (some event, after)

variable {id x : DataId}

theorem mem_eventQueues_setQueue (s : Scheduler ArrayData) {size : Nat}
    {before after : List (EventItem ArrayData)} (h : s.eventQueues[id]? = some (size, before))
    (id' : DataId) : id' ∈ (s.setQueue id size after).eventQueues ↔ id' ∈ s.eventQueues := by
  have hmem : id ∈ s.eventQueues := TreeMap.mem_iff_isSome_getElem?.mpr (by rw [h]; rfl)
  simp only [setQueue, TreeMap.mem_insert, Std.compare_eq_iff_eq]
  constructor
  · rintro (rfl | hid)
    · exact hmem
    · exact hid
  · exact .inr

theorem nextInput_served (s : Scheduler ArrayData) (front ids : List DataId)
    (hlast : s.lastUsed = front ++ ids) (hfront : ∀ id ∈ front, s.queueOf id = []) :
    Served s (s.nextInput front.length ids) := by
  induction ids generalizing front with
  | nil => exact .nothing
  | cons id ids ih =>
    unfold nextInput
    split
    · rename_i size event rest hget
      refine .turn front id ids event rest _ hlast hfront (queueOf_of_getElem? s hget)
        (queueOf_setQueue s id size rest) (mem_eventQueues_setQueue s hget) ?_
      change s.lastUsed.eraseIdx front.length ++ [id] = _
      rw [hlast, List.eraseIdx_append_of_length_le (Nat.le_refl _), Nat.sub_self]
      rfl
    · rename_i hempty
      have hnil : s.queueOf id = [] := by
        unfold queueOf
        cases hget : s.eventQueues[id]? with
        | none => rfl
        | some entry =>
          obtain ⟨size, queue⟩ := entry
          cases queue with
          | nil => rfl
          | cons event rest => exact absurd hget (hempty size event rest)
      have hnext := ih (front ++ [id]) (by rw [hlast]; simp) (by
        intro id' hid'
        rcases List.mem_append.mp hid' with h | h
        · exact hfront id' h
        · rw [List.mem_singleton.mp h, hnil])
      rwa [List.length_append, List.length_singleton] at hnext

theorem next_served (s : Scheduler ArrayData) : Served s s.next := by
  unfold next
  split
  · rename_i size event rest hget
    exact .control event rest _ (queueOf_of_getElem? s hget) (queueOf_setQueue s _ size rest)
      (mem_eventQueues_setQueue s hget) rfl
  · exact nextInput_served s [] s.lastUsed rfl (by simp)

/-- `last_used` lists the inputs that have a queue, each once. -/
structure Ordered (s : Scheduler ArrayData) : Prop where
  nodup : s.lastUsed.Nodup
  known : ∀ id, id ∈ s.lastUsed ↔ id ∈ s.eventQueues ∧ id ≠ NON_INPUT_EVENT_ID
  installed : NON_INPUT_EVENT_ID ∈ s.eventQueues

theorem prepareQueue_order (s : Scheduler ArrayData) (event : EventItem ArrayData) :
    (∀ id, id ∈ (s.prepareQueue event).eventQueues ↔ id ∈ s.eventQueues ∨ id = event.queueId) ∧
      (s.prepareQueue event).lastUsed =
        if event.queueId ∈ s.eventQueues then s.lastUsed else s.lastUsed ++ [event.queueId] := by
  have hensure (s' : Scheduler ArrayData) (hlast : s'.lastUsed = s.lastUsed)
      (hkeys : ∀ id, id ∈ s'.eventQueues ↔ id ∈ s.eventQueues) :
      (∀ id, id ∈ (s'.ensureQueue event.queueId).eventQueues ↔
          id ∈ s.eventQueues ∨ id = event.queueId) ∧
        (s'.ensureQueue event.queueId).lastUsed =
          if event.queueId ∈ s.eventQueues then s.lastUsed else s.lastUsed ++ [event.queueId] := by
    unfold ensureQueue
    by_cases hmem : event.queueId ∈ s.eventQueues
    · have hcontains := TreeMap.mem_iff_contains.mp ((hkeys event.queueId).mpr hmem)
      rw [if_pos hcontains, if_pos hmem]
      refine ⟨fun id => ?_, hlast⟩
      rw [hkeys]
      exact ⟨.inl, fun h => h.elim (fun h => h) fun h => h ▸ hmem⟩
    · have hmissing : ¬ s'.eventQueues.contains event.queueId = true := fun h =>
        hmem ((hkeys _).mp (TreeMap.mem_iff_contains.mpr h))
      rw [if_neg hmissing, if_neg hmem]
      refine ⟨fun id => ?_, by rw [hlast]⟩
      simp only [TreeMap.mem_insert, Std.compare_eq_iff_eq, hkeys]
      rw [or_comm, eq_comm]
  unfold prepareQueue
  split
  · exact hensure _ rfl fun id => TreeMap.mem_modify
  · exact hensure s rfl fun _ => Iff.rfl

theorem addEvent_order (s : Scheduler ArrayData) (event : EventItem ArrayData) :
    (∀ id, id ∈ (s.addEvent event).eventQueues ↔ id ∈ s.eventQueues ∨ id = event.queueId) ∧
      (s.addEvent event).lastUsed =
        if event.queueId ∈ s.eventQueues then s.lastUsed else s.lastUsed ++ [event.queueId] := by
  have ⟨hkeys, hlast⟩ := s.prepareQueue_order event
  have ⟨entry, hget⟩ := Option.isSome_iff_exists.mp
    (TreeMap.mem_iff_isSome_getElem?.mp ((hkeys event.queueId).mpr (.inr rfl)))
  have hset (queue : List (EventItem ArrayData)) (id : DataId) :
      id ∈ ((s.prepareQueue event).setQueue event.queueId entry.1 queue).eventQueues ↔
        id ∈ s.eventQueues ∨ id = event.queueId :=
    (mem_eventQueues_setQueue _ hget id).trans (hkeys id)
  rw [← hlast]
  unfold addEvent
  simp only [hget]
  split
  · cases selectEviction entry.2 event with
    | removeAt | dropCorrelatedLoud => exact ⟨hset _, rfl⟩
    | dropIncoming => exact ⟨hkeys, rfl⟩
  · exact ⟨hset _, rfl⟩

variable {after s : Scheduler ArrayData}

theorem Ordered.served (h : s.Ordered)
    {out : Option (EventItem ArrayData)} (hserved : Served s (out, after)) : after.Ordered := by
  cases hserved with
  | nothing => exact h
  | control event rest after hbefore hafter hkeys hlast =>
    refine ⟨hlast ▸ h.nodup, fun id => ?_, (hkeys _).mpr h.installed⟩
    rw [hlast, hkeys]
    exact h.known id
  | turn front id back event rest after hwaiting hfront hbefore hafter hkeys hlast =>
    have hperm : after.lastUsed.Perm s.lastUsed := by
      rw [hlast, hwaiting]
      exact Lib.rotate_perm front back id
    refine ⟨hperm.nodup_iff.mpr h.nodup, fun id' => ?_, (hkeys _).mpr h.installed⟩
    rw [hperm.mem_iff, hkeys]
    exact h.known id'

theorem Ordered.step (h : s.Ordered) (op : SchedulerOp ArrayData) :
    (s.step op).1.Ordered := by
  cases op with
  | drainDropCounts => exact ⟨h.nodup, h.known, h.installed⟩
  | addEvent event =>
    have ⟨hkeys, hlast⟩ := s.addEvent_order event
    change (s.addEvent event).Ordered
    by_cases hmem : event.queueId ∈ s.eventQueues
    · rw [if_pos hmem] at hlast
      have hsame (id : DataId) : id ∈ (s.addEvent event).eventQueues ↔ id ∈ s.eventQueues := by
        rw [hkeys]
        exact ⟨fun h => h.elim (fun h => h) fun h => h ▸ hmem, .inl⟩
      refine ⟨hlast ▸ h.nodup, fun id => ?_, (hsame _).mpr h.installed⟩
      rw [hlast, hsame]
      exact h.known id
    · rw [if_neg hmem] at hlast
      have hnew : event.queueId ∉ s.lastUsed := fun hin => hmem ((h.known _).mp hin).1
      have hother : event.queueId ≠ NON_INPUT_EVENT_ID := fun heq => hmem (heq ▸ h.installed)
      refine ⟨?_, fun id => ?_, (hkeys _).mpr (.inl h.installed)⟩
      · rw [hlast, ← List.concat_eq_append]
        exact h.nodup.concat hnew
      · rw [hlast, hkeys, List.mem_append, List.mem_singleton, h.known]
        constructor
        · rintro (⟨hid, hne⟩ | rfl)
          · exact ⟨.inl hid, hne⟩
          · exact ⟨.inr rfl, hother⟩
        · rintro ⟨hid | hid, hne⟩
          · exact .inl ⟨hid, hne⟩
          · exact .inr hid
  | next => exact h.served s.next_served

theorem ordered_fresh {keys : List DataId} {sizes : TreeMap DataId Nat}
    (hkeys : keys.Perm sizes.keys) (hinstalled : NON_INPUT_EVENT_ID ∈ sizes)
    (policies : TreeMap DataId QueuePolicy) :
    (fresh keys sizes policies : Scheduler ArrayData).Ordered where
  nodup := (hkeys.nodup_iff.mpr TreeMap.nodup_keys).filter _
  known id := by
    change id ∈ keys.filter (· ≠ NON_INPUT_EVENT_ID) ↔
      id ∈ sizes.map (fun _ size => (size, [])) ∧ id ≠ NON_INPUT_EVENT_ID
    simp only [List.mem_filter, hkeys.mem_iff, TreeMap.mem_keys, TreeMap.mem_map, decide_eq_true_eq]
  installed := TreeMap.mem_map.mpr hinstalled

/-- The queue of the control events holds no input, and every other queue the events of its input. -/
def Sorted (s : Scheduler ArrayData) : Prop :=
  ∀ id, ∀ e ∈ s.queueOf id, e.inputId = if id = NON_INPUT_EVENT_ID then none else some id

theorem Sorted.step (h : s.Sorted) {op : SchedulerOp ArrayData}
    (hop : op.ProperlyNamed) : (s.step op).1.Sorted := by
  intro id e he
  obtain hqueued | ⟨rfl, rfl⟩ := mem_queueOf_step he
  · exact h id e hqueued
  have hnamed : e.inputId ≠ some NON_INPUT_EVENT_ID := hop
  rw [EventItem.queueId_eq]
  cases hinput : e.inputId with
  | none => rfl
  | some =>
    rw [hinput] at hnamed
    rw [Option.getD_some, if_neg fun hname => hnamed (congrArg some hname)]

theorem addEvent_queueOf_ne_nil (event : EventItem ArrayData)
    (h : s.queueOf id ≠ []) : (s.addEvent event).queueOf id ≠ [] := by
  rw [queueOf_addEvent]
  split
  · exact (admit_admitted _ _ event).ne_nil (s.effectiveCapFor_pos id)
  · exact h

theorem mem_lastUsed (h : s.Ordered)
    (hid : id ≠ NON_INPUT_EVENT_ID) (hwaiting : s.queueOf id ≠ []) : id ∈ s.lastUsed := by
  refine (h.known id).mpr ⟨TreeMap.mem_iff_isSome_getElem?.mpr ?_, hid⟩
  unfold queueOf at hwaiting
  cases hget : s.eventQueues[id]? with
  | none =>
    rw [hget] at hwaiting
    exact absurd rfl hwaiting
  | some => rfl

/-- While `x` waits, whoever has been served has been served once and stands behind `x`. -/
structure Overtaken (x : DataId) (outs : List (SchedulerAnswer ArrayData))
    (s : Scheduler ArrayData) : Prop where
  ordered : s.Ordered
  sorted : s.Sorted
  waiting : s.queueOf x ≠ []
  once : ∀ y, y ≠ x → outs.countP (·.isOf y) = 0 ∨
    outs.countP (·.isOf y) = 1 ∧ [x, y].Sublist s.lastUsed

variable {outs : List (SchedulerAnswer ArrayData)}

theorem countP_isOf_concat {answer : SchedulerAnswer ArrayData} {y : DataId} (h : answer.isOf y = false) :
    (outs ++ [answer]).countP (·.isOf y) = outs.countP (·.isOf y) := by
  rw [List.countP_append, List.countP_singleton, h]
  rfl

theorem isOf_event {event : EventItem ArrayData} (y : DataId) :
    (SchedulerAnswer.event (some event)).isOf y = decide (event.inputId = some y) := by
  simp only [SchedulerAnswer.isOf, SchedulerAnswer.returned, Option.any_some, beq_eq_decide]

theorem Overtaken.served (hx : x ≠ NON_INPUT_EVENT_ID)
    (h : Overtaken x outs s) {out : Option (EventItem ArrayData)} (hserved : Served s (out, after))
    (hsorted : after.Sorted) (hnot : (SchedulerAnswer.event out).isOf x = false) :
    Overtaken x (outs ++ [.event out]) after := by
  have hordered := h.ordered.served hserved
  cases hserved with
  | nothing =>
    refine ⟨hordered, hsorted, h.waiting, fun y hy => ?_⟩
    rw [countP_isOf_concat rfl]
    exact h.once y hy
  | control event rest after hbefore hafter hkeys hlast =>
    have hcontrol : event.inputId = none := by
      have hinput := h.sorted NON_INPUT_EVENT_ID event (by rw [hbefore]; exact List.mem_cons_self)
      rwa [if_pos rfl] at hinput
    refine ⟨hordered, hsorted, ?_, fun y hy => ?_⟩
    · rw [hafter, Function.update_of_ne hx]
      exact h.waiting
    · rw [hlast, countP_isOf_concat (by rw [isOf_event, hcontrol]; rfl)]
      exact h.once y hy
  | turn front id back event rest after hwaiting hfront hbefore hafter hkeys hlast =>
    have hid : id ≠ NON_INPUT_EVENT_ID := ((h.ordered.known id).mp (by rw [hwaiting]; simp)).2
    have hinput : event.inputId = some id := by
      have hsort := h.sorted id event (by rw [hbefore]; exact List.mem_cons_self)
      rwa [if_neg hid] at hsort
    have hxid : x ≠ id := by
      intro heq
      rw [isOf_event, hinput, heq] at hnot
      exact of_decide_eq_false hnot rfl
    -- everyone in front is idle, so `x` stands behind the one that is served
    have hback : x ∈ back := by
      have hmem := mem_lastUsed h.ordered hx h.waiting
      rw [hwaiting] at hmem
      rcases List.mem_append.mp hmem with hmem | hmem
      · exact absurd (hfront x hmem) h.waiting
      · exact (List.mem_cons.mp hmem).resolve_left hxid
    refine ⟨hordered, hsorted, ?_, fun y hy => ?_⟩
    · rw [hafter, Function.update_of_ne hxid]
      exact h.waiting
    · rw [hlast]
      by_cases hyid : id = y
      · subst hyid
        rw [List.countP_append, List.countP_singleton, isOf_event, hinput, decide_eq_true rfl,
          if_pos rfl]
        rcases h.once id hy with hzero | ⟨-, hahead⟩
        · exact .inr ⟨by omega, Lib.before_served (List.mem_append_right front hback)⟩
        · rw [hwaiting] at hahead
          exact absurd hahead (Lib.not_before_of_mem_back (hwaiting ▸ h.ordered.nodup) hback)
      · rw [countP_isOf_concat (by rw [isOf_event, hinput]; simpa using hyid)]
        refine (h.once y hy).imp_right fun ⟨hone, hahead⟩ => ⟨hone, ?_⟩
        rw [hwaiting] at hahead
        exact Lib.before_rotate hahead hxid (Ne.symm hyid)

theorem Overtaken.step (hx : x ≠ NON_INPUT_EVENT_ID) (h : Overtaken x outs s)
    {op : SchedulerOp ArrayData} (hop : op.ProperlyNamed) (hnot : (s.step op).2.isOf x = false) :
    Overtaken x (outs ++ [(s.step op).2]) (s.step op).1 := by
  have hsorted := h.sorted.step hop
  cases op with
  | next => exact h.served hx s.next_served hsorted hnot
  | drainDropCounts =>
    refine ⟨h.ordered.step _, hsorted, h.waiting, fun y hy => ?_⟩
    rw [countP_isOf_concat rfl]
    exact h.once y hy
  | addEvent event =>
    refine ⟨h.ordered.step _, hsorted, addEvent_queueOf_ne_nil event h.waiting, fun y hy => ?_⟩
    have hgrown : s.lastUsed.Sublist (s.addEvent event).lastUsed := by
      rw [(s.addEvent_order event).2]
      split
      · exact List.Sublist.refl _
      · exact List.sublist_append_left _ _
    rw [countP_isOf_concat rfl]
    exact (h.once y hy).imp_right fun ⟨hone, hbefore⟩ => ⟨hone, hbefore.trans hgrown⟩

theorem overtaken_run (hx : x ≠ NON_INPUT_EVENT_ID)
    (h : Overtaken x [] s) (ops : List (SchedulerOp ArrayData)) (hops : ∀ op ∈ ops, op.ProperlyNamed)
    (hnot : ∀ answer ∈ (Lib.run step s ops).2, answer.isOf x = false) :
    Overtaken x (Lib.run step s ops).2 (Lib.run step s ops).1 := by
  refine Lib.run_induction_meets step (P := fun _ outs s =>
      (∀ answer ∈ outs, answer.isOf x = false) → Overtaken x outs s) (fun _ => h) ?_ ops
    (Lib.meets_of_forall_mem step s ops hops) hnot
  intro _ outs s op _ hop ih hnot
  exact (ih fun answer hmem => hnot answer (List.mem_append_left _ hmem)).step hx hop
    (hnot _ (List.mem_append_right _ List.mem_cons_self))

/-- In every run with the queue of the control events installed and no input named like it: the order
of service lists the known inputs, each once; filing an event never empties a queue; and before an
input that waits is served, every other input is served at most once. -/
theorem scheduler_fair (keys : List DataId) (sizes : TreeMap DataId Nat)
    (policies : TreeMap DataId QueuePolicy) (hkeys : keys.Perm sizes.keys)
    (hinstalled : NON_INPUT_EVENT_ID ∈ sizes) (ops : List (SchedulerOp ArrayData))
    (hops : ∀ op ∈ ops, op.ProperlyNamed) :
    let s : Scheduler ArrayData := (Lib.run step (.fresh keys sizes policies) ops).1
    (s.lastUsed.Nodup ∧
        ∀ id : DataId, id ∈ s.lastUsed ↔ id ∈ s.eventQueues ∧ id ≠ NON_INPUT_EVENT_ID) ∧
      (∀ (event : EventItem ArrayData) (id : DataId), s.queueOf id ≠ [] →
        (s.addEvent event).queueOf id ≠ []) ∧
      ∀ x : DataId, x ≠ NON_INPUT_EVENT_ID → s.queueOf x ≠ [] →
        ∀ later : List (SchedulerOp ArrayData), (∀ op ∈ later, op.ProperlyNamed) →
          (∀ answer ∈ (Lib.run step s later).2, answer.isOf x = false) →
          ∀ y : DataId, y ≠ x → (Lib.run step s later).2.countP (·.isOf y) ≤ 1 := by
  intro s
  have hinv : s.Ordered ∧ s.Sorted := by
    refine Lib.run_induction_meets step (P := fun _ _ s => s.Ordered ∧ s.Sorted)
      ⟨ordered_fresh hkeys hinstalled policies, by simp [Sorted]⟩ ?_ ops
      (Lib.meets_of_forall_mem step _ ops hops)
    intro _ _ s op _ hop ih
    exact ⟨ih.1.step op, ih.2.step hop⟩
  refine ⟨⟨hinv.1.nodup, hinv.1.known⟩, fun event _ => addEvent_queueOf_ne_nil event, ?_⟩
  intro x hx hwaiting later hlater hnot y hy
  have hstart : Overtaken x [] s := ⟨hinv.1, hinv.2, hwaiting, fun _ _ => .inl rfl⟩
  have hend := (overtaken_run hx hstart later hlater hnot).once y hy
  omega

/-- Two pictures and one scan are queued: the scan is not overtaken by both pictures. -/
theorem scheduler_fair_of_two_inputs :
    let sizes : TreeMap DataId Nat :=
      {(⟨"camera"⟩, 2), (⟨"lidar"⟩, 2), (NON_INPUT_EVENT_ID, NON_INPUT_EVENT_QUEUE_SIZE)}
    let picture : EventItem Unit := .zenohInput ⟨"camera"⟩ ⟨∅⟩ ()
    let scan : EventItem Unit := .zenohInput ⟨"lidar"⟩ ⟨∅⟩ ()
    let s : Scheduler Unit := (Lib.run step (.fresh sizes.keys sizes ∅)
      ([picture, picture, scan].map SchedulerOp.addEvent)).1
    (s.queueOf ⟨"lidar"⟩).length = 1 ∧
      (∀ answer ∈ (Lib.run step s [SchedulerOp.next]).2, answer.isOf ⟨"lidar"⟩ = false) ∧
      (Lib.run step s [SchedulerOp.next]).2.countP (·.isOf ⟨"camera"⟩) ≤ 1 := by
  intro sizes picture scan s
  have hwaiting : (s.queueOf ⟨"lidar"⟩).length = 1 := by decide +kernel
  have hnot : ∀ answer ∈ (Lib.run step s [SchedulerOp.next]).2, answer.isOf ⟨"lidar"⟩ = false := by
    decide +kernel
  have hfair := scheduler_fair sizes.keys sizes ∅ (List.Perm.refl _) (by decide +kernel)
    ([picture, picture, scan].map SchedulerOp.addEvent) (by decide)
  exact ⟨hwaiting, hnot, hfair.2.2 ⟨"lidar"⟩ (by decide)
    (List.ne_nil_of_length_pos (hwaiting ▸ Nat.one_pos)) [.next] (by decide) hnot
    ⟨"camera"⟩ (by decide)⟩

end Scheduler

end Dora
