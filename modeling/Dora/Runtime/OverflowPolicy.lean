import Dora.Node.SchedulerOverflow
import Dora.Runtime.InputBuffer

/-!
# The overflow of an operator's input and of a node's

The operator's buffer gives up the oldest event of an input that is full, and holds one event more, which
it is sending. The node's scheduler spares the events that belong to a request or a goal as long as it has
others. On one input the two keep the same events while no correlated event has an ordinary one behind it
when the input overflows.
-/

namespace Dora

open Std Lib

variable {ArrayData : Type}

def EventItem.inputId? : EventItem ArrayData → Option DataId
  | .nodeEvent (.input id _ _) => some id
  | .zenohInput id _ _ => some id
  | _ => none

section OneInput

variable (queueSizes : TreeMap DataId (Nat × QueuePolicy)) (keys : List DataId)

/-- The operator's buffer after the arrivals, with nobody who takes an event. -/
def operatorBuffer (arrivals : List (EventItem ArrayData)) : BufferLoop (EventItem ArrayData) :=
  (run (BufferLoop.step EventItem.inputId?) (.new queueSizes) (arrivals.map .arrived)).1

/-- The node's scheduler with the same configuration; `keys` is the order of its inputs. -/
def nodeKeeps (arrivals : List (EventItem ArrayData)) : Scheduler ArrayData :=
  arrivals.foldl Scheduler.addEvent (.withPolicies keys (queueSizes.map fun _ config => (config.1, []))
    (queueSizes.map fun _ config => config.2))

def inputCap (id : DataId) : Nat := (InputBuffer.new queueSizes : InputBuffer Unit).capOf id

/-- The last `cap` events. -/
def newest (cap : Nat) (arrivals : List (EventItem ArrayData)) : List (EventItem ArrayData) :=
  arrivals.drop (arrivals.length - cap)

variable {queueSizes keys} {id : DataId} {cap : Nat} {arrivals : List (EventItem ArrayData)}
  {first event : EventItem ArrayData} {rest : List (EventItem ArrayData)}

theorem newest_concat (hcap : 0 < cap) (arrivals : List (EventItem ArrayData)) (event : EventItem ArrayData) :
    newest cap (arrivals ++ [event]) = if arrivals.length < cap then newest cap arrivals ++ [event]
      else (newest cap arrivals).tail ++ [event] := by
  unfold newest
  rw [List.length_append, List.length_singleton]
  split
  next h =>
    rw [Nat.sub_eq_zero_of_le h, Nat.sub_eq_zero_of_le h.le]
    rfl
  next h =>
    rw [List.tail_drop, List.drop_append_of_le_length (by omega),
      Nat.sub_add_comm (Nat.le_of_not_lt h)]

theorem length_newest (cap : Nat) (arrivals : List (EventItem ArrayData)) :
    (newest cap arrivals).length = min cap arrivals.length := by
  rw [newest, List.length_drop]
  omega

theorem push_one_input {live : List (EventItem ArrayData)} {caps : DataId → Nat}
    (hlive : ∀ e ∈ live, e.inputId? = some id) (hevent : event.inputId? = some id) :
    InputBuffer.push EventItem.inputId? caps live event =
      if live.length < caps id then live ++ [event] else live.tail ++ [event] := by
  have hcount : InputBuffer.countOf EventItem.inputId? id live = live.length :=
    List.countP_eq_length.mpr fun e he => decide_eq_true (hlive e he)
  have herase : live.eraseP (fun e => decide (e.inputId? = some id)) = live.tail := by
    cases live with
    | nil => rfl
    | cons a live => exact List.eraseP_cons_of_pos (decide_eq_true (hlive a List.mem_cons_self))
  simp only [InputBuffer.push, hevent, hcount, herase]

theorem newest_cons_newest (cap : Nat) (first : EventItem ArrayData) (rest : List (EventItem ArrayData)) :
    newest cap (first :: newest cap rest) = newest cap (first :: rest) := by
  by_cases h : rest.length ≤ cap
  · rw [newest, newest, Nat.sub_eq_zero_of_le h, List.drop_zero]
    rfl
  · have hlength := length_newest cap rest
    have hkeep : (first :: newest cap rest).length - cap = 1 := by
      rw [List.length_cons]
      omega
    have hdrop : (first :: rest).length - cap = rest.length - cap + 1 := by
      rw [List.length_cons]
      omega
    unfold newest at hkeep ⊢
    rw [hkeep, hdrop]
    rfl

theorem inputCap_pos (queueSizes : TreeMap DataId (Nat × QueuePolicy)) (id : DataId) :
    0 < inputCap queueSizes id :=
  BufferLoop.capOf_new_pos queueSizes id

theorem operatorBuffer_concat (arrivals : List (EventItem ArrayData)) (event : EventItem ArrayData) :
    operatorBuffer queueSizes (arrivals ++ [event]) =
      ((operatorBuffer queueSizes arrivals).step EventItem.inputId? (.arrived event)).1 := by
  rw [operatorBuffer, List.map_append, List.map_singleton, run_concat]
  rfl

/-- The first event is being sent, the queue has the newest of the others. -/
structure Sending (queueSizes : TreeMap DataId (Nat × QueuePolicy)) (id : DataId)
    (first : EventItem ArrayData) (rest : List (EventItem ArrayData)) (s : BufferLoop (EventItem ArrayData)) :
    Prop where
  sendOut : s.sendOut = some first
  queue : s.buffer.queue = (newest (inputCap queueSizes id) rest).map some
  capOf : s.buffer.capOf = inputCap queueSizes
  incomingClosed : s.incomingClosed = false
  ended : s.ended = false

theorem operatorBuffer_first (hfirst : first.inputId? = some id) :
    Sending queueSizes id first [] (operatorBuffer queueSizes [first]) := by
  have hpos : ∀ id, 0 < (InputBuffer.new queueSizes : InputBuffer (EventItem ArrayData)).capOf id :=
    BufferLoop.capOf_new_pos queueSizes
  have hempty : (InputBuffer.new queueSizes).queue = ([] : List (EventItem ArrayData)).map some := rfl
  have hbound (id : DataId) : InputBuffer.countOf EventItem.inputId? id ([] : List (EventItem ArrayData)) ≤
      (InputBuffer.new queueSizes : InputBuffer (EventItem ArrayData)).capOf id := Nat.zero_le _
  obtain ⟨hqueue, hcaps⟩ := InputBuffer.addEvent_spec hempty hpos hbound first
  rw [push_one_input (fun _ he => absurd he List.not_mem_nil) hfirst, List.length_nil,
    if_pos (hpos id)] at hqueue
  have hnext : operatorBuffer queueSizes [first] =
      { (BufferLoop.new queueSizes : BufferLoop (EventItem ArrayData)) with
        buffer := { (InputBuffer.new queueSizes).addEvent EventItem.inputId? first with queue := [] }
        sendOut := some first } := by
    simp [operatorBuffer, run, BufferLoop.step, BufferLoop.turn, BufferLoop.new, BufferLoop.refill, hqueue,
      InputBuffer.sendNextQueued]
  rw [hnext]
  exact ⟨rfl, by rw [newest, List.drop_nil]; rfl, hcaps, rfl, rfl⟩

theorem operatorBuffer_sending (harrivals : ∀ e ∈ first :: rest, e.inputId? = some id) :
    Sending queueSizes id first rest (operatorBuffer queueSizes (first :: rest)) := by
  induction rest using List.reverseRecOn with
  | nil => exact operatorBuffer_first (harrivals first List.mem_cons_self)
  | append_singleton rest event ih =>
    have hsending := ih fun e he => harrivals e (List.mem_append_left [event] he)
    have hlive : ∀ e ∈ newest (inputCap queueSizes id) rest, e.inputId? = some id := fun e he =>
      harrivals e (List.mem_cons_of_mem _ (List.mem_append_left _ (List.mem_of_mem_drop he)))
    rw [← List.cons_append, operatorBuffer_concat]
    generalize operatorBuffer queueSizes (first :: rest) = s at hsending
    have hbound (id' : DataId) : InputBuffer.countOf EventItem.inputId? id'
        (newest (inputCap queueSizes id) rest) ≤ s.buffer.capOf id' := by
      rw [hsending.capOf]
      by_cases hid : id' = id
      · rw [hid]
        refine List.countP_le_length.trans ?_
        rw [length_newest]
        exact min_le_left _ _
      · refine (List.countP_eq_zero.mpr fun e he => ?_).trans_le (Nat.zero_le _)
        simp [hlive e he, Ne.symm hid]
    obtain ⟨hqueue, hcaps⟩ := InputBuffer.addEvent_spec hsending.queue
      (hsending.capOf ▸ inputCap_pos queueSizes) hbound event
    have hnext : (s.step EventItem.inputId? (.arrived event)).1 =
        { s with buffer := s.buffer.addEvent EventItem.inputId? event } := by
      simp [BufferLoop.step, BufferLoop.turn, hsending.ended, hsending.incomingClosed, hsending.sendOut]
    rw [hnext]
    refine ⟨hsending.sendOut, hqueue.trans ?_, hcaps.trans hsending.capOf, hsending.incomingClosed,
      hsending.ended⟩
    rw [hsending.capOf, push_one_input hlive (harrivals event (by simp)),
      newest_concat (inputCap_pos queueSizes id), length_newest]
    simp only [min_lt_iff, Nat.lt_irrefl, false_or]

theorem newest_held (harrivals : ∀ e ∈ arrivals, e.inputId? = some id) :
    newest (inputCap queueSizes id) (operatorBuffer queueSizes arrivals).held =
      newest (inputCap queueSizes id) arrivals := by
  cases arrivals with
  | nil => rfl
  | cons first rest =>
    have hsending : Sending queueSizes id first rest _ := operatorBuffer_sending harrivals
    have hqueue : ((newest (inputCap queueSizes id) rest).map some).reduceOption =
        newest (inputCap queueSizes id) rest := by simp [List.reduceOption, List.filterMap_map]
    rw [BufferLoop.held, hsending.sendOut, hsending.queue, hqueue]
    exact newest_cons_newest _ first rest

theorem queueId_of_inputId? (h : event.inputId? = some id) : event.queueId = id ∧ event.isStop = false := by
  unfold EventItem.inputId? at h
  split at h
  · exact ⟨Option.some.inj h, rfl⟩
  · exact ⟨Option.some.inj h, rfl⟩
  · cases h

theorem effectiveCapFor_nodeKeeps (arrivals : List (EventItem ArrayData)) (id : DataId) :
    (nodeKeeps queueSizes keys arrivals).effectiveCapFor id = inputCap queueSizes id := by
  induction arrivals using List.reverseRecOn with
  | nil =>
    simp only [nodeKeeps, List.foldl_nil, Scheduler.withPolicies, Scheduler.effectiveCapFor, inputCap,
      InputBuffer.capOf, InputBuffer.new, TreeMap.getElem?_map]
    cases queueSizes[id]? <;> rfl
  | append_singleton arrivals event ih =>
    rw [nodeKeeps, List.foldl_append]
    exact (congrFun (Scheduler.addEvent_spec _ event).2 id).trans ih

theorem nodeKeeps_concat (hevent : event.inputId? = some id) (hflush : event.shouldFlush = false) :
    (nodeKeeps queueSizes keys (arrivals ++ [event])).queueOf id =
      Scheduler.admitEvent (inputCap queueSizes id)
        ((nodeKeeps queueSizes keys arrivals).queueOf id) event := by
  have hnext : nodeKeeps queueSizes keys (arrivals ++ [event]) =
      (nodeKeeps queueSizes keys arrivals).addEvent event := by
    rw [nodeKeeps, List.foldl_append]
    rfl
  have hafter (queue : List (EventItem ArrayData)) : Scheduler.afterFlush queue event = queue := by
    rw [Scheduler.afterFlush, hflush]
    rfl
  rw [hnext, Scheduler.queueOf_addEvent, if_pos (queueId_of_inputId? hevent).1.symm, Scheduler.offer, hafter,
    effectiveCapFor_nodeKeeps]

theorem admitEvent_oldest (hfull : cap ≤ (first :: rest).length)
    (hstop : ∀ e ∈ first :: rest, e.isStop = false)
    (hcorrelated : first.isCorrelated = true → ∀ e ∈ rest ++ [event], e.isCorrelated = true) :
    Scheduler.admitEvent cap (first :: rest) event = rest ++ [event] := by
  unfold Scheduler.admitEvent selectEviction
  rw [if_pos hfull]
  have hfirstStop := hstop first List.mem_cons_self
  by_cases hfirst : first.isCorrelated = true
  · have hall : ∀ e ∈ first :: rest, e.isCorrelated = true := fun e he =>
      (List.mem_cons.mp he).elim (fun heq => heq ▸ hfirst) fun he =>
        hcorrelated hfirst e (List.mem_append_left _ he)
    have hnone : (first :: rest).findIdx? (fun e => !e.isCorrelated && !e.isStop) = none :=
      List.findIdx?_eq_none_iff.mpr fun e he => by simp [hall e he]
    simp [hnone, hcorrelated hfirst event (by simp), List.findIdx?_cons, hfirstStop]
  · simp [List.findIdx?_cons, hfirst, hfirstStop]

section Windows

variable (harrivals : ∀ e ∈ arrivals, e.inputId? = some id ∧ e.shouldFlush = false)
  (hwindows : ∀ first rest, first :: rest <:+: arrivals → rest.length = inputCap queueSizes id →
    first.isCorrelated = true → ∀ e ∈ rest, e.isCorrelated = true)

include harrivals hwindows

theorem nodeKeeps_newest : (nodeKeeps queueSizes keys arrivals).queueOf id =
    newest (inputCap queueSizes id) arrivals := by
  induction arrivals using List.reverseRecOn with
  | nil =>
    simp only [nodeKeeps, List.foldl_nil, Scheduler.withPolicies, Scheduler.queueOf, TreeMap.getElem?_map,
      newest, List.drop_nil]
    cases queueSizes[id]? <;> rfl
  | append_singleton arrivals event ih =>
    have hnode := ih (fun e he => harrivals e (List.mem_append_left _ he)) fun first rest hwindow =>
      hwindows first rest (hwindow.trans (List.prefix_append _ _).isInfix)
    obtain ⟨hevent, hflush⟩ := harrivals event (by simp)
    have hlen := length_newest (inputCap queueSizes id) arrivals
    rw [nodeKeeps_concat hevent hflush, hnode, newest_concat (inputCap_pos queueSizes id)]
    by_cases hlength : arrivals.length < inputCap queueSizes id
    · rw [if_pos hlength, Scheduler.admitEvent, if_neg (by omega)]
    · rw [if_neg hlength]
      -- the input is full: its events and the arrival are a window
      cases hnewest : newest (inputCap queueSizes id) arrivals with
      | nil =>
        rw [hnewest, List.length_nil] at hlen
        have := inputCap_pos queueSizes id
        omega
      | cons first rest =>
        rw [hnewest] at hlen
        have hfull : (first :: rest).length = inputCap queueSizes id := by omega
        have hwindow : first :: (rest ++ [event]) <:+: arrivals ++ [event] := by
          refine ⟨arrivals.take (arrivals.length - inputCap queueSizes id), [], ?_⟩
          rw [← List.cons_append, ← hnewest, newest, ← List.append_assoc, List.take_append_drop,
            List.append_nil]
        refine admitEvent_oldest hfull.ge (fun e he => (queueId_of_inputId? (harrivals e ?_).1).2)
          (hwindows first _ hwindow (by simpa using hfull))
        exact List.mem_append_left _ (List.mem_of_mem_drop (hnewest ▸ he))

end Windows

/-- After any arrivals on one input, with nothing consumed, the operator's buffer is sending the first and
its queue has the newest of the others, as many as the cap. The node's scheduler keeps the newest of what
the operator's buffer holds, as long as among any `cap + 1` arrivals in a row of which the first is
correlated all are. -/
theorem operator_and_node_keep_newest (queueSizes : TreeMap DataId (Nat × QueuePolicy)) (keys : List DataId)
    (id : DataId) (arrivals : List (EventItem ArrayData))
    (harrivals : ∀ e ∈ arrivals, e.inputId? = some id ∧ e.shouldFlush = false) :
    (∀ first rest, arrivals = first :: rest →
      (operatorBuffer queueSizes arrivals).sendOut = some first ∧
      (operatorBuffer queueSizes arrivals).buffer.queue =
        (newest (inputCap queueSizes id) rest).map some) ∧
    ((∀ first rest, first :: rest <:+: arrivals → rest.length = inputCap queueSizes id →
        first.isCorrelated = true → ∀ e ∈ rest, e.isCorrelated = true) →
      newest (inputCap queueSizes id) (operatorBuffer queueSizes arrivals).held =
        (nodeKeeps queueSizes keys arrivals).queueOf id) := by
  have hinput : ∀ e ∈ arrivals, e.inputId? = some id := fun e he => (harrivals e he).1
  constructor
  · rintro first rest rfl
    have hsending : Sending queueSizes id first rest _ := operatorBuffer_sending hinput
    exact ⟨hsending.sendOut, hsending.queue⟩
  · intro hwindows
    rw [newest_held hinput, nodeKeeps_newest harrivals hwindows]

def responseInput : EventItem Unit :=
  .zenohInput ⟨"in"⟩ { parameters := TreeMap.insert ∅ "request_id" (.string "r") } ()

def ordinaryInput : EventItem Unit := .zenohInput ⟨"in"⟩ { parameters := ∅ } ()

def ofSize (size : Nat) : TreeMap DataId (Nat × QueuePolicy) := TreeMap.insert ∅ ⟨"in"⟩ (size, .dropOldest)

/-- Four responses behind an ordinary event, in a queue of two. -/
theorem operator_and_node_keep_two_responses :
    let arrivals := [ordinaryInput, responseInput, responseInput, responseInput, responseInput]
    newest 2 (operatorBuffer (ofSize 2) arrivals).held =
        (nodeKeeps (ofSize 2) [⟨"in"⟩] arrivals).queueOf ⟨"in"⟩ ∧
      (operatorBuffer (ofSize 2) arrivals).held.length = 3 := by
  intro arrivals
  have hcap : inputCap (ofSize 2) ⟨"in"⟩ = 2 := by decide +kernel
  have hflush : ordinaryInput.shouldFlush = false ∧ responseInput.shouldFlush = false := by decide +kernel
  have hinput : ordinaryInput.inputId? = some ⟨"in"⟩ ∧ responseInput.inputId? = some ⟨"in"⟩ := ⟨rfl, rfl⟩
  have hkeep := (operator_and_node_keep_newest (ofSize 2) [⟨"in"⟩] ⟨"in"⟩ arrivals
    (by simp [arrivals, hflush, hinput])).2 ?_
  · rw [hcap] at hkeep
    exact ⟨hkeep, by decide +kernel⟩
  · -- all but the first of the arrivals are responses
    intro first rest hwindow _ _ e he
    obtain ⟨before, after, hsplit⟩ := hwindow
    have hbehind : e ∈ arrivals.tail := by
      rw [← hsplit]
      cases before <;> simp [he]
    have hresponse : e = responseInput := by simpa [arrivals] using hbehind
    rw [hresponse]
    decide +kernel

/-- With a cap of one, the operator holds two ordinary events where the node keeps one; and a response that
waits behind another event is given up for an ordinary one, where the node keeps it. -/
theorem operator_keeps_other_than_node :
    let held (arrivals : List (EventItem Unit)) :=
      (operatorBuffer (ofSize 1) arrivals).held.map EventItem.isCorrelated
    let kept (arrivals : List (EventItem Unit)) :=
      ((nodeKeeps (ofSize 1) [⟨"in"⟩] arrivals).queueOf ⟨"in"⟩).map EventItem.isCorrelated
    (held [ordinaryInput, ordinaryInput] = [false, false] ∧ kept [ordinaryInput, ordinaryInput] = [false]) ∧
      (held [ordinaryInput, responseInput, ordinaryInput] = [false, false] ∧
        kept [ordinaryInput, responseInput, ordinaryInput] = [true]) := by
  decide +kernel

end OneInput

end Dora
