import Dora.Lib.Machine
import Dora.Message.Config

/-!
# The operator's input buffer (`binaries/runtime-api/src/channel.rs`)

Events on their way to an operator wait in one queue. The loop moves them to a channel that holds one
event; when an input has more events in the queue than its cap, the oldest of them goes. The buffer looks
at nothing of an event but the input it is for, which is a parameter.
-/

namespace Dora

open Std Lib

variable {ε : Type} (inputId : ε → Option DataId)

structure InputBuffer (ε : Type) where
  queue : List (Option ε)
  effectiveCaps : TreeMap DataId (Nat × QueuePolicy)

namespace InputBuffer

def new (queueSizes : TreeMap DataId (Nat × QueuePolicy)) : InputBuffer ε where
  queue := []
  effectiveCaps := queueSizes.map fun _ config => (config.2.effectiveCap config.1, config.2)

def isInput (id : DataId) (slot : Option ε) : Bool := slot.any (inputId · = some id)

/-- The loop that replaces the oldest `surplus` events of the input by `None`. -/
def tombstone (id : DataId) : Nat → List (Option ε) → List (Option ε)
  | 0, queue => queue
  | _, [] => []
  | surplus + 1, slot :: rest =>
    if isInput inputId id slot then none :: tombstone id surplus rest
    else slot :: tombstone id (surplus + 1) rest

def compact (queue : List (Option ε)) : List (Option ε) := queue.filter Option.isSome

/-- The cap of an input; one without a declared queue size is recorded with the default. -/
def lookupCap (b : InputBuffer ε) (id : DataId) : Nat × InputBuffer ε :=
  match b.effectiveCaps[id]? with
  | some (cap, _) => (cap, b)
  | none =>
    let policy : QueuePolicy := default
    let cap := policy.effectiveCap DEFAULT_QUEUE_SIZE
    (cap, { b with effectiveCaps := b.effectiveCaps.insert id (cap, policy) })

def dropOldestInputs (b : InputBuffer ε) : InputBuffer ε :=
  match b.queue.getLast?.join.bind inputId with
  | none => b
  | some id =>
    let (cap, b) := b.lookupCap id
    let live := b.queue.countP (isInput inputId id)
    if live ≤ cap then b else { b with queue := compact (tombstone inputId id (live - cap) b.queue) }

def addEvent (b : InputBuffer ε) (event : ε) : InputBuffer ε :=
  dropOldestInputs inputId { b with queue := b.queue ++ [some event] }

def sendNextQueued : List (Option ε) → Option ε × List (Option ε)
  | [] => (none, [])
  | some next :: rest => (some next, rest)
  | none :: rest => sendNextQueued rest

end InputBuffer

/-- The state of `InputBuffer::run`; `sendOut` is the event whose sending has not finished. -/
structure BufferLoop (ε : Type) where
  buffer : InputBuffer ε
  sendOut : Option ε := none
  incomingClosed : Bool := false
  ended : Bool := false

inductive LoopEvent (ε : Type) where
  | arrived (event : ε)
  /-- All senders of the incoming side are gone. -/
  | disconnected
  /-- The consumer takes the event that is being sent. -/
  | received

namespace BufferLoop

def refill (s : BufferLoop ε) : BufferLoop ε :=
  let next := InputBuffer.sendNextQueued s.buffer.queue
  { s with sendOut := next.1, buffer := { s.buffer with queue := next.2 } }

/-- One turn of the loop, with the event it delivers; an event that cannot happen changes nothing. -/
def turn (s : BufferLoop ε) : LoopEvent ε → BufferLoop ε × Option ε
  | .arrived event =>
    if s.incomingClosed then (s, none)
    else
      let s := { s with buffer := s.buffer.addEvent inputId event }
      (if s.sendOut.isNone then s.refill else s, none)
  | .disconnected => ({ s with incomingClosed := true }, none)
  | .received =>
    match s.sendOut with
    | some event => (s.refill, some event)
    | none => (s, none)

def step (s : BufferLoop ε) (e : LoopEvent ε) : BufferLoop ε × Option ε :=
  if s.ended then (s, none)
  else
    let next := s.turn inputId e
    ({ next.1 with
        ended := next.1.incomingClosed && next.1.sendOut.isNone && next.1.buffer.queue.isEmpty },
      next.2)

end BufferLoop

namespace InputBuffer

def capOf (b : InputBuffer ε) (id : DataId) : Nat :=
  (b.effectiveCaps[id]?.map Prod.fst).getD ((default : QueuePolicy).effectiveCap DEFAULT_QUEUE_SIZE)

def countOf (id : DataId) (events : List ε) : Nat := events.countP (inputId · = some id)

/-- The queue without its tombstones after an arrival: a full input loses its oldest event. -/
def push (caps : DataId → Nat) (live : List ε) (event : ε) : List ε :=
  match inputId event with
  | none => live ++ [event]
  | some id =>
    if countOf inputId id live < caps id then live ++ [event]
    else live.eraseP (inputId · = some id) ++ [event]

variable {inputId} {b : InputBuffer ε} {live : List ε} {caps : DataId → Nat} {event : ε} {id : DataId}

theorem compact_tombstone_one (id : DataId) (live : List ε) :
    compact (tombstone inputId id 1 (live.map some)) = (live.eraseP (inputId · = some id)).map some := by
  induction live with
  | nil => rfl
  | cons a live ih =>
    by_cases ha : inputId a = some id
    · rw [List.eraseP_cons_of_pos (by simpa using ha)]
      simp [tombstone, isInput, ha, compact]
    · rw [List.eraseP_cons_of_neg (by simpa using ha)]
      simpa [tombstone, isInput, ha, compact] using ih

theorem lookupCap_spec (b : InputBuffer ε) (id : DataId) : (b.lookupCap id).1 = b.capOf id ∧
    (b.lookupCap id).2.queue = b.queue ∧ (b.lookupCap id).2.capOf = b.capOf := by
  unfold lookupCap
  cases hid : b.effectiveCaps[id]? with
  | some config => simp [capOf, hid]
  | none =>
    refine ⟨by simp [capOf, hid], rfl, funext fun id' => ?_⟩
    by_cases heq : id = id'
    · subst heq
      simp [capOf, hid]
    · simp [capOf, TreeMap.getElem?_insert, heq]

theorem countOf_concat (id : DataId) (live : List ε) (event : ε) :
    countOf inputId id (live ++ [event]) =
      countOf inputId id live + if inputId event = some id then 1 else 0 := by
  simp [countOf, List.countP_append, List.countP_singleton]

theorem addEvent_spec (hqueue : b.queue = live.map some) (hpos : ∀ id, 0 < b.capOf id)
    (hbound : ∀ id, countOf inputId id live ≤ b.capOf id) (event : ε) :
    (b.addEvent inputId event).queue = (push inputId b.capOf live event).map some ∧
      (b.addEvent inputId event).capOf = b.capOf := by
  have hpushed : b.queue ++ [some event] = (live ++ [event]).map some := by
    rw [hqueue, List.map_append, List.map_singleton]
  have hcount (id : DataId) : ((live ++ [event]).map some).countP (isInput inputId id) =
      countOf inputId id (live ++ [event]) := by
    rw [List.countP_map]
    rfl
  unfold addEvent dropOldestInputs push
  rw [hpushed]
  have hlast : ((live ++ [event]).map some).getLast?.join = some event := by simp
  rw [hlast, Option.bind_some]
  cases hid : inputId event with
  | none => exact ⟨rfl, rfl⟩
  | some id =>
    obtain ⟨hcap, hsame, hcaps⟩ := lookupCap_spec { b with queue := (live ++ [event]).map some } id
    have hcap : ({ b with queue := (live ++ [event]).map some }.lookupCap id).1 = b.capOf id := hcap
    dsimp only
    rw [hcap, hsame, hcount, countOf_concat, if_pos hid]
    by_cases hroom : countOf inputId id live < b.capOf id
    · rw [if_pos (Nat.succ_le_of_lt hroom), if_pos hroom]
      exact ⟨hsame, hcaps⟩
    · have hfull : countOf inputId id live = b.capOf id := (hbound id).antisymm (Nat.le_of_not_lt hroom)
      obtain ⟨victim, hmem, hvictim⟩ := List.countP_pos_iff.mp (hfull ▸ hpos id)
      rw [if_neg (by omega), if_neg hroom, hfull, Nat.add_sub_cancel_left, compact_tombstone_one,
        List.eraseP_append_left (p := fun e => inputId e = some id) hvictim _ hmem]
      exact ⟨rfl, hcaps⟩

section

variable (hpos : ∀ id, 0 < caps id) (hbound : ∀ id, countOf inputId id live ≤ caps id)

include hpos hbound

theorem push_cases (event : ε) :
    push inputId caps live event = live ++ [event] ∧
        (∀ id, inputId event = some id → countOf inputId id live < caps id) ∨
      ∃ id before victim after, inputId event = some id ∧ countOf inputId id live = caps id ∧
        inputId victim = some id ∧ live = before ++ victim :: after ∧
        push inputId caps live event = before ++ after ++ [event] := by
  unfold push
  split
  next hnone => exact .inl ⟨rfl, fun id hid => by simp [hnone] at hid⟩
  next id hid =>
    by_cases hroom : countOf inputId id live < caps id
    · rw [if_pos hroom]
      refine .inl ⟨rfl, fun id' hid' => ?_⟩
      cases hid.symm.trans hid'
      exact hroom
    · rw [if_neg hroom]
      have hfull := (hbound id).antisymm (Nat.le_of_not_lt hroom)
      obtain ⟨a, hmem, ha⟩ := List.countP_pos_iff.mp (hfull ▸ hpos id : 0 < countOf inputId id live)
      obtain ⟨victim, before, after, -, hvictim, hlive, herase⟩ :=
        List.exists_of_eraseP (p := fun e => inputId e = some id) hmem ha
      exact .inr ⟨id, before, victim, after, hid, hfull, by simpa using hvictim, hlive, by rw [herase]⟩

theorem push_sublist (event : ε) :
    (push inputId caps live event).Sublist (live ++ [event]) := by
  obtain ⟨hpush, -⟩ | ⟨id, before, victim, after, -, -, -, rfl, hpush⟩ := push_cases hpos hbound event
  · rw [hpush]
  · rw [hpush]
    exact ((List.sublist_cons_self victim after).append_left before).append_right [event]

theorem countOf_push_le (event : ε) (id : DataId) :
    countOf inputId id (push inputId caps live event) ≤ caps id := by
  have hle := hbound id
  obtain ⟨hpush, hroom⟩ | ⟨id', before, victim, after, hevent, hfull, hvictim, rfl, hpush⟩ :=
    push_cases hpos hbound event
  · rw [hpush, countOf_concat]
    split
    next hid => exact hroom id hid
    next => exact hle
  · -- the victim and the event are of one input
    rw [hpush, countOf_concat, hevent, ← hvictim]
    simp only [countOf, List.countP_append, List.countP_cons, decide_eq_true_eq] at hle ⊢
    omega

theorem filter_push (event : ε) :
    (push inputId caps live event).filter (inputId · = none) =
      (live ++ [event]).filter (inputId · = none) := by
  obtain ⟨hpush, -⟩ | ⟨id, before, victim, after, -, -, hvictim, rfl, hpush⟩ := push_cases hpos hbound event
  · rw [hpush]
  · rw [hpush]
    simp [List.filter_append, hvictim]

end

end InputBuffer

namespace BufferLoop

open InputBuffer

def new (queueSizes : TreeMap DataId (Nat × QueuePolicy)) : BufferLoop ε := { buffer := .new queueSizes }

def held (s : BufferLoop ε) : List ε := s.sendOut.toList ++ s.buffer.queue.reduceOption

def accepted (s : BufferLoop ε) : LoopEvent ε → List ε
  | .arrived event => if s.incomingClosed || s.ended then [] else [event]
  | _ => []

structure Stored (caps : DataId → Nat) (s : BufferLoop ε) (live : List ε) : Prop where
  queue : s.buffer.queue = live.map some
  capOf : s.buffer.capOf = caps
  bound : ∀ id, countOf inputId id live ≤ caps id

structure Filled (caps : DataId → Nat) (s : BufferLoop ε) (live : List ε) : Prop
    extends Stored inputId caps s live where
  sending : s.sendOut = none → live = []

structure Running (caps : DataId → Nat) (s : BufferLoop ε) (live : List ε) : Prop
    extends Filled inputId caps s live where
  ended : s.ended = (s.incomingClosed && s.sendOut.isNone)

variable {inputId} {s : BufferLoop ε} {live : List ε} {caps : DataId → Nat}

theorem Stored.held (h : Stored inputId caps s live) : s.held = s.sendOut.toList ++ live := by
  rw [BufferLoop.held, h.queue]
  simp [List.reduceOption, List.filterMap_map]

theorem Filled.settle (h : Filled inputId caps s live) : Running inputId caps
    { s with ended := s.incomingClosed && s.sendOut.isNone && s.buffer.queue.isEmpty } live := by
  refine ⟨⟨⟨h.queue, h.capOf, h.bound⟩, h.sending⟩, ?_⟩
  cases hsend : s.sendOut with
  | some event => simp
  | none =>
    have hqueue : s.buffer.queue = [] := by rw [h.queue, h.sending hsend, List.map_nil]
    simp [hqueue]

theorem Stored.refill (h : Stored inputId caps s live) :
    Filled inputId caps s.refill live.tail ∧ s.refill.held = live := by
  have hnext : sendNextQueued s.buffer.queue = (live.head?, live.tail.map some) := by
    rw [h.queue]
    cases live <;> rfl
  have hfilled : Filled inputId caps s.refill live.tail := by
    refine ⟨⟨by rw [BufferLoop.refill, hnext], h.capOf, fun id => ?_⟩, fun hnone => ?_⟩
    · exact (List.Sublist.countP_le (List.tail_sublist live)).trans (h.bound id)
    · rw [BufferLoop.refill, hnext] at hnone
      rw [List.head?_eq_none_iff.mp hnone]
      rfl
  refine ⟨hfilled, ?_⟩
  rw [hfilled.held, BufferLoop.refill, hnext]
  cases live <;> rfl

theorem Running.step (hpos : ∀ id, 0 < caps id) (h : Running inputId caps s live) (e : LoopEvent ε) :
    ∃ live', Running inputId caps (s.step inputId e).1 live' ∧
      (s.step inputId e).2.toList ++ (s.step inputId e).1.held =
        s.sendOut.toList ++ (s.accepted e).foldl (push inputId caps) live := by
  unfold BufferLoop.step
  by_cases hended : s.ended = true
  · rw [if_pos hended]
    refine ⟨live, h, ?_⟩
    cases e <;> simp [accepted, hended, h.held]
  rw [if_neg hended]
  cases e with
  | disconnected =>
    have hfilled : Filled inputId caps { s with incomingClosed := true } live :=
      ⟨⟨h.queue, h.capOf, h.bound⟩, h.sending⟩
    exact ⟨live, hfilled.settle, h.held⟩
  | received =>
    dsimp only [turn]
    cases hsend : s.sendOut with
    | none =>
      have hsettle := h.settle
      exact ⟨live, by simpa [hsend] using hsettle, by simpa [accepted, hsend] using hsettle.held⟩
    | some event =>
      obtain ⟨hfilled, hheld⟩ := h.refill
      exact ⟨live.tail, hfilled.settle, congrArg (event :: ·) hheld⟩
  | arrived event =>
    dsimp only [turn]
    by_cases hclosed : s.incomingClosed = true
    · rw [if_pos hclosed]
      have hsettle := h.settle
      exact ⟨live, hsettle, by simpa [accepted, hclosed] using hsettle.held⟩
    · rw [if_neg hclosed]
      obtain ⟨hqueue, hcaps⟩ := addEvent_spec h.queue (h.capOf ▸ hpos) (h.capOf ▸ h.bound) event
      rw [h.capOf] at hqueue hcaps
      have hstored : Stored inputId caps { s with buffer := s.buffer.addEvent inputId event }
          (push inputId caps live event) := ⟨hqueue, hcaps, countOf_push_le hpos h.bound event⟩
      have haccepted : s.accepted (.arrived event) = [event] := by simp [accepted, hclosed, hended]
      rw [haccepted]
      cases hsend : s.sendOut with
      | none =>
        obtain ⟨hfilled, hheld⟩ := hstored.refill
        exact ⟨_, hfilled.settle, hheld⟩
      | some x =>
        have hfilled : Filled inputId caps { s with buffer := s.buffer.addEvent inputId event }
          (push inputId caps live event) := ⟨hstored, fun hnone => absurd (hsend.symm.trans hnone) nofun⟩
        have hsettle := hfilled.settle
        exact ⟨_, by simpa [hsend] using hsettle, by simpa [hsend] using hsettle.held⟩

variable (inputId) in
structure Kept (arrived kept : List ε) : Prop where
  ordered : kept.Sublist arrived
  others : kept.filter (inputId · = none) = arrived.filter (inputId · = none)

theorem Kept.step (hpos : ∀ id, 0 < caps id) (h : Running inputId caps s live) {arrived delivered : List ε}
    (hkept : Kept inputId arrived (delivered ++ s.held)) (e : LoopEvent ε) :
    Kept inputId (arrived ++ s.accepted e)
      (delivered ++ (s.step inputId e).2.toList ++ (s.step inputId e).1.held) := by
  obtain ⟨_, -, hheld⟩ := h.step hpos e
  rw [List.append_assoc, hheld]
  rw [h.held] at hkept
  obtain haccepted | ⟨event, haccepted⟩ : s.accepted e = [] ∨ ∃ event, s.accepted e = [event] := by
    unfold accepted
    split
    · split
      · exact .inl rfl
      · exact .inr ⟨_, rfl⟩
    · exact .inl rfl
  · rw [haccepted, List.append_nil]
    exact hkept
  · rw [haccepted, List.foldl_cons, List.foldl_nil]
    constructor
    · have hpush := ((push_sublist hpos h.bound event).append_left s.sendOut.toList).append_left delivered
      refine hpush.trans ?_
      rw [← List.append_assoc, ← List.append_assoc, List.append_assoc delivered]
      exact hkept.ordered.append_right [event]
    · have hothers := hkept.others
      simp only [List.filter_append] at hothers ⊢
      rw [filter_push hpos h.bound, ← hothers, List.filter_append]
      simp only [List.append_assoc]

theorem capOf_new_pos (queueSizes : TreeMap DataId (Nat × QueuePolicy)) (id : DataId) :
    0 < (InputBuffer.new queueSizes : InputBuffer ε).capOf id := by
  rw [InputBuffer.capOf, InputBuffer.new, TreeMap.getElem?_map]
  cases queueSizes[id]? with
  | none => exact QueuePolicy.effectiveCap_pos default DEFAULT_QUEUE_SIZE
  | some config => exact QueuePolicy.effectiveCap_pos _ _

variable (inputId) in
theorem running_run (queueSizes : TreeMap DataId (Nat × QueuePolicy)) (events : List (LoopEvent ε)) :
    (∃ live, Running inputId (InputBuffer.new queueSizes : InputBuffer ε).capOf
        (run (BufferLoop.step inputId) (new queueSizes) events).1 live) ∧
      Kept inputId (collect (BufferLoop.step inputId) accepted (new queueSizes) events)
        ((run (BufferLoop.step inputId) (new queueSizes) events).2.reduceOption ++
          (run (BufferLoop.step inputId) (new queueSizes) events).1.held) := by
  induction events using List.reverseRecOn with
  | nil =>
    refine ⟨⟨[], ⟨⟨rfl, rfl, fun id => Nat.zero_le _⟩, fun _ => rfl⟩, rfl⟩, ?_⟩
    exact ⟨List.Sublist.refl _, rfl⟩
  | append_singleton events e ih =>
    obtain ⟨⟨live, hrunning⟩, hkept⟩ := ih
    obtain ⟨live', hnext, -⟩ := hrunning.step (capOf_new_pos queueSizes) e
    rw [run_concat, collect_concat]
    refine ⟨⟨live', hnext⟩, ?_⟩
    have hlast (o : Option ε) : [o].reduceOption = o.toList := by cases o <;> rfl
    rw [List.reduceOption_append, hlast]
    exact hkept.step (capOf_new_pos queueSizes) hrunning e

theorem Running.drain (hpos : ∀ id, 0 < caps id) (h : Running inputId caps s live)
    (hclosed : s.incomingClosed = true) (n : Nat) (hn : s.held.length ≤ n) :
    (run (BufferLoop.step inputId) s (List.replicate n .received)).2.reduceOption = s.held ∧
      (run (BufferLoop.step inputId) s (List.replicate n .received)).1.ended = true := by
  induction n generalizing s live with
  | zero =>
    have hempty : s.held = [] := List.length_eq_zero_iff.mp (Nat.le_zero.mp hn)
    refine ⟨hempty.symm, ?_⟩
    rw [List.replicate_zero, run_nil, h.ended, hclosed, Bool.true_and]
    rw [h.held, List.append_eq_nil_iff] at hempty
    exact Option.isNone_iff_eq_none.mpr (Option.toList_eq_nil_iff.mp hempty.1)
  | succ n ih =>
    obtain ⟨live', hnext, hheld⟩ := h.step hpos .received
    have hclosed' : (s.step inputId .received).1.incomingClosed = true := by
      unfold BufferLoop.step
      split
      · exact hclosed
      · cases hsend : s.sendOut <;> simpa [turn, hsend, refill] using hclosed
    have hheld : (s.step inputId .received).2.toList ++ (s.step inputId .received).1.held = s.held :=
      hheld.trans h.held.symm
    have hshorter : (s.step inputId .received).1.held.length ≤ n := by
      have hlength := congrArg List.length hheld
      rw [List.length_append] at hlength
      cases hsend : s.sendOut with
      | none =>
        have hnothing : s.held = [] := by rw [h.held, hsend, h.sending hsend]; rfl
        rw [hnothing, List.length_nil] at hlength
        omega
      | some event =>
        have hended : s.ended = false := by rw [h.ended, hsend, Option.isNone_some, Bool.and_false]
        have hout : (s.step inputId .received).2 = some event := by
          simp [BufferLoop.step, hended, turn, hsend]
        rw [hout, Option.toList_some, List.length_singleton] at hlength
        omega
    obtain ⟨hdelivered, hended⟩ := ih hnext hclosed' hshorter
    have hfirst (o : Option ε) (rest : List (Option ε)) :
        (o :: rest).reduceOption = o.toList ++ rest.reduceOption := by cases o <;> simp
    rw [List.replicate_succ]
    exact ⟨(hfirst _ _).trans (hdelivered ▸ hheld), hended⟩

/-- For every queue configuration and every run of the loop: what is delivered and what is held come in
the order of the arrivals, and lack only inputs; every input is within its cap; an arrival drops nothing,
or the oldest event of its own input, which is at its cap; a receive and the closing of the incoming side
drop nothing; and when the incoming side has closed, a consumer that keeps receiving gets all that is held,
and then the loop ends. -/
theorem input_buffer_ordered_bounded_drained (inputId : ε → Option DataId)
    (queueSizes : TreeMap DataId (Nat × QueuePolicy)) (events : List (LoopEvent ε)) :
    let caps := (InputBuffer.new queueSizes : InputBuffer ε).capOf
    let s := (run (BufferLoop.step inputId) (new queueSizes) events).1
    let delivered := (run (BufferLoop.step inputId) (new queueSizes) events).2.reduceOption
    let arrived := collect (BufferLoop.step inputId) accepted (new queueSizes) events
    (delivered ++ s.held).Sublist arrived ∧
    (delivered ++ s.held).filter (inputId · = none) = arrived.filter (inputId · = none) ∧
    (∀ id, countOf inputId id s.buffer.queue.reduceOption ≤ caps id) ∧
    (∀ event, s.incomingClosed = false → s.ended = false →
      (s.step inputId (.arrived event)).1.held = s.held ++ [event] ∨
      ∃ id before victim after, inputId event = some id ∧ inputId victim = some id ∧
        s.buffer.queue.reduceOption = before ++ victim :: after ∧
        countOf inputId id (before ++ victim :: after) = caps id ∧
        (s.step inputId (.arrived event)).1.held = s.sendOut.toList ++ (before ++ after ++ [event])) ∧
    (∀ e, e = .received ∨ e = .disconnected →
      (s.step inputId e).2.toList ++ (s.step inputId e).1.held = s.held) ∧
    (s.incomingClosed = true → ∀ n ≥ s.held.length,
      (run (BufferLoop.step inputId) s (List.replicate n .received)).2.reduceOption = s.held ∧
      (run (BufferLoop.step inputId) s (List.replicate n .received)).1.ended = true) := by
  dsimp only
  obtain ⟨⟨live, h⟩, hkept⟩ := running_run inputId queueSizes events
  generalize (run (BufferLoop.step inputId) (new queueSizes) events).1 = s at h hkept ⊢
  have hpos : ∀ id, 0 < (InputBuffer.new queueSizes : InputBuffer ε).capOf id := capOf_new_pos queueSizes
  have hlive : s.buffer.queue.reduceOption = live := by
    rw [h.queue]
    simp [List.reduceOption, List.filterMap_map]
  rw [hlive]
  refine ⟨hkept.ordered, hkept.others, h.bound, fun event hopen hended => ?_, fun e he => ?_, h.drain hpos⟩
  swap
  · obtain ⟨_, -, hheld⟩ := h.step hpos e
    rw [hheld, h.held]
    rcases he with rfl | rfl <;> rfl
  obtain ⟨_, -, hheld⟩ := h.step hpos (.arrived event)
  have hnothing : (s.step inputId (.arrived event)).2 = none := by
    simp [BufferLoop.step, hended, turn, hopen]
  rw [hnothing, accepted, hopen, hended] at hheld
  have hheld : (s.step inputId (.arrived event)).1.held = s.sendOut.toList ++
      push inputId (InputBuffer.new queueSizes : InputBuffer ε).capOf live event := hheld
  rw [hheld, h.held]
  obtain ⟨hpush, -⟩ | ⟨id, before, victim, after, hid, hfull, hvictim, rfl, hpush⟩ :=
    push_cases hpos h.bound event
  · exact .inl (by rw [hpush, List.append_assoc])
  · exact .inr ⟨id, before, victim, after, hid, hvictim, rfl, hfull, by rw [hpush]⟩

end BufferLoop

end Dora
