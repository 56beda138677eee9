import Dora.Daemon.Channel
import Dora.Message.Config
import Dora.Node.Publish
import Dora.Lib.Machine

/-!
# The events of a node's listener (`binaries/daemon/src/node_communication/mod.rs`)

The listener of a connection takes events out of the channel of its node, queues them with their encoded
sizes, and answers `NextEvent` requests from the queue, one frame of bounded size at a time. With nothing
queued it hands on the next event of the channel.
-/

namespace Dora.Listener

open Lib

def varintSize (n : Nat) : Nat :=
  if n < 128 then 1 else 1 + varintSize (n / 128)

/-- What of `DaemonReply` a `NextEvent` request is answered with. -/
inductive DaemonReply (ε : Type) where
  | result (error : String)
  | nextEvents (events : List ε)

/-- `usize::saturating_add`. -/
def saturatingAdd (a b : Nat) : Nat := min (a + b) USIZE_MAX

def NEXT_EVENTS_FRAME_OVERHEAD : Nat := 32

def NEXT_EVENTS_REPLY_BUDGET : Nat := MAX_MESSAGE_BYTES - NEXT_EVENTS_FRAME_OVERHEAD

def LISTENER_QUEUE_MAX_EVENTS : Nat := NODE_EVENT_CHANNEL_CAPACITY

def LISTENER_QUEUE_MAX_BYTES : Nat := 4 * MAX_MESSAGE_BYTES

def queueSaturated (events bytes : Nat) : Bool :=
  decide (events ≥ LISTENER_QUEUE_MAX_EVENTS) || decide (bytes ≥ LISTENER_QUEUE_MAX_BYTES)

/-- `socket_stream_send` for a message of `size` bytes. -/
def socketStreamSend (size : Nat) : Except String Unit :=
  if size > MAX_MESSAGE_BYTES then
    .error s!"outgoing message size {size} exceeds maximum {MAX_MESSAGE_BYTES}"
  else .ok ()

section Model

variable {ε : Type} (serializedSize : ε → Nat)

/-- The length of the frame: the variant, then its text or its events behind their number. -/
def DaemonReply.encodedSize : DaemonReply ε → Nat
  | .result error => varintSize 0 + 1 + varintSize error.utf8ByteSize + error.utf8ByteSize
  | .nextEvents events =>
    varintSize 1 + varintSize events.length + (events.map serializedSize).sum

structure SizedEvent where
  size : Nat
  event : ε
  measured : size = serializedSize event

def SizedEvent.new (event : ε) : SizedEvent serializedSize := ⟨serializedSize event, event, rfl⟩

structure Receiver (ε : Type) where
  pending : List ε := []
  closed : Bool := false

/-- Where the listener's task is: waiting for a request or an event, in `handle_events`, or waiting for
the event that answers a request. -/
inductive Phase where
  | select
  | handleEvents
  | recv
deriving DecidableEq

structure State where
  queue : List (SizedEvent serializedSize) := []
  queuedBytes : Nat := 0
  subscribedEvents : Option (Receiver ε) := none
  /-- The `NextEvent` requests that the listener has not read yet. -/
  requests : Nat := 0
  phase : Phase := .select

variable {serializedSize}

namespace State

variable (s : State serializedSize)

def queueSaturated : Bool := Listener.queueSaturated s.queue.length s.queuedBytes

def enqueue (event : ε) : State serializedSize :=
  let sized := SizedEvent.new serializedSize event
  { s with queuedBytes := saturatingAdd s.queuedBytes sized.size, queue := s.queue ++ [sized] }

end State

/-- The loop of `take_queued_events_within_budget`: the batch, and the queue and its size after it. -/
def takeWithinBudget (queuedBytes : Nat) (batch : List ε) (batchBytes : Nat) :
    List (SizedEvent serializedSize) → List ε × List (SizedEvent serializedSize) × Nat
  | [] => (batch, [], queuedBytes)
  | front :: queue =>
    -- an event that no frame can hold is dropped
    if front.size > NEXT_EVENTS_REPLY_BUDGET then
      takeWithinBudget (queuedBytes - front.size) batch batchBytes queue
    else if !batch.isEmpty && decide (saturatingAdd batchBytes front.size > NEXT_EVENTS_REPLY_BUDGET) then
      (batch, front :: queue, queuedBytes)
    else
      takeWithinBudget (queuedBytes - front.size) (batch ++ [front.event])
        (saturatingAdd batchBytes front.size) queue

namespace State

variable (s : State serializedSize)

def takeQueuedEventsWithinBudget : List ε × State serializedSize :=
  let taken := takeWithinBudget s.queuedBytes [] 0 s.queue
  (taken.1, { s with queue := taken.2.1, queuedBytes := taken.2.2 })

def pull : Option (ε × State serializedSize) :=
  if s.queueSaturated then none
  else
    match s.subscribedEvents with
    | some ⟨event :: pending, closed⟩ =>
      some (event, { s with subscribedEvents := some ⟨pending, closed⟩ })
    | _ => none

/-- `NextEvent`: answer from the queue, or wait for the next event. -/
def nextEvent : State serializedSize × Option (DaemonReply ε) :=
  let taken := s.takeQueuedEventsWithinBudget
  if taken.1.isEmpty then
    match taken.2.subscribedEvents with
    | some _ => ({ taken.2 with phase := .recv }, none)
    | none =>
      (taken.2, some (.result "Ignoring event request because no subscribe message was sent yet"))
  else (taken.2, some (.nextEvents taken.1))

/-- `events.recv().await` of a `NextEvent` request, once it is ready. -/
def recv : State serializedSize × Option (DaemonReply ε) :=
  match s.subscribedEvents with
  | some ⟨event :: pending, closed⟩ =>
    ({ s with subscribedEvents := some ⟨pending, closed⟩, phase := .select },
      some (.nextEvents [event]))
  | some ⟨[], true⟩ => ({ s with phase := .select }, some (.nextEvents []))
  | _ => (s, none)

end State

inductive Op (ε : Type) where
  /-- The daemon puts an event into the channel. -/
  | push (event : ε)
  /-- The last sender of the channel is dropped. -/
  | close
  /-- The node asks for events. -/
  | request
  /-- `next_event` is ready before the next request. -/
  | event
  /-- One round of `handle_events`. -/
  | tryRecv
  /-- The next request is handled. -/
  | message
  /-- The wait of a request is over. -/
  | recv

inductive Record (ε : Type) where
  | pushed (event : ε)
  | reply (reply : DaemonReply ε)

def Receiver.push (receiver : Receiver ε) (event : ε) : Receiver ε × List (Record ε) :=
  if receiver.closed || decide (receiver.pending.length ≥ NODE_EVENT_CHANNEL_CAPACITY) then
    (receiver, [])
  else ({ receiver with pending := receiver.pending ++ [event] }, [.pushed event])

def step (s : State serializedSize) : Op ε → State serializedSize × List (Record ε)
  | .push event =>
    match s.subscribedEvents with
    | some receiver =>
      let pushed := receiver.push event
      ({ s with subscribedEvents := some pushed.1 }, pushed.2)
    | none => (s, [])
  | .close =>
    ({ s with subscribedEvents := s.subscribedEvents.map fun receiver =>
        { receiver with closed := true } }, [])
  | .request => ({ s with requests := s.requests + 1 }, [])
  | .event =>
    if s.phase = .select then
      match s.pull with
      | some (event, s) => ({ s.enqueue event with phase := .handleEvents }, [])
      | none => (s, [])
    else (s, [])
  | .tryRecv =>
    if s.phase = .handleEvents then
      match s.pull with
      | some (event, s) => (s.enqueue event, [])
      | none => ({ s with phase := .select }, [])
    else (s, [])
  | .message =>
    if s.phase = .select ∧ 0 < s.requests then
      let answered := State.nextEvent { s with requests := s.requests - 1 }
      (answered.1, answered.2.toList.map .reply)
    else (s, [])
  | .recv =>
    if s.phase = .recv then
      let answered := s.recv
      (answered.1, answered.2.toList.map .reply)
    else (s, [])

def subscribed (serializedSize : ε → Nat) : State serializedSize :=
  { subscribedEvents := some {} }

variable (serializedSize) in
def fitting (events : List ε) : List ε :=
  events.filter fun event => serializedSize event ≤ NEXT_EVENTS_REPLY_BUDGET

@[simp] theorem fitting_append (events later : List ε) :
    fitting serializedSize (events ++ later) =
      fitting serializedSize events ++ fitting serializedSize later :=
  List.filter_append ..

theorem fitting_cons_of_le {event : ε} (h : serializedSize event ≤ NEXT_EVENTS_REPLY_BUDGET)
    (events : List ε) :
    fitting serializedSize (event :: events) = event :: fitting serializedSize events :=
  List.filter_cons_of_pos (by simpa using h)

theorem fitting_cons_of_lt {event : ε} (h : NEXT_EVENTS_REPLY_BUDGET < serializedSize event)
    (events : List ε) :
    fitting serializedSize (event :: events) = fitting serializedSize events :=
  List.filter_cons_of_neg (by simpa using h)

theorem fitting_eq_self {events : List ε} :
    fitting serializedSize events = events ↔
      ∀ event ∈ events, serializedSize event ≤ NEXT_EVENTS_REPLY_BUDGET := by
  unfold fitting
  rw [List.filter_eq_self]
  simp

theorem saturatingAdd_le {a b bound : Nat} (h : a + b ≤ bound) : saturatingAdd a b ≤ bound :=
  le_trans (Nat.min_le_left _ _) h

/-- Below the largest `usize` nothing saturates. -/
theorem add_le_of_saturatingAdd_le {a b : Nat} (h : saturatingAdd a b ≤ NEXT_EVENTS_REPLY_BUDGET) :
    a + b ≤ NEXT_EVENTS_REPLY_BUDGET ∧ saturatingAdd a b = a + b := by
  have hbound : NEXT_EVENTS_REPLY_BUDGET < USIZE_MAX := by decide
  unfold saturatingAdd at h ⊢
  omega

/-- The loop moves events from the front of the queue to the end of the batch, and leaves out those
that no frame can hold. -/
structure Taken (batch : List ε) (queue : List (SizedEvent serializedSize))
    (result : List ε × List (SizedEvent serializedSize) × Nat) : Prop where
  events : result.1 ++ fitting serializedSize (result.2.1.map SizedEvent.event) =
    batch ++ fitting serializedSize (queue.map SizedEvent.event)
  budget : (result.1.map serializedSize).sum ≤ NEXT_EVENTS_REPLY_BUDGET
  length : result.1.length + result.2.1.length ≤ batch.length + queue.length
  drained : result.1 = [] → result.2.1 = []

theorem taken_takeWithinBudget (queue : List (SizedEvent serializedSize)) (queuedBytes : Nat)
    (batch : List ε) (batchBytes : Nat) (hsum : (batch.map serializedSize).sum = batchBytes)
    (hbudget : batchBytes ≤ NEXT_EVENTS_REPLY_BUDGET) :
    Taken batch queue (takeWithinBudget queuedBytes batch batchBytes queue) := by
  induction queue generalizing queuedBytes batch batchBytes with
  | nil => exact ⟨rfl, hsum ▸ hbudget, le_rfl, fun _ => rfl⟩
  | cons front queue ih =>
    have hsize := front.measured
    unfold takeWithinBudget
    by_cases hover : front.size > NEXT_EVENTS_REPLY_BUDGET
    · rw [if_pos hover]
      have hrest := ih (queuedBytes - front.size) batch batchBytes hsum hbudget
      refine ⟨?_, hrest.budget, ?_, hrest.drained⟩
      · rw [hrest.events, List.map_cons, fitting_cons_of_lt (by omega)]
      · have hlength := hrest.length
        rw [List.length_cons]
        omega
    rw [if_neg hover]
    by_cases hstop : (!batch.isEmpty &&
        decide (saturatingAdd batchBytes front.size > NEXT_EVENTS_REPLY_BUDGET)) = true
    · rw [if_pos hstop]
      refine ⟨rfl, hsum ▸ hbudget, le_rfl, fun hempty => ?_⟩
      have hempty : batch = [] := hempty
      rw [hempty] at hstop
      cases hstop
    rw [if_neg hstop]
    -- an event alone in its batch is within the budget, one that joins others was checked
    have hadd : saturatingAdd batchBytes front.size ≤ NEXT_EVENTS_REPLY_BUDGET := by
      by_cases hbatch : batch = []
      · rw [hbatch] at hsum
        exact saturatingAdd_le (by simp at hsum; omega)
      · by_contra hlt
        exact hstop (by simp [hbatch]; omega)
    have hexact := add_le_of_saturatingAdd_le hadd
    have hrest := ih (queuedBytes - front.size) (batch ++ [front.event])
      (saturatingAdd batchBytes front.size)
      (by rw [hexact.2, List.map_append, List.sum_append, hsum, List.map_singleton,
        List.sum_singleton, hsize])
      hadd
    refine ⟨?_, hrest.budget, ?_, hrest.drained⟩
    · rw [hrest.events, List.map_cons, fitting_cons_of_le (by omega), List.append_assoc]
      rfl
    · have hlength := hrest.length
      rw [List.length_append, List.length_singleton] at hlength
      rw [List.length_cons]
      omega

theorem Taken.fits {queue : List (SizedEvent serializedSize)}
    {result : List ε × List (SizedEvent serializedSize) × Nat} (h : Taken [] queue result) :
    ∀ event ∈ result.1, serializedSize event ≤ NEXT_EVENTS_REPLY_BUDGET := by
  intro event hevent
  have hmem : event ∈ fitting serializedSize (queue.map SizedEvent.event) := by
    rw [← List.nil_append (fitting _ _), ← h.events]
    exact List.mem_append_left _ hevent
  simpa using (List.mem_filter.mp hmem).2

theorem varintSize_of_lt {n : Nat} (h : n < 128) : varintSize n = 1 := by
  unfold varintSize
  rw [if_pos h]

theorem varintSize_le {n : Nat} (h : n ≤ LISTENER_QUEUE_MAX_EVENTS) : varintSize n ≤ 2 := by
  have h : n ≤ 1000 := h
  unfold varintSize
  split
  · omega
  · rw [varintSize_of_lt (by omega)]

theorem socketStreamSend_nextEvents {events : List ε}
    (hbudget : (events.map serializedSize).sum ≤ NEXT_EVENTS_REPLY_BUDGET)
    (hlength : events.length ≤ LISTENER_QUEUE_MAX_EVENTS) :
    socketStreamSend ((DaemonReply.nextEvents events).encodedSize serializedSize) = .ok () := by
  have hcount := varintSize_le hlength
  have hvariant : varintSize 1 ≤ 2 := varintSize_le (by decide)
  have hoverhead : NEXT_EVENTS_REPLY_BUDGET + 32 = MAX_MESSAGE_BYTES := by decide
  have hsize : (DaemonReply.nextEvents events).encodedSize serializedSize =
    varintSize 1 + varintSize events.length + (events.map serializedSize).sum := rfl
  unfold socketStreamSend
  rw [if_neg (by omega)]

def DaemonReply.events : DaemonReply ε → List ε
  | .result _ => []
  | .nextEvents events => events

def replies (records : List (Record ε)) : List (DaemonReply ε) :=
  records.filterMap fun
    | .reply reply => some reply
    | .pushed _ => none

def pushedEvents (records : List (Record ε)) : List ε :=
  records.filterMap fun
    | .pushed event => some event
    | .reply _ => none

@[simp] theorem replies_append (records later : List (Record ε)) :
    replies (records ++ later) = replies records ++ replies later :=
  List.filterMap_append ..

@[simp] theorem pushedEvents_append (records later : List (Record ε)) :
    pushedEvents (records ++ later) = pushedEvents records ++ pushedEvents later :=
  List.filterMap_append ..

def State.pending (s : State serializedSize) : List ε :=
  (s.subscribedEvents.map Receiver.pending).getD []

def State.waiting (s : State serializedSize) : List ε := s.queue.map SizedEvent.event ++ s.pending

def State.owed (s : State serializedSize) : Nat := s.requests + if s.phase = .recv then 1 else 0

def Op.asks : Op ε → Nat
  | .request => 1
  | _ => 0

def State.Ended (s : State serializedSize) : Prop :=
  s.queue = [] ∧ s.subscribedEvents = some ⟨[], true⟩

structure Tidy (s : State serializedSize) : Prop where
  subscribed : s.subscribedEvents ≠ none
  room : s.queue.length ≤ LISTENER_QUEUE_MAX_EVENTS
  direct : s.phase = .recv → s.queue = []

structure Serves (s : State serializedSize) (op : Op ε)
    (result : State serializedSize × List (Record ε)) : Prop where
  tidy : Tidy result.1
  events : fitting serializedSize ((replies result.2).flatMap DaemonReply.events ++ result.1.waiting) =
    fitting serializedSize (s.waiting ++ pushedEvents result.2)
  requests : (replies result.2).length + result.1.owed = s.owed + op.asks
  frames : ∀ reply ∈ replies result.2, ∃ events, reply = .nextEvents events ∧
    ((∀ event ∈ events, serializedSize event ≤ NEXT_EVENTS_REPLY_BUDGET) →
      socketStreamSend (reply.encodedSize serializedSize) = .ok ())
  ended : .nextEvents [] ∈ replies result.2 → s.Ended

variable {s s' : State serializedSize}

theorem Serves.silent {op : Op ε} (htidy : Tidy s')
    (hevents : s'.waiting = s.waiting) (hrequests : s'.owed = s.owed + op.asks) :
    Serves s op (s', []) where
  tidy := htidy
  events := by
    show fitting serializedSize s'.waiting = fitting serializedSize (s.waiting ++ [])
    rw [hevents, List.append_nil]
  requests := by
    show 0 + s'.owed = _
    omega
  frames _ hreply := absurd hreply List.not_mem_nil
  ended hreply := absurd hreply List.not_mem_nil

theorem lt_of_not_queueSaturated (h : ¬s.queueSaturated = true) :
    s.queue.length < LISTENER_QUEUE_MAX_EVENTS := by
  unfold State.queueSaturated queueSaturated at h
  simp at h
  omega

theorem owed_of_ne (h : s.phase ≠ .recv) : s.owed = s.requests := by
  unfold State.owed
  rw [if_neg h, Nat.add_zero]

theorem Tidy.setPhase (h : Tidy s) {phase : Phase} (hphase : phase ≠ .recv) :
    Tidy { s with phase := phase } :=
  ⟨h.subscribed, h.room, fun hrecv => absurd hrecv hphase⟩

theorem pull_enqueue {event : ε} (h : s.pull = some (event, s')) (hphase : s.phase ≠ .recv) :
    Tidy (s'.enqueue event) ∧ (s'.enqueue event).waiting = s.waiting ∧
      (s'.enqueue event).requests = s.requests ∧ (s'.enqueue event).phase = s.phase := by
  unfold State.pull at h
  split at h
  · cases h
  rename_i hsaturated
  split at h
  · rename_i event' pending closed hsubscribed
    cases h
    have hroom := lt_of_not_queueSaturated hsaturated
    refine ⟨⟨nofun, ?_, fun hrecv => absurd hrecv hphase⟩, ?_, rfl, rfl⟩
    · show (s.queue ++ [_]).length ≤ _
      rw [List.length_append, List.length_singleton]
      exact hroom
    · unfold State.waiting State.pending
      rw [hsubscribed]
      show (s.queue ++ [_]).map SizedEvent.event ++ pending = _ ++ event :: pending
      rw [List.map_append, List.append_assoc]
      rfl
  · cases h

theorem serves_push (htidy : Tidy s) (event : ε) :
    Serves s (.push event) (step s (.push event)) := by
  unfold step
  dsimp only
  split
  · rename_i receiver hsubscribed
    unfold Receiver.push
    split
    · exact .silent ⟨nofun, htidy.room, htidy.direct⟩
        (by unfold State.waiting State.pending; rw [hsubscribed]) rfl
    · refine ⟨⟨nofun, htidy.room, htidy.direct⟩, ?_, ?_, fun _ hreply => absurd hreply List.not_mem_nil,
        fun hreply => absurd hreply List.not_mem_nil⟩
      · unfold State.waiting State.pending
        rw [hsubscribed]
        show fitting serializedSize (_ ++ (receiver.pending ++ [event])) =
          fitting serializedSize (_ ++ receiver.pending ++ [event])
        rw [List.append_assoc]
      · exact Nat.zero_add _
  · exact .silent htidy rfl rfl

theorem serves_message (htidy : Tidy s) :
    Serves s .message (step s .message) := by
  unfold step
  dsimp only
  split
  · rename_i hready
    have htaken := taken_takeWithinBudget s.queue s.queuedBytes [] 0 rfl (Nat.zero_le _)
    have howed : s.owed = s.requests := owed_of_ne (by rw [hready.1]; decide)
    unfold State.nextEvent State.takeQueuedEventsWithinBudget
    dsimp only
    generalize takeWithinBudget s.queuedBytes [] 0 s.queue = taken at htaken
    have hevents := htaken.events
    rw [List.nil_append] at hevents
    split
    · rename_i hempty
      have hempty := List.isEmpty_iff.mp hempty
      rw [hempty, htaken.drained hempty] at hevents
      split
      · -- whatever was queued is dropped
        refine ⟨⟨htidy.subscribed, ?_, fun _ => htaken.drained hempty⟩, ?_, ?_,
          fun _ hreply => absurd hreply List.not_mem_nil, fun hreply => absurd hreply List.not_mem_nil⟩
        · show taken.2.1.length ≤ _
          rw [htaken.drained hempty]
          exact Nat.zero_le _
        · show fitting serializedSize (taken.2.1.map _ ++ s.pending) =
            fitting serializedSize (s.queue.map _ ++ s.pending ++ [])
          rw [List.append_nil, fitting_append, fitting_append, ← hevents, htaken.drained hempty]
          rfl
        · show 0 + (s.requests - 1 + 1) = s.owed + 0
          omega
      · rename_i hsubscribed
        exact absurd hsubscribed htidy.subscribed
    · rename_i hbatch
      have hlength : taken.1.length + taken.2.1.length ≤ 0 + s.queue.length := htaken.length
      have hroom := htidy.room
      refine ⟨⟨htidy.subscribed, ?_, fun hrecv => ?_⟩, ?_, ?_, ?_, ?_⟩
      · show taken.2.1.length ≤ _
        omega
      · have hrecv : s.phase = .recv := hrecv
        rw [hready.1] at hrecv
        cases hrecv
      · show fitting serializedSize ((taken.1 ++ []) ++ (taken.2.1.map _ ++ s.pending)) =
          fitting serializedSize (s.queue.map _ ++ s.pending ++ [])
        rw [List.append_nil, List.append_nil, fitting_append, fitting_append, fitting_append,
          ← List.append_assoc, fitting_eq_self.mpr htaken.fits, hevents]
      · show 1 + State.owed _ = s.owed + 0
        rw [owed_of_ne (by show s.phase ≠ _; rw [hready.1]; decide), howed]
        show 1 + (s.requests - 1) = s.requests
        omega
      · intro reply hreply
        rw [List.mem_singleton.mp hreply]
        exact ⟨taken.1, rfl, fun _ => socketStreamSend_nextEvents htaken.budget (by omega)⟩
      · intro hreply
        have hnil : [] = taken.1 := DaemonReply.nextEvents.inj (List.mem_singleton.mp hreply)
        rw [← hnil] at hbatch
        exact absurd rfl hbatch
  · exact .silent htidy rfl rfl

theorem serves_recv (htidy : Tidy s) :
    Serves s .recv (step s .recv) := by
  unfold step
  dsimp only
  split
  · rename_i hphase
    have hqueue := htidy.direct hphase
    have howed : s.owed = s.requests + 1 := by
      unfold State.owed
      rw [if_pos hphase]
    unfold State.recv
    split
    · rename_i event pending closed hsubscribed
      refine ⟨⟨nofun, htidy.room, nofun⟩, ?_, ?_, ?_, ?_⟩
      · unfold State.waiting State.pending
        rw [hsubscribed, hqueue]
        show fitting serializedSize ([event] ++ pending) =
          fitting serializedSize (event :: pending ++ [])
        rw [List.append_nil]
        rfl
      · rw [howed]
        exact Nat.add_comm 1 s.requests
      · intro reply hreply
        rw [List.mem_singleton.mp hreply]
        refine ⟨[event], rfl, fun hfits => socketStreamSend_nextEvents ?_ (Nat.le_of_ble_eq_true rfl)⟩
        rw [List.map_singleton, List.sum_singleton]
        exact hfits event List.mem_cons_self
      · intro hreply
        cases List.mem_singleton.mp hreply
    · rename_i hsubscribed
      refine ⟨⟨htidy.subscribed, htidy.room, nofun⟩, ?_, ?_, ?_, fun _ => ⟨hqueue, hsubscribed⟩⟩
      · show fitting serializedSize s.waiting = fitting serializedSize (s.waiting ++ [])
        rw [List.append_nil]
      · rw [howed]
        exact Nat.add_comm 1 s.requests
      · intro reply hreply
        rw [List.mem_singleton.mp hreply]
        exact ⟨[], rfl, fun _ => socketStreamSend_nextEvents (Nat.zero_le _) (Nat.zero_le _)⟩
    · exact .silent htidy rfl rfl
  · exact .silent htidy rfl rfl

theorem serves_step (htidy : Tidy s) (op : Op ε) :
    Serves s op (step s op) := by
  cases op with
  | push event => exact serves_push htidy event
  | close =>
    refine .silent ⟨fun hnone => ?_, htidy.room, htidy.direct⟩ ?_ rfl
    · exact htidy.subscribed (Option.map_eq_none_iff.mp hnone)
    · unfold State.waiting State.pending
      cases s.subscribedEvents <;> rfl
  | request =>
    refine .silent ⟨htidy.subscribed, htidy.room, htidy.direct⟩ rfl ?_
    show s.requests + 1 + (if s.phase = .recv then 1 else 0) = s.owed + 1
    unfold State.owed
    omega
  | event =>
    unfold step
    dsimp only
    split
    · rename_i hphase
      have hselect : s.phase ≠ .recv := by
        rw [hphase]
        decide
      split
      · rename_i event s' hpull
        have hpulled := pull_enqueue hpull hselect
        refine .silent (hpulled.1.setPhase (by decide)) hpulled.2.1 ?_
        rw [owed_of_ne (by show Phase.handleEvents ≠ _; decide), owed_of_ne hselect]
        exact hpulled.2.2.1
      · exact .silent htidy rfl rfl
    · exact .silent htidy rfl rfl
  | tryRecv =>
    unfold step
    dsimp only
    split
    · rename_i hphase
      have hhandle : s.phase ≠ .recv := by
        rw [hphase]
        decide
      split
      · rename_i event s' hpull
        have hpulled := pull_enqueue hpull hhandle
        refine .silent hpulled.1 hpulled.2.1 ?_
        rw [owed_of_ne (by rw [hpulled.2.2.2]; exact hhandle), owed_of_ne hhandle]
        exact hpulled.2.2.1
      · refine .silent (htidy.setPhase (by decide)) rfl ?_
        rw [owed_of_ne (by show Phase.select ≠ _; decide), owed_of_ne hhandle]
        rfl
    · exact .silent htidy rfl rfl
  | message => exact serves_message htidy
  | recv => exact serves_recv htidy

def TakesFitting (s : State serializedSize) : Op ε → Prop
  | .recv => s.phase = .recv → ∀ event ∈ s.pending.head?, serializedSize event ≤ NEXT_EVENTS_REPLY_BUDGET
  | _ => True

/-- Only `NextEvent` requests are replied to. -/
theorem replies_step_of_ne (s : State serializedSize) {op : Op ε} (hmessage : op ≠ .message)
    (hrecv : op ≠ .recv) : replies (step s op).2 = [] := by
  cases op with
  | message => exact absurd rfl hmessage
  | recv => exact absurd rfl hrecv
  | push =>
    unfold step
    dsimp only
    split
    · unfold Receiver.push
      split <;> rfl
    · rfl
  | close | request => rfl
  | event | tryRecv =>
    unfold step
    dsimp only
    split
    · split <;> rfl
    · rfl

theorem fits_of_message (s : State serializedSize) :
    ∀ event ∈ (replies (step s .message).2).flatMap DaemonReply.events,
      serializedSize event ≤ NEXT_EVENTS_REPLY_BUDGET := by
  have htaken := taken_takeWithinBudget s.queue s.queuedBytes [] 0 rfl (Nat.zero_le _)
  unfold step
  dsimp only
  split
  · unfold State.nextEvent State.takeQueuedEventsWithinBudget
    dsimp only
    split
    · split <;> exact fun _ hevent => absurd hevent List.not_mem_nil
    · intro event hevent
      have hevent : event ∈ _ ++ [] := hevent
      rw [List.append_nil] at hevent
      exact htaken.fits event hevent
  · exact fun _ hevent => absurd hevent List.not_mem_nil

theorem replied_recv (s : State serializedSize) :
    (replies (step s .recv).2).flatMap DaemonReply.events =
      if s.phase = .recv then s.pending.head?.toList else [] := by
  unfold step
  dsimp only
  split
  · unfold State.recv State.pending
    cases hsubscribed : s.subscribedEvents with
    | none => rfl
    | some receiver =>
      obtain ⟨pending, closed⟩ := receiver
      cases pending with
      | cons => rfl
      | nil => cases closed <;> rfl
  · rfl

theorem takesFitting_iff (s : State serializedSize) (op : Op ε) :
    TakesFitting s op ↔ ∀ event ∈ (replies (step s op).2).flatMap DaemonReply.events,
      serializedSize event ≤ NEXT_EVENTS_REPLY_BUDGET := by
  by_cases hmessage : op = .message
  · subst hmessage
    exact ⟨fun _ => fits_of_message s, fun _ => trivial⟩
  by_cases hrecv : op = .recv
  · subst hrecv
    rw [replied_recv]
    show (s.phase = .recv → ∀ event ∈ s.pending.head?, _) ↔ _
    by_cases hphase : s.phase = .recv
    · simp only [hphase, if_pos, true_implies, Option.mem_toList, Option.mem_def]
    · rw [if_neg hphase]
      exact ⟨fun _ _ hevent => absurd hevent List.not_mem_nil, fun _ hrecv => absurd hrecv hphase⟩
  · rw [replies_step_of_ne s hmessage hrecv]
    have htrue : TakesFitting s op := by
      cases op with
      | recv => exact absurd rfl hrecv
      | _ => trivial
    exact ⟨fun _ _ hevent => absurd hevent List.not_mem_nil, fun _ => htrue⟩

structure Served (ops : List (Op ε)) (trace : List (Record ε)) (s : State serializedSize) : Prop where
  tidy : Tidy s
  events : fitting serializedSize ((replies trace).flatMap DaemonReply.events ++ s.waiting) =
    fitting serializedSize (pushedEvents trace)
  requests : (replies trace).length + s.owed = (ops.map Op.asks).sum
  frames : ∀ reply ∈ replies trace, ∃ events, reply = .nextEvents events ∧
    ((∀ event ∈ events, serializedSize event ≤ NEXT_EVENTS_REPLY_BUDGET) →
      socketStreamSend (reply.encodedSize serializedSize) = .ok ())

theorem Served.step {ops : List (Op ε)} {trace : List (Record ε)}
    (h : Served ops trace s) (op : Op ε) :
    Served (ops ++ [op]) (trace ++ (Listener.step s op).2) (Listener.step s op).1 := by
  have hstep := serves_step h.tidy op
  refine ⟨hstep.tidy, ?_, ?_, ?_⟩
  · have hnew := hstep.events
    have hold := h.events
    simp only [fitting_append, replies_append, pushedEvents_append, List.flatMap_append,
      List.append_assoc] at hnew hold ⊢
    rw [hnew, ← List.append_assoc, hold]
  · have hnew := hstep.requests
    have hold := h.requests
    rw [replies_append, List.length_append, List.map_append, List.sum_append, List.map_singleton,
      List.sum_singleton]
    omega
  · intro reply hreply
    rw [replies_append] at hreply
    cases List.mem_append.mp hreply with
    | inl hbefore => exact h.frames reply hbefore
    | inr hnew => exact hstep.frames reply hnew

theorem served_run (serializedSize : ε → Nat) (ops : List (Op ε)) :
    Served ops (run step (subscribed serializedSize) ops).2.flatten
      (run step (subscribed serializedSize) ops).1 := by
  refine run_induction step (P := fun ops outputs s => Served ops outputs.flatten s)
    ⟨⟨Option.some_ne_none _, Nat.zero_le _, fun _ => rfl⟩, rfl, rfl,
      fun _ hreply => absurd hreply List.not_mem_nil⟩ ?_ ops
  intro ops outputs s op _ hserved
  rw [List.flatten_append, List.flatten_singleton]
  exact hserved.step op

theorem meets_takesFitting_iff (s : State serializedSize) (ops : List (Op ε)) :
    Meets step TakesFitting s ops ↔
      ∀ event ∈ (replies (run step s ops).2.flatten).flatMap DaemonReply.events,
        serializedSize event ≤ NEXT_EVENTS_REPLY_BUDGET := by
  induction ops using List.reverseRecOn with
  | nil => exact ⟨fun _ _ hevent => absurd hevent List.not_mem_nil, fun _ => trivial⟩
  | append_singleton ops op ih =>
    rw [meets_concat, run_concat, ih, takesFitting_iff]
    simp only [List.flatten_append, List.flatten_singleton, replies_append, List.flatMap_append,
      List.forall_mem_append]

/-- Every request that is answered is answered with a frame the transport takes; the answers hold what
the channel was given, in order, without what no frame can hold; and an answer without events tells that
there is no more. -/
structure Answered (serializedSize : ε → Nat) (ops : List (Op ε)) : Prop where
  frames : ∀ reply ∈ replies (run step (subscribed serializedSize) ops).2.flatten,
    (∃ events, reply = .nextEvents events) ∧
      socketStreamSend (reply.encodedSize serializedSize) = .ok ()
  events : (replies (run step (subscribed serializedSize) ops).2.flatten).flatMap DaemonReply.events ++
      fitting serializedSize (run step (subscribed serializedSize) ops).1.waiting =
    fitting serializedSize (pushedEvents (run step (subscribed serializedSize) ops).2.flatten)
  requests : (replies (run step (subscribed serializedSize) ops).2.flatten).length +
      (run step (subscribed serializedSize) ops).1.owed = (ops.map Op.asks).sum
  ended : ∀ before op after, ops = before ++ op :: after →
    .nextEvents [] ∈ replies (step (run step (subscribed serializedSize) before).1 op).2 →
      (run step (subscribed serializedSize) before).1.Ended

theorem next_event_answered_iff (serializedSize : ε → Nat) (ops : List (Op ε)) :
    Answered serializedSize ops ↔ Meets step TakesFitting (subscribed serializedSize) ops := by
  have hserved := served_run serializedSize ops
  rw [meets_takesFitting_iff]
  constructor
  · intro h event hevent
    have hmem : event ∈ fitting serializedSize
        (pushedEvents (run step (subscribed serializedSize) ops).2.flatten) := by
      rw [← h.events]
      exact List.mem_append_left _ hevent
    simpa using (List.mem_filter.mp hmem).2
  · intro hfits
    refine ⟨?_, ?_, hserved.requests, ?_⟩
    · intro reply hreply
      obtain ⟨events, heq, hframe⟩ := hserved.frames reply hreply
      refine ⟨⟨events, heq⟩, hframe fun event hevent => hfits event ?_⟩
      exact List.mem_flatMap.mpr ⟨reply, hreply, heq ▸ hevent⟩
    · have hevents := hserved.events
      rw [fitting_append, fitting_eq_self.mpr hfits] at hevents
      exact hevents
    · intro before op after _ hreply
      exact (serves_step (served_run serializedSize before).tidy op).ended hreply

def toOversize : List (Op Nat) := [.request, .message, .push MAX_MESSAGE_BYTES, .recv]

end Model

/-- The event is handed on, its frame is refused, and the request counts as answered. -/
theorem direct_wait_exceeds_frame :
    (run step (subscribed id) toOversize).2.flatten =
        [.pushed MAX_MESSAGE_BYTES, .reply (.nextEvents [MAX_MESSAGE_BYTES])] ∧
      socketStreamSend ((DaemonReply.nextEvents [MAX_MESSAGE_BYTES]).encodedSize id) ≠ .ok () ∧
      (run step (subscribed id) toOversize).1.owed = 0 ∧ ¬Answered id toOversize := by
  have htrace : (run step (subscribed id) toOversize).2.flatten =
    [.pushed MAX_MESSAGE_BYTES, .reply (.nextEvents [MAX_MESSAGE_BYTES])] := by rfl
  have hsize : (DaemonReply.nextEvents [MAX_MESSAGE_BYTES]).encodedSize id = MAX_MESSAGE_BYTES + 2 := by
    show varintSize 1 + varintSize 1 + (MAX_MESSAGE_BYTES + 0) = _
    rw [varintSize_of_lt (by decide)]
    omega
  have hrefused : socketStreamSend
      ((DaemonReply.nextEvents [MAX_MESSAGE_BYTES]).encodedSize id) ≠ .ok () := by
    unfold socketStreamSend
    rw [hsize, if_pos (Nat.lt_add_of_pos_right (by decide))]
    exact nofun
  refine ⟨htrace, hrefused, by rfl, fun hanswered => hrefused (hanswered.frames _ ?_).2⟩
  rw [htrace]
  exact List.mem_singleton_self _

end Dora.Listener
