import Dora.Node.Scheduler

/-!
# The node's event stream (`apis/rust/node/src/event_stream/mod.rs`)

The receive APIs of a node. Events wait in the receiver channel, in the scheduler, or, set aside by a
wait for a service response or an action result, in `pending_passthrough`.

An asynchronous call is modelled by its polls: the receiver may gain events between two polls, and a
cancelled call is not polled again. A poll of `recv_async` may start over at the top, since nothing that
the earlier part looked at changes while the call is suspended. The loops are followed round by round,
with the events that arrive before each round.
-/

namespace Dora

open Std

inductive StopCause where
  | manual
  | allInputsClosed
deriving DecidableEq

inductive Event (ArrayData Json : Type) where
  | input (id : DataId) (metadata : Metadata) (data : ArrayData)
  | inputClosed (id : DataId)
  | inputRecovered (id : DataId)
  | nodeRestarted (id : NodeId)
  | stop (cause : StopCause)
  | reload (operatorId : Option String)
  | paramUpdate (key : String) (value : Json)
  | paramDeleted (key : String)
  | nodeFailed (affectedInputIds : List DataId) (error : String) (sourceNodeId : NodeId)
  | error (report : String)

structure EventCodec (ArrayData Json : Type) where
  dataToArrowArray : Option DataMessage → Except String ArrayData
  parseJson : List UInt8 → Except String Json

variable {ArrayData Json : Type} (codec : EventCodec ArrayData Json)

def EventItem.isInput : EventItem ArrayData → Bool
  | .nodeEvent (.input ..) => true
  | .zenohInput .. => true
  | _ => false

def convertEventItem : EventItem ArrayData → Event ArrayData Json
  | .nodeEvent event =>
    match event with
    | .stop => .stop .manual
    | .reload operatorId => .reload operatorId
    | .inputClosed id => .inputClosed id
    | .inputRecovered id => .inputRecovered id
    | .nodeRestarted id => .nodeRestarted id
    | .input id metadata data =>
      match codec.dataToArrowArray data with
      | .ok data => .input id ⟨stripInternalParameters metadata.parameters⟩ data
      | .error err => .error err
    | .allInputsClosed => .stop .allInputsClosed
    | .paramUpdate key valueJson =>
      match codec.parseJson valueJson with
      | .ok value => .paramUpdate key value
      | .error err => .error s!"failed to deserialize ParamUpdate value for `{key}`: {err}"
    | .paramDeleted key => .paramDeleted key
    | .nodeFailed affectedInputIds error sourceNodeId =>
      .nodeFailed affectedInputIds error sourceNodeId
    | .extensionDropped .. => .error "unrecognized node event"
  | .zenohInput id metadata data => .input id ⟨stripInternalParameters metadata.parameters⟩ data
  | .fatalError report => .error s!"fatal event stream error: {report}"
  | .timeoutError report => .error s!"Timeout event stream error: {report}"

namespace Event

def isStop : Event ArrayData Json → Bool
  | .stop _ => true
  | _ => false

def isInput : Event ArrayData Json → Bool
  | .input .. => true
  | _ => false

def isError : Event ArrayData Json → Bool
  | .error _ => true
  | _ => false

def isCorrelated : Event ArrayData Json → Bool
  | .input _ metadata _ => carriesPatternCorrelation metadata.parameters
  | _ => false

end Event

inductive Correlation where
  | serviceResponse (requestId : String)
  | actionResult (goalId : String)

def Correlation.isMatch : Correlation → Event ArrayData Json → Bool
  | .serviceResponse requestId, .input _ metadata _ =>
    getStringParam metadata.parameters REQUEST_ID == some requestId
  | .actionResult goalId, .input _ metadata _ =>
    getStringParam metadata.parameters GOAL_ID == some goalId &&
      match getStringParam metadata.parameters GOAL_STATUS with
      | some status => status == GOAL_STATUS_SUCCEEDED || status == GOAL_STATUS_ABORTED ||
          status == GOAL_STATUS_CANCELED
      | none => false
  | _, _ => false

inductive CorrelationOutcome where
  | «match»
  | serverRestarted
  | streamEnded
  | streamError
  | passthrough
deriving DecidableEq

def classifyCorrelationEvent (event : Event ArrayData Json) (expectedServer : NodeId)
    (isMatch : Event ArrayData Json → Bool) : CorrelationOutcome :=
  if isMatch event then .match
  else
    match event with
    | .nodeRestarted id => if id = expectedServer then .serverRestarted else .passthrough
    | .stop _ => .streamEnded
    | .error _ => .streamError
    | _ => .passthrough

def NON_INPUT_EVENT_QUEUE_SIZE : Nat := 1000

/-- An event that has been taken out of the scheduler is kept as the item it was converted from;
what the source asks about the event is asked about the converted item. -/
structure EventStream (ArrayData : Type) where
  receiver : List (EventItem ArrayData) := []
  /-- All senders of the channel are gone. -/
  closed : Bool := false
  scheduler : Scheduler ArrayData
  pendingPassthrough : List (EventItem ArrayData) := []
  stopReceived : Bool := false
  schedulerMaybeNonempty : Bool := false
  useScheduler : Bool := true

inductive Poll (α : Type) where
  | ready (a : α)
  | pending

namespace EventStream

def arrive (self : EventStream ArrayData) (items : List (EventItem ArrayData)) :
    EventStream ArrayData :=
  { self with receiver := self.receiver ++ items }

def addEvent (self : EventStream ArrayData) (item : EventItem ArrayData) : EventStream ArrayData :=
  { self with scheduler := self.scheduler.addEvent item, schedulerMaybeNonempty := true }

/-- The stop-tracking half of `note_produced_event`. -/
def noteProducedEvent (self : EventStream ArrayData) (item : EventItem ArrayData) :
    EventStream ArrayData :=
  { self with stopReceived := self.stopReceived || (convertEventItem codec item).isStop }

/-- The loop of `pop_scheduled`; `fuel` bounds the control events it discards. -/
def popFrom (inputsOnly : Bool) :
    Nat → EventStream ArrayData → EventStream ArrayData × Option (EventItem ArrayData)
  | 0, self => (self, none)
  | fuel + 1, self =>
    match self.scheduler.next with
    | (none, scheduler) => ({ self with scheduler }, none)
    | (some item, scheduler) =>
      let self := { self with scheduler }
      if inputsOnly && !item.isInput then popFrom inputsOnly fuel self
      else (self.noteProducedEvent codec item, some item)

/-- Control events wait in one queue, which `next` serves first: its length bounds the discards. -/
def popScheduled (self : EventStream ArrayData) (inputsOnly : Bool) :
    EventStream ArrayData × Option (EventItem ArrayData) :=
  if !self.useScheduler then (self, none)
  else popFrom codec inputsOnly ((self.scheduler.queueOf NON_INPUT_EVENT_ID).length + 1) self

/-- The blocking loop of `recv_from_stream`: receive while the scheduler is empty. The second
component tells that the call is suspended, waiting for the receiver. -/
def fillScheduler (self : EventStream ArrayData) :
    List (EventItem ArrayData) → EventStream ArrayData × Bool
  | [] => ({ self with receiver := [] }, self.scheduler.isEmpty && !self.closed)
  | item :: rest =>
    if self.scheduler.isEmpty then (self.addEvent item).fillScheduler rest
    else ({ self with receiver := item :: rest }, false)

def drainReceiver (self : EventStream ArrayData) : EventStream ArrayData :=
  self.receiver.foldl addEvent { self with receiver := [] }

/-- One poll of `recv_from_stream`. -/
def recvFromStream (self : EventStream ArrayData) :
    EventStream ArrayData × Poll (Option (EventItem ArrayData)) :=
  if self.stopReceived then
    let popped := self.popScheduled codec true
    (popped.1, .ready popped.2)
  else if !self.useScheduler then
    match self.receiver with
    | item :: rest => ({ self with receiver := rest }.noteProducedEvent codec item, .ready (some item))
    | [] => (self, if self.closed then .ready none else .pending)
  else
    match self.fillScheduler self.receiver with
    | (filled, true) => (filled, .pending)
    | (filled, false) =>
      let filled := filled.drainReceiver
      match filled.scheduler.next with
      | (none, scheduler) => ({ filled with scheduler }, .ready none)
      | (some item, scheduler) =>
        ({ filled with scheduler }.noteProducedEvent codec item, .ready (some item))

/-- One poll of `recv_async`. -/
def recvAsync (self : EventStream ArrayData) :
    EventStream ArrayData × Poll (Option (EventItem ArrayData)) :=
  match self.pendingPassthrough with
  | item :: rest => ({ self with pendingPassthrough := rest }, .ready (some item))
  | [] => self.recvFromStream codec

inductive TryRecvError where
  | empty
  | closed
deriving DecidableEq

def tryRecv (self : EventStream ArrayData) :
    EventStream ArrayData × Except TryRecvError (EventItem ArrayData) :=
  match self.recvAsync codec with
  | (self, .ready (some item)) => (self, .ok item)
  | (self, .ready none) => (self, .error .closed)
  | (self, .pending) => (self, .error .empty)

/-- The loop of `drain`, with the events that arrive before each round; the events it collected. -/
def drainLoop (self : EventStream ArrayData) :
    List (List (EventItem ArrayData)) →
      EventStream ArrayData × List (EventItem ArrayData) × Option TryRecvError
  | [] => (self, [], none)
  | arriving :: rounds =>
    match (self.arrive arriving).tryRecv codec with
    | (self, .ok item) =>
      let rest := self.drainLoop rounds
      (rest.1, item :: rest.2.1, rest.2.2)
    | (self, .error err) => (self.arrive rounds.flatten, [], some err)

def drain (self : EventStream ArrayData) (rounds : List (List (EventItem ArrayData))) :
    EventStream ArrayData × Option (List (EventItem ArrayData)) :=
  match self.drainLoop codec rounds with
  | (self, [], some .closed) => (self, none)
  | (self, events, _) => (self, some events)

/-- `Stream::poll_next`. -/
def pollNext (self : EventStream ArrayData) :
    EventStream ArrayData × Poll (Option (EventItem ArrayData)) :=
  match self.pendingPassthrough with
  | item :: rest => ({ self with pendingPassthrough := rest }, .ready (some item))
  | [] =>
    if self.stopReceived then
      let popped := self.popScheduled codec true
      (popped.1, .ready popped.2)
    else
      let popped :=
        if self.schedulerMaybeNonempty then self.popScheduled codec false else (self, none)
      match popped with
      | (self, some item) => (self, .ready (some item))
      | (self, none) =>
        let self := { self with schedulerMaybeNonempty := false }
        match self.receiver with
        | item :: rest =>
          ({ self with receiver := rest }.noteProducedEvent codec item, .ready (some item))
        | [] => (self, if self.closed then .ready none else .pending)

inductive PassthroughBucket where
  | input (id : DataId)
  | nonInput

def PassthroughBucket.holds : PassthroughBucket → Event ArrayData Json → Bool
  | .input id, .input eid _ _ => eid == id
  | .input _, _ => false
  | .nonInput, event => !event.isInput

def PassthroughBucket.dropId : PassthroughBucket → DataId
  | .input id => id
  | .nonInput => NON_INPUT_EVENT_ID

/-- The position of the event to sacrifice: the oldest ordinary one, else the oldest correlated
one; a `Stop` is never chosen. -/
def evictAt (bucket : PassthroughBucket) (pending : List (EventItem ArrayData)) : Option Nat :=
  let droppable (item : EventItem ArrayData) : Bool :=
    bucket.holds (convertEventItem codec item) && !(convertEventItem codec item).isStop
  (pending.findIdx? fun item => droppable item && !(convertEventItem codec item).isCorrelated).or
    (pending.findIdx? droppable)

def enforcePassthroughBound (self : EventStream ArrayData) (bucket : PassthroughBucket)
    (cap : Nat) : EventStream ArrayData :=
  if self.pendingPassthrough.countP (fun item => bucket.holds (convertEventItem codec item)) ≤ cap
  then self
  else
    match evictAt codec bucket self.pendingPassthrough with
    | none => self
    | some idx =>
      { self with
        pendingPassthrough := self.pendingPassthrough.eraseIdx idx
        scheduler := self.scheduler.countDrop bucket.dropId }

def bufferPassthrough (self : EventStream ArrayData) (item : EventItem ArrayData) :
    EventStream ArrayData :=
  let pushed := { self with pendingPassthrough := self.pendingPassthrough ++ [item] }
  match convertEventItem codec item with
  | .input id _ _ => pushed.enforcePassthroughBound codec (.input id) (self.scheduler.effectiveCapFor id)
  | _ => pushed.enforcePassthroughBound codec .nonInput NON_INPUT_EVENT_QUEUE_SIZE

inductive PatternError (ArrayData : Type) where
  | timeout
  | serverRestarted (server : NodeId)
  | streamEnded
  /-- The error is the text of this event. -/
  | streamError (item : EventItem ArrayData)

structure WaitRound (ArrayData : Type) where
  arriving : List (EventItem ArrayData)
  expired : Bool

/-- The loop of `wait_for_correlation`; `none` means that the wait is suspended. -/
def waitLoop (awaited : Correlation) (expectedServer : NodeId) (self : EventStream ArrayData) :
    List (WaitRound ArrayData) →
      EventStream ArrayData × Option (Except (PatternError ArrayData) (EventItem ArrayData))
  | [] => (self, none)
  | round :: rounds =>
    let later := rounds.flatMap WaitRound.arriving
    if round.expired then
      ((self.arrive round.arriving).arrive later, some (.error .timeout))
    else
      match (self.arrive round.arriving).recvFromStream codec with
      | (self, .pending) => waitLoop awaited expectedServer self rounds
      | (self, .ready none) => (self.arrive later, some (.error .streamEnded))
      | (self, .ready (some item)) =>
        match classifyCorrelationEvent (convertEventItem codec item) expectedServer
          awaited.isMatch with
        | .match => (self.arrive later, some (.ok item))
        | .serverRestarted =>
          ((self.bufferPassthrough codec item).arrive later,
            some (.error (.serverRestarted expectedServer)))
        | .streamEnded =>
          ((self.bufferPassthrough codec item).arrive later, some (.error .streamEnded))
        | .streamError => (self.arrive later, some (.error (.streamError item)))
        | .passthrough =>
          waitLoop awaited expectedServer (self.bufferPassthrough codec item) rounds

/-- `recv_service_response` and `recv_action_result`. The first poll looks through the parked events
before it enters the loop; `first` is `false` when a suspended wait goes on. -/
def waitForCorrelation (self : EventStream ArrayData) (awaited : Correlation)
    (expectedServer : NodeId) (first : Bool) (rounds : List (WaitRound ArrayData)) :
    EventStream ArrayData × Option (Except (PatternError ArrayData) (EventItem ArrayData)) :=
  let found :=
    if first then
      self.pendingPassthrough.findIdx? fun item => awaited.isMatch (convertEventItem codec item)
    else none
  match found.bind fun pos => (self.pendingPassthrough[pos]?).map fun item => (pos, item) with
  | some (pos, item) =>
    ({ self with pendingPassthrough := self.pendingPassthrough.eraseIdx pos }.arrive
      (rounds.flatMap WaitRound.arriving), some (.ok item))
  | none => self.waitLoop codec awaited expectedServer rounds

end EventStream

end Dora
