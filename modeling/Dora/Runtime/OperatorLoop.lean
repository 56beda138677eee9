import Dora.Lib.Machine
import Dora.Lib.Text

/-!
# The main loop of an operator runtime (`binaries/runtime-api/src/lib.rs`)

The runtime of one operator reads a merged stream of the operator's events and of the daemon's, sends the
operator's outputs and forwards inputs to its channel. What it reads while an output is being sent waits
in `pending`, except for a `Stop`, which is forwarded at once and closes the channel.
-/

namespace Dora.OperatorLoop

open Lib

variable {ο δ : Type}

/-- What the merged stream yields; an operator that fails ends the runtime with an error and has no event
here. -/
inductive RuntimeEvent (ο δ : Type) where
  | output (out : ο)
  | finished
  | stop
  | reload (operatorId : Option String)
  | input (id : String) (data : δ)
  | inputClosed (id : String)
deriving DecidableEq

inductive NodeCall (ο : Type) where
  | sendOutput (out : ο)
  | closeOutputs
deriving DecidableEq

inductive Effect (ο δ : Type) where
  | putInput (inputId : String) (data : δ)
  | putInputClosed (inputId : String)
  | putReload
  | putStop
  | node (call : NodeCall ο)

structure State (ο δ : Type) where
  pending : List (RuntimeEvent ο δ) := []
  /-- An output is being sent. -/
  sending : Bool := false
  /-- `Stop`, or the end of the stream, was seen during this send. -/
  stopSeen : Bool := false
  /-- The operator's inputs that are open, until its channel is closed. -/
  channel : Option (List String)
  /-- The operator still has the receiving side of its channel. -/
  receiving : Bool := true
  ended : Bool := false

inductive Label (ο δ : Type) where
  /-- The stream has an event. -/
  | yield (event : RuntimeEvent ο δ)
  | streamEnd
  /-- The send that is under way has finished. -/
  | sendDone
  /-- The operator drops the receiving side of its channel, which it does before `Finished` is reported. -/
  | receiverDropped
  /-- The loop goes on with what is pending. -/
  | resume

def MAX_BUFFERED : Nat := 4

/-- The input of the operator that an id `operator/input` names. -/
def inputOf (operatorId id : String) : Option String :=
  match splitOnce '/' id with
  | some (operator, input) => if operator = operatorId then some input else none
  | none => none

variable (operatorId : String)

def forward (inputs : List String) : RuntimeEvent ο δ → Option (List String) × List (Effect ο δ)
  | .finished => (none, [])
  | .stop => (none, [.putStop])
  | .reload (some id) => (some inputs, if id = operatorId then [.putReload] else [])
  | .input id data =>
    match inputOf operatorId id with
    | some inputId => (some inputs, [.putInput inputId data])
    | none => (some inputs, [])
  | .inputClosed id =>
    match inputOf operatorId id with
    | some inputId =>
      let rest := inputs.filter (· ≠ inputId)
      (if rest.isEmpty then none else some rest, [.putInputClosed inputId])
    | none => (some inputs, [])
  | .output _ | .reload none => (some inputs, [])

def forwardTo (channel : Option (List String)) (event : RuntimeEvent ο δ) :
    Option (List String) × List (Effect ο δ) :=
  match channel with
  | some inputs => forward operatorId inputs event
  | none => (none, [])

/-- A send into a channel without a receiver is logged, and the event is gone. -/
def State.put (s : State ο δ) (effects : List (Effect ο δ)) : List (Effect ο δ) :=
  if s.receiving then effects else []

def handle (s : State ο δ) (event : RuntimeEvent ο δ) : State ο δ × List (Effect ο δ) :=
  let next := forwardTo operatorId s.channel event
  match event with
  | .output out => ({ s with sending := true, stopSeen := false }, [.node (.sendOutput out)])
  | .finished => ({ s with channel := next.1, ended := true }, [.node .closeOutputs])
  | _ => ({ s with channel := next.1 }, s.put next.2)

/-- The loop, or `await_send_watching_for_stop`, reads the stream now. -/
def State.reads (s : State ο δ) : Bool :=
  !s.ended && if s.sending then !s.stopSeen && s.pending.length < MAX_BUFFERED else s.pending.isEmpty

/-- A `Stop` is forwarded at once, everything else waits for the end of the send. -/
def readWhileSending (s : State ο δ) : RuntimeEvent ο δ → State ο δ × List (Effect ο δ)
  | .stop =>
    let next := forwardTo operatorId s.channel .stop
    ({ s with channel := next.1, stopSeen := true }, s.put next.2)
  | event => ({ s with pending := s.pending ++ [event] }, [])

def step (s : State ο δ) : Label ο δ → State ο δ × List (Effect ο δ)
  | .yield event =>
    if s.reads then
      if s.sending then readWhileSending operatorId s event else handle operatorId s event
    else (s, [])
  | .streamEnd =>
    if s.reads then
      ({ s with stopSeen := true, ended := !s.sending }, [])
    else (s, [])
  | .sendDone => ({ s with sending := false }, [])
  | .receiverDropped => ({ s with receiving := false }, [])
  | .resume =>
    match s.pending with
    | event :: rest =>
      if s.ended || s.sending then (s, []) else handle operatorId { s with pending := rest } event
    | [] => (s, [])

def read (s : State ο δ) : Label ο δ → List (RuntimeEvent ο δ)
  | .yield event => if s.reads then [event] else []
  | _ => []

def RuntimeEvent.call? : RuntimeEvent ο δ → Option (NodeCall ο)
  | .output out => some (.sendOutput out)
  | .finished => some .closeOutputs
  | _ => none

def Effect.call? : Effect ο δ → Option (NodeCall ο)
  | .node call => some call
  | _ => none

def Effect.input? : Effect ο δ → Option (String × δ)
  | .putInput inputId data => some (inputId, data)
  | _ => none

/-- The inputs among the events that come while the operator's channel is open, and the channel after
all of them. -/
def due : Option (List String) → List (RuntimeEvent ο δ) → List (String × δ) × Option (List String)
  | channel, [] => ([], channel)
  | channel, event :: events =>
    let next := forwardTo operatorId channel event
    let rest := due next.1 events
    (next.2.filterMap Effect.input? ++ rest.1, rest.2)

/-- A `Stop` that comes during a send finds no input for the operator among what is pending. -/
def StopFindsNoInput (s : State ο δ) : Label ο δ → Prop
  | .yield .stop => s.sending → s.reads → (due operatorId s.channel s.pending).1 = []
  | _ => True

theorem due_append (channel : Option (List String)) (events more : List (RuntimeEvent ο δ)) :
    due operatorId channel (events ++ more) =
      ((due operatorId channel events).1 ++ (due operatorId (due operatorId channel events).2 more).1,
        (due operatorId (due operatorId channel events).2 more).2) := by
  induction events generalizing channel with
  | nil => rfl
  | cons event events ih => simp only [List.cons_append, due, ih, List.append_assoc]

theorem due_none (events : List (RuntimeEvent ο δ)) : due operatorId none events = ([], none) := by
  induction events with
  | nil => rfl
  | cons event events ih => simp only [due, forwardTo, ih, List.filterMap_nil, List.append_nil]

theorem forwardTo_stop (channel : Option (List String)) :
    (forwardTo operatorId channel (.stop : RuntimeEvent ο δ)).1 = none ∧
      (forwardTo operatorId channel (.stop : RuntimeEvent ο δ)).2.filterMap Effect.input? = [] := by
  cases channel <;> exact ⟨rfl, rfl⟩

theorem forwardTo_calls (channel : Option (List String)) (event : RuntimeEvent ο δ) :
    (forwardTo operatorId channel event).2.filterMap Effect.call? = [] := by
  cases channel with
  | none => rfl
  | some inputs =>
    cases event with
    | output | finished | stop => rfl
    | reload id =>
      cases id with
      | none => rfl
      | some id =>
        simp only [forwardTo, forward]
        split <;> rfl
    | input id data | inputClosed id =>
      simp only [forwardTo, forward]
      split <;> rfl

theorem handle_pending (s : State ο δ) (event : RuntimeEvent ο δ) :
    (handle operatorId s event).1.pending = s.pending := by
  cases event <;> rfl

theorem put_calls (s : State ο δ) (event : RuntimeEvent ο δ) :
    (s.put (forwardTo operatorId s.channel event).2).filterMap Effect.call? = [] := by
  unfold State.put
  split
  · exact forwardTo_calls operatorId s.channel event
  · rfl

theorem handle_calls (s : State ο δ) (event : RuntimeEvent ο δ) :
    (handle operatorId s event).2.filterMap Effect.call? = event.call?.toList := by
  cases event with
  | output out | finished => rfl
  | stop | reload | input | inputClosed => exact put_calls operatorId s _

theorem handle_channel (s : State ο δ) (event : RuntimeEvent ο δ) :
    (handle operatorId s event).1.channel = (forwardTo operatorId s.channel event).1 := by
  cases event with
  | output out => simp only [handle]; cases s.channel <;> rfl
  | finished | stop | reload | input | inputClosed => rfl

theorem handle_receiving (s : State ο δ) (event : RuntimeEvent ο δ) :
    (handle operatorId s event).1.receiving = s.receiving := by
  cases event <;> rfl

theorem handle_inputs (s : State ο δ) (event : RuntimeEvent ο δ) (h : s.receiving = true) :
    (handle operatorId s event).2.filterMap Effect.input? =
      (forwardTo operatorId s.channel event).2.filterMap Effect.input? := by
  cases event with
  | output out | finished => cases hc : s.channel <;> simp [handle, forwardTo, forward, Effect.input?]
  | stop | reload | input | inputClosed => exact congrArg _ (if_pos h)

theorem handle_endsAtEnd (s : State ο δ) (event : RuntimeEvent ο δ) (hs : s.ended = false)
    (h : (handle operatorId s event).1.ended) :
    (handle operatorId s event).1.channel = none ∧
      NodeCall.closeOutputs ∈ (handle operatorId s event).2.filterMap Effect.call? := by
  rw [handle_channel, handle_calls]
  cases event with
  | finished => exact ⟨by cases s.channel <;> rfl, List.mem_singleton_self _⟩
  | output | stop | reload | input | inputClosed => simp [handle, hs] at h

/-- The calls made on the node, then those still pending, are the ones the operator's events ask for. -/
def CallsKept (events : List (RuntimeEvent ο δ)) (effects : List (Effect ο δ)) (s : State ο δ) : Prop :=
  effects.filterMap Effect.call? ++ s.pending.filterMap RuntimeEvent.call? =
    events.filterMap RuntimeEvent.call?

/-- As long as the operator receives, the inputs put into the channel, then those still pending, are the
ones that are due. -/
def InputsKept (inputs : List String) (events : List (RuntimeEvent ο δ)) (effects : List (Effect ο δ))
    (s : State ο δ) : Prop :=
  s.receiving = true → effects.filterMap Effect.input? ++ (due operatorId s.channel s.pending).1 =
      (due operatorId (some inputs) events).1 ∧
    (due operatorId s.channel s.pending).2 = (due operatorId (some inputs) events).2

/-- The loop ends with the end of the stream and nothing pending, or when the operator has finished. -/
def EndsAtEnd (effects : List (Effect ο δ)) (s : State ο δ) : Prop :=
  s.ended → s.pending = [] ∨ s.channel = none ∧ NodeCall.closeOutputs ∈ effects.filterMap Effect.call?

variable {operatorId} {inputs : List String} {s : State ο δ} {events : List (RuntimeEvent ο δ)}
  {effects : List (Effect ο δ)} {event : RuntimeEvent ο δ} {rest : List (RuntimeEvent ο δ)}

theorem CallsKept.buffer (h : CallsKept events effects s) :
    CallsKept (events ++ [event]) effects { s with pending := s.pending ++ [event] } := by
  unfold CallsKept at h ⊢
  rw [List.filterMap_append, List.filterMap_append, ← h, List.append_assoc]

theorem CallsKept.handle (hp : s.pending = event :: rest) (h : CallsKept events effects s) :
    CallsKept events (effects ++ (handle operatorId { s with pending := rest } event).2)
      (handle operatorId { s with pending := rest } event).1 := by
  unfold CallsKept at h ⊢
  rw [List.filterMap_append, handle_calls, handle_pending, ← h, List.append_assoc, hp]
  cases hc : event.call? <;> simp [hc]

theorem InputsKept.buffer (h : InputsKept operatorId inputs events effects s) :
    InputsKept operatorId inputs (events ++ [event]) effects
      { s with pending := s.pending ++ [event] } := by
  intro hreceiving
  rw [due_append, due_append, ← (h hreceiving).1, ← (h hreceiving).2, List.append_assoc]
  exact ⟨rfl, rfl⟩

theorem InputsKept.handle (hp : s.pending = event :: rest)
    (h : InputsKept operatorId inputs events effects s) :
    InputsKept operatorId inputs events
      (effects ++ (handle operatorId { s with pending := rest } event).2)
      (handle operatorId { s with pending := rest } event).1 := by
  intro hreceiving
  rw [handle_receiving] at hreceiving
  rw [List.filterMap_append, handle_inputs _ _ _ hreceiving, handle_pending, handle_channel,
    ← (h hreceiving).1, ← (h hreceiving).2, List.append_assoc, hp]
  exact ⟨rfl, rfl⟩

/-- A `Stop` that overtakes nothing that is due closes the channel as it would in its turn. -/
theorem InputsKept.overtake (hdue : (due operatorId s.channel s.pending).1 = [])
    (h : InputsKept operatorId inputs events effects s) :
    InputsKept operatorId inputs (events ++ [.stop])
      (effects ++ (readWhileSending operatorId s .stop).2) (readWhileSending operatorId s .stop).1 := by
  intro hreceiving
  have hreceives : s.receiving = true := hreceiving
  have hkept := h hreceives
  rw [hdue, List.append_nil] at hkept
  simp only [readWhileSending, State.put, hreceives, if_true, due_append, due, List.filterMap_append,
    (forwardTo_stop operatorId _).1, (forwardTo_stop operatorId _).2, due_none, List.append_nil, hkept.1,
    and_self]

theorem step_keeps {P : List (RuntimeEvent ο δ) → List (Effect ο δ) → State ο δ → Prop}
    (hbuffer : ∀ {events effects s event}, P events effects s →
      P (events ++ [event]) effects { s with pending := s.pending ++ [event] })
    (hhandle : ∀ {events effects s event rest}, s.pending = event :: rest → P events effects s →
      P events (effects ++ (handle operatorId { s with pending := rest } event).2)
        (handle operatorId { s with pending := rest } event).1)
    (hframe : ∀ {events effects s} sending stopSeen receiving ended,
      (receiving = true → s.receiving = true) → P events effects s →
      P events effects { s with sending, stopSeen, receiving, ended })
    (label : Label ο δ)
    (hstop : label = .yield .stop → s.sending → s.reads → P events effects s →
      P (events ++ [.stop]) (effects ++ (readWhileSending operatorId s .stop).2)
        (readWhileSending operatorId s .stop).1)
    (h : P events effects s) :
    P (events ++ read s label) (effects ++ (step operatorId s label).2)
      (step operatorId s label).1 := by
  cases label with
  | yield event =>
    simp only [step, read]
    cases hr : s.reads
    · simpa using h
    cases hs : s.sending
    · -- the loop is idle: the event it reads is the next one
      have hp : s.pending = [] := by simp_all [State.reads]
      have hs' : { s with pending := [] } = s := by rw [← hp]
      have hqueue : s.pending ++ [event] = event :: [] := by rw [hp]; rfl
      simpa [hs'] using hhandle hqueue (hbuffer h)
    · cases event with
      | stop => exact hstop rfl hs hr h
      | output | finished | reload | input | inputClosed => simpa [readWhileSending] using hbuffer h
  | streamEnd =>
    simp only [step, read, List.append_nil]
    split
    · rw [List.append_nil]
      exact hframe s.sending _ s.receiving _ id h
    · rwa [List.append_nil]
  | sendDone =>
    simpa only [step, read, List.append_nil] using hframe false s.stopSeen s.receiving s.ended id h
  | receiverDropped =>
    simpa only [step, read, List.append_nil] using hframe s.sending s.stopSeen false s.ended nofun h
  | resume =>
    simp only [step, read, List.append_nil]
    split
    · next event rest hp =>
      split
      · rwa [List.append_nil]
      · exact hhandle hp h
    · rwa [List.append_nil]

theorem CallsKept.step (h : CallsKept events effects s) (label : Label ο δ) :
    CallsKept (events ++ read s label) (effects ++ (step operatorId s label).2)
      (step operatorId s label).1 := by
  refine step_keeps CallsKept.buffer CallsKept.handle (fun _ _ _ _ _ h => h) label (fun _ _ _ h => ?_) h
  unfold CallsKept at h ⊢
  rw [List.filterMap_append, List.filterMap_append, readWhileSending, put_calls, ← h]
  simp [RuntimeEvent.call?]

theorem InputsKept.step (h : InputsKept operatorId inputs events effects s) (label : Label ο δ)
    (hcond : StopFindsNoInput operatorId s label) :
    InputsKept operatorId inputs (events ++ read s label) (effects ++ (step operatorId s label).2)
      (step operatorId s label).1 := by
  refine step_keeps InputsKept.buffer InputsKept.handle
    (fun _ _ _ _ hkeeps h hreceiving => h (hkeeps hreceiving)) label (fun hlabel hs hr h => ?_) h
  subst hlabel
  exact h.overtake (hcond hs hr)

theorem EndsAtEnd.step (h : EndsAtEnd effects s) (label : Label ο δ) :
    EndsAtEnd (effects ++ (step operatorId s label).2) (step operatorId s label).1 := by
  have hhandle (s : State ο δ) (event : RuntimeEvent ο δ) (hs : s.ended = false) :
      EndsAtEnd (effects ++ (OperatorLoop.handle operatorId s event).2)
        (OperatorLoop.handle operatorId s event).1 := by
    intro hended
    obtain ⟨hchannel, hclose⟩ := handle_endsAtEnd operatorId s event hs hended
    exact .inr ⟨hchannel, by rw [List.filterMap_append]; exact List.mem_append_right _ hclose⟩
  cases label with
  | yield event =>
    simp only [OperatorLoop.step]
    split
    · next hr =>
      have hs : s.ended = false := by simp_all [State.reads]
      split
      · cases event <;> exact fun hended => by simp [readWhileSending, hs] at hended
      · exact hhandle s event hs
    · rwa [List.append_nil]
  | streamEnd =>
    simp only [OperatorLoop.step]
    split
    · next hr =>
      intro hended
      have hs : s.sending = false := by simpa using hended
      exact .inl (by simp_all [State.reads])
    · rwa [List.append_nil]
  | sendDone | receiverDropped => rwa [OperatorLoop.step, List.append_nil]
  | resume =>
    simp only [OperatorLoop.step]
    split
    · next event rest hp =>
      split
      · rwa [List.append_nil]
      · next hs => exact hhandle _ event (by simp_all)
    · rwa [List.append_nil]

theorem pending_le_step (h : s.pending.length ≤ MAX_BUFFERED) (label : Label ο δ) :
    (step operatorId s label).1.pending.length ≤ MAX_BUFFERED := by
  cases label with
  | yield event =>
    simp only [step]
    split
    · next hr =>
      split
      · -- the send reads on only while there is room for one more
        have hroom : s.pending.length < MAX_BUFFERED := by simp_all [State.reads]
        cases event with
        | stop => exact h
        | output | finished | reload | input | inputClosed => simpa [readWhileSending] using hroom
      · rwa [handle_pending]
    · exact h
  | streamEnd => simp only [step]; split <;> exact h
  | sendDone | receiverDropped => exact h
  | resume =>
    simp only [step]
    split
    · next event rest hp =>
      rw [hp, List.length_cons] at h
      split
      · rwa [hp]
      · rw [handle_pending]
        exact Nat.le_of_succ_le h
    · exact h

variable (operatorId inputs)

def State.init (inputs : List String) : State ο δ := { channel := some inputs }

def readBy (labels : List (Label ο δ)) : List (RuntimeEvent ο δ) :=
  collect (step operatorId) read (State.init inputs) labels

def doneBy (labels : List (Label ο δ)) : List (Effect ο δ) :=
  (run (step operatorId) (State.init inputs) labels).2.flatten

def stateBy (labels : List (Label ο δ)) : State ο δ :=
  (run (step operatorId) (State.init inputs) labels).1

theorem doneBy_concat (labels : List (Label ο δ)) (label : Label ο δ) :
    doneBy operatorId inputs (labels ++ [label]) = doneBy operatorId inputs labels ++
      (step operatorId (stateBy operatorId inputs labels) label).2 := by
  unfold doneBy
  rw [run_concat, List.flatten_concat]
  rfl

theorem run_keeps (labels : List (Label ο δ)) :
    CallsKept (readBy operatorId inputs labels) (doneBy operatorId inputs labels)
        (stateBy operatorId inputs labels) ∧
      EndsAtEnd (doneBy operatorId inputs labels) (stateBy operatorId inputs labels) ∧
      (stateBy operatorId inputs labels).pending.length ≤ MAX_BUFFERED := by
  induction labels using List.reverseRecOn with
  | nil => exact ⟨rfl, fun h => (nomatch h), Nat.zero_le _⟩
  | append_singleton labels label ih =>
    obtain ⟨hcalls, hends, hlength⟩ := ih
    rw [doneBy_concat]
    unfold readBy stateBy
    rw [collect_concat, run_concat]
    exact ⟨hcalls.step label, hends.step label, pending_le_step hlength label⟩

/-- What every run keeps in which no `Stop` overtakes an input. -/
theorem run_keeps_inputs (labels : List (Label ο δ))
    (hmeets : Meets (step operatorId) (StopFindsNoInput operatorId) (State.init inputs) labels) :
    InputsKept operatorId inputs (readBy operatorId inputs labels) (doneBy operatorId inputs labels)
      (stateBy operatorId inputs labels) := by
  induction labels using List.reverseRecOn with
  | nil => exact fun _ => ⟨rfl, rfl⟩
  | append_singleton labels label ih =>
    rw [meets_concat] at hmeets
    rw [doneBy_concat]
    unfold readBy stateBy
    rw [collect_concat, run_concat]
    exact (ih hmeets.1).step label hmeets.2

theorem eq_of_last_mem {α : Type} {calls more all : List α} {last : α} (hlast : last ∉ all)
    (h : calls ++ more <+: all ++ [last]) (hmem : last ∈ calls) : calls = all ++ [last] ∧ more = [] := by
  have hcalls : calls = all ++ [last] := by
    rcases List.prefix_concat_iff.mp ((List.prefix_append calls more).trans h) with heq | hall
    · exact heq
    · exact absurd (hall.mem hmem) hlast
  subst hcalls
  have hlength := h.length_le
  rw [List.length_append] at hlength
  exact ⟨rfl, List.eq_nil_of_length_eq_zero (by omega)⟩

/-- The operator's events lead to the calls they ask for, in order and the closing of the outputs last; no
more than `MAX_BUFFERED` events wait; and as long as the operator receives, unless a `Stop` comes during a
send while an input for the operator waits, every input that comes before the channel is to be closed is
put into it, in order and before it is closed. -/
theorem operator_events_conserved (labels : List (Label ο δ)) (outs : List ο)
    (hemitted : (readBy operatorId inputs labels).filterMap RuntimeEvent.call? <+:
      outs.map NodeCall.sendOutput ++ [.closeOutputs]) :
    let events := readBy operatorId inputs labels
    let calls := (doneBy operatorId inputs labels).filterMap Effect.call?
    let puts := (doneBy operatorId inputs labels).filterMap Effect.input?
    let s := stateBy operatorId inputs labels
    s.pending.length ≤ MAX_BUFFERED ∧
      calls ++ s.pending.filterMap RuntimeEvent.call? = events.filterMap RuntimeEvent.call? ∧
      (.closeOutputs ∈ calls → calls = outs.map NodeCall.sendOutput ++ [.closeOutputs]) ∧
      (s.ended → calls = events.filterMap RuntimeEvent.call?) ∧
      (Meets (step operatorId) (StopFindsNoInput operatorId) (State.init inputs) labels →
        s.receiving = true → puts ++ (due operatorId s.channel s.pending).1 = (due operatorId (some inputs) events).1 ∧
          (s.channel = none ∨ s.ended → puts = (due operatorId (some inputs) events).1)) := by
  obtain ⟨hcalls, hends, hlength⟩ := run_keeps operatorId inputs labels
  have hlast : NodeCall.closeOutputs ∉ outs.map NodeCall.sendOutput := by simp
  have hclose (hmem : .closeOutputs ∈ (doneBy operatorId inputs labels).filterMap Effect.call?) :=
    eq_of_last_mem hlast (by rw [hcalls]; exact hemitted) hmem
  refine ⟨hlength, hcalls, fun hmem => (hclose hmem).1, fun hended => ?_, fun hmeets hreceiving => ?_⟩
  · rw [← hcalls]
    rcases hends hended with hp | ⟨_, hmem⟩
    · rw [hp, List.filterMap_nil, List.append_nil]
    · rw [(hclose hmem).2, List.append_nil]
  · have hinputs := (run_keeps_inputs operatorId inputs labels hmeets hreceiving).1
    refine ⟨hinputs, fun hclosed => ?_⟩
    have hnone : (due operatorId (stateBy operatorId inputs labels).channel
        (stateBy operatorId inputs labels).pending).1 = [] := by
      rcases hclosed with hchannel | hended
      · rw [hchannel, due_none]
      · rcases hends hended with hp | ⟨hchannel, _⟩
        · rw [hp, due]
        · rw [hchannel, due_none]
    rw [← hinputs, hnone, List.append_nil]

/-- An input that comes while the output `1` is sent reaches the operator before the `Stop` does. -/
theorem operator_events_conserved_one_output :
    let labels : List (Label Nat Nat) := [.yield (.output 1), .yield (.input "op/image" 7), .sendDone,
      .resume, .yield .stop, .yield .finished]
    (readBy "op" ["image"] labels).filterMap RuntimeEvent.call? = [.sendOutput 1, .closeOutputs] ∧
      (doneBy "op" ["image"] labels).filterMap Effect.input? = (due "op" (some ["image"])
        (readBy "op" ["image"] labels)).1 := by
  intro labels
  have hcalls : (readBy "op" ["image"] labels).filterMap RuntimeEvent.call? =
      [.sendOutput 1, .closeOutputs] := by decide +kernel
  have hall := operator_events_conserved "op" ["image"] labels [1] (by rw [hcalls]; exact List.prefix_rfl)
  have hmeets : Meets (step "op") (StopFindsNoInput "op") (State.init ["image"]) labels :=
    ⟨trivial, trivial, trivial, trivial, nofun, trivial, trivial⟩
  exact ⟨hcalls, (hall.2.2.2.2 hmeets (by decide +kernel)).2 (.inl (by decide +kernel))⟩

/-- A `Stop` that comes during a send closes the channel before the input that waits; an operator that has
finished is not given the input that waits behind its end; and one that receives no more loses the input
that comes before its end is reported. -/
theorem pending_input_dropped :
    let sent : List (Label Nat Nat) := [.yield (.output 1), .yield (.input "op/image" 7), .yield .stop,
      .sendDone, .resume]
    let last : List (Label Nat Nat) := [.yield (.output 1), .yield .finished, .yield (.input "op/image" 7),
      .sendDone, .resume]
    let dropped : List (Label Nat Nat) := [.receiverDropped, .yield (.input "op/image" 7), .yield .finished]
    (readBy "op" ["image"] sent = [.output 1, .input "op/image" 7, .stop] ∧
        (doneBy "op" ["image"] sent).filterMap Effect.input? = [] ∧
        (stateBy "op" ["image"] sent).channel = none ∧ (stateBy "op" ["image"] sent).pending = []) ∧
      (readBy "op" ["image"] last = [.output 1, .finished, .input "op/image" 7] ∧
        (doneBy "op" ["image"] last).filterMap Effect.input? = [] ∧ (stateBy "op" ["image"] last).ended) ∧
      readBy "op" ["image"] dropped = [.input "op/image" 7, .finished] ∧
      (doneBy "op" ["image"] dropped).filterMap Effect.input? = [] := by
  decide +kernel

end Dora.OperatorLoop
