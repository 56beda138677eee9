import Dora.Message.Metadata

/-!
# Event channels (`binaries/daemon/src/event_types.rs`, tokio's bounded `mpsc`)

The daemon pushes a node's events into a bounded channel from which the node's listener takes them.
Data events stay out of the last `CONTROL_EVENT_HEADROOM` slots; a control event is only refused by a
channel that is full or whose receiving end is gone.
-/

namespace Dora

def NODE_EVENT_CHANNEL_CAPACITY : Nat := 1000

def CONTROL_EVENT_HEADROOM : Nat := 50

/-- A channel as the daemon sees it: everything put on it since it was created, how many of these the
listener has taken, and whether the receiving end has been dropped. -/
structure Channel where
  log : List NodeEvent
  taken : Nat
  closed : Bool
  taken_le : taken ≤ log.length
  fits : log.length ≤ taken + NODE_EVENT_CHANNEL_CAPACITY

namespace Channel

def fresh : Channel where
  log := []
  taken := 0
  closed := false
  taken_le := le_rfl
  fits := Nat.zero_le _

def capacity (channel : Channel) : Nat :=
  NODE_EVENT_CHANNEL_CAPACITY - (channel.log.length - channel.taken)

/-- Put `event` into a free slot. -/
def push (channel : Channel) (event : NodeEvent) (hfree : 0 < channel.capacity) : Channel where
  log := channel.log ++ [event]
  taken := channel.taken
  closed := channel.closed
  taken_le := by
    have hle := channel.taken_le
    simp only [List.length_append, List.length_singleton]
    omega
  fits := by
    unfold capacity at hfree
    simp only [List.length_append, List.length_singleton]
    omega

theorem capacity_push {channel : Channel} {event : NodeEvent} {hfree : 0 < channel.capacity} :
    (channel.push event hfree).capacity + 1 = channel.capacity := by
  have hle := channel.taken_le
  unfold capacity at hfree
  simp only [capacity, push, List.length_append, List.length_singleton]
  omega

/-- The listener takes up to `count` events. -/
def take (channel : Channel) (count : Nat) : Channel where
  log := channel.log
  taken := min channel.log.length (channel.taken + count)
  closed := channel.closed
  taken_le := Nat.min_le_left _ _
  fits := by
    have hfits := channel.fits
    omega

def dropReceiver (channel : Channel) : Channel where
  log := channel.log
  taken := channel.log.length
  closed := true
  taken_le := le_rfl
  fits := Nat.le_add_right _ _

end Channel

/-- `Ok(true)`, `Ok(false)` and `Err` of a send. -/
inductive SendResult where
  | delivered
  | dropped
  | closed
deriving DecidableEq, Repr

/-- Everything but `NodeEvent::Input`. -/
def NodeEvent.isControl : NodeEvent → Bool
  | .input _ _ _ => false
  | _ => true

namespace Channel

/-- tokio's `try_send`: a closed channel is reported before a full one. -/
def trySend (channel : Channel) (event : NodeEvent) : Channel × SendResult :=
  if channel.closed then (channel, .closed)
  else if hfree : 0 < channel.capacity then (channel.push event hfree, .delivered)
  else (channel, .dropped)

def sendWithTimestamp (channel : Channel) (event : NodeEvent) : Channel × SendResult :=
  if !event.isControl && decide (channel.capacity < CONTROL_EVENT_HEADROOM) then
    (channel, .dropped)
  else channel.trySend event

theorem sendWithTimestamp_cases (channel : Channel) (event : NodeEvent) :
    (∃ hfree : 0 < channel.capacity, channel.closed = false ∧
        channel.sendWithTimestamp event = (channel.push event hfree, .delivered)) ∨
      ∃ result ≠ SendResult.delivered, channel.sendWithTimestamp event = (channel, result) := by
  unfold sendWithTimestamp trySend
  split
  · exact .inr ⟨.dropped, by decide, rfl⟩
  · by_cases hclosed : channel.closed = true
    · rw [if_pos hclosed]
      exact .inr ⟨.closed, by decide, rfl⟩
    · rw [if_neg hclosed]
      by_cases hfree : 0 < channel.capacity
      · rw [dif_pos hfree]
        exact .inl ⟨hfree, by simpa using hclosed, rfl⟩
      · rw [dif_neg hfree]
        exact .inr ⟨.dropped, by decide, rfl⟩

theorem sendWithTimestamp_control {channel : Channel} {event : NodeEvent}
    (hcontrol : event.isControl = true) (hopen : channel.closed = false)
    (hfree : 0 < channel.capacity) :
    channel.sendWithTimestamp event = (channel.push event hfree, .delivered) := by
  simp [sendWithTimestamp, trySend, hcontrol, hopen, hfree]

theorem log_prefix_sendWithTimestamp (channel : Channel) (event : NodeEvent) :
    channel.log <+: (channel.sendWithTimestamp event).1.log := by
  rcases channel.sendWithTimestamp_cases event with ⟨hfree, -, hsend⟩ | ⟨result, -, hsend⟩
  · rw [hsend]
    exact List.prefix_append _ _
  · rw [hsend]

theorem sendWithTimestamp_full {channel : Channel} (hfull : channel.capacity = 0)
    (event : NodeEvent) : (channel.sendWithTimestamp event).1 = channel := by
  rcases channel.sendWithTimestamp_cases event with ⟨hfree, -, -⟩ | ⟨result, -, hsend⟩
  · omega
  · rw [hsend]

@[simp] theorem sendWithTimestamp_closed (channel : Channel) (event : NodeEvent) :
    (channel.sendWithTimestamp event).1.closed = channel.closed := by
  rcases channel.sendWithTimestamp_cases event with ⟨hfree, -, hsend⟩ | ⟨result, -, hsend⟩
  · rw [hsend]
    rfl
  · rw [hsend]

theorem capacity_sendWithTimestamp (channel : Channel) (event : NodeEvent) :
    channel.capacity ≤ (channel.sendWithTimestamp event).1.capacity + 1 := by
  rcases channel.sendWithTimestamp_cases event with ⟨hfree, -, hsend⟩ | ⟨result, -, hsend⟩
  · rw [hsend, capacity_push]
  · rw [hsend]
    exact Nat.le_succ _

end Channel

end Dora
