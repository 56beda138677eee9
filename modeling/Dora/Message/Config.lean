import Dora.Message.Id

/-!
# Input configuration (`libraries/message/src/config.rs`)

What an input subscribes to and how its queue overflows.
-/

namespace Dora

/-- Largest value of the 64-bit `usize` at which `saturating_mul` stops. -/
def USIZE_MAX : Nat := 2 ^ 64 - 1

def DEFAULT_QUEUE_SIZE : Nat := 10

inductive QueuePolicy where
  | dropOldest
  | backpressure
deriving DecidableEq, Repr

/-- `#[default]` of the source. -/
instance : Inhabited QueuePolicy := ⟨.dropOldest⟩

def QueuePolicy.effectiveCap : QueuePolicy → Nat → Nat
  | .dropOldest, queueSize => max queueSize 1
  | .backpressure, queueSize => max (min (queueSize * 10) USIZE_MAX) 100

theorem QueuePolicy.effectiveCap_pos (policy : QueuePolicy) (queueSize : Nat) :
    0 < policy.effectiveCap queueSize := by
  cases policy <;> simp only [QueuePolicy.effectiveCap] <;> omega

inductive LogLevel where
  | error
  | warn
  | info
  | debug
  | trace
deriving DecidableEq, Repr

/-- Position in `Error < Warn < Info < Debug < Trace`. -/
def LogLevel.rank : LogLevel → Nat
  | .error => 1
  | .warn => 2
  | .info => 3
  | .debug => 4
  | .trace => 5

inductive LogLevelOrStdout where
  | stdout
  | logLevel (level : LogLevel)
deriving DecidableEq, Repr

/-- Whether a message at this level passes the minimum level `min`. -/
def LogLevelOrStdout.passes : LogLevelOrStdout → LogLevelOrStdout → Bool
  | .stdout, .stdout => true
  | .stdout, _ => false
  | .logLevel _, .stdout => true
  | .logLevel msg, .logLevel max => msg.rank ≤ max.rank

structure LogSubscriptionFilter where
  minLevel : Option LogLevelOrStdout
  nodeFilter : Option NodeId
deriving DecidableEq, Repr

abbrev Duration := Nat

structure UserInputMapping where
  source : NodeId
  output : DataId
deriving DecidableEq, Repr

inductive InputMapping where
  | timer (interval : Duration)
  | logs (filter : LogSubscriptionFilter)
  | user (mapping : UserInputMapping)
deriving DecidableEq, Repr

structure Input where
  mapping : InputMapping
  queueSize : Option Nat
  inputTimeout : Option Duration
  queuePolicy : Option QueuePolicy
deriving DecidableEq, Repr

end Dora
