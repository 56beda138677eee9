import Dora.Lib.Machine
import Dora.Daemon.RunningDataflow

/-!
# The restart loop of a node (`binaries/daemon/src/spawn/prepared.rs`)

A task beside the daemon's loop waits for the exit of a registered node's process and starts the next one,
unless the policy, the limits or `disable_restart` forbid it. A step is one access to what the two share, so
a list of steps is an interleaving; the backoff may take any time.
-/

namespace Dora

inductive NodeExitStatus where
  | success
  | ioError (err : String)
  | exitCode (code : Int)
  | signal (signal : Int)
  | unknown

def NodeExitStatus.isSuccess : NodeExitStatus → Bool
  | .success => true
  | _ => false

/-- The limit 0 is no limit. -/
structure RestartConfig where
  restartPolicy : RestartPolicy
  maxRestarts : Nat
  restartWindow : Option Duration

inductive RestartLoop.Phase where
  | awaiting
  | exited (exitStatus : NodeExitStatus)
  /-- The force flag has been taken; `restart` is what it or the policy asks for. -/
  | decided (exitStatus : NodeExitStatus) (restart : Bool)
  | backoff (exitStatus : NodeExitStatus)
  /-- The last check of `disable_restart` is passed. -/
  | spawning (exitStatus : NodeExitStatus)
  /-- The finished signal was dropped, and the loop has ended without a word. -/
  | lost
  | ended

structure RestartLoop where
  config : RestartConfig
  generation : Nat
  now : Nat
  phase : RestartLoop.Phase := .awaiting
  disableRestart : Bool := false
  forceRestartNext : Bool := false
  windowStart : Nat := now
  windowCount : Nat := 0
  restartCount : Nat := 0

inductive RestartLoop.Event where
  | spawnedNodeResult (generation : Nat) (exitStatus : NodeExitStatus) (restart : Bool) (restartCount : Nat)
  | processHandleReplaced (previousGeneration newGeneration : Nat)

inductive RestartLoop.Op where
  | elapse (time : Duration)
  | finished (signal : Option NodeExitStatus)
  /-- The loop goes on; `spawned` is the generation of the process it starts, `none` if that fails. -/
  | advance (spawned : Option Nat)
  /-- Stored by `disable_restart`, and `false` by `restart_single_node`. -/
  | setDisableRestart (disabled : Bool)
  | forceRestart

namespace RestartLoop

abbrev Sent := Option Event

def countRestart (s : RestartLoop) : RestartLoop :=
  if s.config.restartWindow.any (· < s.now - s.windowStart) then
    { s with windowCount := 1, windowStart := s.now }
  else { s with windowCount := s.windowCount + 1 }

/-- Also `send_terminal_exit`. -/
def announce (s : RestartLoop) (exitStatus : NodeExitStatus) (restart : Bool) : RestartLoop × Sent :=
  ({ s with phase := if restart then .backoff exitStatus else .ended },
    some (.spawnedNodeResult s.generation exitStatus restart s.restartCount))

def advance (s : RestartLoop) (spawned : Option Nat) : RestartLoop × Sent :=
  match s.phase with
  | .awaiting | .lost | .ended => (s, none)
  | .exited exitStatus =>
    let asked := match s.config.restartPolicy with
      | .always => true
      | .onFailure => !exitStatus.isSuccess
      | .never => false
    ({ s with forceRestartNext := false, phase := .decided exitStatus (s.forceRestartNext || asked) }, none)
  | .decided exitStatus restart =>
    if restart && !s.disableRestart then
      let counted := s.countRestart
      counted.announce exitStatus (s.config.maxRestarts = 0 || counted.windowCount ≤ s.config.maxRestarts)
    else s.announce exitStatus false
  | .backoff exitStatus =>
    if s.disableRestart then s.announce exitStatus false
    else ({ s with restartCount := s.restartCount + 1, phase := .spawning exitStatus }, none)
  | .spawning exitStatus =>
    match spawned with
    | some newGeneration =>
      ({ s with generation := newGeneration, phase := .awaiting },
        some (.processHandleReplaced s.generation newGeneration))
    | none => s.announce exitStatus false

def turn (s : RestartLoop) : Op → RestartLoop × Sent
  | .elapse time => ({ s with now := s.now + time }, none)
  | .finished signal =>
    match s.phase with
    | .awaiting => ({ s with phase := signal.elim .lost .exited }, none)
    | _ => (s, none)
  | .advance spawned => s.advance spawned
  | .setDisableRestart disabled => ({ s with disableRestart := disabled }, none)
  | .forceRestart => ({ s with forceRestartNext := true }, none)

/-- Each step comes with whether the daemon's handling of the event that it sends gets through: a barrier
report or an output-closed message that cannot be sent ends the handling of a terminal exit early. -/
def step (s : RestartLoop) (op : Op × Bool) : RestartLoop × (Sent × Bool) :=
  ((s.turn op.1).1, (s.turn op.1).2, op.2)

/-- The daemon's side of the events: the generation of the node's entry (`dora_events.rs`,
`handle_node_stop_inner`, `replace_process_handle`). -/
def handleSent (entry : Option Nat) : Sent × Bool → Option Nat
  | (none, _) => entry
  | (some (.spawnedNodeResult generation _ restart _), handled) =>
    if entry = some generation ∧ restart = false ∧ handled then none else entry
  | (some (.processHandleReplaced previousGeneration newGeneration), _) =>
    if entry = some previousGeneration then some newGeneration else entry

/-- The handling of a terminal exit fails. -/
def strands : Sent × Bool → Bool
  | (some (.spawnedNodeResult _ _ restart _), handled) => !restart && !handled
  | _ => false

/-- The entry that the loop is due. -/
def entry (s : RestartLoop) (stranded : Bool) : Option Nat :=
  match s.phase with
  | .ended => if stranded then some s.generation else none
  | _ => some s.generation

def isEnded (s : RestartLoop) : Bool :=
  match s.phase with
  | .ended => true
  | _ => false

variable {s : RestartLoop}

theorem entry_of_not_ended (h : s.isEnded = false) (stranded : Bool) : s.entry stranded = some s.generation := by
  cases hphase : s.phase <;> simp_all [isEnded, entry]

theorem countRestart_generation : s.countRestart.generation = s.generation := by
  unfold countRestart
  split <;> rfl

/-- What one turn makes of the entry, of a loop that has not ended. -/
def Follows (generation : Nat) (handled : Bool) (next : RestartLoop × Sent) : Prop :=
  handleSent (some generation) (next.2, handled) = next.1.entry (strands (next.2, handled)) ∧
    (next.1.isEnded = false → strands (next.2, handled) = false)

theorem follows_announce {generation : Nat} (hgeneration : s.generation = generation)
    (exitStatus : NodeExitStatus) (restart handled : Bool) :
    Follows generation handled (s.announce exitStatus restart) := by
  cases restart <;> cases handled <;>
    simp [Follows, announce, handleSent, strands, entry, isEnded, hgeneration]

theorem follows_silent {generation : Nat} (hgeneration : s.generation = generation)
    (hended : s.isEnded = false) (handled : Bool) : Follows generation handled (s, none) :=
  ⟨by rw [entry_of_not_ended hended, hgeneration]; rfl, fun _ => rfl⟩

theorem follows_turn (hrunning : s.isEnded = false) (op : Op) (handled : Bool) :
    Follows s.generation handled (s.turn op) := by
  cases op with
  | elapse | setDisableRestart | forceRestart => exact follows_silent rfl hrunning handled
  | finished signal =>
    cases hphase : s.phase <;> simp only [turn, hphase]
    case awaiting => cases signal <;> exact follows_silent (by rfl) (by rfl) handled
    all_goals exact follows_silent rfl hrunning handled
  | advance spawned =>
    cases hphase : s.phase <;> simp only [turn, advance, hphase]
    case exited => exact follows_silent (by rfl) (by rfl) handled
    case decided =>
      split
      · exact follows_announce countRestart_generation _ _ _
      · exact follows_announce rfl _ _ _
    case backoff =>
      split
      -- the restart has been announced, so its cancellation is too
      · exact follows_announce rfl _ _ _
      · exact follows_silent (by rfl) (by rfl) handled
    case spawning =>
      cases spawned with
      | none => exact follows_announce rfl _ _ _
      | some => exact ⟨if_pos rfl, fun _ => rfl⟩
    all_goals exact follows_silent rfl hrunning handled

theorem turn_of_ended (hended : s.isEnded = true) (op : Op) :
    (s.turn op).2 = none ∧ (s.turn op).1.phase = s.phase ∧ (s.turn op).1.generation = s.generation := by
  cases hphase : s.phase <;> simp [isEnded, hphase] at hended
  cases op <;> simp [turn, advance, hphase]

end RestartLoop

end Dora
