import Dora.Lib.Machine
import Dora.Lib.Text
import Dora.Message.Id

/-!
# The life of the mirrors of a dataflow (`tensor-pool/src/daemon/{handlers,state,mirror}.rs`)

A `Register` of a peer daemon spawns a task that creates a mirror segment, enters it into the table of
cross-machine pools, and undoes both if the flag of the dataflow's subscriber then says that it is over.
The handlers of the event loop run one at a time, the tasks beside them: a spawn that fails subscribes and
aborts the subscriber in one call, with no `Register` in between.
-/

namespace Dora.MirrorLifetime

open Lib

def hasDots : List Char → Bool
  | '.' :: '.' :: _ => true
  | _ :: rest => hasDots rest
  | [] => false

def hasPathComponent (text : String) : Bool := text.toList.contains '/' || hasDots text.toList

def crossPoolShmemName (machineId dataflowId sharedMemoryId : String) : Option String :=
  match (stripStart "pool_" sharedMemoryId).bind (rsplitOnce '_') with
  | some (nodeId, counter) =>
    if hasPathComponent nodeId || hasPathComponent counter then none
    else some ("dora_pool_" ++ machineId ++ "_" ++ dataflowId ++ "_" ++ nodeId ++ "_" ++ counter)
  | none => none

/-- Whether `remove_cross_pool_shmem` and `free_shared_memory` unlink a segment of this name. -/
def unlinkable (name : String) : Bool := startsWith name "dora_pool_" && !hasPathComponent name

theorem hasDots_append (a b : List Char) : hasDots (a ++ '_' :: b) = (hasDots a || hasDots b) := by
  fun_induction hasDots a with
  | case1 | case3 => rfl
  | case2 c rest hdots ih =>
    rw [← ih, List.cons_append, hasDots]
    intro tail hc htail
    cases rest with
    | nil => cases htail
    | cons d rest =>
      cases htail
      exact hdots rest hc rfl

theorem hasPathComponent_append (a b : String) :
    hasPathComponent (a ++ "_" ++ b) = (hasPathComponent a || hasPathComponent b) := by
  have htext : (a ++ "_" ++ b).toList = a.toList ++ '_' :: b.toList := by simp
  have hslash : (a.toList ++ '_' :: b.toList).contains '/' =
      (a.toList.contains '/' || b.toList.contains '/') := by simp
  unfold hasPathComponent
  rw [htext, hslash, hasDots_append]
  cases a.toList.contains '/' <;> cases b.toList.contains '/' <;> simp

theorem unlinkable_of_crossPoolShmemName {machineId dataflowId pool name : String}
    (hmachine : hasPathComponent machineId = false) (hdataflow : hasPathComponent dataflowId = false)
    (h : crossPoolShmemName machineId dataflowId pool = some name) : unlinkable name := by
  unfold crossPoolShmemName at h
  split at h
  · split at h
    · cases h
    · next hparts =>
      cases h
      have hstart : "dora_pool_" ++ machineId = "dora_pool" ++ "_" ++ machineId := by
        rw [String.append_assoc]
        rfl
      have hpath : hasPathComponent "dora_pool" = false := by decide +kernel
      simp only [Bool.or_eq_true, not_or, Bool.not_eq_true] at hparts
      unfold unlinkable
      rw [hstart, hasPathComponent_append, hasPathComponent_append, hasPathComponent_append,
        hasPathComponent_append, hpath, hmachine, hdataflow, hparts.1, hparts.2, ← hstart]
      simp [startsWith]
  · cases h

inductive Phase where
  /-- Nothing is created yet. -/
  | spawned
  /-- A stale segment was unlinked, the new one is to be created. -/
  | replacing
  | created
  | registered
  /-- The flag was cleared: the entry is to be removed. -/
  | stale
  /-- The entry is removed: the segment is to be unlinked. -/
  | removing
deriving DecidableEq

structure Task where
  pool : String
  name : Option String
  /-- The flag of the subscriber that it was spawned under. -/
  flag : Nat
  phase : Phase
deriving DecidableEq

inductive Handler where
  | idle
  /-- `Free`: the entry is removed. -/
  | freeing (pool : String)
  /-- `cleanup_dataflow`: the flag is cleared. -/
  | cleaning
  /-- `cleanup_cross_pools`: the entries are taken out, these segments are to be unlinked. -/
  | unlinking (names : List String)
deriving DecidableEq

structure State where
  /-- The flag of the dataflow's subscriber, which is set as long as it is there. -/
  subscriber : Option Nat := none
  /-- How many subscribers there were. -/
  flags : Nat := 0
  /-- The entries of the dataflow, with the name of the mirror segment. -/
  crossPools : List (String × String) := []
  /-- The names of the mirror segments that exist. -/
  segments : List String := []
  tasks : List Task := []
  handler : Handler := .idle
deriving DecidableEq

inductive Outcome where
  /-- It is created, or exists with the right size. -/
  | created
  /-- It exists with another size and is unlinked. -/
  | replace
  | failed
deriving DecidableEq

inductive Label where
  | register (pool : String)
  | free (pool : String)
  /-- A frame of the direct data plane: it opens a segment that exists and creates none. -/
  | frame (pool : String)
  /-- `Spawn` of the dataflow, and whether it fails. -/
  | spawn (failed : Bool)
  /-- `cleanup_dataflow` starts. -/
  | finish
  /-- The handler that waits goes on. -/
  | handler
  /-- The task at the index takes its next step. -/
  | task (index : Nat) (outcome : Outcome)

variable (machineId dataflowId : String)

def unlink (name : String) (segments : List String) : List String :=
  if unlinkable name then segments.filter (· ≠ name) else segments

/-- The sender node that a pool id names; without one a `Register` is rejected. -/
def ownerOf (sharedMemoryId : String) : Option NodeId :=
  ((stripStart "pool_" sharedMemoryId).bind (rsplitOnce '_')).bind fun split =>
    (NodeId.fromStr split.1).toOption

def handleRegister (s : State) (pool : String) : State :=
  match s.subscriber with
  | none => s
  | some flag =>
    let name := crossPoolShmemName machineId dataflowId pool
    if name.isSome && (ownerOf pool).isNone then s
    else { s with tasks := s.tasks ++ [{ pool, name, flag, phase := .spawned }] }

def subscribeDataflow (s : State) : State := { s with subscriber := some s.flags, flags := s.flags + 1 }

/-- `abort_subscriber`; `cleanup_dataflow` starts with the same. -/
def abortSubscriber (s : State) : State := { s with subscriber := none }

/-- A dataflow that runs already is left alone. -/
def handleSpawn (s : State) (failed : Bool) : State :=
  if s.subscriber.isSome then s
  else if failed then abortSubscriber (subscribeDataflow s)
  else subscribeDataflow s

def handlerStep (s : State) : State :=
  match s.handler with
  | .idle => s
  | .freeing pool =>
    match crossPoolShmemName machineId dataflowId pool with
    | some name => { s with segments := unlink name s.segments, handler := .idle }
    | none => { s with handler := .idle }
  | .cleaning => { s with crossPools := [], handler := .unlinking (s.crossPools.map Prod.snd) }
  | .unlinking [] => { s with handler := .idle }
  | .unlinking (name :: names) =>
    { s with segments := unlink name s.segments, handler := .unlinking names }

def unregister (pool : String) (crossPools : List (String × String)) : List (String × String) :=
  crossPools.filter (·.1 ≠ pool)

def taskStep (s : State) (task : Task) (outcome : Outcome) : State × Option Task :=
  match task.name with
  | none => (s, none)
  | some name =>
    match task.phase, outcome with
    | .spawned, .created | .replacing, .created =>
      ({ s with segments := name :: s.segments }, some { task with phase := .created })
    | .spawned, .replace =>
      ({ s with segments := s.segments.filter (· ≠ name) }, some { task with phase := .replacing })
    | .spawned, .failed | .replacing, _ => (s, none)
    | .created, _ =>
      ({ s with crossPools := (task.pool, name) :: unregister task.pool s.crossPools },
        some { task with phase := .registered })
    | .registered, _ =>
      (s, if s.subscriber = some task.flag then none else some { task with phase := .stale })
    | .stale, _ =>
      ({ s with crossPools := unregister task.pool s.crossPools }, some { task with phase := .removing })
    | .removing, _ => ({ s with segments := unlink name s.segments }, none)

def next (s : State) : Label → State
  | .register pool => if s.handler = .idle then handleRegister machineId dataflowId s pool else s
  | .free pool =>
    if s.handler = .idle then
      { s with crossPools := unregister pool s.crossPools, handler := .freeing pool }
    else s
  | .frame _ => s
  | .spawn failed => if s.handler = .idle then handleSpawn s failed else s
  | .finish => if s.handler = .idle then { abortSubscriber s with handler := .cleaning } else s
  | .handler => handlerStep machineId dataflowId s
  | .task index outcome =>
    match s.tasks[index]? with
    | some task =>
      let stepped := taskStep s task outcome
      { stepped.1 with tasks := s.tasks.eraseIdx index ++ stepped.2.toList }
    | none => s

def step (s : State) (label : Label) : State × Unit := (next machineId dataflowId s label, ())

def Phase.holdsSegment (phase : Phase) : Prop := phase = .created ∨ phase = .stale ∨ phase = .removing

def Phase.undoes (phase : Phase) : Prop := phase = .created ∨ phase = .registered ∨ phase = .stale

def Handler.pending : Handler → List String
  | .freeing pool => (crossPoolShmemName machineId dataflowId pool).toList
  | .unlinking names => names
  | .idle | .cleaning => []

structure Inv (s : State) : Prop where
  entry_name : ∀ pool name, (pool, name) ∈ s.crossPools →
    crossPoolShmemName machineId dataflowId pool = some name
  task_name : ∀ task ∈ s.tasks, task.name = crossPoolShmemName machineId dataflowId task.pool
  pending_name : ∀ name ∈ s.handler.pending machineId dataflowId,
    ∃ pool, crossPoolShmemName machineId dataflowId pool = some name
  /-- A segment has an entry, or a task or a handler that takes care of it. -/
  segment : ∀ name ∈ s.segments, (∃ pool, (pool, name) ∈ s.crossPools) ∨
    (∃ task ∈ s.tasks, task.name = some name ∧ task.phase.holdsSegment) ∨
    name ∈ s.handler.pending machineId dataflowId
  /-- Once the table is drained, an entry has a task that removes it. -/
  entry : s.subscriber = none → s.handler ≠ .cleaning → ∀ pool name, (pool, name) ∈ s.crossPools →
    ∃ task ∈ s.tasks, task.pool = pool ∧ task.phase.undoes

variable {machineId dataflowId} {s : State}

theorem mem_unregister {pool : String} {crossPools : List (String × String)} {entry : String × String} :
    entry ∈ unregister pool crossPools ↔ entry ∈ crossPools ∧ entry.1 ≠ pool := by
  simp [unregister]

theorem mem_unlink {name other : String} {segments : List String} (h : unlinkable name) :
    other ∈ unlink name segments ↔ other ∈ segments ∧ other ≠ name := by
  simp [unlink, h]

theorem Inv.register (h : Inv machineId dataflowId s) (pool : String) :
    Inv machineId dataflowId (handleRegister machineId dataflowId s pool) := by
  unfold handleRegister
  split
  · exact h
  · next flag hsub =>
    dsimp only
    split
    · exact h
    · refine ⟨h.entry_name, ?_, h.pending_name, fun name hname => ?_, fun hover => ?_⟩
      · intro task htask
        rcases List.mem_append.mp htask with htask | htask
        · exact h.task_name task htask
        · rw [List.mem_singleton.mp htask]
      · rcases h.segment name hname with hentry | ⟨task, htask, hholds⟩ | hpending
        · exact .inl hentry
        · exact .inr (.inl ⟨task, List.mem_append_left _ htask, hholds⟩)
        · exact .inr (.inr hpending)
      · cases hover.symm.trans hsub

theorem Inv.free (h : Inv machineId dataflowId s) (hidle : s.handler = .idle) (pool : String) :
    Inv machineId dataflowId
      { s with crossPools := unregister pool s.crossPools, handler := .freeing pool } := by
  refine ⟨fun p n hp => h.entry_name p n (mem_unregister.mp hp).1, h.task_name,
    fun name hname => ⟨pool, Option.mem_toList.mp hname⟩, fun name hname => ?_,
    fun hover _ p n hp => h.entry hover (by rw [hidle]; nofun) p n (mem_unregister.mp hp).1⟩
  rcases h.segment name hname with ⟨p, hp⟩ | htask | hpending
  · by_cases heq : p = pool
    · subst heq
      exact .inr (.inr (by simp [Handler.pending, h.entry_name p name hp]))
    · exact .inl ⟨p, mem_unregister.mpr ⟨hp, heq⟩⟩
  · exact .inr (.inl htask)
  · rw [hidle] at hpending
    cases hpending

theorem Inv.spawn (h : Inv machineId dataflowId s) (failed : Bool) :
    Inv machineId dataflowId (handleSpawn s failed) := by
  unfold handleSpawn
  split
  · exact h
  · next hnone =>
    have hover : s.subscriber = none := by simpa using hnone
    split
    · -- nobody has seen the subscriber, and the entries are those of before
      exact ⟨h.entry_name, h.task_name, h.pending_name, h.segment, fun _ => h.entry hover⟩
    · exact ⟨h.entry_name, h.task_name, h.pending_name, h.segment, nofun⟩

theorem Inv.finish (h : Inv machineId dataflowId s) (hidle : s.handler = .idle) :
    Inv machineId dataflowId { abortSubscriber s with handler := .cleaning } := by
  have hsegment := h.segment
  rw [hidle] at hsegment
  exact ⟨h.entry_name, h.task_name, nofun, hsegment, fun _ hcleaning => absurd rfl hcleaning⟩

section Unlinks

-- every unlink succeeds
variable (hunlink : ∀ pool name, crossPoolShmemName machineId dataflowId pool = some name → unlinkable name)

include hunlink

theorem Inv.unlinked {name : String} {handler : Handler} (h : Inv machineId dataflowId s)
    (hpending : s.handler.pending machineId dataflowId = name :: handler.pending machineId dataflowId)
    (hcleaning : s.handler ≠ .cleaning) :
    Inv machineId dataflowId { s with segments := unlink name s.segments, handler } := by
  obtain ⟨pool, hpool⟩ := h.pending_name name (by rw [hpending]; exact List.mem_cons_self)
  refine ⟨h.entry_name, h.task_name, fun other hother => ?_, fun other hother => ?_,
    fun hover _ => h.entry hover hcleaning⟩
  · exact h.pending_name other (by rw [hpending]; exact List.mem_cons_of_mem _ hother)
  · obtain ⟨hother, hne⟩ := (mem_unlink (hunlink pool name hpool)).mp hother
    rcases h.segment other hother with hentry | htask | hwaits
    · exact .inl hentry
    · exact .inr (.inl htask)
    · rw [hpending] at hwaits
      exact .inr (.inr ((List.mem_cons.mp hwaits).resolve_left hne))

theorem Inv.handlerStep (h : Inv machineId dataflowId s) :
    Inv machineId dataflowId (handlerStep machineId dataflowId s) := by
  unfold MirrorLifetime.handlerStep
  split
  · exact h
  · next pool hhandler =>
    split
    · next name hname =>
      exact h.unlinked hunlink (by rw [hhandler, Handler.pending, hname]; rfl) (by rw [hhandler]; nofun)
    · next hname =>
      have hpending : s.handler.pending machineId dataflowId = [] := by
        rw [hhandler, Handler.pending, hname]
        rfl
      have hsegment := h.segment
      rw [hpending] at hsegment
      exact ⟨h.entry_name, h.task_name, fun _ hmem => absurd hmem List.not_mem_nil, hsegment,
        fun hover _ => h.entry hover (by rw [hhandler]; nofun)⟩
  · next hhandler =>
    -- what the entries cover, the list of names covers
    refine ⟨fun _ _ hmem => absurd hmem List.not_mem_nil, h.task_name, fun name hname => ?_,
      fun name hname => ?_, fun _ _ _ _ hmem => absurd hmem List.not_mem_nil⟩
    · obtain ⟨entry, hentry, rfl⟩ := List.mem_map.mp hname
      exact ⟨entry.1, h.entry_name entry.1 entry.2 hentry⟩
    · rcases h.segment name hname with ⟨pool, hentry⟩ | htask | hwaits
      · exact .inr (.inr (List.mem_map.mpr ⟨(pool, name), hentry, rfl⟩))
      · exact .inr (.inl htask)
      · rw [hhandler] at hwaits
        cases hwaits
  · next hhandler =>
    have hsegment := h.segment
    rw [hhandler] at hsegment
    exact ⟨h.entry_name, h.task_name, fun _ hmem => absurd hmem List.not_mem_nil, hsegment,
      fun hover _ => h.entry hover (by rw [hhandler]; nofun)⟩
  · next name names hhandler =>
    exact h.unlinked hunlink (by rw [hhandler]; rfl) (by rw [hhandler]; nofun)

end Unlinks

section TaskStep

variable {task : Task} {others : List Task} {name : String}

def Task.moved (task : Task) (phase : Option Phase) : List Task :=
  (phase.map fun phase => { task with phase }).toList

theorem Inv.ofTask {crossPools : List (String × String)} {segments : List String} (phase : Option Phase)
    (h : Inv machineId dataflowId { s with tasks := task :: others })
    (hcross : ∀ p n, (p, n) ∈ crossPools → crossPoolShmemName machineId dataflowId p = some n)
    (hsegment : ∀ n ∈ segments, (∃ p, (p, n) ∈ crossPools) ∨
      (∃ t ∈ others ++ task.moved phase, t.name = some n ∧ t.phase.holdsSegment) ∨
      n ∈ s.handler.pending machineId dataflowId)
    (hentry : s.subscriber = none → s.handler ≠ .cleaning → ∀ p n, (p, n) ∈ crossPools →
      ∃ t ∈ others ++ task.moved phase, t.pool = p ∧ t.phase.undoes) :
    Inv machineId dataflowId { s with crossPools, segments, tasks := others ++ task.moved phase } := by
  refine ⟨hcross, fun t ht => ?_, h.pending_name, hsegment, hentry⟩
  rcases List.mem_append.mp ht with ht | ht
  · exact h.task_name t (List.mem_cons_of_mem _ ht)
  · cases phase with
    | none => cases ht
    | some phase =>
      rw [List.mem_singleton.mp ht]
      exact h.task_name task List.mem_cons_self

theorem Inv.segment_others (h : Inv machineId dataflowId { s with tasks := task :: others })
    (hname : name ∈ s.segments) (hnot : task.name = some name → ¬ task.phase.holdsSegment)
    (more : List Task) :
    (∃ p, (p, name) ∈ s.crossPools) ∨ (∃ t ∈ others ++ more, t.name = some name ∧ t.phase.holdsSegment) ∨
      name ∈ s.handler.pending machineId dataflowId := by
  rcases h.segment name hname with hentry | ⟨t, ht, hholds⟩ | hpending
  · exact .inl hentry
  · rcases List.mem_cons.mp ht with rfl | ht
    · exact absurd hholds.2 (hnot hholds.1)
    · exact .inr (.inl ⟨t, List.mem_append_left _ ht, hholds⟩)
  · exact .inr (.inr hpending)

theorem Inv.entry_others (h : Inv machineId dataflowId { s with tasks := task :: others })
    (hover : s.subscriber = none) (hcleaning : s.handler ≠ .cleaning) {pool : String}
    (hentry : (pool, name) ∈ s.crossPools) (hnot : task.pool = pool → ¬ task.phase.undoes)
    (more : List Task) : ∃ t ∈ others ++ more, t.pool = pool ∧ t.phase.undoes := by
  obtain ⟨t, ht, hundoes⟩ := h.entry hover hcleaning pool name hentry
  rcases List.mem_cons.mp ht with rfl | ht
  · exact absurd hundoes.2 (hnot hundoes.1)
  · exact ⟨t, List.mem_append_left _ ht, hundoes⟩

theorem Inv.moved {segments : List String} (phase : Option Phase)
    (h : Inv machineId dataflowId { s with tasks := task :: others })
    (hsub : segments ⊆ s.segments)
    (hholds : ∀ n ∈ segments, task.name = some n → ¬ task.phase.holdsSegment)
    (hundoes : s.subscriber = none → ∀ n, (task.pool, n) ∈ s.crossPools → ¬ task.phase.undoes) :
    Inv machineId dataflowId { s with segments, tasks := others ++ task.moved phase } := by
  refine h.ofTask phase h.entry_name (fun n hn => h.segment_others (hsub hn) (hholds n hn) _) ?_
  intro hover hcleaning p n hp
  refine h.entry_others hover hcleaning hp ?_ _
  rintro rfl
  exact hundoes hover n hp

variable {pool : String} {flag : Nat} {phase : Phase}

/-- A task that only begins holds nothing and has nothing to undo. -/
def Phase.begins (phase : Phase) : Prop := phase = .spawned ∨ phase = .replacing

theorem Phase.begins.idle (h : phase.begins) : ¬ phase.holdsSegment ∧ ¬ phase.undoes := by
  rcases h with rfl | rfl <;> simp [Phase.holdsSegment, Phase.undoes]

theorem Inv.begun (phase' : Option Phase) {segments : List String} (hphase : task.phase.begins)
    (h : Inv machineId dataflowId { s with tasks := task :: others }) (hsub : segments ⊆ s.segments) :
    Inv machineId dataflowId { s with segments, tasks := others ++ task.moved phase' } :=
  h.moved phase' hsub (fun _ _ _ => hphase.idle.1) (fun _ _ _ => hphase.idle.2)

theorem Inv.created (hphase : task.phase.begins) (hname : task.name = some name)
    (h : Inv machineId dataflowId { s with tasks := task :: others }) :
    Inv machineId dataflowId { s with
      segments := name :: s.segments, tasks := others ++ [{ task with phase := .created }] } := by
  refine h.ofTask (some .created) h.entry_name ?_ ?_
  · intro n hn
    rcases List.mem_cons.mp hn with rfl | hn
    · exact .inr (.inl ⟨_, List.mem_append_right _ (List.mem_singleton_self _), hname, .inl rfl⟩)
    · exact h.segment_others hn (fun _ => hphase.idle.1) _
  · intro hover hcleaning p n hp
    exact h.entry_others hover hcleaning hp (fun _ => hphase.idle.2) _

/-- The entries of other segments are those of other pools. -/
theorem Inv.kept_unregister (h : Inv machineId dataflowId s) {p n : String}
    (hpool : crossPoolShmemName machineId dataflowId pool = some name) (hp : (p, n) ∈ s.crossPools)
    (hne : n ≠ name) : (p, n) ∈ unregister pool s.crossPools := by
  refine mem_unregister.mpr ⟨hp, ?_⟩
  rintro rfl
  exact hne (Option.some.inj ((h.entry_name p n hp).symm.trans hpool))

theorem Inv.segment_unregister (h : Inv machineId dataflowId { s with tasks := task :: others })
    (hpool : crossPoolShmemName machineId dataflowId task.pool = some name) (hname : task.name = some name)
    {n : String} (hn : n ∈ s.segments) (hne : n ≠ name) (more : List Task) :
    (∃ p, (p, n) ∈ unregister task.pool s.crossPools) ∨
      (∃ t ∈ others ++ more, t.name = some n ∧ t.phase.holdsSegment) ∨
      n ∈ s.handler.pending machineId dataflowId := by
  have hother : task.name = some n → ¬ task.phase.holdsSegment := fun heq =>
    absurd (Option.some.inj (heq.symm.trans hname)) hne
  rcases h.segment_others hn hother more with ⟨p, hp⟩ | hcover
  · exact .inl ⟨p, h.kept_unregister hpool hp hne⟩
  · exact .inr hcover

theorem Inv.entered (hpool : crossPoolShmemName machineId dataflowId task.pool = some name)
    (hname : task.name = some name) (h : Inv machineId dataflowId { s with tasks := task :: others }) :
    Inv machineId dataflowId { s with
      crossPools := (task.pool, name) :: unregister task.pool s.crossPools,
      tasks := others ++ [{ task with phase := .registered }] } := by
  refine h.ofTask (some .registered) ?_ ?_ ?_
  · intro p n hp
    rcases List.mem_cons.mp hp with heq | hp
    · cases heq
      exact hpool
    · exact h.entry_name p n (mem_unregister.mp hp).1
  · intro n hn
    by_cases heq : n = name
    · subst heq
      exact .inl ⟨task.pool, List.mem_cons_self⟩
    · rcases h.segment_unregister hpool hname hn heq _ with ⟨p, hp⟩ | hcover
      · exact .inl ⟨p, List.mem_cons_of_mem _ hp⟩
      · exact .inr hcover
  · intro hover hcleaning p n hp
    rcases List.mem_cons.mp hp with heq | hp
    · cases heq
      exact ⟨_, List.mem_append_right _ (List.mem_singleton_self _), rfl, .inr (.inl rfl)⟩
    · obtain ⟨hp, hne⟩ := mem_unregister.mp hp
      exact h.entry_others hover hcleaning hp (fun heq => absurd heq.symm hne) _

theorem Inv.flagRead (hphase : task.phase = .registered)
    (h : Inv machineId dataflowId { s with tasks := task :: others }) :
    Inv machineId dataflowId { s with tasks := others ++
      (if s.subscriber = some task.flag then none else some { task with phase := .stale }).toList } := by
  have hholds : ¬ task.phase.holdsSegment := by simp [hphase, Phase.holdsSegment]
  split
  · next hlive =>
    exact h.moved none (List.Subset.refl _) (fun _ _ _ => hholds)
      fun hover => absurd (hover.symm.trans hlive) nofun
  · refine h.ofTask (some .stale) h.entry_name (fun n hn => h.segment_others hn (fun _ => hholds) _) ?_
    intro hover hcleaning p n hp
    by_cases heq : task.pool = p
    · exact ⟨_, List.mem_append_right _ (List.mem_singleton_self _), heq, .inr (.inr rfl)⟩
    · exact h.entry_others hover hcleaning hp (fun hpool => absurd hpool heq) _

theorem Inv.undone (hpool : crossPoolShmemName machineId dataflowId task.pool = some name)
    (hname : task.name = some name) (h : Inv machineId dataflowId { s with tasks := task :: others }) :
    Inv machineId dataflowId { s with
      crossPools := unregister task.pool s.crossPools,
      tasks := others ++ [{ task with phase := .removing }] } := by
  refine h.ofTask (some .removing) (fun p n hp => h.entry_name p n (mem_unregister.mp hp).1) ?_ ?_
  · intro n hn
    by_cases heq : n = name
    · subst heq
      exact .inr (.inl ⟨_, List.mem_append_right _ (List.mem_singleton_self _), hname, .inr (.inr rfl)⟩)
    · exact h.segment_unregister hpool hname hn heq _
  · intro hover hcleaning p n hp
    obtain ⟨hp, hne⟩ := mem_unregister.mp hp
    exact h.entry_others hover hcleaning hp (fun heq => absurd heq.symm hne) _

theorem Inv.taskStep_some
    (h : Inv machineId dataflowId { s with tasks := ⟨pool, some name, flag, phase⟩ :: others })
    (hunlink : ∀ pool name, crossPoolShmemName machineId dataflowId pool = some name → unlinkable name)
    (outcome : Outcome) :
    Inv machineId dataflowId { (taskStep s ⟨pool, some name, flag, phase⟩ outcome).1 with
      tasks := others ++ (taskStep s ⟨pool, some name, flag, phase⟩ outcome).2.toList } := by
  have hpool : crossPoolShmemName machineId dataflowId pool = some name :=
    (h.task_name _ List.mem_cons_self).symm
  cases phase with
  | spawned =>
    cases outcome with
    | created => exact h.created (.inl rfl) rfl
    | failed => exact h.begun none (.inl rfl) (List.Subset.refl _)
    | replace => exact Inv.begun (s := s) (some .replacing) (.inl rfl) h (List.filter_subset_self _)
  | replacing =>
    cases outcome with
    | created => exact h.created (.inr rfl) rfl
    | failed | replace => exact h.begun none (.inr rfl) (List.Subset.refl _)
  | created => exact h.entered hpool rfl
  | registered => exact h.flagRead rfl
  | stale => exact h.undone hpool rfl
  | removing =>
    have hname := hunlink pool name hpool
    refine h.moved none (fun n hn => ((mem_unlink hname).mp hn).1) (fun n hn heq => ?_) (fun _ _ _ => ?_)
    · exact absurd (Option.some.inj heq).symm ((mem_unlink hname).mp hn).2
    · simp [Phase.undoes]

theorem Inv.taskStep (h : Inv machineId dataflowId { s with tasks := task :: others })
    (hunlink : ∀ pool name, crossPoolShmemName machineId dataflowId pool = some name → unlinkable name)
    (outcome : Outcome) :
    Inv machineId dataflowId { (taskStep s task outcome).1 with
      tasks := others ++ (taskStep s task outcome).2.toList } := by
  obtain ⟨pool, name, flag, phase⟩ := task
  cases name with
  | some name => exact h.taskStep_some hunlink outcome
  | none =>
    refine h.moved none (List.Subset.refl _) nofun fun _ n hp => ?_
    cases (h.task_name _ List.mem_cons_self).trans (h.entry_name pool n hp)

end TaskStep

theorem Inv.tasks_congr {tasks : List Task} (h : Inv machineId dataflowId s)
    (hmem : ∀ task, task ∈ s.tasks ↔ task ∈ tasks) : Inv machineId dataflowId { s with tasks } := by
  refine ⟨h.entry_name, fun t ht => h.task_name t ((hmem t).mpr ht), h.pending_name,
    fun n hn => ?_, fun hover hcleaning p n hp => ?_⟩
  · simpa only [hmem] using h.segment n hn
  · simpa only [hmem] using h.entry hover hcleaning p n hp

theorem Inv.next (h : Inv machineId dataflowId s)
    (hunlink : ∀ pool name, crossPoolShmemName machineId dataflowId pool = some name → unlinkable name)
    (label : Label) :
    Inv machineId dataflowId (next machineId dataflowId s label) := by
  cases label with
  | register pool =>
    simp only [MirrorLifetime.next]
    split
    · exact h.register pool
    · exact h
  | free pool =>
    simp only [MirrorLifetime.next]
    split
    · next hidle => exact h.free hidle pool
    · exact h
  | frame pool => exact h
  | spawn failed =>
    simp only [MirrorLifetime.next]
    split
    · exact h.spawn failed
    · exact h
  | finish =>
    simp only [MirrorLifetime.next]
    split
    · next hidle => exact h.finish hidle
    · exact h
  | handler => exact h.handlerStep hunlink
  | task index outcome =>
    simp only [MirrorLifetime.next]
    split
    · next task htask =>
      obtain ⟨hlt, rfl⟩ := List.getElem?_eq_some_iff.mp htask
      have hperm := List.getElem_cons_eraseIdx_perm hlt
      exact (h.tasks_congr fun t => hperm.mem_iff.symm).taskStep hunlink outcome
    · exact h

/-- In every run, once the dataflow has ended and its tasks and handlers are done, nothing of its mirrors is
left and a `Register` starts nothing. -/
theorem mirrors_end_with_dataflow
    (hunlink : ∀ pool name, crossPoolShmemName machineId dataflowId pool = some name → unlinkable name)
    (labels : List Label) :
    let s := (run (step machineId dataflowId) {} labels).1
    s.subscriber = none → s.handler = .idle → s.tasks = [] →
      s.crossPools = [] ∧ s.segments = [] ∧ ∀ pool, next machineId dataflowId s (.register pool) = s := by
  intro s hover hidle htasks
  have hinv : Inv machineId dataflowId s := by
    refine run_induction (step machineId dataflowId) (P := fun _ _ s => Inv machineId dataflowId s) ?_
      (fun _ _ s label _ h => h.next hunlink label) labels
    exact ⟨nofun, nofun, nofun, nofun, nofun⟩
  have hempty : s.crossPools = [] := by
    refine List.eq_nil_iff_forall_not_mem.mpr fun entry hentry => ?_
    obtain ⟨task, htask, -⟩ := hinv.entry hover (by rw [hidle]; nofun) entry.1 entry.2 hentry
    rw [htasks] at htask
    cases htask
  refine ⟨hempty, List.eq_nil_iff_forall_not_mem.mpr fun name hname => ?_, fun pool => ?_⟩
  · rcases hinv.segment name hname with ⟨pool, hentry⟩ | ⟨task, htask, -⟩ | hpending
    · rw [hempty] at hentry
      cases hentry
    · rw [htasks] at htask
      cases htask
    · rw [hidle] at hpending
      cases hpending
  · simp [MirrorLifetime.next, hidle, handleRegister, hover]

/-- A mirror is created, the dataflow finishes, and the mirror is gone; so is that of a task which only
began to run. -/
theorem mirror_of_camera_ends :
    let labels := [.spawn false, .register "pool_camera_1", .task 0 .created, .task 0 .created,
      .register "pool_camera_2", .task 0 .created, .finish, .task 0 .created, .handler, .task 0 .created,
      .handler, .handler, .task 0 .created, .task 0 .created, .task 0 .created]
    let s := (run (step "m1" "flow") {} labels).1
    (s.subscriber = none ∧ s.handler = .idle ∧ s.tasks = []) ∧ s.crossPools = [] ∧ s.segments = [] := by
  intro labels s
  have hended : s.subscriber = none ∧ s.handler = .idle ∧ s.tasks = [] := by decide +kernel
  have hgone := mirrors_end_with_dataflow
    (fun _ _ => unlinkable_of_crossPoolShmemName (by decide +kernel) (by decide +kernel)) labels
    hended.1 hended.2.1 hended.2.2
  exact ⟨hended, hgone.1, hgone.2.1⟩

end Dora.MirrorLifetime
