import Dora.Coordinator.Params

/-!
# The replication log (`coordinator/src/state.rs`)

The log of an entry is always the tail of its mutations from some number on: entries are appended under the
next number and leave from the front, by the cap and by pruning what all present daemons have acked.
So a delta is either complete or refused.
-/

namespace Dora.Coord

open Std Lib

/-- The log entries of `cs`, the first under number `n + 1`. -/
def numbered (n : Nat) : List ParamChange → List StateCatchUpEntry
  | [] => []
  | c :: cs => { sequence := n + 1, operation := c } :: numbered (n + 1) cs

section Numbered

variable {n m j : Nat} {cs ds : List ParamChange}

theorem numbered_append : numbered n (cs ++ ds) = numbered n cs ++ numbered (n + cs.length) ds := by
  induction cs generalizing n with
  | nil => rfl
  | cons c cs ih =>
    rw [List.cons_append, numbered, ih, numbered, List.cons_append, List.length_cons]
    congr 3
    omega

theorem drop_numbered : (numbered n cs).drop j = numbered (n + j) (cs.drop j) := by
  induction cs generalizing n j with
  | nil => simp [numbered]
  | cons c cs ih =>
    cases j with
    | zero => rfl
    | succ =>
      rw [numbered, List.drop_succ_cons, ih, List.drop_succ_cons]
      congr 1
      omega

theorem take_numbered : (numbered n cs).take j = numbered n (cs.take j) := by
  induction cs generalizing n j with
  | nil => simp [numbered]
  | cons c cs ih =>
    cases j with
    | zero => rfl
    | succ => rw [numbered, List.take_succ_cons, ih, List.take_succ_cons, numbered]

@[simp] theorem map_operation_numbered : (numbered n cs).map StateCatchUpEntry.operation = cs := by
  induction cs generalizing n with
  | nil => rfl
  | cons c cs ih => rw [numbered, List.map_cons, ih]

@[simp] theorem length_numbered : (numbered n cs).length = cs.length := by
  rw [← List.length_map StateCatchUpEntry.operation, map_operation_numbered]

theorem filter_numbered :
    (numbered n cs).filter (fun e => m < e.sequence) = numbered (n + (m - n)) (cs.drop (m - n)) := by
  induction cs generalizing n with
  | nil => simp [numbered]
  | cons c cs ih =>
    rw [numbered]
    by_cases h : m < n + 1
    · -- every later number is larger still, so nothing is filtered out
      have hrest := ih (n := n + 1)
      rw [Nat.sub_eq_zero_of_le h.le] at hrest
      rw [List.filter_cons_of_pos (by simpa using h), hrest, Nat.sub_eq_zero_of_le (Nat.lt_succ_iff.mp h)]
      rfl
    · rw [List.filter_cons_of_neg (by simpa using h), ih]
      obtain ⟨i, rfl⟩ := Nat.exists_eq_add_of_le (Nat.not_lt.mp h)
      rw [Nat.add_sub_cancel_left, Nat.add_assoc, Nat.add_sub_cancel_left, Nat.add_comm 1 i,
        List.drop_succ_cons]

theorem map_sequence_numbered :
    (numbered n cs).map StateCatchUpEntry.sequence = List.range' (n + 1) cs.length := by
  induction cs generalizing n with
  | nil => rfl
  | cons c cs ih => rw [numbered, List.map_cons, ih, List.length_cons, List.range'_succ]

theorem mem_sequences_numbered : (∃ e ∈ numbered n cs, e.sequence = j) ↔ n < j ∧ j ≤ n + cs.length := by
  rw [← List.mem_map, map_sequence_numbered, List.mem_range'_1]
  omega

theorem getLast?_numbered (h : cs ≠ []) :
    (numbered n cs).getLast?.map StateCatchUpEntry.sequence = some (n + cs.length) := by
  obtain ⟨cs, c, rfl⟩ := (List.eq_nil_or_concat cs).resolve_left h
  rw [List.concat_eq_append, numbered_append]
  simp [numbered, Nat.add_assoc]

end Numbered

/-- The log still has every entry after `ack`. -/
def ParamDataflow.Reaches (df : ParamDataflow) (ack : Nat) : Prop :=
  ∀ i ≤ df.stateLogSequence, ack < i → ∃ e ∈ df.stateLog, e.sequence = i

/-- The log is the tail of `mutations` from some number on, and no ack is ahead of it. -/
structure Logged (mutations : List ParamChange) (df : ParamDataflow) : Prop where
  sequence : df.stateLogSequence = mutations.length
  log : ∃ b ≤ mutations.length, df.stateLog = numbered b (mutations.drop b)
  acks : ∀ (d : DaemonId) (ack : Nat), df.daemonAckSequence[d]? = some ack → ack ≤ df.stateLogSequence

namespace Logged

variable {mutations : List ParamChange} {df : ParamDataflow} {d : DaemonId}

theorem appendStateLog (h : Logged mutations df) (c : ParamChange) :
    Logged (mutations ++ [c]) (df.appendStateLog c) := by
  obtain ⟨b, hb, hlog⟩ := h.log
  have hwhole : df.stateLog ++ [⟨df.stateLogSequence + 1, c⟩] = numbered b ((mutations ++ [c]).drop b) := by
    rw [hlog, h.sequence, List.drop_append_of_le_length hb, numbered_append, List.length_drop,
      Nat.add_sub_cancel' hb]
    rfl
  refine ⟨by simp [ParamDataflow.appendStateLog, h.sequence], ?_, ?_⟩
  · simp only [ParamDataflow.appendStateLog, hwhole]
    rw [drop_numbered, List.drop_drop]
    refine ⟨_, ?_, rfl⟩
    rw [length_numbered, List.length_drop]
    simp only [List.length_append, List.length_cons, List.length_nil]
    omega
  · intro d ack hack
    exact (h.acks d ack hack).trans (Nat.le_succ df.stateLogSequence)

theorem pruneStateLog (h : Logged mutations df) : Logged mutations df.pruneStateLog := by
  obtain ⟨b, hb, hlog⟩ := h.log
  refine ⟨h.sequence, ?_, h.acks⟩
  simp only [ParamDataflow.pruneStateLog, hlog, filter_numbered, List.drop_drop]
  generalize (df.daemons.toList.map df.lastAck).min?.getD 0 = m
  rcases Nat.le_total (b + (m - b)) mutations.length with hle | hge
  · exact ⟨_, hle, rfl⟩
  · refine ⟨mutations.length, Nat.le_refl _, ?_⟩
    rw [List.drop_eq_nil_of_le hge, List.drop_length]
    rfl

theorem lastAck_le (h : Logged mutations df) : df.lastAck d ≤ df.stateLogSequence := by
  unfold ParamDataflow.lastAck
  cases hack : df.daemonAckSequence[d]? with
  | none => exact Nat.zero_le _
  | some ack => exact h.acks d ack hack

theorem setAck (h : Logged mutations df) {ack : Nat} (hack : ack ≤ df.stateLogSequence) :
    Logged mutations (df.setAck d ack) := by
  refine ⟨h.sequence, h.log, ?_⟩
  intro d' ack' hack'
  rw [ParamDataflow.setAck, TreeMap.getElem?_insert] at hack'
  split at hack'
  · exact Option.some.inj hack' ▸ hack
  · exact h.acks d' ack' hack'

theorem stateCatchUpAck (h : Logged mutations df) (ack : Nat) :
    Logged mutations (df.stateCatchUpAck d ack) := by
  unfold ParamDataflow.stateCatchUpAck
  split
  · exact (h.setAck (Nat.max_le.mpr ⟨Nat.min_le_right _ _, h.lastAck_le⟩)).pruneStateLog
  · exact h

theorem stateLogDelta_eq (h : Logged mutations df) {b ack : Nat} (hb : b ≤ mutations.length)
    (hlog : df.stateLog = numbered b (mutations.drop b)) (hack : ack ≤ df.stateLogSequence) :
    df.stateLogDelta ack = if b ≤ ack then some (numbered ack (mutations.drop ack)) else none := by
  rw [h.sequence] at hack
  unfold ParamDataflow.stateLogDelta
  cases hdrop : mutations.drop b with
  | nil =>
    -- the log is empty: it starts behind the last mutation
    have hlength : mutations.length ≤ b := List.drop_eq_nil_iff.mp hdrop
    rw [hlog, hdrop, h.sequence]
    simp only [numbered]
    by_cases hlt : ack < mutations.length
    · rw [if_pos hlt, if_neg (by omega)]
    · rw [if_neg hlt, if_pos (by omega), List.drop_eq_nil_of_le (Nat.not_lt.mp hlt)]
      rfl
  | cons c cs =>
    have hcons : df.stateLog = { sequence := b + 1, operation := c } :: numbered (b + 1) cs := by
      rw [hlog, hdrop]
      rfl
    rw [hcons]
    simp only
    by_cases hba : b ≤ ack
    · rw [if_neg (by omega), if_pos hba, ← hcons, hlog, filter_numbered, List.drop_drop,
        Nat.add_sub_cancel' hba]
    · rw [if_pos (by omega), if_neg hba]

theorem stateLogDelta (h : Logged mutations df) {ack : Nat} {es : List StateCatchUpEntry}
    (hack : ack ≤ df.stateLogSequence) (hes : df.stateLogDelta ack = some es) :
    es = numbered ack (mutations.drop ack) := by
  obtain ⟨b, hb, hlog⟩ := h.log
  rw [h.stateLogDelta_eq hb hlog hack] at hes
  split at hes
  · exact (Option.some.inj hes).symm
  · cases hes

theorem isSome_stateLogDelta (h : Logged mutations df) {ack : Nat} (hack : ack ≤ df.stateLogSequence) :
    (df.stateLogDelta ack).isSome ↔ df.Reaches ack := by
  obtain ⟨b, hb, hlog⟩ := h.log
  -- a number is held when the log starts at or before it
  have hheld : ∀ i, (∃ e ∈ df.stateLog, e.sequence = i) ↔ b < i ∧ i ≤ df.stateLogSequence := by
    intro i
    rw [hlog, mem_sequences_numbered, List.length_drop, h.sequence]
    omega
  rw [h.stateLogDelta_eq hb hlog hack]
  constructor
  · intro hsome i hi' hi
    split at hsome
    · exact (hheld i).mpr ⟨by omega, hi'⟩
    · cases hsome
  · intro hall
    rw [if_pos]
    · rfl
    · by_contra hgap
      have hfirst := (hheld (ack + 1)).mp
        (hall (ack + 1) (by rw [h.sequence]; omega) (Nat.lt_succ_self ack))
      omega

end Logged

inductive LogEvent where
  | append (operation : ParamChange)
  | prune
  | ack (daemon : DaemonId) (sequence : Nat)
  /-- The fallback replay for the daemon went through. -/
  | replayed (daemon : DaemonId)
  | join (daemon : DaemonId) (reported : List NodeId)
  | leave (daemon : DaemonId)

namespace ParamDataflow

def logStep (df : ParamDataflow) : LogEvent → ParamDataflow
  | .append operation => df.appendStateLog operation
  | .prune => df.pruneStateLog
  | .ack daemon sequence => df.stateCatchUpAck daemon sequence
  | .replayed daemon => df.setAck daemon df.stateLogSequence
  | .join daemon reported => df.relink daemon reported
  | .leave daemon => { df with daemons := df.daemons.erase daemon }

end ParamDataflow

def appended (events : List LogEvent) : List ParamChange :=
  events.filterMap fun
    | .append operation => some operation
    | _ => none

theorem logged_step {mutations : List ParamChange} {df : ParamDataflow} (h : Logged mutations df)
    (e : LogEvent) : Logged (mutations ++ appended [e]) (df.logStep e) := by
  cases e with
  | append operation => exact h.appendStateLog operation
  | prune => exact (List.append_nil mutations).symm ▸ h.pruneStateLog
  | ack daemon sequence => exact (List.append_nil mutations).symm ▸ h.stateCatchUpAck sequence
  | replayed => exact (List.append_nil mutations).symm ▸ h.setAck (Nat.le_refl _)
  | join daemon reported | leave daemon =>
    exact (List.append_nil mutations).symm ▸ ⟨h.sequence, h.log, h.acks⟩

theorem logged_run {df₀ : ParamDataflow} (h : Logged [] df₀) (events : List LogEvent) :
    Logged (appended events) (events.foldl ParamDataflow.logStep df₀) := by
  induction events using List.reverseRecOn with
  | nil => exact h
  | append_singleton events e ih =>
    rw [List.foldl_append, appended, List.filterMap_append]
    exact logged_step ih e

/-- From an entry without mutations on, whatever is appended, pruned and acked and whoever joins and leaves:
the numbers in the log are consecutive up to the last one, no ack is ahead of it, and a delta is given
exactly when all mutations behind the ack are held, and is these mutations then. -/
theorem state_log_deltas_exact (df₀ : ParamDataflow) (hsequence : df₀.stateLogSequence = 0)
    (hlog : df₀.stateLog = []) (hacks : ∀ (d : DaemonId), df₀.lastAck d = 0) (events : List LogEvent) :
    let df := events.foldl ParamDataflow.logStep df₀
    df.stateLogSequence = (appended events).length ∧
      (df.stateLog = [] ∨ ∃ first, first + df.stateLog.length = df.stateLogSequence + 1 ∧
        df.stateLog.map StateCatchUpEntry.sequence = List.range' first df.stateLog.length) ∧
      (∀ (d : DaemonId) (ack : Nat), df.daemonAckSequence[d]? = some ack → ack ≤ df.stateLogSequence) ∧
      ∀ lastAck ≤ df.stateLogSequence,
        ((df.stateLogDelta lastAck).isSome ↔ ∀ i, lastAck < i → i ≤ df.stateLogSequence →
          ∃ e ∈ df.stateLog, e.sequence = i) ∧
        ∀ es, df.stateLogDelta lastAck = some es →
          es = numbered lastAck ((appended events).drop lastAck) := by
  intro df
  have hstart : Logged [] df₀ := by
    refine ⟨hsequence, ⟨0, Nat.le_refl 0, hlog⟩, ?_⟩
    intro d ack hack
    have hzero := hacks d
    rw [ParamDataflow.lastAck, hack] at hzero
    exact (show ack = 0 from hzero) ▸ Nat.zero_le _
  have hlogged : Logged (appended events) df := logged_run hstart events
  obtain ⟨b, hb, hnumbered⟩ := hlogged.log
  have hlength : df.stateLog.length = (appended events).length - b := by
    rw [hnumbered, length_numbered, List.length_drop]
  have hsequences : df.stateLog.map StateCatchUpEntry.sequence = List.range' (b + 1) df.stateLog.length := by
    rw [hlength, hnumbered, map_sequence_numbered, List.length_drop]
  refine ⟨hlogged.sequence, .inr ⟨b + 1, ?_, hsequences⟩, hlogged.acks, ?_⟩
  · rw [hlength, hlogged.sequence]
    omega
  · intro lastAck hle
    refine ⟨(hlogged.isSome_stateLogDelta hle).trans ?_, fun es => hlogged.stateLogDelta hle⟩
    exact forall_congr' fun i => imp.swap

/-- An entry that was just rebuilt, one mutation, and another daemon's ack of it. -/
theorem state_log_deltas_exact_of_recovered :
    let df := ParamDataflow.recovered { machineId := none, uuid := 1 } [⟨"a"⟩]
    let events : List LogEvent :=
      [.append (setParam ⟨"a"⟩ "gain" "1"), .ack { machineId := none, uuid := 2 } 1]
    ∀ es, (events.foldl ParamDataflow.logStep df).stateLogDelta 0 = some es →
      es = numbered 0 (appended events) := by
  intro df events es hes
  refine ((state_log_deltas_exact df rfl rfl ?_ events).2.2.2 0 (Nat.zero_le _)).2 es hes
  intro d
  simp only [df, ParamDataflow.lastAck, ParamDataflow.recovered, TreeMap.getElem?_insert]
  split <;> simp

end Dora.Coord
