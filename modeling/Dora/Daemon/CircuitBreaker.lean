import Dora.Daemon.OpEffect

/-!
# The bookkeeping of the circuit breaker

In every run the deadlines are on open inputs and the broken inputs still have an edge into them. That
no input is open and broken at once holds as long as no edit of the graph registers an input that is
broken at that moment: `addMapping` and the registration of an added node open the input and leave its
broken entry where it is.
-/

namespace Dora

open Std

namespace RunningDataflow

variable {d d' : RunningDataflow}

variable {K : Set InputKey} {leaving : Option NodeId}

theorem Closing.keeps (h : Closing leaving K d d') (hconsistent : d.table.Consistent) :
    d'.table.Consistent ∧ (d.table.Separate → d'.table.Separate) := by
  cases h with
  | talk htalk =>
    rw [htalk.table]
    exact ⟨hconsistent, id⟩
  | close now keys E hmute htable hE =>
    rw [closeInputs_table, htable]
    -- taking edges away leaves the open and the broken inputs alone
    have hunlink (hseparate : d.table.Separate) : (d.table.unlink E).Separate := hseparate
    exact ⟨hconsistent.unlink_close hE, fun hseparate => (hunlink hseparate).close⟩
  | purge nodeId hleaving hquiet htable =>
    rw [htable]
    exact ⟨hconsistent.purge, fun hseparate => hseparate.purge⟩

theorem ClosingRun.keeps (h : ClosingRun leaving K d d') (hconsistent : d.table.Consistent) :
    d'.table.Consistent ∧ (d.table.Separate → d'.table.Separate) := by
  induction h with
  | refl => exact ⟨hconsistent, id⟩
  | tail _ hstep ih =>
    have hlast := hstep.keeps ih.1
    exact ⟨hlast.1, hlast.2 ∘ ih.2⟩

theorem Effect.keeps {op : DataflowOp} {result : RunningDataflow × OpOutcome} (h : Effect d op result)
    (hconsistent : d.table.Consistent) : result.1.table.Consistent ∧
      (d.table.Separate → (∀ key ∈ op.opens d, key ∉ d.brokenInputs) → result.1.table.Separate) := by
  cases h with
  | talk htalk =>
    rw [htalk.table]
    exact ⟨hconsistent, fun hseparate _ => hseparate⟩
  | recover hrecovers =>
    obtain ⟨R, hR, htable⟩ := hrecovers.table
    rw [htable]
    exact ⟨hconsistent.recover hR, fun hseparate _ => hseparate.recover⟩
  | expire hquiet K hK htable =>
    rw [htable]
    exact ⟨hconsistent.expire hK, fun hseparate _ => hseparate.expire⟩
  | register hmute hregisters =>
    obtain ⟨D, A, hreg, htable⟩ := hregisters
    rw [htable]
    exact ⟨hconsistent.register hreg, fun hseparate hopens => hseparate.register hopens⟩
  | renew nodeId hreplaces hrenews =>
    obtain ⟨D, hopen, hmapped, htable⟩ := hrenews.table
    rw [htable]
    exact ⟨hconsistent.renew hopen hmapped, fun hseparate _ => hseparate.renew⟩
  | install nodeId replayed hsubscribes hinstalls =>
    rw [hinstalls.table]
    exact ⟨hconsistent, fun hseparate _ => hseparate⟩
  | close hrun =>
    have hkept := ClosingRun.keeps hrun hconsistent
    exact ⟨hkept.1, fun hseparate _ => hkept.2 hseparate⟩

end RunningDataflow

namespace TrackedDataflow

theorem spawn_consistent (dataflowId : String) (nodes : ResolvedNodes) (spawnNodes : TreeSet NodeId)
    (exitWhenNodesFinish : Bool) :
    (spawn dataflowId nodes spawnNodes exitWhenNodesFinish).dataflow.table.Consistent ∧
      (spawn dataflowId nodes spawnNodes exitWhenNodesFinish).dataflow.table.Separate := by
  obtain ⟨-, -, E, K, D, A, hreg, htable⟩ := RunningDataflow.spawnDataflow_registers dataflowId nodes
    spawnNodes exitWhenNodesFinish
  have hseparate : (⟨∅, ∅, ∅, ∅, ∅⟩ : InputTable OutputId NodeId DataId).Separate := fun _ h => h.elim
  rw [show (spawn dataflowId nodes spawnNodes exitWhenNodesFinish).dataflow.table = _ from htable]
  exact ⟨InputTable.consistent_empty.register hreg, hseparate.register fun _ _ h => h⟩

variable {s : TrackedDataflow}

theorem step_consistent (h : s.dataflow.table.Consistent) (op : DataflowOp) :
    (s.step op).1.dataflow.table.Consistent :=
  ((s.cleared.apply_effect h op).keeps h).1

theorem run_consistent (dataflowId : String) (nodes : ResolvedNodes) (spawnNodes : TreeSet NodeId)
    (exitWhenNodesFinish : Bool) (ops : List DataflowOp) :
    (Lib.run step (spawn dataflowId nodes spawnNodes exitWhenNodesFinish) ops
      ).1.dataflow.table.Consistent := by
  refine Lib.run_induction step (P := fun _ _ s => s.dataflow.table.Consistent)
    (spawn_consistent dataflowId nodes spawnNodes exitWhenNodesFinish).1 ?_ ops
  exact fun _ _ s op _ h => step_consistent h op

def OpensUnbroken (s : TrackedDataflow) (op : DataflowOp) : Prop :=
  ∀ key ∈ op.opens s.dataflow, key ∉ s.dataflow.brokenInputs

instance (s : TrackedDataflow) (op : DataflowOp) : Decidable (OpensUnbroken s op) :=
  inferInstanceAs (Decidable (∀ key ∈ op.opens s.dataflow, key ∉ s.dataflow.brokenInputs))

theorem step_separate (hconsistent : s.dataflow.table.Consistent)
    (hseparate : s.dataflow.table.Separate) {op : DataflowOp} (hop : OpensUnbroken s op) :
    (s.step op).1.dataflow.table.Separate := by
  refine ((s.cleared.apply_effect hconsistent op).keeps hconsistent).2 hseparate ?_
  have hopens : op.opens s.cleared = op.opens s.dataflow := by
    cases op <;> rfl
  rw [hopens]
  exact hop

theorem step_separate_iff (hconsistent : s.dataflow.table.Consistent)
    (hseparate : s.dataflow.table.Separate) (op : DataflowOp) :
    (s.step op).1.dataflow.table.Separate ↔ OpensUnbroken s op := by
  refine ⟨fun hafter key hkey hbroken => ?_, step_separate hconsistent hseparate⟩
  -- registering opens `key` and keeps it broken
  have hboth : ∀ E K d', InputTable.Registers s.cleared.table d' E K → key ∈ K → ¬d'.Separate := by
    rintro E K d' ⟨D, A, -, rfl⟩ hK hsep
    exact hsep key (.inr hK) hbroken
  cases op with
  | addNode node restartPolicy spawned =>
    dsimp only [DataflowOp.opens] at hkey
    split at hkey
    · rename_i hreject
      obtain ⟨d', hadd⟩ : ∃ d', s.cleared.addNode node restartPolicy (.ok ()) = .ok d' := by
        have haccept : s.cleared.rejectUnpinnableBackpressureInputs node.id (nodeInputs node) =
            .ok () := hreject
        simp only [RunningDataflow.addNode, haccept]
        exact ⟨_, rfl⟩
      have hstep : (s.step (.addNode node restartPolicy (.ok ()))).1.dataflow = d' := by
        show (s.cleared.orUnchanged (s.cleared.addNode node restartPolicy (.ok ())) _).1 = d'
        rw [hadd]
        rfl
      rw [hstep] at hafter
      exact hboth _ _ _ (s.cleared.addNode_registers hadd).2 hkey hafter
    · exact absurd hkey List.not_mem_nil
  | addMapping output key' =>
    have hregisters := s.cleared.addMapping_registers output key'
    rw [DataflowOp.opens, List.mem_singleton] at hkey
    exact hboth _ _ _ hregisters hkey hafter
  | _ => exact absurd hkey List.not_mem_nil

end TrackedDataflow

/-- The three maps agree: no input is open and broken, deadlines are on open inputs, and every broken
input has an edge whose closing takes it out again. -/
structure CircuitsConsistent (d : RunningDataflow) : Prop where
  open_unbroken : ∀ nodeId inputId, inputId ∈ d.openInputs.members nodeId →
    (nodeId, inputId) ∉ d.brokenInputs
  deadline_open : ∀ key ∈ d.inputDeadlines, key.2 ∈ d.openInputs.members key.1
  broken_mapped : ∀ key ∈ d.brokenInputs, ∃ output, key ∈ d.mappings.members output ∧
    ∀ now, key ∉ (d.apply (.outputClosed now output)).1.brokenInputs

theorem circuitsConsistent_of_table {d : RunningDataflow} (hconsistent : d.table.Consistent)
    (hseparate : d.table.Separate) : CircuitsConsistent d where
  open_unbroken nodeId inputId hopen := hseparate (nodeId, inputId) hopen
  deadline_open := hconsistent.deadlines_open
  broken_mapped key hbroken := by
    obtain ⟨output, he⟩ := hconsistent.broken_mapped key hbroken
    refine ⟨output, he, fun now hmem => ?_⟩
    have htable := d.closeInputs_table now (d.mappings.members output).toList
    have hstill : key ∈ (d.closeInputs now (d.mappings.members output).toList).table.broken := hmem
    rw [htable] at hstill
    refine hstill.2 ?_
    rw [Set.mem_ofPred_eq, TreeSet.mem_toList]
    exact he

/-- In every run in which no operation registers a broken input, the bookkeeping of the circuit
breaker is consistent. -/
theorem circuit_bookkeeping_consistent (dataflowId : String) (nodes : ResolvedNodes)
    (spawnNodes : TreeSet NodeId) (exitWhenNodesFinish : Bool) (ops : List DataflowOp)
    (hops : Lib.Meets TrackedDataflow.step TrackedDataflow.OpensUnbroken
      (.spawn dataflowId nodes spawnNodes exitWhenNodesFinish) ops) :
    CircuitsConsistent (Lib.run TrackedDataflow.step
      (.spawn dataflowId nodes spawnNodes exitWhenNodesFinish) ops).1.dataflow := by
  have hinvariant := Lib.run_induction_meets TrackedDataflow.step
    (P := fun _ _ s => s.dataflow.table.Consistent ∧ s.dataflow.table.Separate)
    (TrackedDataflow.spawn_consistent dataflowId nodes spawnNodes exitWhenNodesFinish)
    (fun _ _ s op _ hop h => ⟨TrackedDataflow.step_consistent h.1 op,
      TrackedDataflow.step_separate h.1 h.2 hop⟩) ops hops
  exact circuitsConsistent_of_table hinvariant.1 hinvariant.2

def plainNode (name : String) (inputs : List (DataId × Input)) (outputs : List DataId) :
    ResolvedNode where
  id := ⟨name⟩
  kind := .custom
    { path := name
      source := .local
      runConfig := { inputs := .ofList inputs, outputs := .ofList outputs } }

/-- `b` reads `a/out`, with a timeout. -/
def timedReader : ResolvedNode :=
  plainNode "b" [(⟨"in"⟩, ⟨.user ⟨⟨"a"⟩, ⟨"out"⟩⟩, none, some 1, none⟩)] []

/-- `a` feeds `b`; `b` gets one message, and then nothing until its timeout has passed. -/
def silentProducer : List DataflowOp :=
  [.addNode (plainNode "a" [] [⟨"out"⟩]) .never (.ok ()),
   .addNode timedReader .never (.ok ()),
   .subscribe 0 ⟨"b"⟩ [] 0 none,
   .outputSent 0 ⟨⟨"a"⟩, ⟨"out"⟩⟩,
   .checkInputTimeouts 10 []]

theorem circuit_bookkeeping_consistent_silent_producer :
    (∃ key, key ∈ (Lib.run TrackedDataflow.step (.spawn "df" ∅ ∅ true) silentProducer
      ).1.dataflow.brokenInputs) ∧
    CircuitsConsistent (Lib.run TrackedDataflow.step (.spawn "df" ∅ ∅ true) silentProducer
      ).1.dataflow := by
  refine ⟨⟨(⟨"b"⟩, ⟨"in"⟩), by decide⟩, ?_⟩
  apply circuit_bookkeeping_consistent
  decide

/-- Connecting another producer opens the input and leaves it broken. -/
theorem reconnect_open_and_broken :
    ¬CircuitsConsistent (Lib.run TrackedDataflow.step (.spawn "df" ∅ ∅ true)
      (silentProducer ++ [.addMapping ⟨⟨"c"⟩, ⟨"out"⟩⟩ (⟨"b"⟩, ⟨"in"⟩)])).1.dataflow := by
  intro h
  exact h.open_unbroken ⟨"b"⟩ ⟨"in"⟩ (by decide) (by decide)

end Dora
