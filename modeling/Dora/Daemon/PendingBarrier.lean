import Dora.Daemon.Pending
import Dora.Lib.Machine

/-!
# What the startup barrier guarantees

`updateDataflowStatus` is the only place where an operation other than the coordinator's release
answers anything, so one case lemma about it (`updateDataflowStatus_spec`) carries both results: no
subscriber stays parked with nothing left to wait for, and the answers of one dataflow agree.
-/

namespace Dora

open Std

namespace PendingNodes

inductive UpdateSpec (p : PendingNodes) (sender : CoordinatorSender) :
    PendingNodes × BarrierOutcome → Prop where
  /-- Nothing is answered, for one of three reasons: a cohort member is awaited, the verdict is
  awaited, or the report upward failed. -/
  | parked (p' : PendingNodes) (outcome : BarrierOutcome) (reported : Bool)
      (hreported : p.reportedInitToCoordinator = true → reported = true)
      (hstate : p' = { p with reportedInitToCoordinator := reported })
      (hanswers : outcome.answers = [])
      (hstatus : outcome.status ≠ .ok (some .allNodesReady))
      (hwhy : p.localNodes.isEmpty = false ∨
        p.externalNodes = true ∧ (p.externalReady = none ∨
          p.reportedInitToCoordinator = false ∧ ∃ err, reportNodesReady sender = .error err)) :
      UpdateSpec p sender (p', outcome)
  /-- Everything parked is answered against the verdict `exitedExternal`. -/
  | released (p' : PendingNodes) (outcome : BarrierOutcome) (reported : Bool)
      (exitedExternal : List NodeId)
      (hreported : p.reportedInitToCoordinator = true → reported = true)
      (hstate : p' = { p with waitingSubscribers := ∅, reportedInitToCoordinator := reported })
      (hanswers : outcome.answers = p.waitingSubscribers.toList.map (p.answerFor exitedExternal))
      (hverdict : exitedExternal = [] ∨ p.externalReady = some exitedExternal)
      (hready : p.externalNodes = true → p.externalReady = some exitedExternal ∧
        (outcome.status = .ok (some .allNodesReady) →
          exitedExternal = [] ∧ p.exitedBeforeSubscribe = [])) :
      UpdateSpec p sender (p', outcome)

variable {p : PendingNodes}

theorem release_status {exitedExternal : List NodeId}
    (h : (p.release exitedExternal).2.status = .ok (some .allNodesReady)) :
    exitedExternal = [] ∧ p.exitedBeforeSubscribe = [] := by
  simp only [release, Except.ok.injEq, Option.some.injEq] at h
  split at h
  · rename_i hsucc
    simpa using hsucc
  · cases h

/-- The external branch after the report: `reported` is the flag it leaves behind. -/
theorem followVerdict_spec (p : PendingNodes) (sender : CoordinatorSender) (reported : Bool)
    (hreported : p.reportedInitToCoordinator = true → reported = true)
    (hexternal : p.externalNodes = true) (note : Option (List NodeId)) :
    UpdateSpec p sender
      (({ p with reportedInitToCoordinator := reported } : PendingNodes).followVerdict.1,
        { ({ p with reportedInitToCoordinator := reported } : PendingNodes).followVerdict.2 with
          reported := note }) := by
  unfold followVerdict
  split
  · rename_i exitedExternal hready
    refine .released _ _ reported exitedExternal hreported rfl rfl (.inr hready) fun _ => ?_
    exact ⟨hready, fun hstatus => release_status hstatus⟩
  · rename_i hready
    exact .parked _ _ reported hreported rfl rfl (by simp) (.inr ⟨hexternal, .inl hready⟩)

theorem updateDataflowStatus_spec (p : PendingNodes) (sender : CoordinatorSender) :
    UpdateSpec p sender (p.updateDataflowStatus sender) := by
  unfold updateDataflowStatus
  by_cases hlocal : p.localNodes.isEmpty = true
  · rw [if_pos hlocal]
    by_cases hexternal : p.externalNodes = true
    · rw [if_pos hexternal]
      by_cases hreported : p.reportedInitToCoordinator = true
      · rw [if_pos hreported]
        exact p.followVerdict_spec sender p.reportedInitToCoordinator id hexternal
          p.followVerdict.2.reported
      · rw [if_neg hreported]
        split
        · rename_i err herr
          refine .parked _ _ p.reportedInitToCoordinator id rfl rfl (by simp)
            (.inr ⟨hexternal, ?_⟩)
          exact .inr ⟨by simpa using hreported, err, herr⟩
        · exact p.followVerdict_spec sender true (fun _ => rfl) hexternal _
    · rw [if_neg hexternal]
      refine .released _ _ p.reportedInitToCoordinator [] id rfl rfl (.inl rfl) fun h => ?_
      exact absurd h hexternal
  · rw [if_neg hlocal]
    exact .parked _ _ p.reportedInitToCoordinator id rfl rfl (by simp)
      (.inl (by simpa using hlocal))

def NotStranded (p : PendingNodes) : Prop :=
  p.waitingSubscribers.isEmpty = false →
    p.localNodes.isEmpty = false ∨ p.externalNodes = true ∧ p.externalReady = none

/-- A report that this update has to make, and on which a parked request depends, succeeds. -/
def ReportReaches (p : PendingNodes) (sender : CoordinatorSender) : Prop :=
  p.localNodes.isEmpty = true → p.waitingSubscribers.isEmpty = false → p.externalNodes = true →
    p.reportedInitToCoordinator = false → p.externalReady ≠ none → reportNodesReady sender = .ok ()

variable {sender : CoordinatorSender}

theorem updateDataflowStatus_notStranded
    (hreport : p.ReportReaches sender) : (p.updateDataflowStatus sender).1.NotStranded := by
  generalize hresult : p.updateDataflowStatus sender = result
  have hspec : UpdateSpec p sender result := hresult ▸ p.updateDataflowStatus_spec sender
  cases hspec with
  | parked p' outcome reported hreported hstate hanswers hstatus hwhy =>
    subst hstate
    intro hwaiting
    rcases hwhy with hlocal | ⟨hexternal, hready | ⟨hdue, err, herr⟩⟩
    · exact .inl hlocal
    · exact .inr ⟨hexternal, hready⟩
    · by_contra hstranded
      push Not at hstranded
      have hlocal : p.localNodes.isEmpty = true := by simpa using hstranded.1
      rw [hreport hlocal hwaiting hexternal hdue (hstranded.2 hexternal)] at herr
      cases herr
  | released p' outcome reported exitedExternal hreported hstate =>
    subst hstate
    intro hwaiting
    simp at hwaiting

def DropReaches (p : PendingNodes) (sender : CoordinatorSender) (nodes : List NodeId) : Prop :=
  (∀ nodeId ∈ p.localNodes, nodeId ∈ nodes) → p.waitingSubscribers.isEmpty = false →
    p.externalNodes = true → p.reportedInitToCoordinator = false → p.externalReady ≠ none →
    reportNodesReady sender = .ok ()

theorem mem_cons_of_mem_erase {nodes : TreeSet NodeId} {nodeId : NodeId} {rest : List NodeId}
    (h : ∀ n ∈ nodes.erase nodeId, n ∈ rest) : ∀ n ∈ nodes, n ∈ nodeId :: rest := by
  intro n hn
  by_cases heq : n = nodeId
  · exact heq ▸ List.mem_cons_self
  · refine List.mem_cons_of_mem _ (h n (TreeSet.mem_erase.mpr ⟨?_, hn⟩))
    rw [ne_eq, LawfulEqCmp.compare_eq_iff_eq]
    exact fun hcmp => heq hcmp.symm

theorem DropReaches.update {nodeId : NodeId}
    {rest : List NodeId} (h : p.DropReaches sender (nodeId :: rest)) :
    (({ p with localNodes := p.localNodes.erase nodeId } : PendingNodes).updateDataflowStatus
      sender).1.DropReaches sender rest := by
  generalize hresult : PendingNodes.updateDataflowStatus _ sender = result
  have hspec := updateDataflowStatus_spec { p with localNodes := p.localNodes.erase nodeId } sender
  rw [hresult] at hspec
  cases hspec with
  | parked p' outcome reported hreported hstate =>
    subst hstate
    intro hcover hwaiting hexternal hfalse hready
    refine h (mem_cons_of_mem_erase hcover) hwaiting hexternal ?_ hready
    by_contra hflag
    have hrise : reported = true := hreported (by simpa using hflag)
    rw [hrise] at hfalse
    cases hfalse
  | released p' outcome reported exitedExternal hreported hstate =>
    subst hstate
    intro _ hwaiting
    simp at hwaiting

theorem dropPendingNodes_notStranded (nodes : List NodeId) (hreport : p.DropReaches sender nodes)
    (h : p.NotStranded) :
    (p.dropPendingNodes sender nodes).1.NotStranded := by
  induction nodes generalizing p with
  | nil => exact h
  | cons nodeId rest ih =>
    unfold dropPendingNodes
    by_cases hpending : p.localNodes.contains nodeId = true
    · rw [if_pos hpending]
      set p₁ : PendingNodes := { p with localNodes := p.localNodes.erase nodeId } with hp₁
      have hreport₁ : p₁.ReportReaches sender := by
        intro hlocal hwaiting
        refine hreport (mem_cons_of_mem_erase fun n hn => ?_) hwaiting
        exact absurd hn (TreeSet.isEmpty_iff_forall_not_mem.mp hlocal n)
      have h₁ := updateDataflowStatus_notStranded hreport₁
      simp only
      split
      · exact h₁
      · exact ih hreport.update h₁
    · rw [if_neg hpending]
      refine ih (fun hcover => hreport fun n hn => ?_) h
      exact List.mem_cons_of_mem _ (hcover n hn)

end PendingNodes

def PendingOp.sender? : PendingOp → Option CoordinatorSender
  | .insert _ | .externalAllNodesReady _ => none
  | .nodeSubscription _ sender | .nodeStop _ sender | .nodeRemoval _ sender
  | .dataflowStop _ sender => some sender

/-- After the operation the cohort no longer waits for `nodeId`. -/
def PendingOp.takesOut (nodeId : NodeId) : PendingOp → Prop
  | .nodeSubscription n _ | .nodeStop n _ | .nodeRemoval n _ => n = nodeId
  | .dataflowStop dynamicNodes _ => nodeId ∈ dynamicNodes
  | .insert _ | .externalAllNodesReady _ => False

def PendingOp.keepsParked (p : PendingNodes) : PendingOp → Prop
  | .nodeSubscription _ _ => True
  | .nodeRemoval n _ => (p.waitingSubscribers.erase n).isEmpty = false
  | .insert _ | .nodeStop _ _ | .dataflowStop _ _ | .externalAllNodesReady _ =>
    p.waitingSubscribers.isEmpty = false

/-- The operation takes out the last awaited cohort member while the report upward is still due, the
coordinator's verdict has already arrived, and a request is parked. -/
structure ReportDue (p : PendingNodes) (op : PendingOp) : Prop where
  external : p.externalNodes = true
  unreported : p.reportedInitToCoordinator = false
  verdict : p.externalReady ≠ none
  last : ∀ nodeId ∈ p.localNodes, op.takesOut nodeId
  parked : op.keepsParked p

def ReportsReach (b : Barrier) (op : PendingOp) : Prop :=
  ∀ sender, op.sender? = some sender → ReportDue b.pending op →
    PendingNodes.reportNodesReady sender = .ok ()

theorem isEmpty_erase_iff {nodes : TreeSet NodeId} {nodeId : NodeId} :
    (nodes.erase nodeId).isEmpty = true ↔ ∀ n ∈ nodes, nodeId = n := by
  rw [TreeSet.isEmpty_iff_forall_not_mem]
  simp only [TreeSet.mem_erase, ne_eq, LawfulEqCmp.compare_eq_iff_eq, not_and', not_not]

theorem Barrier.step_notStranded {b : Barrier} {op : PendingOp} (hreport : ReportsReach b op)
    (h : b.pending.NotStranded) : (b.step op).1.pending.NotStranded := by
  change (b.pending.apply b.calls op).1.NotStranded
  cases op with
  | insert =>
    intro _
    refine .inl ?_
    simp [PendingNodes.apply, PendingNodes.insert]
  | nodeSubscription nodeId sender =>
    refine PendingNodes.updateDataflowStatus_notStranded ?_
    intro hlocal hwaiting hexternal hdue hready
    exact hreport sender rfl ⟨hexternal, hdue, hready, isEmpty_erase_iff.mp hlocal, trivial⟩
  | nodeStop nodeId sender =>
    simp only [PendingNodes.apply, PendingNodes.handleNodeStop]
    split
    · refine PendingNodes.updateDataflowStatus_notStranded ?_
      intro hlocal hwaiting hexternal hdue hready
      exact hreport sender rfl ⟨hexternal, hdue, hready, isEmpty_erase_iff.mp hlocal, hwaiting⟩
    · exact h
  | nodeRemoval nodeId sender =>
    refine PendingNodes.updateDataflowStatus_notStranded ?_
    intro hlocal hwaiting hexternal hdue hready
    exact hreport sender rfl ⟨hexternal, hdue, hready, isEmpty_erase_iff.mp hlocal, hwaiting⟩
  | dataflowStop dynamicNodes sender =>
    refine PendingNodes.dropPendingNodes_notStranded _ ?_ h
    intro hcover hwaiting hexternal hdue hready
    refine hreport sender rfl ⟨hexternal, hdue, hready, fun n hn => ?_, hwaiting⟩
    exact TreeSet.mem_toList.mp (hcover n hn)
  | externalAllNodesReady =>
    intro hwaiting
    simp [PendingNodes.apply, PendingNodes.handleExternalAllNodesReady, PendingNodes.release,
      PendingNodes.answerSubscribeRequests] at hwaiting

/-- In every run in which no report that is due after the coordinator's verdict fails, no subscriber
is ever left parked with neither a cohort member nor the verdict to wait for. -/
theorem barrier_never_strands (dataflowId : String) (externalNodes : Bool) (ops : List PendingOp)
    (hreports : Lib.Meets Barrier.step ReportsReach (.new dataflowId externalNodes) ops) :
    (Lib.run Barrier.step (.new dataflowId externalNodes) ops).1.pending.NotStranded := by
  have hinit : (Barrier.new dataflowId externalNodes).pending.NotStranded := by
    intro hwaiting
    simp [Barrier.new, PendingNodes.new] at hwaiting
  exact Lib.run_induction_meets Barrier.step (P := fun _ _ b => b.pending.NotStranded) hinit
    (fun _ _ _ _ _ hreport h => Barrier.step_notStranded hreport h) ops hreports

/-- The early release of a two-daemon dataflow, with a connection that works. -/
theorem barrier_never_strands_early_release :
    (Lib.run Barrier.step (.new "df" true)
      [.insert ⟨"a"⟩, .externalAllNodesReady [], .nodeSubscription ⟨"a"⟩ (some (.ok ()))]
      ).1.pending.NotStranded := by
  apply barrier_never_strands
  refine ⟨nofun, nofun, ?_, trivial⟩
  intro sender hsender _
  cases hsender
  rfl

/-- The same release with the connection gone: the report fails before the latched verdict is looked
at, and the subscriber is parked for good. -/
theorem late_subscriber_stranded_by_lost_report :
    ¬(Lib.run Barrier.step (.new "df" true)
      [.insert ⟨"a"⟩, .externalAllNodesReady [], .nodeSubscription ⟨"a"⟩ none]
      ).1.pending.NotStranded := by
  unfold PendingNodes.NotStranded
  decide

end Dora
