import Dora.Daemon.PendingBarrier

/-!
# Agreement of the startup verdicts

Every operation on the barrier first edits its sets (`prepare`) and then answers either nobody or
everybody who is parked (`Answered`). From that follow, over whole runs, who may be blamed for a failed
startup, who may be answered with it, and that the answers agree as long as nobody dies between them.
-/

namespace Dora

open Std

namespace PendingNodes

def prepare (p : PendingNodes) (reply : Nat) : PendingOp → PendingNodes
  | .insert nodeId => p.insert nodeId
  | .nodeSubscription nodeId _ =>
    { p with
      waitingSubscribers := p.waitingSubscribers.insert nodeId reply
      localNodes := p.localNodes.erase nodeId }
  | .nodeStop nodeId _ =>
    if p.localNodes.contains nodeId then
      { p with
        localNodes := p.localNodes.erase nodeId
        exitedBeforeSubscribe := p.exitedBeforeSubscribe ++ [nodeId] }
    else p
  | .nodeRemoval nodeId _ =>
    { p with
      localNodes := p.localNodes.erase nodeId
      cohort := p.cohort.erase nodeId
      waitingSubscribers := p.waitingSubscribers.erase nodeId
      exitedBeforeSubscribe := p.exitedBeforeSubscribe.filter (· ≠ nodeId) }
  | .dataflowStop _ _ => p
  | .externalAllNodesReady exited => { p with externalReady := some exited }

/-- From `p` to `p'` nobody was answered, or everybody who was parked, against one verdict. -/
structure Answered (p p' : PendingNodes) (answers : List SubscribeAnswer) : Prop where
  id_eq : p'.dataflowId = p.dataflowId
  external_eq : p'.externalNodes = p.externalNodes
  cohort_eq : p'.cohort = p.cohort
  exited_eq : p'.exitedBeforeSubscribe = p.exitedBeforeSubscribe
  ready_eq : p'.externalReady = p.externalReady
  local_subset : ∀ nodeId ∈ p'.localNodes, nodeId ∈ p.localNodes
  replies : answers = [] ∧ p'.waitingSubscribers = p.waitingSubscribers ∨
    p'.waitingSubscribers = ∅ ∧ ∃ exitedExternal,
      (exitedExternal = [] ∨ p.externalReady = some exitedExternal) ∧
      answers = p.waitingSubscribers.toList.map (p.answerFor exitedExternal)

theorem Answered.refl (p : PendingNodes) : Answered p p [] where
  id_eq := rfl
  external_eq := rfl
  cohort_eq := rfl
  exited_eq := rfl
  ready_eq := rfl
  local_subset _ h := h
  replies := .inl ⟨rfl, rfl⟩

theorem updateDataflowStatus_answered (p : PendingNodes) (sender : CoordinatorSender) :
    Answered p (p.updateDataflowStatus sender).1 (p.updateDataflowStatus sender).2.answers := by
  generalize hresult : p.updateDataflowStatus sender = result
  have hspec : UpdateSpec p sender result := hresult ▸ p.updateDataflowStatus_spec sender
  cases hspec with
  | parked p' outcome reported hreported hstate hanswers =>
    subst hstate
    exact ⟨rfl, rfl, rfl, rfl, rfl, fun _ h => h, .inl ⟨hanswers, rfl⟩⟩
  | released p' outcome reported exitedExternal hreported hstate hanswers hverdict =>
    subst hstate
    exact ⟨rfl, rfl, rfl, rfl, rfl, fun _ h => h, .inr ⟨rfl, exitedExternal, hverdict, hanswers⟩⟩

variable {answers : List SubscribeAnswer} {p p' : PendingNodes}

theorem Answered.answerFor_eq (h : Answered p p' answers) (exitedExternal : List NodeId) :
    p'.answerFor exitedExternal = p.answerFor exitedExternal := by
  funext entry
  simp only [answerFor, causingNode, startupFailure, h.id_eq, h.cohort_eq, h.exited_eq]

theorem Answered.trans {p'' : PendingNodes} {first second : List SubscribeAnswer}
    (h : Answered p p' first) (h' : Answered p' p'' second) :
    Answered p p'' (first ++ second) where
  id_eq := h'.id_eq.trans h.id_eq
  external_eq := h'.external_eq.trans h.external_eq
  cohort_eq := h'.cohort_eq.trans h.cohort_eq
  exited_eq := h'.exited_eq.trans h.exited_eq
  ready_eq := h'.ready_eq.trans h.ready_eq
  local_subset nodeId hmem := h.local_subset nodeId (h'.local_subset nodeId hmem)
  replies := by
    rcases h.replies with ⟨rfl, hwait⟩ | ⟨hwait, hfirst⟩
    · rcases h'.replies with ⟨rfl, hwait'⟩ | ⟨hwait', exitedExternal, hverdict, rfl⟩
      · exact .inl ⟨rfl, hwait'.trans hwait⟩
      · rw [h.ready_eq] at hverdict
        rw [hwait, h.answerFor_eq]
        exact .inr ⟨hwait', exitedExternal, hverdict, rfl⟩
    · rcases h'.replies with ⟨rfl, hwait'⟩ | ⟨hwait', exitedExternal, -, rfl⟩
      · rw [List.append_nil]
        exact .inr ⟨hwait'.trans hwait, hfirst⟩
      · have hnil : p'.waitingSubscribers.toList = [] := by rw [hwait]; rfl
        rw [hnil, List.map_nil, List.append_nil]
        exact .inr ⟨hwait', hfirst⟩

theorem dropPendingNodes_answered (p : PendingNodes) (sender : CoordinatorSender)
    (nodes : List NodeId) :
    Answered p (p.dropPendingNodes sender nodes).1
      (p.dropPendingNodes sender nodes).2.answers := by
  induction nodes generalizing p with
  | nil => exact .refl p
  | cons nodeId rest ih =>
    unfold dropPendingNodes
    split
    · have hdrop : Answered p { p with localNodes := p.localNodes.erase nodeId } [] :=
        ⟨rfl, rfl, rfl, rfl, rfl, fun _ hmem => TreeSet.mem_of_mem_erase hmem, .inl ⟨rfl, rfl⟩⟩
      have hupdate := hdrop.trans (updateDataflowStatus_answered _ sender)
      simp only
      split
      · exact hupdate
      · exact hupdate.trans (ih _)
    · exact ih p

theorem apply_answered (p : PendingNodes) (reply : Nat) (op : PendingOp) :
    Answered (p.prepare reply op) (p.apply reply op).1 (p.apply reply op).2.answers := by
  cases op with
  | insert => exact .refl _
  | nodeSubscription nodeId sender | nodeRemoval nodeId sender =>
    exact updateDataflowStatus_answered _ sender
  | nodeStop nodeId sender =>
    simp only [prepare, apply, handleNodeStop]
    split
    · exact updateDataflowStatus_answered _ sender
    · exact .refl _
  | dataflowStop dynamicNodes sender => exact dropPendingNodes_answered _ sender _
  | externalAllNodesReady exited =>
    exact ⟨rfl, rfl, rfl, rfl, rfl, fun _ h => h, .inr ⟨rfl, exited, .inr rfl, rfl⟩⟩

theorem answerFor_error {exitedExternal : List NodeId} {entry : NodeId × Nat}
    {err : String} (h : (p.answerFor exitedExternal entry).result = .error err) :
    entry.1 ∈ p.cohort ∧ (p.exitedBeforeSubscribe ≠ [] ∨ exitedExternal ≠ []) := by
  simp only [answerFor] at h
  split at h
  · rename_i causing hcausing
    split at h
    · rename_i hmem
      refine ⟨TreeSet.contains_iff_mem.mp hmem, ?_⟩
      by_contra hnone
      push Not at hnone
      simp [causingNode, hnone.1, hnone.2] at hcausing
    · cases h
  · cases h

theorem Answered.mem_answers
    (h : Answered p p' answers) {answer : SubscribeAnswer} (hanswer : answer ∈ answers) :
    p'.waitingSubscribers = ∅ ∧ p.waitingSubscribers[answer.nodeId]? = some answer.reply := by
  rcases h.replies with ⟨rfl, -⟩ | ⟨hwait, exitedExternal, -, rfl⟩
  · cases hanswer
  · obtain ⟨entry, hentry, rfl⟩ := List.mem_map.mp hanswer
    exact ⟨hwait, TreeMap.mem_toList_iff_getElem?_eq_some.mp hentry⟩

theorem Answered.error
    (h : Answered p p' answers) {answer : SubscribeAnswer} (hanswer : answer ∈ answers)
    {err : String} (herr : answer.result = .error err) :
    answer.nodeId ∈ p.cohort ∧ (p.exitedBeforeSubscribe ≠ [] ∨ p.externalReady ≠ some []) := by
  rcases h.replies with ⟨rfl, -⟩ | ⟨-, exitedExternal, hverdict, rfl⟩
  · cases hanswer
  · obtain ⟨entry, -, rfl⟩ := List.mem_map.mp hanswer
    obtain ⟨hcohort, hexited | hexternal⟩ := answerFor_error herr
    · exact ⟨hcohort, .inl hexited⟩
    · have hready := hverdict.resolve_left hexternal
      exact ⟨hcohort, .inr (by simpa [hready] using hexternal)⟩

theorem Answered.nodup (h : Answered p p' answers)
    (hinj : ∀ (n m : NodeId) (reply : Nat), p.waitingSubscribers[n]? = some reply →
      p.waitingSubscribers[m]? = some reply → n = m) :
    (answers.map SubscribeAnswer.reply).Nodup := by
  rcases h.replies with ⟨rfl, -⟩ | ⟨-, exitedExternal, -, rfl⟩
  · exact List.nodup_nil
  · rw [List.map_map]
    have hdistinct := TreeMap.distinct_keys_toList (t := p.waitingSubscribers)
    refine List.Pairwise.map _ (fun _ _ hne => hne) (List.Pairwise.imp_of_mem ?_ hdistinct)
    intro first second hfirst hsecond hkeys heq
    have hreply : first.2 = second.2 := heq
    have hfirst' := TreeMap.mem_toList_iff_getElem?_eq_some.mp hfirst
    have hsecond' := TreeMap.mem_toList_iff_getElem?_eq_some.mp hsecond
    rw [hreply] at hfirst'
    exact hkeys (LawfulEqCmp.compare_eq_iff_eq.mpr (hinj _ _ _ hfirst' hsecond'))

theorem updateDataflowStatus_ready {sender : CoordinatorSender} (hexternal : p.externalNodes = true)
    (hstatus : (p.updateDataflowStatus sender).2.status = .ok (some .allNodesReady)) :
    p.exitedBeforeSubscribe = [] ∧ p.externalReady = some [] := by
  generalize hresult : p.updateDataflowStatus sender = result at hstatus
  have hspec : UpdateSpec p sender result := hresult ▸ p.updateDataflowStatus_spec sender
  cases hspec with
  | parked p' outcome reported hreported hstate hanswers hnot =>
    exact absurd hstatus hnot
  | released p' outcome reported exitedExternal hreported hstate hanswers hverdict hready =>
    obtain ⟨hlatched, hclean⟩ := hready hexternal
    obtain ⟨rfl, hexited⟩ := hclean hstatus
    exact ⟨hexited, hlatched⟩

theorem dropPendingNodes_status (p : PendingNodes) (sender : CoordinatorSender)
    (nodes : List NodeId) :
    (p.dropPendingNodes sender nodes).2.status ≠ .ok (some .allNodesReady) := by
  induction nodes generalizing p with
  | nil => simp [dropPendingNodes]
  | cons nodeId rest ih =>
    unfold dropPendingNodes
    split
    · simp only
      split
      · rename_i err herr
        simp [herr]
      · exact ih _
    · exact ih p

theorem apply_ready {reply : Nat} {op : PendingOp}
    (hexternal : p.externalNodes = true ∨ ∃ exited, op = .externalAllNodesReady exited)
    (hstatus : (p.apply reply op).2.status = .ok (some .allNodesReady)) :
    (p.prepare reply op).exitedBeforeSubscribe = [] ∧
      (p.prepare reply op).externalReady = some [] := by
  cases op with
  | insert => cases hstatus
  | nodeSubscription | nodeRemoval =>
    exact updateDataflowStatus_ready (hexternal.resolve_right (by simp)) hstatus
  | nodeStop nodeId sender =>
    simp only [prepare, apply, handleNodeStop] at hstatus ⊢
    split at hstatus
    · rename_i hpending
      rw [if_pos hpending]
      exact updateDataflowStatus_ready (hexternal.resolve_right (by simp)) hstatus
    · cases hstatus
  | dataflowStop => exact absurd hstatus (dropPendingNodes_status _ _ _)
  | externalAllNodesReady =>
    obtain ⟨rfl, hexited⟩ := release_status hstatus
    exact ⟨hexited, rfl⟩

end PendingNodes

/-- The operation ends `nodeId`'s wait: it subscribes, dies or is removed. -/
def PendingOp.settles (nodeId : NodeId) : PendingOp → Bool
  | .nodeSubscription n _ | .nodeStop n _ | .nodeRemoval n _ => n = nodeId
  | .insert _ | .dataflowStop _ _ | .externalAllNodesReady _ => false

/-- Before the call at time `t` the node was enrolled in the cohort and has since neither
subscribed nor died nor been removed. -/
def Awaited (ops : List PendingOp) (t : Nat) (nodeId : NodeId) : Prop :=
  ∃ t₀ < t, ops[t₀]? = some (.insert nodeId) ∧
    ∀ u op, t₀ < u → u < t → ops[u]? = some op → op.settles nodeId = false

def DiedBeforeSubscribing (ops : List PendingOp) (nodeId : NodeId) : Prop :=
  ∃ t sender, ops[t]? = some (.nodeStop nodeId sender) ∧ Awaited ops t nodeId ∧
    ∀ u sender', t < u → ops[u]? ≠ some (.nodeRemoval nodeId sender')

variable {op : PendingOp} {ops : List PendingOp}

theorem Awaited.concat {t : Nat} {nodeId : NodeId}
    (h : Awaited ops t nodeId) (ht : t ≤ ops.length) : Awaited (ops ++ [op]) t nodeId := by
  obtain ⟨t₀, hlt, hins, hquiet⟩ := h
  refine ⟨t₀, hlt, Lib.getElem?_concat_of_some hins, fun u op' hu hut hop => ?_⟩
  rw [List.getElem?_append_left (by omega)] at hop
  exact hquiet u op' hu hut hop

theorem Awaited.step {nodeId : NodeId}
    (h : Awaited ops ops.length nodeId) (hquiet : op.settles nodeId = false) :
    Awaited (ops ++ [op]) (ops ++ [op]).length nodeId := by
  obtain ⟨t₀, hlt, hins, hold⟩ := h
  refine ⟨t₀, by simp; omega, Lib.getElem?_concat_of_some hins, fun u op' hu hut hop => ?_⟩
  rcases Lib.getElem?_concat_cases hop with hop | ⟨rfl, rfl⟩
  · exact hold u op' hu (List.getElem?_eq_some_iff.mp hop).1 hop
  · exact hquiet

theorem Awaited.of_insert (ops : List PendingOp) (nodeId : NodeId) :
    Awaited (ops ++ [PendingOp.insert nodeId]) (ops ++ [PendingOp.insert nodeId]).length nodeId := by
  refine ⟨ops.length, by simp, List.getElem?_concat_length, fun u op hu hut _ => ?_⟩
  simp only [List.length_append, List.length_singleton] at hut
  omega

theorem DiedBeforeSubscribing.concat {nodeId : NodeId}
    (h : DiedBeforeSubscribing ops nodeId) (hkept : ∀ sender, op ≠ .nodeRemoval nodeId sender) :
    DiedBeforeSubscribing (ops ++ [op]) nodeId := by
  obtain ⟨t, sender, hstop, hawaited, hsince⟩ := h
  have ht := (List.getElem?_eq_some_iff.mp hstop).1
  refine ⟨t, sender, Lib.getElem?_concat_of_some hstop, hawaited.concat ht.le, fun u sender' hu hop => ?_⟩
  rcases Lib.getElem?_concat_cases hop with hop | ⟨-, rfl⟩
  · exact hsince u sender' hu hop
  · exact hkept sender' rfl

section Prepare

variable {p : PendingNodes} {reply : Nat} {op : PendingOp} {nodeId : NodeId}

theorem mem_prepare_localNodes (h : nodeId ∈ (p.prepare reply op).localNodes) :
    nodeId ∈ p.localNodes ∧ op.settles nodeId = false ∨ op = .insert nodeId := by
  cases op with
  | insert =>
    simp only [PendingNodes.prepare, PendingNodes.insert, TreeSet.mem_insert,
      LawfulEqCmp.compare_eq_iff_eq] at h
    rcases h with rfl | h
    · exact .inr rfl
    · exact .inl ⟨h, rfl⟩
  | nodeSubscription | nodeRemoval =>
    simp only [PendingNodes.prepare, TreeSet.mem_erase, ne_eq,
      LawfulEqCmp.compare_eq_iff_eq] at h
    exact .inl ⟨h.2, by simpa [PendingOp.settles] using h.1⟩
  | nodeStop n sender =>
    simp only [PendingNodes.prepare] at h
    split at h
    · simp only [TreeSet.mem_erase, ne_eq, LawfulEqCmp.compare_eq_iff_eq] at h
      exact .inl ⟨h.2, by simpa [PendingOp.settles] using h.1⟩
    · rename_i hnot
      refine .inl ⟨h, ?_⟩
      have hne : n ≠ nodeId := by
        rintro rfl
        exact hnot (TreeSet.contains_iff_mem.mpr h)
      simpa [PendingOp.settles] using hne
  | dataflowStop | externalAllNodesReady => exact .inl ⟨h, rfl⟩

theorem mem_prepare_cohort (h : nodeId ∈ (p.prepare reply op).cohort) :
    nodeId ∈ p.cohort ∨ op = .insert nodeId := by
  cases op with
  | insert =>
    simp only [PendingNodes.prepare, PendingNodes.insert, TreeSet.mem_insert,
      LawfulEqCmp.compare_eq_iff_eq] at h
    rcases h with rfl | h
    · exact .inr rfl
    · exact .inl h
  | nodeStop =>
    simp only [PendingNodes.prepare] at h
    split at h <;> exact .inl h
  | nodeRemoval => exact .inl (TreeSet.mem_of_mem_erase h)
  | _ => exact .inl h

theorem mem_prepare_exited (h : nodeId ∈ (p.prepare reply op).exitedBeforeSubscribe) :
    nodeId ∈ p.exitedBeforeSubscribe ∧ (∀ sender, op ≠ .nodeRemoval nodeId sender) ∨
      nodeId ∈ p.localNodes ∧ ∃ sender, op = .nodeStop nodeId sender := by
  cases op with
  | nodeStop n sender =>
    simp only [PendingNodes.prepare] at h
    split at h
    · rename_i hpending
      rw [List.mem_append, List.mem_singleton] at h
      rcases h with h | rfl
      · exact .inl ⟨h, nofun⟩
      · exact .inr ⟨TreeSet.contains_iff_mem.mp hpending, sender, rfl⟩
    · exact .inl ⟨h, nofun⟩
  | nodeRemoval =>
    simp only [PendingNodes.prepare, List.mem_filter, decide_eq_true_eq] at h
    refine .inl ⟨h.1, ?_⟩
    rintro sender' heq
    cases heq
    exact h.2 rfl
  | _ => exact .inl ⟨h, nofun⟩

theorem prepare_waitingSubscribers {r : Nat}
    (h : (p.prepare reply op).waitingSubscribers[nodeId]? = some r) :
    p.waitingSubscribers[nodeId]? = some r ∨
      r = reply ∧ ∃ sender, op = .nodeSubscription nodeId sender := by
  cases op with
  | nodeSubscription n sender =>
    simp only [PendingNodes.prepare, TreeMap.getElem?_insert,
      LawfulEqCmp.compare_eq_iff_eq] at h
    split at h
    · rename_i heq
      exact .inr ⟨(Option.some.inj h).symm, sender, by rw [heq]⟩
    · exact .inl h
  | nodeStop =>
    simp only [PendingNodes.prepare] at h
    split at h <;> exact .inl h
  | nodeRemoval =>
    simp only [PendingNodes.prepare, TreeMap.getElem?_erase] at h
    split at h
    · cases h
    · exact .inl h
  | _ => exact .inl h

theorem prepare_externalNodes : (p.prepare reply op).externalNodes = p.externalNodes := by
  cases op with
  | nodeStop =>
    simp only [PendingNodes.prepare]
    split <;> rfl
  | _ => rfl

theorem prepare_clean (hexited : p.exitedBeforeSubscribe = []) (hready : p.externalReady = some []) :
    (p.prepare reply op).exitedBeforeSubscribe = [] ∧
        (p.prepare reply op).externalReady = some [] ∨
      (∃ nodeId ∈ p.localNodes, ∃ sender, op = .nodeStop nodeId sender) ∨
      ∃ exited, exited ≠ [] ∧ op = .externalAllNodesReady exited := by
  cases op with
  | nodeStop n sender =>
    simp only [PendingNodes.prepare]
    split
    · rename_i hpending
      exact .inr (.inl ⟨n, TreeSet.contains_iff_mem.mp hpending, sender, rfl⟩)
    · exact .inl ⟨hexited, hready⟩
  | nodeRemoval => exact .inl ⟨by simp [PendingNodes.prepare, hexited], hready⟩
  | externalAllNodesReady exited =>
    by_cases hnil : exited = []
    · subst hnil
      exact .inl ⟨hexited, rfl⟩
    · exact .inr (.inr ⟨exited, hnil, rfl⟩)
  | _ => exact .inl ⟨hexited, hready⟩

end Prepare

def allAnswers (outs : List BarrierOutcome) : List SubscribeAnswer :=
  outs.flatMap BarrierOutcome.answers

/-- The call at time `t` reported the dataflow ready after a verdict from outside. -/
def ReadyRelease (externalNodes : Bool) (ops : List PendingOp) (outs : List BarrierOutcome)
    (t : Nat) : Prop :=
  (externalNodes = true ∨ ∃ exited, ops[t]? = some (.externalAllNodesReady exited)) ∧
    ∃ out, outs[t]? = some out ∧ out.status = .ok (some .allNodesReady)

/-- The call at time `t` is the death of an awaited node or a verdict that names dead nodes. -/
def BringsFailure (ops : List PendingOp) (t : Nat) : Prop :=
  (∃ nodeId sender, ops[t]? = some (.nodeStop nodeId sender) ∧ Awaited ops t nodeId) ∨
    ∃ exited, exited ≠ [] ∧ ops[t]? = some (.externalAllNodesReady exited)

structure VerdictsAgree (externalNodes : Bool) (ops : List PendingOp)
    (outs : List BarrierOutcome) (p : PendingNodes) : Prop where
  /-- whoever is blamed died while it was awaited, and was not removed -/
  blamed : ∀ nodeId ∈ p.exitedBeforeSubscribe, DiedBeforeSubscribing ops nodeId
  /-- only a node that was enrolled in the cohort is answered with an error -/
  confined : ∀ (t : Nat) (out : BarrierOutcome), outs[t]? = some out → ∀ answer ∈ out.answers,
    ∀ err, answer.result = .error err → ∃ t₀ ≤ t, ops[t₀]? = some (.insert answer.nodeId)
  /-- every answer is for one subscribe request of its node -/
  addressed : ∀ answer ∈ allAnswers outs,
    ∃ sender, ops[answer.reply]? = some (.nodeSubscription answer.nodeId sender)
  /-- no request is answered twice -/
  once : ((allAnswers outs).map SubscribeAnswer.reply).Nodup
  /-- a call that reports the dataflow ready after a verdict answers everybody with `Ok` -/
  ready : ∀ t out, ReadyRelease externalNodes ops outs t → outs[t]? = some out →
    ∀ answer ∈ out.answers, answer.result = .ok ()
  /-- after such a call an error needs a new failure -/
  consistent : ∀ (t t' : Nat) (out : BarrierOutcome), ReadyRelease externalNodes ops outs t →
    t < t' → outs[t']? = some out → ∀ answer ∈ out.answers, ∀ err, answer.result = .error err →
    ∃ u, t < u ∧ u ≤ t' ∧ BringsFailure ops u

/-- The bookkeeping that carries `VerdictsAgree` through a run. -/
structure BarrierHistory (externalNodes : Bool) (ops : List PendingOp)
    (outs : List BarrierOutcome) (b : Barrier) : Prop where
  agree : VerdictsAgree externalNodes ops outs b.pending
  external_eq : b.pending.externalNodes = externalNodes
  calls_eq : b.calls = ops.length
  awaited : ∀ nodeId ∈ b.pending.localNodes, Awaited ops ops.length nodeId
  enrolled : ∀ nodeId ∈ b.pending.cohort, ∃ t₀ < ops.length, ops[t₀]? = some (.insert nodeId)
  parked : ∀ (nodeId : NodeId) (reply : Nat), b.pending.waitingSubscribers[nodeId]? = some reply →
    (∃ sender, ops[reply]? = some (.nodeSubscription nodeId sender)) ∧
      ∀ answer ∈ allAnswers outs, answer.reply ≠ reply
  clean : ∀ t, ReadyRelease externalNodes ops outs t →
    b.pending.exitedBeforeSubscribe = [] ∧ b.pending.externalReady = some [] ∨
      ∃ u, t < u ∧ u < ops.length ∧ BringsFailure ops u

theorem BringsFailure.concat {t : Nat} (h : BringsFailure ops t) : BringsFailure (ops ++ [op]) t := by
  rcases h with ⟨nodeId, sender, hop, hawaited⟩ | ⟨exited, hexited, hop⟩
  · have ht := (List.getElem?_eq_some_iff.mp hop).1
    exact .inl ⟨nodeId, sender, Lib.getElem?_concat_of_some hop, hawaited.concat ht.le⟩
  · exact .inr ⟨exited, hexited, Lib.getElem?_concat_of_some hop⟩

theorem mem_allAnswers_concat {outs : List BarrierOutcome} {out : BarrierOutcome}
    {answer : SubscribeAnswer} :
    answer ∈ allAnswers (outs ++ [out]) ↔ answer ∈ allAnswers outs ∨ answer ∈ out.answers := by
  simp [allAnswers]

namespace BarrierHistory

variable {externalNodes : Bool} {ops : List PendingOp} {outs : List BarrierOutcome} {b : Barrier}

/-- A call that spoils a clean slate is a failure in the sense of `BringsFailure`. -/
theorem bringsFailure (h : BarrierHistory externalNodes ops outs b) {op : PendingOp}
    (hspoils : (∃ nodeId ∈ b.pending.localNodes, ∃ sender, op = .nodeStop nodeId sender) ∨
      ∃ exited, exited ≠ [] ∧ op = .externalAllNodesReady exited) :
    BringsFailure (ops ++ [op]) ops.length := by
  rcases hspoils with ⟨nodeId, hlocal, sender, rfl⟩ | ⟨exited, hexited, rfl⟩
  · refine .inl ⟨nodeId, sender, List.getElem?_concat_length, ?_⟩
    exact (h.awaited nodeId hlocal).concat le_rfl
  · exact .inr ⟨exited, hexited, List.getElem?_concat_length⟩

theorem parked_prepare (h : BarrierHistory externalNodes ops outs b) {op : PendingOp}
    {nodeId : NodeId} {reply : Nat}
    (hparked : (b.pending.prepare b.calls op).waitingSubscribers[nodeId]? = some reply) :
    (∃ sender, (ops ++ [op])[reply]? = some (.nodeSubscription nodeId sender)) ∧
      ∀ answer ∈ allAnswers outs, answer.reply ≠ reply := by
  rcases prepare_waitingSubscribers hparked with hold | ⟨rfl, sender, rfl⟩
  · obtain ⟨⟨sender, hop⟩, hfresh⟩ := h.parked nodeId reply hold
    exact ⟨⟨sender, Lib.getElem?_concat_of_some hop⟩, hfresh⟩
  · rw [h.calls_eq]
    refine ⟨⟨sender, List.getElem?_concat_length⟩, fun answer hanswer heq => ?_⟩
    obtain ⟨sender', hop⟩ := h.agree.addressed answer hanswer
    have hlt := (List.getElem?_eq_some_iff.mp hop).1
    omega

theorem clean_step (h : BarrierHistory externalNodes ops outs b) (op : PendingOp)
    (hlen : outs.length = ops.length) {t : Nat}
    (hrelease : ReadyRelease externalNodes (ops ++ [op]) (outs ++ [(b.step op).2]) t) :
    (b.pending.prepare b.calls op).exitedBeforeSubscribe = [] ∧
        (b.pending.prepare b.calls op).externalReady = some [] ∨
      ∃ u, t < u ∧ u ≤ ops.length ∧ BringsFailure (ops ++ [op]) u := by
  obtain ⟨hpath, out, hout, hstatus⟩ := hrelease
  rcases Lib.getElem?_concat_cases hout with hold | ⟨rfl, rfl⟩
  · have ht : t < ops.length := hlen ▸ (List.getElem?_eq_some_iff.mp hold).1
    have hpath' : externalNodes = true ∨ ∃ exited, ops[t]? = some (.externalAllNodesReady exited) := by
      rwa [List.getElem?_append_left ht] at hpath
    rcases h.clean t ⟨hpath', out, hold, hstatus⟩ with ⟨hexited, hready⟩ | ⟨u, htu, hu, hfail⟩
    · rcases prepare_clean hexited hready with hclean | hspoils
      · exact .inl hclean
      · exact .inr ⟨ops.length, ht, le_rfl, h.bringsFailure hspoils⟩
    · exact .inr ⟨u, htu, hu.le, hfail.concat⟩
  · refine .inl (PendingNodes.apply_ready ?_ hstatus)
    rw [h.external_eq]
    rw [hlen, List.getElem?_concat_length] at hpath
    simpa using hpath

theorem agree_step (h : BarrierHistory externalNodes ops outs b) (op : PendingOp)
    (hlen : outs.length = ops.length) :
    VerdictsAgree externalNodes (ops ++ [op]) (outs ++ [(b.step op).2]) (b.step op).1.pending := by
  have ha : PendingNodes.Answered (b.pending.prepare b.calls op) (b.step op).1.pending
      (b.step op).2.answers := PendingNodes.apply_answered b.pending b.calls op
  refine ⟨?blamed, ?confined, ?addressed, ?once, ?ready, ?consistent⟩
  case blamed =>
    intro nodeId hmem
    rw [ha.exited_eq] at hmem
    rcases mem_prepare_exited hmem with ⟨hold, hkept⟩ | ⟨hlocal, sender, rfl⟩
    · exact (h.agree.blamed nodeId hold).concat hkept
    · refine ⟨ops.length, sender, List.getElem?_concat_length,
        (h.awaited nodeId hlocal).concat le_rfl, fun u sender' hu hop => ?_⟩
      have hlt := (List.getElem?_eq_some_iff.mp hop).1
      simp only [List.length_append, List.length_singleton] at hlt
      omega
  case confined =>
    intro t out hout answer hanswer err herr
    rcases Lib.getElem?_concat_cases hout with hold | ⟨rfl, rfl⟩
    · obtain ⟨t₀, ht₀, hop⟩ := h.agree.confined t out hold answer hanswer err herr
      exact ⟨t₀, ht₀, Lib.getElem?_concat_of_some hop⟩
    · rcases mem_prepare_cohort (ha.error hanswer herr).1 with hcohort | rfl
      · obtain ⟨t₀, ht₀, hop⟩ := h.enrolled answer.nodeId hcohort
        exact ⟨t₀, by omega, Lib.getElem?_concat_of_some hop⟩
      · exact ⟨ops.length, hlen.ge, List.getElem?_concat_length⟩
  case addressed =>
    intro answer hanswer
    rcases mem_allAnswers_concat.mp hanswer with hold | hnew
    · obtain ⟨sender, hop⟩ := h.agree.addressed answer hold
      exact ⟨sender, Lib.getElem?_concat_of_some hop⟩
    · exact (h.parked_prepare (ha.mem_answers hnew).2).1
  case once =>
    have hinj : ∀ (n m : NodeId) (reply : Nat),
        (b.pending.prepare b.calls op).waitingSubscribers[n]? = some reply →
        (b.pending.prepare b.calls op).waitingSubscribers[m]? = some reply → n = m := by
      intro n m reply hn hm
      obtain ⟨⟨sender, hop⟩, -⟩ := h.parked_prepare hn
      obtain ⟨⟨sender', hop'⟩, -⟩ := h.parked_prepare hm
      rw [hop] at hop'
      cases hop'
      rfl
    have happend : allAnswers (outs ++ [(b.step op).2]) = allAnswers outs ++ (b.step op).2.answers := by
      simp [allAnswers]
    rw [happend, List.map_append]
    refine h.agree.once.append (ha.nodup hinj) ?_
    intro reply hold hnew
    obtain ⟨answer, hanswer, rfl⟩ := List.mem_map.mp hold
    obtain ⟨answer', hanswer', heq⟩ := List.mem_map.mp hnew
    exact (h.parked_prepare (ha.mem_answers hanswer').2).2 answer hanswer heq.symm
  case ready =>
    intro t out hrelease hout answer hanswer
    rcases Lib.getElem?_concat_cases hout with hold | ⟨rfl, rfl⟩
    · obtain ⟨hpath, out', hout', hstatus⟩ := hrelease
      have ht : t < ops.length := hlen ▸ (List.getElem?_eq_some_iff.mp hold).1
      rw [List.getElem?_append_left ht] at hpath
      rw [List.getElem?_append_left (hlen ▸ ht)] at hout'
      exact h.agree.ready t out ⟨hpath, out', hout', hstatus⟩ hold answer hanswer
    · cases hresult : answer.result with
      | ok => rfl
      | error =>
        rcases h.clean_step op hlen hrelease with ⟨hexited, hready⟩ | ⟨u, hlt, hle, -⟩
        · rcases (ha.error hanswer hresult).2 with hne | hne
          · exact absurd hexited hne
          · exact absurd hready hne
        · omega
  case consistent =>
    intro t t' out hrelease htt' hout answer hanswer err herr
    rcases Lib.getElem?_concat_cases hout with hold | ⟨rfl, rfl⟩
    · obtain ⟨hpath, out', hout', hstatus⟩ := hrelease
      have ht' : t' < ops.length := hlen ▸ (List.getElem?_eq_some_iff.mp hold).1
      rw [List.getElem?_append_left (htt'.trans ht')] at hpath
      rw [List.getElem?_append_left (by omega)] at hout'
      obtain ⟨u, htu, hut', hfail⟩ :=
        h.agree.consistent t t' out ⟨hpath, out', hout', hstatus⟩ htt' hold answer hanswer err herr
      exact ⟨u, htu, hut', hfail.concat⟩
    · rcases h.clean_step op hlen hrelease with ⟨hexited, hready⟩ | ⟨u, htu, hle, hfail⟩
      · rcases (ha.error hanswer herr).2 with hne | hne
        · exact absurd hexited hne
        · exact absurd hready hne
      · exact ⟨u, htu, hlen ▸ hle, hfail⟩

theorem step (h : BarrierHistory externalNodes ops outs b) (op : PendingOp)
    (hlen : outs.length = ops.length) :
    BarrierHistory externalNodes (ops ++ [op]) (outs ++ [(b.step op).2]) (b.step op).1 := by
  have ha : PendingNodes.Answered (b.pending.prepare b.calls op) (b.step op).1.pending
      (b.step op).2.answers := PendingNodes.apply_answered b.pending b.calls op
  refine ⟨h.agree_step op hlen, ?_, ?_, ?awaited, ?enrolled, ?parked, ?clean⟩
  · exact ha.external_eq.trans (prepare_externalNodes.trans h.external_eq)
  · simp [Barrier.step, h.calls_eq]
  case awaited =>
    intro nodeId hmem
    rcases mem_prepare_localNodes (ha.local_subset nodeId hmem) with ⟨hold, hquiet⟩ | rfl
    · exact (h.awaited nodeId hold).step hquiet
    · exact Awaited.of_insert ops nodeId
  case enrolled =>
    intro nodeId hmem
    rw [ha.cohort_eq] at hmem
    rcases mem_prepare_cohort hmem with hold | rfl
    · obtain ⟨t₀, ht₀, hop⟩ := h.enrolled nodeId hold
      exact ⟨t₀, by simp; omega, Lib.getElem?_concat_of_some hop⟩
    · exact ⟨ops.length, by simp, List.getElem?_concat_length⟩
  case parked =>
    intro nodeId reply hparked
    rcases ha.replies with ⟨hnil, hwait⟩ | ⟨hwait, -⟩
    · rw [hwait] at hparked
      obtain ⟨hop, hfresh⟩ := h.parked_prepare hparked
      refine ⟨hop, fun answer hanswer => ?_⟩
      rcases mem_allAnswers_concat.mp hanswer with hold | hnew
      · exact hfresh answer hold
      · rw [hnil] at hnew
        cases hnew
    · rw [hwait] at hparked
      cases hparked
  case clean =>
    intro t hrelease
    rw [ha.exited_eq, ha.ready_eq]
    rcases h.clean_step op hlen hrelease with hclean | ⟨u, htu, hle, hfail⟩
    · exact .inl hclean
    · exact .inr ⟨u, htu, by simp; omega, hfail⟩

theorem init (dataflowId : String) (externalNodes : Bool) :
    BarrierHistory externalNodes [] [] (Barrier.new dataflowId externalNodes) where
  agree :=
    { blamed := by simp [Barrier.new, PendingNodes.new]
      confined := by simp
      addressed := by simp [allAnswers]
      once := by simp [allAnswers]
      ready := by simp
      consistent := by simp }
  external_eq := rfl
  calls_eq := rfl
  awaited := by simp [Barrier.new, PendingNodes.new]
  enrolled := by simp [Barrier.new, PendingNodes.new]
  parked := by simp [Barrier.new, PendingNodes.new]
  clean := by simp [ReadyRelease]

end BarrierHistory

/-- In every run of the barrier the verdicts agree: who is blamed died while the cohort waited for
it, only cohort members are answered with an error, every request is answered at most once, a release
that reports the dataflow ready answers everybody with `Ok`, and after such a release an error is
answered only if somebody has failed since. -/
theorem barrier_verdicts_agree (dataflowId : String) (externalNodes : Bool) (ops : List PendingOp) :
    VerdictsAgree externalNodes ops (Lib.run Barrier.step (Barrier.new dataflowId externalNodes) ops).2
      (Lib.run Barrier.step (Barrier.new dataflowId externalNodes) ops).1.pending :=
  (Lib.run_induction Barrier.step (P := BarrierHistory externalNodes)
    (BarrierHistory.init dataflowId externalNodes)
    (fun _ _ _ op hlen h => h.step op hlen) ops).agree

/-- A member dies after the release. The fifth call reports the dataflow ready and answers `a` with
`Ok`; then `b` dies without having subscribed, so it is blamed and `c` is answered with the startup
failure. A member that has subscribed is blamed as well if it is enrolled once more before it dies,
which the calls permit although the daemon enrols a node once. -/
theorem release_then_failure :
    let result := Lib.run Barrier.step (.new "df" true)
      [.insert ⟨"a"⟩, .insert ⟨"b"⟩, .insert ⟨"c"⟩, .nodeSubscription ⟨"a"⟩ none,
        .externalAllNodesReady [], .nodeStop ⟨"b"⟩ none, .nodeSubscription ⟨"c"⟩ (some (.ok ()))]
    (result.1.pending.exitedBeforeSubscribe = [⟨"b"⟩] ∧
      result.2.map (fun out => out.answers.map fun answer => (answer.nodeId, answer.result.isOk)) =
        [[], [], [], [], [(⟨"a"⟩, true)], [], [(⟨"c"⟩, false)]] ∧
      result.2[4]?.map (fun out => out.status.toOption) = some (some (some .allNodesReady))) ∧
    (Lib.run Barrier.step (.new "df" true) [.insert ⟨"a"⟩, .insert ⟨"b"⟩, .nodeSubscription ⟨"b"⟩ none,
      .insert ⟨"b"⟩, .nodeStop ⟨"b"⟩ none]).1.pending.exitedBeforeSubscribe = [⟨"b"⟩] := by
  decide

end Dora
