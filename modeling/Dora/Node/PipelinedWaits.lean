import Dora.Node.SchedulerOverflow
import Dora.Node.StreamConservation

/-!
# Pipelined waits

A wait for a response or a result sets aside what it takes from the stream and does not want. A later
wait looks there first. The events set aside are bounded bucket by bucket: one bucket for each input,
with the scheduler's capacity for it, and one for all control events.
-/

namespace Dora.PipelinedWaits

open Std Lib StreamConservation EventStream

variable {ArrayData Json : Type} (codec : EventCodec ArrayData Json)

/-- The bucket `buffer_passthrough` counts an event against. -/
def bucketOf : Event ArrayData Json → PassthroughBucket
  | .input id _ _ => .input id
  | _ => .nonInput

def capOf (s : Scheduler ArrayData) : PassthroughBucket → Nat
  | .input id => s.effectiveCapFor id
  | .nonInput => NON_INPUT_EVENT_QUEUE_SIZE

def inBucket (bucket : PassthroughBucket) (item : EventItem ArrayData) : Bool :=
  bucket.holds (convertEventItem codec item)

def isStop (item : EventItem ArrayData) : Bool := (convertEventItem codec item).isStop

def isCorrelated (item : EventItem ArrayData) : Bool := (convertEventItem codec item).isCorrelated

theorem capOf_congr {s s' : Scheduler ArrayData} (h : s'.effectiveCapFor = s.effectiveCapFor) :
    capOf s' = capOf s := by
  funext bucket
  cases bucket with
  | input id => exact congrFun h id
  | nonInput => rfl

section Park

variable {codec} {self : EventStream ArrayData} {item : EventItem ArrayData}

theorem holds_iff (bucket : PassthroughBucket) (event : Event ArrayData Json) :
    bucket.holds event = true ↔ bucket = bucketOf event := by
  cases bucket with
  | input =>
    cases event with
    | input =>
      simp only [PassthroughBucket.holds, bucketOf, beq_iff_eq, PassthroughBucket.input.injEq]
      exact eq_comm
    | _ => exact ⟨fun h => absurd h Bool.false_ne_true, nofun⟩
  | nonInput =>
    cases event with
    | input => exact ⟨fun h => absurd h Bool.false_ne_true, nofun⟩
    | _ => exact ⟨fun _ => rfl, fun _ => rfl⟩

theorem bufferPassthrough_eq (self : EventStream ArrayData) (item : EventItem ArrayData) :
    self.bufferPassthrough codec item =
      enforcePassthroughBound codec
        { self with pendingPassthrough := self.pendingPassthrough ++ [item] }
        (bucketOf (convertEventItem codec item))
        (capOf self.scheduler (bucketOf (convertEventItem codec item))) := by
  unfold bufferPassthrough
  cases convertEventItem codec item <;> rfl

variable (codec) in
/-- What setting an event aside does: it stays, with all others, when its bucket has room or holds
nothing but `Stop`s; otherwise one event of its bucket makes room and is counted. The victim is no
`Stop`, and correlated only if all of the bucket are. -/
inductive Parked (self : EventStream ArrayData) (item : EventItem ArrayData)
    (after : EventStream ArrayData) : Prop where
  | kept (hparked : after.pendingPassthrough = self.pendingPassthrough ++ [item])
      (hroom : (self.pendingPassthrough ++ [item]).countP
          (inBucket codec (bucketOf (convertEventItem codec item))) ≤
            capOf self.scheduler (bucketOf (convertEventItem codec item)) ∨
        ∀ e ∈ self.pendingPassthrough ++ [item],
          inBucket codec (bucketOf (convertEventItem codec item)) e = true → isStop codec e = true)
      (hdropped : after.scheduler.dropped = self.scheduler.dropped)
  | evicted (front : List (EventItem ArrayData)) (victim : EventItem ArrayData)
      (back : List (EventItem ArrayData))
      (hsplit : self.pendingPassthrough ++ [item] = front ++ victim :: back)
      (hparked : after.pendingPassthrough = front ++ back)
      (hbucket : inBucket codec (bucketOf (convertEventItem codec item)) victim = true)
      (hstop : isStop codec victim = false)
      (hlast : isCorrelated codec victim = true → ∀ e ∈ front ++ back,
        inBucket codec (bucketOf (convertEventItem codec item)) e = true →
        isStop codec e = true ∨ isCorrelated codec e = true)
      (hdropped : ∀ id, after.scheduler.dropped.getD id 0 = self.scheduler.dropped.getD id 0 +
        if (bucketOf (convertEventItem codec item)).dropId = id then 1 else 0)

theorem evictAt_split {bucket : PassthroughBucket} {pending : List (EventItem ArrayData)} {idx : Nat}
    (h : evictAt codec bucket pending = some idx) :
    ∃ front victim back, pending = front ++ victim :: back ∧ pending.eraseIdx idx = front ++ back ∧
      inBucket codec bucket victim = true ∧ isStop codec victim = false ∧
      (isCorrelated codec victim = true → ∀ e ∈ pending, inBucket codec bucket e = true →
        isStop codec e = true ∨ isCorrelated codec e = true) := by
  unfold evictAt at h
  cases Option.or_eq_some_iff.mp h with
  | inl hordinary =>
    have ⟨front, victim, back, hsplit, herase, _, hvictim, _⟩ := findIdx?_split hordinary
    simp only [Bool.and_eq_true, Bool.not_eq_true'] at hvictim
    refine ⟨front, victim, back, hsplit, herase, hvictim.1.1, hvictim.1.2, fun hcorrelated => ?_⟩
    exact absurd (hvictim.2.symm.trans hcorrelated) Bool.false_ne_true
  | inr hany =>
    have ⟨front, victim, back, hsplit, herase, _, hvictim, _⟩ := findIdx?_split hany.2
    simp only [Bool.and_eq_true, Bool.not_eq_true'] at hvictim
    refine ⟨front, victim, back, hsplit, herase, hvictim.1, hvictim.2, fun _ e he hbucket => ?_⟩
    have hnone := List.findIdx?_eq_none_iff.mp hany.1 e he
    change ((inBucket codec bucket e && !isStop codec e) && !isCorrelated codec e) = false at hnone
    rw [hbucket] at hnone
    cases hstop : isStop codec e <;> cases hcorrelated : isCorrelated codec e <;> simp_all

theorem evictAt_none {bucket : PassthroughBucket} {pending : List (EventItem ArrayData)}
    (h : evictAt codec bucket pending = none) :
    ∀ e ∈ pending, inBucket codec bucket e = true → isStop codec e = true := by
  unfold evictAt at h
  intro e he hbucket
  have hnone := List.findIdx?_eq_none_iff.mp (Option.or_eq_none_iff.mp h).2 e he
  change (inBucket codec bucket e && !isStop codec e) = false at hnone
  rw [hbucket] at hnone
  simpa using hnone

variable (codec) in
theorem bufferPassthrough_parked (self : EventStream ArrayData) (item : EventItem ArrayData) :
    Parked codec self item (self.bufferPassthrough codec item) := by
  rw [bufferPassthrough_eq]
  unfold enforcePassthroughBound
  split
  · rename_i hroom
    exact .kept rfl (.inl hroom) rfl
  · split
    · rename_i hnone
      exact .kept rfl (.inr (evictAt_none hnone)) rfl
    · rename_i idx hidx
      obtain ⟨front, victim, back, hsplit, herase, hbucket, hstop, hlast⟩ := evictAt_split hidx
      refine .evicted front victim back hsplit herase hbucket hstop ?_ fun id =>
        Scheduler.getD_countDrop _ _ id
      intro hcorrelated e he
      refine hlast hcorrelated e ?_
      rw [hsplit]
      exact (List.sublist_cons_self victim back).append_left front |>.subset he

end Park

/-- No bucket holds more than its bound, and a `Stop` is parked at most once, after it was produced. -/
structure Bounded (stream : EventStream ArrayData) : Prop where
  buckets : ∀ bucket, stream.pendingPassthrough.countP (inBucket codec bucket) ≤
    capOf stream.scheduler bucket
  stops : stream.pendingPassthrough.countP (isStop codec) ≤ if stream.stopReceived then 1 else 0

section Bounded

variable {codec} {self after : EventStream ArrayData} {item : EventItem ArrayData}

theorem Bounded.of_sublist (h : Bounded codec self)
    (hparked : after.pendingPassthrough.Sublist self.pendingPassthrough)
    (hcaps : after.scheduler.effectiveCapFor = self.scheduler.effectiveCapFor)
    (hstopped : self.stopReceived = true → after.stopReceived = true) : Bounded codec after := by
  refine ⟨fun bucket => ?_, ?_⟩
  · rw [capOf_congr hcaps]
    exact hparked.countP_le.trans (h.buckets bucket)
  · have hle := (hparked.countP_le : _ ≤ self.pendingPassthrough.countP (isStop codec)).trans h.stops
    cases hself : self.stopReceived with
    | false =>
      rw [hself] at hle
      exact hle.trans (Nat.zero_le _)
    | true =>
      rw [hself] at hle
      rw [hstopped hself]
      exact hle

theorem countP_remove (p : EventItem ArrayData → Bool) (front back : List (EventItem ArrayData))
    (victim : EventItem ArrayData) :
    (front ++ victim :: back).countP p = (front ++ back).countP p + if p victim then 1 else 0 := by
  simp only [List.countP_append, List.countP_cons]
  omega

theorem capOf_pos (s : Scheduler ArrayData) (bucket : PassthroughBucket) : 0 < capOf s bucket := by
  cases bucket with
  | input id => exact s.effectiveCapFor_pos id
  | nonInput => exact (by decide : 0 < NON_INPUT_EVENT_QUEUE_SIZE)

theorem Parked.sublist (h : Parked codec self item after) :
    after.pendingPassthrough.Sublist (self.pendingPassthrough ++ [item]) := by
  cases h with
  | kept hparked => rw [hparked]
  | evicted front victim back hsplit hparked =>
    rw [hparked, hsplit]
    exact (List.sublist_cons_self victim back).append_left front

theorem Parked.buckets (h : Parked codec self item after) (hbounded : Bounded codec self)
    (hstops : (self.pendingPassthrough ++ [item]).countP (isStop codec) ≤ 1)
    (bucket : PassthroughBucket) :
    after.pendingPassthrough.countP (inBucket codec bucket) ≤ capOf self.scheduler bucket := by
  have hbefore := hbounded.buckets bucket
  have hpushed : (self.pendingPassthrough ++ [item]).countP (inBucket codec bucket) =
      self.pendingPassthrough.countP (inBucket codec bucket) +
        if inBucket codec bucket item then 1 else 0 := by
    rw [List.countP_append, List.countP_singleton]
  by_cases hitem : inBucket codec bucket item = true
  · have hbucket : bucket = bucketOf (convertEventItem codec item) := (holds_iff _ _).mp hitem
    rw [if_pos hitem] at hpushed
    subst hbucket
    cases h with
    | kept hparked hroom =>
      rw [hparked]
      rcases hroom with hroom | hall
      · exact hroom
      · -- only `Stop`s count against the bucket, and there is one at most
        have hle := List.countP_mono_left hall
        have hcap := capOf_pos self.scheduler (bucketOf (convertEventItem codec item))
        omega
    | evicted front victim back hsplit hparked hvictim =>
      have hremoved := countP_remove
        (inBucket codec (bucketOf (convertEventItem codec item))) front back victim
      rw [if_pos hvictim, ← hsplit] at hremoved
      rw [hparked]
      omega
  · rw [if_neg hitem] at hpushed
    have hle : after.pendingPassthrough.countP (inBucket codec bucket) ≤
        (self.pendingPassthrough ++ [item]).countP (inBucket codec bucket) := h.sublist.countP_le
    omega

variable (codec) in
theorem bufferPassthrough_frame (self : EventStream ArrayData) (item : EventItem ArrayData) :
    (self.bufferPassthrough codec item).scheduler.effectiveCapFor = self.scheduler.effectiveCapFor ∧
      (self.bufferPassthrough codec item).stopReceived = self.stopReceived := by
  rw [bufferPassthrough_eq]
  unfold enforcePassthroughBound
  split
  · exact ⟨rfl, rfl⟩
  · split <;> exact ⟨rfl, rfl⟩

/-- Setting aside an event keeps the bounds, if it is not a second `Stop`. -/
theorem Bounded.bufferPassthrough (h : Bounded codec self)
    (hstops : (self.pendingPassthrough ++ [item]).countP (isStop codec) ≤
      if self.stopReceived then 1 else 0) : Bounded codec (self.bufferPassthrough codec item) := by
  have hparked := bufferPassthrough_parked codec self item
  have ⟨hcaps, hstopped⟩ := bufferPassthrough_frame codec self item
  refine ⟨fun bucket => ?_, ?_⟩
  · rw [capOf_congr hcaps]
    apply hparked.buckets h
    exact hstops.trans (by split <;> omega)
  · rw [hstopped]
    exact hparked.sublist.countP_le.trans hstops

end Bounded

structure Quiet (before after : EventStream ArrayData) : Prop where
  parked : after.pendingPassthrough = before.pendingPassthrough
  caps : after.scheduler.effectiveCapFor = before.scheduler.effectiveCapFor
  stopped : after.stopReceived = before.stopReceived

/-- The bounds hold, and would hold of the `Stop`s if the event on hand were parked. -/
structure Handed (hand : List (EventItem ArrayData)) (stream : EventStream ArrayData) : Prop where
  bounded : Bounded codec stream
  once : ∀ item ∈ hand, (stream.pendingPassthrough ++ [item]).countP (isStop codec) ≤
    if stream.stopReceived then 1 else 0

section Calls

variable {codec} {self after : EventStream ArrayData} {item : EventItem ArrayData}
  {hand : List (EventItem ArrayData)}

theorem quiet_of_next {out : Option (EventItem ArrayData)} {scheduler : Scheduler ArrayData}
    (h : self.scheduler.next = (out, scheduler)) : Quiet self { self with scheduler } := by
  have hcaps := self.scheduler.effectiveCapFor_next
  rw [h] at hcaps
  exact ⟨rfl, hcaps, rfl⟩

theorem Handed.quiet (h : Handed codec hand self) (hquiet : Quiet self after) :
    Handed codec hand after := by
  refine ⟨h.bounded.of_sublist (hquiet.parked ▸ List.Sublist.refl _) hquiet.caps fun hstopped =>
    hquiet.stopped.trans hstopped, ?_⟩
  rw [hquiet.parked, hquiet.stopped]
  exact h.once

/-- An input, decodable or not, is no `Stop`. -/
theorem isStop_of_isInput (h : item.isInput = true) : isStop codec item = false := by
  change item.meansStop codec = false
  rw [EventItem.meansStop_eq]
  unfold EventItem.isInput at h
  split at h
  · rfl
  · rfl
  · cases h

/-- After a `Stop` no second one is produced. -/
theorem Handed.produce (h : Handed codec [] self)
    (honce : self.stopReceived = true → isStop codec item = false) :
    Handed codec [item] (self.noteProducedEvent codec item) := by
  have hnoted : Bounded codec (self.noteProducedEvent codec item) :=
    h.bounded.of_sublist (List.Sublist.refl _) rfl fun hstopped => by
      rw [EventStream.noteProducedEvent, hstopped]
      rfl
  refine ⟨hnoted, fun item' hitem => ?_⟩
  rw [List.mem_singleton.mp hitem]
  change (self.pendingPassthrough ++ [item]).countP (isStop codec) ≤
    if self.stopReceived || isStop codec item then 1 else 0
  rw [List.countP_append, List.countP_singleton]
  have hstops := h.bounded.stops
  cases hstop : isStop codec item with
  | false => simpa using hstops
  | true =>
    have hfirst : self.stopReceived = false := by
      apply Bool.eq_false_iff.mpr
      intro hstopped
      exact absurd ((honce hstopped).symm.trans hstop) Bool.false_ne_true
    rw [hfirst] at hstops ⊢
    simpa using hstops

theorem Handed.unpark {idx : Nat} (h : Handed codec [] self)
    (hitem : self.pendingPassthrough[idx]? = some item) :
    Handed codec [item]
      { self with pendingPassthrough := self.pendingPassthrough.eraseIdx idx } := by
  obtain ⟨hidx, hget⟩ := List.getElem?_eq_some_iff.mp hitem
  have hperm : (self.pendingPassthrough.eraseIdx idx ++ [item]).Perm self.pendingPassthrough := by
    rw [← hget]
    exact (List.perm_append_singleton _ _).trans (List.getElem_cons_eraseIdx_perm hidx)
  refine ⟨h.bounded.of_sublist (List.eraseIdx_sublist _ idx) rfl fun hstopped => hstopped,
    fun item' hitem' => ?_⟩
  rw [List.mem_singleton.mp hitem', hperm.countP_eq]
  exact h.bounded.stops

variable (codec) in
theorem handed_rule : Rule codec fun _ hand self => Handed codec hand self where
  arrive _ h := h.quiet ⟨rfl, rfl, rfl⟩
  flags _ _ h := h.quiet ⟨rfl, rfl, rfl⟩
  store h := h.quiet ⟨rfl, (Scheduler.addEvent_spec _ _).2, rfl⟩
  exhaust h hnext := h.quiet (quiet_of_next hnext)
  discard h hnext _ _ := h.quiet (quiet_of_next hnext)
  serve h hnext hinput := (h.quiet (quiet_of_next hnext)).produce fun hstopped =>
    isStop_of_isInput (hinput hstopped)
  take {_ self _ rest} h _ hrunning := by
    have hrest : Handed codec [] { self with receiver := rest } := h.quiet ⟨rfl, rfl, rfl⟩
    exact hrest.produce fun hstopped => absurd (hrunning.symm.trans hstopped) Bool.false_ne_true
  unpark h hitem := h.unpark hitem
  park h _ := ⟨h.bounded.bufferPassthrough (h.once _ (List.mem_singleton_self _)),
    fun _ hitem => absurd hitem List.not_mem_nil⟩
  give h := ⟨h.bounded, fun _ hitem => absurd hitem List.not_mem_nil⟩
  report h := h.quiet ⟨rfl, rfl, rfl⟩

/-- A wait that starts gives the oldest parked event that answers it, and leaves the others as they
stand. -/
theorem wait_takes_parked {awaited : Correlation} {item : EventItem ArrayData}
    (hitem : item ∈ self.pendingPassthrough)
    (hmatch : awaited.isMatch (convertEventItem codec item) = true) (server : NodeId)
    (rounds : List (WaitRound ArrayData)) :
    ∃ front oldest back, self.pendingPassthrough = front ++ oldest :: back ∧
      awaited.isMatch (convertEventItem codec oldest) = true ∧
      (∀ e ∈ front, awaited.isMatch (convertEventItem codec e) = false) ∧
      (self.waitForCorrelation codec awaited server true rounds).2 = some (.ok oldest) ∧
      (self.waitForCorrelation codec awaited server true rounds).1.pendingPassthrough =
        front ++ back := by
  cases hfind : self.pendingPassthrough.findIdx?
      (fun e => awaited.isMatch (convertEventItem codec e)) with
  | none =>
    have hnone := List.findIdx?_eq_none_iff.mp hfind item hitem
    exact absurd (hnone.symm.trans hmatch) Bool.false_ne_true
  | some pos =>
    have ⟨front, oldest, back, hsplit, herase, hget, holdest, hfront⟩ := findIdx?_split hfind
    have hwait : self.waitForCorrelation codec awaited server true rounds =
        (({ self with pendingPassthrough := self.pendingPassthrough.eraseIdx pos }.arrive
          (rounds.flatMap WaitRound.arriving)), some (.ok oldest)) := by
      unfold EventStream.waitForCorrelation
      simp only [if_true, hfind, Option.bind_some, hget, Option.map_some]
    refine ⟨front, oldest, back, hsplit, holdest, hfront, ?_, ?_⟩
    · rw [hwait]
    · rw [hwait]
      exact herase

end Calls

/-- In every run of the receive calls: a wait gives the oldest parked event that answers it and leaves the
others in their order; no more events are parked for an input than the scheduler would queue, and no more
control events than its queue of them holds; and setting an event aside sacrifices at most one of its
bucket, an ordinary one if there is one, never a `Stop`, and counts it. -/
theorem pipelined_waits (keys : List DataId) (sizes : TreeMap DataId Nat)
    (policies : TreeMap DataId QueuePolicy) (useScheduler : Bool) (ops : List (StreamOp ArrayData)) :
    let self : EventStream ArrayData := (run (step codec) (fresh keys sizes policies useScheduler) ops).1
    (∀ (awaited : Correlation) (server : NodeId) (rounds : List (WaitRound ArrayData)),
      ∀ item ∈ self.pendingPassthrough, awaited.isMatch (convertEventItem codec item) = true →
        ∃ front oldest back, self.pendingPassthrough = front ++ oldest :: back ∧
          awaited.isMatch (convertEventItem codec oldest) = true ∧
          (∀ e ∈ front, awaited.isMatch (convertEventItem codec e) = false) ∧
          (self.waitForCorrelation codec awaited server true rounds).2 = some (.ok oldest) ∧
          (self.waitForCorrelation codec awaited server true rounds).1.pendingPassthrough =
            front ++ back) ∧
      (∀ id : DataId, self.pendingPassthrough.countP (inBucket codec (.input id)) ≤
        self.scheduler.effectiveCapFor id) ∧
      self.pendingPassthrough.countP (inBucket codec .nonInput) ≤ NON_INPUT_EVENT_QUEUE_SIZE ∧
      ∀ item : EventItem ArrayData, Parked codec self item (self.bufferPassthrough codec item) := by
  intro self
  have hfresh : Bounded codec (fresh keys sizes policies useScheduler) :=
    ⟨fun _ => Nat.zero_le _, Nat.zero_le _⟩
  have hbounded : Bounded codec self := ((handed_rule codec).run
    ⟨hfresh, fun _ hitem => absurd hitem List.not_mem_nil⟩ ops).bounded
  refine ⟨fun awaited server rounds item hitem hmatch => ?_, fun id => hbounded.buckets (.input id),
    hbounded.buckets .nonInput, bufferPassthrough_parked codec self⟩
  exact wait_takes_parked hitem hmatch server rounds

/-- The response to `q` arrives while another request is waited for; the wait for it finds it. -/
theorem pipelined_waits_of_two_requests :
    let wait : StreamOp Unit := .waitForCorrelation (.serviceResponse "p") ⟨"server"⟩ true
      [⟨[reload, response], false⟩, ⟨[], false⟩, ⟨[], true⟩]
    let self : EventStream Unit := (run (step unitCodec) (fresh [] ∅ ∅ true) [wait]).1
    self.pendingPassthrough = [reload, response] ∧
      ∃ front oldest back, self.pendingPassthrough = front ++ oldest :: back ∧
        (self.waitForCorrelation unitCodec (.serviceResponse "q") ⟨"server"⟩ true []).2 =
          some (.ok oldest) ∧
        (self.waitForCorrelation unitCodec (.serviceResponse "q") ⟨"server"⟩ true []).1.pendingPassthrough
          = front ++ back := by
  intro wait self
  have hparked : self.pendingPassthrough = [reload, response] := rfl
  have ⟨front, oldest, back, hsplit, _, _, hgiven, hleft⟩ :=
    (pipelined_waits unitCodec [] ∅ ∅ true [wait]).1 (.serviceResponse "q") ⟨"server"⟩ []
      response (hparked ▸ by simp) rfl
  exact ⟨hparked, front, oldest, back, hsplit, hgiven, hleft⟩

end Dora.PipelinedWaits
