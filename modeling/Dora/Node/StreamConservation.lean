import Dora.Node.SchedulerConservation
import Dora.Node.StreamCalls

/-!
# Conservation of events in the event stream

Every event the receive APIs take out of the receiver is in exactly one place: returned to the caller,
queued in the scheduler, parked for a later receive, dropped and counted, removed by a flush, or, once
a `Stop` has been produced, discarded as a trailing control event. The account is kept per queue id.
-/

namespace Dora.StreamConservation

open Std Lib

variable {ArrayData Json : Type} (codec : EventCodec ArrayData Json)

def fresh (keys : List DataId) (sizes : TreeMap DataId Nat)
    (policies : TreeMap DataId QueuePolicy) (useScheduler : Bool) : EventStream ArrayData :=
  { scheduler := Scheduler.fresh keys sizes policies, useScheduler := useScheduler }

/-! ## The account -/

structure Books (ArrayData : Type) where
  receiver : List (EventItem ArrayData)
  queues : DataId → List (EventItem ArrayData)
  drops : DataId → Nat
  parked : List (EventItem ArrayData)
  stopped : Bool

def books (self : EventStream ArrayData) : Books ArrayData where
  receiver := self.receiver
  queues := self.scheduler.queueOf
  drops id := self.scheduler.dropped.getD id 0
  parked := self.pendingPassthrough
  stopped := self.stopReceived

/-- The events of a list that are filed under `id`. -/
def under (id : DataId) (items : List (EventItem ArrayData)) : Multiset (EventItem ArrayData) :=
  keyed EventItem.queueId id items

structure Tally (ArrayData : Type) where
  taken : List (EventItem ArrayData) := []
  dropped : List (EventItem ArrayData) := []
  flushed : List (EventItem ArrayData) := []
  discarded : List (EventItem ArrayData) := []

/-- The account of a run: `arrivals` is what reached the receiver, `returned` what the calls gave to
the caller, `reported` what `drain_drop_counts` has reported. -/
structure Accounted (arrivals returned hand : List (EventItem ArrayData)) (reported : DataId → Nat)
    (b : Books ArrayData) (tally : Tally ArrayData) : Prop where
  /-- events are taken from the receiver in the order of their arrival -/
  arrived : arrivals = tally.taken ++ b.receiver
  /-- each event taken is in exactly one place -/
  balanced : ∀ id, under id tally.taken = ↑(b.queues id) + under id b.parked + under id hand +
    under id returned + under id tally.dropped + under id tally.flushed + under id tally.discarded
  /-- each dropped event is counted once, under its own queue id -/
  counted : ∀ id, (under id tally.dropped).card = reported id + b.drops id
  /-- a flush takes only ordinary events of its own queue that were taken before -/
  flushed : ∀ x ∈ tally.flushed, x.isCorrelated = false ∧ x.isStop = false ∧
    ∃ f, f.shouldFlush = true ∧ f.queueId = x.queueId ∧ [x, f].Sublist tally.taken
  /-- only control events are discarded, and only once a `Stop` was produced -/
  discarded : ∀ x ∈ tally.discarded, x.isInput = false ∧ b.stopped = true
  /-- a `Stop` that was produced has been returned or is parked for the next receive -/
  stopped : b.stopped = true →
    ∃ x ∈ b.parked ++ hand ++ returned, (convertEventItem codec x).isStop = true
  filed : ∀ id, ∀ x ∈ b.queues id, x.queueId = id
  parked : ∀ x ∈ b.parked, (convertEventItem codec x).isError = false

def Accounts (t : Trace ArrayData) (hand : List (EventItem ArrayData)) (self : EventStream ArrayData) :
    Prop :=
  ∃ tally, Accounted codec t.arrivals t.returned hand t.reported (books self) tally

variable {codec} {arrivals returned hand : List (EventItem ArrayData)} {reported : DataId → Nat}
  {b : Books ArrayData} {tally : Tally ArrayData}

theorem under_append (id : DataId) (l l' : List (EventItem ArrayData)) :
    under id (l ++ l') = under id l + under id l' := keyed_append _ id l l'

theorem under_cons (id : DataId) (x : EventItem ArrayData) (l : List (EventItem ArrayData)) :
    under id (x :: l) = under id [x] + under id l := keyed_cons _ id x l

variable {items l rest : List (EventItem ArrayData)} {id k : DataId}

theorem under_of_forall (h : ∀ x ∈ l, x.queueId = id) : under id l = ↑l := keyed_of_forall h

theorem under_of_forall_ne (h : ∀ x ∈ l, x.queueId ≠ id) : under id l = 0 := keyed_of_forall_ne h

/-! ## Moves of single events -/

theorem Accounted.mem_taken (h : Accounted codec arrivals returned hand reported b tally)
    {x : EventItem ArrayData} (hx : x ∈ b.queues id) : x ∈ tally.taken := by
  have hmem : x ∈ under id tally.taken := by
    rw [h.balanced id]
    simp only [Multiset.mem_add, Multiset.mem_coe, hx, true_or]
  exact (List.mem_filter.mp (Multiset.mem_coe.mp hmem)).1

theorem Accounted.arrive (h : Accounted codec arrivals returned hand reported b tally)
    (items : List (EventItem ArrayData)) :
    Accounted codec (arrivals ++ items) returned hand reported
      { b with receiver := b.receiver ++ items } tally :=
  { h with arrived := by rw [h.arrived, List.append_assoc] }

variable {item : EventItem ArrayData}

theorem Accounted.take (h : Accounted codec arrivals returned hand reported b tally)
    (hreceiver : b.receiver = item :: rest) :
    Accounted codec arrivals returned (item :: hand) reported { b with receiver := rest }
      { tally with taken := tally.taken ++ [item] } :=
  { h with
    arrived := by rw [h.arrived, hreceiver, List.append_assoc]; rfl
    balanced := by
      intro id
      rw [under_append, h.balanced id, under_cons id item hand]
      abel
    flushed := by
      intro x hx
      obtain ⟨hordinary, hstop, f, hflush, hid, hsub⟩ := h.flushed x hx
      exact ⟨hordinary, hstop, f, hflush, hid, hsub.trans (List.sublist_append_left _ _)⟩
    stopped := by
      intro hstopped
      obtain ⟨x, hx, hstop⟩ := h.stopped hstopped
      refine ⟨x, ?_, hstop⟩
      simp only [List.mem_append, List.mem_cons] at hx ⊢
      tauto }

/-- The queue of `k` is replaced; `incoming` has been added to it and `outgoing` taken out. -/
theorem queue_update (queues : DataId → List (EventItem ArrayData)) (k : DataId)
    (queue incoming outgoing : List (EventItem ArrayData))
    (hperm : (queues k ++ incoming).Perm (queue ++ outgoing))
    (hin : ∀ x ∈ incoming, x.queueId = k) (hout : ∀ x ∈ outgoing, x.queueId = k) (id : DataId) :
    (↑(queues id) : Multiset (EventItem ArrayData)) + under id incoming =
      ↑(Function.update queues k queue id) + under id outgoing := by
  by_cases hid : id = k
  · rw [hid, Function.update_self, under_of_forall hin, under_of_forall hout, Multiset.coe_add,
      Multiset.coe_add]
    exact Multiset.coe_eq_coe.mpr hperm
  · have hin' : under id incoming = 0 :=
      under_of_forall_ne fun x hx heq => hid (heq.symm.trans (hin x hx))
    have hout' : under id outgoing = 0 :=
      under_of_forall_ne fun x hx heq => hid (heq.symm.trans (hout x hx))
    rw [Function.update_of_ne hid, hin', hout']

theorem queue_taken {queues : DataId → List (EventItem ArrayData)} {k : DataId}
    {queue outgoing : List (EventItem ArrayData)} (hperm : (queues k).Perm (queue ++ outgoing))
    (hout : ∀ x ∈ outgoing, x.queueId = k) (id : DataId) :
    (↑(queues id) : Multiset (EventItem ArrayData)) =
      ↑(Function.update queues k queue id) + under id outgoing := by
  have hq := queue_update queues k queue [] outgoing (by rwa [List.append_nil]) (by simp) hout id
  rwa [show under id ([] : List (EventItem ArrayData)) = 0 from rfl, add_zero] at hq

theorem filed_update {queues : DataId → List (EventItem ArrayData)}
    {queue : List (EventItem ArrayData)} (hfiled : ∀ id, ∀ x ∈ queues id, x.queueId = id)
    (hqueue : ∀ x ∈ queue, x.queueId = k) :
    ∀ id, ∀ x ∈ Function.update queues k queue id, x.queueId = id := by
  intro id x hx
  by_cases hid : id = k
  · rw [hid, Function.update_self] at hx
    rw [hid]
    exact hqueue x hx
  · rw [Function.update_of_ne hid] at hx
    exact hfiled id x hx

/-- The queue of `id` is replaced. -/
def Books.setQueue (b : Books ArrayData) (id : DataId) (queue : List (EventItem ArrayData)) :
    Books ArrayData :=
  { b with queues := Function.update b.queues id queue }

def kept (queue : List (EventItem ArrayData)) : List (EventItem ArrayData) :=
  queue.filter fun e => e.isCorrelated || e.isStop

def removed (queue : List (EventItem ArrayData)) : List (EventItem ArrayData) :=
  queue.filter fun e => !(e.isCorrelated || e.isStop)

theorem Accounted.flush (h : Accounted codec arrivals returned hand reported b tally)
    {f : EventItem ArrayData} (hflush : f.shouldFlush = true)
    (hbefore : ∀ x ∈ b.queues f.queueId, [x, f].Sublist tally.taken) :
    Accounted codec arrivals returned hand reported
      (b.setQueue f.queueId (kept (b.queues f.queueId)))
      { tally with flushed := tally.flushed ++ removed (b.queues f.queueId) } :=
  { h with
    balanced := by
      intro id
      have hperm : (b.queues f.queueId).Perm (kept (b.queues f.queueId) ++ removed (b.queues f.queueId)) :=
        (List.filter_append_perm _ _).symm
      have hq := queue_taken hperm (fun x hx => h.filed _ x (List.mem_filter.mp hx).1) id
      dsimp only [Books.setQueue]
      rw [h.balanced id, under_append, hq]
      abel
    flushed := by
      intro x hx
      cases List.mem_append.mp hx with
      | inl hold => exact h.flushed x hold
      | inr hnew =>
        obtain ⟨hqueued, hordinary⟩ := List.mem_filter.mp hnew
        have hplain : x.isCorrelated = false ∧ x.isStop = false := by simpa using hordinary
        exact ⟨hplain.1, hplain.2, f, hflush, (h.filed _ x hqueued).symm, hbefore x hqueued⟩
    filed := filed_update h.filed fun x hx => h.filed _ x (List.mem_filter.mp hx).1 }

theorem Accounted.store (h : Accounted codec arrivals returned (item :: hand) reported b tally)
    (hstop : b.stopped = true →
      ∃ x ∈ b.parked ++ hand ++ returned, (convertEventItem codec x).isStop = true) :
    Accounted codec arrivals returned hand reported
      (b.setQueue item.queueId (b.queues item.queueId ++ [item])) tally :=
  { h with
    balanced := by
      intro id
      have hq := queue_update b.queues item.queueId (b.queues item.queueId ++ [item]) [item] []
        (by rw [List.append_nil]) (by simp) (by simp) id
      dsimp only [Books.setQueue]
      rw [h.balanced id, under_cons id item hand]
      calc _ = (↑(b.queues id) + under id [item]) + (under id b.parked + under id hand +
              under id returned + under id tally.dropped + under id tally.flushed +
              under id tally.discarded) := by abel
        _ = _ := by
            rw [hq, show under id ([] : List (EventItem ArrayData)) = 0 from rfl]
            abel
    stopped := hstop
    filed := filed_update h.filed fun x hx => by
      cases List.mem_append.mp hx with
      | inl hold => exact h.filed _ x hold
      | inr hnew => rw [List.mem_singleton.mp hnew] }

theorem Accounted.drop (h : Accounted codec arrivals returned (item :: hand) reported b tally)
    {drops : DataId → Nat} (hdrops : ∀ id, drops id = b.drops id + if item.queueId = id then 1 else 0)
    (hstop : b.stopped = true →
      ∃ x ∈ b.parked ++ hand ++ returned, (convertEventItem codec x).isStop = true) :
    Accounted codec arrivals returned hand reported { b with drops := drops }
      { tally with dropped := tally.dropped ++ [item] } :=
  { h with
    balanced := by
      intro id
      rw [h.balanced id, under_cons id item hand, under_append]
      abel
    counted := by
      intro id
      dsimp only
      rw [under_append, Multiset.card_add, h.counted id, hdrops id]
      by_cases hid : item.queueId = id
      · rw [under_of_forall (l := [item]) (by simpa using hid), if_pos hid]
        rfl
      · rw [under_of_forall_ne (l := [item]) (by simpa using hid), if_neg hid]
        rfl
    stopped := hstop }

theorem Accounted.stopped_cons (h : Accounted codec arrivals returned hand reported b tally)
    (item : EventItem ArrayData) (hstopped : b.stopped = true) :
    ∃ x ∈ b.parked ++ item :: hand ++ returned, (convertEventItem codec x).isStop = true := by
  obtain ⟨x, hx, hstop⟩ := h.stopped hstopped
  refine ⟨x, ?_, hstop⟩
  simp only [List.mem_append, List.mem_cons] at hx ⊢
  tauto

theorem Accounted.serve (h : Accounted codec arrivals returned hand reported b tally) {idx : Nat}
    (hitem : (b.queues k)[idx]? = some item) :
    Accounted codec arrivals returned (item :: hand) reported
      (b.setQueue k ((b.queues k).eraseIdx idx)) tally := by
  obtain ⟨hidx, hget⟩ := List.getElem?_eq_some_iff.mp hitem
  have hkey : item.queueId = k := h.filed k item (hget ▸ List.getElem_mem hidx)
  have hperm : (b.queues k).Perm ((b.queues k).eraseIdx idx ++ [item]) := by
    rw [← hget]
    exact (List.getElem_cons_eraseIdx_perm hidx).symm.trans (List.perm_append_singleton _ _).symm
  exact
  { h with
    balanced := by
      intro id
      have hq := queue_taken hperm (by simpa using hkey) id
      dsimp only [Books.setQueue]
      rw [h.balanced id, under_cons id item hand, hq]
      abel
    stopped := h.stopped_cons item
    filed := filed_update h.filed fun x hx => h.filed k x (List.mem_of_mem_eraseIdx hx) }

/-- The event on hand is discarded: a control event after a `Stop`. -/
theorem Accounted.discard (h : Accounted codec arrivals returned (item :: hand) reported b tally)
    (hcontrol : item.isInput = false) (hstopped : b.stopped = true)
    (hstop : ∃ x ∈ b.parked ++ hand ++ returned, (convertEventItem codec x).isStop = true) :
    Accounted codec arrivals returned hand reported b
      { tally with discarded := tally.discarded ++ [item] } :=
  { h with
    balanced := by
      intro id
      rw [h.balanced id, under_cons id item hand, under_append]
      abel
    discarded := by
      intro x hx
      cases List.mem_append.mp hx with
      | inl hold => exact h.discarded x hold
      | inr hnew => exact ⟨List.mem_singleton.mp hnew ▸ hcontrol, hstopped⟩
    stopped := fun _ => hstop }

theorem Accounted.note (h : Accounted codec arrivals returned (item :: hand) reported b tally) :
    Accounted codec arrivals returned (item :: hand) reported
      { b with stopped := b.stopped || (convertEventItem codec item).isStop } tally :=
  { h with
    discarded := by
      intro x hx
      obtain ⟨hcontrol, hstopped⟩ := h.discarded x hx
      exact ⟨hcontrol, by rw [hstopped]; rfl⟩
    stopped := by
      intro hstopped
      cases (Bool.or_eq_true _ _).mp hstopped with
      | inl hbefore => exact h.stopped hbefore
      | inr hitem => exact ⟨item, by simp, hitem⟩ }

theorem Accounted.park (h : Accounted codec arrivals returned (item :: hand) reported b tally)
    (herror : (convertEventItem codec item).isError = false) :
    Accounted codec arrivals returned hand reported { b with parked := b.parked ++ [item] } tally :=
  { h with
    balanced := by
      intro id
      rw [h.balanced id, under_cons id item hand, under_append]
      abel
    stopped := by
      intro hstopped
      obtain ⟨x, hx, hstop⟩ := h.stopped hstopped
      refine ⟨x, ?_, hstop⟩
      simp only [List.mem_append, List.mem_cons, List.not_mem_nil, or_false] at hx ⊢
      tauto
    parked := by
      intro x hx
      cases List.mem_append.mp hx with
      | inl hold => exact h.parked x hold
      | inr hnew => exact List.mem_singleton.mp hnew ▸ herror }

theorem Accounted.unpark (h : Accounted codec arrivals returned hand reported b tally)
    {idx : Nat} (hitem : b.parked[idx]? = some item) :
    Accounted codec arrivals returned (item :: hand) reported
      { b with parked := b.parked.eraseIdx idx } tally := by
  obtain ⟨hidx, hget⟩ := List.getElem?_eq_some_iff.mp hitem
  have hperm : (item :: b.parked.eraseIdx idx).Perm b.parked := by
    rw [← hget]
    exact List.getElem_cons_eraseIdx_perm hidx
  exact
  { h with
    balanced := by
      intro id
      rw [h.balanced id, under_cons id item hand, show under id b.parked = _ from
        (keyed_perm _ id hperm).symm]
      rw [show keyed EventItem.queueId id (item :: b.parked.eraseIdx idx) = _ from
        under_cons id item _]
      abel
    stopped := by
      intro hstopped
      obtain ⟨x, hx, hstop⟩ := h.stopped hstopped
      refine ⟨x, ?_, hstop⟩
      simp only [List.mem_append, ← hperm.mem_iff, List.mem_cons] at hx ⊢
      tauto
    parked := fun x hx => h.parked x (List.mem_of_mem_eraseIdx hx) }

theorem Accounted.give (h : Accounted codec arrivals returned hand reported b tally) :
    Accounted codec arrivals (returned ++ hand) [] reported b tally :=
  { h with
    balanced := by
      intro id
      rw [h.balanced id, under_append, show under id ([] : List (EventItem ArrayData)) = 0 from rfl]
      abel
    stopped := by
      intro hstopped
      obtain ⟨x, hx, hstop⟩ := h.stopped hstopped
      refine ⟨x, ?_, hstop⟩
      simp only [List.mem_append, List.not_mem_nil, or_false] at hx ⊢
      tauto }

theorem Accounted.report (h : Accounted codec arrivals returned hand reported b tally) :
    Accounted codec arrivals returned hand (fun id => reported id + b.drops id)
      { b with drops := fun _ => 0 } tally :=
  { h with counted := h.counted }

/-! ## The scheduler -/

variable {t : Trace ArrayData} {self : EventStream ArrayData}

theorem Accounted.prepare (h : Accounted codec arrivals returned hand reported (books self) tally)
    (hreceiver : self.receiver = item :: rest) :
    ∃ tally, Accounted codec arrivals returned (item :: hand) reported { books self with
        receiver := rest
        queues := (self.scheduler.prepareQueue item).queueOf } tally := by
  have htaken := h.take hreceiver
  rw [Scheduler.queueOf_prepareQueue]
  split
  · rename_i hflush
    refine ⟨_, htaken.flush hflush ?_⟩
    intro x hx
    exact (List.singleton_sublist.mpr (h.mem_taken hx)).append (List.Sublist.refl [item])
  · exact ⟨_, htaken⟩

theorem Accounts.store (h : Accounts codec t [] self) (hreceiver : self.receiver = item :: rest) :
    Accounts codec t [] ({ self with receiver := rest }.addEvent item) := by
  obtain ⟨tally, h⟩ := h
  obtain ⟨tally', hprepared⟩ := h.prepare hreceiver
  have hdrops := (self.scheduler.prepareQueue item).getD_countDrop item.queueId
  rw [Scheduler.dropped_prepareQueue] at hdrops
  unfold Accounts books EventStream.addEvent
  cases self.scheduler.addEvent_outcome item with
  | stored hqueue hdropped =>
    rw [hqueue, hdropped, Scheduler.dropped_prepareQueue]
    exact ⟨_, hprepared.store h.stopped⟩
  | rejected hqueue hdropped =>
    rw [hqueue, hdropped]
    exact ⟨_, hprepared.drop hdrops h.stopped⟩
  | replaced idx victim hvictim hstop hqueue hdropped =>
    -- the victim leaves its queue, is dropped, and the event takes a place behind the others
    have hkey : victim.queueId = item.queueId :=
      hprepared.filed _ victim (List.mem_of_getElem? hvictim)
    rw [← hkey] at hdrops hdropped
    have hfreed := (hprepared.serve hvictim).drop hdrops (h.stopped_cons item)
    have hstored := hfreed.store h.stopped
    dsimp only [Books.setQueue] at hstored
    rw [Function.update_self, Function.update_idem] at hstored
    rw [hqueue, hdropped]
    exact ⟨_, hstored⟩

theorem Accounts.next {out : Option (EventItem ArrayData)} {scheduler : Scheduler ArrayData}
    (h : Accounts codec t [] self) (hnext : self.scheduler.next = (out, scheduler)) :
    Accounts codec t out.toList { self with scheduler } := by
  obtain ⟨tally, h⟩ := h
  have houtcome := self.scheduler.next_outcome
  rw [hnext] at houtcome
  cases houtcome with
  | nothing => exact ⟨tally, h⟩
  | taken id event rest after hbefore hafter hdropped =>
    have hitem : ((books self).queues id)[0]? = some event := by
      show (self.scheduler.queueOf id)[0]? = some event
      rw [hbefore]
      rfl
    have hrest : ((books self).queues id).eraseIdx 0 = rest := by
      show (self.scheduler.queueOf id).eraseIdx 0 = rest
      rw [hbefore]
      rfl
    have hserved := h.serve hitem
    rw [hrest] at hserved
    unfold Accounts books
    rw [hafter, hdropped]
    exact ⟨tally, hserved⟩

/-! ## Parked events -/

theorem queueId_of_holds {bucket : EventStream.PassthroughBucket}
    (herror : (convertEventItem codec item).isError = false)
    (hholds : bucket.holds (convertEventItem codec item) = true) :
    item.queueId = bucket.dropId := by
  cases item with
  | nodeEvent event =>
    cases event with
    | input id metadata data =>
      unfold convertEventItem at herror hholds
      dsimp only at herror hholds
      cases hdata : codec.dataToArrowArray data with
      | ok =>
        rw [hdata] at hholds
        cases bucket with
        | input => exact beq_iff_eq.mp hholds
        | nonInput => exact absurd hholds Bool.false_ne_true
      | error =>
        rw [hdata] at herror
        exact absurd herror.symm Bool.false_ne_true
    | paramUpdate key valueJson =>
      cases bucket with
      | input =>
        unfold convertEventItem at hholds
        dsimp only at hholds
        cases hjson : codec.parseJson valueJson with
        | ok | error =>
          rw [hjson] at hholds
          exact absurd hholds Bool.false_ne_true
      | nonInput => rfl
    | _ =>
      cases bucket with
      | input => exact absurd hholds Bool.false_ne_true
      | nonInput => rfl
  | zenohInput =>
    cases bucket with
    | input => exact beq_iff_eq.mp hholds
    | nonInput => exact absurd hholds Bool.false_ne_true
  | fatalError => exact absurd herror.symm Bool.false_ne_true
  | timeoutError => exact absurd herror.symm Bool.false_ne_true

/-- The event sacrificed is one of the bucket, and no `Stop`. -/
theorem evictAt_some {bucket : EventStream.PassthroughBucket}
    {pending : List (EventItem ArrayData)} {idx : Nat}
    (h : EventStream.evictAt codec bucket pending = some idx) :
    ∃ victim, pending[idx]? = some victim ∧
      bucket.holds (convertEventItem codec victim) = true ∧
      (convertEventItem codec victim).isStop = false := by
  unfold EventStream.evictAt at h
  cases Option.or_eq_some_iff.mp h with
  | inl hordinary =>
    obtain ⟨hidx, hvictim, -⟩ := List.findIdx?_eq_some_iff_getElem.mp hordinary
    simp only [Bool.and_eq_true, Bool.not_eq_true'] at hvictim
    exact ⟨_, List.getElem?_eq_getElem hidx, hvictim.1⟩
  | inr hany =>
    obtain ⟨hidx, hvictim, -⟩ := List.findIdx?_eq_some_iff_getElem.mp hany.2
    simp only [Bool.and_eq_true, Bool.not_eq_true'] at hvictim
    exact ⟨_, List.getElem?_eq_getElem hidx, hvictim⟩

/-- What holds the `Stop` is not the event on hand. -/
theorem Accounted.stopped_of_ne (h : Accounted codec arrivals returned (item :: hand) reported b tally)
    (hitem : (convertEventItem codec item).isStop = false) (hstopped : b.stopped = true) :
    ∃ x ∈ b.parked ++ hand ++ returned, (convertEventItem codec x).isStop = true := by
  obtain ⟨x, hx, hstop⟩ := h.stopped hstopped
  refine ⟨x, ?_, hstop⟩
  have hne : x ≠ item := by
    intro heq
    rw [heq, hitem] at hstop
    exact Bool.false_ne_true hstop
  simp only [List.mem_append, List.mem_cons, hne, false_or] at hx ⊢
  exact hx

theorem Accounts.enforcePassthroughBound (h : Accounts codec t hand self)
    (bucket : EventStream.PassthroughBucket) (cap : Nat) :
    Accounts codec t hand (self.enforcePassthroughBound codec bucket cap) := by
  unfold EventStream.enforcePassthroughBound
  split
  · exact h
  split
  · exact h
  · rename_i idx hidx
    obtain ⟨victim, hvictim, hholds, hstop⟩ := evictAt_some hidx
    obtain ⟨tally, h⟩ := h
    have hkey := queueId_of_holds (h.parked victim (List.mem_of_getElem? hvictim)) hholds
    have hback := h.unpark hvictim
    have hdrops := self.scheduler.getD_countDrop victim.queueId
    rw [← hkey]
    exact ⟨_, hback.drop hdrops (hback.stopped_of_ne hstop)⟩

theorem Accounts.bufferPassthrough (h : Accounts codec t (item :: hand) self)
    (herror : (convertEventItem codec item).isError = false) :
    Accounts codec t hand (self.bufferPassthrough codec item) := by
  have hparked : Accounts codec t hand
      { self with pendingPassthrough := self.pendingPassthrough ++ [item] } :=
    h.imp fun _ h => h.park herror
  unfold EventStream.bufferPassthrough
  dsimp only
  split <;> exact hparked.enforcePassthroughBound _ _

/-! ## Runs -/

theorem Accounts.drainDropCounts (h : Accounts codec t hand self) :
    Accounts codec { t with reported := fun id => t.reported id + self.scheduler.dropped.getD id 0 }
      hand { self with scheduler := self.scheduler.drainDropCounts.1 } := by
  have hcleared : books { self with scheduler := self.scheduler.drainDropCounts.1 } =
      { books self with drops := fun _ => 0 } := by
    unfold books Scheduler.drainDropCounts
    simp only [TreeMap.getD_emptyc]
    rfl
  unfold Accounts
  rw [hcleared]
  exact h.imp fun _ h => h.report

variable (codec) in
theorem accounts_rule : Rule codec (Accounts codec) where
  arrive items h := h.imp fun _ h => h.arrive items
  flags _ _ h := h
  store h := h.store rfl
  exhaust h hnext := h.next hnext
  discard h hnext hstopped hcontrol := by
    obtain ⟨_, hserved⟩ := h.next hnext
    obtain ⟨_, h⟩ := h
    exact ⟨_, hserved.discard hcontrol hstopped (h.stopped hstopped)⟩
  serve h hnext _ := (h.next hnext).imp fun _ h => h.note
  take h hreceiver _ := by
    obtain ⟨_, h⟩ := h
    exact ⟨_, (h.take hreceiver).note⟩
  unpark h hitem := h.imp fun _ h => h.unpark hitem
  park h herror := h.bufferPassthrough herror
  give h := h.imp fun _ h => h.give
  report h := h.drainDropCounts

theorem accounts_fresh (keys : List DataId) (sizes : TreeMap DataId Nat)
    (policies : TreeMap DataId QueuePolicy) (useScheduler : Bool) :
    Accounts codec (.ofRun [] []) [] (fresh keys sizes policies useScheduler) := by
  have hqueues : ∀ id, (books (fresh keys sizes policies useScheduler :
      EventStream ArrayData)).queues id = [] := Scheduler.queueOf_fresh keys sizes policies
  exact ⟨{},
    { arrived := rfl
      balanced := fun id => by rw [hqueues]; rfl
      counted := fun id => by
        show 0 = 0 + (∅ : TreeMap DataId Nat).getD id 0
        rw [TreeMap.getD_emptyc]
      flushed := fun x hx => absurd hx List.not_mem_nil
      discarded := fun x hx => absurd hx List.not_mem_nil
      stopped := fun h => absurd h Bool.false_ne_true
      filed := fun id x hx => by
        rw [hqueues] at hx
        exact absurd hx List.not_mem_nil
      parked := fun x hx => absurd hx List.not_mem_nil }⟩

/-! ## Parked events come first -/

def StreamOp.room : StreamOp ArrayData → Nat
  | .recvAsync | .tryRecv | .pollNext => 1
  | .drain rounds => rounds.length
  | _ => 0

theorem recvAsync_of_parked (h : self.pendingPassthrough = item :: rest) :
    self.recvAsync codec = ({ self with pendingPassthrough := rest }, .ready (some item)) := by
  unfold EventStream.recvAsync
  rw [h]

theorem pollNext_of_parked (h : self.pendingPassthrough = item :: rest) :
    self.pollNext codec = ({ self with pendingPassthrough := rest }, .ready (some item)) := by
  unfold EventStream.pollNext
  rw [h]

theorem tryRecv_of_parked (h : self.pendingPassthrough = item :: rest) :
    self.tryRecv codec = ({ self with pendingPassthrough := rest }, .ok item) := by
  unfold EventStream.tryRecv
  rw [recvAsync_of_parked h]

variable (codec self) in
theorem take_prefix_drainLoop (rounds : List (List (EventItem ArrayData))) :
    self.pendingPassthrough.take rounds.length <+: (self.drainLoop codec rounds).2.1 := by
  induction rounds generalizing self with
  | nil => exact List.nil_prefix
  | cons arriving rounds ih =>
    cases hparked : self.pendingPassthrough with
    | nil => exact List.nil_prefix
    | cons item rest =>
      have htried : (self.arrive arriving).tryRecv codec = _ := tryRecv_of_parked hparked
      unfold EventStream.drainLoop
      rw [htried]
      exact (List.prefix_cons_inj item).mpr
        (ih { self.arrive arriving with pendingPassthrough := rest })

theorem drain_events (rounds : List (List (EventItem ArrayData))) :
    (self.drain codec rounds).2.getD [] = (self.drainLoop codec rounds).2.1 := by
  unfold EventStream.drain
  split
  · rename_i heq
    rw [heq]
    rfl
  · rename_i heq
    rw [heq]
    rfl

theorem take_prefix_returned (op : StreamOp ArrayData) :
    self.pendingPassthrough.take op.room <+: (step codec self op).2.returned := by
  cases op with
  | drain rounds =>
    have hloop := take_prefix_drainLoop codec self rounds
    rwa [← drain_events] at hloop
  | recvAsync =>
    cases hparked : self.pendingPassthrough with
    | nil => exact List.nil_prefix
    | cons =>
      show _ <+: given (self.recvAsync codec).2
      rw [recvAsync_of_parked hparked]
      exact List.prefix_rfl
  | tryRecv =>
    cases hparked : self.pendingPassthrough with
    | nil => exact List.nil_prefix
    | cons =>
      show _ <+: received (self.tryRecv codec).2
      rw [tryRecv_of_parked hparked]
      exact List.prefix_rfl
  | pollNext =>
    cases hparked : self.pendingPassthrough with
    | nil => exact List.nil_prefix
    | cons =>
      show _ <+: given (self.pollNext codec).2
      rw [pollNext_of_parked hparked]
      exact List.prefix_rfl
  | _ => exact List.nil_prefix

variable (codec) in
/-- A correlation wait gives its match or the error that ended the stream, nothing else. -/
def Answers (awaited : Correlation) (item : EventItem ArrayData) : Prop :=
  awaited.isMatch (convertEventItem codec item) = true ∨
    (convertEventItem codec item).isError = true

variable {isMatch : Event ArrayData Json → Bool}

theorem classify_match {event : Event ArrayData Json} {server : NodeId}
    (h : classifyCorrelationEvent event server isMatch = .match) : isMatch event = true := by
  unfold classifyCorrelationEvent at h
  split at h
  · assumption
  · split at h
    · split at h <;> cases h
    all_goals cases h

theorem classify_streamError {event : Event ArrayData Json} {server : NodeId}
    (h : classifyCorrelationEvent event server isMatch = .streamError) : event.isError = true := by
  unfold classifyCorrelationEvent at h
  split at h
  · cases h
  · split at h
    · split at h <;> cases h
    · cases h
    · rfl
    · cases h

theorem waitLoop_answers (awaited : Correlation) (server : NodeId)
    (rounds : List (EventStream.WaitRound ArrayData)) :
    ∀ x ∈ waited (EventStream.waitLoop codec awaited server self rounds).2,
      Answers codec awaited x := by
  induction rounds generalizing self with
  | nil => exact fun x hx => absurd hx List.not_mem_nil
  | cons round rounds ih =>
    unfold EventStream.waitLoop
    dsimp only
    split
    · exact fun x hx => absurd hx List.not_mem_nil
    generalize (self.arrive round.arriving).recvFromStream codec = polled
    obtain ⟨polled, (_ | item) | _⟩ := polled
    · exact fun x hx => absurd hx List.not_mem_nil
    · dsimp only
      generalize houtcome : classifyCorrelationEvent (convertEventItem codec item) server
        awaited.isMatch = outcome
      cases outcome with
      | «match» =>
        intro x hx
        rw [List.mem_singleton.mp hx]
        exact Or.inl (classify_match houtcome)
      | serverRestarted | streamEnded => exact fun x hx => absurd hx List.not_mem_nil
      | streamError =>
        intro x hx
        rw [List.mem_singleton.mp hx]
        exact Or.inr (classify_streamError houtcome)
      | passthrough => exact ih
    · exact ih

theorem wait_parked_match {awaited : Correlation}
    (hitem : self.pendingPassthrough.find? (fun x => awaited.isMatch (convertEventItem codec x)) =
      some item) (server : NodeId) (rounds : List (EventStream.WaitRound ArrayData)) :
    waited (self.waitForCorrelation codec awaited server true rounds).2 = [item] := by
  rw [List.find?_eq_bind_findIdx?_getElem?] at hitem
  obtain ⟨pos, hpos, hget⟩ := Option.bind_eq_some_iff.mp hitem
  unfold EventStream.waitForCorrelation
  simp only [if_true, hpos, Option.bind_some, hget, Option.map_some]
  rfl

theorem wait_answers (awaited : Correlation) (server : NodeId) (first : Bool)
    (rounds : List (EventStream.WaitRound ArrayData)) :
    ∀ x ∈ waited (self.waitForCorrelation codec awaited server first rounds).2,
      Answers codec awaited x := by
  unfold EventStream.waitForCorrelation
  dsimp only
  split
  · rename_i pos item hfound
    obtain ⟨idx, hidx, hitem⟩ := Option.bind_eq_some_iff.mp hfound
    obtain ⟨parked, hparked, hpair⟩ := Option.map_eq_some_iff.mp hitem
    cases hpair
    cases first with
    | false => cases hidx
    | true =>
      obtain ⟨hlt, hmatch, -⟩ := List.findIdx?_eq_some_iff_getElem.mp hidx
      rw [List.getElem?_eq_getElem hlt] at hparked
      cases hparked
      intro x hx
      rw [List.mem_singleton.mp hx]
      exact Or.inl hmatch
  · exact waitLoop_answers awaited server rounds

/-! ## Every run -/

/-- In every run of the receive calls, every event taken from the receiver is in exactly one place.
The plain receive calls give parked events first, in their order; a correlation wait passes over the
parked events that do not answer it. -/
theorem event_stream_conserves_events (codec : EventCodec ArrayData Json) (keys : List DataId)
    (sizes : TreeMap DataId Nat) (policies : TreeMap DataId QueuePolicy) (useScheduler : Bool)
    (ops : List (StreamOp ArrayData)) :
    let reached := run (step codec) (fresh keys sizes policies useScheduler) ops
    (∃ tally, Accounted codec (ops.flatMap StreamOp.arrivals)
      (reached.2.flatMap StreamAnswer.returned) [] (reportedUnder reached.2) (books reached.1) tally) ∧
    (∀ op, reached.1.pendingPassthrough.take op.room <+: (step codec reached.1 op).2.returned) ∧
    ∀ awaited server rounds first,
      let answer := (step codec reached.1 (.waitForCorrelation awaited server first rounds)).2
      (∀ x ∈ answer.returned, Answers codec awaited x) ∧
      ∀ x, first = true → reached.1.pendingPassthrough.find?
        (fun x => awaited.isMatch (convertEventItem codec x)) = some x → answer.returned = [x] := by
  refine ⟨?_, fun op => take_prefix_returned op, fun awaited server rounds first => ⟨?_, ?_⟩⟩
  · exact (accounts_rule codec).run (accounts_fresh keys sizes policies useScheduler) ops
  · exact wait_answers awaited server first rounds
  · intro x hfirst hx
    rw [hfirst]
    exact wait_parked_match hx server rounds

/-! ### Where a wait departs from it -/

def unitCodec : EventCodec Unit Unit where
  dataToArrowArray _ := .ok ()
  parseJson _ := .ok ()

/-- The response to request `q`. -/
def response : EventItem Unit :=
  .zenohInput ⟨"response"⟩ ⟨(∅ : MetadataParameters).insert REQUEST_ID (.string "q")⟩ ()

def reload : EventItem Unit := .nodeEvent (.reload none)

def stop : EventItem Unit := .nodeEvent .stop

/-- A wait for the response to `q` that gives up after the rounds in which `batches` arrive. -/
def waitThrough (batches : List (List (EventItem Unit))) : StreamOp Unit :=
  .waitForCorrelation (.serviceResponse "q") ⟨"server"⟩ true
    (batches.map (fun items => ⟨items, false⟩) ++ [⟨[], true⟩])

/-- A wait that times out leaves an event parked and the response in the scheduler; the next wait
gives the response and leaves the parked event where it is. -/
def overtaken : EventStream Unit :=
  (run (step unitCodec) (fresh [] ∅ ∅ true) [waitThrough [[reload, response]]]).1

/-- A wait parks the `Stop` that ends it; the next wait discards what is queued behind it although
no call has given the `Stop` to the caller. -/
def ended : EventStream Unit × List (StreamAnswer Unit) :=
  run (step unitCodec) (fresh [] ∅ ∅ true) [waitThrough [[stop, reload]], waitThrough [[]]]

theorem wait_overtakes_and_discards_early :
    (overtaken.pendingPassthrough = [reload] ∧
      overtaken.scheduler.queueOf ⟨"response"⟩ = [response] ∧
      (step unitCodec overtaken (waitThrough [[]])).2.returned = [response] ∧
      (step unitCodec overtaken (waitThrough [[]])).1.pendingPassthrough = [reload]) ∧
    (ended.2.flatMap StreamAnswer.returned = [] ∧ ended.1.pendingPassthrough = [stop] ∧
      ended.1.receiver = [] ∧ ended.1.scheduler.queueOf NON_INPUT_EVENT_ID = [] ∧
      ended.1.scheduler.dropped.getD NON_INPUT_EVENT_ID 0 = 0) :=
  ⟨⟨rfl, rfl, rfl, rfl⟩, rfl, rfl, rfl, rfl, rfl⟩

end Dora.StreamConservation
