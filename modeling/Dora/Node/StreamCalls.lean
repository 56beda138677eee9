import Dora.Node.EventStream
import Dora.Lib.Machine

/-!
# The calls of the event stream

A run is a list of receive calls and arrivals. Every call is made of a few moves of single events: from
the receiver into the scheduler; from the receiver, the scheduler or the parked events into the hand of the
call; from there to the caller or among the parked events. What these moves keep holds in every run.
-/

namespace Dora.StreamConservation

open Std Lib

variable {ArrayData Json : Type} (codec : EventCodec ArrayData Json)

/-! ## Calls -/

inductive StreamOp (ArrayData : Type) where
  | arrive (items : List (EventItem ArrayData))
  | close
  | recvAsync
  | tryRecv
  | drain (rounds : List (List (EventItem ArrayData)))
  | pollNext
  | waitForCorrelation (awaited : Correlation) (server : NodeId) (first : Bool)
      (rounds : List (EventStream.WaitRound ArrayData))
  | drainDropCounts

inductive StreamAnswer (ArrayData : Type) where
  | none
  | polled (event : Poll (Option (EventItem ArrayData)))
  | tried (event : Except EventStream.TryRecvError (EventItem ArrayData))
  | drained (events : Option (List (EventItem ArrayData)))
  | waited (outcome : Option (Except (EventStream.PatternError ArrayData) (EventItem ArrayData)))
  | counts (dropped : TreeMap DataId Nat)

def step (self : EventStream ArrayData) :
    StreamOp ArrayData → EventStream ArrayData × StreamAnswer ArrayData
  | .arrive items => (self.arrive items, .none)
  | .close => ({ self with closed := true }, .none)
  | .recvAsync => ((self.recvAsync codec).1, .polled (self.recvAsync codec).2)
  | .tryRecv => ((self.tryRecv codec).1, .tried (self.tryRecv codec).2)
  | .drain rounds => ((self.drain codec rounds).1, .drained (self.drain codec rounds).2)
  | .pollNext => ((self.pollNext codec).1, .polled (self.pollNext codec).2)
  | .waitForCorrelation awaited server first rounds =>
    ((self.waitForCorrelation codec awaited server first rounds).1,
      .waited (self.waitForCorrelation codec awaited server first rounds).2)
  | .drainDropCounts =>
    ({ self with scheduler := self.scheduler.drainDropCounts.1 },
      .counts self.scheduler.drainDropCounts.2)

def given : Poll (Option (EventItem ArrayData)) → List (EventItem ArrayData)
  | .ready item => item.toList
  | .pending => []

/-- The event `try_recv` gave. -/
def received {ε : Type} : Except ε (EventItem ArrayData) → List (EventItem ArrayData)
  | .ok item => [item]
  | .error _ => []

def waited : Option (Except (EventStream.PatternError ArrayData) (EventItem ArrayData)) →
    List (EventItem ArrayData)
  | some (.ok item) => [item]
  | some (.error (.streamError item)) => [item]
  | _ => []

def StreamOp.arrivals : StreamOp ArrayData → List (EventItem ArrayData)
  | .arrive items => items
  | .drain rounds => rounds.flatten
  | .waitForCorrelation _ _ _ rounds => rounds.flatMap EventStream.WaitRound.arriving
  | _ => []

def StreamAnswer.returned : StreamAnswer ArrayData → List (EventItem ArrayData)
  | .polled event => given event
  | .tried event => received event
  | .drained events => events.getD []
  | .waited outcome => StreamConservation.waited outcome
  | _ => []

def StreamAnswer.reported : StreamAnswer ArrayData → DataId → Nat
  | .counts dropped, id => dropped.getD id 0
  | _, _ => 0

/-- The drops that were reported under `id`. -/
def reportedUnder (answers : List (StreamAnswer ArrayData)) (id : DataId) : Nat :=
  (answers.map (·.reported id)).sum

/-! ## What every call keeps -/

/-- What went into the stream and what came out. -/
structure Trace (ArrayData : Type) where
  arrivals : List (EventItem ArrayData)
  returned : List (EventItem ArrayData)
  reported : DataId → Nat

namespace Trace

def arrive (t : Trace ArrayData) (items : List (EventItem ArrayData)) : Trace ArrayData :=
  { t with arrivals := t.arrivals ++ items }

def give (t : Trace ArrayData) (items : List (EventItem ArrayData)) : Trace ArrayData :=
  { t with returned := t.returned ++ items }

def after (t : Trace ArrayData) (op : StreamOp ArrayData) (answer : StreamAnswer ArrayData) :
    Trace ArrayData where
  arrivals := t.arrivals ++ op.arrivals
  returned := t.returned ++ answer.returned
  reported id := t.reported id + answer.reported id

def ofRun (ops : List (StreamOp ArrayData)) (answers : List (StreamAnswer ArrayData)) :
    Trace ArrayData where
  arrivals := ops.flatMap StreamOp.arrivals
  returned := answers.flatMap StreamAnswer.returned
  reported := reportedUnder answers

theorem arrive_nil (t : Trace ArrayData) : t.arrive [] = t := by
  rw [arrive, List.append_nil]

theorem arrive_arrive (t : Trace ArrayData) (items items' : List (EventItem ArrayData)) :
    (t.arrive items).arrive items' = t.arrive (items ++ items') := by
  simp only [arrive, List.append_assoc]

theorem give_give (t : Trace ArrayData) (items items' : List (EventItem ArrayData)) :
    (t.give items).give items' = t.give (items ++ items') := by
  simp only [give, List.append_assoc]

theorem ofRun_concat (ops : List (StreamOp ArrayData)) (answers : List (StreamAnswer ArrayData))
    (op : StreamOp ArrayData) (answer : StreamAnswer ArrayData) :
    ofRun (ops ++ [op]) (answers ++ [answer]) = (ofRun ops answers).after op answer := by
  have hreported : reportedUnder (answers ++ [answer]) =
      fun id => reportedUnder answers id + answer.reported id := by
    funext id
    rw [reportedUnder, List.map_append, List.sum_append]
    rfl
  simp only [ofRun, after, List.flatMap_append, List.flatMap_singleton, hreported]

end Trace

/-- `I` is kept by the moves of single events; `hand` is what a call holds between taking an event and
returning it or setting it aside. -/
structure Rule (I : Trace ArrayData → List (EventItem ArrayData) → EventStream ArrayData → Prop) :
    Prop where
  arrive {t hand self} (items : List (EventItem ArrayData)) (h : I t hand self) :
    I (t.arrive items) hand (self.arrive items)
  flags {t hand self} (closed maybe : Bool) (h : I t hand self) :
    I t hand { self with closed := closed, schedulerMaybeNonempty := maybe }
  store {t item rest} {self : EventStream ArrayData} (h : I t [] { self with receiver := item :: rest }) :
    I t [] ({ self with receiver := rest }.addEvent item)
  exhaust {t self scheduler} (h : I t [] self) (hnext : self.scheduler.next = (none, scheduler)) :
    I t [] { self with scheduler }
  /-- after a `Stop` the control events in front are discarded -/
  discard {t self item scheduler} (h : I t [] self)
    (hnext : self.scheduler.next = (some item, scheduler)) (hstopped : self.stopReceived = true)
    (hcontrol : item.isInput = false) : I t [] { self with scheduler }
  serve {t self item scheduler} (h : I t [] self)
    (hnext : self.scheduler.next = (some item, scheduler))
    (hinput : self.stopReceived = true → item.isInput = true) :
    I t [item] ({ self with scheduler }.noteProducedEvent codec item)
  take {t self item rest} (h : I t [] self) (hreceiver : self.receiver = item :: rest)
    (hrunning : self.stopReceived = false) :
    I t [item] ({ self with receiver := rest }.noteProducedEvent codec item)
  unpark {t self item} {idx : Nat} (h : I t [] self)
    (hitem : self.pendingPassthrough[idx]? = some item) :
    I t [item] { self with pendingPassthrough := self.pendingPassthrough.eraseIdx idx }
  park {t self item} (h : I t [item] self)
    (herror : (convertEventItem codec item).isError = false) :
    I t [] (self.bufferPassthrough codec item)
  give {t hand self} (h : I t hand self) : I (t.give hand) [] self
  report {t self} (h : I t [] self) :
    I { t with reported := fun id => t.reported id + self.scheduler.drainDropCounts.2.getD id 0 } []
      { self with scheduler := self.scheduler.drainDropCounts.1 }

namespace Rule

variable {codec} {I : Trace ArrayData → List (EventItem ArrayData) → EventStream ArrayData → Prop}
  {t : Trace ArrayData} {self : EventStream ArrayData} {item : EventItem ArrayData}
  {items rest : List (EventItem ArrayData)}

theorem unparkFirst (hI : Rule codec I) (h : I t [] self)
    (hparked : self.pendingPassthrough = item :: rest) :
    I t [item] { self with pendingPassthrough := rest } := by
  have hback := hI.unpark h (show self.pendingPassthrough[0]? = some item by rw [hparked]; rfl)
  rwa [hparked] at hback

theorem popFrom (hI : Rule codec I) {inputsOnly : Bool} (h : I t [] self)
    (hinputs : self.stopReceived = inputsOnly) (fuel : Nat) :
    let popped := EventStream.popFrom codec inputsOnly fuel self
    I t popped.2.toList popped.1 ∧ (popped.2 = none → popped.1.stopReceived = inputsOnly) := by
  induction fuel generalizing self with
  | zero => exact ⟨h, fun _ => hinputs⟩
  | succ fuel ih =>
    unfold EventStream.popFrom
    cases hnext : self.scheduler.next with
    | mk out scheduler =>
      cases out with
      | none => exact ⟨hI.exhaust h hnext, fun _ => hinputs⟩
      | some item =>
        dsimp only
        split
        · rename_i hskip
          rw [Bool.and_eq_true, Bool.not_eq_true'] at hskip
          exact ih (hI.discard h hnext (hinputs.trans hskip.1) hskip.2) hinputs
        · rename_i hkeep
          refine ⟨hI.serve h hnext fun hstopped => ?_, fun hnone => by cases hnone⟩
          rw [← hinputs, hstopped] at hkeep
          simpa using hkeep

theorem popScheduled (hI : Rule codec I) {inputsOnly : Bool} (h : I t [] self)
    (hinputs : self.stopReceived = inputsOnly) :
    let popped := self.popScheduled codec inputsOnly
    I t popped.2.toList popped.1 ∧ (popped.2 = none → popped.1.stopReceived = inputsOnly) := by
  unfold EventStream.popScheduled
  split
  · exact ⟨h, fun _ => hinputs⟩
  · exact hI.popFrom h hinputs _

theorem fillScheduler (hI : Rule codec I) (h : I t [] { self with receiver := items }) :
    I t [] (self.fillScheduler items).1 ∧
      (self.fillScheduler items).1.stopReceived = self.stopReceived := by
  induction items generalizing self with
  | nil => exact ⟨h, rfl⟩
  | cons item rest ih =>
    unfold EventStream.fillScheduler
    split
    · exact ih (hI.store h)
    · exact ⟨h, rfl⟩

theorem foldl_addEvent (hI : Rule codec I) (h : I t [] { self with receiver := items }) :
    I t [] (items.foldl EventStream.addEvent { self with receiver := [] }) ∧
      (items.foldl EventStream.addEvent { self with receiver := [] }).stopReceived =
        self.stopReceived := by
  induction items generalizing self with
  | nil => exact ⟨h, rfl⟩
  | cons item rest ih =>
    have hstored : I t [] (EventStream.addEvent { self with receiver := rest } item) := hI.store h
    exact @ih (EventStream.addEvent { self with receiver := [] } item) hstored

theorem recvFromStream (hI : Rule codec I) (h : I t [] self) :
    I t (given (self.recvFromStream codec).2) (self.recvFromStream codec).1 := by
  unfold EventStream.recvFromStream
  split
  · rename_i hstopped
    exact (hI.popScheduled h hstopped).1
  rename_i hrunning
  rw [Bool.not_eq_true] at hrunning
  split
  · -- without a scheduler the receiver is read directly
    split
    · rename_i item rest hreceiver
      exact hI.take h hreceiver hrunning
    · split <;> exact h
  have hfilled : I t [] (self.fillScheduler self.receiver).1 ∧ _ := hI.fillScheduler h
  generalize self.fillScheduler self.receiver = filled at hfilled ⊢
  obtain ⟨filled, _ | _⟩ := filled
  · have hdrained : I t [] filled.drainReceiver ∧ _ := hI.foldl_addEvent hfilled.1
    have hstill : filled.drainReceiver.stopReceived = false :=
      hdrained.2.trans (hfilled.2.trans hrunning)
    dsimp only
    split
    · rename_i hnext
      exact hI.exhaust hdrained.1 hnext
    · rename_i hnext
      exact hI.serve hdrained.1 hnext fun hstopped =>
        absurd (hstill.symm.trans hstopped) Bool.false_ne_true
  · exact hfilled.1

theorem recvAsync (hI : Rule codec I) (h : I t [] self) :
    I t (given (self.recvAsync codec).2) (self.recvAsync codec).1 := by
  unfold EventStream.recvAsync
  split
  · rename_i item rest hparked
    exact hI.unparkFirst h hparked
  · exact hI.recvFromStream h

theorem pollNext (hI : Rule codec I) (h : I t [] self) :
    I t (given (self.pollNext codec).2) (self.pollNext codec).1 := by
  unfold EventStream.pollNext
  split
  · rename_i item rest hparked
    exact hI.unparkFirst h hparked
  split
  · rename_i hstopped
    exact (hI.popScheduled h hstopped).1
  rename_i hrunning
  rw [Bool.not_eq_true] at hrunning
  -- the scheduler is only asked if it may hold something
  have hpopped (popped : EventStream ArrayData × Option (EventItem ArrayData))
      (heq : (if self.schedulerMaybeNonempty then self.popScheduled codec false
        else (self, none)) = popped) :
      I t popped.2.toList popped.1 ∧ (popped.2 = none → popped.1.stopReceived = false) := by
    subst heq
    split
    · exact hI.popScheduled h hrunning
    · exact ⟨h, fun _ => hrunning⟩
  dsimp only
  split
  · rename_i heq
    exact (hpopped _ heq).1
  · rename_i popped heq
    obtain ⟨hnone, hstill⟩ := hpopped _ heq
    have hreset := hI.flags popped.closed false hnone
    split
    · rename_i hreceiver
      exact hI.take hreset hreceiver (hstill rfl)
    · split <;> exact hreset

theorem tryRecv (hI : Rule codec I) (h : I t [] self) :
    I t (received (self.tryRecv codec).2) (self.tryRecv codec).1 := by
  have hpolled := hI.recvAsync h
  unfold EventStream.tryRecv
  generalize self.recvAsync codec = polled at hpolled ⊢
  obtain ⟨polled, (_ | item) | _⟩ := polled <;> exact hpolled

theorem drainLoop (hI : Rule codec I) (h : I t [] self) (rounds : List (List (EventItem ArrayData))) :
    I ((t.arrive rounds.flatten).give (self.drainLoop codec rounds).2.1) []
      (self.drainLoop codec rounds).1 := by
  induction rounds generalizing self t with
  | nil =>
    rw [List.flatten_nil, t.arrive_nil]
    exact hI.give h
  | cons arriving rounds ih =>
    have htried := hI.tryRecv (hI.arrive arriving h)
    rw [List.flatten_cons, ← Trace.arrive_arrive]
    unfold EventStream.drainLoop
    generalize (self.arrive arriving).tryRecv codec = tried at htried ⊢
    obtain ⟨tried, err | item⟩ := tried
    · exact hI.give (hI.arrive rounds.flatten htried)
    · have hrest : I ((((t.arrive arriving).arrive rounds.flatten).give [item]).give _) [] _ :=
        ih (hI.give htried)
      rwa [Trace.give_give] at hrest

theorem drain (hI : Rule codec I) (h : I t [] self) (rounds : List (List (EventItem ArrayData))) :
    I ((t.arrive rounds.flatten).give ((self.drain codec rounds).2.getD [])) []
      (self.drain codec rounds).1 := by
  have hloop := hI.drainLoop h rounds
  unfold EventStream.drain
  split
  · rename_i heq
    rwa [heq] at hloop
  · rename_i heq
    rwa [heq] at hloop

end Rule

theorem isError_of_classify (event : Event ArrayData Json) (server : NodeId)
    (awaited : Correlation)
    (h : classifyCorrelationEvent event server awaited.isMatch ≠ .streamError) :
    event.isError = false := by
  cases event with
  | error => cases awaited <;> exact absurd rfl h
  | _ => rfl

namespace Rule

variable {codec} {I : Trace ArrayData → List (EventItem ArrayData) → EventStream ArrayData → Prop}
  {t : Trace ArrayData} {self : EventStream ArrayData}

theorem waitLoop (hI : Rule codec I) (h : I t [] self) (awaited : Correlation) (server : NodeId)
    (rounds : List (EventStream.WaitRound ArrayData)) :
    I ((t.arrive (rounds.flatMap EventStream.WaitRound.arriving)).give
        (waited (EventStream.waitLoop codec awaited server self rounds).2)) []
      (EventStream.waitLoop codec awaited server self rounds).1 := by
  induction rounds generalizing self t with
  | nil =>
    rw [List.flatMap_nil, t.arrive_nil]
    exact hI.give h
  | cons round rounds ih =>
    have harrived := hI.arrive round.arriving h
    rw [List.flatMap_cons, ← Trace.arrive_arrive]
    unfold EventStream.waitLoop
    dsimp only
    split
    · exact hI.give (hI.arrive _ harrived)
    have hpolled := hI.recvFromStream harrived
    generalize (self.arrive round.arriving).recvFromStream codec = polled at hpolled ⊢
    obtain ⟨polled, (_ | item) | _⟩ := polled
    · exact hI.give (hI.arrive _ hpolled)
    · dsimp only
      have hsafe := isError_of_classify (convertEventItem codec item) server awaited
      generalize classifyCorrelationEvent (convertEventItem codec item) server awaited.isMatch =
        outcome at hsafe ⊢
      -- what is neither the match nor an error is set aside
      cases outcome with
      | «match» | streamError => exact hI.give (hI.arrive _ hpolled)
      | serverRestarted | streamEnded =>
        exact hI.give (hI.arrive _ (hI.park hpolled (hsafe nofun)))
      | passthrough => exact ih (hI.park hpolled (hsafe nofun))
    · exact ih hpolled

theorem waitForCorrelation (hI : Rule codec I) (h : I t [] self) (awaited : Correlation)
    (server : NodeId) (first : Bool) (rounds : List (EventStream.WaitRound ArrayData)) :
    I ((t.arrive (rounds.flatMap EventStream.WaitRound.arriving)).give
        (waited (self.waitForCorrelation codec awaited server first rounds).2)) []
      (self.waitForCorrelation codec awaited server first rounds).1 := by
  unfold EventStream.waitForCorrelation
  dsimp only
  split
  · rename_i pos item hfound
    obtain ⟨idx, -, hitem⟩ := Option.bind_eq_some_iff.mp hfound
    obtain ⟨parked, hparked, hpair⟩ := Option.map_eq_some_iff.mp hitem
    cases hpair
    exact hI.give (hI.arrive _ (hI.unpark h hparked))
  · exact hI.waitLoop h awaited server rounds

theorem step (hI : Rule codec I) (h : I t [] self) (op : StreamOp ArrayData) :
    I (t.after op (step codec self op).2) [] (step codec self op).1 := by
  have hquiet {t : Trace ArrayData} {hand : List (EventItem ArrayData)} {next : EventStream ArrayData}
      (hnext : I t hand next) : I ((t.arrive []).give hand) [] next := by
    rw [t.arrive_nil]
    exact hI.give hnext
  cases op with
  | arrive items => exact hI.give (hI.arrive items h)
  | close => exact hquiet (hI.flags true self.schedulerMaybeNonempty h)
  | recvAsync => exact hquiet (hI.recvAsync h)
  | tryRecv => exact hquiet (hI.tryRecv h)
  | drain rounds => exact hI.drain h rounds
  | pollNext => exact hquiet (hI.pollNext h)
  | waitForCorrelation awaited server first rounds =>
    exact hI.waitForCorrelation h awaited server first rounds
  | drainDropCounts => exact hquiet (hI.report h)

theorem run (hI : Rule codec I) (h : I (Trace.ofRun [] []) [] self) (ops : List (StreamOp ArrayData)) :
    I (Trace.ofRun ops (run (StreamConservation.step codec) self ops).2) []
      (run (StreamConservation.step codec) self ops).1 :=
  run_induction (StreamConservation.step codec)
    (P := fun ops answers self => I (Trace.ofRun ops answers) [] self) h
    (fun ops answers self op _ h => by
      rw [Trace.ofRun_concat]
      exact hI.step h op) ops

end Rule

end Dora.StreamConservation
