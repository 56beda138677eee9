import Dora.Core.ZenohKeys
import Dora.Lib.Machine

/-!
# ROS 2 service servers (`binaries/ros2-bridge-node/src/main.rs`)

A service server of the bridge hands each request of a ROS client to the dataflow under a request id and
sends the response with this id back. Requests that nobody answers expire; the scan for them is skipped as
long as the time of the oldest insertion shows that there are none. DDS and Zenoh share the loop.
-/

namespace Dora.Ros2

open Std Lib

def MAX_PENDING_REQUESTS : Nat := 64

def SERVICE_RESPONSE_TIMEOUT : Nat := 30000

/-- The requests that wait for a response, with their time of insertion; `ν` identifies a request to the
ROS client. -/
structure Pending (ν : Type) where
  requests : TreeMap String (ν × Nat) := ∅
  oldestInsert : Option Nat := none

inductive Event (ν : Type) where
  /-- A request arrives; if it is admitted, `requestId` is issued for it. -/
  | request (requestId : String) (id : ν) (now : Nat)
  /-- An input of the dataflow, with the request id of its metadata. -/
  | response (requestId : Option String)

inductive Output (ν : Type) where
  | issued (requestId : String) (id : ν) (now : Nat)
  | dropped
  | sent (requestId : String) (id : ν)
  | ignored

section Loop

variable {ν : Type}

def Pending.evict (s : Pending ν) (now : Nat) : Pending ν :=
  if s.oldestInsert.any fun t => SERVICE_RESPONSE_TIMEOUT ≤ now - t then
    let requests := s.requests.filter fun _ entry => now - entry.2 < SERVICE_RESPONSE_TIMEOUT
    { requests, oldestInsert := (requests.toList.map fun entry => entry.2.2).min? }
  else s

def step (s : Pending ν) : Event ν → Pending ν × Output ν
  | .request requestId id now =>
    let s := s.evict now
    if MAX_PENDING_REQUESTS ≤ s.requests.size then (s, .dropped)
    else
      ({ requests := s.requests.insert requestId (id, now), oldestInsert := some (s.oldestInsert.getD now) },
        .issued requestId id now)
  | .response none => (s, .ignored)
  | .response (some requestId) =>
    match s.requests[requestId]? with
    | some (id, _) => ({ s with requests := s.requests.erase requestId }, .sent requestId id)
    | none => (s, .ignored)

def Event.requestId? : Event ν → Option String
  | .request requestId _ _ => some requestId
  | .response _ => none

def Event.now? : Event ν → Option Nat
  | .request _ _ now => some now
  | .response _ => none

structure Orderly (events : List (Event ν)) : Prop where
  ids : (events.filterMap Event.requestId?).Nodup
  clock : (events.filterMap Event.now?).Pairwise (· ≤ ·)

/-- `requestId` was issued for the request `id` at the time `t`, and no response to it was sent. -/
def Unanswered (outs : List (Output ν)) (requestId : String) (id : ν) (t : Nat) : Prop :=
  .issued requestId id t ∈ outs ∧ ∀ id', .sent requestId id' ∉ outs

def Bounded (s : Pending ν) : Prop :=
  ∀ (k : String) (id : ν) (t : Nat), s.requests[k]? = some (id, t) →
    ∃ oldest, s.oldestInsert = some oldest ∧ oldest ≤ t

structure Serving (events : List (Event ν)) (outs : List (Output ν)) (s : Pending ν) : Prop where
  bound : Bounded s
  read : ∀ t, s.oldestInsert = some t → t ∈ events.filterMap Event.now?
  unanswered : ∀ (k : String) (id : ν) (t : Nat), s.requests[k]? = some (id, t) → Unanswered outs k id t
  issued : ∀ k id t, .issued k id t ∈ outs →
    k ∈ events.filterMap Event.requestId? ∧ t ∈ events.filterMap Event.now?
  sent : ∀ k id, .sent k id ∈ outs → ∃ t, .issued k id t ∈ outs

variable {events : List (Event ν)} {outs : List (Output ν)} {s : Pending ν}
  {k : String} {id : ν} {now t : Nat}

theorem mem_of_evict (h : (s.evict now).requests[k]? = some (id, t)) : s.requests[k]? = some (id, t) := by
  unfold Pending.evict at h
  split at h
  · rw [TreeMap.getElem?_filter'] at h
    exact (Option.filter_eq_some_iff.mp h).1
  · exact h

theorem Bounded.young (hs : Bounded s) (h : (s.evict now).requests[k]? = some (id, t)) :
    now - t < SERVICE_RESPONSE_TIMEOUT := by
  unfold Pending.evict at h
  split at h
  next =>
    rw [TreeMap.getElem?_filter'] at h
    exact of_decide_eq_true (Option.filter_eq_some_iff.mp h).2
  next hskip =>
    obtain ⟨oldest, holdest, hle⟩ := hs k id t h
    rw [holdest, Option.any_some, decide_eq_true_iff] at hskip
    omega

theorem Bounded.evict (hs : Bounded s) : Bounded (s.evict now) := by
  unfold Pending.evict
  split
  next =>
    intro k id t h
    have hmem := List.mem_map_of_mem (f := fun entry : String × ν × Nat => entry.2.2)
      (TreeMap.mem_toList_iff_getElem?_eq_some.mpr h)
    cases hmin : (List.map (fun entry : String × ν × Nat => entry.2.2) _).min? with
    | none => rw [List.min?_eq_none_iff.mp hmin] at hmem; cases hmem
    | some oldest => exact ⟨oldest, hmin, (List.min?_eq_some_iff.mp hmin).2 _ hmem⟩
  next => exact hs

theorem oldest_of_evict {oldest : Nat} (h : (s.evict now).oldestInsert = some oldest) :
    s.oldestInsert = some oldest ∨ ∃ k id, s.requests[(k : String)]? = some (id, oldest) := by
  by_cases hscan : (s.oldestInsert.any fun t => SERVICE_RESPONSE_TIMEOUT ≤ now - t) = true
  · right
    have hmem := h
    rw [Pending.evict, if_pos hscan] at hmem
    obtain ⟨⟨k, id, t⟩, hentry, rfl⟩ := List.mem_map.mp (List.min?_eq_some_iff.mp hmem).1
    have hkept : (s.evict now).requests[k]? = some (id, t) := by
      rw [Pending.evict, if_pos hscan]
      exact TreeMap.mem_toList_iff_getElem?_eq_some.mp hentry
    exact ⟨k, id, mem_of_evict hkept⟩
  · rw [Pending.evict, if_neg hscan] at h
    exact .inl h

theorem Serving.evict (h : Serving events outs s) : Serving events outs (s.evict now) := by
  refine ⟨h.bound.evict, fun t ht => ?_, fun k id t hk => h.unanswered k id t (mem_of_evict hk),
    h.issued, h.sent⟩
  obtain ht | ⟨k, id, hk⟩ := oldest_of_evict ht
  · exact h.read t ht
  · exact (h.issued k id t (h.unanswered k id t hk).1).2

theorem Orderly.sublist {events' : List (Event ν)} (h : Orderly events) (hsub : events'.Sublist events) :
    Orderly events' :=
  ⟨h.ids.sublist (hsub.filterMap _), h.clock.sublist (hsub.filterMap _)⟩

theorem Serving.extend (h : Serving events outs s) (e : Event ν) {o : Output ν}
    (hissued : ∀ k id t, o ≠ .issued k id t) (hsent : ∀ k id, o ≠ .sent k id) :
    Serving (events ++ [e]) (outs ++ [o]) s := by
  have hold {o' : Output ν} (hne : o ≠ o') : o' ∈ outs ++ [o] ↔ o' ∈ outs := by
    simp [Ne.symm hne]
  refine ⟨h.bound, fun t ht => ?_, fun k id t hk => ?_, fun k id t hk => ?_, fun k id hk => ?_⟩
  · rw [List.filterMap_append]
    exact List.mem_append_left _ (h.read t ht)
  · obtain ⟨hin, hno⟩ := h.unanswered k id t hk
    exact ⟨List.mem_append_left _ hin, fun id' hin' => hno id' ((hold (hsent k id')).mp hin')⟩
  · obtain ⟨hkey, htime⟩ := h.issued k id t ((hold (hissued k id t)).mp hk)
    rw [List.filterMap_append, List.filterMap_append]
    exact ⟨List.mem_append_left _ hkey, List.mem_append_left _ htime⟩
  · obtain ⟨t, ht⟩ := h.sent k id ((hold (hsent k id)).mp hk)
    exact ⟨t, List.mem_append_left _ ht⟩

theorem Serving.admit (h : Serving events outs s) (horder : Orderly (events ++ [.request k id now])) :
    Serving (events ++ [.request k id now]) (outs ++ [.issued k id now])
      { requests := s.requests.insert k (id, now), oldestInsert := some (s.oldestInsert.getD now) } := by
  have hfresh : k ∉ events.filterMap Event.requestId? := by
    have hids := horder.ids
    rw [List.filterMap_append, List.nodup_append] at hids
    exact fun hmem => hids.2.2 k hmem k List.mem_cons_self rfl
  have hclock : ∀ t ∈ events.filterMap Event.now?, t ≤ now := by
    have hclock := horder.clock
    rw [List.filterMap_append, List.pairwise_append] at hclock
    exact fun t ht => hclock.2.2 t ht now List.mem_cons_self
  have hlookup (k' : String) : (s.requests.insert k (id, now))[k']? =
      if k' = k then some (id, now) else s.requests[k']? := by
    simp only [TreeMap.getElem?_insert, Std.compare_eq_iff_eq, @eq_comm _ k]
  refine ⟨fun k' id' t hk' => ?_, fun t ht => ?_, fun k' id' t hk' => ?_, fun k' id' t hk' => ?_,
    fun k' id' hk' => ?_⟩
  · rw [hlookup] at hk'
    split at hk'
    · cases hk'
      refine ⟨_, rfl, ?_⟩
      cases hold : s.oldestInsert with
      | none => exact le_rfl
      | some oldest => exact hclock oldest (h.read oldest hold)
    · obtain ⟨oldest, hold, hle⟩ := h.bound k' id' t hk'
      exact ⟨oldest, by rw [hold]; rfl, hle⟩
  · rw [List.filterMap_append]
    cases hold : s.oldestInsert with
    | none =>
      rw [hold] at ht
      cases ht
      exact List.mem_append_right _ List.mem_cons_self
    | some oldest =>
      rw [hold] at ht
      cases ht
      exact List.mem_append_left _ (h.read _ hold)
  · rw [hlookup] at hk'
    split at hk'
    · rename_i heq
      cases hk'
      subst heq
      refine ⟨List.mem_append_right _ List.mem_cons_self, fun id' hmem => ?_⟩
      obtain hmem | hmem := List.mem_append.mp hmem
      · obtain ⟨t, ht⟩ := h.sent _ id' hmem
        exact hfresh (h.issued _ id' t ht).1
      · simp at hmem
    · obtain ⟨hin, hno⟩ := h.unanswered k' id' t hk'
      exact ⟨List.mem_append_left _ hin, fun id'' hmem => by simp [hno id''] at hmem⟩
  · rw [List.filterMap_append, List.filterMap_append]
    obtain hk' | hk' := List.mem_append.mp hk'
    · obtain ⟨hkey, htime⟩ := h.issued k' id' t hk'
      exact ⟨List.mem_append_left _ hkey, List.mem_append_left _ htime⟩
    · cases List.mem_singleton.mp hk'
      exact ⟨List.mem_append_right _ List.mem_cons_self, List.mem_append_right _ List.mem_cons_self⟩
  · obtain ⟨t, ht⟩ := h.sent k' id' (by simpa using hk')
    exact ⟨t, List.mem_append_left _ ht⟩

theorem Serving.respond (h : Serving events outs s) (hk : s.requests[k]? = some (id, t)) :
    Serving (events ++ [.response (some k)]) (outs ++ [.sent k id])
      { s with requests := s.requests.erase k } := by
  have hlookup {k' : String} {entry : ν × Nat} (hk' : (s.requests.erase k)[k']? = some entry) :
      k ≠ k' ∧ s.requests[k']? = some entry := by
    rw [TreeMap.getElem?_erase] at hk'
    split at hk'
    · cases hk'
    · rename_i hne
      exact ⟨fun heq => hne (Std.compare_eq_iff_eq.mpr heq), hk'⟩
  have hsame : (events ++ [Event.response (some k)]).filterMap Event.now? = events.filterMap Event.now? ∧
      (events ++ [Event.response (some k)]).filterMap Event.requestId? =
        events.filterMap Event.requestId? := by
    simp [Event.now?, Event.requestId?]
  refine ⟨fun k' id' t hk' => h.bound k' id' t (hlookup hk').2, ?_, fun k' id' t hk' => ?_,
    fun k' id' t hk' => ?_, fun k' id' hk' => ?_⟩
  · rw [hsame.1]
    exact h.read
  · obtain ⟨hne, hk'⟩ := hlookup hk'
    obtain ⟨hin, hno⟩ := h.unanswered k' id' t hk'
    exact ⟨List.mem_append_left _ hin, fun id'' hmem => by simp [hno id'', hne.symm] at hmem⟩
  · rw [hsame.1, hsame.2]
    exact h.issued k' id' t (by simpa using hk')
  · obtain hk' | hk' := List.mem_append.mp hk'
    · obtain ⟨t, ht⟩ := h.sent k' id' hk'
      exact ⟨t, List.mem_append_left _ ht⟩
    · cases List.mem_singleton.mp hk'
      exact ⟨t, List.mem_append_left _ (h.unanswered k id t hk).1⟩

theorem Serving.step (e : Event ν) (h : Serving events outs s) (horder : Orderly (events ++ [e])) :
    Serving (events ++ [e]) (outs ++ [(step s e).2]) (step s e).1 := by
  cases e with
  | request k id now =>
    dsimp only [Ros2.step]
    split
    · exact h.evict.extend _ nofun nofun
    · exact h.evict.admit horder
  | response k =>
    cases k with
    | none => exact h.extend _ nofun nofun
    | some k =>
      dsimp only [Ros2.step]
      split
      next id t hk => exact h.respond hk
      next => exact h.extend _ nofun nofun

theorem serving_run (events : List (Event ν)) (horder : Orderly events) :
    Serving events (run Ros2.step {} events).2 (run Ros2.step {} events).1 := by
  induction events using List.reverseRecOn with
  | nil => exact ⟨by simp [Bounded], nofun, by simp, nofun, nofun⟩
  | append_singleton events e ih =>
    rw [run_concat]
    exact (ih (horder.sublist (List.sublist_append_left _ _))).step e horder

/-- What the loop does with the event that follows the events `before`. -/
structure ServesAt (before : List (Event ν)) (e : Event ν) : Prop where
  bound : Bounded (run Ros2.step {} before).1
  /-- No request that waits at the capacity check has timed out. -/
  young : ∀ key id now, e = .request key id now → ∀ (k : String) (id' : ν) (t : Nat),
    ((run Ros2.step {} before).1.evict now).requests[k]? = some (id', t) → now - t < SERVICE_RESPONSE_TIMEOUT
  drops : ∀ key id now, e = .request key id now → (Ros2.step (run Ros2.step {} before).1 e).2 = .dropped →
    ∃ waiting : List (String × ν × Nat), MAX_PENDING_REQUESTS ≤ waiting.length ∧
      (waiting.map Prod.fst).Nodup ∧ ∀ w ∈ waiting, now - w.2.2 < SERVICE_RESPONSE_TIMEOUT ∧
        Unanswered (run Ros2.step {} before).2 w.1 w.2.1 w.2.2
  sends : ∀ k id, (Ros2.step (run Ros2.step {} before).1 e).2 = .sent k id →
    e = .response (some k) ∧ ∃ t, Unanswered (run Ros2.step {} before).2 k id t

theorem servesAt (before : List (Event ν)) (e : Event ν) (horder : Orderly (before ++ [e])) :
    ServesAt before e := by
  have h := serving_run before (horder.sublist (List.sublist_append_left _ _))
  generalize hrun : run Ros2.step {} before = r at h
  refine ⟨hrun ▸ h.bound, fun key id now _ k id' t hk => ?_, fun key id now he hdrop => ?_,
    fun k id hsent => ?_⟩
  · exact h.bound.young (hrun ▸ hk)
  · subst he
    rw [hrun] at hdrop ⊢
    dsimp only [Ros2.step] at hdrop
    split at hdrop
    next hfull =>
      refine ⟨(r.1.evict now).requests.toList, hfull.trans_eq TreeMap.length_toList.symm, ?_, ?_⟩
      · rw [TreeMap.map_fst_toList_eq_keys]
        exact TreeMap.nodup_keys
      · rintro ⟨k, id', t⟩ hmem
        have hk := TreeMap.mem_toList_iff_getElem?_eq_some.mp hmem
        exact ⟨h.bound.young hk, h.evict.unanswered k id' t hk⟩
    next => cases hdrop
  · rw [hrun] at hsent ⊢
    cases e with
    | request =>
      dsimp only [Ros2.step] at hsent
      split at hsent <;> cases hsent
    | response key =>
      cases key with
      | none => cases hsent
      | some key =>
        dsimp only [Ros2.step] at hsent
        split at hsent
        next id' t hk =>
          cases hsent
          exact ⟨rfl, t, h.unanswered k id t hk⟩
        next => cases hsent

end Loop

/-! ## The server over Zenoh (`ros2-bridge/src/transport/zenoh/service.rs`) -/

structure ServiceRequestId where
  sequenceNumber : Int
  clientGid : Vector UInt8 16
deriving DecidableEq

def hexGid (gid : Vector UInt8 16) : String := String.ofList (gid.toList.flatMap Zenoh.hexPair)

def requestKey (id : ServiceRequestId) : String := id.sequenceNumber.repr ++ ":" ++ hexGid id.clientGid

theorem repr_injective : Function.Injective Int.repr := by
  have hsign (m n : Nat) : m.repr ≠ "-" ++ n.succ.repr := fun h =>
    not_mem_natRepr (c := '-') rfl m (h ▸ by simp)
  rintro (m | m) (n | n) h
  · exact congrArg Int.ofNat (Nat.repr_injective h)
  · exact absurd h (hsign m n)
  · exact absurd h.symm (hsign n m)
  · exact congrArg Int.negSucc (Nat.succ_injective (Nat.repr_injective ((String.append_right_inj _).mp h)))

theorem colon_not_mem_repr (n : Int) : ':' ∉ n.repr.toList := by
  cases n with
  | ofNat m => exact not_mem_natRepr rfl m
  | negSucc m =>
    have hrest := not_mem_natRepr (c := ':') rfl m.succ
    simpa [Int.repr] using hrest

theorem requestKey_injective : Function.Injective requestKey := by
  rintro ⟨n, gid⟩ ⟨n', gid'⟩ h
  have hlist := congrArg String.toList h
  simp only [requestKey, hexGid, String.toList_append, List.append_assoc] at hlist
  obtain ⟨hn, hgid⟩ := append_sep_inj (colon_not_mem_repr n) (colon_not_mem_repr n') hlist
  have hgid := Zenoh.flatMap_hexPair_injective (String.ofList_injective (String.toList_injective hgid))
  rw [repr_injective (String.toList_injective hn), Vector.toList_inj.mp hgid]

instance : Ord ServiceRequestId := ⟨compareOn requestKey⟩
instance : TransOrd ServiceRequestId := inferInstanceAs (TransCmp (compareOn requestKey))
instance : LawfulEqOrd ServiceRequestId := lawfulEqOn _ requestKey_injective

inductive ServiceError where
  | pendingLimit (limit : Nat)
  | requestAbsent
  | requestExpired

section Zenoh

variable {τ : Type}

/-- The queries of the clients until they are answered; `τ` is the type of a query. -/
structure PendingRequests (τ : Type) where
  values : TreeMap ServiceRequestId (τ × Nat) := ∅
  limit : Nat := MAX_PENDING_REQUESTS
  expiry : Nat := SERVICE_RESPONSE_TIMEOUT

namespace PendingRequests

def expire (p : PendingRequests τ) (now : Nat) : PendingRequests τ :=
  { p with values := p.values.filter fun _ entry => now - entry.2 < p.expiry }

def insert (p : PendingRequests τ) (id : ServiceRequestId) (value : τ) (now : Nat) :
    PendingRequests τ × Except ServiceError Unit :=
  let p := p.expire now
  if p.limit ≤ p.values.size && !p.values.contains id then (p, .error (.pendingLimit p.limit))
  else ({ p with values := p.values.insert id (value, now) }, .ok ())

def take (p : PendingRequests τ) (id : ServiceRequestId) (now : Nat) :
    PendingRequests τ × Except ServiceError τ :=
  match p.values[id]? with
  | some (value, inserted) =>
    if p.expiry ≤ now - inserted then (p.expire now, .error .requestExpired)
    else ({ p with values := p.values.erase id }, .ok value)
  | none => (p, .error .requestAbsent)

end PendingRequests

structure ZenohServer (τ : Type) where
  queries : PendingRequests τ := {}
  channel : List ServiceRequestId := []
  pending : Pending ServiceRequestId := {}

inductive ZenohEvent (τ : Type) where
  /-- A query with a request arrives; `room` says whether the channel to the loop takes the request. -/
  | query (id : ServiceRequestId) (value : τ) (now : Nat) (room : Bool)
  /-- The loop takes a request from the channel, and reads its payload or fails to. -/
  | receive (readable : Bool) (now : Nat)
  | response (requestId : Option String) (now : Nat)

structure ZenohOutput (τ : Type) where
  loop : Option (Event ServiceRequestId) := none
  reply : Option (ServiceRequestId × τ) := none

def zenohStep (s : ZenohServer τ) : ZenohEvent τ → ZenohServer τ × ZenohOutput τ
  | .query id value now room =>
    let inserted := s.queries.insert id value now
    match inserted.2 with
    | .ok () =>
      if room then ({ s with queries := inserted.1, channel := s.channel ++ [id] }, {})
      else ({ s with queries := (inserted.1.take id now).1 }, {})
    | .error _ => ({ s with queries := inserted.1 }, {})
  | .receive readable now =>
    match s.channel with
    | [] => (s, {})
    | id :: channel =>
      if readable then
        let e := .request (requestKey id) id now
        ({ s with channel, pending := (step s.pending e).1 }, { loop := some e })
      else ({ s with channel, queries := (s.queries.take id now).1 }, {})
  | .response requestId now =>
    let e := .response requestId
    let next := step s.pending e
    match next.2 with
    | .sent _ id =>
      let taken := s.queries.take id now
      ({ s with pending := next.1, queries := taken.1 },
        { loop := some e, reply := taken.2.toOption.map (id, ·) })
    | _ => ({ s with pending := next.1 }, { loop := some e })

def ZenohEvent.id? : ZenohEvent τ → Option ServiceRequestId
  | .query id _ _ _ => some id
  | _ => none

def ZenohEvent.now : ZenohEvent τ → Nat
  | .query _ _ now _ | .receive _ now | .response _ now => now

variable {p : PendingRequests τ} {id id' : ServiceRequestId} {value value' : τ} {now t : Nat}

theorem mem_of_expire (h : (p.expire now).values[id]? = some (value, t)) :
    p.values[id]? = some (value, t) := by
  rw [PendingRequests.expire, TreeMap.getElem?_filter'] at h
  exact (Option.filter_eq_some_iff.mp h).1

theorem mem_of_insert (h : (p.insert id' value' now).1.values[id]? = some (value, t)) :
    p.values[id]? = some (value, t) ∨ id = id' ∧ value = value' := by
  unfold PendingRequests.insert at h
  dsimp only at h
  split at h
  · exact .inl (mem_of_expire h)
  · rw [TreeMap.getElem?_insert] at h
    split at h
    · rename_i heq
      cases h
      exact .inr ⟨(Std.compare_eq_iff_eq.mp heq).symm, rfl⟩
    · exact .inl (mem_of_expire h)

theorem mem_of_take (h : (p.take id' now).1.values[id]? = some (value, t)) :
    p.values[id]? = some (value, t) := by
  unfold PendingRequests.take at h
  split at h
  · split at h
    · exact mem_of_expire h
    · rw [TreeMap.getElem?_erase] at h
      split at h
      · cases h
      · exact h
  · exact h

theorem take_ok (h : (p.take id now).2.toOption = some value) : ∃ t, p.values[id]? = some (value, t) := by
  unfold PendingRequests.take at h
  split at h
  next value' t hid =>
    split at h
    · cases h
    · cases h
      exact ⟨t, hid⟩
  next => cases h

/-- What holds between the events of a run over Zenoh: the requests that the loop has received and those
in the channel are some of the queries, in their order. -/
structure ZenohServing (events : List (ZenohEvent τ)) (loop : List (Event ServiceRequestId))
    (replies : List (ServiceRequestId × τ)) (s : ZenohServer τ) : Prop where
  pending : s.pending = (run step {} loop).1
  queries : ∀ (id : ServiceRequestId) (value : τ) (t : Nat), s.queries.values[id]? = some (value, t) →
    ∃ now room, .query id value now room ∈ events
  received : ((loop.filterMap Event.requestId?) ++ s.channel.map requestKey).Sublist
    ((events.filterMap ZenohEvent.id?).map requestKey)
  clock : (loop.filterMap Event.now?).Sublist (events.map ZenohEvent.now)
  keys : ∀ k id t, .issued k id t ∈ (run step {} loop).2 → k = requestKey id
  replied : (replies.map Prod.fst).Nodup ∧ ∀ r ∈ replies, .sent (requestKey r.1) r.1 ∈ (run step {} loop).2

structure ZenohOrderly (events : List (ZenohEvent τ)) : Prop where
  ids : (events.filterMap ZenohEvent.id?).Nodup
  clock : (events.map ZenohEvent.now).Pairwise (· ≤ ·)

variable {events : List (ZenohEvent τ)} {loop : List (Event ServiceRequestId)}
  {replies : List (ServiceRequestId × τ)} {s : ZenohServer τ}

theorem ZenohServing.orderly (h : ZenohServing events loop replies s) (horder : ZenohOrderly events) :
    Orderly loop :=
  ⟨((horder.ids.map requestKey_injective).sublist h.received).of_append_left, horder.clock.sublist h.clock⟩

theorem filterMap_concat {α β : Type} (f : α → Option β) (l : List α) (a : α) :
    (l ++ [a]).filterMap f = l.filterMap f ++ (f a).toList := by
  rw [List.filterMap_append]
  cases h : f a <;> simp [h]

theorem ZenohOrderly.sublist {events' : List (ZenohEvent τ)} (h : ZenohOrderly events)
    (hsub : events'.Sublist events) : ZenohOrderly events' :=
  ⟨h.ids.sublist (hsub.filterMap _), h.clock.sublist (hsub.map _)⟩

theorem ZenohServing.quiet (h : ZenohServing events loop replies s) (e : ZenohEvent τ) {s' : ZenohServer τ}
    (hpending : s'.pending = s.pending)
    (hqueries : ∀ (id : ServiceRequestId) (value : τ) (t : Nat), s'.queries.values[id]? = some (value, t) →
      ∃ now room, .query id value now room ∈ events ++ [e])
    (hchannel : (s'.channel).Sublist (s.channel ++ e.id?.toList)) :
    ZenohServing (events ++ [e]) loop replies s' := by
  refine ⟨hpending.trans h.pending, hqueries, ?_, ?_, h.keys, h.replied⟩
  · rw [filterMap_concat, List.map_append]
    refine .trans ?_ (h.received.append_right _)
    rw [List.append_assoc, ← List.map_append]
    exact (hchannel.map requestKey).append_left _
  · rw [List.map_append]
    exact h.clock.trans (List.sublist_append_left _ _)

theorem issued_of_step {q : Pending ServiceRequestId} {le : Event ServiceRequestId} {k : String}
    (h : (Ros2.step q le).2 = .issued k id t) : le = .request k id t := by
  cases le with
  | request =>
    dsimp only [Ros2.step] at h
    split at h
    · cases h
    · cases h
      rfl
  | response key =>
    cases key with
    | none => cases h
    | some key =>
      dsimp only [Ros2.step] at h
      split at h <;> cases h

theorem ZenohServing.loopEvent (h : ZenohServing events loop replies s) (e : ZenohEvent τ)
    (le : Event ServiceRequestId) (hkey : ∀ k id t, le = .request k id t → k = requestKey id)
    {s' : ZenohServer τ} (hpending : s'.pending = (Ros2.step s.pending le).1)
    (hqueries : ∀ (id : ServiceRequestId) (value : τ) (t : Nat), s'.queries.values[id]? = some (value, t) →
      ∃ now room, .query id value now room ∈ events ++ [e])
    (hchannel : le.requestId?.toList ++ s'.channel.map requestKey = s.channel.map requestKey)
    (hclock : le.now?.toList.Sublist [e.now]) :
    ZenohServing (events ++ [e]) (loop ++ [le]) replies s' := by
  refine ⟨?_, hqueries, ?_, ?_, fun k id t hissued => ?_, h.replied.1, fun r hr => ?_⟩
  · rw [run_concat, hpending, h.pending]
  · rw [filterMap_concat, List.append_assoc, hchannel, filterMap_concat, List.map_append]
    exact h.received.trans (List.sublist_append_left _ _)
  · rw [filterMap_concat, List.map_append]
    exact h.clock.append hclock
  · rw [run_concat] at hissued
    obtain hissued | hissued := List.mem_append.mp hissued
    · exact h.keys k id t hissued
    · exact hkey k id t (issued_of_step (List.mem_singleton.mp hissued).symm)
  · rw [run_concat]
    exact List.mem_append_left _ (h.replied.2 r hr)

theorem ZenohServing.step (e : ZenohEvent τ) (h : ZenohServing events loop replies s)
    (horder : ZenohOrderly (events ++ [e])) :
    ZenohServing (events ++ [e]) (loop ++ (zenohStep s e).2.loop.toList)
        (replies ++ (zenohStep s e).2.reply.toList) (zenohStep s e).1 ∧
      ∀ r, (zenohStep s e).2.reply = some r →
        ∃ now t room, e = .response (some (requestKey r.1)) now ∧ .query r.1 r.2 t room ∈ events := by
  have hold (id : ServiceRequestId) (value : τ) (t : Nat) (hid : s.queries.values[id]? = some (value, t)) :
      ∃ now room, .query id value now room ∈ events ++ [e] := by
    obtain ⟨now, room, hmem⟩ := h.queries id value t hid
    exact ⟨now, room, List.mem_append_left _ hmem⟩
  cases e with
  | query id' value' now room =>
    have hnew (id : ServiceRequestId) (value : τ) (t : Nat)
        (hid : (s.queries.insert id' value' now).1.values[id]? = some (value, t)) :
        ∃ t room', .query id value t room' ∈ events ++ [.query id' value' now room] := by
      obtain hid | ⟨rfl, rfl⟩ := mem_of_insert hid
      · exact hold id value t hid
      · exact ⟨now, room, List.mem_append_right _ List.mem_cons_self⟩
    dsimp only [zenohStep]
    split
    · split
      · simp only [Option.toList_none, List.append_nil]
        exact ⟨h.quiet _ rfl hnew (List.Sublist.refl _), nofun⟩
      · simp only [Option.toList_none, List.append_nil]
        exact ⟨h.quiet _ rfl (fun id value t hid => hnew id value t (mem_of_take hid))
          (List.sublist_append_left _ _), nofun⟩
    · simp only [Option.toList_none, List.append_nil]
      exact ⟨h.quiet _ rfl hnew (List.sublist_append_left _ _), nofun⟩
  | receive readable now =>
    dsimp only [zenohStep]
    split
    next =>
      simp only [Option.toList_none, List.append_nil]
      exact ⟨h.quiet _ rfl hold (List.sublist_append_left _ _), nofun⟩
    next id' channel hchannel =>
      split
      · simp only [Option.toList_none, List.append_nil, Option.toList_some]
        refine ⟨h.loopEvent _ _ (fun k id t heq => ?_) rfl hold ?_ (List.Sublist.refl _), nofun⟩
        · cases heq
          rfl
        · rw [hchannel]
          rfl
      · simp only [Option.toList_none, List.append_nil]
        refine ⟨h.quiet _ rfl (fun id value t hid => hold id value t (mem_of_take hid)) ?_, nofun⟩
        rw [hchannel]
        exact (List.sublist_cons_self _ _).trans (List.sublist_append_left _ _)
  | response key now =>
    have hloop {s' : ZenohServer τ} (hpending : s'.pending = (Ros2.step s.pending (.response key)).1)
        (hqueries : ∀ (id : ServiceRequestId) (value : τ) (t : Nat),
          s'.queries.values[id]? = some (value, t) →
            ∃ t room, .query id value t room ∈ events ++ [.response key now])
        (hchannel : s'.channel = s.channel) :
        ZenohServing (events ++ [.response key now]) (loop ++ [.response key]) replies s' :=
      h.loopEvent _ _ (fun _ _ _ heq => by cases heq) hpending hqueries (by rw [hchannel]; rfl)
        (List.nil_sublist _)
    dsimp only [zenohStep]
    split
    next k id hsent =>
      have hnext : ZenohServing _ _ replies { s with
          pending := (Ros2.step s.pending (.response key)).1, queries := (s.queries.take id now).1 } :=
        hloop rfl (fun id' value t hid => hold id' value t (mem_of_take hid)) rfl
      obtain ⟨hkey, t, hissued, hunsent⟩ :=
        (servesAt loop (.response key) (hnext.orderly horder)).sends k id (h.pending ▸ hsent)
      cases hkey
      obtain rfl := h.keys k id t hissued
      simp only [Option.toList_some]
      cases htaken : (s.queries.take id now).2.toOption with
      | none =>
        rw [Option.map_none, Option.toList_none, List.append_nil]
        exact ⟨hnext, nofun⟩
      | some value =>
        rw [Option.map_some, Option.toList_some]
        refine ⟨⟨hnext.pending, hnext.queries, hnext.received, hnext.clock, hnext.keys, ?_, ?_⟩, ?_⟩
        · rw [List.map_append, List.map_singleton]
          refine List.nodup_append.mpr ⟨h.replied.1, List.nodup_singleton _, ?_⟩
          rintro _ hmem _ (_ | ⟨_, ⟨⟩⟩) rfl
          obtain ⟨r, hr, heq⟩ := List.mem_map.mp hmem
          exact hunsent r.1 (heq ▸ h.replied.2 r hr)
        · intro r hr
          obtain hr | hr := List.mem_append.mp hr
          · exact hnext.replied.2 r hr
          · cases List.mem_singleton.mp hr
            rw [run_concat, ← h.pending, hsent]
            exact List.mem_append_right _ List.mem_cons_self
        · rintro r ⟨⟩
          obtain ⟨t, hid⟩ := take_ok htaken
          obtain ⟨t, room, hmem⟩ := h.queries id value t hid
          exact ⟨now, t, room, rfl, hmem⟩
    next =>
      simp only [Option.toList_none, List.append_nil, Option.toList_some]
      exact ⟨hloop rfl hold rfl, nofun⟩

theorem zenohServing_run (events : List (ZenohEvent τ)) (horder : ZenohOrderly events) :
    ZenohServing events ((run zenohStep {} events).2.filterMap ZenohOutput.loop)
      ((run zenohStep {} events).2.filterMap ZenohOutput.reply) (run zenohStep {} events).1 := by
  induction events using List.reverseRecOn with
  | nil => exact ⟨rfl, by simp, by simp, by simp, nofun, by simp⟩
  | append_singleton events e ih =>
    rw [run_concat, filterMap_concat, filterMap_concat]
    exact ((ih (horder.sublist (List.sublist_append_left _ _))).step e horder).1

end Zenoh

end Dora.Ros2
